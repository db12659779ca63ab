import Workbench.Orders.Lifecycle
import Mathlib.Algebra.Order.Round
import Mathlib.Tactic.FieldSimp
import Mathlib.Tactic.Positivity

/-!
# REST settlement

Model of `app/orders/settlement.py`: `_missing_increment` with every refusal, and
`resolve_broker_outcome` with `apply=True`, as the list of payloads it hands to
`TradeUpdateConsumer._handle`, one after the other.

The broker's report carries its cumulative filled quantity and an average price it rounds as it likes,
so the average is part of the report and not computed from the executions.
-/

namespace Workbench.Orders
open Workbench.Lib Workbench.Risk

/-- The broker's status of an order, as far as the settlement distinguishes them. -/
inductive BrokerStatus where
  | working
  | partiallyFilled
  | filled
  | ended (event : TerminalEvent)
  deriving DecidableEq, Repr

/-- What `get_order` returns. -/
structure BrokerReport where
  status : BrokerStatus
  filledQty : ℚ
  filledAvgPrice : ℚ

/-- Python `_notional_tolerance`. -/
def notionalTolerance (qty : ℚ) : ℚ := |qty| * (2 / 10000) + 1 / 100

/-- The refusals of `_missing_increment`. -/
inductive SettlementError where
  | shrinkingFill
  | noAveragePrice
  | pricesDisagree
  | nonPositiveNotional
  | nonPositivePrice
  deriving DecidableEq, Repr

/-! ## Decimals -/

/-- `x` has at most `k` decimals. -/
def Decimals (k : Nat) (x : ℚ) : Prop := ∃ n : ℤ, x = n / 10 ^ k

/-- `y` is one of the numbers of `k` decimals that are nearest to `x`. -/
structure Nearest (k : Nat) (x y : ℚ) : Prop where
  decimals : Decimals k y
  near : |y - x| ≤ 1 / 2 / 10 ^ k

/-- A number of `k` decimals is the only one that is nearest to itself. -/
lemma Nearest.eq {k : Nat} {x y : ℚ} (h : Nearest k x y) (decimals : Decimals k x) : y = x := by
  obtain ⟨⟨m, rfl⟩, near⟩ := h
  obtain ⟨n, rfl⟩ := decimals
  have unit : (0 : ℚ) < 10 ^ k := by positivity
  rw [← sub_div, abs_div, abs_of_pos unit, div_le_div_iff_of_pos_right unit] at near
  have close : |m - n| < 1 := by
    have half : |((m - n : ℤ) : ℚ)| ≤ 1 / 2 := by
      push_cast
      exact near
    have lt : |((m - n : ℤ) : ℚ)| < 1 := half.trans_lt (by norm_num)
    exact_mod_cast lt
  rw [sub_eq_zero.1 (Int.abs_lt_one_iff.1 close)]

/-- Rounded to `k` decimals, a tie up. -/
def roundHalfUp (k : Nat) (x : ℚ) : ℚ := ⌊x * 10 ^ k + 1 / 2⌋ / 10 ^ k

lemma nearest_roundHalfUp {k : Nat} {x : ℚ} : Nearest k x (roundHalfUp k x) := by
  refine ⟨⟨_, rfl⟩, ?_⟩
  have unit : (0 : ℚ) < 10 ^ k := by positivity
  have near := abs_sub_round (x * 10 ^ k)
  have scaled : roundHalfUp k x - x = (⌊x * 10 ^ k + 1 / 2⌋ - x * 10 ^ k) / 10 ^ k := by
    rw [roundHalfUp, sub_div, mul_div_cancel_right₀ x unit.ne']
  rw [round_eq, abs_sub_comm] at near
  rw [scaled, abs_div, abs_of_pos unit]
  exact div_le_div_of_nonneg_right near unit.le

/-! ## What is booked -/

/-- How the database answers a sum. It adds in floats, and the answer is read with the decimals of the column: eight for
    a quantity, and four for a notional, since a product has the type of its right factor, the price. Which way a tie
    goes depends on the floats. -/
structure Reads where
  qty : ℚ → ℚ
  notional : ℚ → ℚ
  qty_nearest : ∀ x, Nearest 8 x (qty x)
  notional_nearest : ∀ x, Nearest 4 x (notional x)

/-- Answers in which every tie goes up. -/
def Reads.tiesUp : Reads where
  qty := roundHalfUp 8
  notional := roundHalfUp 4
  qty_nearest _ := nearest_roundHalfUp
  notional_nearest _ := nearest_roundHalfUp

/-- The notional of the fills of an order. -/
def bookedNotional (db : Db) (o : Nat) : ℚ :=
  Table.total (fun f : Fill => if f.orderId = o then f.qty * f.price else 0) db.fills

/-- Python `_local_booked`. -/
def localBooked (reads : Reads) (db : Db) (o : Nat) : ℚ × ℚ :=
  (reads.qty (db.filledQty o), reads.notional (bookedNotional db o))

/-- `quantize(Decimal("0.0001"), ROUND_HALF_UP)`, of a positive price. -/
def quantize (price : ℚ) : ℚ := roundHalfUp 4 price

/-- Python `_missing_increment`. -/
def missingIncrement (reads : Reads) (db : Db) (o : Nat) (report : BrokerReport) :
    Except SettlementError (ℚ × Option ℚ) :=
  let booked := localBooked reads db o
  let delta := report.filledQty - booked.1
  if delta < 0 then .error .shrinkingFill
  else if delta = 0 then .ok (0, none)
  else if report.filledAvgPrice ≤ 0 then .error .noAveragePrice
  else
    let missingNotional := report.filledQty * report.filledAvgPrice - booked.2
    if missingNotional < -notionalTolerance report.filledQty then .error .pricesDisagree
    else if missingNotional ≤ 0 then .error .nonPositiveNotional
    else
      let price := quantize (missingNotional / delta)
      if price ≤ 0 then .error .nonPositivePrice else .ok (delta, some price)

/-- The fill payload of a settlement, under its synthetic execution id. -/
def settlePayload (brokerOrderId : String) (report : BrokerReport) (delta price : ℚ) : Payload where
  brokerOrderId := brokerOrderId
  event := .fill
    { executionId := some (.settle brokerOrderId report.filledQty)
      qty := delta
      price := price
      isPartial := report.status ≠ .filled }

/-- The fill part of `resolve_broker_outcome`. -/
def settleFill (brokerOrderId : String) (report : BrokerReport) : ℚ × Option ℚ → List Payload
  | (delta, some price) => if 0 < delta then [settlePayload brokerOrderId report delta price] else []
  | (_, none) => []

/-- The terminal part of `resolve_broker_outcome`. -/
def settleTerminal (brokerOrderId : String) (report : BrokerReport) : List Payload :=
  match report.status with
  | .ended event => [⟨brokerOrderId, .terminal event⟩]
  | _ => []

/-- Python `resolve_broker_outcome`: the payloads it applies, or the refusal it raises. -/
def resolveBrokerOutcome (reads : Reads) (db : Db) (o : Nat) (brokerOrderId : String) (report : BrokerReport) :
    Except SettlementError (List Payload) :=
  match report.status with
  | .working => .ok []
  | _ =>
    match missingIncrement reads db o report with
    | .error why => .error why
    | .ok increment =>
      .ok (settleFill brokerOrderId report increment ++ settleTerminal brokerOrderId report)

end Workbench.Orders
