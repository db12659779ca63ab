import Workbench.Db.Enums
import Workbench.Lib.Dict
import Workbench.Lib.Fifo

/-!
# Drift detection: round trips out of fills

Model of `reconstruct_round_trips` of `app/services/drift_detection.py`: the fills of a strategy since a cutoff, in the
order of their times, are walked with a queue of open legs for each symbol. Amounts are exact numbers. A fill has a
positive quantity, as the consumer of the trade updates stores no other.

Python → Lean naming:
* an entry leg → `Lot Leg`, the loop of an exit → `exitLegs`, the walk at a fill → `Walk.fill`
* `reconstruct_round_trips` → `reconstructRoundTrips`, its log of over-exits → `Walk.anomalies`
-/

namespace Workbench.Services.DriftDetection
open Workbench.Lib Workbench.Lib.Fifo

/-- The side of a position. -/
inductive Direction where
  | long
  | short
  deriving DecidableEq, Repr

/-- `1.0` for a long leg, `-1.0` for a short one. -/
def Direction.sign : Direction → ℚ
  | .long => 1
  | .short => -1

/-- A fill, joined with its order and its symbol. -/
structure Fill where
  qty : ℚ
  price : ℚ
  commission : ℚ
  filledAt : Instant
  side : OrderSide
  ticker : String
  sourceType : OrderSourceType
  sourceId : String
  positive : 0 < qty

def Fill.direction (f : Fill) : Direction := if f.side = .buy then .long else .short

def Fill.commPs (f : Fill) : ℚ := if f.qty ≠ 0 then f.commission / f.qty else 0

/-- The fills of the account, by `filled_at`. -/
structure History where
  fills : List Fill
  ordered : fills.Pairwise (·.filledAt ≤ ·.filledAt)

/-- An open leg, apart from its quantity. -/
structure Leg where
  direction : Direction
  price : ℚ
  commPs : ℚ
  deriving DecidableEq, Repr

/-- Python `RoundTrip`. -/
structure RoundTrip where
  symbol : String
  qty : ℚ
  entryPrice : ℚ
  exitPrice : ℚ
  side : Direction
  pnl : ℚ
  deriving DecidableEq, Repr

def Fill.leg (f : Fill) (qty : ℚ) : Lot Leg := ⟨⟨f.direction, f.price, f.commPs⟩, qty⟩

def Fill.trip (f : Fill) (entry : Leg) (matched : ℚ) : RoundTrip :=
  let gross := entry.direction.sign * (f.price - entry.price) * matched
  let commission := matched * (entry.commPs + f.commPs)
  { symbol := f.ticker
    qty := matched
    entryPrice := entry.price
    exitPrice := f.price
    side := entry.direction
    pnl := gross - commission }

/-- The loop of an exit: the round trips, the quantity that is left over and the legs that stay open. -/
def exitLegs (f : Fill) : ℚ → List (Lot Leg) → List RoundTrip × ℚ × List (Lot Leg)
  | remaining, [] => ([], remaining, [])
  | remaining, entry :: queue =>
    if remaining ≤ 0 then ([], remaining, entry :: queue)
    else
      let matched := min entry.qty remaining
      if entry.qty - matched ≤ 0 then
        let (trips, left, queue) := exitLegs f (remaining - matched) queue
        (f.trip entry.data matched :: trips, left, queue)
      else
        -- the entry stays at the front and nothing remains, so the loop ends
        ([f.trip entry.data matched], remaining - matched, ⟨entry.data, entry.qty - matched⟩ :: queue)

/-- A fill against the open legs of its symbol: the round trips, the leftover and the legs after it. -/
def matchFill (f : Fill) (queue : List (Lot Leg)) : List RoundTrip × ℚ × List (Lot Leg) :=
  match queue with
  | [] => ([], 0, [f.leg f.qty])
  | leg :: _ =>
    if leg.data.direction = f.direction then ([], 0, queue ++ [f.leg f.qty]) else exitLegs f f.qty queue

/-- The state of the walk. -/
structure Walk where
  openLegs : Dict String (List (Lot Leg))
  trips : List RoundTrip
  anomalies : List (String × ℚ)

def Walk.legs (w : Walk) (symbol : String) : List (Lot Leg) := (w.openLegs.get symbol).getD []

def Walk.fill (w : Walk) (f : Fill) : Walk :=
  let (trips, leftover, queue) := matchFill f (w.legs f.ticker)
  { openLegs := w.openLegs.set f.ticker queue
    trips := w.trips ++ trips
    anomalies := if 0 < leftover then w.anomalies ++ [(f.ticker, leftover)] else w.anomalies }

def Walk.start : Walk := ⟨Dict.empty, [], []⟩

def ofStrategy (strategyId : ℕ) (fills : List Fill) : List Fill :=
  fills.filter fun f => decide (f.sourceType = .strategy ∧ f.sourceId = toString strategyId)

/-- The walk over the fills of a strategy since a cutoff. -/
def walk (history : History) (strategyId : ℕ) (cutoff : Instant) : Walk :=
  ((ofStrategy strategyId history.fills).filter fun f => decide (cutoff ≤ f.filledAt)).foldl Walk.fill Walk.start

/-- Python `reconstruct_round_trips`. -/
def reconstructRoundTrips (history : History) (strategyId : ℕ) (cutoff : Instant) : List RoundTrip :=
  (walk history strategyId cutoff).trips

variable {f : Fill} {queue : List (Lot Leg)} {amount : ℚ}

lemma exitLegs_eq : exitLegs f amount queue =
    ((take amount queue).1.map fun part => f.trip part.1 part.2, (take amount queue).2.1, (take amount queue).2.2) := by
  induction queue generalizing amount with
  | nil => rfl
  | cons entry queue ih =>
    rw [exitLegs, take]
    split
    · rfl
    · by_cases whole : entry.qty ≤ amount
      · simp only [min_eq_left whole, sub_self, le_refl, if_true, if_pos whole, ih, List.map_cons]
      · have short := not_le.1 whole
        simp only [min_eq_right short.le, if_neg whole, sub_self, List.map_cons, List.map_nil]
        rw [if_neg (not_le.2 (sub_pos.2 short))]

end Workbench.Services.DriftDetection
