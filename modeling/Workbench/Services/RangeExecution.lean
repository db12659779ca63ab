import Workbench.Db.Enums
import Mathlib

/-!
# Range capture

Model of `app/services/range_execution.py`: the levels that the Range Trader published, the membership of its book
day by day, and the capture of a window into frozen rows. A day is its ordinal; the time of a capture is left out of
its rows.

Python → Lean naming: `_levels_query`, `_range_levels_rows` → `Evidence.levels`.
-/

namespace Workbench.Services.RangeExecution
open Workbench

/-- The payload of a `range_levels` signal. -/
structure Levels where
  buy : Option ℚ
  sell : Option ℚ
deriving DecidableEq

/-- An INFO signal, with the ticker of its symbol; the payload of another kind is `none`. -/
structure Signal where
  strategyId : Nat
  /-- Microseconds since the epoch. -/
  receivedAt : ℤ
  ticker : String
  levels : Option Levels

/-- The UTC date of `received_at`. -/
def Signal.day (s : Signal) : ℤ := s.receivedAt / 86400000000

/-- A published level: the day, the upper-cased ticker and the payload. -/
structure Published where
  day : ℤ
  ticker : String
  levels : Levels

/-- What captures read: the signals in the order of `received_at`, the strategy that is the Range Trader, and the low
and high of the daily bars. -/
structure Evidence where
  signals : List Signal
  strategy : Option Nat
  bars : Option (String → ℤ → Option (ℚ × ℚ))
  ordered : signals.Pairwise (·.receivedAt ≤ ·.receivedAt)

/-- Python `RangeExecutionRecord`. -/
structure Record where
  etDate : ℤ
  symbol : String
  avgBuyPrice : Option ℚ
  avgSellPrice : Option ℚ
  dailyLow : ℚ
  dailyHigh : ℚ
deriving DecidableEq

/-! ## The levels -/

/-- The published level of a signal of the strategy. -/
def Signal.published (strategy : Option Nat) (s : Signal) : Option Published :=
  if strategy = some s.strategyId then s.levels.map fun levels => ⟨s.day, upper s.ticker, levels⟩ else none

def Evidence.published (E : Evidence) : List Published := E.signals.filterMap (Signal.published E.strategy)

def Evidence.levels (E : Evidence) (dFrom dTo : ℤ) : List Published :=
  E.published.filter fun p => dFrom ≤ p.day ∧ p.day ≤ dTo

def publishedOn (rows : List Published) (day : ℤ) : Finset String :=
  ((rows.filter (·.day = day)).map (·.ticker)).toFinset

def levelsOn (rows : List Published) (day : ℤ) (symbol : String) : Levels :=
  ((rows.find? fun p => p.day = day ∧ p.ticker = symbol).map (·.levels)).getD ⟨none, none⟩

/-! ## The membership -/

/-- Python `_membership_before`: what the most recent day of the lookback published. -/
def membershipBefore (E : Evidence) (before : ℤ) : Finset String :=
  let parsed := E.levels (before - 30) (before - 1)
  match parsed.getLast? with
  | none => ∅
  | some last => publishedOn parsed last.day

/-- Python `_members_for_day`. -/
def membersForDay (published carried : Finset String) : Finset String :=
  if published = ∅ then carried
  else if carried ≠ ∅ ∧ published ⊂ carried then carried
  else published

/-- The loop of `_membership_by_day`. -/
def membershipFrom (published : ℤ → Finset String) (carried : Finset String) : List ℤ → List (ℤ × Finset String)
  | [] => []
  | day :: days =>
    let members := membersForDay (published day) carried
    (day, members) :: membershipFrom published (if members = ∅ then carried else members) days

def days (dFrom : ℤ) : Nat → List ℤ
  | 0 => []
  | n + 1 => dFrom :: days (dFrom + 1) n

/-- Python `_membership_by_day`. -/
def membershipByDay (E : Evidence) (dFrom dTo : ℤ) : List (ℤ × Finset String) :=
  membershipFrom (publishedOn (E.levels dFrom dTo)) (membershipBefore E dFrom) (days dFrom (dTo - dFrom + 1).toNat)

/-! ## The capture -/

def symbolsOn (table : List Record) (day : ℤ) : Finset String :=
  ((table.filter (·.etDate = day)).map (·.symbol)).toFinset

/-- The row of a symbol on a day that has a bar. -/
def row (rows : List Published) (bars : String → ℤ → Option (ℚ × ℚ)) (day : ℤ) (symbol : String) : Option Record :=
  (bars symbol day).map fun lh =>
    ⟨day, symbol, (levelsOn rows day symbol).buy, (levelsOn rows day symbol).sell, lh.1, lh.2⟩

/-- The rows that a day adds: none without a membership, and none over rows of other symbols. -/
def captureDay (rows : List Published) (bars : String → ℤ → Option (ℚ × ℚ)) (table : List Record) (day : ℤ)
    (members : Finset String) : List Record :=
  if members = ∅ ∨ symbolsOn table day \ members ≠ ∅ then []
  else ((members \ symbolsOn table day).sort (· ≤ ·)).filterMap (row rows bars day)

/-- The rows that `capture_window` inserts; only days before today are closed. -/
def captured (E : Evidence) (today : ℤ) (table : List Record) (window : ℤ × ℤ) : List Record :=
  let «end» := min window.2 (today - 1)
  match E.bars, E.strategy with
  | some bars, some _ =>
    if «end» < window.1 then []
    else (membershipByDay E window.1 «end»).flatMap fun day =>
      captureDay (E.levels window.1 «end») bars table day.1 day.2
  | _, _ => []

/-- Python `capture_window`. -/
def captureWindow (E : Evidence) (today : ℤ) (table : List Record) (window : ℤ × ℤ) : List Record :=
  table ++ captured E today table window

/-- A sequence of captures from an empty table. -/
def captureAll (E : Evidence) (today : ℤ) (windows : List (ℤ × ℤ)) : List Record :=
  windows.foldl (captureWindow E today) []

end Workbench.Services.RangeExecution
