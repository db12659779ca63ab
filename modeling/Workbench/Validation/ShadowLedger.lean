import Mathlib.Data.List.Sort
import Mathlib.Data.String.Basic
import Workbench.Lib.Calendar
import Workbench.Lib.Dict

/-!
# The shadow ledger

Model of `app/validation/shadow_ledger.py`: a simulated portfolio that is marked to market, decides or is told a
decision, and pays a cost for what it turns over. Floats are exact rationals. A call that raises leaves what it has
written: a method is an `EStateM` over the state, which keeps the state of an error.

Python → Lean naming: `_mark_to_market` → `markToMarket`, `_apply_rebalance` → `applyRebalance`, `step` → `step`,
`book_decision` → `bookDecision`, `ShadowLedger.start` → `ShadowLedger.start`; `SeamRecord` is that of
`app/strategies/drift_audit.py`.
-/

set_option linter.dupNamespace false

namespace Workbench.Validation
open Lib

/-! ## Records -/

/-- The scores of a day: ranked best first. -/
structure DayScores where
  ranked : List String
  score : Dict String ℚ
  rank : Dict String ℤ
deriving DecidableEq

/-- Python `SeamRecord`. -/
structure SeamRecord where
  date : String
  scores : Dict String ℚ
  eligible : List String
  ranking : List String
  targetNames : List String
  weights : Dict String ℚ
  regimeGross : ℚ
  tradeInitiated : Bool
  trigger : String := ""
  isSeed : Bool := false
deriving DecidableEq

/-- Python `ShadowLedgerState`. -/
structure ShadowLedgerState where
  equity : ℚ
  cash : ℚ
  sleeves : Dict String ℚ
  targetW : Dict String ℚ
  lastPx : Dict String ℚ
  held : List String
  since : ℤ
  prevRank : Option (Dict String ℤ)
  appliedGross : ℚ
  sessionsProcessed : ℕ := 0
  startingCapital : ℚ := 100000
deriving DecidableEq

/-- Python `SessionOutcome`. -/
structure SessionOutcome where
  record : SeamRecord
  traded : Bool
  equityBefore : ℚ
  equityAfter : ℚ
  sessionReturn : ℚ
  turnover : ℚ
  costDrag : ℚ
deriving DecidableEq

/-- The frozen configuration of a ledger. -/
structure LedgerConfig where
  turnoverCostBps : ℚ
  backstopDays : ℤ
  weightDriftPct : ℚ
deriving DecidableEq

/-- Python `ShadowLedger`. -/
structure ShadowLedger extends LedgerConfig where
  state : ShadowLedgerState
deriving DecidableEq

/-- What a call of the ledger raises: what its price function raises, or a `KeyError`. -/
inductive Fault where
  | price (text : String)
  | keyError (ticker : String)
deriving DecidableEq

/-- Python `ShadowLedgerError`. -/
inductive ShadowLedgerError where
  | capitalNotPositive (capital : ℚ)
  | retiredBaseline (capital : ℚ)
deriving DecidableEq

/-- Python `PriceFn`. -/
abbrev PriceFn := String → Date → Except Fault (Option ℚ)

/-- Python `SelectFn`. -/
abbrev SelectFn := DayScores → Finset String → Option (Dict String ℤ) → List String

/-- Python `WeighFn`. -/
abbrev WeighFn := List String → Date → Dict String ℚ

/-- A method of the ledger: what it has written stays written when it raises. -/
abbrev Booking := EStateM Fault ShadowLedgerState

def quoting (price : String → Date → Option ℚ) : PriceFn := fun ticker d => .ok (price ticker d)

/-! ## Opening -/

/-- `_RETIRED_BASELINE` -/
def retiredBaseline : ℚ := 84466.41

/-- `FORWARD_STARTING_CAPITAL` -/
def forwardStartingCapital : ℚ := 100000

/-- `TURNOVER_COST_BPS` -/
def registeredTurnoverCostBps : ℚ := 10

namespace ShadowLedger

/-- Python `ShadowLedger.start`. -/
def start (startingCapital turnoverCostBps : ℚ) (backstopDays : ℤ) (weightDriftPct : ℚ) :
    Except ShadowLedgerError ShadowLedger :=
  if startingCapital ≤ 0 then .error (.capitalNotPositive startingCapital)
  else if |startingCapital - retiredBaseline| < 1 / 10 ^ 6 then .error (.retiredBaseline startingCapital)
  else .ok {
    turnoverCostBps := turnoverCostBps
    backstopDays := backstopDays
    weightDriftPct := weightDriftPct
    state := {
      equity := startingCapital
      cash := startingCapital
      sleeves := .empty
      targetW := .empty
      lastPx := .empty
      held := []
      since := 0
      prevRank := none
      appliedGross := 1
      sessionsProcessed := 0
      startingCapital := startingCapital } }

/-! ## Accounting -/

/-- Python `_ret`. -/
def ret (before after : ℚ) : ℚ := if 0 < before then after / before - 1 else 0

/-- `d.get(ticker, 0.0)` -/
def weightOf (d : Dict String ℚ) (ticker : String) : ℚ := (d.get ticker).getD 0

def markName (price : PriceFn) (d : Date) (ticker : String) : Booking Unit := fun s =>
  match price ticker d with
  | .error fault => .error fault s
  | .ok none => .ok () s
  | .ok (some p) =>
    if 0 < weightOf s.lastPx ticker then
      match s.sleeves.get ticker with
      | none => .error (.keyError ticker) s
      | some v => .ok () { s with
          sleeves := s.sleeves.set ticker (v * (1 + (p / weightOf s.lastPx ticker - 1)))
          lastPx := s.lastPx.set ticker p }
    else .ok () { s with lastPx := s.lastPx.set ticker p }

/-- `s.equity = sum(s.sleeves.values()) + s.cash` -/
def refresh (s : ShadowLedgerState) : ShadowLedgerState := { s with equity := s.sleeves.values.sum + s.cash }

/-- Python `_mark_to_market`. -/
def markToMarket (price : PriceFn) (d : Date) : Booking Unit := do
  let s ← get
  if s.held = [] then return
  s.held.forM (markName price d)
  modify refresh

def keys (d : Dict String ℚ) : List String := d.entries.map (·.1)

/-- The names that a rebalance moves, of the sleeves and the new weights. -/
def moved (s : ShadowLedgerState) (neww : Dict String ℚ) : Finset String := (keys s.sleeves ++ keys neww).toFinset

def currentWeight (s : ShadowLedgerState) (ticker : String) : ℚ :=
  if 0 < s.equity then weightOf s.sleeves ticker / s.equity else 0

/-- `1.0 - sum(neww.values())` -/
def cashWeight (neww : Dict String ℚ) : ℚ := 1 - neww.values.sum

/-- What a rebalance to the new weights turns over. -/
def turnoverOf (s : ShadowLedgerState) (neww : Dict String ℚ) : ℚ :=
  1 / 2 * (∑ k ∈ moved s neww, |weightOf neww k - currentWeight s k| +
    |cashWeight neww - if 0 < s.equity then s.cash / s.equity else 0|)

/-- `{tk: (price_fn(tk, d) or 0.0) for tk in neww}` -/
def pricesOf (price : PriceFn) (d : Date) (px : Dict String ℚ) : List String → Except Fault (Dict String ℚ)
  | [] => .ok px
  | ticker :: tickers => do
    let p ← price ticker d
    pricesOf price d (px.set ticker (p.getD 0)) tickers

/-- Python `_apply_rebalance`: the turnover and the cost. -/
def applyRebalance (bps : ℚ) (price : PriceFn) (d : Date) (neww : Dict String ℚ) (gross : ℚ) : Booking (ℚ × ℚ) := do
  let s ← get
  let turnover := turnoverOf s neww
  let equity := s.equity * (1 - bps / 10 ^ 4 * turnover)
  set { s with
    equity := equity
    sleeves := neww.mapMaybe fun _ w => some (w * equity)
    cash := cashWeight neww * equity }
  let lastPx ← MonadExcept.ofExcept (pricesOf price d .empty (keys neww))
  modify fun s => { s with
    lastPx := lastPx
    targetW := neww
    held := (keys neww).insertionSort (· ≤ ·)
    appliedGross := gross
    since := 0 }
  return (turnover, s.equity - equity)

/-! ## One session -/

/-- The trade gate: its triggers and whether they fire. -/
def triggers (cfg : LedgerConfig) (s : ShadowLedgerState) (target : List String) (g : ℚ) : List (String × Bool) :=
  [("changed", decide (target.toFinset ≠ s.held.toFinset)),
    ("regime_flip", decide (1 / 10 ^ 9 < |g - s.appliedGross|)),
    ("drift", decide (s.held ≠ [] ∧ 0 < s.equity ∧ keys s.targetW ≠ [] ∧
      ∃ ticker ∈ s.held, cfg.weightDriftPct < |weightOf s.sleeves ticker / s.equity - weightOf s.targetW ticker|)),
    ("backstop", decide (cfg.backstopDays ≤ s.since))]

/-- `"+".join(...) or "reviewed_no_trigger"` -/
def triggerText (on : List (String × Bool)) : String :=
  match on.filter (·.2) with
  | [] => "reviewed_no_trigger"
  | fired => "+".intercalate (fired.map (·.1))

def scaledWeights (weigh : WeighFn) (target : List String) (d : Date) (g : ℚ) : Dict String ℚ :=
  if 0 < g ∧ target ≠ [] then (weigh target d).mapMaybe fun _ w => some (w * g) else .empty

def idle (record : SeamRecord) (equityBefore : ℚ) : Booking SessionOutcome := do
  modify fun s => { s with since := s.since + 1, sessionsProcessed := s.sessionsProcessed + 1 }
  let s ← get
  return ⟨record, false, equityBefore, s.equity, ret equityBefore s.equity, 0, 0⟩

/-- A session that rebalances to the weights of its record. -/
def rebalance (cfg : LedgerConfig) (price : PriceFn) (d : Date) (record : SeamRecord) (equityBefore : ℚ) :
    Booking SessionOutcome := do
  let (turnover, costDrag) ← applyRebalance cfg.turnoverCostBps price d record.weights record.regimeGross
  modify fun s => { s with sessionsProcessed := s.sessionsProcessed + 1 }
  let s ← get
  return ⟨record, true, equityBefore, s.equity, ret equityBefore s.equity, turnover, costDrag⟩

/-- Python `book_decision`. -/
def bookDecision (cfg : LedgerConfig) (d : Date) (record : SeamRecord) (price : PriceFn) : Booking SessionOutcome := do
  let equityBefore := (← get).equity
  markToMarket price d
  if record.tradeInitiated then rebalance cfg price d record equityBefore else idle record equityBefore

def thinRecord (d : Date) (g : ℚ) : SeamRecord where
  date := d.isoformat
  scores := .empty
  eligible := []
  ranking := []
  targetNames := []
  weights := .empty
  regimeGross := g
  tradeInitiated := false
  trigger := "no_scores"

/-- The record of a session with scores, as the marked ledger decides it. -/
def decided (cfg : LedgerConfig) (s : ShadowLedgerState) (d : Date) (ds : DayScores) (g : ℚ) (select : SelectFn)
    (weigh : WeighFn) : SeamRecord :=
  let target := select ds s.held.toFinset s.prevRank
  let fired := triggers cfg s target g
  { date := d.isoformat
    scores := ds.score
    eligible := ds.ranked
    ranking := ds.ranked
    targetNames := target
    weights := scaledWeights weigh target d g
    regimeGross := g
    tradeInitiated := fired.any (·.2)
    trigger := triggerText fired }

/-- Python `step`. -/
def step (cfg : LedgerConfig) (d : Date) (ds : Option DayScores) (g : ℚ) (select : SelectFn) (weigh : WeighFn)
    (price : PriceFn) : Booking SessionOutcome := do
  let equityBefore := (← get).equity
  markToMarket price d
  match ds with
  | none => idle (thinRecord d g) equityBefore
  | some ds =>
    let record := decided cfg (← get) d ds g select weigh
    modify fun s => { s with prevRank := some ds.rank }
    if record.tradeInitiated then rebalance cfg price d record equityBefore else idle record equityBefore

end ShadowLedger

end Workbench.Validation
