import Workbench.Db.Models

/-!
# The strategy engine: rows and rules

Model of the rows the strategy engine works on (`app/db/models/strategy.py`, `strategy_run.py`), of
`RunningStrategy` and of the decisions `app/strategies/engine.py`, `app/services/activation.py` and
`app/risk/circuit_breaker.py` take from them: which account a registration binds
(`accountMode`, `resolveAccount`), which status it leaves (`runStatus`), which strategies a trip
halts (`haltedBy`), and the three gates of a dispatch.

Rows of `strategies` and `strategy_runs` are never deleted; their primary key is the position. What a
class loaded from `code_path` contributes (with the row's parameters merged over its defaults) is a
`StrategyClass`.
-/

set_option linter.dupNamespace false

namespace Workbench.Strategies
open Workbench.Lib

/-- Python `Strategy` (`app/db/models/strategy.py`). -/
structure Strategy where
  userId : Nat
  type : StrategyType := .python
  status : StrategyStatus := .idle
  parentStrategyId : Option Nat := none
  symbols : List String := []
  schedule : String := "event"
  liveActivationInitiatedAt : Option Instant := none
  deriving DecidableEq, Repr

/-- Python `StrategyRun`. -/
structure StrategyRun where
  strategyId : Nat
  status : StrategyStatus
  endedAt : Option Instant := none
  deriving DecidableEq, Repr

/-- What the engine takes from a loaded strategy class and the merged parameters. -/
structure StrategyClass where
  symbols : List String := []
  requiresFactorReadiness : Bool := false
  allowExtendedHours : Bool := false
  deriving DecidableEq, Repr

/-- Python `RunningStrategy`, with the account its context is bound to. -/
structure RunningStrategy where
  strategyId : Nat
  accountId : Nat
  runId : Nat
  symbols : List String
  schedule : String
  requiresFactorReadiness : Bool
  allowExtendedHours : Bool
  deriving DecidableEq, Repr

/-- Python `RegistrationIntent`. -/
inductive RegistrationIntent where
  | activate
  | recover
  deriving DecidableEq, Repr

/-- Python `EVENT_SCHEDULE_SENTINEL`. -/
def eventScheduleSentinel : String := "event"

/-- Python `ACTIVATION_COOLDOWN_HOURS`, in microseconds. -/
def activationCooldown : Nat := 24 * 3600 * 1000000

/-! ## Registration -/

/-- The mode of the account a registration binds, by the status it read. -/
def accountMode (status : StrategyStatus) : AccountMode :=
  if status = .live then .live else .paper

/-- The account of a user in a mode (unique by `uq_accounts_user_broker_mode`). -/
def resolveAccount (accounts : Dict Nat Account) (userId : Nat) (mode : AccountMode) : Option Nat :=
  (accounts.entries.find? fun e => e.2.userId = userId && e.2.mode = mode).map (·.1)

/-- The status a registration leaves, by the row it read. -/
def runStatus (row : Strategy) : StrategyStatus :=
  if row.status = .live then .live
  else if row.parentStrategyId.isSome then .paperVariant
  else .paper

/-- The `RunningStrategy` of a registration. -/
def newRunning (strategyId accountId runId : Nat) (row : Strategy) (cls : StrategyClass) :
    RunningStrategy where
  strategyId := strategyId
  accountId := accountId
  runId := runId
  symbols := if row.symbols.isEmpty then cls.symbols else row.symbols
  schedule := row.schedule
  requiresFactorReadiness := cls.requiresFactorReadiness
  allowExtendedHours := cls.allowExtendedHours

/-- The mode of the account an instance is bound to. -/
def boundMode (accounts : Dict Nat Account) (running : RunningStrategy) : Option AccountMode :=
  (accounts.get running.accountId).map (·.mode)

/-! ## Rewriting rows -/

/-- The ORM's write of one column: a value equal to the one that was loaded is not written. -/
def writeStatus (strategies : List Strategy) (strategyId : Nat) (loaded new : StrategyStatus) :
    List Strategy :=
  if new = loaded then strategies
  else Table.amend strategyId (fun row => { row with status := new }) strategies

def closeRun (runs : List StrategyRun) (runId : Nat) (status : StrategyStatus) (now : Instant) :
    List StrategyRun :=
  Table.amend runId (fun run => { run with status, endedAt := some now }) runs

/-- The open run of a strategy with the greatest id. -/
def latestOpenRun (runs : List StrategyRun) (strategyId : Nat) : Option Nat :=
  (runs.zipIdx.filter fun e => e.1.strategyId = strategyId && e.1.endedAt.isNone).getLast?.map (·.2)

/-! ## The circuit breaker -/

/-- Python `CircuitBreakerService._mode_status`. -/
def modeStatus : AccountMode → StrategyStatus
  | .live => .live
  | .paper => .paper

/-- The strategies a trip of the account selects. -/
def haltedBy (strategies : List Strategy) (account : Account) : List Nat :=
  (strategies.zipIdx.filter fun e =>
    e.1.userId = account.userId && e.1.status = modeStatus account.mode).map (·.2)

def haltAll (ids : List Nat) (strategies : List Strategy) : List Strategy :=
  ids.foldl (fun rows i => Table.amend i (fun row => { row with status := .halted }) rows) strategies

/-! ## The gates of a dispatch -/

/-- Python `_factor_readiness_ok`: `verdict` is whether the governing readiness is PASS. -/
def factorReadinessOk (running : RunningStrategy) (verdict : Bool) : Bool :=
  !running.requiresFactorReadiness || verdict

/-- Python `_dispatch_allowed`. -/
def dispatchAllowed (running : RunningStrategy) (session : MarketSessionType) : Bool :=
  session.dispatchable running.allowExtendedHours

/-- The running strategies a streamed bar of `symbol` concerns. -/
def eventTargets (running : Dict Nat RunningStrategy) (symbol : String) : List RunningStrategy :=
  running.values.filter fun r =>
    r.schedule = eventScheduleSentinel && (r.symbols.map upper).contains (upper symbol)

/-- The running strategies a fallback tick concerns. -/
def fallbackTargets (running : Dict Nat RunningStrategy) : List RunningStrategy :=
  running.values.filter fun r => r.schedule = eventScheduleSentinel

/-! ## How the rewrites read back -/

section Rewrites
variable {strategies : List Strategy} {sid i : Nat}

lemma getElem?_writeStatus {loaded new : StrategyStatus} :
    (writeStatus strategies sid loaded new)[i]? =
      if new ≠ loaded ∧ i = sid then strategies[i]?.map fun row => { row with status := new }
      else strategies[i]? := by
  unfold writeStatus
  by_cases same : new = loaded
  · simp [same]
  · rw [if_neg same, Table.getElem?_amend]
    simp [same, eq_comm]

@[simp] lemma length_writeStatus {loaded new : StrategyStatus} :
    (writeStatus strategies sid loaded new).length = strategies.length := by
  unfold writeStatus
  split <;> simp

lemma getElem?_haltAll {ids : List Nat} :
    (haltAll ids strategies)[i]? =
      if i ∈ ids then strategies[i]?.map fun row => { row with status := .halted }
      else strategies[i]? := by
  unfold haltAll
  induction ids generalizing strategies with
  | nil => simp
  | cons j ids ih =>
    rw [List.foldl_cons, ih, Table.getElem?_amend]
    by_cases eq : j = i
    · subst eq
      cases strategies[j]? <;> simp
    · have ne : ¬ i = j := fun h => eq h.symm
      simp [eq, ne]

@[simp] lemma length_haltAll {ids : List Nat} : (haltAll ids strategies).length = strategies.length := by
  unfold haltAll
  induction ids generalizing strategies with
  | nil => rfl
  | cons j ids ih => rw [List.foldl_cons, ih, Table.length_amend]

end Rewrites

end Workbench.Strategies
