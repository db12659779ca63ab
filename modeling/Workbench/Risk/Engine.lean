import Workbench.Brokers.Registry
import Workbench.Risk.DecisionService
import Workbench.Risk.CircuitBreaker
import Workbench.Risk.LossControl.Gate

/-!
# The risk engine

Model of `RiskEngine.evaluate` (`app/risk/engine.py`), with `BuyingPowerChecker`
(`app/risk/buying_power.py`) and the parts of `app/market/session.py` and `app/risk/halt.py` it asks.

The thirteen steps are grouped by what they touch. `preprocess` (steps 0 to 4) and `orderGates`
(steps 5 to 8) only read; `dailyLossGate` (step 9) may trip the breaker, drive the loss-control state
machine and consult the reduction classifier; `throttleGates` (steps 10 to 12) only read;
`breakerGate` (step 13) again writes. A gate lets the order on (`next`), refuses it with a reason
that goes through `finalizeWithLossControl`, or stops it at once after an ENFORCE trigger that could
not be written.

An `Evaluation` is the database together with the `reduction_cache` of the call. Everything the
engine asks outside the database is in `Env`: the registry and what its adapters answer, the market
session, the bar cache, the clock, and which of its own writes and reads of the loss-control tables
raise.

Python → Lean naming: `_fire_loss_control_trigger` and `_trigger_and_guard` → `triggerAndGuard`.
-/

set_option linter.dupNamespace false

namespace Workbench.Risk
open Workbench.Lib Workbench.Brokers Workbench.Risk.LossControl

/-- What the engine asks outside the database during one evaluation. -/
structure Env where
  settings : Settings := {}
  clock : Clock
  registry : Option BrokerRegistry := none
  reads : BrokerReads := fun _ _ => none
  session : Option MarketSessionType := some .regular
  latestClose : String → Option ℚ := fun _ => none
  triggerFails : LossTrigger → Bool := fun _ => false
  stateRowFails : Bool := false
  gateFails : Bool := false

/-- The `reduction_cache` of one evaluation. -/
structure ReductionCache where
  result : Option Bool := none
  reservationId : Option Nat := none
  deriving DecidableEq, Repr

/-- The database and the cache an evaluation works on. -/
structure Evaluation where
  db : Db
  cache : ReductionCache := {}

/-- What a gate makes of an order. -/
inductive Gate where
  | next
  | refuse (reason : ReasonCode)
  | stop
  deriving DecidableEq, Repr

/-! ## Steps 0 to 4: preprocessing -/

/-- Membership in `_TYPES_NEEDING_LIMIT`. -/
def needsLimit (type : OrderType) : Bool := type = .limit ∨ type = .stopLimit

/-- Membership in `_TYPES_NEEDING_STOP`. -/
def needsStop (type : OrderType) : Bool := type = .stop ∨ type = .stopLimit

def malformed (req : OrderRequest) : Bool :=
  req.qty ≤ 0 || (needsLimit req.type && !req.limitPrice.any (0 < ·)) ||
    (needsStop req.type && !req.stopPrice.any (0 < ·))

/-- Python `_load_global_limits`. -/
def loadGlobalLimits (db : Db) (userId : Nat) (brokerMode : AccountMode) : Option RiskLimits :=
  db.riskLimits.find? fun l =>
    l.userId = userId ∧ l.scopeType = .global ∧ l.brokerMode = brokerMode

/-- What an order that passed preprocessing is evaluated with. -/
structure Applicable where
  symbolId : Nat
  limits : RiskLimits

/-- Steps 0 to 4, which persist their rejection directly. -/
def preprocess (env : Env) (db : Db) (req : OrderRequest) (tradingMode brokerMode : AccountMode) :
    Except ReasonCode Applicable :=
  if db.halted then .error .haltReached
  else if !env.session.any (·.dispatchable req.extendedHours) then .error .marketSessionClosed
  else if malformed req then .error .invalidInput
  else if (db.accounts.get req.accountId).map (·.mode) ≠ some tradingMode then .error .modeMismatch
  else match db.symbols.findIdx? fun s => s.ticker = req.symbolTicker ∧ s.active with
    | none => .error .symbolDenied
    | some symbolId =>
      match loadGlobalLimits db req.userId brokerMode with
      | none => .error .noLimitsConfigured
      | some limits => .ok ⟨symbolId, limits⟩

/-! ## Steps 5 to 8: the order on its own -/

def symbolGate (req : OrderRequest) (limits : RiskLimits) : Option ReasonCode :=
  if req.symbolTicker ∈ limits.deniedSymbols then some .symbolDenied
  else if limits.allowedSymbols ≠ [] ∧ req.symbolTicker ∉ limits.allowedSymbols then
    some .symbolDenied
  else none

def localQty (db : Db) (accountId symbolId : Nat) : ℚ :=
  ((db.positions.get (accountId, symbolId)).map (·.qty)).getD 0

/-- Python `_long_qty_for_short_gate`: the broker's signed position, or the local one when the broker
    cannot be read. -/
def longQtyForShortGate (env : Env) (db : Db) (req : OrderRequest) (symbolId : Nat) : ℚ :=
  match env.registry.bind (·.get req.accountId) with
  | none => localQty db req.accountId symbolId
  | some adapter =>
    let snap := fetchSnapshot db req.accountId (env.reads adapter .shortGate)
    if snap.complete then snap.positionQty (upper req.symbolTicker)
    else localQty db req.accountId symbolId

def shortGate (env : Env) (db : Db) (req : OrderRequest) (ctx : Applicable) : Option ReasonCode :=
  if req.side = .sell ∧ ctx.limits.allowShort = false ∧
      longQtyForShortGate env db req ctx.symbolId < req.qty then some .shortNotAllowed
  else none

/-- Python `_pending_buy_qty`. -/
def pendingBuyQty (db : Db) (accountId symbolId : Nat) : ℚ :=
  Table.total (fun o : Order =>
    if o.accountId = accountId ∧ o.symbolId = symbolId ∧ o.side = .buy ∧ o.status.terminal = false
    then o.qty else 0) db.orders

/-- Python `_pending_buy_notional`; an unpriced order contributes nothing. -/
def pendingBuyNotional (db : Db) (accountId : Nat) : ℚ :=
  Table.total (fun o : Order =>
    if o.accountId = accountId ∧ o.side = .buy ∧ o.status.terminal = false
    then o.estimatedNotional.getD 0 else 0) db.orders

/-- Python `_reference_price`. -/
def referencePrice (env : Env) (req : OrderRequest) : Option ℚ :=
  match req.limitPrice with
  | some price => some price
  | none =>
    (req.referencePrice.filter (0 < ·)).or ((env.latestClose req.symbolTicker).filter (0 < ·))

/-- Python `_estimate_notional`. -/
def estimateNotional (env : Env) (req : OrderRequest) : Option ℚ :=
  (referencePrice env req).map (req.qty * ·)

/-- The `resulting_qty` of step 7. -/
def resultingQty (db : Db) (req : OrderRequest) (symbolId : Nat) : ℚ :=
  let current := localQty db req.accountId symbolId
  match req.side with
  | .buy => |current + pendingBuyQty db req.accountId symbolId + req.qty|
  | .sell => |current - req.qty|

def positionGate (env : Env) (db : Db) (req : OrderRequest) (ctx : Applicable) :
    Option ReasonCode :=
  let resulting := resultingQty db req ctx.symbolId
  if ctx.limits.maxPositionQty.any (· < resulting) then some .positionCapQty
  else match ctx.limits.maxPositionNotional with
    | none => none
    | some cap =>
      -- only an order that increases the position is valued against the cap
      if resulting ≤ |localQty db req.accountId ctx.symbolId| then none
      else match referencePrice env req with
        | none => some .positionCapUnpriced
        | some price => if cap < resulting * price then some .positionCapNotional else none

/-- The settled gross exposure of an account, `SUM(ABS(market_value))`. -/
def grossNow (db : Db) (accountId : Nat) : ℚ :=
  Table.total (fun e : (Nat × Nat) × Position => if e.1.1 = accountId then |e.2.marketValue| else 0)
    db.positions.entries

/-- The `projected` gross exposure of step 8. -/
def projectedGross (env : Env) (db : Db) (req : OrderRequest) : ℚ :=
  grossNow db req.accountId + pendingBuyNotional db req.accountId +
    if req.side = .buy then (estimateNotional env req).getD 0 else 0

/-- Step 8: the gross exposure cap, from which a sell covered by the position is exempt. -/
def grossGate (env : Env) (db : Db) (req : OrderRequest) (ctx : Applicable) : Option ReasonCode :=
  let reducingSell : Bool := req.side = .sell ∧ req.qty ≤ localQty db req.accountId ctx.symbolId
  if !reducingSell && ctx.limits.maxGrossExposure.any (· < projectedGross env db req) then
    some .grossExposure
  else none

def orderGates (env : Env) (db : Db) (req : OrderRequest) (ctx : Applicable) : Option ReasonCode :=
  (symbolGate req ctx.limits).or <| (shortGate env db req ctx).or <|
    (positionGate env db req ctx).or (grossGate env db req ctx)

/-! ## The verified-reduction test and the loss-control trigger -/

def submission (req : OrderRequest) : ProposedAction where
  action := .orderSubmit
  symbol := upper req.symbolTicker
  side := some req.side
  qty := some req.qty
  price := req.limitPrice

/-- What the broker answers to the classification of a submission: the adapter registered under the
    user id is the one asked. -/
def classifierRead (env : Env) (registry : BrokerRegistry) (userId : Nat) : Option BrokerRead :=
  decisionRead env.reads (registry.get userId)

/-- What the cache keeps of a decision: whether it permits the order, and the reservation if it does. -/
def ReductionCache.keep (decided : DecideResult) : ReductionCache :=
  let permitted := permitsWhileLocked decided.result
  ⟨some permitted, if permitted then decided.reservationId else none⟩

/-- Python `_permits_verified_reduction`. -/
def permitsVerifiedReduction (env : Env) (req : OrderRequest) (args : DecideArgs)
    (ev : Evaluation) : Evaluation × Bool :=
  match ev.cache.result with
  | some result => (ev, result)
  | none =>
    match env.registry with
    | none => (⟨ev.db, { ev.cache with result := some false }⟩, false)
    | some registry =>
      let (db, decided) := decide ev.db req.accountId (classifierRead env registry req.userId)
        (submission req) args env.clock.now
      (⟨db, .keep decided⟩, permitsWhileLocked decided.result)

/-- Python `_trigger_and_guard`: fire the trigger; `true` when ENFORCE fails the order closed because
    the transition could not be written. -/
def triggerAndGuard (env : Env) (accountId : Nat) (trigger : LossTrigger) (ev : Evaluation) :
    Evaluation × Bool :=
  if env.settings.lossControlMode = .off then (ev, false)
  else if env.triggerFails trigger then (ev, env.settings.lossControlMode = .enforce)
  else ({ ev with db := requestTransition ev.db accountId trigger env.clock.now }, false)

/-! ## Step 9: the daily-loss cap -/

/-- Python `_daily_loss_day_change`: the day change, and the Model A observation when one governs. -/
def dailyLossDayChange (env : Env) (db : Db) (accountId : Nat) :
    Option ℚ × Option DailyLossObservation :=
  match db.accountStates.get accountId with
  | none => (none, none)
  | some state =>
    match observeModelADailyLoss db accountId (some state.equity) env.clock.sessionDate with
    | some modelA => (if modelA.status = .available then modelA.dailyPnl else none, some modelA)
    | none =>
      if env.settings.sessionBaselineEnforcementEnabled then
        ((selectDailyLossBasis db accountId (some state.equity) (some state.lastEquity) none
          env.clock.sessionDate).dayChange, none)
      else (some state.dayChange, none)

/-- What step 9 finds. -/
inductive DailyLossReading where
  | clear
  | basisUnavailable (status : ObservationStatus)
  | breached (dayChange : ℚ)
  deriving DecidableEq, Repr

def dailyLossReading (env : Env) (db : Db) (accountId : Nat) (limits : RiskLimits) :
    DailyLossReading :=
  match limits.maxDailyLoss with
  | none => .clear
  | some maxLoss =>
    let (dayChange, modelA) := dailyLossDayChange env db accountId
    match modelA.filter (·.status ≠ .available) with
    | some modelA => .basisUnavailable modelA.status
    | none =>
      match dayChange.filter (· ≤ -maxLoss) with
      | some dayChange => .breached dayChange
      | none => .clear

/-- Let a verified reduction on, and refuse anything else. -/
def reductionOnly (env : Env) (req : OrderRequest) (args : DecideArgs) (reason : ReasonCode)
    (ev : Evaluation) : Evaluation × Gate :=
  let (ev, permitted) := permitsVerifiedReduction env req args ev
  (ev, if permitted then .next else .refuse reason)

def dailyLossGate (env : Env) (req : OrderRequest) (limits : RiskLimits) (ev : Evaluation) :
    Evaluation × Gate :=
  match dailyLossReading env ev.db req.accountId limits with
  | .clear => (ev, .next)
  | .basisUnavailable status =>
    if mapSurfaceAction status .newRisk = .reject then
      reductionOnly env req ⟨.dailyLoss, some "model_a_basis_unavailable", none⟩ .lossControlStop ev
    else (ev, .next)
  | .breached dayChange =>
    let tripped := { ev with db := trip ev.db req.accountId env.clock.now }
    match triggerAndGuard env req.accountId .dailyLossBreach tripped with
    | (ev, true) => (ev, .stop)
    | (ev, false) =>
      reductionOnly env req ⟨.dailyLoss, some "daily_loss_exceeded", some dayChange⟩
        .circuitBreaker ev

/-! ## Steps 10 to 12: rate, count and buying power -/

/-- Step 10: the orders of the user in the last sixty seconds. -/
def rateGate (env : Env) (db : Db) (req : OrderRequest) (limits : RiskLimits) :
    Option ReasonCode :=
  let since : Int := env.clock.now - 60000000
  let count := db.orders.countP fun o => o.userId = req.userId ∧ since ≤ o.createdAt
  if limits.maxOrdersPerMinute.any (· ≤ count) then some .rateLimit else none

/-- Step 11: the orders of the account since the market opened. -/
def dayCountGate (env : Env) (db : Db) (req : OrderRequest) (limits : RiskLimits) :
    Option ReasonCode :=
  let dayStart := marketOpenUtcToday env.clock.now
  let count := db.orders.countP fun o => o.accountId = req.accountId ∧ dayStart ≤ o.createdAt
  if limits.maxOrdersPerDay.any (· ≤ count) then some .maxOrdersPerDay else none

/-- Python `_estimate_worst_case_notional`; the slippage buffer is one percent. -/
def estimateWorstCaseNotional (env : Env) (req : OrderRequest) : ℚ :=
  match req.type with
  | .limit | .stopLimit => req.limitPrice.getD 0 * req.qty
  | .stop => req.stopPrice.getD 0 * req.qty * (101 / 100)
  | .market => ((env.latestClose req.symbolTicker).map (· * req.qty * (101 / 100))).getD 0

/-- Step 12 (Python `BuyingPowerChecker.check`): live buys only, and any broker failure passes. -/
def buyingPowerGate (env : Env) (req : OrderRequest) (brokerMode : AccountMode) :
    Option ReasonCode :=
  match env.registry with
  | none => none
  | some registry =>
    if brokerMode ≠ .live ∨ req.side = .sell then none
    else match (registry.get req.accountId).bind (env.reads · .buyingPower) with
      | none => none
      | some read =>
        if read.buyingPower < estimateWorstCaseNotional env req then some .insufficientBuyingPower
        else none

def throttleGates (env : Env) (db : Db) (req : OrderRequest) (brokerMode : AccountMode)
    (limits : RiskLimits) : Option ReasonCode :=
  (rateGate env db req limits).or <| (dayCountGate env db req limits).or
    (buyingPowerGate env req brokerMode)

/-! ## Step 13: the circuit breaker -/

def breakerGate (env : Env) (req : OrderRequest) (ev : Evaluation) : Evaluation × Gate :=
  match check env.settings env.clock ev.db req.accountId with
  | (db, none) => ({ ev with db }, .next)
  | (db, some ⟨true⟩) =>
    match triggerAndGuard env req.accountId .breakerTrip { ev with db } with
    | (ev, true) => (ev, .stop)
    | (ev, false) =>
      reductionOnly env req ⟨.breaker, some "circuit_breaker_tripped", none⟩ .circuitBreaker ev
  | (db, some ⟨false⟩) =>
    reductionOnly env req ⟨.breaker, some "model_a_basis_unavailable", none⟩ .lossControlStop
      { ev with db }

def runGates (env : Env) (req : OrderRequest) (brokerMode : AccountMode) (ctx : Applicable)
    (ev : Evaluation) : Evaluation × Gate :=
  match orderGates env ev.db req ctx with
  | some reason => (ev, .refuse reason)
  | none =>
    match dailyLossGate env req ctx.limits ev with
    | (ev, .next) =>
      match throttleGates env ev.db req brokerMode ctx.limits with
      | some reason => (ev, .refuse reason)
      | none => breakerGate env req ev
    | ended => ended

/-! ## The terminal decision -/

/-- The decision of the gates, before loss control has its say. -/
structure Legacy where
  decision : RiskVerdict
  reasons : List ReasonCode
  resolvedSymbolId : Option Nat := none
  estimatedNotional : Option ℚ := none
  reservationId : Option Nat := none

/-- `legacy_permits`. -/
def Legacy.permits (legacy : Legacy) : Bool := legacy.decision = .pass

/-- Python `_persist_and_return`. -/
def persistAndReturn (db : Db) (final : Legacy) : Db × RiskOutcome :=
  ({ db with riskChecks := db.riskChecks ++ [⟨final.decision, final.reasons⟩] },
    { decision := final.decision
      reasonCodes := final.reasons
      riskCheckId := some db.riskChecks.length
      resolvedSymbolId := final.resolvedSymbolId
      estimatedNotional := final.estimatedNotional
      reservationId := final.reservationId })

/-- The loss-control gate asks the classifier itself: the persisted state depends on the reduction
    verdict, and no step has established it. -/
def gateAsks (accountId : Nat) (ev : Evaluation) : Bool :=
  (lossState ev.db accountId).any reductionDependent && ev.cache.result.isNone

/-- Python `_apply_loss_control`. -/
def applyLossControl (env : Env) (req : OrderRequest) (legacyPermits : Bool) (ev : Evaluation) :
    Evaluation × Option LossControlDecision :=
  let mode := env.settings.lossControlMode
  if mode = .off then (ev, none)
  else if env.stateRowFails then
    (ev, if mode = .enforce then some (failClosedDecision mode legacyPermits .gateEval) else none)
  else
    let ev :=
      if gateAsks req.accountId ev then
        (permitsVerifiedReduction env req
          ⟨.dailyLoss, some "loss_control_reduction_only", none⟩ ev).1
      else ev
    (ev, some (evaluateGate env.gateFails ev.db mode req.accountId ev.cache.result legacyPermits))

/-- The reasons of a rejection that loss control contributes to: those of the gates when they reject
    too, and LOSS_CONTROL_STOP. -/
def Legacy.stopReasons (legacy : Legacy) : List ReasonCode :=
  let reasons := if legacy.permits then [] else legacy.reasons
  if .lossControlStop ∈ reasons then reasons else reasons ++ [.lossControlStop]

/-- Python `_enforce_loss_control`: the final reasons when loss control contributes to a rejection. -/
def enforceLossControl (decision : Option LossControlDecision) (legacy : Legacy) :
    Option (List ReasonCode) :=
  match decision with
  | none => none
  | some decision =>
    if !decision.authoritative || decision.permitsOrder then none else some legacy.stopReasons

/-- Python `_finalize_with_loss_control`. -/
def finalizeWithLossControl (env : Env) (req : OrderRequest) (legacy : Legacy) (ev : Evaluation) :
    Db × RiskOutcome :=
  let (ev, decision) := applyLossControl env req legacy.permits ev
  persistAndReturn ev.db <|
    match enforceLossControl decision legacy with
    | none => legacy
    | some reasons => { legacy with decision := .reject, reasons }

def refusal (reason : ReasonCode) : Legacy := ⟨.reject, [reason], none, none, none⟩

/-- The legacy PASS; the reservation id is taken from the cache as the gates left it. -/
def passage (env : Env) (req : OrderRequest) (ctx : Applicable) (ev : Evaluation) : Legacy where
  decision := .pass
  reasons := [.ok]
  resolvedSymbolId := some ctx.symbolId
  estimatedNotional := estimateNotional env req
  reservationId := ev.cache.reservationId

/-- The end of an evaluation whose gates ended in `gate`. -/
def conclude (env : Env) (req : OrderRequest) (ctx : Applicable) (ev : Evaluation) :
    Gate → Db × RiskOutcome
  | .stop => persistAndReturn ev.db (refusal .lossControlStop)
  | .refuse reason => finalizeWithLossControl env req (refusal reason) ev
  | .next => finalizeWithLossControl env req (passage env req ctx ev) ev

/-- Python `RiskEngine.evaluate`. -/
def evaluate (env : Env) (db : Db) (req : OrderRequest) (tradingMode brokerMode : AccountMode) :
    Db × RiskOutcome :=
  match preprocess env db req tradingMode brokerMode with
  | .error reason => persistAndReturn db (refusal reason)
  | .ok ctx =>
    let (ev, gate) := runGates env req brokerMode ctx ⟨db, {}⟩
    conclude env req ctx ev gate

end Workbench.Risk
