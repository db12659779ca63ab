import Mathlib
import Workbench.Lib.Attempt
import Workbench.Market.Session
import Workbench.Demand.Cache

/-!
# Readiness

Model of `app/market_data/sip/readiness.py` and of one tick of the LIVE refresh job of
`app/market_data/sip/scheduler.py`, alone on its database: what is requested from the producer, what is written, and
the verdict that is recomputed from the cache.

The session that `classify` returns is read through its attributes: calling a bool is a `TypeError`.
-/

namespace Workbench.Demand
open Workbench.Lib

/-! ## The evaluator -/

/-- The five states. -/
inductive SipReadinessState where
  | pass | stale | incomplete | entitlementFail | absent
deriving DecidableEq

/-- The reasons of a verdict. -/
inductive Reason where
  | storeUnavailable
  | notEntitled
  | noRecords
  | tooOld (age bound : ℚ)
  | dateAbsent (expected newest : Int)
  | belowCoverage (coverage required : ℚ) (observed expected : Nat)
  | satisfied
deriving DecidableEq

/-- Python `SipReadiness`. -/
structure SipReadiness where
  profile : SipProfile
  state : SipReadinessState
  evaluatedAt : Int
  reason : Reason
  observedSymbols : Nat := 0
  expectedSymbols : Nat := 0
  coverage : ℚ := 0
  maxAgeS : Option ℚ := none
  newestSourceTimestamp : Option Int := none
  expectedTradingDate : Option Int := none

/-- Python `SipReadinessEvaluator`. -/
structure SipReadinessEvaluator where
  expectedSymbols : Nat
  liveMaxAgeS : ℚ
  eodExpectedTradingDate : Option Int := none
  minCoverage : ℚ := 1

def seconds (span : Int) : ℚ := span / 1000000

namespace SipReadinessEvaluator
variable (ev : SipReadinessEvaluator)

/-- The records as a share of the expected symbols. -/
def coverage (records : List CacheRow) : ℚ :=
  if ev.expectedSymbols = 0 then 0 else records.length / ev.expectedSymbols

def age (records : List CacheRow) (now : Int) : ℚ :=
  seconds (now - ((records.map (·.sourceTimestamp)).min?.getD now))

/-- Why the records are stale: the oldest one in LIVE, a date that none of them has in EOD. -/
def staleReason (profile : SipProfile) (records : List CacheRow) (now : Int) : Option Reason :=
  match profile with
  | .live => if ev.liveMaxAgeS < age records now then some (.tooOld (age records now) ev.liveMaxAgeS) else none
  | .eod =>
    match ev.eodExpectedTradingDate with
    | none => none
    | some date =>
      let present := records.map (·.tradingDate)
      if date ∈ present then none else some (.dateAbsent date (present.max?.getD date))

/-- Python `evaluate`. -/
def evaluate (profile : SipProfile) (records : List CacheRow) (entitlementOk storeAvailable : Bool) (now : Int) :
    SipReadiness :=
  let unread (state : SipReadinessState) (reason : Reason) : SipReadiness :=
    { profile, state, reason, evaluatedAt := now, expectedSymbols := ev.expectedSymbols }
  let verdict (state : SipReadinessState) (reason : Reason) : SipReadiness :=
    { profile, state, reason
      evaluatedAt := now
      observedSymbols := records.length
      expectedSymbols := ev.expectedSymbols
      coverage := ev.coverage records
      maxAgeS := if profile = .live then some (age records now) else none
      newestSourceTimestamp := (records.map (·.sourceTimestamp)).max?
      expectedTradingDate := if profile = .live then none else ev.eodExpectedTradingDate }
  if storeAvailable = false then unread .absent .storeUnavailable
  else if entitlementOk = false then unread .entitlementFail .notEntitled
  else if records.isEmpty then unread .absent .noRecords
  else
    match ev.staleReason profile records now with
    | some reason => verdict .stale reason
    | none =>
      if ev.coverage records < ev.minCoverage then
        verdict .incomplete (.belowCoverage (ev.coverage records) ev.minCoverage records.length ev.expectedSymbols)
      else verdict .pass .satisfied

end SipReadinessEvaluator

/-! ## The session of an instant -/

/-- An exception that is not one of the plane. -/
inductive Raised where
  | typeError
deriving DecidableEq

/-- What an attribute of an object is: a value, as of a property, or a method without arguments. -/
inductive Attribute where
  | value (b : Bool)
  | method (b : Bool)

/-- `attribute()`: a bool cannot be called. -/
def Attribute.call : Attribute → Except Raised Bool
  | .value _ => .error .typeError
  | .method b => .ok b

/-- What the ticks read of a session. -/
structure SessionInfo where
  isRegular : Attribute
  isTradingDay : Bool
  regularClose : Option Int

/-- A `MarketSession`: the zone, the calendar, and the UTC instant of a local date and time. -/
structure MarketSession where
  zone : Market.Zone
  calendar : Market.Calendar
  utc : Int → Int → Int

/-- Python `classify` of a `MarketSession`: `is_regular` is a property. -/
def MarketSession.classify (session : MarketSession) (now : Int) : SessionInfo where
  isRegular := .value (Market.classify session.zone session.calendar now.toNat = .regular)
  isTradingDay := (session.calendar (session.zone.date now.toNat)).isSome
  regularClose := (session.calendar (session.zone.date now.toNat)).map fun sched =>
    session.utc (session.zone.date now.toNat) sched.closes

/-! ## The plane -/

/-- What `fetch_latest_quotes` returns or raises. -/
inductive Fetched where
  | records (rs : List SipRecord)
  | entitlementError
  | failed (exception : String)

/-- Python `SipRefreshDeps`; `scheduler` is the interval of the job, where there is a scheduler. -/
structure SipRefreshDeps extends RefreshDeps where
  marketSession : Int → SessionInfo
  producer : List String → SipProfile → (tradingDate : Int) → Fetched
  config : DemandPlaneConfig
  runnable : String → Bool
  eodSettleMarginS : Int := 0
  eodRefreshAttempts : Nat := 1
  eodMinCoverage : ℚ := 1
  scheduler : Option (Option ℚ) := none

/-- Python `SipPlaneLatch`. -/
structure SipPlaneLatch where
  entitlementOk : Bool := true
  lastState : Dict SipProfile SipReadinessState := .empty
  eodAttempts : Dict Int Nat := .empty

/-- The leases, the rows of the cache and the latch. -/
structure Plane where
  leases : List Lease := []
  cache : Cache := .empty
  latch : SipPlaneLatch := {}

/-- What a tick does outside of the plane. -/
inductive Event where
  | requested (profile : SipProfile) (symbols : List String) (tradingDate : Int)
  | rescheduled (interval : ℚ)
  | acquisitionFailure (profile : SipProfile) (failureClass : String) (leaseIds : List Nat) (symbolCount : Nat)
  | readinessTransition (profile : SipProfile) (previous : Option SipReadinessState) (state : SipReadinessState)
      (reason : Reason)

abbrev Job := Attempt Event Raised

/-- Python `RefreshOutcome`. -/
structure RefreshOutcome where
  profile : SipProfile
  attempted : Bool := true
  idleReason : Option String := none
  symbolsRequested : Nat := 0
  recordsWritten : Nat := 0
  leasesServed : Nat := 0
  readinessState : Option SipReadinessState := none
  readinessReason : Option Reason := none
  failureClass : Option String := none

def RefreshOutcome.idle (profile : SipProfile) (reason : String) : RefreshOutcome :=
  { profile, attempted := false, idleReason := some reason }

/-- Python `expire_due`: the leases that have lapsed, then those of the consumers that cannot run. -/
def expireDue (runnable : String → Bool) (now : Int) (leases : List Lease) : List Lease :=
  let stopped := ((leases.filter fun l => l.status = .active ∧ now < l.expiresAt ∧ !runnable l.consumerId).map
    (·.consumerId)).dedup
  stopped.foldl (fun ls c => setStatus (activeIds ls (·.consumerId = c)) .revoked ls)
    (setStatus (activeIds leases (·.expiresAt ≤ now)) .expired leases)

def unionIds (leases : List Lease) (profile : SipProfile) (now : Int) : List Nat :=
  activeIds leases fun l => l.profile = profile ∧ now < l.expiresAt

/-- One record of `upsert`, alone on the database: the rows, and how many were written. -/
def upsertNext (written : Cache × Nat) (record : SipRecord) : Cache × Nat :=
  match upsertOne written.1 record with
  | .nothing => written
  | pending => ((pending.flush written.1).getD written.1, written.2 + 1)

/-- Python `upsert`, alone on the database. -/
def upsert (cache : Cache) (records : List SipRecord) : Cache × Nat := records.foldl upsertNext (cache, 0)

/-- Python `mark_served`: the leases of which a symbol was written. -/
def markServed (leases : List Lease) (profile : SipProfile) (symbols : List String) (now : Int) : Nat :=
  (unexpired leases profile now).countP fun l => l.symbols.any (· ∈ symbols)

/-- Python `prune`, alone on the database. -/
def prune (cache : Cache) (days : Option Int) (now : Int) (protect : Finset String) : Cache :=
  match days with
  | none => cache
  | some days =>
    if days ≤ 0 then cache
    else deleteRows cache (victims (oldRows cache (cutoff now days)) (newestDates protect cache.values))

/-! ## The parts of a tick -/

/-- Python `_recompute`, its verdict. -/
def recompute (deps : SipRefreshDeps) (plane : Plane) (profile : SipProfile) (expectedSymbols : Nat)
    (liveMaxAgeS : Option ℚ) (eodExpected : Option Int) (now : Int) : SipReadiness :=
  let evaluator : SipReadinessEvaluator :=
    { expectedSymbols
      liveMaxAgeS := liveMaxAgeS.getD 0
      eodExpectedTradingDate := eodExpected
      minCoverage := deps.eodMinCoverage }
  evaluator.evaluate profile (latestForProfile plane.cache profile).values plane.latch.entitlementOk true now

/-- Python `_audit_transition`: a verdict that is not the last one is recorded. -/
def auditTransition (plane : Plane) (r : SipReadiness) : Job Plane := do
  let previous := plane.latch.lastState.get r.profile
  if previous = some r.state then return plane
  else
    Attempt.emit (.readinessTransition r.profile previous r.state r.reason)
    return { plane with latch := { plane.latch with lastState := plane.latch.lastState.set r.profile r.state } }

/-- What an acquisition has written and served, or how it has failed. -/
structure Acquired where
  plane : Plane
  written : Nat := 0
  served : Nat := 0
  failure : Option String := none

/-- Python `_acquire`: an entitlement refusal latches, a success clears the latch. -/
def acquire (deps : SipRefreshDeps) (plane : Plane) (profile : SipProfile) (symbols : List String)
    (tradingDate : Int) (leaseIds : List Nat) (now : Int) : Job Acquired := do
  Attempt.emit (.requested profile symbols tradingDate)
  match deps.producer symbols profile tradingDate with
  | .entitlementError =>
    Attempt.emit (.acquisitionFailure profile "entitlement" leaseIds symbols.length)
    return { plane := { plane with latch := { plane.latch with entitlementOk := false } }
             failure := some "entitlement" }
  | .failed exception =>
    Attempt.emit (.acquisitionFailure profile exception leaseIds symbols.length)
    return { plane, failure := some exception }
  | .records rs =>
    let stored := upsert plane.cache rs
    return { plane := { plane with cache := stored.1, latch := { plane.latch with entitlementOk := true } }
             written := stored.2
             served := markServed plane.leases profile (rs.map (·.symbol)) now }

/-- Python `_maybe_reschedule`: an interval that has changed. -/
def maybeReschedule (deps : SipRefreshDeps) (interval : Option ℚ) : Job Unit :=
  match deps.scheduler, interval with
  | some current, some interval =>
    if current.any fun c => |c - interval| < 1 / 1000000 then pure () else Attempt.emit (.rescheduled interval)
  | _, _ => pure ()

/-- Acquire, recompute and prune, for a union that is not empty. -/
def refresh (deps : SipRefreshDeps) (plane : Plane) (profile : SipProfile) (demand : ProfileDemand)
    (symbols : List String) (liveMaxAgeS : Option ℚ) (eodExpected : Option Int) (now : Int) :
    Job (Plane × RefreshOutcome) := do
  let acquired ← acquire deps plane profile symbols (deps.tradingDate now) (unionIds plane.leases profile now) now
  let r := recompute deps acquired.plane profile demand.symbols.card liveMaxAgeS eodExpected now
  let plane ← auditTransition acquired.plane r
  return ({ plane with cache := prune plane.cache (deps.retentionDays profile) now demand.symbols },
    { profile
      symbolsRequested := symbols.length
      recordsWritten := acquired.written
      leasesServed := acquired.served
      readinessState := some r.state
      readinessReason := some r.reason
      failureClass := acquired.failure })

/-! ## The ticks -/

local instance string_le_trans : IsTrans String (· ≤ ·) := inferInstance

local instance string_le_antisymm : Std.Antisymm (α := String) (· ≤ ·) := inferInstance

/-- Python `run_sip_live_refresh`. -/
def runSipLiveRefresh (deps : SipRefreshDeps) (plane : Plane) (now : Int) : Job (Plane × RefreshOutcome) := do
  let plane := { plane with leases := expireDue deps.runnable now plane.leases }
  let regular ← Attempt.ofExcept (deps.marketSession now).isRegular.call
  if regular = false then return (plane, .idle .live "outside_regular_hours")
  else
    let demand := forProfile plane.leases .live now
    if demand.symbols = ∅ then return (plane, .idle .live "no_live_leases")
    else
      maybeReschedule deps (liveIntervalSeconds demand.strictestBoundS deps.config)
      refresh deps plane .live demand demand.symbols.sort demand.strictestBoundS none now

end Workbench.Demand
