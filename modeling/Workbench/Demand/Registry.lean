import Workbench.Lib.Dict

/-!
# Demand leases

Model of `app/market_data/sip/demand.py`: the configuration of the plane, `ConsumerRegistry._validate`, the
changes that the operations of `ConsumerRegistry` make to the two tables, and `DemandUnion.for_profile`; and of
`live_interval_seconds` of `app/market_data/sip/scheduler.py`.

Instants and spans are in microseconds. Sets of symbols are lists in the order in which they are iterated. The
id of a lease is its place in the table.
-/

namespace Workbench.Demand
open Workbench.Lib

/-! ## Closed enums -/

/-- The two data products. -/
inductive SipProfile where
  | eod | live
deriving DecidableEq

/-- Why a consumer needs data for a symbol. -/
inductive DemandReason where
  | held | pendingEntry | pendingExit | decisionWindow | eodFeature | selectionUniverse
deriving DecidableEq

/-- Python `REASONS_FOR_PROFILE`. -/
def reasonsForProfile : SipProfile → List DemandReason
  | .live => [.held, .pendingEntry, .pendingExit, .decisionWindow]
  | .eod => [.held, .pendingEntry, .pendingExit, .decisionWindow, .eodFeature, .selectionUniverse]

/-- What has become of a lease. -/
inductive LeaseStatus where
  | active | superseded | withdrawn | revoked | expired
deriving DecidableEq

/-- Every way a lease can be refused. -/
inductive LeaseRejection where
  | grantInvalid | unregisteredConsumer | consumerRevoked | profileNotPermitted | reasonNotPermitted
  | emptySymbolSet | malformedSymbol | reasonMissing | reasonNotAllowedForProfile | freshnessUnbound
  | expiryInPast | expiryExceedsMax | leaseMaxUnconfigured | consumerCapExceeded | planeCapExceeded
  | planeCapUnconfigured | producerFloorUnconfigured | boundBelowProducerFloor | eodToleranceInvalid
deriving DecidableEq

/-! ## Configuration and rows -/

/-- Capacity policy; what is missing fails closed. -/
structure DemandPlaneConfig where
  livePlaneSymbolCap : Option Int
  eodPlaneSymbolCap : Option Int
  liveMaxLease : Option Int
  eodMaxLease : Option Int
  liveMinIntervalS : Option ℚ
  liveMaxIntervalS : Option ℚ

/-- Python `plane_cap`. -/
def DemandPlaneConfig.planeCap (config : DemandPlaneConfig) : SipProfile → Option Int
  | .live => config.livePlaneSymbolCap
  | .eod => config.eodPlaneSymbolCap

/-- Python `max_lease`. -/
def DemandPlaneConfig.maxLease (config : DemandPlaneConfig) : SipProfile → Option Int
  | .live => config.liveMaxLease
  | .eod => config.eodMaxLease

/-- A row of `sip_consumer_registrations`. -/
structure Registration where
  strategyId : Option Nat := none
  allowedProfiles : List SipProfile
  allowedReasons : List DemandReason
  symbolCapEod : Int
  symbolCapLive : Int
  freshnessPolicyRef : Option String := none
  revokedAt : Option Int := none

/-- What a consumer asks for. -/
structure DemandLease where
  profile : SipProfile
  symbols : List String
  reasons : List (String × DemandReason)
  expiresAt : Int
  maxAgeTradingDays : Option Int := none

/-- A row of `sip_demand_leases`. -/
structure Lease where
  consumerId : String
  profile : SipProfile
  symbols : List String
  maxAgeS : Option ℚ
  maxAgeTradingDays : Option Int
  effectiveFrom : Int
  expiresAt : Int
  status : LeaseStatus := .active

/-- A number as a `Numeric(12, 3)` column gives it back: to the nearest thousandth, ties to even. -/
def thousandths (x : ℚ) : ℚ :=
  let n := ⌊x * 1000⌋
  let rest := x * 1000 - n
  (if rest < 1 / 2 ∨ rest = 1 / 2 ∧ n % 2 = 0 then n else n + 1) / 1000

/-- The bound that a lease carries, as it is read. -/
def Lease.bound (l : Lease) : Option ℚ := l.maxAgeS.map thousandths

/-! ## Admission -/

/-- `_SYMBOL_RE.match(sym)`; the dollar sign allows for a newline at the end. -/
def symbolRe (sym : String) : Bool :=
  let cs := if sym.toList.getLast? = some '\n' then sym.toList.dropLast else sym.toList
  match cs with
  | [] => false
  | c :: rest =>
    ('A' ≤ c && c ≤ 'Z') && rest.length ≤ 15 &&
      rest.all fun d => ('A' ≤ d && d ≤ 'Z') || d.isDigit || d = '.' || d = '-'

/-- Python `_active_symbols_excluding`. -/
def activeSymbolsExcluding (leases : List Lease) (profile : SipProfile) (consumerId : String) (now : Int) :
    Finset String :=
  ((leases.filter fun l => l.profile = profile ∧ l.status = .active ∧ l.consumerId ≠ consumerId ∧
    now < l.expiresAt).flatMap (·.symbols)).toFinset

def reasonDefect (reg : Registration) (lease : DemandLease) (sym : String) : Option LeaseRejection :=
  match lease.reasons.lookup sym with
  | none => some .reasonMissing
  | some reason =>
    if reason ∉ reasonsForProfile lease.profile then some .reasonNotAllowedForProfile
    else if reason ∉ reg.allowedReasons then some .reasonNotPermitted
    else none

/-- The bound of a lease: a LIVE lease gets that of its governed policy, an EOD lease gets none. -/
def boundOf (config : DemandPlaneConfig) (lease : DemandLease) (policy : Option ℚ) :
    Except LeaseRejection (Option ℚ) :=
  match lease.profile with
  | .live =>
    match policy with
    | none => .error .freshnessUnbound
    | some bound =>
      if bound ≤ 0 then .error .freshnessUnbound
      else
        match config.liveMinIntervalS with
        | none => .error .producerFloorUnconfigured
        | some floor => if bound < 2 * floor then .error .boundBelowProducerFloor else .ok (some bound)
  | .eod => if lease.maxAgeTradingDays.getD 1 < 1 then .error .eodToleranceInvalid else .ok none

/-- Whether there is room for a lease, in the consumer's cap and in the plane's. -/
def capDefect (config : DemandPlaneConfig) (leases : List Lease) (consumerId : String) (reg : Registration)
    (lease : DemandLease) (now : Int) : Option LeaseRejection :=
  if (if lease.profile = .live then reg.symbolCapLive else reg.symbolCapEod) < lease.symbols.length then
    some .consumerCapExceeded
  else
    match config.planeCap lease.profile with
    | none => some .planeCapUnconfigured
    | some cap =>
      if cap < (activeSymbolsExcluding leases lease.profile consumerId now ∪ lease.symbols.toFinset).card then
        some .planeCapExceeded
      else none

/-- Python `_validate`, the consumer registered as `reg`. -/
def validateRegistered (config : DemandPlaneConfig) (leases : List Lease) (consumerId : String) (reg : Registration)
    (lease : DemandLease) (policy : Option ℚ) (now : Int) : Except LeaseRejection (Option ℚ) :=
  if reg.revokedAt ≠ none then .error .consumerRevoked
  else if lease.profile ∉ reg.allowedProfiles then .error .profileNotPermitted
  else if lease.symbols = [] then .error .emptySymbolSet
  else if lease.symbols.any (!symbolRe ·) then .error .malformedSymbol
  else
    match lease.symbols.findSome? (reasonDefect reg lease) with
    | some defect => .error defect
    | none =>
      match config.maxLease lease.profile with
      | none => .error .leaseMaxUnconfigured
      | some maxLease =>
        if lease.expiresAt ≤ now then .error .expiryInPast
        else if now + maxLease < lease.expiresAt then .error .expiryExceedsMax
        else
          match boundOf config lease policy with
          | .error defect => .error defect
          | .ok bound =>
            match capDefect config leases consumerId reg lease now with
            | some defect => .error defect
            | none => .ok bound

/-- Python `_validate`. -/
def validate (config : DemandPlaneConfig) (leases : List Lease) (consumerId : String) (grantValid : Bool)
    (reg : Option Registration) (lease : DemandLease) (policy : Option ℚ) (now : Int) :
    Except LeaseRejection (Option ℚ) :=
  if grantValid = false then .error .grantInvalid
  else
    match reg with
    | none => .error .unregisteredConsumer
    | some reg => validateRegistered config leases consumerId reg lease policy now

/-! ## Changes to the tables -/

def setStatus (ids : List Nat) (status : LeaseStatus) (leases : List Lease) : List Lease :=
  leases.mapIdx fun i l => if i ∈ ids then { l with status } else l

/-- The ids of the active leases of a consumer that meet a condition. -/
def activeIds (leases : List Lease) (p : Lease → Bool) : List Nat :=
  (leases.zipIdx.filter fun e => e.1.status = .active ∧ p e.1).map (·.2)

/-- What `publish` writes for a lease that was admitted: the consumer's active leases of the profile are superseded. -/
def supersede (leases : List Lease) (consumerId : String) (lease : DemandLease) (bound : Option ℚ) (now : Int) :
    List Lease :=
  setStatus (activeIds leases fun l => l.consumerId = consumerId ∧ l.profile = lease.profile) .superseded leases ++
    [{ consumerId, profile := lease.profile, symbols := lease.symbols, maxAgeS := bound,
       maxAgeTradingDays := if lease.profile = .eod then some (if lease.maxAgeTradingDays = some 0 then 1
         else lease.maxAgeTradingDays.getD 1) else none,
       effectiveFrom := now, expiresAt := lease.expiresAt }]

/-- An entry of the artifact, validated. -/
structure Entry where
  consumerId : String
  strategyId : Option Nat := none
  allowedProfiles : List SipProfile
  allowedReasons : List DemandReason
  symbolCapEod : Int
  symbolCapLive : Int
  freshnessPolicyRef : Option String := none

def Entry.registration (e : Entry) : Registration :=
  { strategyId := e.strategyId, allowedProfiles := e.allowedProfiles, allowedReasons := e.allowedReasons,
    symbolCapEod := e.symbolCapEod, symbolCapLive := e.symbolCapLive, freshnessPolicyRef := e.freshnessPolicyRef }

/-- A column that is set: it is written if its value is not what was read. -/
def writeColumn {α : Type*} [DecidableEq α] (was new now : α) : α := if new = was then now else new

def Entry.update (e : Entry) (was now : Registration) : Registration :=
  { strategyId := writeColumn was.strategyId e.strategyId now.strategyId
    allowedProfiles := writeColumn was.allowedProfiles e.allowedProfiles now.allowedProfiles
    allowedReasons := writeColumn was.allowedReasons e.allowedReasons now.allowedReasons
    symbolCapEod := writeColumn was.symbolCapEod e.symbolCapEod now.symbolCapEod
    symbolCapLive := writeColumn was.symbolCapLive e.symbolCapLive now.symbolCapLive
    freshnessPolicyRef := writeColumn was.freshnessPolicyRef e.freshnessPolicyRef now.freshnessPolicyRef
    revokedAt := writeColumn was.revokedAt none now.revokedAt }

/-- Write one entry: a consumer that was not there is inserted, which fails if it is there by now. -/
def applyEntry (seen : Dict String Registration) (regs : Dict String Registration) (e : Entry) :
    Option (Dict String Registration) :=
  match seen.get e.consumerId, regs.get e.consumerId with
  | none, none => some (regs.set e.consumerId e.registration)
  | some was, some now => some (regs.set e.consumerId (e.update was now))
  | _, _ => none

/-- The consumers that an artifact revokes: they were live and are not listed. -/
def unlisted (seen : Dict String Registration) (entries : List Entry) : List String :=
  (seen.entries.filter fun r => r.1 ∉ entries.map (·.consumerId) ∧ r.2.revokedAt = none).map (·.1)

def revokeAt (now : Int) (regs : Dict String Registration) (consumerId : String) : Dict String Registration :=
  match regs.get consumerId with
  | none => regs
  | some reg => regs.set consumerId { reg with revokedAt := some now }

/-- The write of `apply_artifact`; `none` is a row that is there already. -/
def applyArtifact (seen regs : Dict String Registration) (entries : List Entry) (now : Int) :
    Option (Dict String Registration) :=
  (entries.foldlM (applyEntry seen) regs).map fun regs => (unlisted seen entries).foldl (revokeAt now) regs

/-! ## The union -/

/-- The leases that `for_profile` goes through. -/
def unexpired (leases : List Lease) (profile : SipProfile) (now : Int) : List Lease :=
  leases.filter fun l => l.profile = profile ∧ l.status = .active ∧ now < l.expiresAt

def addBound (bounds : Dict String ℚ) (e : String × ℚ) : Dict String ℚ :=
  bounds.set e.1 (min e.2 ((bounds.get e.1).getD e.2))

/-- What is to be fetched for a profile. -/
structure ProfileDemand where
  symbols : Finset String
  perSymbolBoundS : Dict String ℚ
  strictestBoundS : Option ℚ

/-- Python `for_profile`. -/
def forProfile (leases : List Lease) (profile : SipProfile) (now : Int) : ProfileDemand :=
  let rows := unexpired leases profile now
  let bounds := if profile = .live then
      (rows.flatMap fun l => l.symbols.filterMap fun sym => l.bound.map (sym, ·)).foldl addBound .empty
    else .empty
  { symbols := (rows.flatMap (·.symbols)).toFinset, perSymbolBoundS := bounds, strictestBoundS := bounds.values.min? }

/-- Python `live_interval_seconds`. -/
def liveIntervalSeconds (strictestBoundS : Option ℚ) (config : DemandPlaneConfig) : Option ℚ :=
  match strictestBoundS, config.liveMinIntervalS, config.liveMaxIntervalS with
  | some strictest, some floor, some ceiling => some (max floor (min ceiling (strictest / 2)))
  | _, _, _ => none

end Workbench.Demand
