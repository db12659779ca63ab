import Workbench.Risk.LossControl.Preflight

/-!
# The recovery coordinator

Model of `RecoveryPreflightService` (`app/risk/loss_control/recovery.py`), one function for each of
its database sessions: what `request_recovery`, `_advance` and `approve` read and decide, the insert of
the parent, the check run, and `_close_parent`. The transitions between them go through
`handleRequest`. How these sessions follow each other, and what happens between them, is the
business of `Workbench.Recovery.System`.

A preflight id is its position in the table. The table has two unique indexes: one preflight for each
account and key, and one active preflight for each account; a write that breaks one of them raises.

Python → Lean naming: `_ELIGIBLE_ORIGINS` → `recoveryOrigin`; `_RESUMABLE_STATUSES` → `resumable`;
`ACTIVE_PREFLIGHT_STATUSES` → `active`.
-/

set_option linter.dupNamespace false

namespace Workbench.Risk.LossControl
open Workbench.Lib List

/-! ## The authority matrix -/

/-- Who the operators are (`risk_operator_user_ids`) and who owns each account. -/
structure Authority where
  operators : List Nat
  owner : Nat → Nat

/-- Python `actor_role`. -/
def Authority.actorRole (auth : Authority) (userId accountId : Nat) : Option ActorType :=
  if userId ∈ auth.operators then some .riskOperator
  else if userId = auth.owner accountId then some .owner
  else none

/-- Python `may_request`. -/
def mayRequest (origin : LossState) (role : ActorType) : Bool :=
  if origin = .integrityStop then role = .riskOperator ∨ role = .system else true

/-- Python `requires_explicit_approval`. -/
def requiresExplicitApproval (origin : LossState) : Bool := origin = .integrityStop

/-- Python `may_authorize_pass`. -/
def mayAuthorizePass (origin : LossState) (tripCause : Option TripCause) (role : ActorType) : Bool :=
  if role = .system then false
  else match origin with
    | .integrityStop => role = .riskOperator
    | .reductionOnlyDailyLoss => role = .owner ∨ role = .riskOperator
    | .reductionOnlyBreaker =>
      role = .riskOperator ∨ role = .owner ∧ tripCause = some .realizedAndMarkToMarketLoss
    | _ => false

/-! ## Preflights -/

/-- Membership in `ACTIVE_PREFLIGHT_STATUSES`. -/
def active : PreflightStatus → Bool
  | .requested | .running | .authorizationRequired => true
  | _ => false

/-- Membership in `_RESUMABLE_STATUSES`. -/
def resumable : PreflightStatus → Bool
  | .requested | .running => true
  | _ => false

/-- The first preflight that satisfies a condition, with its id. -/
def findPreflight (db : Db) (p : RiskRecoveryPreflight → Bool) : Option (RiskRecoveryPreflight × Nat) :=
  db.preflights.zipIdx.find? (p ·.1)

/-- Python `_load_by_key`. -/
def loadByKey (db : Db) (accountId : Nat) (key : String) : Option (RiskRecoveryPreflight × Nat) :=
  findPreflight db fun p => p.accountId = accountId ∧ p.idempotencyKey = key

/-- Python `_load_active`. -/
def loadActive (db : Db) (accountId : Nat) : Option (RiskRecoveryPreflight × Nat) :=
  findPreflight db fun p => p.accountId = accountId ∧ active p.status

/-- The stable codes a request or an approval is refused with. -/
inductive RecoveryError where
  | notAuthorized
  | idempotencyConflict
  | notEligible
  | activePreflightExists
  | internal
  deriving DecidableEq, Repr

/-- Python `RecoveryOutcome`: a refusal, or where a preflight stands. -/
inductive RecoveryOutcome where
  | rejected (status : PreflightStatus) (reason : RecoveryError)
  | accepted (preflightId : Nat) (status : PreflightStatus) (verdict : Option CheckStatus)
  deriving DecidableEq, Repr

/-- Python `_outcome_from`. -/
def outcomeFrom (parent : RiskRecoveryPreflight × Nat) : RecoveryOutcome :=
  .accepted parent.2 parent.1.status parent.1.aggregateVerdict

/-! ## A request -/

/-- What `request_recovery` does after its reads. -/
inductive RequestRead where
  | done (outcome : RecoveryOutcome)
  | resume (parentId : Nat)
  | create (role : ActorType) (origin : LossState) (version : Nat)
  deriving DecidableEq, Repr

/-- The reads of Python `request_recovery`. -/
def requestRecovery (auth : Authority) (db : Db) (accountId : Nat) (key : String) (userId : Nat) :
    RequestRead :=
  match auth.actorRole userId accountId with
  | none => .done (.rejected .failed .notAuthorized)
  | some role =>
    match loadByKey db accountId key with
    | some existing =>
      if existing.1.requestedByActorId ≠ userId then
        .done (.rejected existing.1.status .idempotencyConflict)
      else if resumable existing.1.status then .resume existing.2
      else .done (outcomeFrom existing)
    | none =>
      match loadStateRow db accountId with
      | none => .done (.rejected .failed .notEligible)
      | some row =>
        if recoveryOrigin row.state then
          if !mayRequest row.state role then .done (.rejected .failed .notAuthorized)
          else if (loadActive db accountId).isSome then
            .done (.rejected .failed .activePreflightExists)
          else .create role row.state row.stateVersion
        else if row.state = .recoveryPreflight then
          -- a recovery is in flight: resume it, whoever asks
          match loadActive db accountId with
          | some found =>
            if resumable found.1.status then .resume found.2 else .done (outcomeFrom found)
          | none => .done (.rejected .failed .notEligible)
        else .done (.rejected .failed .notEligible)

def newParent (accountId : Nat) (key : String) (userId : Nat) (role : ActorType) (origin : LossState)
    (version : Nat) : RiskRecoveryPreflight where
  accountId := accountId
  idempotencyKey := key
  expectedStateVersion := version
  requestedByActorType := role
  requestedByActorId := userId
  originState := some origin

/-- Insert a parent; `none` when one of the unique indexes refuses it. -/
def insertParent (db : Db) (parent : RiskRecoveryPreflight) : Option Db :=
  if db.preflights.any fun p => p.accountId = parent.accountId ∧
      (p.idempotencyKey = parent.idempotencyKey ∨ active p.status) then none
  else some { db with preflights := db.preflights ++ [parent] }

/-- What a request does when its insert was refused: it goes on with the winner of its key. -/
def afterConflict (db : Db) (accountId : Nat) (key : String) (userId : Nat) : RequestRead :=
  match loadByKey db accountId key with
  | none => .done (.rejected .failed .activePreflightExists)
  | some winner =>
    if winner.1.requestedByActorId ≠ userId then
      .done (.rejected winner.1.status .idempotencyConflict)
    else .resume winner.2

/-! ## Advancing a preflight -/

/-- What `_advance` does after its reads. -/
inductive AdvanceRead where
  | done (outcome : RecoveryOutcome)
  | fire (parent : RiskRecoveryPreflight)
  | find (parent : RiskRecoveryPreflight)
  | close (parent : RiskRecoveryPreflight)

/-- The reads of Python `_advance`. -/
def advanceRead (db : Db) (accountId parentId : Nat) : AdvanceRead :=
  match db.preflights[parentId]? with
  | none => .done (.rejected .failed .internal)
  | some parent =>
    if !resumable parent.status then .done (outcomeFrom (parent, parentId))
    else
      let state := lossState db accountId
      if state.any recoveryOrigin then .fire parent
      else if state = some .recoveryPreflight then .find parent
      else .close parent

/-- Python `_valid_request_event`. -/
def validRequestEvent (accountId : Nat) (e : RiskControlEvent) : Bool :=
  e.accountId = accountId ∧ e.toState = .recoveryPreflight ∧ e.requestedTransition = .recoveryRequest ∧
    recoveryOrigin e.fromState

/-- Python `_find_request_event`: the id of the only RECOVERY_REQUEST event of the account. -/
def findRequestEvent (db : Db) (accountId : Nat) : Option Nat :=
  match db.controlEvents.zipIdx.filter fun e => e.1.accountId = accountId ∧
      e.1.toState = .recoveryPreflight ∧ e.1.requestedTransition = .recoveryRequest with
  | [found] => some found.2
  | _ => none

/-- Python `_lock_trip_cause`: the cause of the last event before `before` that entered `origin`. -/
def lockTripCause (db : Db) (accountId : Nat) (origin : LossState) (before : Nat) : Option TripCause :=
  ((db.controlEvents.take before).reverse.find? fun e =>
    e.accountId = accountId ∧ e.toState = origin).bind (·.context.tripCause)

/-- Write one preflight; `none` when it would become a second active one. -/
def writeParent (db : Db) (parentId : Nat) (f : RiskRecoveryPreflight → RiskRecoveryPreflight) :
    Option Db :=
  match db.preflights[parentId]? with
  | none => none
  | some parent =>
    if active (f parent).status && db.preflights.zipIdx.any fun q =>
        q.2 ≠ parentId ∧ q.1.accountId = parent.accountId ∧ active q.1.status then none
    else some { db with preflights := Table.amend parentId f db.preflights }

/-- What a check run establishes. -/
structure CheckRun where
  origin : Option LossState
  requestEventId : Option Nat
  tripCause : Option TripCause
  results : List CheckResult

def CheckRun.verdict (run : CheckRun) : CheckStatus := aggregateVerdict run.results

/-- The checks of Python `_run_checks_and_finalize`: the origin is that of the request event, and
    unknown when that event does not prove it. -/
def checkRun (db : Db) (accountId : Nat) (requestEventId : Option Nat) (findings : Findings) : CheckRun :=
  let proven := requestEventId.bind fun id =>
    (db.controlEvents[id]?.filter (validRequestEvent accountId)).map (id, ·)
  let origin := proven.map (·.2.fromState)
  let tripCause := proven.bind fun e => lockTripCause db accountId e.2.fromState e.1
  { origin
    requestEventId := proven.map (·.1)
    tripCause
    results := runPreflightChecks db ⟨accountId, origin, proven.map (·.2), tripCause⟩ findings }

def CheckRun.record (run : CheckRun) (parent : RiskRecoveryPreflight) : RiskRecoveryPreflight :=
  { parent with
    originState := run.origin
    requestEventId := run.requestEventId
    tripCause := run.tripCause
    status := .running
    aggregateVerdict := some run.verdict
    checks := run.results }

/-- What `_close_parent` is told. -/
structure Closure where
  status : PreflightStatus
  verdict : Option CheckStatus
  transition : Option TransitionResult := none
  authorizedBy : Option (ActorType × Option Nat) := none

/-- What Python `_close_parent` leaves on a preflight. -/
def Closure.record (closure : Closure) (parent : RiskRecoveryPreflight) : RiskRecoveryPreflight :=
  { parent with
    status := closure.status
    aggregateVerdict := closure.verdict
    authorizedByActorType := closure.authorizedBy.elim parent.authorizedByActorType (some ·.1)
    authorizedByActorId := closure.authorizedBy.elim parent.authorizedByActorId (·.2)
    transitionEventId :=
      match closure.transition with
      | some result => if result.outcome = .applied then result.eventId else parent.transitionEventId
      | none => parent.transitionEventId }

/-! ## An approval -/

/-- What `approve` does after its reads: end, or commit the pass. -/
inductive ApproveRead where
  | done (outcome : RecoveryOutcome)
  | commit (role : ActorType) (parent : RiskRecoveryPreflight) (origin : LossState)

/-- The reads of Python `approve`. -/
def approveRead (auth : Authority) (db : Db) (accountId preflightId userId : Nat) : ApproveRead :=
  match auth.actorRole userId accountId with
  | none => .done (.rejected .authorizationRequired .notAuthorized)
  | some role =>
    match db.preflights[preflightId]?.filter (·.accountId = accountId) with
    | none => .done (.rejected .failed .notEligible)
    | some parent =>
      if parent.status = .passed then .done (outcomeFrom (parent, preflightId))
      else if parent.status ≠ .authorizationRequired ∨ parent.aggregateVerdict ≠ some .pass then
        .done (.rejected parent.status .notEligible)
      else match parent.originState.filter (mayAuthorizePass · parent.tripCause role) with
        | none => .done (.rejected parent.status .notAuthorized)
        | some origin =>
          if lossState db accountId ≠ some .recoveryPreflight then
            .done (.rejected parent.status .notEligible)
          else .commit role parent origin

/-! ## Facts of the matrix -/

variable {origin : LossState} {cause : Option TripCause} {role : ActorType} {auth : Authority}

lemma mayAuthorizePass_of_none (h : mayAuthorizePass origin none role = true) :
    mayAuthorizePass origin cause role = true := by
  cases role <;> cases origin <;> simp_all [mayAuthorizePass]

lemma mayAuthorizePass_ne_system (h : mayAuthorizePass origin cause role = true) : role ≠ .system := by
  rintro rfl
  cases h

lemma mayAuthorizePass_integrity (h : mayAuthorizePass .integrityStop cause role = true) : role = .riskOperator := by
  cases role <;> simp_all [mayAuthorizePass]

/-! ## What the reads and writes come to -/

variable {db db' : Db} {a p user version : Nat} {key : String} {P : RiskRecoveryPreflight}

lemma findPreflight_some {cond : RiskRecoveryPreflight → Bool} {found : RiskRecoveryPreflight × Nat}
    (e : findPreflight db cond = some found) : db.preflights[found.2]? = some found.1 ∧ cond found.1 = true := by
  unfold findPreflight at e
  refine ⟨?_, find?_some (p := fun x : RiskRecoveryPreflight × Nat => cond x.1) e⟩
  exact mk_mem_zipIdx_iff_getElem?.1 (mem_of_find?_eq_some e)

lemma findPreflight_none {cond : RiskRecoveryPreflight → Bool} (e : findPreflight db cond = none)
    (get : db.preflights[p]? = some P) : cond P = false := by
  have none := find?_eq_none.1 e (P, p) (mk_mem_zipIdx_iff_getElem?.2 get)
  simpa using none

lemma requestRecovery_resume (e : requestRecovery auth db a key user = .resume p) :
    ∃ P, db.preflights[p]? = some P ∧ P.accountId = a ∧ resumable P.status = true := by
  unfold requestRecovery at e
  split at e
  · cases e
  · split at e
    · rename_i existing found
      obtain ⟨get, same⟩ := findPreflight_some found
      simp only [decide_eq_true_eq] at same
      split at e
      · cases e
      · split at e
        · cases e
          exact ⟨_, get, same.1, ‹_›⟩
        · cases e
    · split at e
      · cases e
      · split at e
        · split at e
          · cases e
          · split at e <;> cases e
        · split at e
          · split at e
            · rename_i found loaded
              obtain ⟨get, same⟩ := findPreflight_some loaded
              simp only [decide_eq_true_eq] at same
              split at e
              · cases e
                exact ⟨_, get, same.1, ‹_›⟩
              · cases e
            · cases e
          · cases e

lemma requestRecovery_inflight (acts : auth.actorRole user a = some role)
    (fresh : loadByKey db a key = none) (state : lossState db a = some .recoveryPreflight)
    (found : loadActive db a = some (P, p)) (open_ : resumable P.status = true) :
    requestRecovery auth db a key user = .resume p := by
  obtain ⟨row, loaded, preflight⟩ := Option.map_eq_some_iff.1 state
  simp [requestRecovery, acts, fresh, loaded, preflight, recoveryOrigin, found, open_]

lemma requestRecovery_create (e : requestRecovery auth db a key user = .create role origin version) :
    auth.actorRole user a = some role ∧ recoveryOrigin origin = true ∧
      ∃ row, loadStateRow db a = some row ∧ row.state = origin ∧ row.stateVersion = version := by
  unfold requestRecovery at e
  split at e
  · cases e
  · rename_i acts
    split at e
    · split at e
      · cases e
      · split at e <;> cases e
    · split at e
      · cases e
      · rename_i row loaded
        split at e
        · rename_i lock
          split at e
          · cases e
          · split at e
            · cases e
            · cases e
              exact ⟨acts, lock, row, loaded, rfl, rfl⟩
        · split at e
          · split at e
            · split at e <;> cases e
            · cases e
          · cases e

lemma afterConflict_resume (e : afterConflict db a key user = .resume p) :
    ∃ P, db.preflights[p]? = some P ∧ P.accountId = a := by
  unfold afterConflict at e
  split at e
  · cases e
  · rename_i winner found
    obtain ⟨get, same⟩ := findPreflight_some found
    simp only [decide_eq_true_eq] at same
    split at e <;> cases e
    exact ⟨_, get, same.1⟩

lemma insertParent_some (e : insertParent db P = some db') :
    db' = { db with preflights := db.preflights ++ [P] } ∧
      ∀ (p : Nat) Q, db.preflights[p]? = some Q → Q.accountId = P.accountId →
        active Q.status = false := by
  unfold insertParent at e
  split at e
  · cases e
  · rename_i free
    cases e
    refine ⟨rfl, fun p Q get account => ?_⟩
    simp only [any_eq_true, decide_eq_true_eq, not_exists, not_and, not_or,
      Bool.not_eq_true] at free
    exact (free Q (mem_of_getElem? get) account).2

lemma advanceRead_fire (e : advanceRead db a p = .fire P) :
    db.preflights[p]? = some P ∧ resumable P.status = true ∧ (lossState db a).any recoveryOrigin = true := by
  unfold advanceRead at e
  split at e
  · cases e
  · rename_i parent get
    dsimp only at e
    split at e
    · cases e
    · rename_i status
      split at e
      · rename_i lock
        cases e
        exact ⟨get, by simpa using status, lock⟩
      · split at e <;> cases e

lemma advanceRead_find (e : advanceRead db a p = .find P) :
    db.preflights[p]? = some P ∧ resumable P.status = true ∧ lossState db a = some .recoveryPreflight := by
  unfold advanceRead at e
  split at e
  · cases e
  · rename_i parent get
    dsimp only at e
    split at e
    · cases e
    · rename_i status
      split at e
      · cases e
      · split at e
        · rename_i state
          cases e
          exact ⟨get, by simpa using status, state⟩
        · cases e

lemma advanceRead_close (e : advanceRead db a p = .close P) :
    db.preflights[p]? = some P ∧ resumable P.status = true ∧
      (lossState db a).any recoveryOrigin = false ∧ lossState db a ≠ some .recoveryPreflight := by
  unfold advanceRead at e
  split at e
  · cases e
  · rename_i parent get
    dsimp only at e
    split at e
    · cases e
    · rename_i status
      split at e
      · cases e
      · rename_i lock
        split at e
        · cases e
        · rename_i other
          cases e
          exact ⟨get, by simpa using status, by simpa using lock, other⟩

lemma findRequestEvent_some {id id' : Nat} {e : RiskControlEvent}
    (found : findRequestEvent db a = some id) (get : db.controlEvents[id']? = some e)
    (account : e.accountId = a) (enters : e.toState = .recoveryPreflight)
    (trigger : e.requestedTransition = .recoveryRequest) : id = id' := by
  unfold findRequestEvent at found
  split at found
  · rename_i only eq
    cases found
    have mem : (e, id') ∈ [only] := by
      rw [← eq, mem_filter]
      exact ⟨mk_mem_zipIdx_iff_getElem?.2 get, by simp [account, enters, trigger]⟩
    rw [← mem_singleton.1 mem]
  · cases found

lemma checkRun_proven {requestEventId : Option Nat} {findings : Findings} {run : CheckRun}
    (ran : run = checkRun db a requestEventId findings) :
    (run.origin = none ∧ run.requestEventId = none) ∨
    ∃ id e, requestEventId = some id ∧ db.controlEvents[id]? = some e ∧ validRequestEvent a e = true ∧
      run.origin = some e.fromState ∧ run.requestEventId = some id ∧
      run.tripCause = lockTripCause db a e.fromState id := by
  subst ran
  cases requestEventId with
  | none => exact .inl ⟨rfl, rfl⟩
  | some id =>
    unfold checkRun
    cases valid : db.controlEvents[id]?.filter (validRequestEvent a) with
    | none => simp [valid]
    | some e =>
      obtain ⟨get, holds⟩ := Option.filter_eq_some_iff.1 valid
      refine .inr ⟨id, e, rfl, get, holds, ?_⟩
      simp [valid]

lemma writeParent_some {f : RiskRecoveryPreflight → RiskRecoveryPreflight} (e : writeParent db p f = some db') :
    ∃ P, db.preflights[p]? = some P ∧ db' = { db with preflights := Table.amend p f db.preflights } ∧
      (active (f P).status = true → ∀ q Q, q ≠ p → db.preflights[q]? = some Q →
        Q.accountId = P.accountId → active Q.status = false) := by
  unfold writeParent at e
  split at e
  · cases e
  · rename_i parent get
    split at e
    · cases e
    · rename_i free
      cases e
      refine ⟨parent, get, rfl, fun up q Q ne at_ account => ?_⟩
      simp only [up, Bool.true_and, any_eq_true, decide_eq_true_eq, not_exists, not_and,
        Bool.not_eq_true] at free
      exact free (Q, q) (mk_mem_zipIdx_iff_getElem?.2 at_) ne account

lemma approveRead_commit (e : approveRead auth db a p user = .commit role P origin) :
    auth.actorRole user a = some role ∧ db.preflights[p]? = some P ∧ P.accountId = a ∧
      P.status = .authorizationRequired ∧ P.originState = some origin ∧
      mayAuthorizePass origin P.tripCause role = true ∧ lossState db a = some .recoveryPreflight := by
  unfold approveRead at e
  split at e
  · cases e
  · rename_i acts
    split at e
    · cases e
    · rename_i parent found
      obtain ⟨get, account⟩ := Option.filter_eq_some_iff.1 found
      split at e
      · cases e
      · split at e
        · cases e
        · rename_i awaits
          split at e
          · cases e
          · rename_i lock authorized
            obtain ⟨named, permitted⟩ := Option.filter_eq_some_iff.1 authorized
            split at e
            · cases e
            · rename_i state
              cases e
              simp only [ne_eq, not_or, not_not] at awaits state
              exact ⟨acts, get, by simpa using account, awaits.1, named, permitted, state⟩

lemma approveRead_operator (acts : auth.actorRole user a = some .riskOperator)
    (get : db.preflights[p]? = some P) (account : P.accountId = a)
    (awaits : P.status = .authorizationRequired) (verdict : P.aggregateVerdict = some .pass)
    (named : P.originState = some origin) (lock : recoveryOrigin origin = true)
    (state : lossState db a = some .recoveryPreflight) :
    approveRead auth db a p user = .commit .riskOperator P origin := by
  have permitted : mayAuthorizePass origin P.tripCause .riskOperator = true := by
    cases origin <;> simp_all [mayAuthorizePass, recoveryOrigin]
  have found : db.preflights[p]?.filter (·.accountId = a) = some P :=
    Option.filter_eq_some_iff.2 ⟨get, by simp [account]⟩
  have authorized : P.originState.filter (mayAuthorizePass · P.tripCause .riskOperator) = some origin :=
    Option.filter_eq_some_iff.2 ⟨named, permitted⟩
  simp [approveRead, acts, found, awaits, verdict, authorized, state]

end Workbench.Risk.LossControl
