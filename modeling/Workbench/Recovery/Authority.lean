import Workbench.Recovery.Log

/-!
# The authority of a recovery

No account returns to NORMAL but through a preflight that ran all twelve checks clean and was passed by
an actor whom the matrix permits for the lock the recovery started from.

A worker that passes a preflight has its origin and its trip cause from a request event that it found
or was handed, possibly cycles ago, and the transition itself only compares a version. What carries
the argument is that all of this is about one version of the log: what a preflight or a worker
believes of the origin is true of the version it was created at, unless the account left that version
otherwise than into RECOVERY_PREFLIGHT (`Unspoiled`), and then no pass at the next version applies.
-/

namespace Workbench.Recovery
open Workbench.Lib Workbench.Risk.LossControl List Option

variable {auth : Authority} {s s' : State} {db db' : Db} {a v p id k w : Nat}
variable {runs runs' : List RunRecord} {job : Job} {worker : Worker} {P : RiskRecoveryPreflight}
variable {origin : LossState} {cause : Option TripCause} {req : TransitionRequest} {now : Instant}

/-! ## What is believed of a version -/

/-- The account has not left this version otherwise than into RECOVERY_PREFLIGHT. -/
def Unspoiled (db : Db) (a version : Nat) : Prop :=
  ∀ e, (eventsOf db a)[version]? = some e → e.toState = .recoveryPreflight

/-- An event id is that of the request that left this version. -/
def Names (db : Db) (a version id : Nat) : Prop := Unspoiled db a version → Stands db a version id

/-- An origin and a trip cause are those of the lock at this version; the cause may be unknown. -/
def Traced (db : Db) (a version : Nat) (origin : LossState) (cause : Option TripCause) : Prop :=
  Unspoiled db a version → origin = stateAt db a version ∧ (cause = none ∨ cause = causeAt db a version)

/-- A run of all twelve checks of a preflight, each of them a PASS, after the account left `version`. -/
def RanClean (db : Db) (runs : List RunRecord) (p a version : Nat) : Prop :=
  ∃ run ∈ runs, run.preflightId = p ∧ version < run.version ∧ run.version ≤ (eventsOf db a).length ∧
    run.results.map (·.name) = checkRegistry ∧ ∀ result ∈ run.results, result.status = .pass

lemma Unspoiled.past (h : Unspoiled db' a v) (grown : eventsOf db a <+: eventsOf db' a) : Unspoiled db a v :=
  fun e get => h e (getElem?_grown grown get)

lemma Names.grown (h : Names db a v id) (grown : db.controlEvents <+: db'.controlEvents) : Names db' a v id :=
  fun unspoiled => (h (unspoiled.past (eventsOf_grown grown))).grown grown

lemma Traced.grown (h : Traced db a v origin cause) (grown : eventsOf db a <+: eventsOf db' a)
    (le : v ≤ (eventsOf db a).length) : Traced db' a v origin cause := by
  intro unspoiled
  rw [stateAt_grown grown le, causeAt_grown grown le]
  exact h (unspoiled.past grown)

lemma RanClean.grown (h : RanClean db runs p a v) (grown : eventsOf db a <+: eventsOf db' a)
    (more : runs <+: runs') : RanClean db' runs' p a v := by
  obtain ⟨run, mem, preflight, later, past, clean⟩ := h
  exact ⟨run, more.subset mem, preflight, later, past.trans grown.length_le, clean⟩

lemma Names.traced (recorded : Recorded db a) (names : Names db a v id) {e : RiskControlEvent}
    (get : db.controlEvents[id]? = some e) : Traced db a v e.fromState (lockTripCause db a e.fromState id) := by
  intro unspoiled
  have stands := names unspoiled
  obtain ⟨e', get', at_⟩ := stands.get
  rw [get] at get'
  cases get'
  have source := stateAt_source recorded at_
  rw [source, stands.lockTripCause_eq]
  exact ⟨rfl, .inr rfl⟩

lemma Names.of_find (recorded : Recorded db a) (left : v < (eventsOf db a).length)
    (found : findRequestEvent db a = some id) : Names db a v id := by
  intro unspoiled
  have get := getElem?_eq_getElem left
  have enters := unspoiled _ get
  have edge := recorded.faithful.edges _ (mem_of_getElem? get)
  obtain ⟨id', at_, stands⟩ := Stands.of_get get
  have account : (eventsOf db a)[v].accountId = a := by
    obtain ⟨e, get', account, -⟩ := stands
    rw [at_] at get'
    cases get'
    exact account
  rw [findRequestEvent_some found at_ account enters (edge_to_preflight edge enters).1]
  exact stands

/-! ## The invariant -/

/-- What holds of a preflight. -/
structure Warranted (auth : Authority) (db : Db) (runs : List RunRecord) (p : Nat)
    (P : RiskRecoveryPreflight) : Prop where
  version : P.expectedStateVersion ≤ (eventsOf db P.accountId).length
  lock : recoveryOrigin (stateAt db P.accountId P.expectedStateVersion) = true
  requester : auth.actorRole P.requestedByActorId P.accountId = some P.requestedByActorType
  request : ∀ id, P.requestEventId = some id → Names db P.accountId P.expectedStateVersion id
  origin : ∀ origin, P.originState = some origin →
    Traced db P.accountId P.expectedStateVersion origin P.tripCause
  clean : P.status = .authorizationRequired → RanClean db runs p P.accountId P.expectedStateVersion

/-- A job is about a preflight, and what it knows of the request event is right. -/
structure Employed (db : Db) (job : Job) : Prop where
  preflight : ∃ P, db.preflights[job.parentId]? = some P ∧ P.accountId = job.accountId ∧
    P.expectedStateVersion = job.version ∧ P.requestedByActorType = job.role
  request : ∀ id, job.requestEventId = some id → Names db job.accountId job.version id

/-- A pass is authorized: by the requester alone where no explicit approval is due, or by the approver. -/
structure Entitled (auth : Authority) (db : Db) (job : Job) (authorizer : ActorType)
    (approver : Option Nat) (origin : LossState) (cause : Option TripCause) : Prop where
  traced : Traced db job.accountId job.version origin cause
  permitted : mayAuthorizePass origin cause authorizer = true
  requested : approver = none → authorizer = job.role ∧ requiresExplicitApproval origin = false
  approved : ∀ user, approver = some user → auth.actorRole user job.accountId = some authorizer

def Standing (auth : Authority) (db : Db) (runs : List RunRecord) : Worker → Prop
  | .idle => True
  | .creating a _ user role origin version => auth.actorRole user a = some role ∧
      version ≤ (eventsOf db a).length ∧ stateAt db a version = origin ∧ recoveryOrigin origin = true
  | .advancing a p => ∃ P, db.preflights[p]? = some P ∧ P.accountId = a
  | .requesting job | .rereading job | .failing job _ _ => Employed db job
  | .finding job | .checking job => Employed db job ∧ job.version < (eventsOf db job.accountId).length
  | .passing job authorizer approver origin cause => Employed db job ∧
      Entitled auth db job authorizer approver origin cause ∧
      RanClean db runs job.parentId job.accountId job.version
  | .closing job closure => Employed db job ∧ (closure.status = .authorizationRequired →
      RanClean db runs job.parentId job.accountId job.version)
  | .evaluating _ trigger _ => trigger = .cooldownComplete ∨ trigger = .healthRegressed

/-- How a PREFLIGHT_PASS came about: on which preflight of which request, from which lock, after which
    check run, and on whose authority. -/
structure Authorized (auth : Authority) (s : State) (lock request pass : RiskControlEvent)
    (record : PassRecord) (P : RiskRecoveryPreflight) : Prop where
  recorded : record ∈ s.passes ∧ record.accountId = pass.accountId ∧ record.sequenceNo = pass.sequenceNo
  preflight : s.db.preflights[record.preflightId]? = some P ∧ P.accountId = pass.accountId ∧
    P.expectedStateVersion = lock.sequenceNo
  checked : ∃ run ∈ s.runs, run.preflightId = record.preflightId ∧ run.version = request.sequenceNo ∧
    run.results.map (·.name) = checkRegistry ∧ aggregateVerdict run.results = .pass
  permitted : mayAuthorizePass request.fromState lock.context.tripCause record.authorizer = true
  human : record.authorizer ≠ .system
  integrity : request.fromState = .integrityStop →
    record.approver.isSome = true ∧ record.authorizer = .riskOperator
  approved : ∀ user, record.approver = some user →
    auth.actorRole user pass.accountId = some record.authorizer
  requested : record.approver = none →
    auth.actorRole P.requestedByActorId pass.accountId = some record.authorizer

/-- The PREFLIGHT_PASS at a position of the log was authorized in the cycle it belongs to. -/
def Certified (auth : Authority) (s : State) (a k : Nat) (pass : RiskControlEvent) : Prop :=
  ∃ j lock request record P, k = j + 2 ∧ (eventsOf s.db a)[j]? = some lock ∧
    (eventsOf s.db a)[j + 1]? = some request ∧ Authorized auth s lock request pass record P

structure Sound (auth : Authority) (s : State) : Prop where
  recorded : ∀ a, Recorded s.db a
  preflights : ∀ (p : Nat) P, s.db.preflights[p]? = some P → Warranted auth s.db s.runs p P
  workers : ∀ w, Standing auth s.db s.runs (s.workers w)
  certified : ∀ a k e, (eventsOf s.db a)[k]? = some e → e.requestedTransition = .preflightPass →
    Certified auth s a k e

/-! ## What later steps leave of it -/

lemma Employed.later (h : Employed s.db job) (later : Later s s') : Employed s'.db job := by
  obtain ⟨P, get, account, version, role⟩ := h.preflight
  obtain ⟨P', get', same⟩ := later.preflights _ P get
  refine ⟨⟨P', get', ?_, ?_, ?_⟩, fun id named => (h.request id named).grown later.events⟩
  · rw [same.accountId, account]
  · rw [same.version, version]
  · rw [same.actorType, role]

lemma Entitled.later {authorizer : ActorType} {approver : Option Nat}
    (h : Entitled auth s.db job authorizer approver origin cause) (later : Later s s')
    (le : job.version ≤ (eventsOf s.db job.accountId).length) :
    Entitled auth s'.db job authorizer approver origin cause :=
  { h with traced := h.traced.grown later.log le }

lemma RanClean.le (h : RanClean db runs p a v) : v < (eventsOf db a).length := by
  obtain ⟨run, -, -, after, past, -⟩ := h
  omega

lemma Standing.later (h : Standing auth s.db s.runs worker) (later : Later s s') :
    Standing auth s'.db s'.runs worker := by
  cases worker with
  | idle => trivial
  | creating a key user role origin version =>
    obtain ⟨acts, le, state, lock⟩ := h
    exact ⟨acts, le.trans later.log.length_le, (stateAt_grown later.log le).trans state, lock⟩
  | advancing a p =>
    obtain ⟨P, get, account⟩ := h
    obtain ⟨P', get', same⟩ := later.preflights p P get
    exact ⟨P', get', same.accountId.trans account⟩
  | requesting job => exact Employed.later h later
  | rereading job => exact Employed.later h later
  | failing job origin verdict => exact Employed.later h later
  | finding job => exact ⟨h.1.later later, h.2.trans_le later.log.length_le⟩
  | checking job => exact ⟨h.1.later later, h.2.trans_le later.log.length_le⟩
  | passing job authorizer approver origin cause =>
    obtain ⟨employed, entitled, clean⟩ := h
    exact ⟨employed.later later, entitled.later later clean.le.le, clean.grown later.log later.runs⟩
  | closing job closure =>
    exact ⟨h.1.later later, fun awaits => (h.2 awaits).grown later.log later.runs⟩
  | evaluating a trigger version => exact h

lemma Warranted.later (h : Warranted auth s.db s.runs p P) (later : Later s s') : Warranted auth s'.db s'.runs p P where
  version := h.version.trans later.log.length_le
  lock := by
    rw [stateAt_grown later.log h.version]
    exact h.lock
  requester := h.requester
  request id named := (h.request id named).grown later.events
  origin o named := (h.origin o named).grown later.log h.version
  clean awaits := (h.clean awaits).grown later.log later.runs

lemma Certified.later {e : RiskControlEvent} (h : Certified auth s a k e) (later : Later s s') :
    Certified auth s' a k e := by
  obtain ⟨j, lock, request, record, P, eq, get, get', authorized⟩ := h
  obtain ⟨P', at_, same⟩ := later.preflights _ P authorized.preflight.1
  refine ⟨j, lock, request, record, P', eq, getElem?_grown later.log get,
    getElem?_grown later.log get', ?_⟩
  obtain ⟨run, ran, clean⟩ := authorized.checked
  exact {
    recorded := ⟨later.passes.subset authorized.recorded.1, authorized.recorded.2⟩
    preflight := ⟨at_, same.accountId.trans authorized.preflight.2.1,
      same.version.trans authorized.preflight.2.2⟩
    checked := ⟨run, later.runs.subset ran, clean⟩
    permitted := authorized.permitted
    human := authorized.human
    integrity := authorized.integrity
    approved := authorized.approved
    requested := fun none => by
      rw [same.actorId]
      exact authorized.requested none }

/-! ## What a write does to it -/

lemma Sound.move (h : Sound auth s) (standing : Standing auth s.db s.runs worker) : Sound auth (s.move w worker) := by
  refine ⟨h.recorded, h.preflights, fun w' => ?_, fun a k e get pass => ?_⟩
  · show Standing auth s.db s.runs (Function.update s.workers w worker w')
    by_cases eq : w' = w
    · rw [eq, Function.update_self]
      exact standing
    · rw [Function.update_of_ne eq]
      exact h.workers w'
  · exact (h.certified a k e get pass).later ⟨prefix_refl _, prefix_refl _,
      prefix_refl _, fun _ P get => ⟨P, get, SameRequest.refl⟩⟩

lemma Sound.write (h : Sound auth s) (later : Later s s') (same : s'.workers = s.workers)
    (db : s'.db = (handleRequest s.db req now).1) (certified : ∀ t, req.trigger = .preflightPass →
      adjudicate (rowOf (eventsOf s.db req.accountId)) req = .ok t → (handleRequest s.db req now).2 =
        accepted (rowOf (eventsOf s.db req.accountId)) t s.db.controlEvents.length →
      Certified auth s' req.accountId (eventsOf s.db req.accountId).length
        (transitionEvent (rowOf (eventsOf s.db req.accountId)) req t now)) : Sound auth s' := by
  refine ⟨fun a => ?_, fun p P get => ?_, fun w => ?_, fun a k e get pass => ?_⟩
  · rw [db]
    exact Recorded.handleRequest h.recorded
  · rw [db, handleRequest_preflights] at get
    exact (h.preflights p P get).later later
  · rw [same]
    exact (h.workers w).later later
  · rw [db] at get
    rcases handleRequest_get (h.recorded _) get with old | ⟨rfl, rfl, t, adjudicated, rfl, result⟩
    · exact (h.certified a k e old pass).later later
    · exact certified t pass adjudicated result

lemma Sound.insert (h : Sound auth s) (warranted : Warranted auth s.db s.runs s.db.preflights.length P) :
    Sound auth { s with db := { s.db with preflights := s.db.preflights ++ [P] } } := by
  have later : Later s { s with db := { s.db with preflights := s.db.preflights ++ [P] } } := Later.insert
  refine ⟨fun a => ⟨(h.recorded a).faithful, (h.recorded a).row, (h.recorded a).absent⟩,
    fun p Q get => ?_, fun w => (h.workers w).later later,
    fun a k e get pass => (h.certified a k e get pass).later later⟩
  by_cases old : p < s.db.preflights.length
  · rw [getElem?_append_left old] at get
    exact (h.preflights p Q get).later later
  · rw [getElem?_append_right (not_lt.1 old)] at get
    obtain ⟨zero, rfl⟩ := List.getElem?_eq_some_iff.1 get
    simp only [length_singleton] at zero
    have here : p = s.db.preflights.length := by omega
    subst here
    simpa using warranted.later later

lemma Sound.amend (h : Sound auth s) {f : RiskRecoveryPreflight → RiskRecoveryPreflight}
    (same : ∀ P, SameRequest P (f P))
    (warranted : ∀ P, s.db.preflights[p]? = some P → Warranted auth s.db s.runs p (f P)) :
    Sound auth { s with db := { s.db with preflights := Table.amend p f s.db.preflights } } := by
  have later := Later.amend (s := s) (p := p) same
  refine ⟨fun a => ⟨(h.recorded a).faithful, (h.recorded a).row, (h.recorded a).absent⟩,
    fun q Q get => ?_, fun w => (h.workers w).later later,
    fun a k e get pass => (h.certified a k e get pass).later later⟩
  have here : (Table.amend p f s.db.preflights)[q]? = some Q := get
  rw [Table.getElem?_amend] at here
  split at here
  · rename_i eq
    subst eq
    obtain ⟨P, at_, rfl⟩ := map_eq_some_iff.1 here
    exact (warranted P at_).later later
  · exact (h.preflights q Q here).later later

lemma Sound.ran (h : Sound auth s) : Sound auth { s with runs := s.runs ++ runs } :=
  ⟨h.recorded, fun p P get => (h.preflights p P get).later Later.ran,
    fun w => (h.workers w).later Later.ran,
    fun a k e get pass => (h.certified a k e get pass).later Later.ran⟩

lemma pass_applies {t : Transition} (adjudicated : adjudicate (rowOf (eventsOf db a))
      { accountId := a, trigger := .preflightPass, expectedStateVersion := some (v + 1) } = .ok t) :
    (eventsOf db a).length = v + 1 ∧ Unspoiled db a v ∧
      ∃ request, (eventsOf db a)[v]? = some request ∧ request.toState = .recoveryPreflight := by
  obtain ⟨expected, decided⟩ := adjudicate_ok adjudicated
  have length : (eventsOf db a).length = v + 1 := by
    simp only [rowOf, all_some] at expected
    exact (of_decide_eq_true expected).symm
  have present : stateAt db a (v + 1) = .recoveryPreflight := by
    rw [stateAt, ← length, take_length]
    change decideTransition (eventFormat.endOf .normal (eventsOf db a)) .preflightPass none = some t at decided
    generalize eventFormat.endOf .normal (eventsOf db a) = state at decided ⊢
    cases state <;> simp [decideTransition] at decided
    rfl
  have get := getElem?_eq_getElem (show v < (eventsOf db a).length by omega)
  have enters := (stateAt_succ get).symm.trans present
  refine ⟨length, fun e get' => ?_, _, get, enters⟩
  rw [get] at get'
  cases get'
  exact enters

lemma Sound.certify (h : Sound auth s) {authorizer : ActorType} {approver : Option Nat}
    (at_ : s.workers w = .passing job authorizer approver origin cause) {t : Transition}
    (ask : req = { accountId := job.accountId, trigger := .preflightPass
                   expectedStateVersion := some (job.version + 1) })
    (adjudicated : adjudicate (rowOf (eventsOf s.db job.accountId)) req = .ok t)
    (result : (handleRequest s.db req now).2 =
      accepted (rowOf (eventsOf s.db job.accountId)) t s.db.controlEvents.length) :
    Certified auth (s.write w req now) job.accountId (eventsOf s.db job.accountId).length
      (transitionEvent (rowOf (eventsOf s.db job.accountId)) req t now) := by
  have standing := h.workers w
  rw [at_] at standing
  obtain ⟨employed, entitled, run, ran, preflight, after, past, names, clean⟩ := standing
  obtain ⟨P, get, account, version, role⟩ := employed.preflight
  have warranted := h.preflights _ P get
  have recorded := h.recorded job.accountId
  rw [ask] at adjudicated
  obtain ⟨length, unspoiled, request, requested, enters⟩ := pass_applies adjudicated
  obtain ⟨-, lock_state, j, lock, eq, locked, into⟩ := cycle_start recorded requested enters
  obtain ⟨traced, known⟩ := entitled.traced unspoiled
  have source : request.fromState = origin := (stateAt_source recorded requested).trans traced.symm
  have permitted : mayAuthorizePass request.fromState lock.context.tripCause authorizer = true := by
    rw [source, ← causeAt_succ locked, ← eq]
    rcases known with none | known
    · exact mayAuthorizePass_of_none (none ▸ entitled.permitted)
    · exact known ▸ entitled.permitted
  have later : Later s (s.write w req now) := Later.write
  refine ⟨j, lock, request, ⟨job.accountId, (eventsOf s.db job.accountId).length + 1, job.parentId,
    authorizer, approver⟩, P, by omega, getElem?_grown later.log locked,
    getElem?_grown later.log (eq ▸ requested), ?_⟩
  refine {
    recorded := ⟨?_, by rw [ask]; rfl, rfl⟩
    preflight := ⟨by rw [State.write, handleRequest_preflights, get], by rw [account, ask]; rfl, ?_⟩
    checked := ⟨run, ran, preflight, ?_, names, aggregateVerdict_pass.2 clean⟩
    permitted
    human := mayAuthorizePass_ne_system permitted
    integrity := fun stop => ⟨?_, mayAuthorizePass_integrity (stop ▸ permitted)⟩
    approved := ?_
    requested := fun none => ?_ }
  · refine mem_append_right _ ?_
    rw [at_, result]
    exact mem_singleton_self _
  · rw [version, eq]
    exact (recorded.faithful.number_eq locked).symm
  · rw [show request.sequenceNo = _ from recorded.faithful.number_eq requested]
    omega
  · -- without an approver the requester would have to pass INTEGRITY_STOP on its own
    cases given : approver with
    | some user => rfl
    | none =>
      have free := (entitled.requested given).2
      rw [← source, stop] at free
      cases free
  · rw [ask]
    exact entitled.approved
  · have requester := warranted.requester
    rw [account, role, ← (entitled.requested none).1] at requester
    rw [ask]
    exact requester

/-! ## What a step does to it -/

lemma Warranted.left (h : Warranted auth db runs p P) (recorded : Recorded db P.accountId)
    (state : lossState db P.accountId = some .recoveryPreflight) :
    P.expectedStateVersion < (eventsOf db P.accountId).length := by
  refine lt_of_le_of_ne h.version fun eq => ?_
  have lock := h.lock
  rw [eq, stateAt_present recorded state] at lock
  cases lock

lemma Sound.standing (h : Sound auth s) (at_ : s.workers w = worker) : Standing auth s.db s.runs worker :=
  at_ ▸ h.workers w

lemma Sound.employ (h : Sound auth s) (get : s.db.preflights[p]? = some P) (account : P.accountId = a) :
    Employed s.db (jobOf a p P) := by
  refine ⟨⟨P, get, account, rfl, rfl⟩, fun id named => ?_⟩
  subst account
  exact (h.preflights p P get).request id named

lemma Standing.raised (h : Standing auth db runs worker) : Standing auth db runs (worker.after none) := by
  cases worker with
  | requesting job => exact ⟨h, by simp⟩
  | failing job origin verdict =>
    refine ⟨h, fun awaits => ?_⟩
    dsimp only at awaits
    split at awaits <;> cases awaits
  | passing job authorizer approver origin cause => exact ⟨h.1, by simp⟩
  | _ => trivial

lemma Names.of_applied {t : Transition} (expected : req.expectedStateVersion = some v)
    (adjudicated : adjudicate (rowOf (eventsOf db req.accountId)) req = .ok t)
    (eq : (handleRequest db req now).1.controlEvents =
      db.controlEvents ++ [transitionEvent (rowOf (eventsOf db req.accountId)) req t now]) :
    Names (handleRequest db req now).1 req.accountId v db.controlEvents.length ∧
      v < (eventsOf (handleRequest db req now).1 req.accountId).length := by
  have version : v = (eventsOf db req.accountId).length := by
    have met := (adjudicate_ok adjudicated).1
    rw [expected] at met
    simp only [rowOf, all_some] at met
    exact of_decide_eq_true met
  constructor
  · intro _
    refine ⟨transitionEvent (rowOf (eventsOf db req.accountId)) req t now, ?_, rfl, ?_⟩
    · rw [eq, getElem?_concat_length]
    · rw [eq, take_left, version]
      rfl
  · rw [eventsOf, eq, filter_append, length_append, version]
    simp [transitionEvent, eventsOf]

lemma Sound.written (h : Sound auth s) (asks : (s.workers w).request = some req) : Sound auth (s.write w req now) := by
  refine h.write Later.write rfl rfl fun t pass adjudicated result => ?_
  have standing := h.workers w
  cases at_ : s.workers w with
  | passing job authorizer approver origin cause =>
    rw [at_] at asks
    have ask := (some.inj asks).symm
    have account : req.accountId = job.accountId := by rw [ask]
    rw [account] at adjudicated result ⊢
    exact h.certify at_ ask adjudicated result
  | evaluating a trigger version =>
    rw [at_] at asks standing
    cases asks
    rcases (show trigger = _ ∨ trigger = _ from standing) with rfl | rfl <;> cases pass
  | requesting job =>
    rw [at_] at asks
    cases asks
    cases pass
  | failing job origin verdict =>
    rw [at_] at asks
    cases asks
    cases pass
  | _ =>
    rw [at_] at asks
    cases asks

lemma Sound.after (h : Sound auth s) (asks : (s.workers w).request = some req) :
    Standing auth (s.write w req now).db s.runs ((s.workers w).after (some (handleRequest s.db req now).2)) := by
  have later : Later s (s.write w req now) := Later.write
  have standing := h.workers w
  cases at_ : s.workers w with
  | requesting job =>
    rw [at_] at asks standing
    have employed : Employed s.db job := standing
    have ask := some.inj asks
    have account : req.accountId = job.accountId := by rw [← ask]
    have expected : req.expectedStateVersion = some job.version := by rw [← ask]
    rcases handleRequest_cases (h.recorded req.accountId) now with
      ⟨t, adjudicated, result, eq⟩ | ⟨outcome, declined_, result, -⟩
    · have names := Names.of_applied expected adjudicated (congrArg Db.controlEvents eq)
      rw [account] at names
      simp only [Worker.after, result, accepted, if_true]
      refine ⟨⟨(employed.later later).preflight, fun id named => ?_⟩, names.2⟩
      cases named
      exact names.1
    · have other : (declined outcome (rowOf (eventsOf s.db req.accountId))).outcome ≠ .applied :=
        adjudicate_error declined_
      simp only [Worker.after, result, if_neg other]
      exact employed.later later
  | failing job origin verdict =>
    rw [at_] at standing
    refine ⟨Employed.later standing later, fun awaits => ?_⟩
    dsimp only at awaits
    split at awaits <;> cases awaits
  | passing job authorizer approver origin cause =>
    rw [at_] at standing
    have employed := standing.1.later later
    simp only [Worker.after]
    split <;> exact ⟨employed, by simp⟩
  | _ => trivial

lemma Warranted.checked (h : Warranted auth db runs p P) (recorded : Recorded db P.accountId)
    {findings : Findings} {run : CheckRun} (ran : run = checkRun db P.accountId job.requestEventId findings)
    (request : ∀ id, job.requestEventId = some id → Names db P.accountId P.expectedStateVersion id) :
    Warranted auth db runs p (run.record P) := by
  refine { h with request := fun id named => ?_, origin := fun o named => ?_, clean := by simp [CheckRun.record] }
  · rcases checkRun_proven ran with ⟨-, unknown⟩ | ⟨id', e, given, -, -, -, bound, -⟩
    · rw [show run.requestEventId = some id from named] at unknown
      cases unknown
    · rw [show run.requestEventId = some id from named] at bound
      cases bound
      exact request id given
  · rcases checkRun_proven ran with ⟨unknown, -⟩ | ⟨id, e, given, get, -, source, -, cause⟩
    · rw [show run.origin = some o from named] at unknown
      cases unknown
    · rw [show run.origin = some o from named] at source
      cases source
      show Traced db P.accountId P.expectedStateVersion e.fromState run.tripCause
      rw [cause]
      exact (request id given).traced recorded get

lemma Standing.finalized (recorded : Recorded db job.accountId) (employed : Employed db job)
    (left : job.version < (eventsOf db job.accountId).length) {findings : Findings} {run : CheckRun}
    (ran : run = checkRun db job.accountId job.requestEventId findings) :
    Standing auth db (runs ++ [runRecord db job run]) (finalize job run) := by
  unfold finalize
  split
  · exact employed
  · rename_i passed
    have clean : RanClean db (runs ++ [runRecord db job run]) job.parentId job.accountId job.version := by
      refine ⟨runRecord db job run, by simp, rfl, ?_, ?_, ?_, ?_⟩
      · show job.version < versionOf db job.accountId
        rw [versionOf_eq recorded]
        exact left
      · exact (versionOf_eq recorded).le
      · rw [ran]
        exact runPreflightChecks_names
      · exact aggregateVerdict_pass.1 (not_not.1 passed)
    rcases checkRun_proven ran with ⟨unknown, -⟩ | ⟨id, e, given, get, -, source, -, cause⟩
    · rw [unknown]
      trivial
    · rw [source]
      dsimp only
      split
      · exact ⟨employed, fun _ => clean⟩
      · rename_i free
        simp only [Bool.or_eq_true, Bool.not_eq_true', not_or, Bool.not_eq_true, Bool.not_eq_false] at free
        refine ⟨employed, ⟨?_, free.2, fun _ => ⟨rfl, free.1⟩, by simp⟩, clean⟩
        rw [cause]
        exact (employed.request id given).traced recorded get

lemma sound_step {l : Label} (h : Sound auth s) (e : step auth s l = some s') : Sound auth s' := by
  cases step_inv e with
  | trigger live =>
    refine h.write Later.trigger rfl rfl fun t pass _ _ => ?_
    dsimp only at pass
    subst pass
    cases live
  | answered => exact h
  | resume idle read =>
    obtain ⟨P, get, account, -⟩ := requestRecovery_resume read
    exact h.move ⟨P, get, account⟩
  | @prepare w a key user role origin version idle read =>
    obtain ⟨acts, lock, row, loaded, state, version⟩ := requestRecovery_create read
    have current := (h.recorded a).row row loaded
    rw [current] at state version
    refine h.move ⟨acts, version.symm.le, ?_, lock⟩
    rw [← version, stateAt]
    show eventFormat.endOf .normal ((eventsOf s.db a).take (eventsOf s.db a).length) = _
    rw [take_length]
    exact state
  | @insert w a key user role origin version db at_ inserted =>
    obtain ⟨acts, le, state, lock⟩ := h.standing at_
    obtain ⟨rfl, -⟩ := insertParent_some inserted
    refine (h.insert ⟨le, state ▸ lock, acts, by simp [newParent], ?_, by simp [newParent]⟩).move
      ⟨newParent a key user role origin version, getElem?_concat_length, rfl⟩
    intro o named
    cases named
    exact fun _ => ⟨state.symm, .inl rfl⟩
  | join at_ read => exact h.move (afterConflict_resume read)
  | lost => exact h.move trivial
  | resolved => exact h.move trivial
  | @locked w a p parent at_ read =>
    obtain ⟨P, get, account⟩ := h.standing at_
    have found := (advanceRead_fire read).1
    rw [get] at found
    cases found
    exact h.move (h.employ get account)
  | @entered w a p parent at_ read =>
    obtain ⟨P, get, account⟩ := h.standing at_
    obtain ⟨found, -, state⟩ := advanceRead_find read
    rw [get] at found
    cases found
    refine h.move ⟨h.employ get account, ?_⟩
    subst account
    exact (h.preflights p parent get).left (h.recorded _) state
  | @ineligible w a p parent at_ read =>
    obtain ⟨P, get, account⟩ := h.standing at_
    have found := (advanceRead_close read).1
    rw [get] at found
    cases found
    exact h.move ⟨h.employ get account, by simp⟩
  | fire asks => exact (h.written asks).move (h.after asks)
  | raiseCommitted asks => exact (h.written asks).move ((h.written asks).workers _).raised
  | raise asks => exact h.move (h.workers _).raised
  | @applied w job at_ state =>
    have employed : Employed s.db job := h.standing at_
    refine h.move ⟨employed, ?_⟩
    obtain ⟨P, get, account, version, -⟩ := employed.preflight
    rw [← account, ← version]
    exact (h.preflights _ P get).left (h.recorded _) (account ▸ state)
  | @overtaken w job at_ state =>
    have employed : Employed s.db job := h.standing at_
    exact h.move ⟨employed, by simp⟩
  | @find w job at_ =>
    obtain ⟨employed, left⟩ := h.standing at_
    refine h.move ⟨⟨employed.preflight, fun id named => ?_⟩, left⟩
    rcases or_eq_some_iff.1 named with known | ⟨-, found⟩
    · exact employed.request id known
    · exact Names.of_find (h.recorded _) left found
  | @check w job findings run db at_ ran written =>
    obtain ⟨employed, left⟩ := h.standing at_
    obtain ⟨P, get, rfl, -⟩ := writeParent_some written
    obtain ⟨P', get', account, version, role⟩ := employed.preflight
    have ran' : Sound auth { s with runs := s.runs ++ [runRecord s.db job run] } := h.ran
    have finalized : Standing auth s.db (s.runs ++ [runRecord s.db job run]) (finalize job run) :=
      Standing.finalized (h.recorded _) employed left ran
    refine (ran'.amend (fun _ => checkRun_record_same) fun Q found => ?_).move
      (finalized.later (s := { s with runs := s.runs ++ [runRecord s.db job run] })
        (Later.amend fun _ => checkRun_record_same))
    have known : s.db.preflights[job.parentId]? = some Q := found
    rw [get'] at known
    cases known
    refine (ran'.preflights _ P' get').checked (h.recorded _) (account ▸ ran) ?_
    rw [account, version]
    exact employed.request
  | checkRefused => exact h.move trivial
  | @close w job closure db at_ written =>
    obtain ⟨employed, awaits⟩ := h.standing at_
    obtain ⟨P, get, rfl, -⟩ := writeParent_some written
    obtain ⟨P', get', account, version, role⟩ := employed.preflight
    refine (h.amend (fun _ => closure_record_same) fun Q found => ?_).move trivial
    rw [get'] at found
    cases found
    refine { h.preflights _ P' get' with clean := fun status => ?_ }
    show RanClean s.db s.runs job.parentId P'.accountId P'.expectedStateVersion
    rw [account, version]
    exact awaits status
  | closeRefused => exact h.move trivial
  | unapproved => exact h
  | @approve w a p user role parent origin idle read =>
    obtain ⟨acts, get, account, awaits, named, permitted, state⟩ := approveRead_commit read
    have warranted := h.preflights p parent get
    subst account
    refine h.move ⟨h.employ get rfl, ⟨warranted.origin origin named, permitted, by simp, ?_⟩,
      warranted.clean awaits⟩
    intro user' eq
    cases eq
    exact acts
  | held => exact h
  | evaluate idle read => exact h.move (evaluateAccount_fire read).1
  | crash => exact h.move trivial

lemma sound_start : Sound auth (start db) := by
  refine ⟨fun a => ⟨Format.Faithful.nil, fun row get => ?_, fun _ => rfl⟩, fun p P get => ?_,
    fun w => trivial, fun a k e get => ?_⟩
  · cases get
  · cases get
  · cases get

theorem sound_run {ls : List Label} (run : (recovery auth).run (start db) ls = some s) : Sound auth s :=
  Machine.run_invariant (C := fun _ _ => True) (I := Sound auth) (fun h _ e => sound_step h e) sound_start
    Machine.meets_true run

/-! ## The return to NORMAL -/

/-- Every return to NORMAL ends a cycle of four events: a lock, the request that left it, a pass that
    was authorized for that lock after twelve clean checks, and the end of the cooldown. -/
theorem normal_is_authorized {ls : List Label} {e : RiskControlEvent}
    (run : (recovery auth).run (start db) ls = some s) (get : (eventsOf s.db a)[k]? = some e)
    (normal : e.toState = .normal) :
    ∃ j lock request pass record P, k = j + 3 ∧
      (eventsOf s.db a)[j]? = some lock ∧ (eventsOf s.db a)[j + 1]? = some request ∧
      (eventsOf s.db a)[j + 2]? = some pass ∧
      lock.toState = request.fromState ∧ recoveryOrigin request.fromState = true ∧
      request.requestedTransition = .recoveryRequest ∧ pass.requestedTransition = .preflightPass ∧
      e.requestedTransition = .cooldownComplete ∧ Authorized auth s lock request pass record P := by
  have sound := sound_run run
  have history := (sound.recorded a).faithful
  obtain ⟨completes, cooled⟩ := edge_to_normal (history.edges e (mem_of_getElem? get)) normal
  obtain ⟨n, pass, rfl, passed, target⟩ := history.pred get
    (show e.fromState ≠ .normal by simp [cooled])
  obtain ⟨passes, preflight⟩ := edge_to_cooldown (history.edges pass (mem_of_getElem? passed))
    (target.trans cooled)
  obtain ⟨j, lock, request, record, P, rfl, locked, requested, authorized⟩ :=
    sound.certified a n pass passed passes
  have enters : request.toState = .recoveryPreflight := (history.succ requested passed).symm.trans preflight
  obtain ⟨asks, origin, -⟩ := cycle_start (sound.recorded a) requested enters
  exact ⟨j, lock, request, pass, record, P, rfl, locked, requested, passed,
    (history.succ locked requested).symm, origin, asks, passes, completes, authorized⟩

def approvedRecovery : List Label :=
  [.trigger 1 .integrityViolation { tripCause := some .brokerStateUncertain } 0,
    .request 0 1 "recover" 9, .create 0, .advance 0, .fire 0 1, .check 0 {}, .close 0,
    .approve 0 1 0 9, .fire 0 2, .close 0,
    .evaluate 0 1 { reconciles := true, instant := 3 }, .fire 0 3]

theorem approved_recovery_is_authorized :
    ∃ s, (recovery ⟨[9], fun _ => 7⟩).run
        (start { accounts := Dict.empty.set 1 ⟨1, .paper, none, none⟩ }) approvedRecovery = some s ∧
      ∃ e, (eventsOf s.db 1)[3]? = some e ∧ e.toState = .normal ∧
        ∃ lock request pass record P, Authorized ⟨[9], fun _ => 7⟩ s lock request pass record P := by
  obtain ⟨s, run⟩ : ∃ s, (recovery ⟨[9], fun _ => 7⟩).run
      (start { accounts := Dict.empty.set 1 ⟨1, .paper, none, none⟩ }) approvedRecovery = some s :=
    isSome_iff_exists.1 (by decide +kernel)
  have last := Machine.observe (f := fun s => (eventsOf s.db 1)[3]?.map (·.toState)) run
    (x := some .normal) (by decide +kernel)
  obtain ⟨e, get, normal⟩ := map_eq_some_iff.1 last
  obtain ⟨j, lock, request, pass, record, P, -, -, -, -, -, -, -, -, -, authorized⟩ :=
    normal_is_authorized run get normal
  exact ⟨s, run, e, get, normal, lock, request, pass, record, P, authorized⟩

end Workbench.Recovery
