import Workbench.Recovery.Authority

/-!
# Stranded preflights

The coordinator creates the parent before the RECOVERY_REQUEST transition so that an account "can never
sit in RECOVERY_PREFLIGHT with no discoverable preflight". A transition that raises breaks this: its
caller closes the parent for good, whether or not the account is, or stays, in RECOVERY_PREFLIGHT.
`Harmless` says which raises do not; in a run of such steps every account in RECOVERY_PREFLIGHT has an
open preflight at its version that a request resumes or an operator can approve.
-/

namespace Workbench.Recovery
open Workbench.Lib Workbench.Risk.LossControl List Function Machine

variable {auth : Authority} {s s' : State} {db db' : Db} {a v p q w : Nat}
variable {job : Job} {worker : Worker} {P Q : RiskRecoveryPreflight} {closure : Closure}
variable {req : TransitionRequest} {now : Instant}

/-! ## Harmless steps -/

/-- The account is in RECOVERY_PREFLIGHT, one version after the one a preflight expects. -/
def Entered (db : Db) (a version : Nat) : Prop :=
  lossState db a = some .recoveryPreflight ∧ versionOf db a = version + 1

instance : Decidable (Entered db a v) := inferInstanceAs (Decidable (_ ∧ _))

/-- A worker is about to close a preflight for good. -/
def Worker.Closes (worker : Worker) (p : Nat) : Prop :=
  ∃ job closure, worker = .closing job closure ∧ job.parentId = p ∧ active closure.status = false

/-- A preflight is active, and no worker is about to close it. -/
def StaysOpen (s : State) (p : Nat) : Prop :=
  (∃ P, s.db.preflights[p]? = some P ∧ active P.status = true) ∧ ∀ w, ¬ (s.workers w).Closes p

/-- The steps that strand no preflight.
    * A RECOVERY_REQUEST that applies is for a preflight that is not, and is not about to be, closed.
    * A RECOVERY_REQUEST that raises was not committed, and no other worker has committed it.
    * A PREFLIGHT_PASS or PREFLIGHT_FAIL that raises was committed, or does not apply anyway.
    * A preflight that is to await an approval still has the origin that its checks proved. -/
def Harmless (s : State) : Label → Prop
  | .fire w _ => ∀ job, s.workers w = .requesting job →
      versionOf s.db job.accountId = job.version → StaysOpen s job.parentId
  | .raise w committed _ =>
    match s.workers w with
    | .requesting job => ¬ Entered s.db job.accountId job.version ∧
        (committed = true → versionOf s.db job.accountId ≠ job.version)
    | .failing job _ _ | .passing job _ _ _ _ =>
        committed = true ∨ ¬ Entered s.db job.accountId job.version
    | _ => True
  | .close w => ∀ job closure, s.workers w = .closing job closure →
      closure.status = .authorizationRequired → Entered s.db job.accountId job.version →
      ∃ P, s.db.preflights[job.parentId]? = some P ∧ P.originState.isSome = true
  | _ => True

/-! ## The version of a preflight -/

lemma entered_iff (recorded : Recorded db a) :
    Entered db a v ↔ (eventsOf db a).length = v + 1 ∧ stateAt db a (v + 1) = .recoveryPreflight := by
  unfold Entered
  rw [versionOf_eq recorded]
  constructor
  · rintro ⟨state, length⟩
    exact ⟨length, length ▸ stateAt_present recorded state⟩
  · rintro ⟨length, state⟩
    refine ⟨?_, length⟩
    unfold lossState loadStateRow
    cases get : db.lossControl.get a with
    | none =>
      rw [recorded.absent get] at length
      cases length
    | some row =>
      rw [Option.map_some, recorded.row row get, rowOf, ← state, stateAt, ← length, take_length]

lemma Entered.past (recorded : Recorded db a) (recorded' : Recorded db' a)
    (grown : eventsOf db a <+: eventsOf db' a) (left : v < (eventsOf db a).length)
    (h : Entered db' a v) : Entered db a v := by
  rw [entered_iff recorded'] at h
  rw [entered_iff recorded]
  have le := grown.length_le
  have length : (eventsOf db a).length = v + 1 := by omega
  exact ⟨length, by rw [← stateAt_grown grown length.ge]; exact h.2⟩

lemma finished_not_entered (recorded : ∀ a, Recorded db a) (expected : req.expectedStateVersion = some (v + 1))
    (ends : req.trigger = .preflightPass ∨ req.trigger = .preflightFail) :
    ¬ Entered (handleRequest db req now).1 req.accountId v := by
  intro entered
  rw [entered_iff (Recorded.handleRequest recorded), stateAt] at entered
  rcases handleRequest_log (recorded req.accountId) now with ⟨t, adjudicated, -, log⟩ | ⟨outcome, refused, log⟩
  · have met := (adjudicate_ok adjudicated).1
    rw [expected] at met
    simp only [rowOf, Option.all_some] at met
    have version := of_decide_eq_true met
    rw [log, if_pos rfl, length_append, length_singleton] at entered
    omega
  · rw [log] at entered
    obtain ⟨length, state⟩ := entered
    rw [← length, take_length] at state
    -- at this version and in this state both transitions apply
    obtain ⟨t, applies⟩ := Option.isSome_iff_exists.1 (preflight_ends req.recoveryOriginState ends)
    simp [adjudicate, expected, rowOf, length, state, applies] at refused

/-! ## The invariant -/

/-- An account in RECOVERY_PREFLIGHT is held by a preflight that stays open. -/
def Held (s : State) (a version : Nat) : Prop :=
  ∃ p P, s.db.preflights[p]? = some P ∧ P.accountId = a ∧ P.expectedStateVersion = version ∧
    active P.status = true ∧ ∀ w, ¬ (s.workers w).Closes p

/-- What holds in a run of harmless steps. -/
structure Kept (s : State) : Prop where
  held : ∀ a v, Entered s.db a v → Held s a v
  unique : ∀ (p q : Nat) P Q, s.db.preflights[p]? = some P → s.db.preflights[q]? = some Q →
    P.accountId = Q.accountId → active P.status = true → active Q.status = true → p = q
  origin : ∀ (p : Nat) P, s.db.preflights[p]? = some P → ∀ origin, P.originState = some origin →
    recoveryOrigin origin = true
  awaiting : ∀ (p : Nat) P, s.db.preflights[p]? = some P → P.status = .authorizationRequired →
    P.aggregateVerdict = some .pass ∧
      (Entered s.db P.accountId P.expectedStateVersion → P.originState.isSome = true)
  closing : ∀ w job closure, s.workers w = .closing job closure →
    closure.status = .authorizationRequired → closure.verdict = some .pass

/-- What is asked of a worker that is to close a preflight: for good only when it does not hold its
    account, to await an approval only with a PASS. -/
def MayClose (db : Db) (worker : Worker) : Prop :=
  ∀ job closure, worker = .closing job closure → Employed db job ∧
    (active closure.status = false → ¬ Entered db job.accountId job.version) ∧
    (closure.status = .authorizationRequired → closure.verdict = some .pass)

lemma Kept.move (h : Kept s) (may : MayClose s.db worker) : Kept (s.move w worker) := by
  refine { h with held := fun a v entered => ?_, closing := fun w' job closure at_ => ?_ }
  · obtain ⟨p, P, get, account, version, up, stays⟩ := h.held a v entered
    refine ⟨p, P, get, account, version, up, fun w' closes => ?_⟩
    change (Function.update s.workers w worker w').Closes p at closes
    by_cases eq : w' = w
    · rw [eq, update_self] at closes
      obtain ⟨job, closure, at_, rfl, down⟩ := closes
      obtain ⟨employed, harmless, -⟩ := may job closure at_
      obtain ⟨P', get', account', version', -⟩ := employed.preflight
      rw [get] at get'
      cases get'
      refine harmless down ?_
      rw [← account', ← version', account, version]
      exact entered
    · rw [update_of_ne eq] at closes
      exact stays w' closes
  · change Function.update s.workers w worker w' = .closing job closure at at_
    by_cases eq : w' = w
    · rw [eq, update_self] at at_
      exact (may job closure at_).2.2
    · rw [update_of_ne eq] at at_
      exact h.closing w' job closure at_

lemma Kept.write (h : Kept s) (sound : Sound auth s) (later : Later s s') (same : s'.workers = s.workers)
    (eq : s'.db = (handleRequest s.db req now).1)
    (enters : ∀ t, adjudicate (rowOf (eventsOf s.db req.accountId)) req = .ok t →
      t.toState = .recoveryPreflight → Held s req.accountId (eventsOf s.db req.accountId).length) : Kept s' := by
  have recorded' : ∀ a, Recorded s'.db a := fun a => by
    rw [eq]
    exact Recorded.handleRequest sound.recorded
  have preflights : s'.db.preflights = s.db.preflights := by rw [eq, handleRequest_preflights]
  have keep : ∀ {a v}, Held s a v → Held s' a v := by
    rintro a v ⟨p, P, get, held⟩
    rw [← same] at held
    exact ⟨p, P, by rw [preflights, get], held⟩
  refine ⟨fun a v entered => ?_, ?_, ?_, fun p P get awaits => ?_, ?_⟩
  · by_cases left : v < (eventsOf s.db a).length
    · exact keep (h.held a v (Entered.past (sound.recorded a) (recorded' a) later.log left entered))
    · obtain ⟨length, state⟩ := (entered_iff (recorded' a)).1 entered
      obtain ⟨e, get⟩ : ∃ e, (eventsOf s'.db a)[v]? = some e :=
        ⟨_, getElem?_eq_getElem (show v < (eventsOf s'.db a).length by omega)⟩
      have target := (stateAt_succ get).symm.trans state
      rw [eq] at get
      rcases handleRequest_get (sound.recorded _) get with old | ⟨rfl, rfl, t, adjudicated, event, -⟩
      · obtain ⟨lt, -⟩ := List.getElem?_eq_some_iff.1 old
        exact absurd lt left
      · refine keep (enters t adjudicated ?_)
        rw [event] at target
        exact target
  · rw [preflights]
    exact h.unique
  · rw [preflights]
    exact h.origin
  · rw [preflights] at get
    refine ⟨(h.awaiting p P get awaits).1, fun entered => (h.awaiting p P get awaits).2 ?_⟩
    exact Entered.past (sound.recorded _) (recorded' _) later.log
      ((sound.preflights p P get).clean awaits).le entered
  · rw [same]
    exact h.closing

lemma Kept.amend (h : Kept s) {f : RiskRecoveryPreflight → RiskRecoveryPreflight}
    (eq : s'.db = { s.db with preflights := Table.amend p f s.db.preflights })
    (same : s'.workers = s.workers) (get : s.db.preflights[p]? = some P) (request : SameRequest P (f P))
    (holds : active (f P).status = true ∨ ∃ w, (s.workers w).Closes p)
    (free : active (f P).status = true → ∀ (q : Nat) Q, q ≠ p → s.db.preflights[q]? = some Q →
      Q.accountId = P.accountId → active Q.status = false)
    (origin : ∀ origin, (f P).originState = some origin → recoveryOrigin origin = true)
    (awaiting : (f P).status = .authorizationRequired → (f P).aggregateVerdict = some .pass ∧
      (Entered s.db P.accountId P.expectedStateVersion → (f P).originState.isSome = true)) :
    Kept s' := by
  have read : ∀ (q : Nat) Q, s'.db.preflights[q]? = some Q →
      (q = p ∧ Q = f P) ∨ (q ≠ p ∧ s.db.preflights[q]? = some Q) := by
    intro q Q found
    rw [eq] at found
    change (Table.amend p f s.db.preflights)[q]? = some Q at found
    rw [Table.getElem?_amend] at found
    split at found
    · rename_i here
      subst here
      rw [get] at found
      exact .inl ⟨rfl, (Option.some.inj found).symm⟩
    · rename_i there
      exact .inr ⟨Ne.symm there, found⟩
  have entered_eq : ∀ {a v}, Entered s'.db a v → Entered s.db a v := by
    intro a v entered
    rw [eq] at entered
    exact entered
  refine ⟨fun a v entered => ?_, fun q r Q R at_ at' account up up' => ?_, fun q Q at_ o named => ?_,
    fun q Q at_ awaits => ?_, ?_⟩
  · obtain ⟨q, Q, at_, account, version, up, stays⟩ := h.held a v (entered_eq entered)
    rw [← same] at stays
    by_cases here : q = p
    · subst here
      rw [get] at at_
      cases at_
      rcases holds with up' | ⟨w, closes⟩
      · refine ⟨q, f P, ?_, request.accountId.trans account, request.version.trans version, up', stays⟩
        rw [eq]
        exact Table.getElem?_amend_self get
      · rw [← same] at closes
        exact absurd closes (stays w)
    · refine ⟨q, Q, ?_, account, version, up, stays⟩
      rw [eq]
      exact (Table.getElem?_amend_of_ne (Ne.symm here)).trans at_
  · rcases read q Q at_ with ⟨rfl, rfl⟩ | ⟨ne, old⟩
    · rcases read r R at' with ⟨rfl, -⟩ | ⟨ne', old'⟩
      · rfl
      · rw [request.accountId] at account
        rw [free up r R ne' old' account.symm] at up'
        cases up'
    · rcases read r R at' with ⟨rfl, rfl⟩ | ⟨ne', old'⟩
      · rw [request.accountId] at account
        rw [free up' q Q ne old account] at up
        cases up
      · exact h.unique q r Q R old old' account up up'
  · rcases read q Q at_ with ⟨rfl, rfl⟩ | ⟨ne, old⟩
    · exact origin o named
    · exact h.origin q Q old o named
  · rcases read q Q at_ with ⟨rfl, rfl⟩ | ⟨ne, old⟩
    · refine ⟨(awaiting awaits).1, fun entered => (awaiting awaits).2 ?_⟩
      rw [request.accountId, request.version] at entered
      exact entered_eq entered
    · exact ⟨(h.awaiting q Q old awaits).1, fun entered => (h.awaiting q Q old awaits).2 (entered_eq entered)⟩
  · rw [same]
    exact h.closing

lemma Kept.insert (h : Kept s) (free : ∀ (q : Nat) Q, s.db.preflights[q]? = some Q → Q.accountId = P.accountId →
      active Q.status = false) (origin : ∀ origin, P.originState = some origin → recoveryOrigin origin = true)
    (fresh : P.status = .requested) :
    Kept { s with db := { s.db with preflights := s.db.preflights ++ [P] } } := by
  have read : ∀ (q : Nat) Q, (s.db.preflights ++ [P])[q]? = some Q →
      s.db.preflights[q]? = some Q ∨ (q = s.db.preflights.length ∧ Q = P) := by
    intro q Q found
    by_cases old : q < s.db.preflights.length
    · rw [getElem?_append_left old] at found
      exact .inl found
    · rw [getElem?_append_right (not_lt.1 old)] at found
      obtain ⟨zero, here⟩ := List.getElem?_eq_some_iff.1 found
      simp only [length_singleton] at zero
      refine .inr ⟨by omega, ?_⟩
      rw [← here]
      simp
  refine ⟨fun a v entered => ?_, fun q r Q R at_ at' account up up' => ?_, fun q Q at_ o named => ?_,
    fun q Q at_ awaits => ?_, h.closing⟩
  · obtain ⟨q, Q, at_, held⟩ := h.held a v entered
    exact ⟨q, Q, getElem?_grown (prefix_append _ _) at_, held⟩
  · rcases read q Q at_ with old | ⟨rfl, rfl⟩
    · rcases read r R at' with old' | ⟨rfl, rfl⟩
      · exact h.unique q r Q R old old' account up up'
      · rw [free q Q old account] at up
        cases up
    · rcases read r R at' with old' | ⟨rfl, -⟩
      · rw [free r R old' account.symm] at up'
        cases up'
      · rfl
  · rcases read q Q at_ with old | ⟨rfl, rfl⟩
    · exact h.origin q Q old o named
    · exact origin o named
  · rcases read q Q at_ with old | ⟨rfl, rfl⟩
    · exact h.awaiting q Q old awaits
    · rw [fresh] at awaits
      cases awaits

/-! ## What a step does to it -/

lemma enters_by_request {row : RiskLossControlState} {t : Transition}
    (adjudicated : adjudicate row req = .ok t) (enters : t.toState = .recoveryPreflight) :
    req.trigger = .recoveryRequest := by
  have edge : Edge (transitionEvent row req t 0) := transitionEvent_edge adjudicated
  exact (edge_to_preflight edge enters).1

lemma MayClose.of_open (open_ : ∀ job closure, worker ≠ .closing job closure) : MayClose db worker :=
  fun job closure at_ => absurd at_ (open_ job closure)

lemma Kept.written (h : Kept s) (sound : Sound auth s) (asks : (s.workers w).request = some req)
    (stays : ∀ job, s.workers w = .requesting job → versionOf s.db job.accountId = job.version →
      StaysOpen s job.parentId) : Kept (s.write w req now) := by
  refine h.write sound Later.write rfl rfl fun t adjudicated enters => ?_
  have trigger := enters_by_request adjudicated enters
  have standing := sound.workers w
  cases at_ : s.workers w with
  | requesting job =>
    rw [at_] at asks standing
    have ask := (Option.some.inj asks).symm
    have account : req.accountId = job.accountId := by rw [ask]
    have met := (adjudicate_ok adjudicated).1
    rw [show req.expectedStateVersion = some job.version by rw [ask], account] at met
    simp only [rowOf, Option.all_some] at met
    have version := of_decide_eq_true met
    obtain ⟨⟨P, get, up⟩, unclosed⟩ :=
      stays job at_ ((versionOf_eq (sound.recorded _)).trans version.symm)
    obtain ⟨P', get', account', version', -⟩ := (show Employed s.db job from standing).preflight
    rw [get] at get'
    cases get'
    exact ⟨job.parentId, P, get, account'.trans account.symm,
      by rw [version', account, version], up, unclosed⟩
  | evaluating a trigger' version =>
    rw [at_] at asks standing
    cases asks
    rcases (show trigger' = _ ∨ trigger' = _ from standing) with rfl | rfl <;> cases trigger
  | failing job origin verdict =>
    rw [at_] at asks
    cases asks
    cases trigger
  | passing job authorizer approver origin cause =>
    rw [at_] at asks
    cases asks
    cases trigger
  | _ =>
    rw [at_] at asks
    cases asks

lemma after_not_awaiting {result : Option TransitionResult} (at_ : worker.after result = .closing job closure) :
    closure.status ≠ .authorizationRequired := by
  cases worker with
  | requesting job =>
    simp only [Worker.after] at at_
    split at at_
    · cases at_
      simp
    · split at at_ <;> cases at_
  | failing job origin verdict =>
    cases at_
    dsimp only
    split <;> simp
  | passing job authorizer approver origin cause =>
    simp only [Worker.after] at at_
    split at at_ <;> cases at_ <;> simp
  | _ => cases at_

lemma MayClose.after {result : Option TransitionResult} {runs : List RunRecord}
    (standing : Standing auth db runs (worker.after result))
    (out : ∀ job closure, worker.after result = .closing job closure →
      ¬ Entered db job.accountId job.version) : MayClose db (worker.after result) := by
  intro job closure at_
  have stands := standing
  rw [at_] at stands
  exact ⟨stands.1, fun _ => out job closure at_, fun awaits => absurd awaits (after_not_awaiting at_)⟩

lemma Sound.ended (sound : Sound auth s) (asks : (s.workers w).request = some req)
    {result : Option TransitionResult} (not_request : ∀ job, s.workers w ≠ .requesting job)
    (at_ : (s.workers w).after result = .closing job closure) :
    ¬ Entered (s.write w req now).db job.accountId job.version := by
  cases phase : s.workers w with
  | requesting job' => exact absurd phase (not_request job')
  | failing job' origin verdict =>
    rw [phase] at asks at_
    cases asks
    cases at_
    exact finished_not_entered sound.recorded rfl (.inr rfl)
  | passing job' authorizer approver origin cause =>
    rw [phase] at asks at_
    cases asks
    simp only [Worker.after] at at_
    split at at_ <;> cases at_ <;> exact finished_not_entered sound.recorded rfl (.inl rfl)
  | _ =>
    rw [phase] at at_
    cases at_

lemma stale_not_entered (recorded : ∀ a, Recorded db a) (expected : req.expectedStateVersion = some v)
    (stale : versionOf db req.accountId ≠ v) (out : ¬ Entered db req.accountId v) :
    ¬ Entered (handleRequest db req now).1 req.accountId v := by
  rw [versionOf_eq (recorded _)] at stale
  rcases handleRequest_log (recorded req.accountId) now with ⟨t, adjudicated, -, -⟩ | ⟨outcome, -, log⟩
  · have met := (adjudicate_ok adjudicated).1
    rw [expected] at met
    simp only [rowOf, Option.all_some] at met
    exact absurd (of_decide_eq_true met).symm stale
  · rw [entered_iff (Recorded.handleRequest recorded), stateAt, log]
    rw [entered_iff (recorded _), stateAt] at out
    exact out

lemma Kept.fire (h : Kept s) (sound : Sound auth s) (asks : (s.workers w).request = some req)
    (harmless : Harmless s (.fire w now)) :
    Kept ((s.write w req now).move w ((s.workers w).after (some (handleRequest s.db req now).2))) := by
  refine (h.written sound asks harmless).move (MayClose.after (sound.after asks) fun job closure at_ => ?_)
  refine sound.ended asks (fun job' phase => ?_) at_
  rw [phase] at at_
  simp only [Worker.after] at at_
  split at at_ <;> cases at_

lemma Kept.raiseCommitted (h : Kept s) (sound : Sound auth s) (asks : (s.workers w).request = some req)
    (harmless : Harmless s (.raise w true now)) : Kept ((s.write w req now).move w ((s.workers w).after none)) := by
  have soundly : Sound auth (s.write w req now) := sound.written asks
  have standing := (soundly.workers w).raised
  have written : Kept (s.write w req now) := by
    refine h.written sound asks fun job phase current => ?_
    simp only [Harmless, phase] at harmless
    exact absurd current (harmless.2 trivial)
  refine written.move (MayClose.after standing fun job closure at_ => ?_)
  cases phase : s.workers w with
  | requesting job' =>
    simp only [Harmless, phase] at harmless
    rw [phase] at asks at_
    cases asks
    cases at_
    exact stale_not_entered sound.recorded rfl (harmless.2 trivial) harmless.1
  | _ => exact sound.ended asks (by simp [phase]) at_

lemma Kept.raise (h : Kept s) (sound : Sound auth s) (harmless : Harmless s (.raise w false now)) :
    Kept (s.move w ((s.workers w).after none)) := by
  refine h.move (MayClose.after (sound.workers w).raised fun job closure at_ => ?_)
  cases phase : s.workers w with
  | requesting job' =>
    simp only [Harmless, phase] at harmless
    rw [phase] at at_
    cases at_
    exact harmless.1
  | failing job' origin verdict =>
    simp only [Harmless, phase] at harmless
    rw [phase] at at_
    cases at_
    exact harmless.resolve_left Bool.false_ne_true
  | passing job' authorizer approver origin cause =>
    simp only [Harmless, phase] at harmless
    rw [phase] at at_
    cases at_
    exact harmless.resolve_left Bool.false_ne_true
  | _ =>
    rw [phase] at at_
    cases at_

lemma kept_step {l : Label} (sound : Sound auth s) (h : Kept s) (harmless : Harmless s l)
    (e : step auth s l = some s') : Kept s' := by
  cases step_inv e with
  | trigger live =>
    refine h.write sound Later.trigger rfl rfl fun t adjudicated enters => ?_
    have request := enters_by_request adjudicated enters
    dsimp only at request
    subst request
    cases live
  | answered | unapproved | held => exact h
  | resume | prepare | join | lost | resolved | locked | entered | applied | find | checkRefused
  | closeRefused | approve | evaluate | crash => exact h.move (.of_open (by simp))
  | @insert w a key user role origin version db at_ inserted =>
    obtain ⟨rfl, free⟩ := insertParent_some inserted
    refine (h.insert free (fun o named => ?_) rfl).move (.of_open (by simp))
    cases named
    obtain ⟨-, -, -, lock⟩ := sound.standing at_
    exact lock
  | @ineligible w a p parent at_ read =>
    obtain ⟨P, get, account⟩ := sound.standing at_
    obtain ⟨found, -, -, state⟩ := advanceRead_close read
    rw [get] at found
    cases found
    refine h.move fun job closure at_ => ?_
    cases at_
    exact ⟨sound.employ get account, fun _ entered => state entered.1, by simp⟩
  | fire asks => exact h.fire sound asks harmless
  | raiseCommitted asks => exact h.raiseCommitted sound asks harmless
  | raise => exact h.raise sound harmless
  | @overtaken w job at_ state =>
    have employed : Employed s.db job := sound.standing at_
    refine h.move fun job closure at_ => ?_
    cases at_
    exact ⟨employed, fun _ entered => state entered.1, by simp⟩
  | @check w job findings run db at_ ran written =>
    obtain ⟨P, get, rfl, free⟩ := writeParent_some written
    have proven : ∀ origin, (run.record P).originState = some origin → recoveryOrigin origin = true := by
      intro o named
      rcases checkRun_proven ran with ⟨unknown, -⟩ | ⟨id, e, -, -, valid, source, -⟩
      · rw [show run.origin = some o from named] at unknown
        cases unknown
      · rw [show run.origin = some o from named] at source
        cases source
        simp only [validRequestEvent, decide_eq_true_eq] at valid
        exact valid.2.2.2
    have amended : Kept { s with
        db := { s.db with preflights := Table.amend job.parentId run.record s.db.preflights }
        runs := s.runs ++ [runRecord s.db job run] } :=
      h.amend rfl rfl get checkRun_record_same (.inl rfl) free proven (by simp [CheckRun.record])
    have standing := (sound_step sound e).workers w
    change Standing auth _ _ (Function.update s.workers w (finalize job run) w) at standing
    refine amended.move fun job' closure at' => ?_
    rw [update_self, at'] at standing
    unfold finalize at at'
    split at at'
    · cases at'
    · split at at'
      · cases at'
      · split at at' <;> cases at'
        exact ⟨standing.1, by simp [active], fun _ => rfl⟩
  | @close w job closure db at_ written =>
    obtain ⟨P, get, rfl, free⟩ := writeParent_some written
    have amended : Kept { s with
        db := { s.db with preflights := Table.amend job.parentId closure.record s.db.preflights } } := by
      refine h.amend rfl rfl get closure_record_same ?_ free (h.origin _ P get) fun awaits => ?_
      · cases up : active closure.status with
        | true => exact .inl up
        | false => exact .inr ⟨w, job, closure, at_, rfl, up⟩
      · refine ⟨h.closing w job closure at_ awaits, fun entered => ?_⟩
        obtain ⟨P', get', account, version, -⟩ := (sound.standing at_).1.preflight
        rw [get] at get'
        cases get'
        rw [account, version] at entered
        obtain ⟨P', get', known⟩ := harmless job closure at_ awaits entered
        rw [get] at get'
        cases get'
        exact known
    exact amended.move (.of_open (by simp))

lemma kept_start : Kept (start db) := by
  refine ⟨fun a v entered => ?_, fun p q P Q get => ?_, fun p P get => ?_, fun p P get => ?_,
    fun w job closure at_ => ?_⟩
  · cases entered.1
  · cases get
  · cases get
  · cases get
  · cases at_

/-! ## No stranded preflight -/

/-- An account in RECOVERY_PREFLIGHT has an active preflight that is about its version; a fresh request
    of any of its actors resumes it, or an operator can approve it. -/
def Resolvable (auth : Authority) (db : Db) (a : Nat) : Prop :=
  ∃ p P, db.preflights[p]? = some P ∧ P.accountId = a ∧ active P.status = true ∧
    versionOf db a = P.expectedStateVersion + 1 ∧
    ((∀ key user role, auth.actorRole user a = some role → loadByKey db a key = none →
        requestRecovery auth db a key user = .resume p) ∨
      ∃ origin, ∀ user, auth.actorRole user a = some .riskOperator →
        approveRead auth db a p user = .commit .riskOperator P origin)

lemma Kept.finds (h : Kept s) (get : s.db.preflights[p]? = some P) (account : P.accountId = a)
    (up : active P.status = true) : loadActive s.db a = some (P, p) := by
  cases found : loadActive s.db a with
  | none =>
    have inactive := findPreflight_none found get
    simp [account, up] at inactive
  | some other =>
    obtain ⟨get', same⟩ := findPreflight_some found
    simp only [decide_eq_true_eq] at same
    have eq := h.unique p other.2 P other.1 get get' (account.trans same.1.symm) up same.2
    rw [← eq, get] at get'
    cases get'
    rw [eq]

/-- In a run of harmless steps no account is stranded in RECOVERY_PREFLIGHT. -/
theorem preflight_not_stranded {ls : List Label} (harmless : (recovery auth).Meets Harmless (start db) ls)
    (run : (recovery auth).run (start db) ls = some s)
    (state : lossState s.db a = some .recoveryPreflight) : Resolvable auth s.db a := by
  obtain ⟨sound, kept⟩ : Sound auth s ∧ Kept s :=
    run_invariant (C := Harmless) (I := fun s => Sound auth s ∧ Kept s)
      (fun inv harmless e => ⟨sound_step inv.1 e, kept_step inv.1 inv.2 harmless e⟩)
      ⟨sound_start, kept_start⟩ harmless run
  have present := stateAt_present (sound.recorded a) state
  obtain ⟨v, length⟩ : ∃ v, (eventsOf s.db a).length = v + 1 := by
    refine Nat.exists_eq_succ_of_ne_zero fun empty => ?_
    rw [eq_nil_of_length_eq_zero empty, stateAt] at present
    cases present
  obtain ⟨p, P, get, account, version, up, -⟩ := kept.held a v
    ((entered_iff (sound.recorded a)).2 ⟨length, length ▸ present⟩)
  refine ⟨p, P, get, account, up, ?_, ?_⟩
  · rw [versionOf_eq (sound.recorded a), length, version]
  · cases status : P.status with
    | authorizationRequired =>
      obtain ⟨verdict, known⟩ := kept.awaiting p P get status
      obtain ⟨origin, named⟩ := Option.isSome_iff_exists.1 (known (by
        rw [entered_iff (sound.recorded _), account, version]
        exact ⟨length, length ▸ present⟩))
      exact .inr ⟨origin, fun user acts => approveRead_operator acts get account status verdict named
        (kept.origin p P get origin named) state⟩
    | requested | running =>
      exact .inl fun key user role acts fresh => requestRecovery_inflight acts fresh state
        (kept.finds get account up) (by rw [status]; rfl)
    | _ =>
      rw [status] at up
      cases up

def requestToRecover : List Label :=
  [.trigger 1 .dailyLossBreach { tripCause := some .lossVelocity } 0, .request 0 1 "recover" 9, .create 0,
    .advance 0]

theorem requested_recovery_resolvable : ∃ s, (recovery ⟨[9], fun _ => 7⟩).run
      (start { accounts := Dict.empty.set 1 ⟨1, .paper, none, none⟩ })
      (requestToRecover ++ [.fire 0 1]) = some s ∧
    lossState s.db 1 = some .recoveryPreflight ∧ Resolvable ⟨[9], fun _ => 7⟩ s.db 1 := by
  obtain ⟨s, run⟩ : ∃ s, (recovery ⟨[9], fun _ => 7⟩).run
      (start { accounts := Dict.empty.set 1 ⟨1, .paper, none, none⟩ })
      (requestToRecover ++ [.fire 0 1]) = some s := Option.isSome_iff_exists.1 (by decide +kernel)
  obtain ⟨u, before, -⟩ := run_append.1 run
  have workers : u.workers = Function.update (Function.update (Function.update (fun _ => .idle) 0
      (.creating 1 "recover" 9 .riskOperator .reductionOnlyDailyLoss 1)) 0 (.advancing 1 0)) 0
      (.requesting ⟨1, 0, .riskOperator, 1, none⟩) := Machine.observe (f := State.workers) before rfl
  have parent : u.db.preflights = [newParent 1 "recover" 9 .riskOperator .reductionOnlyDailyLoss 1] :=
    Machine.observe (f := fun s => s.db.preflights) before (by decide +kernel)
  have harmless : Harmless u (.fire 0 1) := by
    intro job at_ _
    rw [workers, update_self] at at_
    cases at_
    refine ⟨⟨newParent 1 "recover" 9 .riskOperator .reductionOnlyDailyLoss 1, by rw [parent]; rfl, rfl⟩,
      fun w closes => ?_⟩
    obtain ⟨job, closure, at_, -⟩ := closes
    rw [workers] at at_
    by_cases eq : w = 0 <;> simp [Function.update, eq] at at_
  have meets : (recovery ⟨[9], fun _ => 7⟩).Meets Harmless
      (start { accounts := Dict.empty.set 1 ⟨1, .paper, none, none⟩ }) (requestToRecover ++ [.fire 0 1]) :=
    (meets_of_forall (by simp [requestToRecover, Harmless])).concat before
      (meets_cons.2 ⟨harmless, fun _ _ => trivial⟩)
  have state : lossState s.db 1 = some .recoveryPreflight :=
    Machine.observe (f := fun s => lossState s.db 1) run (by decide +kernel)
  exact ⟨s, run, state, preflight_not_stranded meets run state⟩

/-- The recovery passes its checks, the PREFLIGHT_PASS write raises, and the coordinator closes the
    preflight as COMMIT_FAILED; the account stays in RECOVERY_PREFLIGHT without an active preflight. -/
theorem raised_pass_strands :
    ¬ ∀ (auth : Authority) (db : Db) (ls : List Label) (s : State),
      (recovery auth).run (start db) ls = some s → ∀ a, lossState s.db a = some .recoveryPreflight →
        ∃ P ∈ s.db.preflights, P.accountId = a ∧ active P.status = true := by
  intro claim
  obtain ⟨s, run⟩ : ∃ s, (recovery ⟨[9], fun _ => 7⟩).run
      (start { accounts := Dict.empty.set 1 ⟨1, .paper, none, none⟩ })
      (requestToRecover ++ [.fire 0 1, .check 0 {}, .raise 0 false 2, .close 0]) = some s :=
    Option.isSome_iff_exists.1 (by decide +kernel)
  have state : lossState s.db 1 = some .recoveryPreflight :=
    Machine.observe (f := fun s => lossState s.db 1) run (by decide +kernel)
  have closed : s.db.preflights.any (fun P => active P.status) = false :=
    Machine.observe (f := fun s => s.db.preflights.any (fun P => active P.status)) run
      (by decide +kernel)
  obtain ⟨P, mem, -, up⟩ := claim _ _ _ s run 1 state
  rw [any_eq_false] at closed
  exact closed P mem up

end Workbench.Recovery
