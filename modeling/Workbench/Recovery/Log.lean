import Workbench.Recovery.System

/-!
# The log of a recovery

What the event log of an account says about a recovery cycle. The log only grows, the state at each of
its versions is settled once it is written, and the entries around a recovery are fixed by the state
machine: RECOVERY_PREFLIGHT is entered by a RECOVERY_REQUEST from a lock, RECOVERY_COOLDOWN by a
PREFLIGHT_PASS from RECOVERY_PREFLIGHT, and NORMAL by a COOLDOWN_COMPLETE from RECOVERY_COOLDOWN.
-/

namespace Workbench.Recovery
open Workbench.Lib Workbench.Risk.LossControl List Option
variable {P : RiskRecoveryPreflight}

variable {db db' : Db} {a : Nat} {e e' : RiskControlEvent} {req : TransitionRequest} {now : Instant}

/-! ## The entries around a recovery -/

lemma preflightFail_target {state : LossState} {origin : Option LossState} {t : Transition}
    (decided : decideTransition state .preflightFail origin = some t) : recoveryOrigin t.toState = true := by
  cases state with
  | recoveryPreflight =>
    simp only [decideTransition] at decided
    split at decided
    · rename_i lock valid
      cases decided
      exact (filter_eq_some_iff.1 valid).2
    · cases decided
      rfl
  | _ => cases decided

lemma preflight_ends {trigger : LossTrigger} (origin : Option LossState)
    (ends : trigger = .preflightPass ∨ trigger = .preflightFail) :
    (decideTransition .recoveryPreflight trigger origin).isSome = true := by
  rcases ends with rfl | rfl
  · rfl
  · simp only [decideTransition]
    split <;> rfl

/-- How a transition enters the preflight, the cooldown and normal operation. -/
lemma edge_into (edge : Edge e) :
    match e.toState with
    | .recoveryPreflight => e.requestedTransition = .recoveryRequest ∧ recoveryOrigin e.fromState = true
    | .recoveryCooldown => e.requestedTransition = .preflightPass ∧ e.fromState = .recoveryPreflight
    | .normal => e.requestedTransition = .cooldownComplete ∧ e.fromState = .recoveryCooldown
    | _ => True := by
  obtain ⟨origin, t, decided, target, -⟩ := edge
  rw [← target]
  cases trigger : e.requestedTransition with
  | preflightFail =>
    rw [trigger] at decided
    have lock := preflightFail_target decided
    generalize t.toState = state at lock
    cases state <;> simp_all [recoveryOrigin]
  | _ =>
    rw [trigger] at decided
    generalize e.fromState = state at decided ⊢
    cases state <;> simp [decideTransition] at decided <;> subst decided <;> simp_all [recoveryOrigin]

lemma edge_to_preflight (edge : Edge e) (enters : e.toState = .recoveryPreflight) :
    e.requestedTransition = .recoveryRequest ∧ recoveryOrigin e.fromState = true := by
  have into := edge_into edge
  rwa [enters] at into

lemma edge_to_cooldown (edge : Edge e) (enters : e.toState = .recoveryCooldown) :
    e.requestedTransition = .preflightPass ∧ e.fromState = .recoveryPreflight := by
  have into := edge_into edge
  rwa [enters] at into

lemma edge_to_normal (edge : Edge e) (enters : e.toState = .normal) :
    e.requestedTransition = .cooldownComplete ∧ e.fromState = .recoveryCooldown := by
  have into := edge_into edge
  rwa [enters] at into

/-! ## The history of an account -/

/-- The state of an account at a version of its log. -/
def stateAt (db : Db) (a version : Nat) : LossState :=
  eventFormat.endOf .normal ((eventsOf db a).take version)

/-- The trip cause of the event that entered that state. -/
def causeAt (db : Db) (a version : Nat) : Option TripCause :=
  ((eventsOf db a).take version).getLast?.bind (·.context.tripCause)

/-- The event with this id is the one that left this version of the account's log. -/
def Stands (db : Db) (a version id : Nat) : Prop :=
  ∃ e, db.controlEvents[id]? = some e ∧ e.accountId = a ∧
    ((db.controlEvents.take id).filter (·.accountId = a)).length = version

variable {v id : Nat}

lemma eventsOf_grown (grown : db.controlEvents <+: db'.controlEvents) : eventsOf db a <+: eventsOf db' a :=
  grown.filter _

lemma getElem?_grown {α : Type*} {log log' : List α} {x : α} {i : Nat} (grown : log <+: log')
    (get : log[i]? = some x) : log'[i]? = some x := by
  obtain ⟨more, rfl⟩ := grown
  obtain ⟨lt, -⟩ := List.getElem?_eq_some_iff.1 get
  rw [getElem?_append_left lt, get]

lemma take_grown (grown : eventsOf db a <+: eventsOf db' a) (le : v ≤ (eventsOf db a).length) :
    (eventsOf db' a).take v = (eventsOf db a).take v := by
  obtain ⟨more, eq⟩ := grown
  rw [← eq, take_append_of_le_length le]

lemma stateAt_grown (grown : eventsOf db a <+: eventsOf db' a) (le : v ≤ (eventsOf db a).length) :
    stateAt db' a v = stateAt db a v := by
  rw [stateAt, take_grown grown le, stateAt]

lemma causeAt_grown (grown : eventsOf db a <+: eventsOf db' a) (le : v ≤ (eventsOf db a).length) :
    causeAt db' a v = causeAt db a v := by
  rw [causeAt, take_grown grown le, causeAt]

lemma versionOf_eq (h : Recorded db a) : versionOf db a = (eventsOf db a).length := by
  unfold versionOf loadStateRow
  cases get : db.lossControl.get a with
  | none =>
    rw [h.absent get]
    rfl
  | some row =>
    rw [h.row row get]
    rfl

lemma stateAt_present (h : Recorded db a) {state : LossState} (known : lossState db a = some state) :
    stateAt db a (eventsOf db a).length = state := by
  unfold lossState loadStateRow at known
  cases get : db.lossControl.get a with
  | none =>
    rw [get] at known
    cases known
  | some row =>
    rw [get, map_some, h.row row get] at known
    rw [stateAt, take_length]
    exact some.inj known

lemma stateAt_succ (get : (eventsOf db a)[v]? = some e) : stateAt db a (v + 1) = e.toState :=
  Format.endOf_take_succ get

lemma causeAt_succ (get : (eventsOf db a)[v]? = some e) : causeAt db a (v + 1) = e.context.tripCause := by
  obtain ⟨lt, rfl⟩ := List.getElem?_eq_some_iff.1 get
  rw [causeAt, take_succ_eq_append_getElem lt, getLast?_append, getLast?_singleton]
  rfl

lemma stateAt_source (h : Recorded db a) (get : (eventsOf db a)[v]? = some e) : e.fromState = stateAt db a v :=
  h.faithful.linked v e get

lemma cycle_start (h : Recorded db a) (get : (eventsOf db a)[v]? = some e) (enters : e.toState = .recoveryPreflight) :
    e.requestedTransition = .recoveryRequest ∧ recoveryOrigin e.fromState = true ∧
      ∃ j lock, v = j + 1 ∧ (eventsOf db a)[j]? = some lock ∧ lock.toState = e.fromState := by
  obtain ⟨trigger, lock⟩ := edge_to_preflight (h.faithful.edges e (mem_of_getElem? get)) enters
  refine ⟨trigger, lock, h.faithful.pred get ?_⟩
  intro eq
  rw [show e.fromState = .normal from eq] at lock
  cases lock

lemma Stands.grown (h : Stands db a v id) (grown : db.controlEvents <+: db'.controlEvents) : Stands db' a v id := by
  obtain ⟨e, get, account, version⟩ := h
  refine ⟨e, getElem?_grown grown get, account, ?_⟩
  obtain ⟨more, eq⟩ := grown
  obtain ⟨lt, -⟩ := List.getElem?_eq_some_iff.1 get
  rw [← eq, take_append_of_le_length lt.le]
  exact version

lemma Stands.get (h : Stands db a v id) : ∃ e, db.controlEvents[id]? = some e ∧ (eventsOf db a)[v]? = some e := by
  obtain ⟨e, get, account, rfl⟩ := h
  exact ⟨e, get, getElem?_filter_of_getElem? get (by simp [account])⟩

lemma Stands.of_get (get : (eventsOf db a)[v]? = some e) : ∃ id, db.controlEvents[id]? = some e ∧ Stands db a v id := by
  obtain ⟨id, at_, version⟩ := exists_getElem?_of_filter get
  have account : e.accountId = a := by
    have mem := mem_of_getElem? get
    simpa using (mem_filter.1 mem).2
  exact ⟨id, at_, e, at_, account, version⟩

lemma Stands.lockTripCause_eq (h : Stands db a v id) : lockTripCause db a (stateAt db a v) id = causeAt db a v := by
  obtain ⟨e, get, account, version⟩ := h
  have log : (db.controlEvents.take id).filter (·.accountId = a) = (eventsOf db a).take v := by
    rw [filter_take, version]
    rfl
  have selected : (db.controlEvents.take id).reverse.find? (fun e =>
      e.accountId = a ∧ e.toState = stateAt db a v) =
      ((eventsOf db a).take v).reverse.find? (·.toState = stateAt db a v) := by
    rw [← log, ← filter_reverse, find?_filter]
    congr 1
    funext e
    simp
  rw [lockTripCause, selected, causeAt, stateAt]
  generalize (eventsOf db a).take v = past
  rcases eq_nil_or_concat past with rfl | ⟨before, lock, rfl⟩
  · rfl
  · simp [eventFormat]

lemma eventsOf_ensure {b : Nat} : eventsOf (ensureStateRow db b) a = eventsOf db a := by
  unfold ensureStateRow
  split <;> rfl

lemma handleRequest_log (recorded : Recorded db req.accountId) (now : Instant) :
    (∃ t, adjudicate (rowOf (eventsOf db req.accountId)) req = .ok t ∧ (handleRequest db req now).2 =
        accepted (rowOf (eventsOf db req.accountId)) t db.controlEvents.length ∧
      ∀ a, eventsOf (handleRequest db req now).1 a = eventsOf db a ++
        if req.accountId = a then [transitionEvent (rowOf (eventsOf db req.accountId)) req t now] else []) ∨
    ∃ outcome, adjudicate (rowOf (eventsOf db req.accountId)) req = .error outcome ∧
      ∀ a, eventsOf (handleRequest db req now).1 a = eventsOf db a := by
  rcases handleRequest_cases recorded now with ⟨t, adjudicated, result, eq⟩ | ⟨outcome, refused, -, eq⟩
  · refine .inl ⟨t, adjudicated, result, fun a => ?_⟩
    rw [eq, eventsOf_append]
    rfl
  · refine .inr ⟨outcome, refused, fun a => ?_⟩
    rw [eq, eventsOf_ensure]

lemma lossState_handleRequest (recorded : Recorded db req.accountId) :
    lossState (handleRequest db req now).1 req.accountId = some
      (match adjudicate (rowOf (eventsOf db req.accountId)) req with
        | .ok t => t.toState
        | .error _ => (rowOf (eventsOf db req.accountId)).state) := by
  unfold lossState loadStateRow
  rcases handleRequest_cases recorded now with ⟨t, adjudicated, -, eq⟩ | ⟨outcome, refused, -, eq⟩
  · rw [eq, adjudicated, Dict.get_set_self]
    rfl
  · rw [eq, refused, ensureStateRow]
    split
    · rename_i row get
      rw [get, recorded.row row get]
      rfl
    · rename_i get
      rw [Dict.get_set_self, recorded.absent get]
      rfl

lemma handleRequest_get (recorded : Recorded db req.accountId)
    (get : (eventsOf (handleRequest db req now).1 a)[v]? = some e) :
    (eventsOf db a)[v]? = some e ∨ a = req.accountId ∧ v = (eventsOf db a).length ∧
        ∃ t, adjudicate (rowOf (eventsOf db req.accountId)) req = .ok t ∧
          e = transitionEvent (rowOf (eventsOf db req.accountId)) req t now ∧ (handleRequest db req now).2 =
            accepted (rowOf (eventsOf db req.accountId)) t db.controlEvents.length := by
  rcases handleRequest_log recorded now with ⟨t, adjudicated, result, log⟩ | ⟨outcome, -, log⟩
  · rw [log] at get
    by_cases mine : req.accountId = a
    · rw [if_pos mine] at get
      by_cases old : v < (eventsOf db a).length
      · rw [getElem?_append_left old] at get
        exact .inl get
      · rw [getElem?_append_right (not_lt.1 old)] at get
        obtain ⟨zero, here⟩ := List.getElem?_eq_some_iff.1 get
        simp only [length_singleton] at zero
        refine .inr ⟨mine.symm, by omega, t, adjudicated, ?_, result⟩
        rw [← here]
        simp
    · rw [if_neg mine, append_nil] at get
      exact .inl get
  · rw [log] at get
    exact .inl get

/-! ## What every step leaves -/

/-- The fields of a preflight that are written when it is created and never again. -/
structure SameRequest (P P' : RiskRecoveryPreflight) : Prop where
  accountId : P'.accountId = P.accountId
  version : P'.expectedStateVersion = P.expectedStateVersion
  actorType : P'.requestedByActorType = P.requestedByActorType
  actorId : P'.requestedByActorId = P.requestedByActorId

lemma SameRequest.refl : SameRequest P P := ⟨rfl, rfl, rfl, rfl⟩

/-- What a step keeps: the logs grow, and no preflight disappears or changes its request. -/
structure Later (s s' : State) : Prop where
  events : s.db.controlEvents <+: s'.db.controlEvents
  runs : s.runs <+: s'.runs
  passes : s.passes <+: s'.passes
  preflights : ∀ (p : Nat) P, s.db.preflights[p]? = some P →
    ∃ P', s'.db.preflights[p]? = some P' ∧ SameRequest P P'

variable {auth : Authority} {s s' : State} {l : Label} {w : Nat} {worker : Worker}

lemma handleRequest_events : db.controlEvents <+: (handleRequest db req now).1.controlEvents := by
  unfold handleRequest ensureStateRow
  dsimp only
  split
  · split <;> exact prefix_refl _
  · split <;> exact prefix_append _ _

@[simp] lemma handleRequest_preflights : (handleRequest db req now).1.preflights = db.preflights := by
  unfold handleRequest ensureStateRow
  dsimp only
  split
  · split <;> rfl
  · split <;> rfl

lemma Later.refl : Later s s :=
  ⟨prefix_refl _, prefix_refl _, prefix_refl _, fun _ P get => ⟨P, get, SameRequest.refl⟩⟩

lemma Later.log (later : Later s s') : eventsOf s.db a <+: eventsOf s'.db a :=
  eventsOf_grown later.events

lemma Later.write : Later s (s.write w req now) where
  events := handleRequest_events
  runs := prefix_refl _
  passes := prefix_append _ _
  preflights p P get := ⟨P, by rw [State.write, handleRequest_preflights, get], SameRequest.refl⟩

lemma Later.trigger : Later s { s with db := (handleRequest s.db req now).1 } where
  events := handleRequest_events
  runs := prefix_refl _
  passes := prefix_refl _
  preflights p P get := ⟨P, by rw [handleRequest_preflights, get], SameRequest.refl⟩

lemma Later.insert : Later s { s with db := { s.db with preflights := s.db.preflights ++ [P] } } where
  events := prefix_refl _
  runs := prefix_refl _
  passes := prefix_refl _
  preflights _ P get := ⟨P, getElem?_grown (prefix_append _ _) get, SameRequest.refl⟩

lemma Later.amend {p : Nat} {f : RiskRecoveryPreflight → RiskRecoveryPreflight} (same : ∀ P, SameRequest P (f P)) :
    Later s { s with db := { s.db with preflights := Table.amend p f s.db.preflights } } where
  events := prefix_refl _
  runs := prefix_refl _
  passes := prefix_refl _
  preflights q P get := by
    show ∃ P', (Table.amend p f s.db.preflights)[q]? = some P' ∧ SameRequest P P'
    rw [Table.getElem?_amend, get]
    split
    · exact ⟨f P, rfl, same P⟩
    · exact ⟨P, rfl, SameRequest.refl⟩

lemma Later.ran {runs : List RunRecord} : Later s { s with runs := s.runs ++ runs } :=
  { @Later.refl s with runs := prefix_append _ _ }

lemma checkRun_record_same {run : CheckRun} : SameRequest P (run.record P) :=
  ⟨rfl, rfl, rfl, rfl⟩

lemma closure_record_same {closure : Closure} : SameRequest P (closure.record P) :=
  ⟨rfl, rfl, rfl, rfl⟩

end Workbench.Recovery
