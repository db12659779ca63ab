import Workbench.Recovery.Authority

/-!
# The end of a cooldown

What an evaluation of an account in RECOVERY_COOLDOWN comes to. The event that entered the present
cooldown is the last of the account's log and no event follows it, so the policy's two conditions on
later events always hold, and what is left is `Ripe`: the dwell of the trip, the reconciliation and,
for a velocity trip, the reading.

Two things follow. A trip that is requested during a recovery is a no-op of the state machine, appends
no event, and so cannot be seen by any later evaluation. And a cooldown whose dwell rests on a field
that the coordinator never writes, the session date of the entry event or the id of a requester that
passed its own preflight, never completes.
-/

namespace Workbench.Recovery
open Workbench.Lib Workbench.Risk.LossControl List Option Machine

variable {auth : Authority} {s t : State} {db : Db} {a id : Nat} {e : RiskControlEvent}
variable {evidence : AccountEvidence} {now : Instant}

/-! ## The entry event -/

lemma last_event (log : (eventsOf db a).getLast? = some e) :
    ∃ id past later, db.controlEvents = past ++ e :: later ∧ id = past.length ∧ e.accountId = a ∧
      ∀ e' ∈ later, e'.accountId ≠ a := by
  obtain ⟨before, split⟩ := getLast?_eq_some_iff.1 log
  obtain ⟨past, rest, table, past_log, rest_log⟩ := filter_eq_append_iff.1 split
  obtain ⟨skipped, later, rest_eq, skip, account, later_log⟩ := filter_eq_cons_iff.1 rest_log
  refine ⟨_, past ++ skipped, later, ?_, rfl, by simpa using account, fun e' mem eq => ?_⟩
  · rw [table, rest_eq, append_assoc]
  · have selected : e' ∈ later.filter (·.accountId = a) := mem_filter.2 ⟨mem, by simp [eq]⟩
    rw [later_log] at selected
    cases selected

lemma cooling_last (recorded : Recorded db a) (cooling : lossState db a = some .recoveryCooldown) :
    ∃ e, (eventsOf db a).getLast? = some e ∧ e.toState = .recoveryCooldown ∧
      e.fromState = .recoveryPreflight ∧ e.requestedTransition = .preflightPass := by
  have state := stateAt_present recorded cooling
  rw [stateAt, take_length, Format.endOf] at state
  cases last : (eventsOf db a).getLast? with
  | none =>
    rw [last] at state
    cases state
  | some e =>
    rw [last] at state
    have enters : e.toState = .recoveryCooldown := state
    obtain ⟨trigger, source⟩ :=
      edge_to_cooldown (recorded.faithful.edges e (mem_of_getLast? last)) enters
    exact ⟨e, rfl, enters, source, trigger⟩

lemma eventsAfter_last (recorded : Recorded db a) (last : (eventsOf db a).getLast? = some e) :
    eventsAfter db a e.sequenceNo = [] := by
  have number : e.sequenceNo = (eventsOf db a).length := by
    rw [getLast?_eq_getElem?] at last
    obtain ⟨lt, -⟩ := List.getElem?_eq_some_iff.1 last
    have numbered := recorded.faithful.number_eq last
    change e.sequenceNo = _ at numbered
    omega
  refine filter_eq_nil_iff.2 fun e' mem later => ?_
  simp only [decide_eq_true_eq] at later
  have logged : e' ∈ eventsOf db a := mem_filter.2 ⟨mem, decide_eq_true later.1⟩
  obtain ⟨i, get⟩ := getElem?_of_mem logged
  obtain ⟨lt, -⟩ := List.getElem?_eq_some_iff.1 get
  have numbered := recorded.faithful.number_eq get
  change e'.sequenceNo = _ at numbered
  omega

lemma cooldownEntryEvent_last (recorded : Recorded db a) (cooling : lossState db a = some .recoveryCooldown) :
    ∃ e id, cooldownEntryEvent db a = some (e, id) ∧ e.requestedTransition = .preflightPass ∧
      e ∈ db.controlEvents ∧ eventsAfter db a e.sequenceNo = [] := by
  obtain ⟨e, last, enters, source, trigger⟩ := cooling_last recorded cooling
  obtain ⟨id, past, later, table, rfl, account, none_after⟩ := last_event last
  refine ⟨e, past.length, ?_, trigger, by simp [table], eventsAfter_last recorded last⟩
  have skipped : (later.zipIdx (past.length + 1)).reverse.find? (fun e =>
      e.1.accountId = a ∧ e.1.toState = .recoveryCooldown) = none := by
    refine find?_eq_none.2 fun e' mem found => ?_
    simp only [decide_eq_true_eq] at found
    exact none_after e'.1 (fst_mem_of_mem_zipIdx (mem_reverse.1 mem)) found.1
  unfold cooldownEntryEvent
  rw [table, zipIdx_append, zipIdx_cons, reverse_append, reverse_cons,
    find?_append, find?_append, Nat.zero_add, skipped]
  simp [account, enters, source, trigger]

/-! ## What an evaluation comes to -/

/-- The dwell of a cooldown is over; a velocity trip has a healthy reading too. -/
def DwellOver (db : Db) (a : Nat) (entry : RiskControlEvent × Nat) (P : RiskRecoveryPreflight)
    (evidence : AccountEvidence) : Prop :=
  match cooldownClass db a P entry.2 with
  | .artifact => 15 * 60 ≤ elapsedSeconds entry.1.createdAt evidence.instant
  | .rateVelocity => 30 * 60 ≤ elapsedSeconds entry.1.createdAt evidence.instant ∧
      evidence.velocity.any (fun v => velocityIsHealthy v.current v.tripLimit v.sustainedSeconds) = true
  | .confirmedDailyLoss => newSessionStarted entry.1.context.sessionDate evidence.sessionDate = true
  | .integrity => P.authorizedByActorId.isSome = true

/-- The evidence completes the present cooldown: it is bound to a preflight, the broker reconciles, and
    the dwell is over. -/
def Ripe (db : Db) (a : Nat) (evidence : AccountEvidence) : Prop :=
  ∃ entry P, cooldownEntryEvent db a = some entry ∧ boundPreflight db entry.2 = some P ∧
    evidence.reconciles = true ∧ DwellOver db a entry P evidence

/-- Python `CooldownEvaluator.evaluate`, with no other writer between its reads and its transition. -/
def evaluate (db : Db) (a : Nat) (evidence : AccountEvidence) (now : Instant) : Db :=
  match evaluateAccount db a evidence with
  | .fire trigger version =>
    (handleRequest db { accountId := a, trigger, expectedStateVersion := some version } now).1
  | _ => db

lemma evaluateAccount_ripe (recorded : Recorded db a) (cooling : lossState db a = some .recoveryCooldown) :
    evaluateAccount db a evidence = .fire .cooldownComplete (versionOf db a) ↔ Ripe db a evidence := by
  obtain ⟨e, id, entry, -, -, none_after⟩ := cooldownEntryEvent_last recorded cooling
  obtain ⟨row, loaded, state⟩ := map_eq_some_iff.1 cooling
  have read : (loadStateRow db a).filter (·.state = .recoveryCooldown) = some row :=
    filter_eq_some_iff.2 ⟨loaded, by simp [state]⟩
  have version : versionOf db a = row.stateVersion := by rw [versionOf, loaded]; rfl
  cases bound : boundPreflight db id with
  | none => simp [evaluateAccount, Ripe, read, entry, bound, version]
  | some P =>
    have policy := @evaluateCooldown_complete (cooldownInputs db a (e, id) P evidence)
      (by simp [cooldownInputs, none_after]) (by simp [cooldownInputs, none_after])
    have verdict : evaluateAccount db a evidence = .fire .cooldownComplete (versionOf db a) ↔
        (evaluateCooldown (cooldownInputs db a (e, id) P evidence)).1 = .complete := by
      simp only [evaluateAccount, read, entry, bound, version]
      cases (evaluateCooldown (cooldownInputs db a (e, id) P evidence)).1 <;> simp
    have ripe : Ripe db a evidence ↔ evidence.reconciles = true ∧ DwellOver db a (e, id) P evidence := by
      constructor
      · rintro ⟨entry', P', entered, bound', over_⟩
        rw [entry] at entered
        cases entered
        rw [bound] at bound'
        cases bound'
        exact over_
      · exact fun over_ => ⟨(e, id), P, entry, bound, over_⟩
    rw [verdict, policy, ripe, dwellSatisfied_iff]
    simp only [cooldownInputs, velocityHealthy, DwellOver]
    cases cooldownClass db a P id <;> simp <;> tauto

lemma evaluate_normal_iff (recorded : Recorded db a) (cooling : lossState db a = some .recoveryCooldown) :
    lossState (evaluate db a evidence now) a = some .normal ↔ Ripe db a evidence := by
  have present : (rowOf (eventsOf db a)).state = .recoveryCooldown := by
    rw [rowOf, ← stateAt_present recorded cooling, stateAt, take_length]
  have version : (rowOf (eventsOf db a)).stateVersion = versionOf db a := (versionOf_eq recorded).symm
  rw [← evaluateAccount_ripe recorded cooling]
  unfold evaluate
  cases read : evaluateAccount db a evidence with
  | noOp => simp [cooling]
  | hold => simp [cooling]
  | fire trigger found =>
    obtain ⟨which, row, loaded, -, rfl⟩ := evaluateAccount_fire read
    have current : row.stateVersion = versionOf db a := by
      rw [versionOf, loaded]
      rfl
    dsimp only
    rw [lossState_handleRequest recorded]
    rcases which with rfl | rfl
    · simp [adjudicate, version, current, present, decideTransition]
    · simp [adjudicate, version, current, present, decideTransition]

/-! ## A trip during a recovery -/

lemma trip_in_recovery_no_op {trig : LossTrigger} {context : TransitionContext}
    (recovering : lossState db a = some .recoveryCooldown ∨ lossState db a = some .recoveryPreflight)
    (trip : trig = .dailyLossBreach ∨ trig = .breakerTrip) :
    (handleRequest db { accountId := a, trigger := trig, context } now).1 = db := by
  obtain ⟨row, loaded, state⟩ : ∃ row, db.lossControl.get a = some row ∧
      (row.state = .recoveryCooldown ∨ row.state = .recoveryPreflight) := by
    rcases recovering with state | state
    · obtain ⟨row, loaded, state⟩ := map_eq_some_iff.1 state
      exact ⟨row, loaded, .inl state⟩
    · obtain ⟨row, loaded, state⟩ := map_eq_some_iff.1 state
      exact ⟨row, loaded, .inr state⟩
  unfold handleRequest
  rcases trip with rfl | rfl <;> rcases state with state | state <;>
    simp [loadStateRow, loaded, adjudicate, state, decideTransition, ensureStateRow]

/-- A trip that is requested during a recovery leaves no trace, and whether a later evaluation, of the
    same cycle in particular, returns the account to NORMAL depends on its evidence alone. -/
theorem trip_in_recovery_is_forgotten {ls ls' : List Label} {u : State} {trig : LossTrigger}
    {context : TransitionContext} {now' : Instant} (run : (recovery auth).run (start db) ls = some s)
    (recovering : lossState s.db a = some .recoveryCooldown ∨ lossState s.db a = some .recoveryPreflight)
    (trip : trig = .dailyLossBreach ∨ trig = .breakerTrip)
    (tripped : step auth s (.trigger a trig context now) = some u) (later : (recovery auth).run u ls' = some t)
    (cooling : lossState t.db a = some .recoveryCooldown) :
    u = s ∧ (lossState (evaluate t.db a evidence now') a ≠ some .normal ↔ ¬ Ripe t.db a evidence) := by
  have same : u = s := by
    cases step_inv tripped with
    | trigger live => rw [trip_in_recovery_no_op recovering trip]
  subst same
  have sound : Sound auth t := sound_run (run_append.2 ⟨u, run, later⟩)
  exact ⟨rfl, not_congr (evaluate_normal_iff (sound.recorded a) cooling)⟩

def passedRecovery (cause : TripCause) : List Label :=
  [.trigger 1 .dailyLossBreach { tripCause := some cause } 0, .request 0 1 "recover" 9, .create 0,
    .advance 0, .fire 0 1, .check 0 {}, .fire 0 2, .close 0]

/-- The recovery after a velocity trip: its cooldown is entered, and half an hour later the account is NORMAL. -/
lemma passedRecovery_velocity : ∃ s, (recovery ⟨[9], fun _ => 7⟩).run
      (start { accounts := Dict.empty.set 1 ⟨1, .paper, none, none⟩ }) (passedRecovery .lossVelocity) =
        some s ∧
    lossState s.db 1 = some .recoveryCooldown ∧
    lossState (evaluate s.db 1 ⟨true, some ⟨0, 1, 600⟩, 1800000002, none⟩ 1800000002) 1 = some .normal ∧
    (cooldownEntryEvent s.db 1).bind (fun entry => (boundPreflight s.db entry.2).map
      (cooldownClass s.db 1 · entry.2)) = some .rateVelocity := by
  obtain ⟨s, run⟩ := isSome_iff_exists.1 (show ((recovery ⟨[9], fun _ => 7⟩).run
    (start { accounts := Dict.empty.set 1 ⟨1, .paper, none, none⟩ }) (passedRecovery .lossVelocity)).isSome = true by
      decide +kernel)
  have cooling : lossState s.db 1 = some .recoveryCooldown :=
    Machine.observe (f := fun s => lossState s.db 1) run (by decide +kernel)
  have normal : lossState (evaluate s.db 1 ⟨true, some ⟨0, 1, 600⟩, 1800000002, none⟩ 1800000002) 1 =
      some .normal :=
    Machine.observe (f := fun s => lossState (evaluate s.db 1
      ⟨true, some ⟨0, 1, 600⟩, 1800000002, none⟩ 1800000002) 1) run (by decide +kernel)
  have classified : (cooldownEntryEvent s.db 1).bind (fun entry => (boundPreflight s.db entry.2).map
      (cooldownClass s.db 1 · entry.2)) = some .rateVelocity :=
    Machine.observe (f := fun s => (cooldownEntryEvent s.db 1).bind (fun entry =>
      (boundPreflight s.db entry.2).map (cooldownClass s.db 1 · entry.2))) run (by decide +kernel)
  exact ⟨s, run, cooling, normal, classified⟩

theorem early_evaluation_after_trip_holds : ∃ s, (recovery ⟨[9], fun _ => 7⟩).run
      (start { accounts := Dict.empty.set 1 ⟨1, .paper, none, none⟩ }) (passedRecovery .lossVelocity) =
        some s ∧
    step ⟨[9], fun _ => 7⟩ s (.trigger 1 .breakerTrip {} 3) = some s ∧
    (lossState (evaluate s.db 1 { instant := 4 } 4) 1 ≠ some .normal ↔
      ¬ Ripe s.db 1 { instant := 4 }) := by
  obtain ⟨s, run, cooling, -⟩ := passedRecovery_velocity
  have tripped : step ⟨[9], fun _ => 7⟩ s (.trigger 1 .breakerTrip {} 3) = some s := by
    show some { s with db := (handleRequest s.db _ 3).1 } = some s
    rw [trip_in_recovery_no_op (.inl cooling) (.inr rfl)]
  have later : (recovery ⟨[9], fun _ => 7⟩).run s [] = some s := rfl
  exact ⟨s, run, tripped, (trip_in_recovery_is_forgotten run (.inl cooling) (.inr rfl) tripped later
    cooling).2⟩

/-- A breaker trip during the cooldown of a velocity trip; half an hour later the account is NORMAL. -/
theorem breaker_trip_in_cooldown_is_forgotten :
    ¬ ∀ (auth : Authority) (db : Db) (ls ls' : List Label) (s u t : State) (a : Nat) (trig : LossTrigger)
        (context : TransitionContext) (now now' : Instant) (evidence : AccountEvidence),
      (recovery auth).run (start db) ls = some s → lossState s.db a = some .recoveryCooldown →
      trig = .dailyLossBreach ∨ trig = .breakerTrip → step auth s (.trigger a trig context now) = some u →
      (recovery auth).run u ls' = some t → eventsOf t.db a = eventsOf s.db a →
      lossState (evaluate t.db a evidence now') a ≠ some .normal := by
  intro claim
  obtain ⟨s, run, cooling, normal, -⟩ := passedRecovery_velocity
  have tripped : step ⟨[9], fun _ => 7⟩ s (.trigger 1 .breakerTrip {} 3) = some s := by
    show some { s with db := (handleRequest s.db _ 3).1 } = some s
    rw [trip_in_recovery_no_op (.inl cooling) (.inr rfl)]
  exact claim _ _ _ [] s s s 1 .breakerTrip {} 3 _ _ run cooling (.inr rfl) tripped rfl rfl normal

/-! ## Which cooldowns complete -/

/-- Every PREFLIGHT_PASS event is written without a context. -/
def Bare (s : State) : Prop :=
  ∀ e ∈ s.db.controlEvents, e.requestedTransition = .preflightPass → e.context = {}

lemma request_context {worker : Worker} {req : TransitionRequest} (asks : worker.request = some req) :
    req.context = {} := by
  cases worker <;> simp only [Worker.request, some.injEq, reduceCtorEq] at asks <;>
    rw [← asks]

lemma Bare.write {req : TransitionRequest} (h : Bare s) (recorded : Recorded s.db req.accountId)
    (eq : t.db = (handleRequest s.db req now).1) (bare : req.trigger = .preflightPass → req.context = {}) : Bare t := by
  intro e mem pass
  rw [eq] at mem
  rcases handleRequest_cases recorded now with ⟨_, -, -, written⟩ | ⟨outcome, -, -, written⟩
  · rw [written] at mem
    rcases mem_append.1 mem with old | new
    · exact h e old pass
    · rw [mem_singleton.1 new] at pass ⊢
      exact bare pass
  · rw [written, ensureStateRow] at mem
    split at mem <;> exact h e mem pass

lemma bare_step {l : Label} (sound : Sound auth s) (h : Bare s) (e : step auth s l = some t) : Bare t := by
  cases step_inv e with
  | trigger live =>
    refine h.write (sound.recorded _) rfl fun pass => ?_
    dsimp only at pass
    subst pass
    cases live
  | fire asks => exact h.write (sound.recorded _) rfl fun _ => request_context asks
  | raiseCommitted asks => exact h.write (sound.recorded _) rfl fun _ => request_context asks
  | insert at_ inserted =>
    obtain ⟨rfl, -⟩ := insertParent_some inserted
    exact h
  | check at_ ran written =>
    obtain ⟨P, -, rfl, -⟩ := writeParent_some written
    exact h
  | close at_ written =>
    obtain ⟨P, -, rfl, -⟩ := writeParent_some written
    exact h
  | _ => exact h

lemma bare_run {ls : List Label} (run : (recovery auth).run (start db) ls = some s) : Bare s := by
  have inv : Sound auth s ∧ Bare s :=
    run_invariant (C := fun _ _ => True) (I := fun s => Sound auth s ∧ Bare s)
      (fun inv _ e => ⟨sound_step inv.1 e, bare_step inv.1 inv.2 e⟩)
      ⟨sound_start, fun e mem => by cases mem⟩ meets_true run
  exact inv.2

/-- The fields that the dwell rests on have been written: the pass is on record with its preflight, the
    trip is not a confirmed daily loss, and an integrity dwell has the id of an approver. -/
def CanComplete (db : Db) (a : Nat) : Prop :=
  ∃ entry P, cooldownEntryEvent db a = some entry ∧ boundPreflight db entry.2 = some P ∧
    match cooldownClass db a P entry.2 with
    | .artifact | .rateVelocity => True
    | .confirmedDailyLoss => False
    | .integrity => P.authorizedByActorId.isSome = true

lemma exists_ripe_iff (recorded : Recorded db a) (cooling : lossState db a = some .recoveryCooldown)
    (bare : ∀ e ∈ db.controlEvents, e.requestedTransition = .preflightPass → e.context = {}) :
    (∃ evidence, Ripe db a evidence) ↔ CanComplete db a := by
  constructor
  · rintro ⟨evidence, entry, P, entered, bound, -, over_⟩
    refine ⟨entry, P, entered, bound, ?_⟩
    obtain ⟨e, id, found, pass, mem, -⟩ := cooldownEntryEvent_last recorded cooling
    rw [entered] at found
    cases found
    unfold DwellOver at over_
    revert over_
    cases cooldownClass db a P id with
    | artifact => exact fun _ => trivial
    | rateVelocity => exact fun _ => trivial
    | confirmedDailyLoss =>
      rw [bare e mem pass]
      exact Bool.false_ne_true
    | integrity => exact fun approved => approved
  · rintro ⟨entry, P, entered, bound, can⟩
    refine ⟨{ reconciles := true, velocity := some ⟨0, 1, 600⟩
              instant := entry.1.createdAt + 30 * 60 * 1000000 }, entry, P, entered, bound, rfl, ?_⟩
    have elapsed : elapsedSeconds entry.1.createdAt (entry.1.createdAt + 30 * 60 * 1000000) = 30 * 60 := by
      unfold elapsedSeconds
      omega
    unfold DwellOver
    revert can
    cases cooldownClass db a P entry.2 with
    | artifact =>
      intro _
      rw [elapsed]
      norm_num
    | rateVelocity =>
      intro _
      rw [elapsed]
      refine ⟨le_rfl, ?_⟩
      show velocityIsHealthy 0 1 600 = true
      decide +kernel
    | confirmedDailyLoss => exact False.elim
    | integrity => exact fun approved => approved

lemma exists_normal_iff (recorded : Recorded db a) (cooling : lossState db a = some .recoveryCooldown) :
    (∃ evidence now, lossState (evaluate db a evidence now) a = some .normal) ↔ ∃ evidence, Ripe db a evidence := by
  constructor
  · rintro ⟨evidence, now, normal⟩
    exact ⟨evidence, (evaluate_normal_iff recorded cooling).1 normal⟩
  · rintro ⟨evidence, ripe⟩
    exact ⟨evidence, 0, (evaluate_normal_iff recorded cooling).2 ripe⟩

/-- An account in RECOVERY_COOLDOWN returns to NORMAL on some evidence exactly when the fields that the
    dwell of its trip rests on have been written. -/
theorem cooldown_completes_iff {ls : List Label} (run : (recovery auth).run (start db) ls = some s)
    (cooling : lossState s.db a = some .recoveryCooldown) :
    (∃ evidence now, lossState (evaluate s.db a evidence now) a = some .normal) ↔ CanComplete s.db a := by
  have recorded := (sound_run run).recorded a
  exact (exists_normal_iff recorded cooling).trans (exists_ripe_iff recorded cooling (bare_run run))

/-- The cooldown after a velocity trip completes. -/
theorem velocity_cooldown_completes : ∃ s, (recovery ⟨[9], fun _ => 7⟩).run
      (start { accounts := Dict.empty.set 1 ⟨1, .paper, none, none⟩ }) (passedRecovery .lossVelocity) =
        some s ∧
    ∃ evidence now, lossState (evaluate s.db 1 evidence now) 1 = some .normal := by
  obtain ⟨s, run, cooling, -, classified⟩ := passedRecovery_velocity
  obtain ⟨entry, entered, bound⟩ := bind_eq_some_iff.1 classified
  obtain ⟨P, bound, velocity⟩ := map_eq_some_iff.1 bound
  exact ⟨s, run, (cooldown_completes_iff run cooling).2
    ⟨entry, P, entered, bound, by simp only [velocity]⟩⟩

/-- A confirmed daily loss: the operator has passed the recovery, and no evidence at any time completes
    its cooldown. -/
theorem confirmed_loss_never_completes :
    ¬ ∀ (auth : Authority) (db : Db) (ls : List Label) (s : State) (a : Nat),
      (recovery auth).run (start db) ls = some s → lossState s.db a = some .recoveryCooldown →
      (∃ P ∈ s.db.preflights, P.accountId = a ∧ P.status = .passed) →
      ∃ evidence now, lossState (evaluate s.db a evidence now) a = some .normal := by
  intro claim
  obtain ⟨s, run⟩ : ∃ s, (recovery ⟨[9], fun _ => 7⟩).run
      (start { accounts := Dict.empty.set 1 ⟨1, .paper, none, none⟩ })
      (passedRecovery .realizedAndMarkToMarketLoss) = some s :=
    isSome_iff_exists.1 (by decide +kernel)
  have cooling : lossState s.db 1 = some .recoveryCooldown :=
    Machine.observe (f := fun s => lossState s.db 1) run (by decide +kernel)
  have passed : s.db.preflights.any (fun P => P.accountId = 1 ∧ P.status = .passed) = true :=
    Machine.observe (f := fun s => s.db.preflights.any (fun P => P.accountId = 1 ∧ P.status = .passed))
      run (by decide +kernel)
  have classified : (cooldownEntryEvent s.db 1).bind (fun entry => (boundPreflight s.db entry.2).map
      (cooldownClass s.db 1 · entry.2)) = some .confirmedDailyLoss :=
    Machine.observe (f := fun s => (cooldownEntryEvent s.db 1).bind (fun entry =>
      (boundPreflight s.db entry.2).map (cooldownClass s.db 1 · entry.2))) run (by decide +kernel)
  have recorded := (sound_run run).recorded 1
  have completes := claim _ _ _ s 1 run cooling (by simpa using passed)
  rw [exists_normal_iff recorded cooling, exists_ripe_iff recorded cooling (bare_run run)] at completes
  obtain ⟨entry, P, entered, bound, can⟩ := completes
  rw [entered, bind_some, bound, map_some, some.injEq] at classified
  simp only [classified] at can

end Workbench.Recovery
