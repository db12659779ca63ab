import Workbench.Strategies.Effects

/-!
# Holds and the activation cooldown

Two laws of what makes a strategy runnable. `Unheld`: no commit of `register` or of `complete_pending`
that starts a strategy follows the commit of an active hold. `Rested`: every LIVE commit of
`complete_pending` comes at least the cooldown after an `initiate`, with no other status change of the
strategy between the two.

Both operations read first and commit in a later transaction, without a compare-and-swap. The last
read of the hold leaves a window before the commits (`Worker.unblocked`), and `complete_pending`
commits LIVE over whatever the row has become since it was loaded.
-/

set_option linter.dupNamespace false

namespace Workbench.Strategies
open Workbench.Lib Workbench.Lib.Record List Option Machine

/-! ## Holds -/

/-- A commit that makes a strategy runnable finds no active hold. -/
def Unheld : Event → List Event → Prop
  | .opened _ held, _ | .started _ held, _ | .promoted _ held, _ => held = false
  | _, _ => True

/-- An operation past its last read of the hold, with a starting commit still to come. -/
def Worker.unblocked (sid : Nat) : Worker → Bool
  | .registering _ i (.opening ..) | .registering _ i (.committing ..) => i = sid
  | .activating i (.promoting _) => i = sid
  | _ => false

/-- A hold commits when no operation on the strategy is past its last read of the hold. -/
def Timely (s : State) : Label → Prop
  | .placeHold sid => ∀ w, (s.workers w).unblocked sid = false
  | _ => True

/-- No operation past its last read of the hold is on a held strategy. -/
structure Guarded (s : State) : Prop where
  log : Each Unheld s.log
  free : ∀ w sid, (s.workers w).unblocked sid = true → s.holds sid = false

section Guarded
variable {s s' : State} {w sid : Nat} {inp : Input} {worker : Worker}

lemma go_unblocked (st : go s w inp worker = some s') (now : (s'.workers w).unblocked sid = true) :
    worker.unblocked sid = true ∨ s.holds sid = false := by
  cases here : s'.workers w with
  | registering c i phase =>
    rw [here] at now
    rcases go_registering st here with ⟨_, rfl, -⟩ | ⟨before, rfl, next⟩
    · cases now
    · cases next with
      | rechecked row a cls free =>
        have eq : i = sid := by simpa [Worker.unblocked] using now
        exact .inr (eq ▸ free)
      | opened => exact .inl now
      | _ => cases now
  | activating i phase =>
    rw [here] at now
    obtain ⟨before, rfl, next⟩ := go_activating st here
    cases next with
    | checked row free =>
      have eq : i = sid := by simpa [Worker.unblocked] using now
      exact .inr (eq ▸ free)
    | _ => cases now
  | _ => rw [here] at now; cases now

lemma unheld_go (h : Guarded s) (st : go s w inp (s.workers w) = some s') : Each Unheld s'.log := by
  have free := h.free w
  obtain ⟨evs, eq, own⟩ := (go_frame st).log
  cases here : s.workers w with
  | registering c i phase =>
    rw [here] at st free
    simp only [go] at st
    cases st
    have left {t : State} {ok : Bool} (log : Each Unheld t.log) : Each Unheld (t.returnTo w i ok c).log :=
      each_returnTo log (by simp [Unheld])
    cases phase with
    | checking | loading | starting | rechecking =>
      simp only [goRegister]
      repeat' split
      all_goals first | exact left h.log | exact h.log
    | opening => exact each_cons.2 ⟨free i (by simp [Worker.unblocked]), h.log⟩
    | committing =>
      exact each_cons.2 ⟨free i (by simp [Worker.unblocked]), each_write h.log fun _ => trivial⟩
    | putting => exact each_cons.2 ⟨trivial, h.log⟩
    | returning => exact left (each_cons.2 ⟨trivial, h.log⟩)
    | marking => exact left (each_write h.log fun _ => trivial)
  | activating i phase =>
    rw [here] at st free
    simp only [go] at st
    cases st
    refine each_goActivate h.log (fun _ _ _ _ => trivial) ?_ ?_
    · rintro row rfl
      exact each_cons.2 ⟨free i (by simp [Worker.unblocked]), each_write h.log fun _ => trivial⟩
    · rintro rfl
      exact each_beginRegister h.log (fun _ _ => each_cons.2 ⟨trivial, h.log⟩) trivial
  | _ =>
    rw [eq]
    refine h.log.append fun e mem earlier => ?_
    have source := (own e mem).2
    rw [here] at source
    cases e <;> trivial

lemma guarded_step {l : Label} (h : Guarded s) (timely : Timely s l) (st : step s l = some s') : Guarded s' := by
  replace st := step_cases st
  rcases st with ⟨sid, b, rfl, rfl⟩ | ⟨_, -, rfl⟩ | ⟨w, -, rfl⟩ | ⟨w, inp, rfl, st⟩ | ⟨w, target, free, st⟩
  · refine ⟨h.log, ?_⟩
    intro w sid' unblocked
    show Function.update s.holds sid b sid' = false
    by_cases eq : sid' = sid
    · subst eq
      rw [Function.update_self]
      cases b with
      | false => rfl
      | true =>
        rw [show (s.workers w).unblocked sid' = false from timely w] at unblocked
        cases unblocked
    · rw [Function.update_of_ne eq]
      exact h.free w sid' unblocked
  · exact ⟨h.log, h.free⟩
  · refine ⟨h.log, ?_⟩
    intro w' sid unblocked
    rcases restart_workers (show step s (.restart w) = some _ from rfl) w' with eq | ⟨_, eq⟩ <;>
      rw [eq] at unblocked <;> cases unblocked
  · have frame := go_frame st
    refine ⟨unheld_go h st, ?_⟩
    intro w' sid unblocked
    rw [frame.holds]
    by_cases eq : w' = w
    · subst eq
      rcases go_unblocked st unblocked with before | free
      · exact h.free w' sid before
      · exact free
    · rw [frame.workers w' eq] at unblocked
      exact h.free w' sid unblocked
  · have frame := arrive_frame target st
    obtain ⟨evs, eq, own⟩ := frame.log
    refine ⟨?_, ?_⟩
    · rw [eq]
      refine h.log.append fun e mem earlier => ?_
      have source := (own e mem).2
      cases e <;> trivial
    · intro w' sid unblocked
      rw [frame.holds]
      by_cases eq : w' = w
      · subst eq
        cases here : s'.workers w' with
        | registering c i phase =>
          obtain ⟨_, rfl, -⟩ := arrive_registering target free st here
          rw [here] at unblocked
          cases unblocked
        | activating i phase =>
          obtain ⟨row, -, begins⟩ := arrive_activating target free st here
          rw [here] at unblocked
          cases begins <;> cases unblocked
        | _ => rw [here] at unblocked; cases unblocked
      · rw [frame.workers w' eq] at unblocked
        exact h.free w' sid unblocked

end Guarded

/-- In every run in which no hold commits while an operation on its strategy is past its last read of
    the hold, no commit that starts a strategy follows an active hold. -/
theorem hold_placed_first_wins {strategies : List Strategy} {accounts : Dict Nat Account}
    {holds : Nat → Bool} {clock : Instant} {labels : List Label} {s : State}
    (timely : engine.Meets Timely (start strategies accounts holds clock) labels)
    (run : engine.run (start strategies accounts holds clock) labels = some s) : Each Unheld s.log := by
  have init : Guarded (start strategies accounts holds clock) := by
    refine ⟨each_nil, ?_⟩
    intro w sid unblocked
    cases unblocked
  exact (run_invariant (I := Guarded) guarded_step init timely run).log

/-- A hold placed after the boundary check does not stop the run and the status that follow it. -/
theorem hold_after_recheck_loses :
    ∃ s, engine.run (start [eventStrategy] paperAccounts (fun _ => false) 0)
        (.register 0 0 .activate :: (List.replicate 4 (.go 0 {}) ++
          .placeHold 0 :: List.replicate 2 (.go 0 {}))) = some s ∧
      s.holds 0 = true ∧ s.status 0 = some .paper ∧ ¬ Each Unheld s.log := by
  refine exists_run (by decide +kernel) fun s run => ?_
  have held : s.holds 0 = true := Machine.observe (f := fun s => s.holds 0) run (by decide +kernel)
  have status : s.status 0 = some .paper :=
    Machine.observe (f := fun s => s.status 0) run (by decide +kernel)
  have head : s.log.head? = some (.started 0 true) :=
    Machine.observe (f := fun s => s.log.head?) run (by decide +kernel)
  refine ⟨held, status, ?_⟩
  intro unheld
  cases unheld [] _ _ (cons_head?_tail head).symm

/-- The condition on a step when only worker `0` is used. -/
def soloTimely (s : State) : Label → Bool
  | .placeHold sid => !(s.workers 0).unblocked sid
  | l => l.worker.getD 0 = 0

lemma timely_of_solo {s : State} {l : Label} (solo : Solo s) (h : soloTimely s l = true) : Timely s l := by
  cases l with
  | placeHold sid =>
    intro w
    by_cases eq : w = 0
    · rw [eq]
      simpa [soloTimely] using h
    · rw [solo w eq]
      rfl
  | _ => trivial

/-- A hold placed while `on_init` runs is seen at the boundary check: no run is opened. -/
theorem hold_before_recheck_wins :
    ∃ s, engine.run (start [eventStrategy] paperAccounts (fun _ => false) 0)
        (.register 0 0 .activate :: (List.replicate 2 (.go 0 {}) ++
          .placeHold 0 :: List.replicate 2 (.go 0 {}))) = some s ∧
      s.runs = [] ∧ s.status 0 = some .idle ∧ Each Unheld s.log := by
  refine exists_run (by decide +kernel) fun s run => ?_
  have runs : s.runs = [] := Machine.observe (f := fun s => s.runs) run (by decide +kernel)
  have status : s.status 0 = some .idle :=
    Machine.observe (f := fun s => s.status 0) run (by decide +kernel)
  refine ⟨runs, status, hold_placed_first_wins (Machine.Meets.of_invariant (I := Solo)
    (D := fun s l => soloTimely s l = true) ?_ timely_of_solo ?_ (by decide +kernel)) run⟩
  · intro s l t solo ok st
    refine solo_step solo ?_ st
    intro w worker
    cases l <;> simp_all [soloTimely, Label.worker, Label.target]
  · intro w _
    rfl

/-! ## The cooldown -/

/-- A LIVE commit of `complete_pending` comes at least the cooldown after an `initiate`, with no other
    status change of the strategy in between. -/
def Rested : Event → List Event → Prop
  | .wrote sid .live .complete time, earlier => ∃ mid initiated rest,
      earlier = mid ++ .wrote sid .pendingLive .initiate initiated :: rest ∧
      initiated + activationCooldown ≤ time ∧
      ∀ status writer time', Event.wrote sid status writer time' ∉ mid
  | _, _ => True

/-- The row a completion commits is still the one it loaded, and an `initiate` commits at the instant
    it stamped. -/
def Worker.steady (s : State) : Worker → Bool
  | .activating sid (.promoting row) => s.strategies[sid]? = some row
  | .activating _ (.stamped _ time) => time = s.clock
  | _ => true

def Steady (s : State) : Label → Prop
  | .go w _ => (s.workers w).steady s = true
  | _ => True

instance (s : State) : (l : Label) → Decidable (Steady s l)
  | .go w _ => inferInstanceAs (Decidable ((s.workers w).steady s = true))
  | .register .. | .unregister .. | .reload .. | .shutdown .. | .restart .. | .barTick .. | .overlayTick ..
  | .eventBar .. | .eventFallback .. | .signal .. | .fill .. | .initiate .. | .cancel .. | .complete ..
  | .deactivate .. | .trip .. | .reset .. | .placeHold .. | .clearHold .. | .elapse .. => isTrue trivial

/-- What the activation service knows of the row it has loaded. -/
def Activating.Sound (clock : Instant) : Activating → Prop
  | .initiating row | .stamped row _ => row.status ≠ .pendingLive
  | .completing row | .promoting row => row.status = .pendingLive ∧
      ∃ stamp, row.liveActivationInitiatedAt = some stamp ∧ stamp + activationCooldown ≤ clock
  | _ => True

/-- A strategy in PENDING_LIVE has had no status change since the `initiate` that stamped it. -/
structure Cooling (s : State) : Prop where
  log : Each Rested s.log
  pending : ∀ (sid : Nat) (row : Strategy) (stamp : Instant), s.strategies[sid]? = some row →
    row.status = .pendingLive → row.liveActivationInitiatedAt = some stamp →
    lastWrite sid s.log = some (.pendingLive, .initiate, stamp)
  loaded : ∀ w sid phase, s.workers w = .activating sid phase → phase.Sound s.clock

section Cooling
variable {s s' : State} {w sid : Nat} {inp : Input} {worker : Worker}

lemma written_cases (loaded new : StrategyStatus) (writer : Writer) (row : Strategy) :
    (written loaded new writer = none ∧ setStatus loaded new row = row) ∨
      (written loaded new writer = some (new, writer) ∧ (setStatus loaded new row).status = new) := by
  unfold written setStatus
  split
  · exact .inl ⟨rfl, rfl⟩
  · exact .inr ⟨rfl, rfl⟩

lemma runStatus_ne_pendingLive {row : Strategy} : runStatus row ≠ .pendingLive := by
  unfold runStatus
  split
  · decide
  · split <;> decide

lemma rewrite_cases (row : Strategy) :
    (∃ loaded time, worker = .activating sid (.stamped loaded time)) ∨
    (∃ loaded, worker = .activating sid (.canceling loaded)) ∨
    (worker.writes w sid = none ∧ worker.rewrite sid row = row) ∨
    ∃ new writer, worker.writes w sid = some (new, writer) ∧ new ≠ .pendingLive ∧
      (worker.rewrite sid row).status = new := by
  have plain {loaded new : StrategyStatus} {writer : Writer} (ne : new ≠ .pendingLive)
      (writes : worker.writes w sid = written loaded new writer)
      (rewrite : worker.rewrite sid row = setStatus loaded new row) :
      (worker.writes w sid = none ∧ worker.rewrite sid row = row) ∨
      ∃ new writer, worker.writes w sid = some (new, writer) ∧ new ≠ .pendingLive ∧
        (worker.rewrite sid row).status = new := by
    rw [writes, rewrite]
    rcases written_cases loaded new writer row with same | ⟨eq, status⟩
    · exact .inl same
    · exact .inr ⟨new, writer, eq, ne, status⟩
  cases worker with
  | registering c i phase =>
    by_cases eq : i = sid
    · subst eq
      cases phase with
      | committing => exact .inr (.inr (plain runStatus_ne_pendingLive (if_pos rfl) (if_pos rfl)))
      | marking => exact .inr (.inr (plain (by decide) (if_pos rfl) (if_pos rfl)))
      | _ => exact .inr (.inr (.inl ⟨rfl, rfl⟩))
    · cases phase with
      | committing | marking => exact .inr (.inr (.inl ⟨if_neg eq, if_neg eq⟩))
      | _ => exact .inr (.inr (.inl ⟨rfl, rfl⟩))
  | activating i phase =>
    by_cases eq : i = sid
    · subst eq
      cases phase with
      | stamped loaded time => exact .inl ⟨loaded, time, rfl⟩
      | canceling loaded => exact .inr (.inl ⟨loaded, rfl⟩)
      | demoting | deactivating | promoting =>
        exact .inr (.inr (plain (by decide) (if_pos rfl) (if_pos rfl)))
      | _ => exact .inr (.inr (.inl ⟨rfl, rfl⟩))
    · cases phase with
      | stamped | canceling | demoting | deactivating | promoting =>
        exact .inr (.inr (.inl ⟨if_neg eq, if_neg eq⟩))
      | _ => exact .inr (.inr (.inl ⟨rfl, rfl⟩))
  | closing c r loaded isOpen =>
    cases loaded with
    | none => exact .inr (.inr (.inl ⟨rfl, rfl⟩))
    | some loaded =>
      by_cases eq : r.strategyId = sid ∧ loaded.runnable = true
      · exact .inr (.inr (plain (by decide) (if_pos eq) (if_pos eq)))
      · exact .inr (.inr (.inl ⟨if_neg eq, if_neg eq⟩))
  | erroring path pending i loaded =>
    by_cases eq : i = sid
    · exact .inr (.inr (plain (by decide) (if_pos eq) (if_pos eq)))
    · exact .inr (.inr (.inl ⟨if_neg eq, if_neg eq⟩))
  | tripping a halts =>
    by_cases mem : sid ∈ halts
    · exact .inr (.inr (.inr ⟨_, _, if_pos mem, by decide, by simp [Worker.rewrite, mem]⟩))
    · exact .inr (.inr (.inl ⟨if_neg mem, if_neg mem⟩))
  | _ => exact .inr (.inr (.inl ⟨rfl, rfl⟩))

lemma pending_go (h : Cooling s) (steady : (s.workers w).steady s = true)
    (st : go s w inp (s.workers w) = some s') {row : Strategy} {stamp : Instant}
    (get : s'.strategies[sid]? = some row) (status : row.status = .pendingLive)
    (stamped : row.liveActivationInitiatedAt = some stamp) :
    lastWrite sid s'.log = some (.pendingLive, .initiate, stamp) := by
  rw [go_lastWrite st]
  rw [go_row st] at get
  obtain ⟨old, was, rfl⟩ := map_eq_some_iff.1 get
  rcases @rewrite_cases w sid (s.workers w) old with
    ⟨loaded, time, eq⟩ | ⟨loaded, eq⟩ | ⟨none, same⟩ | ⟨new, writer, -, ne, isNew⟩
  · have sound : loaded.status ≠ .pendingLive := h.loaded w sid _ eq
    rw [eq] at steady stamped ⊢
    have now : time = s.clock := of_decide_eq_true steady
    have time : time = stamp := by
      simp only [Worker.rewrite, if_true, setStatus, Ne.symm sound, if_false] at stamped
      exact some.inj stamped
    simp [Worker.writes, written, Ne.symm sound, ← now, time]
  · -- a cancel leaves no stamp
    rw [eq] at stamped
    simp only [Worker.rewrite, if_true, setStatus] at stamped
    split at stamped <;> cases stamped
  · rw [none]
    rw [same] at status stamped
    exact h.pending sid old stamp was status stamped
  · rw [isNew] at status
    exact absurd status ne

lemma rested_go (h : Cooling s) (steady : (s.workers w).steady s = true)
    (st : go s w inp (s.workers w) = some s') : Each Rested s'.log := by
  obtain ⟨evs, eq, own⟩ := (go_frame st).log
  cases here : s.workers w with
  | activating i phase =>
    have sound := h.loaded w i phase here
    rw [here] at st steady
    simp only [go] at st
    cases st
    refine each_goActivate h.log (fun status writer _ _ => ?_) ?_ ?_
    · cases status <;> cases writer <;> trivial
    · rintro row rfl
      refine each_cons.2 ⟨trivial, each_write h.log fun _ => ?_⟩
      obtain ⟨pending, stamp, stamped, ripe⟩ := sound
      obtain ⟨mid, rest, split, none⟩ :=
          split_of_lastWrite (h.pending i row stamp (of_decide_eq_true steady) pending stamped)
      exact ⟨mid, stamp, rest, split, ripe, none⟩
    · rintro rfl
      exact each_beginRegister h.log (fun _ _ => each_cons.2 ⟨trivial, h.log⟩) trivial
  | _ =>
    rw [eq]
    refine h.log.append fun e mem earlier => ?_
    have source := (own e mem).2
    rw [here] at source
    cases e with
    | wrote i status writer time => cases status <;> cases writer <;> trivial
    | _ => trivial

lemma sound_mono {phase : Activating} {clock clock' : Instant} (le : clock ≤ clock')
    (h : phase.Sound clock) : phase.Sound clock' := by
  cases phase with
  | completing row | promoting row =>
    obtain ⟨pending, stamp, stamped, ripe⟩ := h
    exact ⟨pending, stamp, stamped, ripe.trans le⟩
  | _ => exact h

lemma cooling_step {l : Label} (h : Cooling s) (steady : Steady s l) (st : step s l = some s') : Cooling s' := by
  replace st := step_cases st
  rcases st with ⟨_, _, rfl, -⟩ | ⟨d, -, rfl⟩ | ⟨w, -, rfl⟩ | ⟨w, inp, rfl, st⟩ | ⟨w, target, free, st⟩
  · exact ⟨h.log, h.pending, h.loaded⟩
  · exact ⟨h.log, h.pending, fun w sid phase now => sound_mono (Nat.le_add_right ..) (h.loaded w sid phase now)⟩
  · refine ⟨h.log, h.pending, ?_⟩
    intro w' sid phase now
    rcases restart_workers (show step s (.restart w) = some _ from rfl) w' with eq | ⟨_, eq⟩ <;>
      cases eq.symm.trans now
  · have frame := go_frame st
    refine ⟨rested_go h steady st, fun sid row stamp => pending_go h steady st, ?_⟩
    intro w' sid phase now
    rw [frame.clock]
    by_cases eq : w' = w
    · subst eq
      obtain ⟨before, here, next⟩ := go_activating st now
      have sound := h.loaded w' sid before here
      cases next with
      | stamped | checked => exact sound
      | initiated | promoted => trivial
    · exact h.loaded w' sid phase (frame.workers w' eq ▸ now)
  · have frame := arrive_frame target st
    obtain ⟨evs, eq, own⟩ := frame.log
    refine ⟨?_, ?_, ?_⟩
    · rw [eq]
      refine h.log.append fun e mem earlier => ?_
      have source := (own e mem).2
      cases e with
      | wrote i status writer time => cases writer <;> cases source
      | _ => trivial
    · intro sid row stamp get status stamped
      rw [(arrive_fields st).1] at get
      rw [arrive_lastWrite st]
      exact h.pending sid row stamp get status stamped
    · intro w' sid phase now
      rw [frame.clock]
      by_cases eq : w' = w
      · subst eq
        obtain ⟨row, -, begins⟩ := arrive_activating target free st now
        cases begins with
        | initiate status =>
          show row.status ≠ .pendingLive
          rcases status with eq | eq <;> rw [eq] <;> decide
        | complete status initiatedAt stamp ripe => exact ⟨status, initiatedAt, stamp, ripe⟩
        | cancel | demote | deactivate => trivial
      · exact h.loaded w' sid phase (frame.workers w' eq ▸ now)

end Cooling

/-- Every LIVE commit of `complete_pending` comes at least 24 hours after an `initiate` with no other status change of
the strategy in between, where completions and initiations commit what they loaded. -/
theorem live_after_uninterrupted_cooldown {strategies : List Strategy} {accounts : Dict Nat Account}
    {holds : Nat → Bool} {clock : Instant} {labels : List Label} {s : State}
    (steady : engine.Meets Steady (start strategies accounts holds clock) labels)
    (run : engine.run (start strategies accounts holds clock) labels = some s) : Each Rested s.log := by
  have init : Cooling (start strategies accounts holds clock) := by
    refine ⟨each_nil, ?_, by simp [start]⟩
    intro sid row stamp get _ stamped
    simp only [start, getElem?_map] at get
    obtain ⟨row', -, rfl⟩ := map_eq_some_iff.1 get
    cases stamped
  exact (run_invariant (I := Cooling) cooling_step init steady run).log

/-- A cancel that commits before a completion's LIVE commit does not prevent it. -/
theorem cancel_loses_to_completion :
    ∃ s, engine.run (start [eventStrategy] bothAccounts (fun _ => false) 0)
        [.initiate 0 0 1 true, .go 0 {}, .go 0 {}, .go 0 {}, .elapse activationCooldown,
          .complete 0 0, .go 0 {}, .cancel 1 0 1, .go 1 {}, .go 0 {}] = some s ∧
      s.status 0 = some .live ∧ ¬ Each Rested s.log := by
  refine exists_run (by decide +kernel) fun s run => ?_
  have status : s.status 0 = some .live :=
    Machine.observe (f := fun s => s.status 0) run (by decide +kernel)
  have log : s.log = [.promoted 0 false, .wrote 0 .live .complete activationCooldown,
      .wrote 0 .idle .cancel activationCooldown, .wrote 0 .pendingLive .initiate 0] :=
    Machine.observe (f := fun s => s.log) run (by decide +kernel)
  refine ⟨status, ?_⟩
  intro rested
  obtain ⟨mid, initiated, rest, split, -, none⟩ := rested [_] _ _ log
  cases mid with
  | nil => cases split
  | cons e mid =>
    rw [cons_append, List.cons.injEq] at split
    refine none .idle .cancel activationCooldown ?_
    rw [split.1]
    exact mem_cons_self

/-- An activation that nothing interrupts goes LIVE after its cooldown. -/
theorem activation_rests :
    ∃ s, engine.run (start [eventStrategy] bothAccounts (fun _ => false) 0) (activation 0) = some s ∧
      s.status 0 = some .live ∧ Event.wrote 0 .live .complete activationCooldown ∈ s.log ∧ Each Rested s.log := by
  refine exists_run (by decide +kernel) fun s run => ?_
  have status : s.status 0 = some .live :=
    Machine.observe (f := fun s => s.status 0) run (by decide +kernel)
  have mem : decide (Event.wrote 0 .live .complete activationCooldown ∈ s.log) = true :=
    Machine.observe (f := fun s => decide (Event.wrote 0 .live .complete activationCooldown ∈ s.log)) run
      (by decide +kernel)
  exact ⟨status, of_decide_eq_true mem, live_after_uninterrupted_cooldown (by decide +kernel) run⟩

end Workbench.Strategies
