import Workbench.Strategies.Effects

/-!
# What a halt stops

`_dispatch_bar_tick`, `_dispatch_overlay_tick` and `dispatch_event_bar` read the persisted status and
the market session before they enter a hook; `_fire_all_event_strategies` and `_on_signal_event` do
not. `Vetted` says that an entry was preceded by both reads since its trigger, `Released` that a
strategy bound to an account at a trip of its breaker is not entered before a reset and a re-start.

A trip halts by status and by user: what it leaves runnable (a clone in PAPER_VARIANT), a dispatch
that has already read the status, and a registration or completion that makes the strategy runnable
again without a reset are what `Stops` excludes, besides the two ungated paths.
-/

set_option linter.dupNamespace false

namespace Workbench.Strategies
open Workbench.Lib Workbench.Lib.Record Option Machine

/-- Since its trigger, `w` has read a runnable persisted status of the strategy. -/
def StatusRead (w sid : Nat) (log : List Event) : Prop :=
  ∃ status, status.runnable = true ∧ Event.statusRead w sid (some status) ∈ since (.triggered w) log

/-- Since its trigger, `w` has read a runnable status and an open market session. -/
structure GateRead (w sid : Nat) (log : List Event) : Prop where
  triggered : Event.triggered w ∈ log
  status : StatusRead w sid log
  session : Event.sessionRead w sid true ∈ since (.triggered w) log

/-- A hook that can compute a new book is entered behind both gates. -/
def Vetted : Event → List Event → Prop
  | .entered w path r _ _, earlier => path ≠ .fill → GateRead w r.strategyId earlier
  | _, _ => True

/-- A strategy bound to an account at a trip is entered again only after a reset of the account and,
    after that, a re-start of the strategy. -/
def Released : Event → List Event → Prop
  | .entered _ path r _ _, earlier => path ≠ .fill → ∀ mid a bound rest,
      earlier = mid ++ .tripped a bound :: rest → r.strategyId ∈ bound →
      ∃ m₁ held m₂ m₃, mid = m₁ ++ .started r.strategyId held :: (m₂ ++ .reset a :: m₃)
  | _, _ => True

/-! ## The standing of a trip -/

/-- How a trip of an account stands for a strategy. -/
inductive Halt where
  | free
  | struck
  | reset
  deriving DecidableEq

/-- The standing of the last trip of account `a` that found strategy `sid` bound to it. -/
def halt (a sid : Nat) : List Event → Halt
  | [] => .free
  | .tripped a' bound :: log => if a' = a ∧ sid ∈ bound then .struck else halt a sid log
  | .reset a' :: log => if a' = a ∧ halt a sid log = .struck then .reset else halt a sid log
  | .started sid' _ :: log => if sid' = sid ∧ halt a sid log = .reset then .free else halt a sid log
  | _ :: log => halt a sid log

section Standing
variable {a sid : Nat} {log mid : List Event}

/-- What an event makes of the standing of a trip. -/
lemma halt_cons {e : Event} :
    halt a sid (e :: log) = halt a sid log ∨ (∃ bound, e = .tripped a bound) ∧ halt a sid (e :: log) = .struck ∨
      e = .reset a ∧ halt a sid log = .struck ∧ halt a sid (e :: log) = .reset ∨
      (∃ held, e = .started sid held) ∧ halt a sid log = .reset ∧ halt a sid (e :: log) = .free := by
  cases e with
  | tripped a' bound =>
    by_cases hit : a' = a ∧ sid ∈ bound
    · exact .inr (.inl ⟨⟨bound, by rw [hit.1]⟩, if_pos hit⟩)
    · exact .inl (if_neg hit)
  | reset a' =>
    by_cases hit : a' = a ∧ halt a sid log = .struck
    · exact .inr (.inr (.inl ⟨by rw [hit.1], hit.2, if_pos hit⟩))
    · exact .inl (if_neg hit)
  | started sid' held =>
    by_cases hit : sid' = sid ∧ halt a sid log = .reset
    · exact .inr (.inr (.inr ⟨⟨held, by rw [hit.1]⟩, hit.2, if_pos hit⟩))
    · exact .inl (if_neg hit)
  | _ => exact .inl rfl

lemma reset_mem_of_halt (struck : halt a sid log = .struck) (now : halt a sid (mid ++ log) = .reset) :
    ∃ m₂ m₃, mid = m₂ ++ Event.reset a :: m₃ := by
  induction mid with
  | nil => rw [List.nil_append, struck] at now; cases now
  | cons e mid ih =>
    rcases @halt_cons a sid (mid ++ log) e with same | ⟨-, other⟩ | ⟨rfl, -, -⟩ | ⟨-, -, other⟩
    · obtain ⟨m₂, m₃, rfl⟩ := ih (same.symm.trans now)
      exact ⟨e :: m₂, m₃, rfl⟩
    · cases other.symm.trans now
    · exact ⟨[], mid, rfl⟩
    · cases other.symm.trans now

lemma released_of_halt (struck : halt a sid log = .struck) (now : halt a sid (mid ++ log) = .free) :
    ∃ m₁ held m₂ m₃, mid = m₁ ++ Event.started sid held :: (m₂ ++ Event.reset a :: m₃) := by
  induction mid with
  | nil => rw [List.nil_append, struck] at now; cases now
  | cons e mid ih =>
    rcases @halt_cons a sid (mid ++ log) e with same | ⟨-, other⟩ | ⟨-, -, other⟩ | ⟨⟨held, rfl⟩, was, -⟩
    · obtain ⟨m₁, held, m₂, m₃, rfl⟩ := ih (same.symm.trans now)
      exact ⟨e :: m₁, held, m₂, m₃, rfl⟩
    · cases other.symm.trans now
    · cases other.symm.trans now
    · obtain ⟨m₂, m₃, rfl⟩ := reset_mem_of_halt struck was
      exact ⟨[], held, m₂, m₃, rfl⟩

lemma halt_of_append {evs : List Event} (none : ∀ a bound, Event.tripped a bound ∉ evs)
    (now : halt a sid (evs ++ log) ≠ .free) : halt a sid log ≠ .free := by
  induction evs with
  | nil => exact now
  | cons e evs ih =>
    have rest := ih fun a bound mem => none a bound (List.mem_cons_of_mem _ mem)
    rcases @halt_cons a sid (evs ++ log) e with same | ⟨⟨bound, rfl⟩, -⟩ | ⟨-, was, -⟩ | ⟨-, -, free⟩
    · exact rest fun free => now (same.trans free)
    · exact absurd List.mem_cons_self (none a bound)
    · exact rest (by rw [was]; decide)
    · exact absurd free now

lemma released_of_free {w : Nat} {path : Path} {r : RunningStrategy} {mode : Option AccountMode}
    {status : Option StrategyStatus} (free : path ≠ .fill → ∀ a, halt a r.strategyId log = .free) :
    Released (.entered w path r mode status) log := by
  rintro book mid a bound rest rfl mem
  have struck : halt a r.strategyId (.tripped a bound :: rest) = .struck := by
    simp [halt, mem]
  exact released_of_halt struck (free book a)

end Standing

/-! ## The condition -/

/-- A gated dispatch that has read the status of `sid` and may still enter it. -/
def Worker.past (sid : Nat) : Worker → Bool
  | .dispatching path _ (.session r) | .dispatching path _ (.claim r)
  | .dispatching path _ (.fetch r (_ :: _)) | .dispatching path _ (.hook r (_ :: _)) =>
    path.gated && r.strategyId = sid
  | _ => false

/-- The strategy's persisted status is not runnable. -/
def NotRunnable (s : State) (sid : Nat) : Prop :=
  ∀ status, s.status sid = some status → status.runnable = false

/-- No fallback tick finds a bar and no bus signal passes the readiness gate; a trip commits when no
    dispatch of a bound strategy is past its status read and halts every bound strategy that is
    runnable; a strategy that was struck is not registered before the reset, nor completed into LIVE
    before the re-start. -/
def StopsAt (s : State) (inp : Input) : Worker → Prop
  | .dispatching .eventFallback _ (.fetch _ (_ :: _)) => inp.bar = false
  | .dispatching .signal (r :: _) .next => factorReadinessOk r inp.verdict = false
  | .tripping a halts => ∀ sid ∈ boundTo s a,
      (sid ∈ halts ∨ NotRunnable s sid) ∧ ∀ w', (s.workers w').past sid = false
  | .registering _ sid (.committing row _) =>
    runStatus row ≠ row.status → ∀ a, halt a sid s.log ≠ .struck
  | .activating sid (.promoting _) => ∀ a, halt a sid s.log = .free
  | _ => True

/-- Every step of a worker meets `StopsAt`. -/
def Stops (s : State) : Label → Prop
  | .go w inp => StopsAt s inp (s.workers w)
  | _ => True

/-! ## Entries behind the gates -/

/-- What a dispatch has read at each of its awaits; only the paths with a symbol loop have symbols
    left. -/
def Cleared (w : Nat) (log : List Event) (path : Path) : Dispatching → Prop
  | .next => True
  | .status _ => path.gated = true
  | .session r => path.gated = true ∧ StatusRead w r.strategyId log
  | .claim r => path.gated = true ∧ GateRead w r.strategyId log
  | .fetch r symbols | .hook r symbols => (path.gated = true → GateRead w r.strategyId log) ∧
      (path.gated = true ∨ path = .eventFallback ∨ symbols = [])

/-- What the record shows of a worker inside a dispatch. -/
def Worker.Cleared (w : Nat) (log : List Event) (worker : Worker) : Prop :=
  (worker.inDispatch = true → Event.triggered w ∈ log) ∧
  ∀ path pending phase, worker = .dispatching path pending phase →
    Strategies.Cleared w log path phase

section Reads
variable {w sid : Nat} {log evs : List Event} {worker : Worker}

lemma StatusRead.append (h : StatusRead w sid log) (none : Event.triggered w ∉ evs) :
    StatusRead w sid (evs ++ log) := by
  obtain ⟨status, runnable, mem⟩ := h
  exact ⟨status, runnable, mem_since_append none mem⟩

lemma GateRead.append (h : GateRead w sid log) (none : Event.triggered w ∉ evs) : GateRead w sid (evs ++ log) :=
  ⟨List.mem_append_right _ h.triggered, h.status.append none, mem_since_append none h.session⟩

lemma Worker.Cleared.append (h : worker.Cleared w log) (none : Event.triggered w ∉ evs) :
    worker.Cleared w (evs ++ log) := by
  refine ⟨fun on => List.mem_append_right _ (h.1 on), ?_⟩
  intro path pending phase eq
  have old := h.2 path pending phase eq
  cases phase with
  | next | status => exact old
  | session r => exact ⟨old.1, old.2.append none⟩
  | claim r => exact ⟨old.1, old.2.append none⟩
  | fetch r | hook r => exact ⟨fun gated => (old.1 gated).append none, old.2⟩

lemma cleared_of_off (off : worker.inDispatch = false) : worker.Cleared w log := by
  refine ⟨by simp [off], ?_⟩
  rintro path pending phase rfl
  cases off

end Reads

/-- Every entry was vetted, and every dispatch has read what its await says. -/
structure Vetting (s : State) : Prop where
  log : Each Vetted s.log
  cleared : ∀ w, (s.workers w).Cleared w s.log

section Vetting
variable {s s' : State} {w : Nat} {path : Path} {pending : List RunningStrategy} {inp : Input}

lemma vetting_enter {r : RunningStrategy} {rest : List String} {t : State} (v : Each Vetted t.log)
    (own : Event.triggered w ∈ t.log) (gate : path ≠ .fill → GateRead w r.strategyId t.log)
    (loop : path.gated = true ∨ path = .eventFallback ∨ rest = []) :
    Each Vetted (enter t w path pending r rest).log ∧
      ((enter t w path pending r rest).workers w).Cleared w (enter t w path pending r rest).log := by
  refine ⟨each_cons.2 ⟨gate, v⟩, ?_⟩
  rw [show (enter t w path pending r rest).workers w = .dispatching path pending (.hook r rest) from
    Function.update_self ..]
  refine ⟨fun _ => List.mem_cons_of_mem _ own, ?_⟩
  intro path' pending' phase' eq
  cases eq
  refine ⟨fun gated => @GateRead.append _ _ _ [_] (gate ?_) (by simp), loop⟩
  rintro rfl
  cases gated

lemma vetting_move {phase : Dispatching} {t : State} (v : Each Vetted t.log)
    (own : Event.triggered w ∈ t.log) (c : Cleared w t.log path phase) :
    Each Vetted (t.move w (.dispatching path pending phase)).log ∧
      ((t.move w (.dispatching path pending phase)).workers w).Cleared w
        (t.move w (.dispatching path pending phase)).log := by
  refine ⟨v, ?_⟩
  rw [State.move_workers, Function.update_self]
  refine ⟨fun _ => own, ?_⟩
  intro path' pending' phase' eq
  cases eq
  exact c

lemma vetting_leave {worker : Worker} {t : State} (v : Each Vetted t.log)
    (own : Event.triggered w ∈ t.log) (off : ∀ path pending phase, worker ≠ .dispatching path pending phase) :
    Each Vetted (t.move w worker).log ∧ ((t.move w worker).workers w).Cleared w (t.move w worker).log := by
  refine ⟨v, ?_⟩
  rw [State.move_workers, Function.update_self]
  exact ⟨fun _ => own, fun path pending phase eq => absurd eq (off path pending phase)⟩

lemma vetting_goDispatch {phase : Dispatching} (v : Vetting s)
    (here : s.workers w = .dispatching path pending phase) (stops : Stops s (.go w inp)) :
    Each Vetted (goDispatch s w path pending inp phase).log ∧
      ((goDispatch s w path pending inp phase).workers w).Cleared w (goDispatch s w path pending inp phase).log := by
  obtain ⟨on, reads⟩ := v.cleared w
  rw [here] at on reads
  have own := on rfl
  have reads := reads path pending phase rfl
  rw [Stops, here] at stops
  cases phase with
  | next =>
    cases pending with
    | nil => exact vetting_leave v.log own (by simp)
    | cons r rest =>
      simp only [goDispatch]
      split
      · rename_i fill
        exact vetting_enter v.log own (fun ne => absurd fill ne) (.inr (.inr rfl))
      split
      · exact vetting_move v.log own trivial
      rename_i notFill ready
      split
      · rename_i gated
        exact vetting_move v.log own gated
      rename_i ungated
      split
      · rename_i fallback
        exact vetting_move v.log own ⟨fun gated => absurd gated ungated, .inr (.inl fallback)⟩
      -- what is left is a bus signal
      · rename_i notFallback
        have signal : path = .signal := by cases path <;> simp_all [Path.gated]
        subst signal
        simp [show factorReadinessOk r inp.verdict = false from stops] at ready
  | status r =>
    have noted {status : Option StrategyStatus} :
        Each Vetted (s.note (.statusRead w r.strategyId status)).log := each_cons.2 ⟨trivial, v.log⟩
    refine vetting_move noted (List.mem_cons_of_mem _ own) ?_
    generalize (if inp.readable = true then s.status r.strategyId else none) = status
    cases status with
    | none => trivial
    | some status =>
      simp only [map_some, getD_some]
      split
      · rename_i runnable
        refine ⟨reads, status, runnable, ?_⟩
        rw [State.note_log, since_cons_of_ne (by simp)]
        exact List.mem_cons_self
      · trivial
  | session r =>
    simp only [goDispatch]
    cases allowed : dispatchAllowed r inp.session with
    | false => exact vetting_move (each_cons.2 ⟨trivial, v.log⟩) (List.mem_cons_of_mem _ own) trivial
    | true =>
      have noted : Each Vetted (s.note (.sessionRead w r.strategyId true)).log :=
        each_cons.2 ⟨trivial, v.log⟩
      have own' : Event.triggered w ∈ (s.note (.sessionRead w r.strategyId true)).log :=
        List.mem_cons_of_mem _ own
      have gate : GateRead w r.strategyId (s.note (.sessionRead w r.strategyId true)).log := by
        refine ⟨own', @StatusRead.append _ _ _ [_] reads.2 (by simp), ?_⟩
        rw [State.note_log, since_cons_of_ne (by simp)]
        exact List.mem_cons_self
      simp only [Bool.not_true, Bool.false_eq_true, if_false]
      split
      · exact vetting_move noted own' ⟨reads.1, gate⟩
      split
      · exact vetting_move noted own' trivial
      · exact vetting_enter noted own' (fun _ => gate) (.inl reads.1)
  | claim r =>
    simp only [goDispatch]
    split
    · exact vetting_move v.log own ⟨fun _ => reads.2, .inl reads.1⟩
    · exact vetting_move v.log own trivial
  | fetch r symbols =>
    cases symbols with
    | nil => exact vetting_move v.log own trivial
    | cons symbol rest =>
      have loop : path.gated = true ∨ path = .eventFallback ∨ rest = [] := by
        rcases reads.2 with gated | fallback | nil
        · exact .inl gated
        · exact .inr (.inl fallback)
        · cases nil
      simp only [goDispatch]
      split
      · rename_i bar
        refine vetting_enter v.log own (fun _ => reads.1 ?_) loop
        rcases reads.2 with gated | rfl | nil
        · exact gated
        · rw [show inp.bar = false from stops] at bar
          cases bar
        · cases nil
      · exact vetting_move v.log own ⟨reads.1, loop⟩
  | hook r symbols =>
    simp only [goDispatch]
    split
    · exact vetting_leave v.log own (by simp)
    · exact vetting_move v.log own reads

lemma vetting_step {l : Label} (v : Vetting s) (stops : Stops s l) (st : step s l = some s') : Vetting s' := by
  -- another worker's events cannot be this worker's trigger
  have others {w : Nat} {worker : Worker} (frame : Frame w worker s s') (w' : Nat) (ne : w' ≠ w) :
      (s'.workers w').Cleared w' s'.log := by
    obtain ⟨evs, eq, own⟩ := frame.log
    rw [frame.workers w' ne, eq]
    exact (v.cleared w').append fun mem => ne ((own _ mem).1 w' rfl)
  have quiet {w : Nat} {worker : Worker} (frame : Frame w worker s s')
      (off : ∀ path pending phase, worker ≠ .dispatching path pending phase) : Each Vetted s'.log := by
    obtain ⟨evs, eq, own⟩ := frame.log
    rw [eq]
    refine v.log.append ?_
    intro e mem earlier
    cases e with
    | entered =>
      have source := (own _ mem).2
      cases worker with
      | dispatching path pending phase => exact absurd rfl (off path pending phase)
      | _ => cases source
    | _ => trivial
  have combine {w : Nat} {worker : Worker} (frame : Frame w worker s s') (log : Each Vetted s'.log)
      (own : (s'.workers w).Cleared w s'.log) : Vetting s' := by
    refine ⟨log, fun w' => ?_⟩
    by_cases eq : w' = w
    · subst eq; exact own
    · exact others frame w' eq
  replace st := step_cases st
  rcases st with ⟨_, _, rfl, -⟩ | ⟨_, -, rfl⟩ | ⟨w, -, rfl⟩ | ⟨w, inp, rfl, st⟩ | ⟨w, target, free, st⟩
  · exact ⟨v.log, v.cleared⟩
  · exact ⟨v.log, v.cleared⟩
  · refine ⟨v.log, fun w' => cleared_of_off ?_⟩
    by_cases eq : w' = w <;> simp [Function.update, eq, Worker.inDispatch]
  · have frame := go_frame st
    cases here : s.workers w with
    | dispatching path pending phase =>
      rw [here] at st
      cases st
      exact combine frame (vetting_goDispatch v here stops).1 (vetting_goDispatch v here stops).2
    | failing path pending sid =>
      have own := (v.cleared w).1 (by rw [here]; rfl)
      rw [here] at st frame
      refine combine frame (quiet frame (by simp)) ?_
      simp only [go] at st
      split at st <;> cases st <;> exact (vetting_leave v.log own (by simp)).2
    | erroring path pending sid loaded =>
      have own := (v.cleared w).1 (by rw [here]; rfl)
      rw [here] at st frame
      have log := quiet frame (by simp)
      refine combine frame log ?_
      obtain ⟨evs, eq, -⟩ := frame.log
      have worker : s'.workers w = .evicting path pending sid := by
        simp only [go] at st
        cases st
        exact Function.update_self ..
      rw [worker]
      exact ⟨fun _ => by rw [eq]; exact List.mem_append_right _ own, by simp⟩
    | evicting path pending sid =>
      have own := (v.cleared w).1 (by rw [here]; rfl)
      rw [here] at st frame
      refine combine frame (quiet frame (by simp)) ?_
      simp only [go] at st
      cases st
      exact (vetting_move (t := s.setRunning (s.running.erase sid)) v.log own
        (show Cleared w _ path .next from trivial)).2
    | _ =>
      rw [here] at st frame
      exact combine frame (quiet frame (by simp)) (cleared_of_off (go_inDispatch rfl st))
  · have frame := arrive_frame target st
    refine combine frame (quiet frame (by simp)) ?_
    rcases arrive_inDispatch target free st with off | ⟨path, targets, -, rfl⟩
    · exact cleared_of_off off
    · exact (vetting_move (t := s.note (.triggered w)) (each_cons.2 ⟨trivial, v.log⟩)
        List.mem_cons_self (show Cleared w _ path .next from trivial)).2

end Vetting

/-! ## Struck strategies stay out -/

/-- An entry of a strategy under no standing trip. -/
def Freed : Event → List Event → Prop
  | .entered _ path r _ _, earlier => path ≠ .fill → ∀ a, halt a r.strategyId earlier = .free
  | _, _ => True

/-- While a trip stands for a strategy, it is not runnable and no dispatch is past its status read. -/
structure Standing (s : State) : Prop where
  log : Each Freed s.log
  quiet : ∀ a sid, halt a sid s.log ≠ .free →
    NotRunnable s sid ∧ ∀ w, (s.workers w).past sid = false

def Tame (s s' : State) : Prop :=
  ∀ sid status, s'.status sid = some status → status.runnable = true → s.status sid = some status

section Tame
variable {s s' t : State} {w sid : Nat}

lemma Tame.of_strategies (eq : s'.strategies = s.strategies) : Tame s s' := by
  intro sid status now _
  rwa [State.status, eq] at now

lemma go_tame {inp : Input} {worker : Worker}
    (notCommit : ∀ c sid row r, worker ≠ .registering c sid (.committing row r))
    (notPromote : ∀ sid row, worker ≠ .activating sid (.promoting row))
    (st : go s w inp worker = some s') : Tame s s' := by
  have status {loaded new : StrategyStatus} {row row' : Strategy} (not : new.runnable = false)
      (same : row'.status = row.status) (runnable : (setStatus loaded new row').status.runnable = true) :
      (setStatus loaded new row').status = row.status := by
    unfold setStatus at runnable ⊢
    split
    · exact same
    · rw [if_neg ‹_›] at runnable
      rw [not] at runnable
      cases runnable
  intro sid status' now runnable
  rw [State.status, go_row st] at now
  obtain ⟨_, mapped, rfl⟩ := map_eq_some_iff.1 now
  obtain ⟨row, get, rfl⟩ := map_eq_some_iff.1 mapped
  rw [State.status, get, map_some, some.injEq]
  symm
  cases worker with
  | registering c i phase =>
    cases phase with
    | committing row r => exact absurd rfl (notCommit c i row r)
    | marking loaded =>
      simp only [Worker.rewrite] at runnable ⊢
      split at runnable
      · rw [if_pos ‹_›]; exact status rfl rfl runnable
      · rw [if_neg ‹_›]
    | _ => rfl
  | activating i phase =>
    cases phase with
    | promoting row => exact absurd rfl (notPromote i row)
    | initiating | initiated | completing | promoted => rfl
    | _ =>
      simp only [Worker.rewrite] at runnable ⊢
      split at runnable
      · rw [if_pos ‹_›]; exact status rfl rfl runnable
      · rw [if_neg ‹_›]
  | closing c r loaded isOpen =>
    cases loaded with
    | none => rfl
    | some loaded =>
      simp only [Worker.rewrite] at runnable ⊢
      split at runnable
      · rw [if_pos ‹_›]; exact status rfl rfl runnable
      · rw [if_neg ‹_›]
  | erroring path pending i loaded =>
    simp only [Worker.rewrite] at runnable ⊢
    split at runnable
    · rw [if_pos ‹_›]; exact status rfl rfl runnable
    · rw [if_neg ‹_›]
  | tripping a halts =>
    simp only [Worker.rewrite] at runnable ⊢
    split at runnable
    · cases runnable
    · rw [if_neg ‹_›]
  | _ => rfl

lemma NotRunnable.tame (h : NotRunnable s sid) (tame : Tame s s') : NotRunnable s' sid := by
  intro status now
  by_contra runnable
  rw [Bool.not_eq_false] at runnable
  rw [h status (tame sid status now runnable)] at runnable
  cases runnable

end Tame

section Standing
variable {s s' : State} {w sid : Nat}
variable {worker : Worker}

lemma past_of_off (off : worker.inDispatch = false) : worker.past sid = false := by
  cases worker <;> first | rfl | cases off

lemma past_goDispatch {path : Path} {pending : List RunningStrategy} {phase : Dispatching} {inp : Input}
    (past : ((goDispatch s w path pending inp phase).workers w).past sid = true) :
    (Worker.dispatching path pending phase).past sid = true ∨ ¬ NotRunnable s sid := by
  have entered {t : State} {pending' : List RunningStrategy} {r : RunningStrategy} {rest : List String}
      (h : ((enter t w path pending' r rest).workers w).past sid = true) :
      rest ≠ [] ∧ path.gated = true ∧ r.strategyId = sid := by
    simp only [enter, State.move_workers, Function.update_self] at h
    cases rest <;> simp [Worker.past] at h ⊢
    exact h
  have moved {t : State} {worker : Worker} (h : ((t.move w worker).workers w).past sid = true) :
      worker.past sid = true := by
    rwa [State.move_workers, Function.update_self] at h
  cases phase with
  | next =>
    cases pending with
    | nil => cases moved past
    | cons r rest =>
      simp only [goDispatch] at past
      split at past
      · exact absurd rfl (entered past).1
      split at past
      · cases moved past
      split at past
      · cases moved past
      rename_i ungated
      split at past
      · have past := moved past
        cases e : r.symbols <;> simp [e, Worker.past, ungated] at past
      · exact absurd rfl (entered past).1
  | status r =>
    simp only [goDispatch] at past
    have past := moved past
    cases readable : inp.readable with
    | false => simp [readable, Worker.past] at past
    | true =>
      cases e : s.status r.strategyId with
      | none => simp [readable, e, Worker.past] at past
      | some status =>
        cases runnable : status.runnable with
        | false => simp [readable, e, runnable, Worker.past] at past
        | true =>
          simp only [readable, e, if_true, map_some, getD_some, runnable, Worker.past,
            Bool.and_eq_true, decide_eq_true_eq] at past
          refine .inr fun not => ?_
          rw [← past.2] at not
          rw [not status e] at runnable
          cases runnable
  | session r =>
    left
    simp only [goDispatch] at past
    split at past
    · cases moved past
    split at past
    · have past := moved past
      exact past
    split at past
    · cases moved past
    · exact absurd rfl (entered past).1
  | claim r =>
    left
    have past := moved past
    split at past
    · cases e : r.symbols with
      | nil => simp [e, Worker.past] at past
      | cons => simpa [e, Worker.past] using past
    · cases past
  | fetch r symbols =>
    left
    cases symbols with
    | nil => cases moved past
    | cons symbol rest =>
      simp only [goDispatch] at past
      split at past
      · have h := entered past
        simp [Worker.past, h.2.1, h.2.2]
      · have past := moved past
        cases rest with
        | nil => cases past
        | cons => exact past
  | hook r symbols =>
    left
    simp only [goDispatch] at past
    split at past
    · cases moved past
    · have past := moved past
      cases symbols with
      | nil => cases past
      | cons => exact past

/-- What a dispatch enters is under no standing trip: past its status read it would be struck by
    nothing, and the two other paths enter nothing. -/
lemma freed_goDispatch {path : Path} {pending : List RunningStrategy} {phase : Dispatching} {inp : Input}
    (v : Vetting s) (h : Standing s) (here : s.workers w = .dispatching path pending phase)
    (stops : Stops s (.go w inp)) : Each Freed (goDispatch s w path pending inp phase).log := by
  have reads := (v.cleared w).2 path pending phase here
  have free {sid : Nat} (past : (s.workers w).past sid = true) (a : Nat) : halt a sid s.log = .free := by
    by_contra struck
    rw [(h.quiet a sid struck).2 w] at past
    cases past
  rw [Stops, here] at stops
  rw [here] at free
  cases phase with
  | next =>
    cases pending with
    | nil => exact h.log
    | cons r rest =>
      simp only [goDispatch]
      split
      · rename_i fill
        exact each_cons.2 ⟨fun ne => absurd fill ne, h.log⟩
      split
      · exact h.log
      split
      · exact h.log
      rename_i notFill ready ungated
      split
      · exact h.log
      · rename_i notFallback
        have signal : path = .signal := by cases path <;> simp_all [Path.gated]
        subst signal
        simp [show factorReadinessOk r inp.verdict = false from stops] at ready
  | status r => exact each_cons.2 ⟨trivial, h.log⟩
  | session r =>
    have noted : Each Freed (s.note (.sessionRead w r.strategyId (dispatchAllowed r inp.session))).log :=
      each_cons.2 ⟨trivial, h.log⟩
    simp only [goDispatch]
    split
    · exact noted
    split
    · exact noted
    split
    · exact noted
    · refine each_cons.2 ⟨fun _ a => ?_, noted⟩
      have := @free r.strategyId (by simp [Worker.past, reads.1]) a
      simpa [halt] using this
  | claim r => exact h.log
  | fetch r symbols =>
    cases symbols with
    | nil => exact h.log
    | cons symbol rest =>
      simp only [goDispatch]
      split
      · rename_i bar
        refine each_cons.2 ⟨fun _ a => ?_, h.log⟩
        rcases reads.2 with gated | rfl | nil
        · exact free (by simp [Worker.past, gated]) a
        · rw [show inp.bar = false from stops] at bar
          cases bar
        · cases nil
      · exact h.log
  | hook r symbols => simp only [goDispatch]; split <;> exact h.log

lemma go_past {inp : Input} (off : ∀ path pending phase, worker ≠ .dispatching path pending phase)
    (st : go s w inp worker = some s') : (s'.workers w).past sid = false := by
  cases worker with
  | dispatching path pending phase => exact absurd rfl (off path pending phase)
  | failing =>
    simp only [go] at st
    split at st <;> cases st <;> simp [Worker.past]
  | erroring => simp only [go] at st; cases st; simp [Worker.past]
  | evicting => simp only [go] at st; cases st; simp [Worker.past]
  | _ => exact past_of_off (go_inDispatch rfl st)

lemma Frame.freed_of (frame : Frame w worker s s') (h : Standing s)
    (off : ∀ path pending phase, worker ≠ .dispatching path pending phase) : Each Freed s'.log := by
  obtain ⟨evs, eq, own⟩ := frame.log
  rw [eq]
  refine h.log.append ?_
  intro e mem earlier
  cases e with
  | entered =>
    have source := (own _ mem).2
    cases worker with
    | dispatching path pending phase => exact absurd rfl (off path pending phase)
    | _ => cases source
  | _ => trivial

lemma Frame.unpast {sid : Nat} (frame : Frame w worker s s') (own : (s'.workers w).past sid = false)
    (none : ∀ w', (s.workers w').past sid = false) (w' : Nat) : (s'.workers w').past sid = false := by
  by_cases eq : w' = w
  · exact eq ▸ own
  · rw [frame.workers w' eq]
    exact none w'

lemma Frame.quiet_of (frame : Frame w worker s s') (h : Standing s)
    (notTrip : ∀ a halts, worker ≠ .tripping a halts) (tame : Tame s s')
    (past : ∀ sid, NotRunnable s sid → (s.workers w).past sid = false → (s'.workers w).past sid = false) :
    ∀ a sid, halt a sid s'.log ≠ .free → NotRunnable s' sid ∧ ∀ w', (s'.workers w').past sid = false := by
  intro a sid struck
  obtain ⟨evs, eq, own⟩ := frame.log
  rw [eq] at struck
  have before : halt a sid s.log ≠ .free := by
    refine halt_of_append (fun a' bound mem => ?_) struck
    have source := (own _ mem).2
    cases worker with
    | tripping a halts => exact absurd rfl (notTrip a halts)
    | _ => cases source
  obtain ⟨not, none⟩ := h.quiet a sid before
  exact ⟨not.tame tame, frame.unpast (past sid not (none w)) none⟩

lemma standing_step {l : Label} (v : Vetting s) (h : Standing s) (stops : Stops s l)
    (st : step s l = some s') : Standing s' := by
  replace st := step_cases st
  rcases st with ⟨_, _, rfl, -⟩ | ⟨_, -, rfl⟩ | ⟨w, -, rfl⟩ | ⟨w, inp, rfl, st⟩ | ⟨w, target, free, st⟩
  · exact ⟨h.log, h.quiet⟩
  · exact ⟨h.log, h.quiet⟩
  · refine ⟨h.log, fun a sid struck => ⟨(h.quiet a sid struck).1, fun w' => past_of_off ?_⟩⟩
    by_cases eq : w' = w <;> simp [Function.update, eq, Worker.inDispatch]
  · have frame := go_frame st
    cases here : s.workers w with
    | dispatching path pending phase =>
      rw [here] at st frame
      cases st
      refine ⟨freed_goDispatch v h here stops, ?_⟩
      refine frame.quiet_of h (fun _ _ => by simp) (.of_strategies goDispatch_fields.1) ?_
      intro sid not was
      by_contra past
      rcases past_goDispatch (by simpa using past) with past | runnable
      · rw [here] at was
        rw [was] at past
        cases past
      · exact runnable not
    | tripping a halts =>
      rw [here] at st frame
      have tame := go_tame (by simp) (by simp) st
      refine ⟨frame.freed_of h (by simp), ?_⟩
      rw [Stops, here] at stops
      cases st
      intro a' sid struck
      by_cases hit : a = a' ∧ sid ∈ boundTo s a
      · obtain ⟨halted, none⟩ := stops sid hit.2
        refine ⟨?_, frame.unpast (by simp [Worker.past]) none⟩
        rcases halted with mem | not
        · intro status now
          have now : (commitTrip s a halts).status sid = some status := now
          rw [status_trip, if_pos mem] at now
          obtain ⟨_, -, rfl⟩ := map_eq_some_iff.1 now
          rfl
        · exact not.tame tame
      · have struck : halt a' sid (.tripped a (boundTo s a) ::
            (halts.map (Event.wrote · .halted .breaker s.clock) ++ s.log)) ≠ .free := struck
        rw [halt, if_neg hit] at struck
        obtain ⟨not, none⟩ := h.quiet a' sid (halt_of_append (by simp) struck)
        exact ⟨not.tame tame, frame.unpast (by simp [Worker.past]) none⟩
    | registering c sid phase =>
      rw [here] at st frame
      refine ⟨frame.freed_of h (by simp), ?_⟩
      by_cases commit : ∃ row r, phase = .committing row r
      · obtain ⟨row, r, rfl⟩ := commit
        rw [Stops, here] at stops
        cases st
        intro a i struck
        -- after its re-start a strategy is free unless its trip has not been reset
        have struck : halt a i (.started sid (s.holds sid) ::
            (s.write sid row.status (runStatus row) (.register w)).log) ≠ .free := struck
        have before : halt a i s.log ≠ .free := by
          refine @halt_of_append _ _ _ (.started sid (s.holds sid) ::
            (if runStatus row = row.status then []
              else [.wrote sid (runStatus row) (.register w) s.clock])) (fun a' bound mem => ?_) struck
          split at mem <;> simp at mem
        obtain ⟨not, none⟩ := h.quiet a i before
        refine ⟨?_, frame.unpast (by simp [goRegister, Worker.past]) none⟩
        intro status now
        have now : (s.write sid row.status (runStatus row) (.register w)).status i = some status := now
        rw [status_write] at now
        split at now
        · rename_i wrote
          obtain ⟨ne, rfl⟩ := wrote
          have free := stops ne a
          rw [State.write_log, if_neg ne] at struck
          simp only [List.cons_append, List.nil_append, halt] at struck
          split at struck
          · exact absurd rfl struck
          · rename_i notReset
            cases e : halt a i s.log with
            | free => exact absurd e before
            | struck => exact absurd e free
            | reset => exact absurd ⟨trivial, e⟩ notReset
        · exact not status now
      · refine frame.quiet_of h (by simp) (go_tame ?_ (by simp) st) fun _ _ _ => go_past (by simp) st
        rintro _ _ row r ⟨⟩
        exact commit ⟨row, r, rfl⟩
    | activating sid phase =>
      rw [here] at st frame
      refine ⟨frame.freed_of h (by simp), ?_⟩
      by_cases promote : ∃ row, phase = .promoting row
      · obtain ⟨row, rfl⟩ := promote
        rw [Stops, here] at stops
        have past (i : Nat) : (s'.workers w).past i = false := go_past (by simp) st
        cases st
        intro a i struck
        have before : halt a i s.log ≠ .free := by
          refine @halt_of_append _ _ _ (.promoted sid (s.holds sid) ::
            (if StrategyStatus.live = row.status then []
              else [.wrote sid .live .complete s.clock])) (fun a' bound mem => ?_) struck
          split at mem <;> simp at mem
        have ne : i ≠ sid := by
          rintro rfl
          exact before (stops a)
        obtain ⟨not, none⟩ := h.quiet a i before
        refine ⟨?_, frame.unpast (past i) none⟩
        intro status now
        have now : (s.write sid row.status .live .complete).status i = some status := now
        rw [status_write, if_neg fun h => ne h.2] at now
        exact not status now
      · refine frame.quiet_of h (by simp) (go_tame (by simp) ?_ st) fun _ _ _ => go_past (by simp) st
        rintro _ row ⟨⟩
        exact promote ⟨row, rfl⟩
    | _ =>
      rw [here] at st frame
      refine ⟨frame.freed_of h (by simp), ?_⟩
      exact frame.quiet_of h (by simp) (go_tame (by simp) (by simp) st) fun _ _ _ => go_past (by simp) st
  · have frame := arrive_frame target st
    refine ⟨frame.freed_of h (by simp), ?_⟩
    refine frame.quiet_of h (fun _ _ => by simp) (.of_strategies (arrive_fields st).1) ?_
    intro sid _ _
    rcases arrive_inDispatch target free st with off | ⟨path, targets, -, rfl⟩
    · exact past_of_off off
    · rw [beginDispatch, State.move_workers, Function.update_self]
      rfl

end Standing

/-! ## Runs -/

/-- A hook that can compute a new book is entered only behind a read of a runnable status and of an open session since
the trigger, and a struck strategy not before a reset and a re-start. -/
theorem halted_stops_dispatch {strategies : List Strategy} {accounts : Dict Nat Account}
    {holds : Nat → Bool} {clock : Instant} {labels : List Label} {s : State}
    (stops : engine.Meets Stops (start strategies accounts holds clock) labels)
    (run : engine.run (start strategies accounts holds clock) labels = some s) :
    Each Vetted s.log ∧ Each Released s.log := by
  have init : Vetting (start strategies accounts holds clock) ∧
      Standing (start strategies accounts holds clock) := by
    refine ⟨⟨each_nil, fun w => cleared_of_off rfl⟩, each_nil, ?_⟩
    intro a sid struck
    exact absurd rfl struck
  obtain ⟨v, h⟩ := run_invariant (I := fun s => Vetting s ∧ Standing s)
    (fun inv stops st => ⟨vetting_step inv.1 stops st, standing_step inv.1 inv.2 stops st⟩)
    init stops run
  refine ⟨v.log, h.log.mono ?_⟩
  intro e earlier freed
  cases e with
  | entered => exact released_of_free freed
  | _ => trivial

/-- A fallback tick enters `on_bar` of a strategy that a trip has halted, without a read. -/
theorem fallback_enters_halted_strategy :
    ∃ s, engine.run (start [eventStrategy] paperAccounts (fun _ => false) 0)
        (registration 0 ++ [.trip 0 7, .go 0 {}, .eventFallback 0, .go 0 {}, .go 0 {}]) = some s ∧
      s.status 0 = some .halted ∧ ¬ Each Vetted s.log ∧ ¬ Each Released s.log := by
  refine exists_run (by decide +kernel) fun s run => ?_
  have status : s.status 0 = some .halted :=
    Machine.observe (f := fun s => s.status 0) run (by decide +kernel)
  have head : s.log.head? = some (.entered 0 .eventFallback
      ⟨0, 7, 0, ["AAPL"], "event", false, false⟩ (some .paper) (some .halted)) :=
    Machine.observe (f := fun s => s.log.head?) run (by decide +kernel)
  have unread : (s.log.tail.all fun e => match e with | .statusRead .. | .reset .. => false | _ => true) = true :=
    Machine.observe (f := fun s => s.log.tail.all fun e => match e with
      | .statusRead .. | .reset .. => false | _ => true) run (by decide +kernel)
  have tripped : Event.tripped 7 [0] ∈ s.log.tail := by
    have : decide (Event.tripped 7 [0] ∈ s.log.tail) = true :=
      Machine.observe (f := fun s => decide (Event.tripped 7 [0] ∈ s.log.tail)) run (by decide +kernel)
    exact of_decide_eq_true this
  have split : s.log = _ :: s.log.tail := (List.cons_head?_tail head).symm
  rw [List.all_eq_true] at unread
  refine ⟨status, ?_, ?_⟩
  · intro vetted
    obtain ⟨st, -, mem⟩ := (vetted [] _ _ split (by decide)).status
    exact absurd (unread _ ((List.takeWhile_sublist _).subset mem)) (by simp)
  · intro released
    obtain ⟨mid, rest, eq⟩ := List.append_of_mem tripped
    obtain ⟨m₁, held, m₂, m₃, rfl⟩ := released [] _ _ split (by decide) mid 7 [0] rest eq (by simp)
    have mem : Event.reset 7 ∈ s.log.tail := by rw [eq]; simp
    exact absurd (unread _ mem) (by simp)

/-- A decidable condition that gives `Stops` when only worker `0` is used: a trip halts every bound
    strategy, and nothing is started after one. -/
def soloStopsAt (s : State) (inp : Input) : Worker → Bool
  | .dispatching .eventFallback _ (.fetch _ (_ :: _)) => !inp.bar
  | .dispatching .signal (r :: _) .next => !factorReadinessOk r inp.verdict
  | .tripping a halts => (boundTo s a).all (· ∈ halts)
  | .registering _ _ (.committing _ _) | .activating _ (.promoting _) =>
    s.log.all fun e => match e with | .tripped .. => false | _ => true
  | _ => true

/-- The condition on a step of worker `0`. -/
def soloStops (s : State) : Label → Bool
  | .go w inp => w = 0 && soloStopsAt s inp (s.workers w)
  | l => l.worker.getD 0 = 0

lemma stops_of_solo {s : State} {l : Label} (solo : Solo s) (h : soloStops s l = true) : Stops s l := by
  have free {log : List Event} (none : (log.all fun e => match e with | .tripped .. => false | _ => true) = true)
      (a sid : Nat) : halt a sid log = .free := by
    by_contra struck
    have before : halt a sid [] ≠ .free := by
      refine @halt_of_append _ _ _ log (fun a' bound mem => ?_) (by rwa [List.append_nil])
      exact absurd (List.all_eq_true.1 none _ mem) (by simp)
    exact before rfl
  cases l with
  | go w inp =>
    simp only [soloStops, Bool.and_eq_true, decide_eq_true_eq] at h
    obtain ⟨rfl, h⟩ := h
    show StopsAt s inp (s.workers 0)
    cases here : s.workers 0 with
    | tripping a halts =>
      rw [here] at h
      intro sid mem
      have halted : sid ∈ halts := by simpa using List.all_eq_true.1 h sid mem
      refine ⟨.inl halted, fun w' => ?_⟩
      by_cases eq : w' = 0
      · subst eq
        rw [here]
        rfl
      · rw [solo w' eq]
        rfl
    | registering c sid phase =>
      rw [here] at h
      cases phase with
      | committing row r =>
        intro _ a struck
        rw [free h a sid] at struck
        cases struck
      | _ => trivial
    | activating sid phase =>
      rw [here] at h
      cases phase with
      | promoting row => exact fun a => free h a sid
      | _ => trivial
    | dispatching path pending phase =>
      rw [here] at h
      unfold StopsAt
      split <;> simp_all [soloStopsAt]
    | _ => trivial
  | _ => trivial

lemma meets_stops_of_solo {s : State} {labels : List Label} (solo : Solo s)
    (h : engine.Meets (fun s l => soloStops s l = true) s labels) : engine.Meets Stops s labels := by
  refine Machine.Meets.of_invariant (I := Solo) ?_ stops_of_solo solo h
  intro s l t solo ok st
  refine solo_step solo ?_ st
  intro w worker
  cases l <;> simp_all [soloStops, Label.worker, Label.target]

/-- A bar tick enters the strategy, a trip halts it, and the next tick stops at the status read. -/
theorem bar_tick_stops_at_halt :
    ∃ s, engine.run (start [eventStrategy] paperAccounts (fun _ => false) 0)
        (registration 0 ++ .barTick 0 0 :: (List.replicate 8 (.go 0 {}) ++
          [.trip 0 7, .go 0 {}, .barTick 0 0, .go 0 {}, .go 0 {}])) = some s ∧
      s.status 0 = some .halted ∧ s.log.head? = some (.statusRead 0 0 (some .halted)) ∧
      Each Vetted s.log ∧ Each Released s.log := by
  refine exists_run (by decide +kernel) fun s run => ?_
  have status : s.status 0 = some .halted :=
    Machine.observe (f := fun s => s.status 0) run (by decide +kernel)
  have head : s.log.head? = some (.statusRead 0 0 (some .halted)) :=
    Machine.observe (f := fun s => s.log.head?) run (by decide +kernel)
  refine ⟨status, head, halted_stops_dispatch (meets_stops_of_solo ?_ (by decide +kernel)) run⟩
  intro w _
  rfl

end Workbench.Strategies
