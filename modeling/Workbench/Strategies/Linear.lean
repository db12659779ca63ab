import Workbench.Strategies.Effects

/-!
# Registration under interleaving

`register` tests `_running` once and inserts many awaits later; `unregister` pops at once and commits
later; the exception handler commits and pops later still. `Linear` is what they should keep between
them: once no operation on a strategy is in flight its open run is the one `_running` holds, no
registration overwrites another, a normal return leaves a runnable status, and a registration does not
write over a HALTED that a trip committed meanwhile.

`Serial` is when they do. The argument for the runs is that every open run has a holder (`Held`): the
registered instance, or an operation in flight that will register or close it.
-/

set_option linter.dupNamespace false

namespace Workbench.Strategies
open Workbench.Lib Workbench.Lib.Record List Machine

/-- An operation on `sid` is in flight. -/
def Worker.operates (sid : Nat) : Worker → Bool
  | .registering _ i _ | .failing _ _ i | .erroring _ _ i _ | .evicting _ _ i => i = sid
  | .stopping _ r | .closing _ r _ _ => r.strategyId = sid
  | _ => false

/-- Run `k` is an open run of `sid`. -/
def OpenRun (runs : List StrategyRun) (sid k : Nat) : Prop :=
  ∃ run, runs[k]? = some run ∧ run.strategyId = sid ∧ run.endedAt = none

/-- The law of what a registration records: it overwrites no instance, it returns with a runnable
    status, and what it writes does not replace a HALTED of a trip made since it was called. -/
def Clean : Event → List Event → Prop
  | .put _ overwrote, _ => overwrote = false
  | .registered _ status, _ => ∃ runnable, status = some runnable ∧ runnable.runnable = true
  | .wrote sid _ (.register w) _, earlier =>
    ∀ time, Event.wrote sid .halted .breaker time ∉ since (.called w sid) earlier
  | _, _ => True

/-- What registration keeps. -/
structure Linear (s : State) : Prop where
  runs : ∀ sid, (∀ w, (s.workers w).operates sid = false) → ∀ k, OpenRun s.runs sid k →
    ∃ r, s.running.get sid = some r ∧ r.runId = k
  log : Each Clean s.log

/-! ## The condition -/

/-- The strategy on which a step calls `register`. -/
def registers (s : State) : Label → Option Nat
  | .register _ sid _ => some sid
  | .go w _ => (s.workers w).registers
  | _ => none

/-- A registration of `sid` that will not write its status any more, or not a different one. -/
def Worker.settles (sid : Nat) : Worker → Bool
  | .registering _ i (.starting _ row _) | .registering _ i (.rechecking row _ _)
  | .registering _ i (.opening row _ _) | .registering _ i (.committing row _) =>
    i = sid && runStatus row = row.status
  | .registering _ i (.putting _) | .registering _ i .returning => i = sid
  | _ => false

/-- `register` is called when no other `register` of the strategy is in flight, and finds a registered
    strategy runnable; the exception handler evicts no instance whose run is open; the process restarts
    when no run is open; a trip halts no strategy whose registration is in flight; and no operation
    takes a runnable status away after the status write of a registration that is in flight. -/
structure Serial (s : State) (l : Label) : Prop where
  call : ∀ sid, registers s l = some sid → (∀ w c phase, s.workers w ≠ .registering c sid phase) ∧
    ∀ r, s.running.get sid = some r → ∃ status, s.status sid = some status ∧ status.runnable = true
  evict : ∀ w inp path pending sid, l = .go w inp → s.workers w = .evicting path pending sid →
    ∀ r, s.running.get sid = some r → ¬ OpenRun s.runs sid r.runId
  restart : ∀ w, l = .restart w → ∀ sid k, ¬ OpenRun s.runs sid k
  trip : ∀ w inp a halts, l = .go w inp → s.workers w = .tripping a halts → ∀ sid ∈ halts,
    ∀ w' c phase, s.workers w' ≠ .registering c sid phase
  status : ∀ w inp (sid : Nat) (row : Strategy), l = .go w inp → s.strategies[sid]? = some row →
    row.status.runnable = true → ((s.workers w).rewrite sid row).status.runnable = false →
    ∀ w', w' ≠ w → (s.workers w').settles sid = false

/-! ## Runs and their holders -/

/-- A worker that will register run `k` of `sid`, or close it. -/
def Worker.holds (sid k : Nat) : Worker → Bool
  | .registering _ i (.committing _ r) | .registering _ i (.putting r) => i = sid && r.runId = k
  | .stopping _ r | .closing _ r _ true => r.strategyId = sid && r.runId = k
  | _ => false

/-- Run `k` of `sid` has a holder. -/
def State.Holds (s : State) (sid k : Nat) : Prop :=
  (∃ r, s.running.get sid = some r ∧ r.runId = k) ∨ ∃ w, (s.workers w).holds sid k = true

def Registering.outside : Registering → Bool
  | .returning => false
  | _ => true

/-- Registrations do not overlap, every open run has a holder, and a registration past its status
    write leaves a runnable status and no HALTED of a trip behind it. -/
structure Held (s : State) : Prop where
  log : Each Clean s.log
  holder : ∀ sid k, OpenRun s.runs sid k → s.Holds sid k
  alone : ∀ w c sid phase w' c' phase', s.workers w = .registering c sid phase →
    s.workers w' = .registering c' sid phase' → w' = w
  outside : ∀ w c sid phase, s.workers w = .registering c sid phase → phase.outside = true →
    s.running.get sid = none
  runnable : ∀ w sid, (s.workers w).settles sid = true →
    ∃ status, s.status sid = some status ∧ status.runnable = true
  unhalted : ∀ w c sid phase, s.workers w = .registering c sid phase →
    ∀ time, Event.wrote sid .halted .breaker time ∉ since (.called w sid) s.log

section Runs
variable {s s' : State} {w sid k : Nat} {inp : Input} {worker : Worker}

lemma openRun_close {runs : List StrategyRun} {j : Nat} {status : StrategyStatus} {time : Instant} :
    OpenRun (closeRun runs j status time) sid k ↔ OpenRun runs sid k ∧ k ≠ j := by
  unfold OpenRun closeRun
  rw [Table.getElem?_amend]
  by_cases eq : j = k
  · subst eq
    simp
  · simp [eq, Ne.symm eq]

lemma openRun_append {runs : List StrategyRun} {i : Nat} {status : StrategyStatus}
    (h : OpenRun (runs ++ [⟨i, status, none⟩]) sid k) : OpenRun runs sid k ∨ (i = sid ∧ k = runs.length) := by
  obtain ⟨run, get, own, isOpen⟩ := h
  rcases Nat.lt_trichotomy k runs.length with lt | eq | gt
  · rw [getElem?_append_left lt] at get
    exact .inl ⟨run, get, own, isOpen⟩
  · subst eq
    rw [getElem?_concat_length] at get
    cases get
    exact .inr ⟨own, rfl⟩
  · rw [getElem?_eq_none (by simp; omega)] at get
    cases get

lemma closing_runs {c : Caller} {r : RunningStrategy} {loaded : Option StrategyStatus} {isOpen : Bool}
    (st : go s w inp (.closing c r loaded isOpen) = some s') :
    s'.runs = if isOpen then closeRun s.runs r.runId .idle s.clock else s.runs := by
  simp only [go] at st
  cases st
  rw [returnTo_fields.2.2.1]
  have closed : (if isOpen then s.close r.runId .idle else s).runs =
      if isOpen then closeRun s.runs r.runId .idle s.clock else s.runs := by split <;> rfl
  cases loaded with
  | none => exact closed
  | some status =>
    rw [← closed]
    by_cases runnable : status.runnable = true
    · simp only [runnable, if_true]
      rfl
    · simp only [runnable]
      rfl

lemma go_openRun (st : go s w inp worker = some s') (now : OpenRun s'.runs sid k) :
    OpenRun s.runs sid k ∨ ∃ c row a cls, worker = .registering c sid (.opening row a cls) ∧ k = s.runs.length := by
  have same {t : State} (eq : t.runs = s.runs) (now : OpenRun t.runs sid k) : OpenRun s.runs sid k :=
    eq ▸ now
  revert st
  cases worker with
  | idle | stopped => simp [go]
  | registering c i phase =>
    simp only [go]
    rintro ⟨⟩
    cases phase with
    | opening row a cls =>
      rcases openRun_append now with old | ⟨rfl, rfl⟩
      · exact .inl old
      · exact .inr ⟨c, row, a, cls, rfl, rfl⟩
    | checking | loading | starting | rechecking =>
      left
      revert now
      simp only [goRegister]
      repeat' split
      all_goals intro now
      all_goals exact same (by simp) now
    | committing | putting | returning | marking =>
      exact .inl (same (by simp [goRegister, State.returned]) now)
  | unloaded => simp only [go]; rintro ⟨⟩; exact .inl (same (by simp) now)
  | stopping | resetting | booting | tripping | evicting =>
    simp only [go]; rintro ⟨⟩; exact .inl (same rfl now)
  | closing c r loaded isOpen =>
    intro st
    left
    rw [closing_runs st] at now
    split at now
    · exact (openRun_close.1 now).1
    · exact now
  | dispatching => simp only [go]; rintro ⟨⟩; exact .inl (same goDispatch_fields.2.2.1 now)
  | failing => simp only [go]; split <;> rintro ⟨⟩ <;> exact .inl (same rfl now)
  | erroring path pending i loaded =>
    simp only [go]
    rintro ⟨⟩
    left
    revert now
    split
    · exact fun now => (openRun_close.1 now).1
    · exact same rfl
  | activating i phase =>
    simp only [go]
    rintro ⟨⟩
    left
    cases phase with
    | initiated => exact same beginUnregister_fields.2.2 now
    | promoted => exact same (by simp [goActivate]) now
    | completing =>
      revert now
      simp only [goActivate]
      repeat' split
      all_goals exact same rfl
    | _ => exact same rfl now
  | shuttingDown rest =>
    cases rest <;> simp only [go] <;> rintro ⟨⟩ <;> exact .inl (same (by simp) now)
  | resuming rest began =>
    cases rest with
    | nil => simp only [go]; rintro ⟨⟩; left; revert now; split <;> exact same rfl
    | cons => simp only [go]; rintro ⟨⟩; exact .inl (same (by simp) now)

lemma holder_go (keyed : Keyed s) (h : Held s) (serial : Serial s (.go w inp))
    (st : go s w inp (s.workers w) = some s') (now : OpenRun s'.runs sid k) : s'.Holds sid k := by
  have frame := go_frame st
  rcases go_openRun st now with old | ⟨c, row, a, cls, here, rfl⟩
  · rcases h.holder sid k old with ⟨r, get, rfl⟩ | ⟨w', holds⟩
    · rcases go_running st sid with same | ⟨none, ⟨path, pending, here⟩ | ⟨c, r', stop, get'⟩⟩ | ⟨c, r', here, -⟩
      · exact .inl ⟨r, same.trans get, rfl⟩
      · exact absurd old (serial.evict w inp path pending sid rfl here r get)
      · cases get.symm.trans get'
        exact .inr ⟨w, by rw [stop]; simp [Worker.holds, keyed.running sid r get]⟩
      · cases (h.outside w c sid _ here rfl).symm.trans get
    · by_cases eq : w' = w
      · subst eq
        cases here : s.workers w' with
        | registering c i phase =>
          rw [here] at st holds
          simp only [go] at st
          cases st
          cases phase with
          | committing row r =>
            exact .inr ⟨w', by simp only [goRegister, State.move_workers, Function.update_self]; exact holds⟩
          | putting r =>
            simp only [Worker.holds, Bool.and_eq_true, decide_eq_true_eq] at holds
            obtain ⟨rfl, rfl⟩ := holds
            exact .inl ⟨r, Dict.get_set_self, rfl⟩
          | _ => cases holds
        | stopping c r =>
          rw [here] at st holds
          simp only [Worker.holds, Bool.and_eq_true, decide_eq_true_eq] at holds
          obtain ⟨rfl, rfl⟩ := holds
          obtain ⟨run, get, -, isOpen⟩ := old
          simp only [go] at st
          cases st
          refine .inr ⟨w', ?_⟩
          simp [Worker.holds, get, isOpen]
        | closing c r loaded isOpen =>
          rw [here] at st holds
          cases isOpen with
          | false => cases holds
          | true =>
            simp only [Worker.holds, Bool.and_eq_true, decide_eq_true_eq] at holds
            obtain ⟨rfl, rfl⟩ := holds
            -- the step closes the run it holds
            rw [closing_runs st, if_pos rfl] at now
            exact absurd rfl (openRun_close.1 now).2
        | _ => rw [here] at holds; cases holds
      · exact .inr ⟨w', by rw [frame.workers w' eq]; exact holds⟩
  · rw [here] at st
    simp only [go] at st
    cases st
    exact .inr ⟨w, by simp [goRegister, Worker.holds, newRunning]⟩

lemma alone_go (h : Held s) (serial : Serial s (.go w inp)) (st : go s w inp (s.workers w) = some s')
    {w₁ w₂ : Nat} {c₁ c₂ : Caller} {phase₁ phase₂ : Registering} (first : s'.workers w₁ = .registering c₁ sid phase₁)
    (second : s'.workers w₂ = .registering c₂ sid phase₂) : w₂ = w₁ := by
  have frame := go_frame st
  -- whoever registers after the step registered before it, or has just called with nobody in flight
  have back {w' : Nat} {c : Caller} {phase : Registering} (now : s'.workers w' = .registering c sid phase) :
      (w' = w ∧ ∀ w c phase, s.workers w ≠ .registering c sid phase) ∨
        ∃ phase', s.workers w' = .registering c sid phase' := by
    by_cases eq : w' = w
    · subst eq
      rcases go_registering st now with ⟨_, -, -, calls, -⟩ | ⟨before, here, -⟩
      · exact .inl ⟨rfl, (serial.call sid calls).1⟩
      · exact .inr ⟨before, here⟩
    · exact .inr ⟨phase, by rw [← frame.workers w' eq]; exact now⟩
  rcases back first with ⟨rfl, none⟩ | ⟨_, before₁⟩ <;> rcases back second with ⟨rfl, none'⟩ | ⟨_, before₂⟩
  · rfl
  · exact absurd before₂ (none _ _ _)
  · exact absurd before₁ (none' _ _ _)
  · exact h.alone _ _ _ _ _ _ _ before₁ before₂

lemma outside_go (h : Held s) (st : go s w inp (s.workers w) = some s') {w' : Nat} {c : Caller}
    {phase : Registering} (now : s'.workers w' = .registering c sid phase) (out : phase.outside = true) :
    s'.running.get sid = none := by
  have frame := go_frame st
  -- only a `putting` of this strategy could have inserted
  have kept (out : s.running.get sid = none)
      (notPut : ∀ c r, s.workers w ≠ .registering c sid (.putting r)) : s'.running.get sid = none := by
    rcases go_running st sid with same | ⟨gone, -⟩ | ⟨c, r, here, -⟩
    · exact same.trans out
    · exact gone
    · exact absurd here (notPut c r)
  by_cases eq : w' = w
  · subst eq
    rcases go_registering st now with ⟨_, -, none, calls, -⟩ | ⟨before, here, next⟩
    · refine kept none fun c r eq => ?_
      rw [eq] at calls
      cases calls
    · have outBefore : before.outside = true := by cases next <;> rfl
      refine kept (h.outside w' c sid before here outBefore) fun c' r eq => ?_
      rw [here] at eq
      cases eq
      cases next
      cases out
  · have before := frame.workers w' eq ▸ now
    refine kept (h.outside w' c sid phase before out) fun c' r put => ?_
    exact eq (h.alone w c' sid _ w' c phase put before)

lemma runStatus_runnable {row : Strategy} : (runStatus row).runnable = true := by
  unfold runStatus
  split
  · rfl
  · split <;> rfl

lemma runnable_go (lineage : Lineage s) (h : Held s) (serial : Serial s (.go w inp))
    (st : go s w inp (s.workers w) = some s') {w' : Nat} (settles : (s'.workers w').settles sid = true) :
    ∃ status, s'.status sid = some status ∧ status.runnable = true := by
  have frame := go_frame st
  have row : s'.strategies[sid]? = s.strategies[sid]?.map ((s.workers w).rewrite sid ·) := go_row st
  have kept (same : ∀ row, (s.workers w).rewrite sid row = row)
      (old : ∃ status, s.status sid = some status ∧ status.runnable = true) :
      ∃ status, s'.status sid = some status ∧ status.runnable = true := by
    obtain ⟨status, get, runnable⟩ := old
    obtain ⟨old, was, rfl⟩ := Option.map_eq_some_iff.1 get
    rw [was, Option.map_some, same] at row
    exact ⟨old.status, by rw [State.status, row]; rfl, runnable⟩
  by_cases eq : w' = w
  · subst eq
    cases now : s'.workers w' with
    | registering c i phase =>
      rw [now] at settles
      rcases go_registering st now with ⟨_, rfl, -⟩ | ⟨before, here, next⟩
      · cases settles
      · rw [here] at row kept
        have old := h.runnable w' sid
        rw [here] at old
        cases next with
        | loaded intent loaded a get account =>
          simp only [Worker.settles, Bool.and_eq_true, decide_eq_true_eq] at settles
          obtain ⟨rfl, same⟩ := settles
          exact kept (fun _ => rfl) ⟨loaded.status, by rw [State.status, get]; rfl, same ▸ runStatus_runnable⟩
        | initialized | rechecked | opened => exact kept (fun _ => rfl) (old settles)
        | committed loaded r =>
          have eq : i = sid := by simpa [Worker.settles] using settles
          subst eq
          by_cases same : runStatus loaded = loaded.status
          · exact kept (fun _ => by simp [Worker.rewrite, setStatus, same])
              (old (by simp [Worker.settles, same]))
          · obtain ⟨old, was, -⟩ := lineage.loaded w' c i _ loaded here rfl
            rw [was] at row
            exact ⟨runStatus loaded, by rw [State.status, row]; simp [Worker.rewrite, setStatus, same],
              runStatus_runnable⟩
        | stored => exact kept (fun _ => rfl) (old settles)
        | checked | unbound | raised => cases settles
    | _ => rw [now] at settles; cases settles
  · rw [frame.workers w' eq] at settles
    obtain ⟨status, get, runnable⟩ := h.runnable w' sid settles
    obtain ⟨old, was, rfl⟩ := Option.map_eq_some_iff.1 get
    rw [was, Option.map_some] at row
    refine ⟨_, by rw [State.status, row]; rfl, ?_⟩
    by_contra not
    rw [serial.status w inp sid old rfl was runnable (Bool.eq_false_of_not_eq_true not) w' eq] at settles
    cases settles

lemma unhalted_go (h : Held s) (serial : Serial s (.go w inp)) (st : go s w inp (s.workers w) = some s')
    {w' : Nat} {c : Caller} {phase : Registering} (now : s'.workers w' = .registering c sid phase)
    (time : Instant) : Event.wrote sid .halted .breaker time ∉ since (.called w' sid) s'.log := by
  have frame := go_frame st
  have before : (s'.log = .called w' sid :: s.log) ∨ ∃ phase', s.workers w' = .registering c sid phase' := by
    by_cases eq : w' = w
    · subst eq
      rcases go_registering st now with ⟨_, -, -, -, log⟩ | ⟨before, here, -⟩
      · exact .inl log
      · exact .inr ⟨before, here⟩
    · exact .inr ⟨phase, frame.workers w' eq ▸ now⟩
  rcases before with log | ⟨phase', before⟩
  · rw [log]
    exact not_mem_since_mark
  intro mem
  obtain ⟨evs, eq, own⟩ := frame.log
  rw [eq] at mem
  rcases mem_or_mem_of_since_append mem with new | old
  · have source := (own _ new).2
    cases here : s.workers w with
    | tripping a halts =>
      rw [here] at st
      simp only [go] at st
      cases st
      have mem : Event.wrote sid .halted .breaker time ∈
          Event.tripped a (boundTo s a) :: halts.map (Event.wrote · .halted .breaker s.clock) := by
        have eq : Event.tripped a (boundTo s a) :: (halts.map (Event.wrote · .halted .breaker s.clock) ++ s.log) =
          evs ++ s.log := eq
        rw [← cons_append] at eq
        rw [append_cancel_right eq]
        exact new
      simp only [mem_cons, reduceCtorEq, mem_map, Event.wrote.injEq, false_or] at mem
      obtain ⟨_, halted, rfl, -⟩ := mem
      exact serial.trip w inp a halts rfl here _ halted w' c phase' before
    | _ => rw [here] at source; cases source
  · exact h.unhalted w' c sid phase' before time old

end Runs

/-! ## What is recorded -/

section Log
variable {s s' : State} {w sid : Nat} {inp : Input} {worker : Worker}

lemma clean_beginRegister {c : Caller} {intent : RegistrationIntent} (log : Each Clean s.log)
    (call : ∀ r, s.running.get sid = some r → ∃ status, s.status sid = some status ∧ status.runnable = true) :
    Each Clean (s.beginRegister w c sid intent).log :=
  each_beginRegister log
    (fun r get => each_returnTo (each_cons.2 ⟨call r get, log⟩) fun _ _ => trivial) trivial

lemma clean_go (h : Held s) (serial : Serial s (.go w inp)) (st : go s w inp (s.workers w) = some s') :
    Each Clean s'.log := by
  have log := h.log
  have call := serial.call
  simp only [registers] at call
  cases here : s.workers w with
  | idle | stopped => rw [here] at st; cases st
  | registering c i phase =>
    have unhalted := h.unhalted w c i phase here
    have left {t : State} {ok : Bool} (log : Each Clean t.log) : Each Clean (t.returnTo w i ok c).log :=
      each_returnTo log fun _ _ => trivial
    rw [here] at st
    simp only [go] at st
    cases st
    cases phase with
    | checking | loading | starting | rechecking =>
      simp only [goRegister]
      repeat' split
      all_goals first | exact left log | exact log
    | opening => exact each_cons.2 ⟨trivial, log⟩
    | committing => exact each_cons.2 ⟨trivial, each_write log fun _ => unhalted⟩
    | putting r =>
      refine each_cons.2 ⟨?_, log⟩
      show s.running.contains i = false
      rw [Dict.contains, h.outside w c i _ here rfl]
      rfl
    | returning =>
      refine left (each_cons.2 ⟨?_, log⟩)
      exact h.runnable w i (by rw [here]; simp [Worker.settles])
    | marking => exact left (each_write log fun _ => unhalted)
  | unloaded i =>
    rw [here] at st call
    simp only [go] at st
    cases st
    exact clean_beginRegister log (call i rfl).2
  | stopping | booting | evicting => rw [here] at st; simp only [go] at st; cases st; exact log
  | resetting => rw [here] at st; simp only [go] at st; cases st; exact each_cons.2 ⟨trivial, log⟩
  | closing c r loaded isOpen =>
    rw [here] at st
    simp only [go] at st
    cases st
    refine each_returnTo ?_ fun _ _ => trivial
    have closed : Each Clean (if isOpen then s.close r.runId .idle else s).log := by
      split <;> exact log
    cases loaded with
    | none => exact closed
    | some status =>
      by_cases runnable : status.runnable = true
      · simp only [runnable, if_true]
        exact each_write closed fun _ => trivial
      · simp only [runnable]
        exact closed
  | dispatching path pending phase =>
    rw [here] at st
    simp only [go] at st
    cases st
    have read {evs : List Event} (reads : ∀ e ∈ evs, e.isRead = true) : ∀ e ∈ evs, ∀ earlier, Clean e earlier := by
      intro e mem earlier
      have := reads e mem
      cases e <;> trivial
    rcases entry_goDispatch s w inp path pending phase with ⟨evs, eq, reads⟩ | ⟨r, evs, eq, reads, -⟩
    · rw [eq]
      exact log.append (read reads)
    · rw [eq]
      exact each_cons.2 ⟨trivial, log.append (read reads)⟩
  | failing =>
    rw [here] at st
    simp only [go] at st
    split at st <;> cases st <;> exact log
  | erroring =>
    rw [here] at st
    simp only [go] at st
    cases st
    split <;> exact each_write log fun _ => trivial
  | activating i phase =>
    rw [here] at st call
    simp only [go] at st
    cases st
    refine each_goActivate log (fun status writer _ other => ?_) ?_ ?_
    · cases writer with
      | register v => exact (other v rfl).elim
      | _ => trivial
    · rintro row rfl
      exact each_cons.2 ⟨trivial, each_write log fun _ => trivial⟩
    · rintro rfl
      exact clean_beginRegister log (call i rfl).2
  | tripping a halts =>
    rw [here] at st
    simp only [go] at st
    cases st
    refine each_cons.2 ⟨trivial, log.append ?_⟩
    intro e mem earlier
    obtain ⟨_, -, rfl⟩ := mem_map.1 mem
    trivial
  | shuttingDown rest =>
    rw [here] at st
    cases rest with
    | nil => simp only [go] at st; cases st; exact log
    | cons => simp only [go] at st; cases st; exact each_beginUnregister log (by simp)
  | resuming rest began =>
    rw [here] at st call
    cases rest with
    | nil =>
      simp only [go] at st
      cases st
      split <;> [exact each_cons.2 ⟨trivial, log⟩; exact log]
    | cons i => simp only [go] at st; cases st; exact clean_beginRegister log (call i rfl).2

lemma clean_arrive {l : Label} (log : Each Clean s.log) (serial : Serial s l) (st : arrive s l = some s') :
    Each Clean s'.log := by
  revert st
  cases l <;> simp only [arrive, reduceCtorEq, false_imp_iff]
  case register sid _ => rintro ⟨⟩; exact clean_beginRegister log (serial.call sid rfl).2
  case unregister => rintro ⟨⟩; exact each_beginUnregister log (by simp)
  case reload =>
    repeat' split
    all_goals rintro ⟨⟩
    all_goals first | exact log | exact each_beginUnregister log (by simp)
  case barTick | overlayTick | eventBar | eventFallback | signal | fill =>
    rintro ⟨⟩
    exact each_cons.2 ⟨trivial, log⟩
  all_goals
    repeat' split
    all_goals rintro ⟨⟩
    all_goals exact log

end Log

/-! ## Runs of the system -/

lemma held_step {s s' : State} {l : Label} (keyed : Keyed s) (lineage : Lineage s) (h : Held s)
    (serial : Serial s l) (st : step s l = some s') : Held s' := by
  replace st := step_cases st
  rcases st with ⟨_, _, rfl, -⟩ | ⟨_, -, rfl⟩ | ⟨w, rfl, rfl⟩ | ⟨w, inp, rfl, st⟩ | ⟨w, target, free, st⟩
  · exact ⟨h.log, h.holder, h.alone, h.outside, h.runnable, h.unhalted⟩
  · exact ⟨h.log, h.holder, h.alone, h.outside, h.runnable, h.unhalted⟩
  · have away := restart_workers (show step s (.restart w) = some _ from rfl)
    refine ⟨h.log, ?_, ?_, ?_, ?_, ?_⟩
    · intro sid k isOpen
      exact absurd isOpen (serial.restart w rfl sid k)
    · intro w' c sid phase w'' c' phase' now
      rcases away w' with eq | ⟨_, eq⟩ <;> cases eq.symm.trans now
    · intro w' c sid phase now
      rcases away w' with eq | ⟨_, eq⟩ <;> cases eq.symm.trans now
    · intro w' sid settles
      rcases away w' with eq | ⟨_, eq⟩ <;> rw [eq] at settles <;> cases settles
    · intro w' c sid phase now
      rcases away w' with eq | ⟨_, eq⟩ <;> cases eq.symm.trans now
  · exact ⟨clean_go h serial st, fun sid k => holder_go keyed h serial st,
      fun _ _ _ _ _ _ _ => alone_go h serial st, fun _ _ _ _ => outside_go h st,
      fun _ _ => runnable_go lineage h serial st, fun _ _ _ _ => unhalted_go h serial st⟩
  · have frame := arrive_frame target st
    have fields := arrive_fields st
    -- a registration in flight was in flight, or has just been called
    have back {w' sid : Nat} {c : Caller} {phase : Registering}
        (now : s'.workers w' = .registering c sid phase) :
        (w' = w ∧ registers s l = some sid ∧ s.running.get sid = none ∧ s'.log = .called w' sid :: s.log) ∨
          s.workers w' = .registering c sid phase := by
      by_cases eq : w' = w
      · subst eq
        obtain ⟨_, -, none, rfl, log⟩ := arrive_registering target free st now
        exact .inl ⟨rfl, rfl, none, log⟩
      · exact .inr (frame.workers w' eq ▸ now)
    have dropped {sid : Nat} (out : s.running.get sid = none) : s'.running.get sid = none := by
      rcases arrive_running target st sid with same | ⟨gone, -⟩
      · exact same.trans out
      · exact gone
    refine ⟨clean_arrive h.log serial st, ?_, ?_, ?_, ?_, ?_⟩
    · intro sid k isOpen
      rw [fields.2.2] at isOpen
      rcases h.holder sid k isOpen with ⟨r, get, rfl⟩ | ⟨w', holds⟩
      · rcases arrive_running target st sid with same | ⟨-, c, r', stop, get'⟩
        · exact .inl ⟨r, same.trans get, rfl⟩
        · cases get.symm.trans get'
          exact .inr ⟨w, by rw [stop]; simp [Worker.holds, keyed.running sid r get]⟩
      · refine .inr ⟨w', ?_⟩
        rw [frame.workers w']
        · exact holds
        · rintro rfl
          rw [free] at holds
          cases holds
    · intro w₁ c₁ sid phase₁ w₂ c₂ phase₂ first second
      rcases back first with ⟨rfl, calls, -⟩ | before₁ <;> rcases back second with ⟨rfl, calls', -⟩ | before₂
      · rfl
      · exact absurd before₂ ((serial.call sid calls).1 _ _ _)
      · exact absurd before₁ ((serial.call sid calls').1 _ _ _)
      · exact h.alone _ _ _ _ _ _ _ before₁ before₂
    · intro w' c sid phase now out
      rcases back now with ⟨-, -, none, -⟩ | before
      · exact dropped none
      · exact dropped (h.outside w' c sid phase before out)
    · intro w' sid settles
      have same : s'.status sid = s.status sid := by rw [State.status, fields.1]; rfl
      rw [same]
      by_cases eq : w' = w
      · subst eq
        cases now : s'.workers w' with
        | registering c i phase =>
          obtain ⟨_, rfl, -⟩ := arrive_registering target free st now
          rw [now] at settles
          cases settles
        | _ => rw [now] at settles; cases settles
      · exact h.runnable w' sid (frame.workers w' eq ▸ settles)
    · intro w' c sid phase now time
      rcases back now with ⟨-, -, -, log⟩ | before
      · rw [log]
        exact not_mem_since_mark
      · obtain ⟨evs, eq, own⟩ := frame.log
        intro mem
        rw [eq] at mem
        rcases mem_or_mem_of_since_append mem with new | old
        · cases (own _ new).2
        · exact h.unhalted w' c sid phase before time old

lemma Held.linear {s : State} (h : Held s) : Linear s := by
  refine ⟨?_, h.log⟩
  intro sid quiet k isOpen
  rcases h.holder sid k isOpen with held | ⟨w, holds⟩
  · exact held
  · -- a worker that holds a run of the strategy operates on it
    have idle := quiet w
    cases here : s.workers w with
    | registering c i phase =>
      rw [here] at holds idle
      cases phase <;> simp_all [Worker.holds, Worker.operates]
    | stopping c r => rw [here] at holds idle; simp_all [Worker.holds, Worker.operates]
    | closing c r loaded isOpen =>
      rw [here] at holds idle
      cases isOpen <;> simp_all [Worker.holds, Worker.operates]
    | _ => rw [here] at holds; cases holds

/-- In every run that meets `Serial`, registration is linear in every state reached. -/
theorem registration_linearizable {strategies : List Strategy} {accounts : Dict Nat Account}
    {holds : Nat → Bool} {clock : Instant} {labels : List Label} {s : State}
    (serial : engine.Meets Serial (start strategies accounts holds clock) labels)
    (run : engine.run (start strategies accounts holds clock) labels = some s) : Linear s := by
  have init : Held (start strategies accounts holds clock) := by
    refine ⟨each_nil, ?_, ?_, ?_, ?_, ?_⟩
    · rintro sid k ⟨run, get, -⟩
      simp [start] at get
    · intro w c sid phase w' c' phase' now
      cases now
    · intro w c sid phase now
      cases now
    · intro w sid settles
      cases settles
    · intro w c sid phase now
      cases now
  have held := run_invariant (I := fun s => Keyed s ∧ Lineage s ∧ Held s)
    (fun inv serial st => ⟨keyed_step inv.1 st, lineage_step inv.2.1 st,
      held_step inv.1 inv.2.1 inv.2.2 serial st⟩)
    ⟨keyed_start, lineage_start, init⟩ serial run
  exact held.2.2.linear

/-- Two registrations that overlap, a crash, a trip while the boot registers, and an `unregister` that
    commits while a registration returns. -/
def racingLabels : List Label :=
  [Label.register 0 0 .activate, .register 1 0 .activate] ++ List.replicate 8 (Label.go 0 {}) ++
    List.replicate 8 (Label.go 1 {}) ++ [Label.restart 0, .go 0 {}, .go 0 {}, .trip 1 7, .go 1 {}] ++
    List.replicate 9 (Label.go 0 {}) ++ [Label.unregister 0 0, .register 1 0 .activate] ++
    List.replicate 7 (Label.go 1 {}) ++ [Label.go 0 {}, .go 0 {}, .go 1 {}]

/-- With nothing in flight two runs are open that nobody holds, one registration has overwritten the
    other, one returned with IDLE, and one wrote PAPER over the HALTED of a trip. -/
theorem racing_registrations_not_linear :
    ∃ s, engine.run (start [eventStrategy] paperAccounts (fun _ => false) 0) racingLabels = some s ∧
      (s.workers 0 = .idle ∧ s.workers 1 = .idle) ∧
      (s.runs.map (·.endedAt) = [none, none, some 0, none] ∧ s.running.values.map (·.runId) = [3]) ∧
      Event.put 0 true ∈ s.log ∧ Event.registered 0 (some .idle) ∈ s.log ∧
      lastWrite 0 (s.log.drop 10) = some (.halted, .breaker, 0) ∧
      s.log[9]? = some (.wrote 0 .paper (.register 0) 0) ∧ ¬ Linear s := by
  refine exists_run (by decide +kernel) fun s run => ?_
  have workers : (s.workers 0, s.workers 1) = (.idle, .idle) :=
    Machine.observe (t := s) (f := fun s => (s.workers 0, s.workers 1)) run (by decide +kernel)
  have runs : (s.runs.map (·.endedAt), s.running.values.map (·.runId)) = ([none, none, some 0, none], [3]) :=
    Machine.observe (t := s) (f := fun s => (s.runs.map (·.endedAt), s.running.values.map (·.runId))) run
      (by decide +kernel)
  have log : (decide (Event.put 0 true ∈ s.log), decide (Event.registered 0 (some .idle) ∈ s.log)) = (true, true) :=
    Machine.observe (t := s) (f := fun s => (decide (Event.put 0 true ∈ s.log),
      decide (Event.registered 0 (some .idle) ∈ s.log))) run (by decide +kernel)
  have halted : (lastWrite 0 (s.log.drop 10), s.log[9]?) =
      (some (.halted, .breaker, 0), some (.wrote 0 .paper (.register 0) 0)) :=
    Machine.observe (t := s) (f := fun s => (lastWrite 0 (s.log.drop 10), s.log[9]?)) run (by decide +kernel)
  simp only [Prod.mk.injEq, decide_eq_true_eq] at workers runs log halted
  refine ⟨workers, runs, log.1, log.2, halted.1, halted.2, ?_⟩
  intro linear
  obtain ⟨later, earlier, eq⟩ := append_of_mem log.1
  cases linear.log later _ earlier eq

/-- A decidable condition that gives `Serial` when only worker `0` is used. -/
def soloSerial (s : State) (l : Label) : Bool :=
  l.worker.getD 0 = 0 &&
  ((registers s l).all fun sid => (match s.workers 0 with | .registering .. => false | _ => true) &&
    ((s.running.get sid).isNone || (s.status sid).any (·.runnable))) &&
  (match s.workers 0 with
    | .evicting _ _ sid => (s.running.get sid).all fun r => (s.runs[r.runId]?).all (·.endedAt.isSome)
    | _ => true) &&
  match l with
  | .restart _ => s.runs.all (·.endedAt.isSome)
  | _ => true

lemma serial_of_solo {s : State} {l : Label} (solo : Solo s) (h : soloSerial s l = true) : Serial s l := by
  simp only [soloSerial, Bool.and_eq_true, decide_eq_true_eq] at h
  obtain ⟨⟨⟨own, call⟩, evict⟩, restart⟩ := h
  have zero {w : Nat} {inp : Input} (eq : l = .go w inp) : w = 0 := by
    subst eq
    simpa [Label.worker] using own
  -- every other worker is idle
  have others {w w' : Nat} (eq : w = 0) (ne : w' ≠ w) : s.workers w' = .idle := solo w' (eq ▸ ne)
  refine ⟨?_, ?_, ?_, ?_, ?_⟩
  · intro sid calls
    simp only [calls, Option.all_some, Bool.and_eq_true, Bool.or_eq_true] at call
    refine ⟨?_, ?_⟩
    · intro w c phase registering
      by_cases eq : w = 0
      · subst eq
        rw [registering] at call
        cases call.1
      · rw [solo w eq] at registering
        cases registering
    · intro r get
      rcases call.2 with none | runnable
      · rw [get] at none
        cases none
      · cases status : s.status sid with
        | none => rw [status] at runnable; cases runnable
        | some status' => rw [status] at runnable; exact ⟨status', rfl, runnable⟩
  · rintro w inp path pending sid l here r get ⟨run, found, -, isOpen⟩
    have eq := zero l
    subst eq
    rw [here] at evict
    simp only [get, Option.all_some, found, isOpen] at evict
    cases evict
  · rintro w rfl sid k ⟨run, get, -, isOpen⟩
    have ended := all_eq_true.1 restart run (mem_of_getElem? get)
    rw [isOpen] at ended
    cases ended
  · intro w inp a halts l here sid mem w' c phase registering
    by_cases eq : w' = w
    · rw [eq, here] at registering
      cases registering
    · rw [others (zero l) eq] at registering
      cases registering
  · intro w inp sid row l get was not w' ne
    rw [others (zero l) ne]
    rfl

/-- A strategy whose hook raises is closed, evicted and registered again. -/
theorem reregistration_linear :
    ∃ s, engine.run (start [eventStrategy] paperAccounts (fun _ => false) 0)
        (registration 0 ++ .barTick 0 0 :: (List.replicate 5 (.go 0 {}) ++
          .go 0 { raised := true } :: List.replicate 4 (.go 0 {})) ++ registration 0) = some s ∧
      (s.runs.map (·.endedAt) = [some 0, none] ∧ s.running.values.map (·.runId) = [1]) ∧ Linear s := by
  refine exists_run (by decide +kernel) fun s run => ?_
  have runs : (s.runs.map (·.endedAt), s.running.values.map (·.runId)) = ([some 0, none], [1]) :=
    Machine.observe (t := s) (f := fun s => (s.runs.map (·.endedAt), s.running.values.map (·.runId))) run
      (by decide +kernel)
  rw [Prod.mk.injEq] at runs
  refine ⟨runs, registration_linearizable (Machine.Meets.of_invariant (I := Solo)
    (D := fun s l => soloSerial s l = true) ?_ serial_of_solo ?_ (by decide +kernel)) run⟩
  · intro s l t solo ok st
    refine solo_step solo ?_ st
    intro w worker
    simp only [soloSerial, Bool.and_eq_true, decide_eq_true_eq, worker] at ok
    exact ok.1.1.1
  · intro w _
    rfl

end Workbench.Strategies
