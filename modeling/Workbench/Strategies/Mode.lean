import Workbench.Strategies.Effects

/-!
# The account of a dispatch and the status of its strategy

A registration binds the live account if and only if it read LIVE, and keeps the instance until it is
unregistered; `unregister`, the activation service and the breaker rewrite the status meanwhile.
`Agreed` says that an `on_bar` is entered with a live account exactly while the status is LIVE, and
`FitsAt` is when the rewrites and the ungated fallback leave it so.
-/

namespace Workbench.Strategies
open Workbench.Lib Workbench.Lib.Record List Function

/-- An `on_bar` is entered with the live account if and only if the persisted status is LIVE. -/
def Agreed : Event → List Event → Prop
  | .entered _ path _ mode status, _ => path.onBar = true → (mode = some .live ↔ status = some .live)
  | _, _ => True

/-! ## Which account an instance is bound to -/

/-- The (strategy, account) pairs a worker has in hand and may still run. -/
@[grind] def Worker.bindings : Worker → List (Nat × Nat)
  | .registering _ sid (.starting _ _ a) | .registering _ sid (.rechecking _ a _)
  | .registering _ sid (.opening _ a _) => [(sid, a)]
  | .registering _ sid (.committing _ r) | .registering _ sid (.putting r) => [(sid, r.accountId)]
  | .dispatching _ pending .next | .failing _ pending _ | .erroring _ pending _ _
  | .evicting _ pending _ => pending.map fun r => (r.strategyId, r.accountId)
  | .dispatching _ pending (.status r) | .dispatching _ pending (.session r)
  | .dispatching _ pending (.claim r) | .dispatching _ pending (.fetch r _)
  | .dispatching _ pending (.hook r _) => (r :: pending).map fun r => (r.strategyId, r.accountId)
  | _ => []

/-- An instance of the strategy on this account is registered, or in hand. -/
def State.Bound (s : State) (sid a : Nat) : Prop :=
  (∃ r, s.running.get sid = some r ∧ r.accountId = a) ∨ ∃ w, (sid, a) ∈ (s.workers w).bindings

def State.Live (s : State) (a : Nat) : Prop := (s.accounts.get a).map (·.mode) = some .live

/-- A gated dispatch that has read the status and may still enter this instance. -/
@[grind] def Worker.vouches (sid a : Nat) : Worker → Bool
  | .dispatching path _ (.session r) | .dispatching path _ (.claim r)
  | .dispatching path _ (.fetch r (_ :: _)) | .dispatching path _ (.hook r (_ :: _)) =>
    path.gated && r.strategyId = sid && r.accountId = a
  | _ => false

/-! ## The condition on entries -/

/-- A status may be rewritten: LIVE when every instance is on a live account, PAPER or PAPER_VARIANT
    when none is, and away from LIVE when no dispatch past its status read is. -/
structure Fits (s : State) (sid : Nat) (old new : StrategyStatus) : Prop where
  live : new = .live → ∀ a, s.Bound sid a → s.Live a
  paper : new = .paper ∨ new = .paperVariant → ∀ a, s.Bound sid a → ¬ s.Live a
  away : old = .live → ∀ w a, (s.workers w).vouches sid a = true → ¬ s.Live a

/-- Every status a worker's step rewrites may be rewritten so, and the fallback, which reads no
    status, enters an instance on a live account only while the status is LIVE. -/
structure FitsAt (s : State) (inp : Input) (worker : Worker) : Prop where
  writes : ∀ sid row, s.strategies[sid]? = some row → (worker.rewrite sid row).status ≠ row.status →
    Fits s sid row.status (worker.rewrite sid row).status
  fallback : ∀ pending r symbol rest,
    worker = .dispatching .eventFallback pending (.fetch r (symbol :: rest)) → inp.bar = true →
    s.Live r.accountId → s.status r.strategyId = some .live

/-- Only a gated path reads the status, and only the fallback gets into a symbol loop without. -/
def GatedAt (path : Path) : Dispatching → Prop
  | .status _ | .session _ | .claim _ => path.gated = true
  | .fetch _ (_ :: _) | .hook _ (_ :: _) => path.gated = true ∨ path = .eventFallback
  | _ => True

/-- What holds of every instance in hand. -/
structure Matched (s : State) : Prop where
  log : Each Agreed s.log
  live : ∀ sid a, s.Bound sid a → s.Live a → s.status sid ≠ some .paper ∧ s.status sid ≠ some .paperVariant
  paper : ∀ sid a, s.Bound sid a → ¬ s.Live a → s.status sid ≠ some .live
  vouched : ∀ w sid a, (s.workers w).vouches sid a = true → s.Live a → s.status sid = some .live
  gated : ∀ w path pending phase, s.workers w = .dispatching path pending phase → GatedAt path phase

section Bindings
variable {s s' : State} {w sid a : Nat} {inp : Input} {worker : Worker}

lemma Frame.live_iff (frame : Frame w worker s s') : s'.Live a ↔ s.Live a := by
  have same := frame.modes ⟨0, a, 0, [], "", false, false⟩
  simp only [boundMode] at same
  unfold State.Live
  rw [same]

lemma resolveAccount_mode {accounts : Dict Nat Account} {userId : Nat} {mode : AccountMode}
    (h : resolveAccount accounts userId mode = some a) : (accounts.get a).map (·.mode) = some mode := by
  obtain ⟨e, found, rfl⟩ := Option.map_eq_some_iff.1 h
  have mem := mem_of_find?_eq_some found
  have ok := find?_some found
  simp only [Bool.and_eq_true, decide_eq_true_eq] at ok
  rw [Dict.get_of_mem_entries mem]
  simp [ok.2]

lemma resolveAccount_live {status : StrategyStatus} {userId : Nat}
    (h : resolveAccount s.accounts userId (accountMode status) = some a) : s.Live a ↔ status = .live := by
  unfold State.Live
  rw [resolveAccount_mode h]
  unfold accountMode
  split <;> simp_all

lemma bindings_goDispatch {path : Path} {pending : List RunningStrategy} {phase : Dispatching}
    {b : Nat × Nat} (mem : b ∈ ((goDispatch s w path pending inp phase).workers w).bindings) :
    b ∈ (Worker.dispatching path pending phase).bindings := by
  cases phase with
  | next =>
    cases pending with
    | nil => simp [goDispatch, Worker.bindings] at mem
    | cons r rest =>
      simp only [goDispatch] at mem
      repeat' split at mem
      all_goals simp only [enter, State.move_workers, update_self] at mem
      all_goals first | exact mem | exact mem_cons_of_mem _ mem
  | status r =>
    simp only [goDispatch, State.move_workers, update_self] at mem
    generalize (if inp.readable = true then s.status r.strategyId else none) = status at mem
    split at mem
    · exact mem
    · exact mem_cons_of_mem _ mem
  | session r =>
    simp only [goDispatch] at mem
    repeat' split at mem
    all_goals simp only [enter, State.move_workers, update_self] at mem
    all_goals first | exact mem | exact mem_cons_of_mem _ mem
  | claim r =>
    simp only [goDispatch, State.move_workers, update_self] at mem
    split at mem
    · exact mem
    · exact mem_cons_of_mem _ mem
  | fetch r symbols =>
    cases symbols with
    | nil =>
      simp only [goDispatch, State.move_workers, update_self] at mem
      exact mem_cons_of_mem _ mem
    | cons =>
      simp only [goDispatch] at mem
      split at mem
      all_goals simp only [enter, State.move_workers, update_self] at mem
      all_goals exact mem
  | hook r symbols =>
    simp only [goDispatch] at mem
    split at mem
    all_goals simp only [State.move_workers, update_self] at mem
    · exact mem_cons_of_mem _ mem
    · exact mem

lemma go_bindings_of_off (off : worker.inDispatch = false) (st : go s w inp worker = some s')
    (mem : (sid, a) ∈ (s'.workers w).bindings) :
    (sid, a) ∈ worker.bindings ∨
      ∃ c intent row, worker = .registering c sid (.loading intent) ∧ s.strategies[sid]? = some row ∧
        (s.Live a ↔ row.status = .live) := by
  replace off := go_inDispatch off st
  cases now : s'.workers w with
  | registering c i phase =>
    rw [now] at mem
    rcases go_registering st now with ⟨_, rfl, -⟩ | ⟨before, rfl, next⟩
    · cases mem
    · cases next with
      | loaded intent row accountId get account =>
        simp only [Worker.bindings, mem_singleton, Prod.mk.injEq] at mem
        obtain ⟨rfl, rfl⟩ := mem
        exact .inr ⟨c, intent, row, rfl, get, resolveAccount_live account⟩
      | checked | unbound | raised | stored => cases mem
      | initialized | rechecked | opened | committed => exact .inl mem
  | dispatching | failing | erroring | evicting => rw [now] at off; cases off
  | _ => rw [now] at mem; cases mem

lemma go_bindings (st : go s w inp worker = some s') (mem : (sid, a) ∈ (s'.workers w).bindings) :
    (sid, a) ∈ worker.bindings ∨
      ∃ c intent row, worker = .registering c sid (.loading intent) ∧ s.strategies[sid]? = some row ∧
        (s.Live a ↔ row.status = .live) := by
  cases worker with
  | dispatching path pending phase =>
    simp only [go] at st
    cases st
    exact .inl (bindings_goDispatch mem)
  | failing path pending i =>
    simp only [go] at st
    split at st <;> cases st <;> exact .inl (by simpa [Worker.bindings] using mem)
  | erroring path pending i loaded =>
    simp only [go] at st
    cases st
    exact .inl (by simpa [Worker.bindings] using mem)
  | evicting path pending i =>
    simp only [go] at st
    cases st
    exact .inl (by simpa [Worker.bindings] using mem)
  | _ => exact go_bindings_of_off rfl st mem

lemma arrive_bindings {l : Label} (keyed : Keyed s) (target : l.target = some w)
    (free : s.workers w = .idle) (st : arrive s l = some s') (mem : (sid, a) ∈ (s'.workers w).bindings) :
    s.Bound sid a := by
  rcases arrive_inDispatch target free st with off | ⟨path, targets, registered, rfl⟩
  · cases now : s'.workers w with
    | registering c i phase =>
      obtain ⟨_, rfl, -⟩ := arrive_registering target free st now
      rw [now] at mem
      cases mem
    | dispatching | failing | erroring | evicting => rw [now] at off; cases off
    | _ => rw [now] at mem; cases mem
  · simp only [beginDispatch, State.move_workers, update_self, Worker.bindings, mem_map,
      Prod.mk.injEq] at mem
    obtain ⟨r, mem, rfl, rfl⟩ := mem
    obtain ⟨k, get⟩ := registered r mem
    rw [keyed.running k r get]
    exact .inl ⟨r, get, rfl⟩

lemma go_bound (here : s.workers w = worker) (st : go s w inp worker = some s') (bound : s'.Bound sid a) :
    s.Bound sid a ∨ ∃ c intent row, worker = .registering c sid (.loading intent) ∧ s.strategies[sid]? = some row ∧
        (s.Live a ↔ row.status = .live) := by
  have frame := go_frame st
  rcases bound with ⟨r, get, rfl⟩ | ⟨w', mem⟩
  · rcases go_running st sid with same | ⟨none, -⟩ | ⟨c, r', rfl, put⟩
    · exact .inl (.inl ⟨r, same ▸ get, rfl⟩)
    · rw [none] at get; cases get
    · rw [put] at get
      cases get
      exact .inl (.inr ⟨w, by rw [here]; exact mem_singleton.2 rfl⟩)
  · by_cases eq : w' = w
    · subst eq
      rcases go_bindings st mem with mem | resolved
      · exact .inl (.inr ⟨w', by rw [here]; exact mem⟩)
      · exact .inr resolved
    · exact .inl (.inr ⟨w', by rw [← frame.workers w' eq]; exact mem⟩)

lemma arrive_bound {l : Label} (keyed : Keyed s) (target : l.target = some w)
    (free : s.workers w = .idle) (st : arrive s l = some s') (bound : s'.Bound sid a) : s.Bound sid a := by
  have frame := arrive_frame target st
  rcases bound with ⟨r, get, rfl⟩ | ⟨w', mem⟩
  · rcases arrive_running target st sid with same | ⟨none, -⟩
    · exact .inl ⟨r, same ▸ get, rfl⟩
    · rw [none] at get; cases get
  · by_cases eq : w' = w
    · subst eq
      exact arrive_bindings keyed target free st mem
    · exact .inr ⟨w', by rw [← frame.workers w' eq]; exact mem⟩

end Bindings

/-! ## Entries with the right account -/

section Matched
variable {s s' : State} {w sid a : Nat} {inp : Input} {worker : Worker}

lemma vouches_of_off (off : worker.inDispatch = false) : worker.vouches sid a = false := by
  cases worker <;> first | rfl | cases off

lemma vouches_goDispatch {path : Path} {pending : List RunningStrategy} {phase : Dispatching}
    (now : ((goDispatch s w path pending inp phase).workers w).vouches sid a = true) :
    (Worker.dispatching path pending phase).vouches sid a = true ∨
      (sid, a) ∈ (Worker.dispatching path pending phase).bindings ∧
        ∃ status, s.status sid = some status ∧ status.runnable = true := by
  have entered {t : State} {pending' : List RunningStrategy} {r : RunningStrategy} {rest : List String}
      (h : ((enter t w path pending' r rest).workers w).vouches sid a = true) :
      rest ≠ [] ∧ path.gated = true ∧ r.strategyId = sid ∧ r.accountId = a := by
    simp only [enter, State.move_workers, update_self] at h
    cases rest <;> simp [Worker.vouches] at h ⊢
    exact ⟨h.1.1, h.1.2, h.2⟩
  have moved {t : State} {worker : Worker} (h : ((t.move w worker).workers w).vouches sid a = true) :
      worker.vouches sid a = true := by
    rwa [State.move_workers, update_self] at h
  cases phase with
  | next =>
    cases pending with
    | nil => cases moved now
    | cons r rest =>
      simp only [goDispatch] at now
      split at now
      · exact absurd rfl (entered now).1
      split at now
      · cases moved now
      split at now
      · cases moved now
      rename_i ungated
      split at now
      · have now := moved now
        cases e : r.symbols <;> simp [e, Worker.vouches, ungated] at now
      · exact absurd rfl (entered now).1
  | status r =>
    simp only [goDispatch] at now
    have now := moved now
    cases readable : inp.readable with
    | false => simp [readable, Worker.vouches] at now
    | true =>
      cases e : s.status r.strategyId with
      | none => simp [readable, e, Worker.vouches] at now
      | some status =>
        cases runnable : status.runnable with
        | false => simp [readable, e, runnable, Worker.vouches] at now
        | true =>
          simp only [readable, e, if_true, Option.map_some, Option.getD_some, runnable, Worker.vouches,
            Bool.and_eq_true, decide_eq_true_eq] at now
          obtain ⟨⟨-, rfl⟩, rfl⟩ := now
          exact .inr ⟨mem_cons_self, status, e, runnable⟩
  | session r =>
    left
    simp only [goDispatch] at now
    split at now
    · cases moved now
    split at now
    · have now := moved now
      exact now
    split at now
    · cases moved now
    · exact absurd rfl (entered now).1
  | claim r =>
    left
    have now := moved now
    split at now
    · cases e : r.symbols with
      | nil => simp [e, Worker.vouches] at now
      | cons => simpa [e, Worker.vouches] using now
    · cases now
  | fetch r symbols =>
    left
    cases symbols with
    | nil => cases moved now
    | cons symbol rest =>
      simp only [goDispatch] at now
      split at now
      · have h := entered now
        simp [Worker.vouches, h.2.1, h.2.2.1, h.2.2.2]
      · have now := moved now
        cases rest with
        | nil => cases now
        | cons => exact now
  | hook r symbols =>
    left
    simp only [goDispatch] at now
    split at now
    · cases moved now
    · have now := moved now
      cases symbols with
      | nil => cases now
      | cons => exact now

lemma gated_goDispatch {path : Path} {pending : List RunningStrategy} {phase : Dispatching}
    (gated : GatedAt path phase) {path' : Path} {pending' : List RunningStrategy} {phase' : Dispatching}
    (now : (goDispatch s w path pending inp phase).workers w = .dispatching path' pending' phase') :
    GatedAt path' phase' := by
  have moved {t : State} {pending : List RunningStrategy} {phase : Dispatching}
      (h : (t.move w (.dispatching path pending phase)).workers w = .dispatching path' pending' phase')
      (gated : GatedAt path phase) : GatedAt path' phase' := by
    rw [State.move_workers, update_self] at h
    cases h
    exact gated
  have left {t : State} {worker : Worker} (h : (t.move w worker).workers w = .dispatching path' pending' phase')
      (off : worker ≠ .dispatching path' pending' phase') : GatedAt path' phase' := by
    rw [State.move_workers, update_self] at h
    exact absurd h off
  cases phase with
  | next =>
    cases pending with
    | nil => exact left now (by simp)
    | cons r rest =>
      simp only [goDispatch] at now
      split at now
      · exact moved now trivial
      split at now
      · exact moved now trivial
      split at now
      · exact moved now ‹_›
      split at now
      · rename_i fallback
        refine moved now ?_
        cases r.symbols with
        | nil => trivial
        | cons => exact .inr fallback
      · exact moved now trivial
  | status r =>
    simp only [goDispatch] at now
    generalize (if inp.readable = true then s.status r.strategyId else none) = status at now
    refine moved now ?_
    split
    · exact gated
    · trivial
  | session r =>
    simp only [goDispatch] at now
    split at now
    · exact moved now trivial
    split at now
    · exact moved now gated
    split at now
    · exact moved now trivial
    · exact moved now trivial
  | claim r =>
    refine moved now ?_
    split
    · cases r.symbols with
      | nil => trivial
      | cons => exact .inl gated
    · trivial
  | fetch r symbols =>
    cases symbols with
    | nil => exact moved now trivial
    | cons symbol rest =>
      have loop : GatedAt path (.fetch r rest) ∧ GatedAt path (.hook r rest) := by
        cases rest with
        | nil => exact ⟨trivial, trivial⟩
        | cons => exact ⟨gated, gated⟩
      simp only [goDispatch] at now
      split at now
      · exact moved now loop.2
      · exact moved now loop.1
  | hook r symbols =>
    simp only [goDispatch] at now
    split at now
    · exact left now (by simp)
    · refine moved now ?_
      cases symbols with
      | nil => trivial
      | cons => exact gated

lemma agreed_goDispatch {path : Path} {pending : List RunningStrategy} {phase : Dispatching}
    (h : Matched s) (here : s.workers w = .dispatching path pending phase)
    (fits : FitsAt s inp (.dispatching path pending phase)) :
    Each Agreed (goDispatch s w path pending inp phase).log := by
  have read {evs : List Event} (reads : ∀ e ∈ evs, e.isRead = true) : ∀ e ∈ evs, ∀ earlier, Agreed e earlier := by
    intro e mem earlier
    cases e <;> first | trivial | cases reads _ mem
  rcases entry_goDispatch s w inp path pending phase with ⟨evs, eq, triv⟩ | ⟨r, evs, eq, triv, place⟩
  · rw [eq]
    exact h.log.append (read triv)
  rw [eq]
  refine each_cons.2 ⟨fun onBar => ?_, h.log.append (read triv)⟩
  have bound : s.Bound r.strategyId r.accountId := by
    refine .inr ⟨w, ?_⟩
    rw [here]
    rcases place onBar with rfl | ⟨symbol, rest, rfl, -⟩ <;> exact mem_cons_self
  constructor
  · intro live
    have gated := h.gated w path pending phase here
    have vouched := h.vouched w r.strategyId r.accountId
    rw [here] at vouched
    rcases place onBar with rfl | ⟨symbol, rest, rfl, bar⟩
    · exact vouched (by simp [Worker.vouches, show path.gated = true from gated]) live
    · rcases gated with gated | rfl
      · exact vouched (by simp [Worker.vouches, gated]) live
      · exact fits.fallback pending r symbol rest rfl bar live
  · intro status
    by_contra notLive
    exact h.paper r.strategyId r.accountId bound notLive status

lemma go_vouches (st : go s w inp worker = some s') (now : (s'.workers w).vouches sid a = true) :
    worker.vouches sid a = true ∨ ((sid, a) ∈ worker.bindings ∧ worker.engaged sid = false ∧
      ∃ status, s.status sid = some status ∧ status.runnable = true) := by
  cases worker with
  | dispatching path pending phase =>
    cases st
    rcases vouches_goDispatch now with old | ⟨mem, read⟩
    · exact .inl old
    · exact .inr ⟨mem, rfl, read⟩
  | failing path pending i =>
    simp only [go] at st
    split at st <;> cases st <;> simp [Worker.vouches] at now
  | erroring path pending i loaded =>
    simp only [go] at st
    cases st
    simp [Worker.vouches] at now
  | evicting path pending i =>
    simp only [go] at st
    cases st
    simp [Worker.vouches] at now
  | _ =>
    rw [vouches_of_off (go_inDispatch rfl st)] at now
    cases now

lemma status_go (fits : FitsAt s inp worker) (st : go s w inp worker = some s') (sid : Nat) :
    s'.status sid = s.status sid ∨
      ∃ old new, s.status sid = some old ∧ s'.status sid = some new ∧ Fits s sid old new := by
  unfold State.status
  rw [go_row st]
  cases get : s.strategies[sid]? with
  | none => exact .inl rfl
  | some row =>
    by_cases same : (worker.rewrite sid row).status = row.status
    · exact .inl (by simp [same])
    · exact .inr ⟨_, _, rfl, rfl, fits.writes sid row get same⟩

lemma matched_go (h : Matched s) (fits : FitsAt s inp (s.workers w))
    (st : go s w inp (s.workers w) = some s') : Matched s' := by
  have frame := go_frame st
  refine ⟨?_, ?_, ?_, ?_, ?_⟩
  · cases here : s.workers w with
    | dispatching path pending phase =>
      rw [here] at st fits
      cases st
      exact agreed_goDispatch h here fits
    | _ =>
      obtain ⟨evs, eq, own⟩ := frame.log
      rw [eq]
      refine h.log.append fun e mem earlier => ?_
      have source := (own e mem).2
      rw [here] at source
      cases e <;> trivial
  · intro sid a bound live
    rw [frame.live_iff] at live
    rcases go_bound rfl st bound with bound | ⟨c, intent, row, loading, get, iff⟩
    · rcases status_go fits st sid with same | ⟨old, new, was, is, fit⟩
      · rw [same]
        exact h.live sid a bound live
      · rw [is]
        refine ⟨?_, ?_⟩
        · rintro ⟨⟩
          exact fit.paper (.inl rfl) a bound live
        · rintro ⟨⟩
          exact fit.paper (.inr rfl) a bound live
    · rw [loading] at st
      rw [State.status, go_row st, get]
      simp [Worker.rewrite, iff.1 live]
  · intro sid a bound notLive
    rw [frame.live_iff] at notLive
    rcases go_bound rfl st bound with bound | ⟨c, intent, row, loading, get, iff⟩
    · rcases status_go fits st sid with same | ⟨old, new, was, is, fit⟩
      · rw [same]
        exact h.paper sid a bound notLive
      · rw [is]
        rintro ⟨⟩
        exact notLive (fit.live rfl a bound)
    · rw [loading] at st
      rw [State.status, go_row st, get]
      simpa [Worker.rewrite] using fun status => notLive (iff.2 status)
  · -- the account is live, so a runnable status is LIVE; only a rewrite that fits takes it away
    intro w' sid a vouches live
    rw [frame.live_iff] at live
    have stays (was : s.status sid = some .live) (notAway : ∀ new, ¬ Fits s sid .live new) :
        s'.status sid = some .live := by
      rcases status_go fits st sid with same | ⟨old, new, was', is, fit⟩
      · rw [same, was]
      · rw [was] at was'
        cases was'
        exact absurd fit (notAway new)
    have old (vouches : (s.workers w').vouches sid a = true) : s'.status sid = some .live :=
      stays (h.vouched w' sid a vouches live) fun new fit => fit.away rfl w' a vouches live
    by_cases eq : w' = w
    · subst eq
      rcases go_vouches st vouches with vouched | ⟨mem, off, status, read, runnable⟩
      · exact old vouched
      · have notPaper := h.live sid a (.inr ⟨w', mem⟩) live
        rw [read] at notPaper
        have isLive : status = .live := by
          cases status <;> simp_all [StrategyStatus.runnable, StrategyStatus.active]
        rw [State.status, go_row st]
        rw [State.status] at read
        obtain ⟨row, get, rfl⟩ := Option.map_eq_some_iff.1 read
        rw [get, Option.map_some, Option.map_some, rewrite_of_not_engaged off, isLive]
    · rw [frame.workers w' eq] at vouches
      exact old vouches
  · intro w' path pending phase now
    by_cases eq : w' = w
    · subst eq
      cases here : s.workers w' with
      | dispatching path' pending' phase' =>
        rw [here] at st
        cases st
        exact gated_goDispatch (h.gated w' path' pending' phase' here) now
      | failing =>
        rw [here] at st
        simp only [go] at st
        split at st <;> cases st <;> simp at now
      | erroring =>
        rw [here] at st
        simp only [go] at st
        cases st
        simp at now
      | evicting =>
        rw [here] at st
        simp only [go] at st
        cases st
        rw [State.move_workers, update_self] at now
        cases now
        trivial
      | _ =>
        rw [here] at st
        have off := go_inDispatch rfl st
        rw [now] at off
        cases off
    · exact h.gated w' path pending phase (frame.workers w' eq ▸ now)

lemma matched_step {l : Label} (keyed : Keyed s) (h : Matched s)
    (fits : ∀ w inp, l = .go w inp → FitsAt s inp (s.workers w)) (st : step s l = some s') : Matched s' := by
  replace st := step_cases st
  rcases st with ⟨_, _, rfl, -⟩ | ⟨_, -, rfl⟩ | ⟨w, -, rfl⟩ | ⟨w, inp, rfl, st⟩ | ⟨w, target, free, st⟩
  · exact ⟨h.log, h.live, h.paper, h.vouched, h.gated⟩
  · exact ⟨h.log, h.live, h.paper, h.vouched, h.gated⟩
  · -- nothing is registered and no worker has anything in hand
    have away := restart_workers (show step s (.restart w) = some _ from rfl)
    have unbound {t : State} (running : t.running = .empty)
        (workers : ∀ w', (t.workers w').bindings = []) (sid a : Nat) : ¬ t.Bound sid a := by
      rintro (⟨r, get, -⟩ | ⟨w', mem⟩)
      · rw [running] at get
        simp at get
      · rw [workers w'] at mem
        cases mem
    have none := unbound rfl fun w' => by rcases away w' with eq | ⟨_, eq⟩ <;> rw [eq] <;> rfl
    refine ⟨h.log, fun sid a bound => absurd bound (none sid a), fun sid a bound => absurd bound (none sid a),
      ?_, ?_⟩
    · intro w' sid a vouches
      rcases away w' with eq | ⟨_, eq⟩ <;> rw [eq] at vouches <;> cases vouches
    · intro w' path pending phase now
      rcases away w' with eq | ⟨_, eq⟩ <;> rw [eq] at now <;> cases now
  · exact matched_go h (fits w inp rfl) st
  · have frame := arrive_frame target st
    have status (sid : Nat) : s'.status sid = s.status sid := by
      rw [State.status, (arrive_fields st).1]
      rfl
    refine ⟨?_, ?_, ?_, ?_, ?_⟩
    · obtain ⟨evs, eq, own⟩ := frame.log
      rw [eq]
      refine h.log.append fun e mem earlier => ?_
      have source := (own e mem).2
      cases e <;> trivial
    · intro sid a bound live
      rw [status]
      exact h.live sid a (arrive_bound keyed target free st bound) (frame.live_iff.1 live)
    · intro sid a bound notLive
      rw [status]
      exact h.paper sid a (arrive_bound keyed target free st bound) fun live => notLive (frame.live_iff.2 live)
    · intro w' sid a vouches live
      rw [status]
      by_cases eq : w' = w
      · subst eq
        rcases arrive_inDispatch target free st with off | ⟨path, targets, -, rfl⟩
        · rw [vouches_of_off off] at vouches
          cases vouches
        · simp [beginDispatch, Worker.vouches] at vouches
      · exact h.vouched w' sid a (frame.workers w' eq ▸ vouches) (frame.live_iff.1 live)
    · intro w' path pending phase now
      by_cases eq : w' = w
      · subst eq
        rcases arrive_inDispatch target free st with off | ⟨path, targets, -, rfl⟩
        · rw [now] at off
          cases off
        · rw [beginDispatch, State.move_workers, update_self] at now
          cases now
          trivial
      · exact h.gated w' path pending phase (frame.workers w' eq ▸ now)

end Matched

end Workbench.Strategies
