import Workbench.Strategies.Mode

/-!
# Reloads and clean restarts

`Restored` says that a reload or a clean restart leaves a strategy that was LIVE or PAPER as it found
it, registered on the account of that mode, or refuses it.

It fails for whatever is registered: `unregister` leaves IDLE behind, so that the registration of a
reload reads IDLE and binds the paper account, and a boot resumes nothing of what `shutdown` stopped.
What survives is a reload of a PAPER strategy, and a reload or a restart of a strategy that is active
but not registered, as long as no other operation works on it meanwhile (`Undisturbed`). `Keeps` is
when this and the agreement of `Mode` hold.
-/

set_option linter.dupNamespace false

namespace Workbench.Strategies
open Workbench.Lib Workbench.Lib.Record List Function Option Machine

/-- A reload or a clean restart that was not refused leaves the status it found and an instance bound
    to the account of that mode. -/
def Restored : Event → List Event → Prop
  | .reloaded _ began ok status mode, _ => began.active = true → ok = true →
      status = some began ∧ mode = some (accountMode began)
  | .restarted began refused settled, _ => ∀ sid b, began[sid]? = some b → b.active = true →
      sid ∈ refused ∨ settled[sid]? = some (b, some (accountMode b))
  | _, _ => True

/-! ## What is being restored -/

/-- The status that a call on strategy `i` restores `sid` to. -/
def Caller.restores (i sid : Nat) : Caller → Option StrategyStatus
  | .request => none
  | .unload began | .reload began => if i = sid then some began else none
  | .shutdown _ began => began[sid]?
  | .resume _ began _ => began.bind (·[sid]?)

/-- The status that a worker restores `sid` to. -/
def Worker.restores (sid : Nat) : Worker → Option StrategyStatus
  | .registering c i _ => c.restores i sid
  | .stopping c r | .closing c r _ _ => c.restores r.strategyId sid
  | .unloaded i began => if i = sid then some began else none
  | .shuttingDown _ began | .stopped began => began[sid]?
  | .booting began | .resuming _ began _ => began.bind (·[sid]?)
  | _ => none

/-- No other operation works on a strategy while a reload or a clean restart restores it. -/
def Undisturbed (s : State) : Prop :=
  ∀ w w' sid b, w' ≠ w → (s.workers w).restores sid = some b → b.active = true →
    (s.workers w').engaged sid = false

/-- Every rewrite and every fallback entry fits, a reload of a LIVE strategy and a shutdown find
    nothing registered that they would rewrite to IDLE, and what is being restored is undisturbed. -/
structure Keeps (s : State) (l : Label) : Prop where
  fits : ∀ w inp, l = .go w inp → FitsAt s inp (s.workers w)
  reload : ∀ w sid, l = .reload w sid → s.status sid = some .live → s.running.get sid = none
  shutdown : ∀ w, l = .shutdown w → ∀ sid status, s.status sid = some status → status.active = true →
    s.running.get sid = none
  undisturbed : Undisturbed s

/-! ## Being on track -/

/-- What the restoring of one strategy depends on: its row, its entry in `_running`, and the modes of
    the accounts. -/
structure View where
  row : Option Strategy
  entry : Option RunningStrategy
  mode : Nat → Option AccountMode

def State.view (s : State) (sid : Nat) : View where
  row := s.strategies[sid]?
  entry := s.running.get sid
  mode a := (s.accounts.get a).map (·.mode)

namespace View

/-- Not registered, and a registration would leave `b`. -/
def Ready (v : View) (b : StrategyStatus) : Prop :=
  v.entry = none ∧ ∃ row, v.row = some row ∧ runStatus row = b

/-- Not registered, with the status that is to be restored. -/
def Waiting (v : View) (b : StrategyStatus) : Prop :=
  v.entry = none ∧ ∃ row, v.row = some row ∧ runStatus row = b ∧ row.status = b

/-- The status is `b`. -/
def Has (v : View) (b : StrategyStatus) : Prop := ∃ row, v.row = some row ∧ row.status = b

/-- The status is `b`, and the registered instance is bound to the account of its mode. -/
def Settled (v : View) (b : StrategyStatus) : Prop :=
  v.Has b ∧ ∃ r, v.entry = some r ∧ v.mode r.accountId = some (accountMode b)

end View

/-- A registration that will leave `b`, await by await. -/
def Registering.OnTrack (v : View) (b : StrategyStatus) : Registering → Prop
  | .checking _ | .loading _ => v.Ready b
  | .starting _ row a | .rechecking row a _ | .opening row a _ =>
    v.Has row.status ∧ runStatus row = b ∧ v.mode a = some (accountMode b)
  | .committing row r => v.Has row.status ∧ runStatus row = b ∧ v.mode r.accountId = some (accountMode b)
  | .putting r => v.Has b ∧ v.mode r.accountId = some (accountMode b)
  | .returning => v.Settled b
  | .marking _ => True

/-- A worker that restores `sid` to `b`. -/
def Worker.OnTrack (v : View) (sid : Nat) (b : StrategyStatus) : Worker → Prop
  -- a reload, whose `unregister` rewrites the status unless it finds nothing registered
  | .stopping (.unload _) _ | .closing (.unload _) _ _ _ => b = .paper ∧ v.Ready b
  | .unloaded _ _ => v.Ready b
  | .registering (.reload _) _ phase => phase.OnTrack v b
  -- a shutdown, which stops other strategies, and the boot after it
  | .stopping (.shutdown _ _) r | .closing (.shutdown _ _) r _ _ => r.strategyId ≠ sid ∧ v.Waiting b
  | .shuttingDown _ _ | .stopped _ | .booting _ => v.Waiting b
  | .resuming rest _ refused => sid ∈ refused ∨ (sid ∈ rest ∧ v.Waiting b) ∨ v.Settled b
  | .registering (.resume rest _ refused) i phase => sid ∈ refused ∨
      (i = sid ∧ phase.OnTrack v b) ∨ (i ≠ sid ∧ ((sid ∈ rest ∧ v.Waiting b) ∨ v.Settled b))
  | _ => False

/-- Everything that is being restored is on track. -/
def Restoring (s : State) : Prop :=
  ∀ w sid b, (s.workers w).restores sid = some b → b.active = true → (s.workers w).OnTrack (s.view sid) sid b

lemma View.Waiting.ready {v : View} {b : StrategyStatus} (h : v.Waiting b) : v.Ready b := by
  obtain ⟨none, row, get, run, -⟩ := h
  exact ⟨none, row, get, run⟩

lemma accountMode_runStatus {row : Strategy} : accountMode (runStatus row) = accountMode row.status := by
  unfold runStatus
  by_cases live : row.status = .live
  · rw [if_pos live, live]
  · rw [if_neg live]
    unfold accountMode
    rw [if_neg live]
    split <;> rfl

/-! ## Restoring step by step -/

section Restoring
variable {s s' : State} {w sid i : Nat} {inp : Input} {worker : Worker} {b : StrategyStatus} {c : Caller}
variable {l : Label}

lemma next_restores {ok : Bool} (h : (c.next i ok).restores sid = some b) : c.restores i sid = some b := by
  cases c <;> first | exact h | cases h

lemma beginRegister_restores {intent : RegistrationIntent}
    (h : ((s.beginRegister w c i intent).workers w).restores sid = some b) : c.restores i sid = some b := by
  unfold State.beginRegister at h
  split at h
  · rw [State.returned, returnTo_worker] at h
    exact next_restores h
  · rw [State.move_workers, update_self] at h
    exact h

lemma beginUnregister_restores (keyed : Keyed s)
    (h : ((s.beginUnregister w c i).workers w).restores sid = some b) : c.restores i sid = some b := by
  unfold State.beginUnregister at h
  split at h
  · rw [returnTo_worker] at h
    exact next_restores h
  · rename_i r get
    rw [State.move_workers, update_self] at h
    rw [← keyed.running i r get]
    exact h

lemma go_restores (keyed : Keyed s) (st : go s w inp worker = some s')
    (h : (s'.workers w).restores sid = some b) : worker.restores sid = some b := by
  revert st
  cases worker with
  | idle | stopped => simp [go]
  | registering c i phase =>
    simp only [go]
    rintro ⟨⟩
    rcases goRegister_worker (s := s) (w := w) with ⟨ok, eq, -⟩ | ⟨phase', eq, -⟩
    · rw [eq] at h
      exact next_restores h
    · rw [eq] at h
      exact h
  | unloaded => simp only [go]; rintro ⟨⟩; exact beginRegister_restores h
  | stopping c r =>
    simp only [go]
    rintro ⟨⟩
    rw [State.move_workers, update_self] at h
    exact h
  | closing c r =>
    simp only [go]
    rintro ⟨⟩
    rw [returnTo_worker] at h
    exact next_restores h
  | dispatching path pending phase =>
    simp only [go]
    rintro ⟨⟩
    rcases goDispatch_worker (s := s) (w := w) with eq | ⟨_, _, eq⟩ | ⟨_, eq⟩ <;> rw [eq] at h <;> cases h
  | failing => simp only [go]; split <;> rintro ⟨⟩ <;> simp [Worker.restores] at h
  | erroring | evicting | tripping | resetting =>
    simp only [go]
    rintro ⟨⟩
    simp [Worker.restores] at h
  | activating i phase =>
    simp only [go]
    rintro ⟨⟩
    cases phase with
    | initiated => exact beginUnregister_restores keyed h
    | promoted => exact beginRegister_restores h
    | completing =>
      simp only [goActivate] at h
      repeat' split at h
      all_goals simp [Worker.restores] at h
    | _ => simp [goActivate, Worker.restores] at h
  | shuttingDown rest =>
    cases rest with
    | nil =>
      simp only [go]
      rintro ⟨⟩
      rw [State.move_workers, update_self] at h
      exact h
    | cons => simp only [go]; rintro ⟨⟩; exact beginUnregister_restores keyed h
  | booting =>
    simp only [go]
    rintro ⟨⟩
    rw [State.move_workers, update_self] at h
    exact h
  | resuming rest =>
    cases rest with
    | nil =>
      simp only [go]
      rintro ⟨⟩
      rw [State.move_workers, update_self] at h
      cases h
    | cons => simp only [go]; rintro ⟨⟩; exact beginRegister_restores h

/-! ### One worker -/

lemma Frame.view_mode (frame : Frame w worker s s') : (s'.view sid).mode = (s.view sid).mode := by
  funext a
  exact frame.modes ⟨0, a, 0, [], "", false, false⟩

lemma view_of_untouched (frame : Frame w worker s s')
    (same : s'.strategies[sid]? = s.strategies[sid]? ∧ s'.running.get sid = s.running.get sid) :
    s'.view sid = s.view sid := by
  have mode : (s'.view sid).mode = (s.view sid).mode := frame.view_mode
  unfold State.view at mode ⊢
  rw [same.1, same.2]
  simp only [View.mk.injEq, true_and] at mode ⊢
  exact mode

lemma has_setStatus {v v' : View} {loaded : Strategy} (has : v.Has loaded.status) (run : runStatus loaded = b)
    (row : v'.row = v.row.map (setStatus loaded.status (runStatus loaded))) : v'.Has b := by
  obtain ⟨old, get, status⟩ := has
  refine ⟨_, by rw [row, get]; rfl, ?_⟩
  unfold setStatus
  split
  · rename_i same
    rw [status, ← same, run]
  · exact run

lemma onTrack_next {phase phase' : Registering} (here : worker = .registering c sid phase)
    (st : go s w inp worker = some s') (now : s'.workers w = .registering c sid phase')
    (next : Registering.Next s sid phase phase') (track : phase.OnTrack (s.view sid) b) :
    phase'.OnTrack (s'.view sid) b := by
  subst here
  have frame := go_frame st
  have row : s'.strategies[sid]? = s.strategies[sid]?.map ((Worker.registering c sid phase).rewrite sid ·) := go_row st
  have mode : (s'.view sid).mode = (s.view sid).mode := frame.view_mode
  have running := go_running st sid
  have kept (rewrite : ∀ row, (Worker.registering c sid phase).rewrite sid row = row)
      (notPut : ∀ r, phase ≠ .putting r) : s'.view sid = s.view sid := by
    refine view_of_untouched frame ⟨?_, ?_⟩
    · rw [row]
      cases s.strategies[sid]? with
      | none => rfl
      | some row => rw [map_some, rewrite]
    · rcases running with same | ⟨-, ⟨_, _, eq⟩ | ⟨_, _, eq, -⟩⟩ | ⟨_, r, eq, -⟩
      · exact same
      · cases eq
      · rw [now] at eq; cases eq
      · cases eq
        exact absurd rfl (notPut r)
  cases next with
  | checked => rw [kept (fun _ => rfl) (by simp)]; exact track
  | loaded intent row' a get account =>
    rw [kept (fun _ => rfl) (by simp)]
    obtain ⟨none, old, was, run⟩ := track
    cases get.symm.trans was
    refine ⟨⟨_, get, rfl⟩, run, ?_⟩
    rw [← run, accountMode_runStatus]
    exact resolveAccount_mode account
  | unbound | raised => trivial
  | initialized => rw [kept (fun _ => rfl) (by simp)]; exact track
  | rechecked => rw [kept (fun _ => rfl) (by simp)]; exact track
  | opened => rw [kept (fun _ => rfl) (by simp)]; exact track
  | committed loaded r =>
    obtain ⟨has, run, bound⟩ := track
    refine ⟨has_setStatus has run ?_, ?_⟩
    · simp only [Worker.rewrite, if_true] at row
      exact row
    · rw [mode]
      exact bound
  | stored r =>
    obtain ⟨has, bound⟩ := track
    refine ⟨?_, ?_⟩
    · obtain ⟨old, was, status⟩ := has
      refine ⟨old, ?_, status⟩
      show s'.strategies[sid]? = _
      rw [row, show s.strategies[sid]? = some old from was]
      rfl
    · refine ⟨r, ?_, by rw [mode]; exact bound⟩
      simp only [go] at st
      cases st
      exact Dict.get_set_self

lemma onTrack_return {phase : Registering} (here : worker = .registering c sid phase)
    (st : go s w inp worker = some s') {ok : Bool} (now : s'.workers w = c.next sid ok)
    (normal : ok = true → phase = .returning) (track : phase.OnTrack (s.view sid) b) (success : ok = true) :
    (s'.view sid).Settled b := by
  subst here
  have frame := go_frame st
  have eq := normal success
  subst eq
  have same : s'.view sid = s.view sid := by
    refine view_of_untouched frame ⟨?_, ?_⟩
    · rw [go_row st]
      simp [Worker.rewrite]
    · rcases go_running st sid with same | ⟨-, ⟨_, _, eq⟩ | ⟨_, _, eq, -⟩⟩ | ⟨_, r, eq, -⟩
      · exact same
      · cases eq
      · rw [now] at eq
        cases c <;> cases eq
      · cases eq
  rw [same]
  exact track

lemma onTrack_registering {phase : Registering} (keyed : Keyed s) (st : go s w inp (.registering c i phase) = some s')
    (restores : c.restores i sid = some b) (track : (Worker.registering c i phase).OnTrack (s.view sid) sid b)
    (h : (s'.workers w).restores sid = some b) : (s'.workers w).OnTrack (s'.view sid) sid b := by
  have frame := go_frame st
  have moved : (∃ ok, s'.workers w = c.next i ok ∧ (ok = true → phase = .returning)) ∨
      ∃ phase', s'.workers w = .registering c i phase' ∧ Registering.Next s i phase phase' := by
    simp only [go] at st
    cases st
    exact goRegister_worker
  have untouched (ne : i ≠ sid) : s'.view sid = s.view sid := by
    refine view_of_untouched frame (go_untouched keyed (by simp [Worker.engaged, ne]) ?_ st)
    rcases moved with ⟨ok, eq, -⟩ | ⟨phase', eq, -⟩
    · rw [eq]
      cases c <;> simp [Caller.next, Worker.engaged, ne]
    · rw [eq]
      simp [Worker.engaged, ne]
  cases c with
  | request => cases restores
  | unload | shutdown => cases track
  | reload began =>
    have eq : i = sid := by
      by_contra ne
      simp [Caller.restores, ne] at restores
    subst eq
    rcases moved with ⟨ok, eq, -⟩ | ⟨phase', eq, next⟩
    · rw [eq] at h
      cases h
    · rw [eq]
      exact onTrack_next rfl st eq next track
  | resume rest began refused =>
    rcases moved with ⟨ok, eq, normal⟩ | ⟨phase', eq, next⟩
    · rw [eq]
      rcases track with mem | ⟨rfl, track⟩ | ⟨ne, track⟩
      · left
        cases ok
        · exact mem_cons_of_mem _ mem
        · exact mem
      · cases ok with
        | false => exact .inl mem_cons_self
        | true => exact .inr (.inr (onTrack_return rfl st eq normal track rfl))
      · right
        rw [untouched ne]
        exact track
    · rw [eq]
      rcases track with mem | ⟨rfl, track⟩ | ⟨ne, track⟩
      · exact .inl mem
      · exact .inr (.inl ⟨rfl, onTrack_next rfl st eq next track⟩)
      · rw [untouched ne]
        exact .inr (.inr ⟨ne, track⟩)

lemma view_beginRegister {intent : RegistrationIntent} : (s.beginRegister w c i intent).view sid = s.view sid := by
  unfold State.view
  simp

lemma view_beginUnregister (out : (s.view sid).entry = none) : (s.beginUnregister w c i).view sid = s.view sid := by
  have entry : (s.beginUnregister w c i).running.get sid = s.running.get sid := by
    rcases @beginUnregister_running s w i c sid with same | ⟨-, r, -, get⟩
    · exact same
    · rw [show s.running.get sid = none from out] at get
      cases get
  unfold State.view
  rw [entry]
  simp

lemma onTrack_go (keyed : Keyed s) (st : go s w inp worker = some s')
    (track : worker.restores sid = some b → worker.OnTrack (s.view sid) sid b)
    (active : b.active = true) (h : (s'.workers w).restores sid = some b) :
    (s'.workers w).OnTrack (s'.view sid) sid b := by
  have restores := go_restores keyed st h
  replace track := track restores
  have frame := go_frame st
  cases worker with
  | idle | dispatching | failing | erroring | evicting | activating | tripping | resetting => cases restores
  | stopped => cases st
  | registering c i phase => exact onTrack_registering keyed st restores track h
  | unloaded i began =>
    have eq : i = sid := by
      by_contra ne
      simp [Worker.restores, ne] at restores
    subst eq
    simp only [go] at st
    cases st
    rw [view_beginRegister]
    have none : s.running.get i = none := track.1
    unfold State.beginRegister
    rw [none, State.move_workers, update_self]
    exact track
  | stopping c r =>
    simp only [go] at st
    cases st
    rw [State.move_workers, update_self]
    cases c with
    | unload | shutdown => exact track
    | request | reload | resume => cases track
  | closing c r loaded isOpen =>
    have worker : s'.workers w = c.next r.strategyId true := by
      simp only [go] at st
      cases st
      exact returnTo_worker
    have running : s'.running.get sid = s.running.get sid := by
      rcases go_running st sid with same | ⟨-, ⟨_, _, eq⟩ | ⟨_, _, eq, -⟩⟩ | ⟨_, _, eq, -⟩
      · exact same
      · cases eq
      · rw [worker] at eq
        cases c <;> cases eq
      · cases eq
    cases c with
    | request | reload | resume => cases track
    | unload began =>
      obtain ⟨rfl, none, row, get, run⟩ := track
      rw [worker]
      refine ⟨running.trans none, (Worker.closing (.unload began) r loaded isOpen).rewrite sid row, ?_, ?_⟩
      · show s'.strategies[sid]? = _
        rw [go_row st, show s.strategies[sid]? = some row from get, map_some]
      · -- IDLE or not, the row is no clone and is not LIVE
        have notLive : row.status ≠ .live := by
          intro live
          simp [runStatus, live] at run
        have noParent : row.parentStrategyId.isSome = false := by
          by_contra parent
          simp [runStatus, notLive, parent] at run
        have status : ((Worker.closing (.unload began) r loaded isOpen).rewrite sid row).status ≠ .live := by
          cases loaded with
          | none => exact notLive
          | some loaded =>
            simp only [Worker.rewrite]
            split
            · rcases setStatus_status loaded .idle row with eq | eq <;> rw [eq]
              · exact notLive
              · decide
            · exact notLive
        simp [runStatus, status, noParent]
    | shutdown rest began =>
      obtain ⟨ne, waiting⟩ := track
      have same : s'.view sid = s.view sid := by
        refine view_of_untouched frame ⟨?_, running⟩
        rw [go_row st]
        cases s.strategies[sid]? with
        | none => rfl
        | some row => rw [map_some, rewrite_of_not_engaged (by simp [Worker.engaged, ne])]
      rw [worker, same]
      exact waiting
  | shuttingDown rest began =>
    cases rest with
    | nil =>
      simp only [go] at st
      cases st
      rw [State.move_workers, update_self]
      exact track
    | cons i rest =>
      simp only [go] at st
      cases st
      rw [view_beginUnregister track.1]
      unfold State.beginUnregister
      split
      · rw [returnTo_worker]
        exact track
      · rename_i r get
        rw [State.move_workers, update_self]
        refine ⟨?_, track⟩
        rw [keyed.running i r get]
        rintro rfl
        rw [show s.running.get i = none from track.1] at get
        cases get
  | booting began =>
    simp only [go] at st
    cases st
    rw [State.move_workers, update_self]
    refine .inr (.inl ⟨?_, track⟩)
    obtain ⟨-, row, get, -, status⟩ := track
    refine mem_map.2 ⟨(row, sid), mem_filter.2 ⟨mem_zipIdx_iff_getElem?.2 get, ?_⟩, rfl⟩
    simp [StrategyStatus.runnable, status, active]
  | resuming rest began refused =>
    cases rest with
    | nil =>
      simp only [go] at st
      cases st
      rw [State.move_workers, update_self] at h
      cases h
    | cons i rest =>
      simp only [go] at st
      cases st
      rw [view_beginRegister]
      unfold State.beginRegister
      split
      · rename_i r get
        rw [State.returned, returnTo_worker]
        rcases track with mem | ⟨mem, waiting⟩ | settled
        · exact .inl mem
        · refine .inr (.inl ⟨?_, waiting⟩)
          rcases mem_cons.1 mem with rfl | mem
          · rw [show s.running.get sid = none from waiting.1] at get
            cases get
          · exact mem
        · exact .inr (.inr settled)
      · rename_i none
        rw [State.move_workers, update_self]
        rcases track with mem | ⟨mem, waiting⟩ | settled
        · exact .inl mem
        · right
          by_cases eq : i = sid
          · exact .inl ⟨eq, waiting.ready⟩
          · refine .inr ⟨eq, .inl ⟨?_, waiting⟩⟩
            rcases mem_cons.1 mem with rfl | mem
            · exact absurd rfl eq
            · exact mem
        · refine .inr (.inr ⟨?_, .inr settled⟩)
          rintro rfl
          obtain ⟨-, r, get, -⟩ := settled
          rw [show s.running.get i = some r from get] at none
          cases none

/-! ### What is recorded -/

lemma settled_iff : (s.view sid).Settled b → s.status sid = some b ∧ s.binding sid = some (accountMode b) := by
  rintro ⟨⟨row, get, status⟩, r, entry, mode⟩
  refine ⟨?_, ?_⟩
  · rw [State.status, show s.strategies[sid]? = some row from get, map_some, status]
  · rw [State.binding, show s.running.get sid = some r from entry]
    exact mode

lemma restored_beginRegister {intent : RegistrationIntent} (log : Each Restored s.log)
    (fine : ∀ began, c = .reload began → began.active = true → s.running.get i = none) :
    Each Restored (s.beginRegister w c i intent).log := by
  refine each_beginRegister log (fun r get => ?_) trivial
  refine each_returnTo (each_cons.2 ⟨trivial, log⟩) fun began eq active _ => ?_
  rw [fine began eq active] at get
  cases get

lemma restored_write {loaded new : StrategyStatus} {writer : Writer} (log : Each Restored s.log) :
    Each Restored (s.write i loaded new writer).log :=
  each_write log fun _ => trivial

lemma restored_go (log : Each Restored s.log) (st : go s w inp worker = some s')
    (track : ∀ sid b, worker.restores sid = some b → b.active = true → worker.OnTrack (s.view sid) sid b) :
    Each Restored s'.log := by
  revert st
  cases worker with
  | idle | stopped => simp [go]
  | registering c i phase =>
    simp only [go]
    rintro ⟨⟩
    have refused {t : State} (log : Each Restored t.log) : Each Restored (t.returnTo w i false c).log :=
      each_returnTo log fun _ _ _ ok => by cases ok
    cases phase with
    | checking | loading | starting | rechecking =>
      simp only [goRegister]
      repeat' split
      all_goals first | exact refused log | exact log
    | opening | putting => exact each_cons.2 ⟨trivial, log⟩
    | committing => exact each_cons.2 ⟨trivial, restored_write log⟩
    | marking => exact refused (restored_write log)
    | returning =>
      refine each_returnTo (each_cons.2 ⟨trivial, log⟩) fun began eq active _ => ?_
      subst eq
      exact settled_iff (track i began (by simp [Worker.restores, Caller.restores]) active)
  | unloaded i began =>
    simp only [go]
    rintro ⟨⟩
    refine restored_beginRegister log fun began' eq active => ?_
    cases eq
    exact (track i began (by simp [Worker.restores]) active).1
  | stopping | booting => simp only [go]; rintro ⟨⟩; exact log
  | closing c r loaded isOpen =>
    simp only [go]
    rintro ⟨⟩
    refine each_returnTo ?_ fun began eq active _ => ?_
    · have closed : Each Restored (if isOpen then s.close r.runId .idle else s).log := by
        split <;> exact log
      split
      · split
        · exact restored_write closed
        · exact closed
      · exact closed
    · subst eq
      exact (track r.strategyId began (by simp [Worker.restores, Caller.restores]) active).elim
  | dispatching path pending phase =>
    simp only [go]
    rintro ⟨⟩
    have read {evs : List Event} (reads : ∀ e ∈ evs, e.isRead = true) :
        ∀ e ∈ evs, ∀ earlier, Restored e earlier := by
      intro e mem earlier
      cases e <;> first | trivial | cases reads _ mem
    rcases entry_goDispatch s w inp path pending phase with ⟨evs, eq, reads⟩ | ⟨r, evs, eq, reads, -⟩
    · rw [eq]
      exact log.append (read reads)
    · rw [eq]
      exact each_cons.2 ⟨trivial, log.append (read reads)⟩
  | failing => simp only [go]; split <;> rintro ⟨⟩ <;> exact log
  | erroring => simp only [go]; rintro ⟨⟩; split <;> exact restored_write log
  | evicting => simp only [go]; rintro ⟨⟩; exact log
  | activating i phase =>
    simp only [go]
    rintro ⟨⟩
    refine each_goActivate log (fun _ _ _ _ => trivial) ?_ ?_
    · rintro row rfl
      exact each_cons.2 ⟨trivial, restored_write log⟩
    · rintro rfl
      exact restored_beginRegister log (by simp)
  | tripping a halts =>
    simp only [go]
    rintro ⟨⟩
    refine each_cons.2 ⟨trivial, log.append ?_⟩
    intro e mem earlier
    obtain ⟨_, -, rfl⟩ := mem_map.1 mem
    trivial
  | resetting => simp only [go]; rintro ⟨⟩; exact each_cons.2 ⟨trivial, log⟩
  | shuttingDown rest =>
    cases rest with
    | nil => simp only [go]; rintro ⟨⟩; exact log
    | cons => simp only [go]; rintro ⟨⟩; exact each_beginUnregister log (by simp)
  | resuming rest began refused =>
    cases rest with
    | cons => simp only [go]; rintro ⟨⟩; exact restored_beginRegister log (by simp)
    | nil =>
      simp only [go]
      rintro ⟨⟩
      cases began with
      | none => exact log
      | some began =>
        refine each_cons.2 ⟨fun sid b mem active => ?_, log⟩
        rcases track sid b (by simp [Worker.restores, mem]) active with mem | ⟨mem, -⟩ | done
        · exact .inl mem
        · cases mem
        · right
          obtain ⟨status, binding⟩ := settled_iff done
          obtain ⟨row, get, rfl⟩ := map_eq_some_iff.1 status
          simp [settled, get, binding]

/-! ### Arrivals -/

lemma arrive_restores (keyed : Keyed s) (target : l.target = some w) (free : s.workers w = .idle)
    (st : arrive s l = some s') (h : (s'.workers w).restores sid = some b) :
    (l = .reload w sid ∧ s' = s.beginUnregister w (.unload b) sid ∧ s.status sid = some b) ∨
      (l = .shutdown w ∧ s.status sid = some b ∧ ∃ rest began, s' = s.move w (.shuttingDown rest began)) := by
  have idle : (s.workers w).restores sid ≠ some b := by rw [free]; simp [Worker.restores]
  revert st
  cases l <;> simp only [Label.target, some.injEq, reduceCtorEq] at target <;> subst target <;>
    simp only [arrive]
  case register => rintro ⟨⟩; cases beginRegister_restores h
  case unregister => rintro ⟨⟩; cases beginUnregister_restores keyed h
  case reload i =>
    split
    · rintro ⟨⟩; exact absurd h idle
    · rename_i row get
      split
      · rintro ⟨⟩; exact absurd h idle
      · rintro ⟨⟩
        have restores := beginUnregister_restores keyed h
        simp only [Caller.restores] at restores
        split at restores
        · rename_i eq
          subst eq
          cases restores
          exact .inl ⟨rfl, rfl, by rw [State.status, get]; rfl⟩
        · cases restores
  case shutdown =>
    rintro ⟨⟩
    rw [State.move_workers, update_self] at h
    refine .inr ⟨trivial, ?_, _, _, rfl⟩
    simpa [Worker.restores, State.status] using h
  case barTick | overlayTick | eventBar | eventFallback | signal | fill =>
    rintro ⟨⟩
    simp [beginDispatch, Worker.restores] at h
  all_goals
    repeat' split
    all_goals rintro ⟨⟩
    all_goals first | exact absurd h idle | simp [Worker.restores] at h

lemma runStatus_of_active (lineage : Lineage s) {row : Strategy} (get : s.strategies[sid]? = some row)
    (active : row.status.active = true) : runStatus row = row.status := by
  have clone := lineage.clone sid row get
  unfold runStatus
  cases status : row.status with
  | live => rfl
  | paper =>
    have none : row.parentStrategyId.isSome = false := by
      by_contra parent
      exact clone (Bool.eq_true_of_not_eq_false parent) status
    simp [none]
  | _ => rw [status] at active; cases active

lemma onTrack_arrive (keyed : Keyed s) (lineage : Lineage s) (keeps : Keeps s l)
    (target : l.target = some w) (free : s.workers w = .idle) (st : arrive s l = some s')
    (h : (s'.workers w).restores sid = some b) (active : b.active = true) :
    (s'.workers w).OnTrack (s'.view sid) sid b := by
  rcases arrive_restores keyed target free st h with ⟨rfl, rfl, status⟩ | ⟨rfl, status, rest, began, rfl⟩
  · obtain ⟨row, get, rfl⟩ := map_eq_some_iff.1 status
    have run := runStatus_of_active lineage get active
    have ready (out : s.running.get sid = none) : (s.view sid).Ready row.status := ⟨out, row, get, run⟩
    cases entry : s.running.get sid with
    | none =>
      rw [view_beginUnregister entry]
      unfold State.beginUnregister
      rw [entry]
      simp only [returnTo_worker]
      exact ready entry
    | some r =>
      -- a registered strategy that is active and not LIVE is in PAPER
      have paper : row.status = .paper := by
        cases e : row.status with
        | paper => rfl
        | live =>
          rw [keeps.reload w sid rfl (by rw [State.status, get, map_some, e])] at entry
          cases entry
        | _ => rw [e] at active; cases active
      unfold State.beginUnregister
      rw [entry]
      simp only [State.move_workers, update_self]
      refine ⟨paper, ?_, row, get, run⟩
      show (s.running.erase sid).get sid = none
      rw [Dict.get_erase, if_pos rfl]
  · rw [State.move_workers, update_self]
    obtain ⟨row, get, rfl⟩ := map_eq_some_iff.1 status
    exact ⟨keeps.shutdown w rfl sid row.status status active, row, get,
      runStatus_of_active lineage get active, rfl⟩

lemma restoring_step (keyed : Keyed s) (lineage : Lineage s) (keeps : Keeps s l)
    (h : Restoring s) (st : step s l = some s') (after : Undisturbed s') : Restoring s' := by
  have before := keeps.undisturbed
  replace st := step_cases st
  rcases st with ⟨_, _, rfl, -⟩ | ⟨_, -, rfl⟩ | ⟨w, -, rfl⟩ | ⟨w, inp, rfl, st⟩ | ⟨w, target, free, st⟩
  · exact h
  · exact h
  · intro w' sid b restores active
    by_cases eq : w' = w
    · subst eq
      simp only [update_self] at restores ⊢
      cases here : s.workers w' with
      | stopped began =>
        rw [here] at restores
        have track := h w' sid b (by rw [here]; exact restores) active
        rw [here] at track
        exact ⟨by simp [State.view], track.2⟩
      | _ => rw [here] at restores; cases restores
    · simp only [update_of_ne eq] at restores
      cases restores
  · have frame := go_frame st
    intro w' sid b restores active
    by_cases eq : w' = w
    · subst eq
      exact onTrack_go keyed st (fun r => h w' sid b r active) active restores
    · have off := after w' w sid b (Ne.symm eq) restores active
      rw [frame.workers w' eq] at restores ⊢
      have untouched := go_untouched keyed (before w' w sid b (Ne.symm eq) restores active) off st
      rw [view_of_untouched frame untouched]
      exact h w' sid b restores active
  · have frame := arrive_frame target st
    intro w' sid b restores active
    by_cases eq : w' = w
    · subst eq
      exact onTrack_arrive keyed lineage keeps target free st restores active
    · have off := after w' w sid b (Ne.symm eq) restores active
      rw [frame.workers w' eq] at restores ⊢
      rw [view_of_untouched frame (arrive_untouched keyed target off st)]
      exact h w' sid b restores active

lemma restored_step (log : Each Restored s.log) (h : Restoring s) (st : step s l = some s') : Each Restored s'.log := by
  replace st := step_cases st
  rcases st with ⟨_, _, rfl, -⟩ | ⟨_, -, rfl⟩ | ⟨w, -, rfl⟩ | ⟨w, inp, rfl, st⟩ | ⟨w, target, free, st⟩
  · exact log
  · exact log
  · exact log
  · exact restored_go log st (h w)
  · revert st
    cases l <;> simp only [Label.target, some.injEq, reduceCtorEq] at target <;> subst target <;>
      simp only [arrive]
    case register => rintro ⟨⟩; exact restored_beginRegister log (by simp)
    case unregister => rintro ⟨⟩; exact each_beginUnregister log (by simp)
    case reload =>
      repeat' split
      all_goals rintro ⟨⟩
      all_goals first | exact log | exact each_beginUnregister log (by simp)
    case barTick | overlayTick | eventBar | eventFallback | signal | fill =>
      rintro ⟨⟩
      exact each_cons.2 ⟨trivial, log⟩
    all_goals
      repeat' split
      all_goals rintro ⟨⟩
      all_goals exact log

end Restoring

/-! ## Runs -/

/-- Everything the two agreements rest on. -/
structure Kept (s : State) : Prop where
  keyed : Keyed s
  lineage : Lineage s
  matched : Matched s
  restored : Each Restored s.log
  restoring : Undisturbed s → Restoring s

lemma kept_step {s s' : State} {l : Label} (h : Kept s) (keeps : Keeps s l) (st : step s l = some s') : Kept s' where
  keyed := keyed_step h.keyed st
  lineage := lineage_step h.lineage st
  matched := matched_step h.keyed h.matched keeps.fits st
  restored := restored_step h.restored (h.restoring keeps.undisturbed) st
  restoring := restoring_step h.keyed h.lineage keeps (h.restoring keeps.undisturbed) st

lemma kept_start {strategies : List Strategy} {accounts : Dict Nat Account} {holds : Nat → Bool}
    {clock : Instant} : Kept (start strategies accounts holds clock) where
  keyed := keyed_start
  lineage := lineage_start
  matched := by
    have unbound (sid a : Nat) : ¬ (start strategies accounts holds clock).Bound sid a := by
      rintro (⟨r, get, -⟩ | ⟨w, mem⟩)
      · simp [start] at get
      · cases mem
    refine ⟨each_nil, fun sid a bound => absurd bound (unbound sid a),
      fun sid a bound => absurd bound (unbound sid a), ?_, ?_⟩
    · intro w sid a vouches
      cases vouches
    · intro w path pending phase now
      cases now
  restored := each_nil
  restoring := by
    intro _ w sid b restores
    cases restores

/-- An `on_bar` is entered with the live account if and only if the persisted status is LIVE, and a restore of a LIVE or
PAPER strategy ends with the same status and account, or is refused. -/
theorem account_agrees_with_mode {strategies : List Strategy} {accounts : Dict Nat Account}
    {holds : Nat → Bool} {clock : Instant} {labels : List Label} {s : State}
    (keeps : engine.Meets Keeps (start strategies accounts holds clock) labels)
    (run : engine.run (start strategies accounts holds clock) labels = some s) :
    Each Agreed s.log ∧ Each Restored s.log := by
  have kept := run_invariant (I := Kept) kept_step kept_start keeps run
  exact ⟨kept.matched.log, kept.restored⟩

/-- A reload of a LIVE strategy ends in PAPER, on the paper account. -/
theorem reload_demotes_live_strategy :
    ∃ s, engine.run (start [eventStrategy] bothAccounts (fun _ => false) 0)
        (activation 0 ++ .reload 0 0 :: List.replicate 11 (.go 0 {})) = some s ∧
      s.log.head? = some (.reloaded 0 .live true (some .paper) (some .paper)) ∧ ¬ Each Restored s.log := by
  refine exists_run (by decide +kernel) fun s run => ?_
  have head : s.log.head? = some (.reloaded 0 .live true (some .paper) (some .paper)) :=
    Machine.observe (f := fun s => s.log.head?) run (by decide +kernel)
  refine ⟨head, ?_⟩
  intro restored
  have last := restored [] _ _ (cons_head?_tail head).symm rfl rfl
  cases last.1

/-- A decidable condition that gives `Keeps` when only worker `0` is used: no account is live, no step
    writes LIVE, and the process is not shut down. -/
def soloKeeps (s : State) (l : Label) : Bool :=
  l.worker.getD 0 = 0 && s.accounts.values.all (·.mode ≠ .live) &&
    s.strategies.zipIdx.all (fun e => e.1.status ≠ .live && ((s.workers 0).rewrite e.2 e.1).status ≠ .live) &&
    match l with
    | .shutdown _ => false
    | _ => true

lemma keeps_of_solo {s : State} {l : Label} (solo : Solo s) (h : soloKeeps s l = true) : Keeps s l := by
  simp only [soloKeeps, Bool.and_eq_true, decide_eq_true_eq] at h
  obtain ⟨⟨⟨own, accounts⟩, rows⟩, notDown⟩ := h
  have paper (a : Nat) : ¬ s.Live a := by
    intro live
    obtain ⟨account, get, mode⟩ := map_eq_some_iff.1 live
    have all := all_eq_true.1 accounts account (Dict.mem_values.2 ⟨a, get⟩)
    simp [mode] at all
  have row {sid : Nat} {row : Strategy} (get : s.strategies[sid]? = some row) :
      row.status ≠ .live ∧ ((s.workers 0).rewrite sid row).status ≠ .live := by
    simpa using all_eq_true.1 rows (row, sid) (mem_zipIdx_iff_getElem?.2 get)
  refine ⟨?_, ?_, ?_, ?_⟩
  · rintro w inp rfl
    have zero : w = 0 := by simpa [Label.worker] using own
    subst zero
    refine ⟨fun sid old get _ => ⟨?_, fun _ a _ => paper a, fun _ _ a _ => paper a⟩, ?_⟩
    · intro live
      exact absurd live (row get).2
    · intro pending r symbol rest _ _ live
      exact absurd live (paper r.accountId)
  · rintro w sid rfl live
    obtain ⟨old, get, status⟩ := map_eq_some_iff.1 live
    exact absurd status (row get).1
  · rintro w rfl
    cases notDown
  · intro w w' sid b ne restores _
    by_cases eq : w = 0
    · rw [solo w' (eq ▸ ne)]
      rfl
    · rw [solo w eq] at restores
      cases restores

lemma meets_keeps_of_solo {s : State} {labels : List Label} (solo : Solo s)
    (h : engine.Meets (fun s l => soloKeeps s l = true) s labels) : engine.Meets Keeps s labels := by
  refine Machine.Meets.of_invariant (I := Solo) ?_ keeps_of_solo solo h
  intro s l t solo ok st
  refine solo_step solo ?_ st
  intro w worker
  simp only [soloKeeps, Bool.and_eq_true, decide_eq_true_eq, worker] at ok
  exact ok.1.1.1

/-- A PAPER strategy is entered on its paper account and survives a reload. -/
theorem reload_keeps_paper_strategy :
    ∃ s, engine.run (start [eventStrategy] paperAccounts (fun _ => false) 0)
        (registration 0 ++ .barTick 0 0 :: (List.replicate 8 (.go 0 {}) ++
          .reload 0 0 :: List.replicate 11 (.go 0 {}))) = some s ∧
      s.log.head? = some (.reloaded 0 .paper true (some .paper) (some .paper)) ∧
      Each Agreed s.log ∧ Each Restored s.log := by
  refine exists_run (by decide +kernel) fun s run => ?_
  have head : s.log.head? = some (.reloaded 0 .paper true (some .paper) (some .paper)) :=
    Machine.observe (f := fun s => s.log.head?) run (by decide +kernel)
  refine ⟨head, account_agrees_with_mode (meets_keeps_of_solo ?_ (by decide +kernel)) run⟩
  intro w _
  rfl

end Workbench.Strategies
