import Workbench.Lib.Record
import Workbench.Strategies.System

/-!
# What a worker writes

`Worker.rewrite` is the effect of a worker's next step on a row of `strategies`, whatever the input;
`go_row` says that it is the only one. `Worker.Engaged` are the operations that may write a strategy's
row or its entry in `_running`; a step between two awaits of other operations leaves both alone
(`go_untouched`, `arrive_untouched`).
-/

set_option linter.dupNamespace false

namespace Workbench.Strategies
open Workbench.Lib Workbench.Lib.Record List Function Option Dict

/-- The ORM's write of a status computed from a loaded one. -/
def setStatus (loaded new : StrategyStatus) (row : Strategy) : Strategy :=
  if new = loaded then row else { row with status := new }

/-- What the next step of a worker makes of row `sid`. -/
def Worker.rewrite (sid : Nat) (row : Strategy) : Worker → Strategy
  | .registering _ i (.committing loaded _) =>
    if i = sid then setStatus loaded.status (runStatus loaded) row else row
  | .registering _ i (.marking loaded) => if i = sid then setStatus loaded .error row else row
  | .closing _ r (some loaded) _ =>
    if r.strategyId = sid ∧ loaded.runnable then setStatus loaded .idle row else row
  | .erroring _ _ i loaded => if i = sid then setStatus loaded .error row else row
  | .activating i (.stamped loaded time) =>
    if i = sid then setStatus loaded.status .pendingLive { row with liveActivationInitiatedAt := some time }
    else row
  | .activating i (.canceling loaded) =>
    if i = sid then setStatus loaded.status .idle { row with liveActivationInitiatedAt := none } else row
  | .activating i (.demoting loaded) | .activating i (.deactivating loaded) =>
    if i = sid then setStatus loaded.status .idle row else row
  | .activating i (.promoting loaded) => if i = sid then setStatus loaded.status .live row else row
  | .tripping _ halts => if sid ∈ halts then { row with status := .halted } else row
  | _ => row

section Rows
variable {s s' : State} {w sid i : Nat} {inp : Input} {worker : Worker}

lemma row_write {loaded new : StrategyStatus} {writer : Writer} :
    (s.write i loaded new writer).strategies[sid]? =
      s.strategies[sid]?.map fun row => if i = sid then setStatus loaded new row else row := by
  rw [State.write_strategies, getElem?_writeStatus]
  unfold setStatus
  by_cases same : new = loaded
  · simp [same]
  · by_cases eq : i = sid
    · simp [same, eq]
    · simp [same, eq, Ne.symm eq]

lemma row_stamp {time : Option Instant} :
    (s.stamp i time).strategies[sid]? = s.strategies[sid]?.map fun row =>
      if i = sid then { row with liveActivationInitiatedAt := time } else row := by
  rw [State.stamp_strategies, Table.getElem?_amend]
  split <;> simp_all

lemma go_row (st : go s w inp worker = some s') :
    s'.strategies[sid]? = s.strategies[sid]?.map (worker.rewrite sid ·) := by
  have same {t : State} (eq : t.strategies = s.strategies) :
      t.strategies[sid]? = s.strategies[sid]?.map fun row => row := by
    rw [eq]
    simp
  revert st
  cases worker with
  | idle | stopped => simp [go]
  | registering c i phase =>
    simp only [go]
    rintro ⟨⟩
    cases phase with
    | committing row r =>
      show (s.write i row.status (runStatus row) (.register w)).strategies[sid]? = _
      exact row_write
    | marking loaded => simp only [goRegister, returnTo_fields]; exact row_write
    | checking | loading | starting | rechecking =>
      simp only [goRegister]
      repeat' split
      all_goals exact same (by simp)
    | opening | putting | returning => exact same (by simp [goRegister, State.returned])
  | unloaded => simp only [go]; rintro ⟨⟩; exact same beginRegister_fields.1
  | stopping | resetting | booting | evicting => simp only [go]; rintro ⟨⟩; exact same rfl
  | closing c r loaded isOpen =>
    have closed : (if isOpen then s.close r.runId .idle else s).strategies = s.strategies := by
      split <;> rfl
    simp only [go]
    rintro ⟨⟩
    rw [returnTo_fields.1]
    cases loaded with
    | none => exact same closed
    | some status =>
      simp only [Worker.rewrite]
      split
      · rename_i runnable
        rw [row_write, closed]
        simp [runnable]
      · rename_i not
        simp only [not, Bool.false_eq_true, and_false, if_false]
        exact same closed
  | dispatching => simp only [go]; rintro ⟨⟩; exact same goDispatch_fields.1
  | failing => simp only [go]; split <;> rintro ⟨⟩ <;> exact same rfl
  | erroring path pending i loaded =>
    simp only [go]
    rintro ⟨⟩
    have errored : (s.write i loaded .error .exception).strategies[sid]? =
        s.strategies[sid]?.map fun row => if i = sid then setStatus loaded .error row else row := row_write
    split <;> exact errored
  | activating i phase =>
    simp only [go]
    rintro ⟨⟩
    cases phase with
    | initiating => exact same rfl
    | stamped row time =>
      show ((s.stamp i (some time)).write i row.status .pendingLive .initiate).strategies[sid]? = _
      rw [row_write, row_stamp, Option.map_map]
      congr 1
      funext x
      simp only [Worker.rewrite, comp_apply]
      split <;> rfl
    | canceling row =>
      show ((s.stamp i none).write i row.status .idle .cancel).strategies[sid]? = _
      rw [row_write, row_stamp, Option.map_map]
      congr 1
      funext x
      simp only [Worker.rewrite, comp_apply]
      split <;> rfl
    | initiated => exact same beginUnregister_fields.1
    | demoting row =>
      show (s.write i row.status .idle .complete).strategies[sid]? = _
      exact row_write
    | deactivating row =>
      show (s.write i row.status .idle .deactivate).strategies[sid]? = _
      exact row_write
    | promoting row =>
      show (s.write i row.status .live .complete).strategies[sid]? = _
      exact row_write
    | completing =>
      simp only [goActivate]
      repeat' split
      all_goals exact same rfl
    | promoted => exact same beginRegister_fields.1
  | tripping a halts =>
    simp only [go]
    rintro ⟨⟩
    show (haltAll halts s.strategies)[sid]? = _
    rw [getElem?_haltAll]
    simp only [Worker.rewrite]
    split <;> simp
  | shuttingDown rest =>
    cases rest <;> simp only [go] <;> rintro ⟨⟩ <;> exact same (by simp)
  | resuming rest began =>
    cases rest with
    | nil =>
      simp only [go]
      rintro ⟨⟩
      split <;> exact same rfl
    | cons => simp only [go]; rintro ⟨⟩; exact same beginRegister_fields.1

end Rows

/-! ## Where a worker goes -/

/-- Where a caller goes on after an engine call on `sid`. -/
def Caller.next (sid : Nat) (ok : Bool) : Caller → Worker
  | .request | .reload _ => .idle
  | .unload began => .unloaded sid began
  | .shutdown rest began => .shuttingDown rest began
  | .resume rest began refused => .resuming rest began (if ok then refused else sid :: refused)

/-- One await of `register` leads to the next. -/
inductive Registering.Next (s : State) (sid : Nat) : Registering → Registering → Prop
  | checked (intent : RegistrationIntent) (free : s.holds sid = false) :
    Next s sid (.checking intent) (.loading intent)
  | loaded (intent : RegistrationIntent) (row : Strategy) (accountId : Nat)
      (get : s.strategies[sid]? = some row)
      (account : resolveAccount s.accounts row.userId (accountMode row.status) = some accountId) :
    Next s sid (.loading intent) (.starting intent row accountId)
  | unbound (intent : RegistrationIntent) (row : Strategy) (get : s.strategies[sid]? = some row) :
    Next s sid (.loading intent) (.marking row.status)
  | initialized (intent : RegistrationIntent) (row : Strategy) (accountId : Nat) (cls : StrategyClass) :
    Next s sid (.starting intent row accountId) (.rechecking row accountId cls)
  | raised (intent : RegistrationIntent) (row : Strategy) (accountId : Nat) :
    Next s sid (.starting intent row accountId) (.marking row.status)
  | rechecked (row : Strategy) (accountId : Nat) (cls : StrategyClass) (free : s.holds sid = false) :
    Next s sid (.rechecking row accountId cls) (.opening row accountId cls)
  | opened (row : Strategy) (accountId : Nat) (cls : StrategyClass) :
    Next s sid (.opening row accountId cls)
      (.committing row (newRunning sid accountId s.runs.length row cls))
  | committed (row : Strategy) (running : RunningStrategy) :
    Next s sid (.committing row running) (.putting running)
  | stored (running : RunningStrategy) : Next s sid (.putting running) .returning

section Moves
variable {s s' : State} {w sid i : Nat} {inp : Input} {worker : Worker} {c : Caller}
  {phase : Registering}

@[simp] lemma returnTo_worker {ok : Bool} : (s.returnTo w sid ok c).workers w = c.next sid ok := by
  cases c <;> simp [State.returnTo, Caller.next]

lemma next_ne_registering {ok : Bool} {c' : Caller} : c'.next i ok ≠ .registering c sid phase := by
  cases c' <;> simp [Caller.next]

lemma beginRegister_worker {c' : Caller} {intent : RegistrationIntent}
    (now : (s.beginRegister w c' i intent).workers w = .registering c sid phase) :
    phase = .checking intent ∧ c' = c ∧ i = sid ∧ s.running.get sid = none ∧
      (s.beginRegister w c' i intent).log = .called w sid :: s.log := by
  unfold State.beginRegister at now ⊢
  split at now
  · rw [State.returned, returnTo_worker] at now
    exact absurd now next_ne_registering
  · rename_i none
    rw [State.move_workers, update_self] at now
    cases now
    exact ⟨rfl, rfl, rfl, none, rfl⟩

lemma beginUnregister_worker {c' : Caller} : (s.beginUnregister w c' i).workers w ≠ .registering c sid phase := by
  unfold State.beginUnregister
  split
  · rw [returnTo_worker]
    exact next_ne_registering
  · simp

lemma goDispatch_worker {path : Path} {pending : List RunningStrategy} {phase : Dispatching} :
    (goDispatch s w path pending inp phase).workers w = .idle ∨
    (∃ pending' phase', (goDispatch s w path pending inp phase).workers w = .dispatching path pending' phase') ∨
    ∃ i, (goDispatch s w path pending inp phase).workers w = .failing path pending i := by
  have moved {t : State} {worker : Worker} : (t.move w worker).workers w = worker := by simp
  cases phase with
  | next =>
    cases pending with
    | nil => exact .inl moved
    | cons r rest =>
      simp only [goDispatch]
      repeat' split
      all_goals exact .inr (.inl ⟨_, _, moved⟩)
  | session r =>
    simp only [goDispatch]
    repeat' split
    all_goals exact .inr (.inl ⟨_, _, moved⟩)
  | status | claim => exact .inr (.inl ⟨_, _, moved⟩)
  | fetch r symbols =>
    cases symbols with
    | nil => exact .inr (.inl ⟨_, _, moved⟩)
    | cons => simp only [goDispatch]; split <;> exact .inr (.inl ⟨_, _, moved⟩)
  | hook r symbols =>
    simp only [goDispatch]
    split
    · exact .inr (.inr ⟨_, moved⟩)
    · exact .inr (.inl ⟨_, _, moved⟩)

lemma goRegister_worker :
    (∃ ok, (goRegister s w c sid inp phase).workers w = c.next sid ok ∧ (ok = true → phase = .returning)) ∨
    ∃ phase', (goRegister s w c sid inp phase).workers w = .registering c sid phase' ∧
      Registering.Next s sid phase phase' := by
  have moved {t : State} {worker : Worker} : (t.move w worker).workers w = worker := by simp
  have refused {t : State} : ∃ ok, (t.returnTo w sid false c).workers w = c.next sid ok ∧
      (ok = true → phase = .returning) := ⟨false, returnTo_worker, by simp⟩
  cases phase with
  | checking intent =>
    simp only [goRegister]
    split
    · exact .inl refused
    · rename_i free
      simp only [Bool.or_eq_true, Bool.not_eq_true', not_or, Bool.not_eq_true] at free
      exact .inr ⟨_, moved, .checked intent free.2⟩
  | loading intent =>
    simp only [goRegister]
    split
    · exact .inl refused
    · rename_i row get
      split
      · exact .inl refused
      · split
        · exact .inr ⟨_, moved, .unbound intent row get⟩
        · rename_i accountId account
          exact .inr ⟨_, moved, .loaded intent row accountId get account⟩
  | starting intent row accountId =>
    simp only [goRegister]
    split
    · exact .inr ⟨_, moved, .raised intent row accountId⟩
    · split
      · exact .inl refused
      · exact .inr ⟨_, moved, .initialized intent row accountId _⟩
  | rechecking row accountId cls =>
    simp only [goRegister]
    split
    · exact .inl refused
    · rename_i free
      simp only [Bool.or_eq_true, Bool.not_eq_true', not_or, Bool.not_eq_true] at free
      exact .inr ⟨_, moved, .rechecked row accountId cls free.2⟩
  | opening row accountId cls => exact .inr ⟨_, moved, .opened row accountId cls⟩
  | committing row running => exact .inr ⟨_, moved, .committed row running⟩
  | putting running => exact .inr ⟨_, moved, .stored running⟩
  | returning => exact .inl ⟨true, returnTo_worker, fun _ => rfl⟩
  | marking => exact .inl refused

/-- The strategy on which a worker's next step calls `register`. -/
def Worker.registers : Worker → Option Nat
  | .unloaded sid _ | .activating sid .promoted | .resuming (sid :: _) _ _ => some sid
  | _ => none

lemma go_registering (st : go s w inp worker = some s') (now : s'.workers w = .registering c sid phase) :
    (∃ intent, phase = .checking intent ∧ s.running.get sid = none ∧ worker.registers = some sid ∧
      s'.log = .called w sid :: s.log) ∨
      ∃ before, worker = .registering c sid before ∧ Registering.Next s sid before phase := by
  revert st
  cases worker with
  | idle | stopped => simp [go]
  | registering c' i before =>
    simp only [go]
    rintro ⟨⟩
    rcases goRegister_worker (s := s) (w := w) with ⟨ok, eq, -⟩ | ⟨phase', eq, next⟩
    · exact absurd (eq.symm.trans now) next_ne_registering
    · rw [eq] at now
      cases now
      exact .inr ⟨before, rfl, next⟩
  | unloaded =>
    simp only [go]
    rintro ⟨⟩
    obtain ⟨rfl, -, rfl, none, log⟩ := beginRegister_worker now
    exact .inl ⟨_, rfl, none, rfl, log⟩
  | stopping | booting | tripping | resetting | evicting =>
    simp only [go]
    rintro ⟨⟩
    simp at now
  | closing =>
    simp only [go]
    rintro ⟨⟩
    exact absurd (returnTo_worker.symm.trans now) next_ne_registering
  | dispatching path pending ph =>
    simp only [go]
    rintro ⟨⟩
    rcases goDispatch_worker (s := s) (w := w) with eq | ⟨_, _, eq⟩ | ⟨_, eq⟩ <;>
      rw [eq] at now <;> cases now
  | failing =>
    simp only [go]
    split <;> rintro ⟨⟩ <;> simp at now
  | erroring =>
    simp only [go]
    rintro ⟨⟩
    simp at now
  | activating i ph =>
    simp only [go]
    rintro ⟨⟩
    cases ph with
    | initiated => exact absurd now beginUnregister_worker
    | promoted =>
      obtain ⟨rfl, -, rfl, none, log⟩ := beginRegister_worker now
      exact .inl ⟨_, rfl, none, rfl, log⟩
    | completing =>
      simp only [goActivate] at now
      repeat' split at now
      all_goals simp at now
    | _ => simp [goActivate] at now
  | shuttingDown rest =>
    cases rest with
    | nil => simp only [go]; rintro ⟨⟩; simp at now
    | cons => simp only [go]; rintro ⟨⟩; exact absurd now beginUnregister_worker
  | resuming rest =>
    cases rest with
    | nil => simp only [go]; rintro ⟨⟩; simp at now
    | cons =>
      simp only [go]
      rintro ⟨⟩
      obtain ⟨rfl, -, rfl, none, log⟩ := beginRegister_worker now
      exact .inl ⟨_, rfl, none, rfl, log⟩

lemma arrive_registering {l : Label} (target : l.target = some w) (free : s.workers w = .idle)
    (st : arrive s l = some s') (now : s'.workers w = .registering c sid phase) :
    ∃ intent, phase = .checking intent ∧ s.running.get sid = none ∧ l = .register w sid intent ∧
      s'.log = .called w sid :: s.log := by
  have idle : s.workers w ≠ .registering c sid phase := by rw [free]; simp
  revert st
  cases l <;> simp only [Label.target, some.injEq, reduceCtorEq] at target <;> subst target <;>
    simp only [arrive]
  case register =>
    rintro ⟨⟩
    obtain ⟨rfl, -, rfl, none, log⟩ := beginRegister_worker now
    exact ⟨_, rfl, none, rfl, log⟩
  case unregister => rintro ⟨⟩; exact absurd now beginUnregister_worker
  case reload =>
    repeat' split
    all_goals rintro ⟨⟩
    all_goals first | exact absurd now idle | exact absurd now beginUnregister_worker
  case barTick | overlayTick | eventBar | eventFallback | signal | fill =>
    rintro ⟨⟩
    simp [beginDispatch] at now
  all_goals
    repeat' split
    all_goals rintro ⟨⟩
    all_goals first | exact absurd now idle | simp at now

end Moves

/-- One await of the activation service leads to the next. -/
inductive Activating.Next (s : State) (sid : Nat) : Activating → Activating → Prop
  | stamped (row : Strategy) : Next s sid (.initiating row) (.stamped row s.clock)
  | initiated (row : Strategy) (time : Instant) : Next s sid (.stamped row time) .initiated
  | checked (row : Strategy) (free : s.holds sid = false) : Next s sid (.completing row) (.promoting row)
  | promoted (row : Strategy) : Next s sid (.promoting row) .promoted

/-- How a call of the activation service begins. -/
inductive Activating.Begins (s : State) (row : Strategy) : Activating → Prop
  | initiate (status : row.status = .idle ∨ row.status = .paper) : Begins s row (.initiating row)
  | cancel (status : row.status = .pendingLive) : Begins s row (.canceling row)
  | demote (status : row.status = .pendingLive) : Begins s row (.demoting row)
  | complete (status : row.status = .pendingLive) (initiatedAt : Instant)
      (stamp : row.liveActivationInitiatedAt = some initiatedAt)
      (ripe : initiatedAt + activationCooldown ≤ s.clock) : Begins s row (.completing row)
  | deactivate (status : row.status = .live ∨ row.status = .halted) : Begins s row (.deactivating row)

section Activations
variable {s s' : State} {w sid i : Nat} {inp : Input} {worker : Worker} {c : Caller} {phase : Activating}

lemma returnTo_ne_activating {ok : Bool} : (s.returnTo w i ok c).workers w ≠ .activating sid phase := by
  rw [returnTo_worker]
  cases c <;> simp [Caller.next]

lemma beginRegister_ne_activating {intent : RegistrationIntent} :
    (s.beginRegister w c i intent).workers w ≠ .activating sid phase := by
  unfold State.beginRegister
  split
  · exact returnTo_ne_activating
  · simp

lemma beginUnregister_ne_activating : (s.beginUnregister w c i).workers w ≠ .activating sid phase := by
  unfold State.beginUnregister
  split
  · exact returnTo_ne_activating
  · simp

lemma go_activating (st : go s w inp worker = some s') (now : s'.workers w = .activating sid phase) :
    ∃ before, worker = .activating sid before ∧ Activating.Next s sid before phase := by
  revert st
  cases worker with
  | idle | stopped => simp [go]
  | registering c i before =>
    simp only [go]
    rintro ⟨⟩
    rcases goRegister_worker (s := s) (w := w) with ⟨ok, eq, -⟩ | ⟨phase', eq, -⟩
    · rw [eq] at now
      cases c <;> cases now
    · rw [eq] at now
      cases now
  | unloaded => simp only [go]; rintro ⟨⟩; exact absurd now beginRegister_ne_activating
  | closing => simp only [go]; rintro ⟨⟩; exact absurd now returnTo_ne_activating
  | stopping | booting | tripping | resetting | evicting | erroring =>
    simp only [go]
    rintro ⟨⟩
    simp at now
  | dispatching path pending ph =>
    simp only [go]
    rintro ⟨⟩
    rcases goDispatch_worker (s := s) (w := w) with eq | ⟨_, _, eq⟩ | ⟨_, eq⟩ <;>
      rw [eq] at now <;> cases now
  | failing => simp only [go]; split <;> rintro ⟨⟩ <;> simp at now
  | activating i before =>
    simp only [go]
    rintro ⟨⟩
    cases before with
    | initiating row =>
      simp only [goActivate, State.move_workers, update_self] at now
      cases now
      exact ⟨_, rfl, .stamped row⟩
    | stamped row time =>
      simp only [goActivate, State.move_workers, update_self] at now
      cases now
      exact ⟨_, rfl, .initiated row time⟩
    | promoting row =>
      simp only [goActivate, State.move_workers, update_self] at now
      cases now
      exact ⟨_, rfl, .promoted row⟩
    | completing row =>
      simp only [goActivate] at now
      split at now
      · simp at now
      · rename_i free
        simp only [Bool.or_eq_true, Bool.not_eq_true', not_or, Bool.not_eq_true] at free
        split at now
        · simp at now
        · split at now
          · simp at now
          · rw [State.move_workers, update_self] at now
            cases now
            exact ⟨_, rfl, .checked row free.2⟩
    | initiated => exact absurd now beginUnregister_ne_activating
    | promoted => exact absurd now beginRegister_ne_activating
    | canceling | demoting | deactivating => simp [goActivate] at now
  | shuttingDown rest =>
    cases rest with
    | nil => simp only [go]; rintro ⟨⟩; simp at now
    | cons => simp only [go]; rintro ⟨⟩; exact absurd now beginUnregister_ne_activating
  | resuming rest =>
    cases rest with
    | nil => simp only [go]; rintro ⟨⟩; simp at now
    | cons => simp only [go]; rintro ⟨⟩; exact absurd now beginRegister_ne_activating

lemma arrive_activating {l : Label} (target : l.target = some w) (free : s.workers w = .idle)
    (st : arrive s l = some s') (now : s'.workers w = .activating sid phase) :
    ∃ row, s.strategies[sid]? = some row ∧ Activating.Begins s row phase := by
  have idle : s.workers w ≠ .activating sid phase := by rw [free]; simp
  revert st
  cases l <;> simp only [Label.target, some.injEq, reduceCtorEq] at target <;> subst target <;>
    simp only [arrive]
  case register => rintro ⟨⟩; exact absurd now beginRegister_ne_activating
  case unregister => rintro ⟨⟩; exact absurd now beginUnregister_ne_activating
  case reload =>
    repeat' split
    all_goals rintro ⟨⟩
    all_goals first | exact absurd now idle | exact absurd now beginUnregister_ne_activating
  case shutdown => rintro ⟨⟩; simp at now
  case barTick | overlayTick | eventBar | eventFallback | signal | fill =>
    rintro ⟨⟩
    simp [beginDispatch] at now
  case initiate =>
    split
    · rintro ⟨⟩; exact absurd now idle
    · rename_i row get
      split
      · rename_i ok
        rintro ⟨⟩
        rw [State.move_workers, update_self] at now
        cases now
        simp only [Bool.and_eq_true, Bool.or_eq_true, decide_eq_true_eq] at ok
        exact ⟨row, get, .initiate ok.1.1.2⟩
      · rintro ⟨⟩; exact absurd now idle
  case cancel =>
    split
    · rintro ⟨⟩; exact absurd now idle
    · rename_i row get
      split
      · rename_i ok
        rintro ⟨⟩
        rw [State.move_workers, update_self] at now
        cases now
        simp only [Bool.and_eq_true, decide_eq_true_eq] at ok
        exact ⟨row, get, .cancel ok.2⟩
      · rintro ⟨⟩; exact absurd now idle
  case complete =>
    split
    · rintro ⟨⟩; exact absurd now idle
    · rename_i row get
      split
      · rintro ⟨⟩; exact absurd now idle
      · rename_i pending
        have pending : row.status = .pendingLive := by simpa using pending
        split
        · rintro ⟨⟩
          rw [State.move_workers, update_self] at now
          cases now
          exact ⟨row, get, .demote pending⟩
        · rename_i initiatedAt stamp
          split
          · rintro ⟨⟩; exact absurd now idle
          · rename_i ripe
            rintro ⟨⟩
            rw [State.move_workers, update_self] at now
            cases now
            exact ⟨row, get, .complete pending initiatedAt stamp (not_lt.1 ripe)⟩
  case deactivate =>
    split
    · rintro ⟨⟩; exact absurd now idle
    · rename_i row get
      split
      · rename_i ok
        rintro ⟨⟩
        rw [State.move_workers, update_self] at now
        cases now
        simp only [Bool.and_eq_true, Bool.or_eq_true, decide_eq_true_eq] at ok
        exact ⟨row, get, .deactivate ok.2⟩
      · rintro ⟨⟩; exact absurd now idle
  all_goals
    repeat' split
    all_goals rintro ⟨⟩
    all_goals first | exact absurd now idle | simp at now

end Activations

/-! ## The map of running strategies -/

/-- The operations that may write strategy `sid` or its entry in `_running`. -/
def Worker.engaged (sid : Nat) : Worker → Bool
  | .registering _ i _ | .unloaded i _ | .activating i _ | .failing _ _ i | .erroring _ _ i _
  | .evicting _ _ i => i = sid
  | .stopping _ r | .closing _ r _ _ => r.strategyId = sid
  | .tripping _ halts => sid ∈ halts
  | _ => false

/-- Every instance is filed under its own strategy. -/
structure Keyed (s : State) : Prop where
  running : ∀ k r, s.running.get k = some r → r.strategyId = k
  committing : ∀ w c sid row r, s.workers w = .registering c sid (.committing row r) → r.strategyId = sid
  putting : ∀ w c sid r, s.workers w = .registering c sid (.putting r) → r.strategyId = sid

section Running
variable {s s' : State} {w sid : Nat} {inp : Input} {worker : Worker} {c : Caller}

lemma beginUnregister_running (k : Nat) :
    (s.beginUnregister w c sid).running.get k = s.running.get k ∨ (s.beginUnregister w c sid).running.get k = none ∧
        ∃ r, (s.beginUnregister w c sid).workers w = .stopping c r ∧ s.running.get k = some r := by
  unfold State.beginUnregister
  split
  · exact .inl (by rw [returnTo_fields.2.2.2])
  · rename_i r get
    by_cases eq : k = sid
    · subst eq
      refine .inr ⟨?_, r, by simp, get⟩
      rw [State.move_running, State.setRunning_running, get_erase, if_pos rfl]
    · left
      rw [State.move_running, State.setRunning_running, get_erase, if_neg eq]

lemma go_running (st : go s w inp worker = some s') (k : Nat) :
    s'.running.get k = s.running.get k ∨
    (s'.running.get k = none ∧ ((∃ path pending, worker = .evicting path pending k) ∨
      ∃ c r, s'.workers w = .stopping c r ∧ s.running.get k = some r)) ∨
    ∃ c r, worker = .registering c k (.putting r) ∧ s'.running.get k = some r := by
  have popped {c : Caller} {i : Nat} (eq : s' = s.beginUnregister w c i) :
      s'.running.get k = s.running.get k ∨
      (s'.running.get k = none ∧ ((∃ path pending, worker = .evicting path pending k) ∨
        ∃ c r, s'.workers w = .stopping c r ∧ s.running.get k = some r)) ∨
      ∃ c r, worker = .registering c k (.putting r) ∧ s'.running.get k = some r := by
    subst eq
    rcases @beginUnregister_running s w i c k with same | ⟨none, r, stop, get⟩
    · exact .inl same
    · exact .inr (.inl ⟨none, .inr ⟨c, r, stop, get⟩⟩)
  revert st
  cases worker with
  | idle | stopped => simp [go]
  | registering c i phase =>
    simp only [go]
    rintro ⟨⟩
    cases phase with
    | putting r =>
      by_cases eq : k = i
      · subst eq
        exact .inr (.inr ⟨c, r, rfl, get_set_self⟩)
      · exact .inl (get_set_of_ne eq)
    | checking | loading | starting | rechecking =>
      simp only [goRegister]
      repeat' split
      all_goals exact .inl (by simp)
    | opening | committing | returning | marking => exact .inl (by simp [goRegister, State.returned])
  | unloaded => simp only [go]; rintro ⟨⟩; exact .inl (by simp)
  | stopping | resetting | booting | tripping => simp only [go]; rintro ⟨⟩; exact .inl rfl
  | closing =>
    simp only [go]
    rintro ⟨⟩
    rw [returnTo_fields.2.2.2]
    repeat' split
    all_goals exact .inl rfl
  | dispatching => simp only [go]; rintro ⟨⟩; exact .inl (by rw [goDispatch_fields.2.2.2])
  | failing => simp only [go]; split <;> rintro ⟨⟩ <;> exact .inl rfl
  | erroring => simp only [go]; rintro ⟨⟩; split <;> exact .inl rfl
  | evicting path pending i =>
    simp only [go]
    rintro ⟨⟩
    rw [State.move_running, State.setRunning_running, get_erase]
    by_cases eq : k = i
    · subst eq
      exact .inr (.inl ⟨if_pos rfl, .inl ⟨path, pending, rfl⟩⟩)
    · exact .inl (if_neg eq)
  | activating i phase =>
    simp only [go]
    intro st
    cases phase with
    | initiated => exact popped (some.inj st).symm
    | promoted => cases st; exact .inl (by simp [goActivate])
    | completing =>
      cases st
      simp only [goActivate]
      repeat' split
      all_goals exact .inl rfl
    | _ => cases st; exact .inl rfl
  | shuttingDown rest =>
    cases rest with
    | nil => simp only [go]; rintro ⟨⟩; exact .inl rfl
    | cons => simp only [go]; intro st; exact popped (some.inj st).symm
  | resuming rest began =>
    cases rest with
    | nil =>
      simp only [go]
      rintro ⟨⟩
      split <;> exact .inl rfl
    | cons => simp only [go]; rintro ⟨⟩; exact .inl (by simp)

lemma arrive_running {l : Label} (target : l.target = some w) (st : arrive s l = some s') (k : Nat) :
    s'.running.get k = s.running.get k ∨
      s'.running.get k = none ∧ ∃ c r, s'.workers w = .stopping c r ∧ s.running.get k = some r := by
  have popped {c : Caller} {i : Nat} (eq : s' = s.beginUnregister w c i) :
      s'.running.get k = s.running.get k ∨
      s'.running.get k = none ∧ ∃ c r, s'.workers w = .stopping c r ∧ s.running.get k = some r := by
    subst eq
    rcases @beginUnregister_running s w i c k with same | ⟨none, r, stop, get⟩
    · exact .inl same
    · exact .inr ⟨none, c, r, stop, get⟩
  revert st
  cases l <;> simp only [Label.target, some.injEq, reduceCtorEq] at target <;> subst target <;>
    simp only [arrive]
  case register => rintro ⟨⟩; exact .inl (by simp)
  case unregister => intro st; exact popped (some.inj st).symm
  case reload =>
    repeat' split
    all_goals intro st
    all_goals first | exact popped (some.inj st).symm | (cases st; exact .inl rfl)
  case shutdown | barTick | overlayTick | eventBar | eventFallback | signal | fill =>
    rintro ⟨⟩
    exact .inl rfl
  all_goals
    repeat' split
    all_goals rintro ⟨⟩
    all_goals exact .inl rfl

lemma keyed_step {l : Label} (h : Keyed s) (st : step s l = some s') : Keyed s' := by
  replace st := step_cases st
  rcases st with ⟨_, _, rfl, -⟩ | ⟨_, -, rfl⟩ | ⟨w, -, rfl⟩ | ⟨w, inp, rfl, st⟩ | ⟨w, target, free, st⟩
  · exact ⟨h.running, h.committing, h.putting⟩
  · exact ⟨h.running, h.committing, h.putting⟩
  · have booting {w' : Nat} {c : Caller} {sid : Nat} {phase : Registering} {b : Option (List StrategyStatus)} :
        Function.update (fun _ => Worker.idle) w (.booting b) w' ≠ .registering c sid phase := by
      by_cases eq : w' = w <;> simp [Function.update, eq]
    exact ⟨by simp, fun w' c sid row r now => absurd now booting, fun w' c sid r now => absurd now booting⟩
  · have frame := go_frame st
    refine ⟨?_, ?_, ?_⟩
    · intro k r get
      rcases go_running st k with same | ⟨none, -⟩ | ⟨c, r', here, put⟩
      · exact h.running k r (same ▸ get)
      · rw [none] at get; cases get
      · rw [put] at get
        cases get
        exact h.putting w c k r here
    · intro w' c sid row r now
      by_cases eq : w' = w
      · subst eq
        rcases go_registering st now with ⟨_, ph, -⟩ | ⟨before, -, next⟩
        · cases ph
        · cases next
          rfl
      · exact h.committing w' c sid row r (frame.workers w' eq ▸ now)
    · intro w' c sid r now
      by_cases eq : w' = w
      · subst eq
        rcases go_registering st now with ⟨_, ph, -⟩ | ⟨before, here, next⟩
        · cases ph
        · cases next with
          | committed row => exact h.committing w' c sid row r here
      · exact h.putting w' c sid r (frame.workers w' eq ▸ now)
  · have frame := arrive_frame target st
    refine ⟨?_, ?_, ?_⟩
    · intro k r get
      rcases arrive_running target st k with same | ⟨none, -⟩
      · exact h.running k r (same ▸ get)
      · rw [none] at get; cases get
    · intro w' c sid row r now
      by_cases eq : w' = w
      · subst eq
        obtain ⟨_, ph, -⟩ := arrive_registering target free st now
        cases ph
      · exact h.committing w' c sid row r (frame.workers w' eq ▸ now)
    · intro w' c sid r now
      by_cases eq : w' = w
      · subst eq
        obtain ⟨_, ph, -⟩ := arrive_registering target free st now
        cases ph
      · exact h.putting w' c sid r (frame.workers w' eq ▸ now)

lemma keyed_start {strategies : List Strategy} {accounts : Dict Nat Account} {holds : Nat → Bool}
    {clock : Instant} : Keyed (start strategies accounts holds clock) :=
  ⟨by simp [start], by simp [start], by simp [start]⟩

lemma rewrite_of_not_engaged {row : Strategy} (off : worker.engaged sid = false) : worker.rewrite sid row = row := by
  cases worker with
  | registering c i phase =>
    have ne : ¬ i = sid := by simpa [Worker.engaged] using off
    cases phase <;> simp [Worker.rewrite, ne]
  | activating i phase =>
    have ne : ¬ i = sid := by simpa [Worker.engaged] using off
    cases phase <;> simp [Worker.rewrite, ne]
  | closing c r loaded isOpen =>
    have ne : ¬ r.strategyId = sid := by simpa [Worker.engaged] using off
    cases loaded <;> simp [Worker.rewrite, ne]
  | erroring path pending i loaded =>
    have ne : ¬ i = sid := by simpa [Worker.engaged] using off
    simp [Worker.rewrite, ne]
  | tripping a halts =>
    have ne : sid ∉ halts := by simpa [Worker.engaged] using off
    simp [Worker.rewrite, ne]
  | _ => rfl

lemma go_untouched (keyed : Keyed s) (before : worker.engaged sid = false)
    (after : (s'.workers w).engaged sid = false) (st : go s w inp worker = some s') :
    s'.strategies[sid]? = s.strategies[sid]? ∧ s'.running.get sid = s.running.get sid := by
  refine ⟨?_, ?_⟩
  · rw [go_row st]
    cases s.strategies[sid]? with
    | none => rfl
    | some row => rw [map_some, rewrite_of_not_engaged before]
  · rcases go_running st sid with same | ⟨-, ⟨path, pending, rfl⟩ | ⟨c, r, stop, get⟩⟩ | ⟨c, r, rfl, -⟩
    · exact same
    · simp [Worker.engaged] at before
    · rw [stop] at after
      simp [Worker.engaged, keyed.running sid r get] at after
    · simp [Worker.engaged] at before

lemma arrive_untouched {l : Label} (keyed : Keyed s) (target : l.target = some w)
    (after : (s'.workers w).engaged sid = false) (st : arrive s l = some s') :
    s'.strategies[sid]? = s.strategies[sid]? ∧ s'.running.get sid = s.running.get sid := by
  refine ⟨by rw [(arrive_fields st).1], ?_⟩
  rcases arrive_running target st sid with same | ⟨-, c, r, stop, get⟩
  · exact same
  · rw [stop] at after
    simp [Worker.engaged, keyed.running sid r get] at after

end Running

/-! ## Laws of the record

How a law of every entry passes through the writes. -/

def Event.isRead : Event → Bool
  | .statusRead .. | .sessionRead .. => true
  | _ => false

/-- What a dispatch records: reads, or the entry of the instance it has in hand. An `on_bar` is
    entered from the session read of a streamed bar or from the symbol loop. -/
lemma entry_goDispatch (s : State) (w : Nat) (inp : Input) (path : Path) (pending : List RunningStrategy)
    (phase : Dispatching) :
    (∃ evs : List Event, (goDispatch s w path pending inp phase).log = evs ++ s.log ∧ ∀ e ∈ evs, e.isRead = true) ∨
    ∃ (r : RunningStrategy) (evs : List Event), (goDispatch s w path pending inp phase).log =
        .entered w path r (boundMode s.accounts r) (s.status r.strategyId) :: (evs ++ s.log) ∧
      (∀ e ∈ evs, e.isRead = true) ∧ (path.onBar = true → phase = .session r ∨
        ∃ symbol rest, phase = .fetch r (symbol :: rest) ∧ inp.bar = true) := by
  have none : ∀ e ∈ ([] : List Event), e.isRead = true := by simp
  cases phase with
  | next =>
    cases pending with
    | nil => exact .inl ⟨[], rfl, none⟩
    | cons r rest =>
      simp only [goDispatch]
      split
      · rename_i fill
        refine .inr ⟨r, [], rfl, none, fun onBar => ?_⟩
        rw [fill] at onBar
        cases onBar
      split
      · exact .inl ⟨[], rfl, none⟩
      split
      · exact .inl ⟨[], rfl, none⟩
      rename_i ungated
      split
      · exact .inl ⟨[], rfl, none⟩
      · rename_i notFallback
        refine .inr ⟨r, [], rfl, none, fun onBar => ?_⟩
        cases path <;> simp_all [Path.gated, Path.onBar]
  | status r => exact .inl ⟨[_], rfl, by simp [Event.isRead]⟩
  | session r =>
    have read {allowed : Bool} : ∀ e ∈ [Event.sessionRead w r.strategyId allowed], e.isRead = true := by
      simp [Event.isRead]
    simp only [goDispatch]
    split
    · exact .inl ⟨[_], rfl, read⟩
    split
    · exact .inl ⟨[_], rfl, read⟩
    split
    · exact .inl ⟨[_], rfl, read⟩
    · exact .inr ⟨r, [_], rfl, read, fun _ => .inl rfl⟩
  | claim r => exact .inl ⟨[], rfl, none⟩
  | fetch r symbols =>
    cases symbols with
    | nil => exact .inl ⟨[], rfl, none⟩
    | cons symbol rest =>
      simp only [goDispatch]
      split
      · rename_i bar
        exact .inr ⟨r, [], rfl, none, fun _ => .inr ⟨symbol, rest, rfl, bar⟩⟩
      · exact .inl ⟨[], rfl, none⟩
  | hook r symbols =>
    simp only [goDispatch]
    split <;> exact .inl ⟨[], rfl, none⟩

section Entries
variable {P : Event → List Event → Prop} {s : State} {w i : Nat} {c : Caller}

lemma each_write {loaded new : StrategyStatus} {writer : Writer} (h : Each P s.log)
    (wrote : new ≠ loaded → P (.wrote i new writer s.clock) s.log) : Each P (s.write i loaded new writer).log := by
  rw [State.write_log]
  split
  · exact h
  · exact each_cons.2 ⟨wrote ‹_›, h⟩

lemma each_returnTo {ok : Bool} (h : Each P s.log) (reloaded : ∀ began, c = .reload began →
      P (.reloaded i began ok (s.status i) (s.binding i)) s.log) : Each P (s.returnTo w i ok c).log := by
  cases c with
  | reload began => exact each_cons.2 ⟨reloaded began rfl, h⟩
  | _ => exact h

lemma each_beginRegister {intent : RegistrationIntent} (h : Each P s.log)
    (returned : ∀ r, s.running.get i = some r → Each P (s.returned w i c).log)
    (called : P (.called w i) s.log) : Each P (s.beginRegister w c i intent).log := by
  unfold State.beginRegister
  split
  · exact returned _ ‹_›
  · exact each_cons.2 ⟨called, h⟩

lemma each_beginUnregister (h : Each P s.log) (reloaded : ∀ began, c = .reload began →
      P (.reloaded i began true (s.status i) (s.binding i)) s.log) : Each P (s.beginUnregister w c i).log := by
  unfold State.beginUnregister
  split
  · exact each_returnTo h reloaded
  · exact h

/-- Apart from the promotion and the registration after it, an activation records only the status it writes. -/
lemma each_goActivate {inp : Input} {phase : Activating} (h : Each P s.log)
    (wrote : ∀ status writer, status ≠ .live → (∀ v, writer ≠ .register v) → P (.wrote i status writer s.clock) s.log)
    (promoting : ∀ row, phase = .promoting row → Each P (goActivate s w i inp phase).log)
    (promoted : phase = .promoted → Each P (goActivate s w i inp phase).log) :
    Each P (goActivate s w i inp phase).log := by
  cases phase with
  | initiating => exact h
  | stamped row time => exact each_write (s := s.stamp i (some time)) h fun _ => wrote _ _ (by decide) nofun
  | canceling row => exact each_write (s := s.stamp i none) h fun _ => wrote _ _ (by decide) nofun
  | demoting | deactivating => exact each_write h fun _ => wrote _ _ (by decide) nofun
  | initiated => exact each_beginUnregister h (by simp)
  | completing =>
    simp only [goActivate]
    repeat' split
    all_goals exact h
  | promoting row => exact promoting row rfl
  | promoted => exact promoted rfl

end Entries

/-! ## The record of status writes -/

/-- The last recorded write of a strategy's status. -/
def lastWrite (sid : Nat) : List Event → Option (StrategyStatus × Writer × Instant)
  | [] => none
  | .wrote i status writer time :: log => if i = sid then some (status, writer, time) else lastWrite sid log
  | _ :: log => lastWrite sid log

/-- What the ORM writes of a status computed from a loaded one. -/
def written (loaded new : StrategyStatus) (writer : Writer) : Option (StrategyStatus × Writer) :=
  if new = loaded then none else some (new, writer)

/-- The write of a worker's next step to the status of `sid`. -/
def Worker.writes (w sid : Nat) : Worker → Option (StrategyStatus × Writer)
  | .registering _ i (.committing row _) =>
    if i = sid then written row.status (runStatus row) (.register w) else none
  | .registering _ i (.marking loaded) => if i = sid then written loaded .error (.register w) else none
  | .closing _ r (some loaded) _ =>
    if r.strategyId = sid ∧ loaded.runnable then written loaded .idle .unregister else none
  | .erroring _ _ i loaded => if i = sid then written loaded .error .exception else none
  | .activating i (.stamped row _) => if i = sid then written row.status .pendingLive .initiate else none
  | .activating i (.canceling row) => if i = sid then written row.status .idle .cancel else none
  | .activating i (.demoting row) => if i = sid then written row.status .idle .complete else none
  | .activating i (.promoting row) => if i = sid then written row.status .live .complete else none
  | .activating i (.deactivating row) => if i = sid then written row.status .idle .deactivate else none
  | .tripping _ halts => if sid ∈ halts then some (.halted, .breaker) else none
  | _ => none

section Writes
variable {s s' : State} {w sid i : Nat} {inp : Input} {worker : Worker} {c : Caller}

lemma split_of_lastWrite {log : List Event} {status : StrategyStatus} {writer : Writer} {time : Instant}
    (h : lastWrite sid log = some (status, writer, time)) :
    ∃ mid rest, log = mid ++ Event.wrote sid status writer time :: rest ∧
      ∀ status' writer' time', Event.wrote sid status' writer' time' ∉ mid := by
  induction log with
  | nil => cases h
  | cons e log ih =>
    have back (h : lastWrite sid log = some (status, writer, time))
        (other : ∀ status' writer' time', e ≠ .wrote sid status' writer' time') :
        ∃ mid rest, e :: log = mid ++ Event.wrote sid status writer time :: rest ∧
          ∀ status' writer' time', Event.wrote sid status' writer' time' ∉ mid := by
      obtain ⟨mid, rest, rfl, none⟩ := ih h
      refine ⟨e :: mid, rest, rfl, fun status' writer' time' mem => ?_⟩
      rcases mem_cons.1 mem with eq | mem
      · exact other _ _ _ eq.symm
      · exact none _ _ _ mem
    cases e with
    | wrote i status' writer' time' =>
      simp only [lastWrite] at h
      split at h
      · rename_i eq
        subst eq
        cases h
        exact ⟨[], log, rfl, by simp⟩
      · rename_i ne
        exact back h fun _ _ _ eq => ne (by cases eq; rfl)
    | _ => exact back h (by simp)

lemma lastWrite_write {loaded new : StrategyStatus} {writer : Writer} :
    lastWrite sid (s.write i loaded new writer).log =
      ((if i = sid then written loaded new writer else none).map fun x => (x.1, x.2, s.clock)).or
        (lastWrite sid s.log) := by
  rw [State.write_log]
  unfold written
  by_cases same : new = loaded
  · simp [same]
  · by_cases eq : i = sid <;> simp [same, eq, lastWrite]

@[simp] lemma lastWrite_returnTo {ok : Bool} : lastWrite sid (s.returnTo w i ok c).log = lastWrite sid s.log := by
  cases c <;> rfl

@[simp] lemma lastWrite_returned : lastWrite sid (s.returned w i c).log = lastWrite sid s.log := by
  rw [State.returned, lastWrite_returnTo]
  rfl

@[simp] lemma lastWrite_beginRegister {intent : RegistrationIntent} :
    lastWrite sid (s.beginRegister w c i intent).log = lastWrite sid s.log := by
  unfold State.beginRegister
  split
  · exact lastWrite_returned
  · rfl

@[simp] lemma lastWrite_beginUnregister : lastWrite sid (s.beginUnregister w c i).log = lastWrite sid s.log := by
  unfold State.beginUnregister
  split
  · exact lastWrite_returnTo
  · rfl

lemma lastWrite_goDispatch {path : Path} {pending : List RunningStrategy} {phase : Dispatching} :
    lastWrite sid (goDispatch s w path pending inp phase).log = lastWrite sid s.log := by
  cases phase with
  | next | session | hook =>
    simp only [goDispatch]
    repeat' split
    all_goals rfl
  | status | claim => rfl
  | fetch r symbols =>
    cases symbols <;> simp only [goDispatch]
    · rfl
    · split <;> rfl

lemma lastWrite_trip {a : Nat} {halts : List Nat} :
    lastWrite sid (commitTrip s a halts).log =
      ((if sid ∈ halts then some (StrategyStatus.halted, Writer.breaker) else none).map
        fun x => (x.1, x.2, s.clock)).or (lastWrite sid s.log) := by
  show lastWrite sid (halts.map (Event.wrote · .halted .breaker s.clock) ++ s.log) = _
  induction halts with
  | nil => simp
  | cons j halts ih =>
    rw [map_cons, cons_append, lastWrite, ih]
    by_cases eq : j = sid
    · simp [eq]
    · simp [eq, Ne.symm eq]

lemma go_lastWrite (st : go s w inp worker = some s') :
    lastWrite sid s'.log = ((worker.writes w sid).map fun x => (x.1, x.2, s.clock)).or (lastWrite sid s.log) := by
  revert st
  cases worker with
  | idle | stopped => simp [go]
  | registering c i phase =>
    simp only [go]
    rintro ⟨⟩
    cases phase with
    | committing row r => exact lastWrite_write
    | marking loaded => simp only [goRegister, lastWrite_returnTo]; exact lastWrite_write
    | checking | loading | starting | rechecking =>
      simp only [goRegister]
      repeat' split
      all_goals first | exact lastWrite_returnTo | rfl
    | opening | putting => rfl
    | returning => exact lastWrite_returned
  | unloaded => simp only [go]; rintro ⟨⟩; exact lastWrite_beginRegister
  | stopping | resetting | booting | evicting => simp only [go]; rintro ⟨⟩; rfl
  | closing c r loaded isOpen =>
    have closed : lastWrite sid (if isOpen then s.close r.runId .idle else s).log = lastWrite sid s.log := by
      split <;> rfl
    have clock : (if isOpen then s.close r.runId .idle else s).clock = s.clock := by split <;> rfl
    simp only [go]
    rintro ⟨⟩
    rw [lastWrite_returnTo]
    cases loaded with
    | none => exact closed
    | some status =>
      simp only [Worker.writes]
      split
      · rename_i runnable
        rw [lastWrite_write, closed, clock]
        simp [runnable]
      · rename_i not
        simp only [not, Bool.false_eq_true, and_false, if_false]
        exact closed
  | dispatching => simp only [go]; rintro ⟨⟩; exact lastWrite_goDispatch
  | failing => simp only [go]; split <;> rintro ⟨⟩ <;> rfl
  | erroring path pending i loaded =>
    simp only [go]
    rintro ⟨⟩
    split <;> exact lastWrite_write (s := s)
  | activating i phase =>
    simp only [go]
    rintro ⟨⟩
    cases phase with
    | initiating => rfl
    | stamped row time => exact lastWrite_write (s := s.stamp i (some time))
    | canceling row => exact lastWrite_write (s := s.stamp i none)
    | demoting | deactivating | promoting => exact lastWrite_write (s := s)
    | initiated => exact lastWrite_beginUnregister
    | completing =>
      simp only [goActivate]
      repeat' split
      all_goals rfl
    | promoted => exact lastWrite_beginRegister
  | tripping => simp only [go]; rintro ⟨⟩; exact lastWrite_trip
  | shuttingDown rest =>
    cases rest <;> simp only [go] <;> rintro ⟨⟩ <;> [rfl; exact lastWrite_beginUnregister]
  | resuming rest began =>
    cases rest with
    | nil => simp only [go]; rintro ⟨⟩; split <;> rfl
    | cons => simp only [go]; rintro ⟨⟩; exact lastWrite_beginRegister

lemma arrive_lastWrite {l : Label} (st : arrive s l = some s') : lastWrite sid s'.log = lastWrite sid s.log := by
  revert st
  cases l <;> simp only [arrive, reduceCtorEq, false_imp_iff]
  case register => rintro ⟨⟩; exact lastWrite_beginRegister
  case unregister => rintro ⟨⟩; exact lastWrite_beginUnregister
  case reload =>
    repeat' split
    all_goals rintro ⟨⟩
    all_goals first | rfl | exact lastWrite_beginUnregister
  case shutdown | barTick | overlayTick | eventBar | eventFallback | signal | fill =>
    rintro ⟨⟩
    rfl
  all_goals
    repeat' split
    all_goals rintro ⟨⟩
    all_goals rfl

end Writes

/-! ## Clones are never PAPER -/

def Registering.row : Registering → Option Strategy
  | .starting _ row _ | .rechecking row _ _ | .opening row _ _ | .committing row _ => some row
  | _ => none

/-- A clone is never in PAPER, and what a registration has loaded is a clone if and only if the row
    is. -/
structure Lineage (s : State) : Prop where
  clone : ∀ (sid : Nat) (row : Strategy), s.strategies[sid]? = some row → row.parentStrategyId.isSome = true →
    row.status ≠ .paper
  loaded : ∀ w c sid phase row, s.workers w = .registering c sid phase → phase.row = some row →
    ∃ row', s.strategies[sid]? = some row' ∧ row'.parentStrategyId = row.parentStrategyId

section Lineage
variable {s s' : State} {w sid : Nat} {inp : Input} {worker : Worker}

@[simp] lemma setStatus_parent {loaded new : StrategyStatus} {row : Strategy} :
    (setStatus loaded new row).parentStrategyId = row.parentStrategyId := by
  unfold setStatus
  split <;> rfl

@[simp] lemma rewrite_parent {row : Strategy} : (worker.rewrite sid row).parentStrategyId = row.parentStrategyId := by
  unfold Worker.rewrite
  repeat' split
  all_goals first | rfl | exact setStatus_parent

lemma setStatus_status (loaded new : StrategyStatus) (row : Strategy) :
    (setStatus loaded new row).status = row.status ∨ (setStatus loaded new row).status = new := by
  unfold setStatus
  split
  · exact .inl rfl
  · exact .inr rfl

lemma rewrite_paper {row : Strategy} (paper : (worker.rewrite sid row).status = .paper) :
    row.status = .paper ∨ ∃ c loaded r, worker = .registering c sid (.committing loaded r) ∧
      runStatus loaded = .paper := by
  have other {loaded new : StrategyStatus} {row' : Strategy} (ne : new ≠ .paper)
      (same : row'.status = row.status) (h : (setStatus loaded new row').status = .paper) :
      row.status = .paper := by
    rcases setStatus_status loaded new row' with eq | eq
    · rw [← same, ← eq]
      exact h
    · exact absurd (eq.symm.trans h) ne
  unfold Worker.rewrite at paper
  split at paper
  · split at paper
    · rename_i c i loaded r eq
      subst eq
      rcases setStatus_status loaded.status (runStatus loaded) row with same | new
      · exact .inl (same.symm.trans paper)
      · exact .inr ⟨_, _, _, rfl, new.symm.trans paper⟩
    · exact .inl paper
  all_goals
    try split at paper
    all_goals first
      | exact .inl paper | exact .inl (other (by decide) (by rfl) paper) | cases paper

lemma lineage_step {l : Label} (h : Lineage s) (st : step s l = some s') : Lineage s' := by
  replace st := step_cases st
  rcases st with ⟨_, _, rfl, -⟩ | ⟨_, -, rfl⟩ | ⟨w, -, rfl⟩ | ⟨w, inp, rfl, st⟩ | ⟨w, target, free, st⟩
  · exact ⟨h.clone, h.loaded⟩
  · exact ⟨h.clone, h.loaded⟩
  · refine ⟨h.clone, ?_⟩
    intro w' c sid phase row now
    rcases restart_workers (show step s (.restart w) = some _ from rfl) w' with eq | ⟨_, eq⟩ <;>
      cases eq.symm.trans now
  · have frame := go_frame st
    have kept {i : Nat} {row : Strategy} (get : s.strategies[i]? = some row) :
        ∃ row', s'.strategies[i]? = some row' ∧ row'.parentStrategyId = row.parentStrategyId := by
      rw [go_row st, get]
      exact ⟨_, rfl, rewrite_parent⟩
    refine ⟨?_, ?_⟩
    · intro sid row get parent paper
      rw [go_row st] at get
      obtain ⟨old, was, rfl⟩ := map_eq_some_iff.1 get
      rw [rewrite_parent] at parent
      rcases rewrite_paper paper with paper | ⟨c, loaded, r, here, run⟩
      · exact h.clone sid old was parent paper
      · obtain ⟨row', get', same⟩ := h.loaded w c sid _ loaded here rfl
        rw [was] at get'
        cases get'
        rw [same] at parent
        unfold runStatus at run
        rw [parent] at run
        split at run <;> cases run
    · intro w' c sid phase row now loaded
      by_cases eq : w' = w
      · subst eq
        rcases go_registering st now with ⟨_, rfl, -⟩ | ⟨before, here, next⟩
        · cases loaded
        · cases next with
          | loaded intent row' a get =>
            cases loaded
            exact kept get
          | checked | unbound | raised | committed | stored => cases loaded
          | initialized | rechecked | opened =>
            cases loaded
            obtain ⟨row', get, same⟩ := h.loaded w' c sid _ row here rfl
            obtain ⟨row'', get', same'⟩ := kept get
            exact ⟨row'', get', same'.trans same⟩
      · obtain ⟨row', get, same⟩ := h.loaded w' c sid phase row (frame.workers w' eq ▸ now) loaded
        obtain ⟨row'', get', same'⟩ := kept get
        exact ⟨row'', get', same'.trans same⟩
  · have frame := arrive_frame target st
    refine ⟨by rw [(arrive_fields st).1]; exact h.clone, ?_⟩
    intro w' c sid phase row now loaded
    rw [(arrive_fields st).1]
    by_cases eq : w' = w
    · subst eq
      obtain ⟨_, rfl, -⟩ := arrive_registering target free st now
      cases loaded
    · exact h.loaded w' c sid phase row (frame.workers w' eq ▸ now) loaded

lemma lineage_start {strategies : List Strategy} {accounts : Dict Nat Account} {holds : Nat → Bool}
    {clock : Instant} : Lineage (start strategies accounts holds clock) := by
  refine ⟨?_, by simp [start]⟩
  intro sid row get _
  simp only [start, getElem?_map] at get
  obtain ⟨row', -, rfl⟩ := map_eq_some_iff.1 get
  show (if row'.status = .paperVariant then StrategyStatus.paperVariant else .idle) ≠ .paper
  split <;> decide

end Lineage

end Workbench.Strategies
