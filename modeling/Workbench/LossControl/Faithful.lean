import Workbench.LossControl.Sessions

/-!
# The event log is a serialized history

What the compare-and-swap guards is the version alone, and the event is computed from a row that was
read before it. The invariant that carries the log through every interleaving is that a row some
session has read is the row of the account at an earlier point of its log (`Past`): two such rows with
the same version are the same row, so a swap that wins has read the current one.

`log_is_faithful_history` is the result. `requests_linearizable` says that the database is the one that some of the
calls leave when they are served one after the other, each with the answer it was given.
-/

set_option linter.dupNamespace false

namespace Workbench.LossControl
open Workbench.Lib Workbench.Risk.LossControl List Function Option Dict Machine

variable {db db' : Db} {s s' : State} {l : Label} {p q a b : Nat} {call : Call}
variable {row written found : RiskLossControlState} {t : Transition} {event : RiskControlEvent}
variable {phase : Phase} {session : Session}

/-! ## Rows of the past -/

/-- A row that the account had at some point of its log. -/
def Past (db : Db) (a : Nat) (row : RiskLossControlState) : Prop :=
  ∃ k ≤ (eventsOf db a).length, row = rowOf ((eventsOf db a).take k)

lemma Past.current (h : Recorded db a) (get : db.lossControl.get a = some row) : Past db a row := by
  refine ⟨_, le_rfl, ?_⟩
  rw [take_length]
  exact h.row row get

lemma Past.mono (h : Past db a row) (grown : eventsOf db a <+: eventsOf db' a) : Past db' a row := by
  obtain ⟨k, le, rfl⟩ := h
  refine ⟨k, le.trans grown.length_le, ?_⟩
  obtain ⟨more, eq⟩ := grown
  rw [← eq, take_append_of_le_length le]

lemma Past.eq_of_version (h : Past db a row) (version : (rowOf (eventsOf db a)).stateVersion = row.stateVersion) :
    row = rowOf (eventsOf db a) := by
  obtain ⟨k, le, rfl⟩ := h
  have all : k = (eventsOf db a).length := by
    simp only [rowOf, length_take] at version
    omega
  rw [all, take_length]

/-! ## Where a session may stand -/

/-- What the transaction of a call has of the bootstrap row: the row, uncommitted and locked, or a
    committed row it found. -/
def Bootstrapped (s : State) (p : Nat) (call : Call) : Prop :=
  if call.inserted then
    s.locks call.req.accountId = some p ∧ s.db.lossControl.get call.req.accountId = none
  else (s.db.lossControl.get call.req.accountId).isSome = true

/-- A session that won its swap: it has the row locked, and the row it read is the one it found. -/
structure Won (s : State) (p : Nat) (call : Call) (row : RiskLossControlState) (t : Transition)
    (written : RiskLossControlState) : Prop where
  locked : s.locks call.req.accountId = some p
  sees : call.sees s.db = some row
  adjudicated : adjudicate row call.req = .ok t
  written : written = casAdvance row t.toState

/-- What holds of a session by where it stands. -/
def Standing (s : State) (p : Nat) : Phase → Prop
  | .idle => True
  | .ensured call => Bootstrapped s p call
  | .loaded call row => Bootstrapped s p call ∧ Past s.db call.req.accountId row
  | .swapped call row t written => Bootstrapped s p call ∧ Won s p call row t written
  | .appended call row t written event => Bootstrapped s p call ∧ Won s p call row t written ∧
      ∃ now, event = transitionEvent row call.req t now

/-- What a step of another session leaves to this one: the rows it has locked, the existence of every
    row, and the log up to now. -/
structure Spares (q : Nat) (s s' : State) : Prop where
  locked : ∀ a, s.locks a = some q →
    s'.locks a = some q ∧ s'.db.lossControl.get a = s.db.lossControl.get a
  rows : ∀ a, (s.db.lossControl.get a).isSome = true → (s'.db.lossControl.get a).isSome = true
  grown : ∀ a, eventsOf s.db a <+: eventsOf s'.db a

lemma Bootstrapped.spared (h : Bootstrapped s q call) (spares : Spares q s s') : Bootstrapped s' q call := by
  unfold Bootstrapped at h ⊢
  split
  · rename_i inserted
    rw [if_pos inserted] at h
    obtain ⟨kept, same⟩ := spares.locked _ h.1
    exact ⟨kept, same.trans h.2⟩
  · rename_i found
    rw [if_neg found] at h
    exact spares.rows _ h

lemma Won.spared (h : Won s q call row t written) (spares : Spares q s s') : Won s' q call row t written := by
  obtain ⟨kept, same⟩ := spares.locked _ h.locked
  refine { h with locked := kept, sees := ?_ }
  rw [← h.sees, Call.sees, Call.sees, same]

lemma Standing.spared (h : Standing s q phase) (spares : Spares q s s') : Standing s' q phase := by
  cases phase with
  | idle => trivial
  | ensured call => exact Bootstrapped.spared h spares
  | loaded call row => exact ⟨h.1.spared spares, h.2.mono (spares.grown _)⟩
  | swapped call row t written => exact ⟨h.1.spared spares, h.2.spared spares⟩
  | appended call row t written event =>
    exact ⟨h.1.spared spares, h.2.1.spared spares, h.2.2⟩

/-- The log of every account is the history of its row, every row a session holds is of the past, and
    every session stands well. -/
structure Sound (s : State) : Prop where
  recorded : ∀ a, Recorded s.db a
  known : ∀ p a row, (s.sessions p).known.get a = some row → Past s.db a row
  standing : ∀ p, Standing s p (s.sessions p).phase

/-- What another session's step has to keep: the locks of this session, and every row and log but those
    the moving session has locked. -/
lemma Spares.of (ne : q ≠ p) (locks : ∀ a, s.locks a = some q → s'.locks a = some q)
    (rows : ∀ a, s'.db.lossControl.get a = s.db.lossControl.get a ∨
      s.locks a = some p ∧ (s'.db.lossControl.get a).isSome = true)
    (grown : ∀ a, eventsOf s.db a <+: eventsOf s'.db a) : Spares q s s' := by
  refine ⟨fun a held => ⟨locks a held, ?_⟩, fun a some_ => ?_, grown⟩
  · rcases rows a with same | ⟨taken, -⟩
    · exact same
    · rw [held] at taken
      exact absurd (some.inj taken) ne
  · rcases rows a with same | ⟨-, some'⟩
    · rw [same]
      exact some_
    · exact some'

lemma unlock_locks (ne : q ≠ p) {c : Nat} (held : s.locks c = some q) : (s.unlock p a).locks c = some q := by
  unfold State.unlock
  dsimp only
  split
  · rename_i mine
    by_cases eq : c = a
    · rw [eq, mine] at held
      exact absurd (some.inj held).symm ne
    · rw [update_of_ne eq]
      exact held
  · exact held

lemma lock_locks (ne : q ≠ p) (free : s.locks a = none ∨ s.locks a = some p) {c : Nat}
    (held : s.locks c = some q) : (s.lock p a).locks c = some q := by
  have other : c ≠ a := by
    intro eq
    rw [eq] at held
    rcases free with free | mine
    · rw [held] at free
      cases free
    · rw [held] at mine
      exact ne (some.inj mine)
  unfold State.lock
  dsimp only
  rw [update_of_ne other]
  exact held

lemma Sound.moved (h : Sound s) (sessions : s'.sessions = Function.update s.sessions p session)
    (recorded : ∀ a, Recorded s'.db a) (spares : ∀ q, q ≠ p → Spares q s s')
    (known : ∀ a row, session.known.get a = some row → Past s'.db a row)
    (standing : Standing s' p session.phase) : Sound s' := by
  refine ⟨recorded, fun q a row get => ?_, fun q => ?_⟩
  · rw [sessions] at get
    by_cases eq : q = p
    · rw [eq, update_self] at get
      exact known a row get
    · rw [update_of_ne eq] at get
      exact (h.known q a row get).mono ((spares q eq).grown a)
  · rw [sessions]
    by_cases eq : q = p
    · rw [eq, update_self]
      exact standing
    · rw [update_of_ne eq]
      exact (h.standing q).spared (spares q eq)

lemma Sound.sees (h : Sound s) (boot : Bootstrapped s p call) (sees : call.sees s.db = some found) :
    found = rowOf (eventsOf s.db call.req.accountId) := by
  unfold Call.sees at sees
  unfold Bootstrapped at boot
  split at sees
  · rename_i inserted
    rw [if_pos inserted] at boot
    rw [(h.recorded _).absent boot.2]
    exact (some.inj sees).symm
  · exact (h.recorded _).row found sees

lemma Recorded.bootstrap (h : ∀ a, Recorded db a)
    (absent : call.inserted = true → db.lossControl.get call.req.accountId = none) :
    Recorded (call.bootstrap db) a := by
  unfold Call.bootstrap
  split
  · rename_i inserted
    have ensured := @Recorded.ensure db a call.req.accountId h
    rw [ensureStateRow, absent inserted] at ensured
    exact ensured
  · exact h a

lemma set_row {rows : Dict Nat RiskLossControlState} {locks : Nat → Option Nat}
    (held : locks a = some p) : (rows.set a row).get b = rows.get b ∨
      locks b = some p ∧ ((rows.set a row).get b).isSome = true := by
  rw [get_set]
  split
  · rename_i eq
    rw [eq]
    exact .inr ⟨held, rfl⟩
  · exact .inl rfl

lemma Sound.step (h : Sound s) (st : Stepped s l s') : Sound s' := by
  cases st with
  | @insert p req idle free absent =>
    refine h.moved rfl h.recorded (fun q ne => ?_) (h.known p) ?_
    · exact .of ne (fun a held => lock_locks ne (.inl free) held) (fun a => .inl rfl)
        fun a => prefix_rfl
    · exact ⟨update_self _ _ _, absent⟩
  | @find p req row idle free present =>
    refine h.moved rfl h.recorded (fun q ne => ?_) (h.known p) ?_
    · exact .of ne (fun a held => held) (fun a => .inl rfl) fun a => prefix_rfl
    · show (s.db.lossControl.get req.accountId).isSome = true
      rw [present]
      rfl
  | @load p call row at_ read =>
    have boot : Bootstrapped s p call := by
      have standing := h.standing p
      rw [at_] at standing
      exact standing
    -- what is read is a copy from an earlier call, or the row the transaction sees
    have past : Past s.db call.req.accountId row := by
      rcases or_eq_some_iff.1 read with copy | ⟨-, sees⟩
      · exact h.known p _ row copy
      · rw [h.sees boot sees]
        exact ⟨_, le_rfl, by rw [take_length]⟩
    refine h.moved rfl h.recorded (fun q ne => ?_) (fun a row' get => ?_) ⟨boot, past⟩
    · exact .of ne (fun a held => held) (fun a => .inl rfl) fun a => prefix_rfl
    · rw [get_set] at get
      split at get
      · rename_i eq
        cases get
        rw [eq]
        exact past
      · exact h.known p a row' get
  | @decline p call row outcome returns at_ adjudicated =>
    have standing := h.standing p
    rw [at_] at standing
    obtain ⟨boot, -⟩ := standing
    have log : ∀ a, eventsOf (call.bootstrap s.db) a = eventsOf s.db a := by
      intro a
      unfold Call.bootstrap
      split <;> rfl
    refine h.moved rfl (fun a => ?_) (fun q ne => ?_) (fun a row get => ?_) trivial
    · refine Recorded.bootstrap h.recorded fun inserted => ?_
      rw [Bootstrapped, if_pos inserted] at boot
      exact boot.2
    · refine .of ne (fun a held => ?_) (fun a => ?_) (fun a => ?_)
      · exact unlock_locks (s := { s with db := call.bootstrap s.db }) ne held
      · show (call.bootstrap s.db).lossControl.get a = _ ∨ _
        unfold Call.bootstrap
        split
        · rename_i inserted
          rw [Bootstrapped, if_pos inserted] at boot
          exact set_row boot.1
        · exact .inl rfl
      · show eventsOf s.db a <+: eventsOf (call.bootstrap s.db) a
        rw [log]
    · obtain ⟨k, le, eq⟩ := h.known p a row get
      show Past (call.bootstrap s.db) a row
      rw [Past, log]
      exact ⟨k, le, eq⟩
  | @win p call row t found at_ adjudicated free sees version =>
    have standing := h.standing p
    rw [at_] at standing
    obtain ⟨boot, past⟩ := standing
    have current := h.sees boot sees
    -- the version decides: the row that was read is the row that is there
    have read : row = found := by
      rw [current] at version ⊢
      exact past.eq_of_version version
    subst read
    refine h.moved rfl h.recorded (fun q ne => ?_) (h.known p) ⟨?_, ?_⟩
    · exact .of ne (fun a held => lock_locks ne free held) (fun a => .inl rfl)
        fun a => prefix_rfl
    · show Bootstrapped _ p call
      unfold Bootstrapped at boot ⊢
      split
      · rename_i inserted
        rw [if_pos inserted] at boot
        exact ⟨update_self _ _ _, boot.2⟩
      · rename_i found
        rw [if_neg found] at boot
        exact boot
    · exact ⟨update_self _ _ _, sees, adjudicated, rfl⟩
  | @lose p call row t at_ adjudicated other =>
    refine h.moved rfl h.recorded (fun q ne => ?_) (fun a row get => ?_) trivial
    · exact .of ne (fun a held => unlock_locks ne held) (fun a => .inl rfl) fun a => prefix_rfl
    · cases get
  | @append p call row t written now at_ =>
    have standing := h.standing p
    rw [at_] at standing
    obtain ⟨boot, won⟩ := standing
    refine h.moved rfl h.recorded (fun q ne => ?_) (h.known p) ⟨boot, { won with }, now, rfl⟩
    exact .of ne (fun a held => held) (fun a => .inl rfl) fun a => prefix_rfl
  | @commit p call row t written event returns at_ =>
    have standing := h.standing p
    rw [at_] at standing
    obtain ⟨boot, won, now, rfl⟩ := standing
    have current := h.sees boot won.sees
    have grown : ∀ a, eventsOf s.db a <+: eventsOf (s.write p call written
        (transitionEvent row call.req t now)).db a := by
      intro a
      show eventsOf s.db a <+: eventsOf { s.db with
        lossControl := s.db.lossControl.set call.req.accountId written
        controlEvents := s.db.controlEvents ++ [transitionEvent row call.req t now] } a
      rw [eventsOf_append]
      exact prefix_append _ _
    have recorded : ∀ a, Recorded (s.write p call written (transitionEvent row call.req t now)).db a := by
      intro a
      rw [won.written]
      exact Recorded.write h.recorded current won.adjudicated
    refine h.moved rfl recorded (fun q ne => ?_) (fun a row' get => ?_) trivial
    · exact .of ne (fun a held => unlock_locks (s := { s with db := _, logged := _ }) ne held)
        (fun a => set_row won.locked) grown
    · rw [get_set] at get
      split at get
      · rename_i eq
        cases get
        rw [eq]
        exact Past.current (recorded _) get_set_self
      · exact (h.known p a row' get).mono (grown a)
  | @abort p call at_ =>
    refine h.moved rfl h.recorded (fun q ne => ?_) (fun a row get => ?_) trivial
    · exact .of ne (fun a held => unlock_locks ne held) (fun a => .inl rfl) fun a => prefix_rfl
    · cases get

/-! ## What the calls appended -/

def State.calling (s : State) (p : Nat) : Option Call := (s.sessions p).phase.call

/-- The log beside the database is the log in it, a call in progress has appended and returned nothing
    yet, no two sessions are in the same call, and a call that returned NOT_APPLIED has appended
    nothing. -/
structure Accounted (s : State) : Prop where
  log : s.logged.map (·.2) = s.db.controlEvents
  logged_lt : ∀ entry ∈ s.logged, entry.1 < s.calls
  returned_lt : ∀ entry ∈ s.returned, entry.1 < s.calls
  calling_lt : ∀ p call, s.calling p = some call → call.id < s.calls
  pending : ∀ p call, s.calling p = some call →
    (∀ entry ∈ s.logged, entry.1 ≠ call.id) ∧ ∀ entry ∈ s.returned, entry.1 ≠ call.id
  apart : ∀ p q call call', s.calling p = some call → s.calling q = some call' →
    call.id = call'.id → p = q
  declined : ∀ entry ∈ s.returned, entry.2.outcome ≠ .applied → ∀ entry' ∈ s.logged, entry'.1 ≠ entry.1

lemma Accounted.moved (h : Accounted s) (sessions : s'.sessions = Function.update s.sessions p session)
    (call : ∀ call', session.phase.call = some call' → s.calling p = some call')
    (db : s'.db.controlEvents = s.db.controlEvents) (calls : s'.calls = s.calls)
    (logged : s'.logged = s.logged) (returned : s'.returned = s.returned) : Accounted s' := by
  have before : ∀ q call', s'.calling q = some call' → s.calling q = some call' := by
    intro q call' at_
    rw [State.calling, sessions] at at_
    by_cases eq : q = p
    · rw [eq, update_self] at at_
      rw [eq]
      exact call call' at_
    · rw [update_of_ne eq] at at_
      exact at_
  refine ⟨?_, ?_, ?_, ?_, ?_, ?_, ?_⟩
  · rw [logged, db]
    exact h.log
  · rw [logged, calls]
    exact h.logged_lt
  · rw [returned, calls]
    exact h.returned_lt
  · intro q call' at_
    rw [calls]
    exact h.calling_lt q call' (before q call' at_)
  · intro q call' at_
    rw [logged, returned]
    exact h.pending q call' (before q call' at_)
  · intro q q' c c' at_ at_' same
    exact h.apart q q' c c' (before q c at_) (before q' c' at_') same
  · rw [returned, logged]
    exact h.declined

lemma Accounted.begin (h : Accounted s) {req : TransitionRequest} {inserted : Bool} :
    Accounted (s.begin p req inserted) := by
  have before : ∀ q call, (s.begin p req inserted).calling q = some call →
      q = p ∧ call.id = s.calls ∨ q ≠ p ∧ s.calling q = some call := by
    intro q call at_
    by_cases eq : q = p
    · simp only [State.calling, State.begin, State.move, eq, update_self] at at_
      cases at_
      exact .inl ⟨eq, rfl⟩
    · simp only [State.calling, State.begin, State.move, update_of_ne eq] at at_
      exact .inr ⟨eq, at_⟩
  refine ⟨h.log, fun e mem => Nat.lt_succ_of_lt (h.logged_lt e mem),
    fun e mem => Nat.lt_succ_of_lt (h.returned_lt e mem), ?_, ?_, ?_, h.declined⟩
  · intro q call at_
    show call.id < s.calls + 1
    rcases before q call at_ with ⟨-, eq⟩ | ⟨-, old⟩
    · omega
    · exact Nat.lt_succ_of_lt (h.calling_lt q call old)
  · intro q call at_
    rcases before q call at_ with ⟨-, eq⟩ | ⟨-, old⟩
    · rw [eq]
      exact ⟨fun e mem => (h.logged_lt e mem).ne, fun e mem => (h.returned_lt e mem).ne⟩
    · exact h.pending q call old
  · intro q q' c c' at_ at_' same
    rcases before q c at_ with ⟨rfl, eq⟩ | ⟨-, old⟩ <;> rcases before q' c' at_' with ⟨rfl, eq'⟩ | ⟨-, old'⟩
    · rfl
    · have lt := h.calling_lt q' c' old'
      omega
    · have lt := h.calling_lt q c old
      omega
    · exact h.apart q q' c c' old old' same

lemma Accounted.ended (h : Accounted s) (at_ : s.calling p = some call)
    (log' : List (Nat × RiskControlEvent)) {ret' : List (Nat × TransitionResult)}
    {known : Dict Nat RiskLossControlState}
    (db : s'.db.controlEvents = s.db.controlEvents ++ log'.map (·.2)) (calls : s'.calls = s.calls)
    (sessions : s'.sessions = Function.update s.sessions p ⟨.idle, known⟩)
    (logged : s'.logged = s.logged ++ log') (returned : s'.returned = s.returned ++ ret')
    (mine : (∀ e ∈ log', e.1 = call.id) ∧ ∀ e ∈ ret', e.1 = call.id)
    (told : ∀ e ∈ ret', e.2.outcome ≠ .applied → log' = []) : Accounted s' := by
  have before : ∀ q c, s'.calling q = some c → q ≠ p ∧ s.calling q = some c ∧ c.id ≠ call.id := by
    intro q c at_'
    rw [State.calling, sessions] at at_'
    by_cases eq : q = p
    · rw [eq, update_self] at at_'
      cases at_'
    · rw [update_of_ne eq] at at_'
      exact ⟨eq, at_', fun same => eq (h.apart q p c call at_' at_ same)⟩
  have lt := h.calling_lt p call at_
  obtain ⟨unlogged, unreturned⟩ := h.pending p call at_
  refine ⟨?_, ?_, ?_, ?_, ?_, ?_, ?_⟩
  · rw [logged, db, map_append, h.log]
  · rw [logged, calls]
    intro e mem
    rcases mem_append.1 mem with old | new
    · exact h.logged_lt e old
    · rw [mine.1 e new]
      exact lt
  · rw [returned, calls]
    intro e mem
    rcases mem_append.1 mem with old | new
    · exact h.returned_lt e old
    · rw [mine.2 e new]
      exact lt
  · intro q c at_'
    rw [calls]
    exact h.calling_lt q c (before q c at_').2.1
  · intro q c at_'
    obtain ⟨-, old, ne⟩ := before q c at_'
    obtain ⟨quiet, quiet'⟩ := h.pending q c old
    rw [logged, returned]
    constructor
    · intro e mem
      rcases mem_append.1 mem with old | new
      · exact quiet e old
      · rw [mine.1 e new]
        exact ne.symm
    · intro e mem
      rcases mem_append.1 mem with old | new
      · exact quiet' e old
      · rw [mine.2 e new]
        exact ne.symm
  · intro q q' c c' at_' at_'' same
    exact h.apart q q' c c' (before q c at_').2.1 (before q' c' at_'').2.1 same
  · rw [returned, logged]
    intro e mem unapplied e' mem'
    rcases mem_append.1 mem with old | new
    · rcases mem_append.1 mem' with old' | new'
      · exact h.declined e old unapplied e' old'
      · rw [mine.1 e' new']
        exact (unreturned e old).symm
    · rw [told e new unapplied, append_nil] at mem'
      rw [mine.2 e new]
      exact unlogged e' mem'

lemma report_returned {id : Nat} {result : TransitionResult} {returns : Bool} :
    (s.report id result returns).returned = s.returned ++ if returns then [(id, result)] else [] := by
  unfold State.report
  cases returns <;> simp

lemma Accounted.step (h : Accounted s) (st : Stepped s l s') : Accounted s' := by
  have told {id : Nat} {result : TransitionResult} {returns : Bool} :
      ∀ e ∈ (if returns then [(id, result)] else []), e.1 = id ∧ e.2 = result := by
    cases returns <;> simp
  cases st with
  | @insert p req idle free absent =>
    have begun := @Accounted.begin s p h req true
    exact { begun with }
  | find idle free present => exact h.begin
  | @load p call row at_ read =>
    refine h.moved rfl (fun call' eq => ?_) rfl rfl rfl rfl
    rw [State.calling, at_]
    exact eq
  | @decline p call row outcome returns at_ adjudicated =>
    have calling : s.calling p = some call := by rw [State.calling, at_]; rfl
    have events : (call.bootstrap s.db).controlEvents = s.db.controlEvents := by
      unfold Call.bootstrap
      split <;> rfl
    refine h.ended calling [] ?_ rfl rfl ?_ report_returned ⟨?_, fun e mem => ?_⟩ ?_
    · rw [map_nil, append_nil]
      exact events
    · simp [State.report, State.move, State.unlock]
    · simp
    · exact (told e mem).1
    · exact fun _ _ _ => rfl
  | @win p call row t found at_ adjudicated free sees version =>
    refine h.moved rfl (fun call' eq => ?_) rfl rfl rfl rfl
    rw [State.calling, at_]
    exact eq
  | @lose p call row t at_ adjudicated other =>
    have calling : s.calling p = some call := by rw [State.calling, at_]; rfl
    refine h.ended calling [] ?_ rfl rfl ?_ report_returned ⟨?_, fun e mem => ?_⟩ ?_
    · simp [State.report, State.move, State.unlock]
    · simp [State.report, State.move, State.unlock]
    · simp
    · exact (told e mem).1
    · exact fun _ _ _ => rfl
  | @append p call row t written now at_ =>
    refine h.moved rfl (fun call' eq => ?_) rfl rfl rfl rfl
    rw [State.calling, at_]
    exact eq
  | @commit p call row t written event returns at_ =>
    have calling : s.calling p = some call := by rw [State.calling, at_]; rfl
    refine h.ended calling [(call.id, event)] rfl rfl rfl rfl report_returned
      ⟨?_, fun e mem => ?_⟩ (fun e mem unapplied => ?_)
    · simp
    · exact (told e mem).1
    · rw [(told e mem).2] at unapplied
      exact absurd rfl unapplied
  | @abort p call at_ => exact h.moved rfl (fun call' eq => by cases eq) rfl rfl rfl rfl

/-! ## The history -/

lemma start_sound : Sound (start db) where
  recorded a := ⟨Format.Faithful.nil, by simp [start], fun _ => rfl⟩
  known p a row get := by cases get
  standing p := trivial

lemma start_accounted : Accounted (start db) where
  log := rfl
  logged_lt := by simp [start]
  returned_lt := by simp [start]
  calling_lt p call at_ := by cases at_
  pending p call at_ := by cases at_
  apart p q call call' at_ := by cases at_
  declined := by simp [start]

lemma run_sound {ls : List Label} (run : service.run (start db) ls = some s) : Sound s ∧ Accounted s := by
  refine run_invariant (C := fun _ _ => True) (I := fun s => Sound s ∧ Accounted s)
    (fun inv _ st => ?_) ⟨start_sound, start_accounted⟩ meets_true run
  exact ⟨inv.1.step (step_inv st), inv.2.step (step_inv st)⟩

/-- The events of an account are numbered without gap, start from NORMAL, are linked and are edges for their triggers;
the state row agrees with the last of them; and a call that returned NOT_APPLIED appended none. -/
theorem log_is_faithful_history {ls : List Label} (run : service.run (start db) ls = some s) (a : Nat) :
    (eventsOf s.db a).map (·.sequenceNo) = List.range' 1 (eventsOf s.db a).length ∧
      (∀ e, (eventsOf s.db a)[0]? = some e → e.fromState = .normal) ∧
      (∀ i e e', (eventsOf s.db a)[i]? = some e → (eventsOf s.db a)[i + 1]? = some e' → e'.fromState = e.toState) ∧
      (∀ e ∈ eventsOf s.db a, Edge e) ∧ (∀ row, s.db.lossControl.get a = some row →
        row.stateVersion = (eventsOf s.db a).length ∧ row.lastSequenceNo = (eventsOf s.db a).length ∧
        row.state = ((eventsOf s.db a).getLast?.map (·.toState)).getD .normal) ∧
      (s.db.lossControl.get a = none → eventsOf s.db a = []) ∧ s.logged.map (·.2) = s.db.controlEvents ∧
      ∀ id result, (id, result) ∈ s.returned → result.outcome ≠ .applied → ∀ e, (id, e) ∉ s.logged := by
  obtain ⟨sound, accounted⟩ := run_sound run
  have recorded := sound.recorded a
  refine ⟨recorded.faithful.numbered, fun e get => recorded.faithful.first get,
    fun i e e' get get' => recorded.faithful.succ get get', recorded.faithful.edges, fun row get => ?_,
    recorded.absent, accounted.log, fun id result mem unapplied e logged => ?_⟩
  · rw [recorded.row row get]
    exact ⟨rfl, rfl, rfl⟩
  · exact accounted.declined _ mem unapplied _ logged rfl

def breachAndTrip : List Label :=
  [.ensure 0 { accountId := 1, trigger := .cooldownComplete }, .load 0, .decline 0 true,
    .ensure 0 { accountId := 1, trigger := .dailyLossBreach },
    .ensure 1 { accountId := 1, trigger := .breakerTrip }, .load 0, .load 1, .swap 0, .append 0 5,
    .commit 0 true, .swap 1, .ensure 1 { accountId := 1, trigger := .breakerTrip }, .load 1,
    .decline 1 true]

theorem conflicting_requests_keep_history : ∃ s, service.run (start {}) breachAndTrip = some s ∧
    s.returned.map (·.2.outcome) = [.notAppliedNoChange, .applied, .notAppliedConflict, .notAppliedNoChange] ∧
    (eventsOf s.db 1).map (·.sequenceNo) = List.range' 1 (eventsOf s.db 1).length ∧ (eventsOf s.db 1).length = 1 := by
  refine exists_run (by decide +kernel) fun s run => ?_
  exact ⟨Machine.observe (f := fun s => s.returned.map (·.2.outcome)) run (by decide +kernel),
    (log_is_faithful_history run 1).1,
    Machine.observe (f := fun s => (eventsOf s.db 1).length) run (by decide +kernel)⟩

/-! ## One call after the other -/

/-- Calls by their number, each with the instant of its event, that are served one after the other: the database they
leave, and what each returned. -/
def serially (db : Db) (calls : List (Nat × TransitionRequest × Instant)) : Db × List (Nat × TransitionResult) :=
  calls.foldl
    (fun out c => ((handleRequest out.1 c.2.1 c.2.2).1, out.2 ++ [(c.1, (handleRequest out.1 c.2.1 c.2.2).2)]))
    (db, [])

/-- The requests of a run, in the order the calls began. -/
def requestsOf (ls : List Label) : List TransitionRequest :=
  ls.filterMap fun
    | .ensure _ req => some req
    | _ => none

/-- What the sessions have left is what some of their calls leave one after the other, each served once. -/
structure Serial (db : Db) (ls : List Label) (s : State) (served : List (Nat × TransitionRequest × Instant)) :
    Prop where
  left : (serially db served).1 = s.db
  once : (served.map Prod.fst).Nodup
  asked : ∀ c ∈ served, (requestsOf ls)[c.1]? = some c.2.1
  told : ∀ r ∈ s.returned, r.2.outcome = .applied → r ∈ (serially db served).2
  begun : s.calls = (requestsOf ls).length
  calling : ∀ q call, s.calling q = some call →
    (requestsOf ls)[call.id]? = some call.req ∧ ∀ c ∈ served, c.1 ≠ call.id

variable {ls : List Label} {served : List (Nat × TransitionRequest × Instant)}

/-- What a step is to the calls one after the other: nothing, or the call of its session. -/
inductive Serves (s s' : State) : Prop where
  | nothing (db : s'.db = s.db) (returned : ∀ r ∈ s'.returned, r ∈ s.returned ∨ r.2.outcome ≠ .applied)
  | call {p : Nat} {call : Call} (now : Instant) (calling : s.calling p = some call) (ended : s'.calling p = none)
      (db : s'.db = (handleRequest s.db call.req now).1)
      (returned : ∀ r ∈ s'.returned, r ∈ s.returned ∨ r = (call.id, (handleRequest s.db call.req now).2))

lemma mem_report {id : Nat} {result : TransitionResult} {returns : Bool} {r : Nat × TransitionResult}
    (mem : r ∈ (s.report id result returns).returned) : r ∈ s.returned ∨ r = (id, result) := by
  rw [report_returned, mem_append] at mem
  refine mem.imp_right fun mem => ?_
  cases returns with
  | false => cases mem
  | true => exact mem_singleton.1 mem

lemma serves (h : Sound s) (st : Stepped s l s') : Serves s s' := by
  cases st with
  | insert | find | load | win | append | abort => exact .nothing rfl fun r mem => .inl mem
  | lose => exact .nothing rfl fun r mem => (mem_report mem).imp_right fun eq => by rw [eq]; simp [declined]
  | @decline p call row outcome returns at_ adjudicated =>
    have standing := h.standing p
    rw [at_] at standing
    obtain ⟨boot, k, -, past⟩ := standing
    have calling : s.calling p = some call := by rw [State.calling, at_]; rfl
    by_cases inserted : call.inserted = true
    · rw [Bootstrapped, if_pos inserted] at boot
      rw [(h.recorded _).absent boot.2, take_nil, ← (h.recorded _).absent boot.2] at past
      obtain ⟨t, applied, -⟩ | ⟨outcome', error, result, left⟩ := handleRequest_cases (h.recorded _) 0
      · rw [← past, adjudicated] at applied
        cases applied
      · rw [← past] at error result
        cases adjudicated.symm.trans error
        refine .call 0 calling (by simp [State.calling, State.report, State.move, Phase.call]) ?_ fun r mem => ?_
        · rw [left, ensureStateRow, boot.2]
          show call.bootstrap s.db = _
          rw [Call.bootstrap, if_pos inserted]
        · rw [result]
          exact mem_report mem
    · refine .nothing ?_ fun r mem => (mem_report mem).imp_right fun eq => ?_
      · show call.bootstrap s.db = s.db
        rw [Call.bootstrap, if_neg inserted]
      · rw [eq]
        exact adjudicate_error adjudicated
  | @commit p call row t written event returns at_ =>
    have standing := h.standing p
    rw [at_] at standing
    obtain ⟨boot, won, now, rfl⟩ := standing
    have calling : s.calling p = some call := by rw [State.calling, at_]; rfl
    have current := h.sees boot won.sees
    obtain ⟨t', applied, result, left⟩ | ⟨outcome, error, -⟩ := handleRequest_cases (h.recorded _) now
    · rw [← current] at applied result left
      cases won.adjudicated.symm.trans applied
      refine .call now calling (by simp [State.calling, State.report, State.move, Phase.call]) ?_ fun r mem => ?_
      · rw [left, ← won.written]
        rfl
      · rw [result]
        exact mem_report mem
    · rw [← current, won.adjudicated] at error
      cases error

lemma serially_concat {c : Nat × TransitionRequest × Instant} :
    serially db (served ++ [c]) = ((handleRequest (serially db served).1 c.2.1 c.2.2).1,
      (serially db served).2 ++ [(c.1, (handleRequest (serially db served).1 c.2.1 c.2.2).2)]) := by
  rw [serially, foldl_append]
  rfl

/-- A step begins the call of its request, or none; a session is in a call that it was in before, or in the new one. -/
structure Begins (s : State) (l : Label) (s' : State) : Prop where
  calls : s'.calls = s.calls + (requestsOf [l]).length
  calling : ∀ q call, s'.calling q = some call →
    s.calling q = some call ∨ requestsOf [l] = [call.req] ∧ call.id = s.calls

lemma Begins.moved (calls : s'.calls = s.calls + (requestsOf [l]).length)
    (sessions : s'.sessions = update s.sessions p session) (moved : ∀ call, session.phase.call = some call →
      s.calling p = some call ∨ requestsOf [l] = [call.req] ∧ call.id = s.calls) : Begins s l s' := by
  refine ⟨calls, fun q call calling => ?_⟩
  rw [State.calling, sessions] at calling
  by_cases eq : q = p
  · rw [eq, update_self] at calling
    rw [eq]
    exact moved call calling
  · rw [update_of_ne eq] at calling
    exact .inl calling

lemma begins (st : Stepped s l s') : Begins s l s' := by
  cases st with
  | insert | find => exact .moved rfl rfl fun call eq => .inr (by cases eq; exact ⟨rfl, rfl⟩)
  | load at_ | win at_ | append at_ => exact .moved rfl rfl fun call eq => .inl (by rw [State.calling, at_]; exact eq)
  | decline | lose | commit | abort => exact .moved rfl rfl fun call eq => by cases eq

lemma Serial.step (h : Serial db ls s served) (sound : Sound s) (acc : Accounted s) (st : Stepped s l s') :
    ∃ served', Serial db (ls ++ [l]) s' served' := by
  have begun := begins st
  have grown : requestsOf (ls ++ [l]) = requestsOf ls ++ requestsOf [l] := filterMap_append
  have kept {i : Nat} {req : TransitionRequest} (get : (requestsOf ls)[i]? = some req) :
      (requestsOf (ls ++ [l]))[i]? = some req := by
    rw [grown, getElem?_append_left (List.getElem?_eq_some_iff.1 get).1]
    exact get
  have calls : s'.calls = (requestsOf (ls ++ [l])).length := by rw [begun.calls, h.begun, grown, length_append]
  have asked {q : Nat} {call : Call} (calling : s'.calling q = some call) :
      (requestsOf (ls ++ [l]))[call.id]? = some call.req := by
    obtain old | ⟨new, id⟩ := begun.calling q call calling
    · exact kept (h.calling q call old).1
    · rw [grown, new, id, h.begun]
      exact List.getElem?_concat_length
  have apart {q : Nat} {call : Call} (calling : s'.calling q = some call) : ∀ c ∈ served, c.1 ≠ call.id := by
    obtain old | ⟨-, id⟩ := begun.calling q call calling
    · exact (h.calling q call old).2
    · intro c mem
      rw [id, h.begun]
      exact (List.getElem?_eq_some_iff.1 (h.asked c mem)).1.ne
  cases serves sound st with
  | nothing same returned =>
    refine ⟨served, ?_, h.once, fun c mem => kept (h.asked c mem), fun r mem applied => ?_, calls,
      fun q call calling => ⟨asked calling, apart calling⟩⟩
    · rw [same]
      exact h.left
    · obtain old | declined := returned r mem
      · exact h.told r old applied
      · exact absurd applied declined
  | @call p call now calling ended same returned =>
    have result : serially db (served ++ [(call.id, call.req, now)]) = _ := serially_concat
    rw [h.left] at result
    have fresh := (h.calling p call calling).2
    refine ⟨served ++ [(call.id, call.req, now)], ?_, ?_, fun c mem => ?_, fun r mem applied => ?_, calls,
      fun q call' calling' => ⟨asked calling', fun c mem => ?_⟩⟩
    · rw [result, same]
    · rw [map_append]
      refine Nodup.append h.once (nodup_singleton _) ?_
      intro id old new
      obtain ⟨c, mem, rfl⟩ := mem_map.1 old
      exact fresh c mem (mem_singleton.1 new)
    · obtain old | new := mem_append.1 mem
      · exact kept (h.asked c old)
      · cases mem_singleton.1 new
        exact kept (h.calling p call calling).1
    · rw [result]
      obtain old | new := returned r mem
      · exact mem_append_left _ (h.told r old applied)
      · exact mem_append_right _ (mem_singleton.2 new)
    · obtain old | new := mem_append.1 mem
      · exact apart calling' c old
      · cases mem_singleton.1 new
        -- no other session is in the call that has just ended
        obtain before | ⟨-, id⟩ := begun.calling q call' calling'
        · intro eq
          rw [acc.apart p q call call' calling before eq, calling'] at ended
          cases ended
        · rw [id]
          exact (acc.calling_lt p call calling).ne

/-- Some of the calls, served one after the other, each at most once, leave this database, and return what the calls
that returned APPLIED did. -/
theorem requests_linearizable {ls : List Label} (run : service.run (start db) ls = some s) :
    ∃ served : List (Nat × TransitionRequest × Instant), (serially (start db).db served).1 = s.db ∧
      (served.map Prod.fst).Nodup ∧ (∀ c ∈ served, (requestsOf ls)[c.1]? = some c.2.1) ∧
      ∀ r ∈ s.returned, r.2.outcome = .applied → r ∈ (serially (start db).db served).2 := by
  have linear : ∃ served, Serial (start db).db ls s served := by
    induction ls using List.reverseRecOn generalizing s with
    | nil =>
      cases run
      exact ⟨[], rfl, nodup_nil, by simp, by simp [start], rfl, by simp [State.calling, start, Phase.call]⟩
    | append_singleton ls l ih =>
      obtain ⟨u, run, last⟩ := run_append.1 run
      obtain ⟨t, st, ends⟩ := run_cons.1 last
      cases ends
      obtain ⟨served, h⟩ := ih run
      obtain ⟨sound, accounted⟩ := run_sound run
      exact h.step sound accounted (step_inv st)
  obtain ⟨served, h⟩ := linear
  exact ⟨served, h.left, h.once, h.asked, h.told⟩

/-- A call that is declined, two that meet at one version, and one that comes too late. -/
theorem breachAndTrip_linearizable : ∃ s, service.run (start {}) breachAndTrip = some s ∧
    ∃ served : List (Nat × TransitionRequest × Instant), (serially (start {}).db served).1 = s.db ∧
      (served.map Prod.fst).Nodup ∧ (∀ c ∈ served, (requestsOf breachAndTrip)[c.1]? = some c.2.1) ∧
      ∀ r ∈ s.returned, r.2.outcome = .applied → r ∈ (serially (start {}).db served).2 := by
  refine exists_run (by decide +kernel) fun s run => ?_
  exact requests_linearizable run

end Workbench.LossControl
