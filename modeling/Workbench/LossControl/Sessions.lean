import Workbench.Lib.Machine
import Workbench.Risk.LossControl.Service

/-!
# Transition requests from many sessions

Any number of database sessions call `LossControlService.request_transition`
(`app/risk/loss_control/service.py`), and every label of `service` is one statement of one of them:
the bootstrap insert, the read, the compare-and-swap, the event append, the commit, or a rollback at
any point. A run of `service` is an interleaving of these.

A session writes in its own transaction until it commits: the row it inserted, the row it swapped and
the event it appended are carried by its `Phase`. A row that a session has inserted or swapped is
locked for the others until that session ends its transaction; a bootstrap insert that finds a row, and
a swap that finds another version, lock nothing. (SQLite locks more than that, so it has fewer runs.)

A session may be used for several calls, and its identity map is not expired by a commit
(`expire_on_commit=False`): a read returns the copy of the row the session already holds, however
old. Only a rollback empties the map.

The log of who appended which event, and what the calls returned, is kept beside the database and read
by no step.
-/

namespace Workbench.LossControl
open Workbench.Lib Workbench.Risk.LossControl Option

/-- A call in progress, and whether its transaction holds the bootstrap row. -/
structure Call where
  id : Nat
  req : TransitionRequest
  inserted : Bool

/-- Where a session stands in `request_transition`. -/
inductive Phase where
  | idle
  | ensured (call : Call)
  | loaded (call : Call) (row : RiskLossControlState)
  | swapped (call : Call) (row : RiskLossControlState) (t : Transition) (written : RiskLossControlState)
  | appended (call : Call) (row : RiskLossControlState) (t : Transition)
      (written : RiskLossControlState) (event : RiskControlEvent)

/-- A database session: where it stands, and its identity map. -/
structure Session where
  phase : Phase := .idle
  known : Dict Nat RiskLossControlState := .empty

/-- The database, the row locks, the sessions, and what the calls did and returned. -/
structure State where
  db : Db
  locks : Nat → Option Nat := fun _ => none
  sessions : Nat → Session := fun _ => {}
  calls : Nat := 0
  logged : List (Nat × RiskControlEvent) := []
  returned : List (Nat × TransitionResult) := []

namespace State

def move (s : State) (p : Nat) (session : Session) : State :=
  { s with sessions := Function.update s.sessions p session }

def lock (s : State) (p a : Nat) : State := { s with locks := Function.update s.locks a (some p) }

/-- Let go of the lock on the row of an account, if the session has it. -/
def unlock (s : State) (p a : Nat) : State :=
  { s with locks := if s.locks a = some p then Function.update s.locks a none else s.locks }

/-- End a call with a result; a caller that sees an exception instead gets none. -/
def report (s : State) (call : Nat) (result : TransitionResult) (returns : Bool) : State :=
  { s with returned := if returns then s.returned ++ [(call, result)] else s.returned }

end State

/-- The row of the account as the transaction of a call sees it. -/
def Call.sees (call : Call) (db : Db) : Option RiskLossControlState :=
  if call.inserted then some initialState else db.lossControl.get call.req.accountId

/-- The database after the transaction of a call is committed without a transition. -/
def Call.bootstrap (call : Call) (db : Db) : Db :=
  if call.inserted then
    { db with lossControl := db.lossControl.set call.req.accountId initialState }
  else db

def Phase.call : Phase → Option Call
  | .idle => none
  | .ensured call | .loaded call _ | .swapped call _ _ _ | .appended call _ _ _ _ => some call

/-- One statement of a session. -/
inductive Label where
  | ensure (p : Nat) (req : TransitionRequest)
  | load (p : Nat)
  | decline (p : Nat) (returns : Bool)
  | swap (p : Nat)
  | append (p : Nat) (now : Instant)
  | commit (p : Nat) (returns : Bool)
  | abort (p : Nat)

def step (s : State) : Label → Option State
  | .ensure p req =>
    match (s.sessions p).phase with
    | .idle =>
      if s.locks req.accountId ≠ none then none
      else
        let inserted := (s.db.lossControl.get req.accountId).isNone
        let s' := { s.move p ⟨.ensured ⟨s.calls, req, inserted⟩, (s.sessions p).known⟩ with
          calls := s.calls + 1 }
        some (if inserted then s'.lock p req.accountId else s')
    | _ => none
  | .load p =>
    match (s.sessions p).phase with
    | .ensured call =>
      let known := (s.sessions p).known
      ((known.get call.req.accountId).or (call.sees s.db)).map fun row =>
        s.move p ⟨.loaded call row, known.set call.req.accountId row⟩
    | _ => none
  | .decline p returns =>
    match (s.sessions p).phase with
    | .loaded call row =>
      match adjudicate row call.req with
      | .ok _ => none
      | .error outcome =>
        some <| ({ s with db := call.bootstrap s.db }.unlock p call.req.accountId).move p
          ⟨.idle, (s.sessions p).known⟩ |>.report call.id (declined outcome row) returns
    | _ => none
  | .swap p =>
    match (s.sessions p).phase with
    | .loaded call row =>
      match adjudicate row call.req with
      | .error _ => none
      | .ok t =>
        let a := call.req.accountId
        if s.locks a ≠ none ∧ s.locks a ≠ some p then none
        else match (call.sees s.db).filter (·.stateVersion = row.stateVersion) with
          | some found =>
            some <| (s.lock p a).move p
              ⟨.swapped call row t (casAdvance found t.toState), (s.sessions p).known⟩
          | none =>
            -- lost: roll back, and report the row that is there then
            some <| (s.unlock p a).move p {} |>.report call.id
              (declined .notAppliedConflict ((s.db.lossControl.get a).getD initialState)) true
    | _ => none
  | .append p now =>
    match (s.sessions p).phase with
    | .swapped call row t written =>
      some <| s.move p
        ⟨.appended call row t written (transitionEvent row call.req t now), (s.sessions p).known⟩
    | _ => none
  | .commit p returns =>
    match (s.sessions p).phase with
    | .appended call row t written event =>
      let a := call.req.accountId
      let db := { s.db with
        lossControl := s.db.lossControl.set a written
        controlEvents := s.db.controlEvents ++ [event] }
      some <| ({ s with db, logged := s.logged ++ [(call.id, event)] }.unlock p a).move p
        ⟨.idle, (s.sessions p).known.set a written⟩
        |>.report call.id (accepted row t s.db.controlEvents.length) returns
    | _ => none
  | .abort p =>
    match (s.sessions p).phase.call with
    | none => none
    | some call => some <| (s.unlock p call.req.accountId).move p {}

def service : Machine State Label := ⟨step⟩

/-- Before the first call: no state row and no event. -/
def start (db : Db) : State := { db := { db with lossControl := .empty, controlEvents := [] } }

/-! ## What a step does -/

/-- The state after session `p` has started call number `s.calls`. -/
def State.begin (s : State) (p : Nat) (req : TransitionRequest) (inserted : Bool) : State :=
  { s.move p ⟨.ensured ⟨s.calls, req, inserted⟩, (s.sessions p).known⟩ with calls := s.calls + 1 }

/-- The state after an appended event is committed and the row unlocked. -/
def State.write (s : State) (p : Nat) (call : Call) (written : RiskLossControlState)
    (event : RiskControlEvent) : State :=
  { s with
    db := { s.db with
      lossControl := s.db.lossControl.set call.req.accountId written
      controlEvents := s.db.controlEvents ++ [event] }
    logged := s.logged ++ [(call.id, event)] }.unlock p call.req.accountId

/-- Everything a step can do. -/
inductive Stepped (s : State) : Label → State → Prop where
  | insert {p req} (idle : (s.sessions p).phase = .idle) (free : s.locks req.accountId = none)
      (absent : s.db.lossControl.get req.accountId = none) :
      Stepped s (.ensure p req) ((s.begin p req true).lock p req.accountId)
  | find {p req row} (idle : (s.sessions p).phase = .idle) (free : s.locks req.accountId = none)
      (present : s.db.lossControl.get req.accountId = some row) :
      Stepped s (.ensure p req) (s.begin p req false)
  | load {p call row} (at_ : (s.sessions p).phase = .ensured call)
      (read : ((s.sessions p).known.get call.req.accountId).or (call.sees s.db) = some row) :
      Stepped s (.load p)
        (s.move p ⟨.loaded call row, (s.sessions p).known.set call.req.accountId row⟩)
  | decline {p call row outcome returns} (at_ : (s.sessions p).phase = .loaded call row)
      (adjudicated : adjudicate row call.req = .error outcome) :
      Stepped s (.decline p returns)
        ((({ s with db := call.bootstrap s.db }.unlock p call.req.accountId).move p
          ⟨.idle, (s.sessions p).known⟩).report call.id (declined outcome row) returns)
  | win {p call row t found} (at_ : (s.sessions p).phase = .loaded call row)
      (adjudicated : adjudicate row call.req = .ok t)
      (free : s.locks call.req.accountId = none ∨ s.locks call.req.accountId = some p)
      (sees : call.sees s.db = some found) (version : found.stateVersion = row.stateVersion) :
      Stepped s (.swap p) ((s.lock p call.req.accountId).move p
        ⟨.swapped call row t (casAdvance found t.toState), (s.sessions p).known⟩)
  | lose {p call row t} (at_ : (s.sessions p).phase = .loaded call row)
      (adjudicated : adjudicate row call.req = .ok t)
      (other : ∀ found, call.sees s.db = some found → found.stateVersion ≠ row.stateVersion) :
      Stepped s (.swap p) (((s.unlock p call.req.accountId).move p {}).report call.id
        (declined .notAppliedConflict
          ((s.db.lossControl.get call.req.accountId).getD initialState)) true)
  | append {p call row t written now} (at_ : (s.sessions p).phase = .swapped call row t written) :
      Stepped s (.append p now) (s.move p
        ⟨.appended call row t written (transitionEvent row call.req t now), (s.sessions p).known⟩)
  | commit {p call row t written event returns}
      (at_ : (s.sessions p).phase = .appended call row t written event) :
      Stepped s (.commit p returns) (((s.write p call written event).move p
        ⟨.idle, (s.sessions p).known.set call.req.accountId written⟩).report call.id
          (accepted row t s.db.controlEvents.length) returns)
  | abort {p call} (at_ : (s.sessions p).phase.call = some call) :
      Stepped s (.abort p) ((s.unlock p call.req.accountId).move p {})

lemma step_inv {s s' : State} {l : Label} (e : step s l = some s') : Stepped s l s' := by
  cases l with
  | ensure p req =>
    dsimp only [step] at e
    split at e
    · rename_i idle
      split at e
      · cases e
      · rename_i free
        rw [not_not] at free
        cases get : s.db.lossControl.get req.accountId with
        | none =>
          simp only [get, isNone_none, if_true] at e
          cases e
          exact .insert idle free get
        | some row =>
          simp only [get, isNone_some, Bool.false_eq_true, if_false] at e
          cases e
          exact .find idle free get
    · cases e
  | load p =>
    dsimp only [step] at e
    split at e
    · rename_i call at_
      obtain ⟨row, read, rfl⟩ := map_eq_some_iff.1 e
      exact .load at_ read
    · cases e
  | decline p returns =>
    dsimp only [step] at e
    split at e
    · rename_i call row at_
      split at e
      · cases e
      · rename_i outcome adjudicated
        cases e
        exact .decline at_ adjudicated
    · cases e
  | swap p =>
    dsimp only [step] at e
    split at e
    · rename_i call row at_
      split at e
      · cases e
      · rename_i t adjudicated
        split at e
        · cases e
        · rename_i free
          have free : s.locks call.req.accountId = none ∨ s.locks call.req.accountId = some p := by
            by_contra held
            rw [not_or] at held
            exact free held
          split at e
          · rename_i found filtered
            obtain ⟨sees, version⟩ := filter_eq_some_iff.1 filtered
            cases e
            exact .win at_ adjudicated free sees (of_decide_eq_true version)
          · rename_i filtered
            cases e
            refine .lose at_ adjudicated fun found sees => ?_
            rw [filter_eq_none_iff] at filtered
            simpa using filtered found sees
    · cases e
  | append p now =>
    dsimp only [step] at e
    split at e
    · rename_i call row t written at_
      cases e
      exact .append at_
    · cases e
  | commit p returns =>
    dsimp only [step] at e
    split at e
    · rename_i call row t written event at_
      cases e
      exact .commit at_
    · cases e
  | abort p =>
    dsimp only [step] at e
    split at e
    · cases e
    · rename_i call at_
      cases e
      exact .abort at_

end Workbench.LossControl
