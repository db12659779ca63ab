import Workbench.Lib.Chronicle
import Workbench.Risk.LossControl.Gate

/-!
# Transition requests

Model of `LossControlService.request_transition` (`app/risk/loss_control/service.py`) with all its
arguments: the version the caller expects, the recovery origin and the context recorded on the event.
`requestTransition` of `Gate.lean` is the call that the risk engine makes, without them.

What a request decides on the row it read is `adjudicate`; it is the same whether the row is current
or has been superseded since. `Recorded` says that the events of an account are the history of its
row.

Python → Lean naming: `TransitionResult.outcome` → `RequestOutcome`; the `reason` texts of a result are
left out.
-/

namespace Workbench.Risk.LossControl
open Workbench.Lib Dict

/-- The arguments of Python `request_transition`. -/
structure TransitionRequest where
  accountId : Nat
  trigger : LossTrigger
  expectedStateVersion : Option Nat := none
  recoveryOriginState : Option LossState := none
  context : TransitionContext := {}
  deriving DecidableEq, Repr

/-- The outcomes of a request. -/
inductive RequestOutcome where
  | applied
  | notAppliedStale
  | notAppliedConflict
  | notAppliedNoChange
  deriving DecidableEq, Repr

/-- Python `TransitionResult`; an event id is its position in the table. -/
structure TransitionResult where
  outcome : RequestOutcome
  state : LossState
  stateVersion : Nat
  sequenceNo : Option Nat := none
  eventId : Option Nat := none
  deriving DecidableEq, Repr

/-- What a request comes to on the row it read: the transition to write, or why there is none. -/
def adjudicate (row : RiskLossControlState) (req : TransitionRequest) :
    Except RequestOutcome Transition :=
  if req.expectedStateVersion.any (· ≠ row.stateVersion) then .error .notAppliedStale
  else match decideTransition row.state req.trigger req.recoveryOriginState with
    | none => .error .notAppliedNoChange
    | some t => .ok t

/-- The row Python `_cas_advance` leaves, from the row it finds. -/
def casAdvance (row : RiskLossControlState) (toState : LossState) : RiskLossControlState :=
  ⟨toState, row.stateVersion + 1, row.lastSequenceNo + 1⟩

/-- The event of an applied request, from the row it read. -/
def transitionEvent (row : RiskLossControlState) (req : TransitionRequest) (t : Transition)
    (now : Instant) : RiskControlEvent :=
  ⟨req.accountId, row.lastSequenceNo + 1, t.controlType, row.state, t.toState, req.trigger, now,
    req.context⟩

/-- What a request that was not applied returns. -/
def declined (outcome : RequestOutcome) (row : RiskLossControlState) : TransitionResult :=
  { outcome, state := row.state, stateVersion := row.stateVersion }

def accepted (row : RiskLossControlState) (t : Transition) (eventId : Nat) : TransitionResult where
  outcome := .applied
  state := t.toState
  stateVersion := row.stateVersion + 1
  sequenceNo := some (row.lastSequenceNo + 1)
  eventId := some eventId

/-- Python `request_transition`, with no other writer between its read and its write. -/
def handleRequest (db : Db) (req : TransitionRequest) (now : Instant) : Db × TransitionResult :=
  let row := (loadStateRow db req.accountId).getD initialState
  match adjudicate row req with
  | .error outcome => (ensureStateRow db req.accountId, declined outcome row)
  | .ok t =>
    (applyTransition (ensureStateRow db req.accountId) req.accountId row req.trigger t now req.context,
      accepted row t db.controlEvents.length)

/-! ## The log of an account -/

def eventFormat : Format LossState RiskControlEvent where
  number := (·.sequenceNo)
  source := (·.fromState)
  target := (·.toState)

/-- An event is an edge of the state machine for its recorded trigger, from some recovery origin. -/
def Edge (e : RiskControlEvent) : Prop :=
  ∃ origin t, decideTransition e.fromState e.requestedTransition origin = some t ∧
    t.toState = e.toState ∧ t.controlType = e.controlType

def eventsOf (db : Db) (accountId : Nat) : List RiskControlEvent :=
  db.controlEvents.filter (·.accountId = accountId)

def rowOf (events : List RiskControlEvent) : RiskLossControlState :=
  ⟨eventFormat.endOf .normal events, events.length, events.length⟩

/-- The events of an account are the history of its row; an account without a row has none. -/
structure Recorded (db : Db) (a : Nat) : Prop where
  faithful : eventFormat.Faithful .normal Edge (eventsOf db a)
  row : ∀ row, db.lossControl.get a = some row → row = rowOf (eventsOf db a)
  absent : db.lossControl.get a = none → eventsOf db a = []

variable {db : Db} {a b : Nat} {row : RiskLossControlState} {req : TransitionRequest}
variable {t : Transition} {now : Instant}

lemma rowOf_append {events : List RiskControlEvent} {e : RiskControlEvent} :
    rowOf (events ++ [e]) = casAdvance (rowOf events) e.toState := by
  simp [rowOf, casAdvance, eventFormat]

lemma adjudicate_ok (e : adjudicate row req = .ok t) :
    req.expectedStateVersion.all (· = row.stateVersion) = true ∧
      decideTransition row.state req.trigger req.recoveryOriginState = some t := by
  unfold adjudicate at e
  split at e
  · cases e
  · rename_i fits
    split at e
    · cases e
    · rename_i t' edge
      cases e
      refine ⟨?_, edge⟩
      cases expected : req.expectedStateVersion with
      | none => rfl
      | some v => simpa [expected] using fits

lemma adjudicate_error {outcome : RequestOutcome} (e : adjudicate row req = .error outcome) : outcome ≠ .applied := by
  unfold adjudicate at e
  split at e
  · cases e
    simp
  · split at e <;> cases e
    simp

lemma transitionEvent_edge (e : adjudicate row req = .ok t) : Edge (transitionEvent row req t now) :=
  ⟨_, t, (adjudicate_ok e).2, rfl, rfl⟩

lemma eventsOf_append {e : RiskControlEvent} {rows : Dict Nat RiskLossControlState} :
    eventsOf { db with lossControl := rows, controlEvents := db.controlEvents ++ [e] } a =
      eventsOf db a ++ if e.accountId = a then [e] else [] := by
  by_cases eq : e.accountId = a <;> simp [eventsOf, eq]

lemma Recorded.write (h : ∀ a, Recorded db a) (current : row = rowOf (eventsOf db req.accountId))
    (adjudicated : adjudicate row req = .ok t) :
    Recorded { db with
      lossControl := db.lossControl.set req.accountId (casAdvance row t.toState)
      controlEvents := db.controlEvents ++ [transitionEvent row req t now] } a := by
  by_cases eq : a = req.accountId
  · have log : eventsOf { db with
        lossControl := db.lossControl.set req.accountId (casAdvance row t.toState)
        controlEvents := db.controlEvents ++ [transitionEvent row req t now] } a =
        eventsOf db req.accountId ++ [transitionEvent row req t now] := by
      rw [eventsOf_append, if_pos (by rw [eq]; rfl), eq]
    refine ⟨?_, fun row' get => ?_, fun get => ?_⟩
    · rw [log]
      refine (h _).faithful.append ?_ ?_ (transitionEvent_edge adjudicated)
      · rw [current]
        rfl
      · rw [current]
        rfl
    · rw [log, rowOf_append]
      rw [eq, get_set_self, current] at get
      exact (Option.some.inj get).symm
    · rw [eq, get_set_self] at get
      cases get
  · have log : eventsOf { db with
        lossControl := db.lossControl.set req.accountId (casAdvance row t.toState)
        controlEvents := db.controlEvents ++ [transitionEvent row req t now] } a =
        eventsOf db a := by
      rw [eventsOf_append, if_neg (by exact Ne.symm eq), List.append_nil]
    refine ⟨?_, fun row' get => ?_, fun get => ?_⟩
    · rw [log]
      exact (h a).faithful
    · rw [log]
      rw [get_set_of_ne eq] at get
      exact (h a).row row' get
    · rw [log]
      rw [get_set_of_ne eq] at get
      exact (h a).absent get

lemma Recorded.ensure (h : ∀ a, Recorded db a) : Recorded (ensureStateRow db b) a := by
  unfold ensureStateRow
  cases absent : db.lossControl.get b with
  | some _ => exact h a
  | none =>
    refine ⟨(h a).faithful, fun row get => ?_, fun get => ?_⟩
    · rw [get_set] at get
      split at get
      · rename_i eq
        cases get
        rw [eq]
        show initialState = rowOf (eventsOf db b)
        rw [(h b).absent absent]
        rfl
      · exact (h a).row row get
    · rw [get_set] at get
      split at get
      · cases get
      · exact (h a).absent get

lemma Recorded.read (h : Recorded db a) : (loadStateRow db a).getD initialState = rowOf (eventsOf db a) := by
  unfold loadStateRow
  cases get : db.lossControl.get a with
  | none =>
    rw [h.absent get]
    rfl
  | some row => exact h.row row get

lemma handleRequest_cases (h : Recorded db req.accountId) (now : Instant) :
    (∃ t, adjudicate (rowOf (eventsOf db req.accountId)) req = .ok t ∧ (handleRequest db req now).2 =
        accepted (rowOf (eventsOf db req.accountId)) t db.controlEvents.length ∧
      (handleRequest db req now).1 = { db with
        lossControl := db.lossControl.set req.accountId
          (casAdvance (rowOf (eventsOf db req.accountId)) t.toState)
        controlEvents := db.controlEvents ++
          [transitionEvent (rowOf (eventsOf db req.accountId)) req t now] }) ∨
    ∃ outcome, adjudicate (rowOf (eventsOf db req.accountId)) req = .error outcome ∧
      (handleRequest db req now).2 = declined outcome (rowOf (eventsOf db req.accountId)) ∧
      (handleRequest db req now).1 = ensureStateRow db req.accountId := by
  unfold handleRequest
  dsimp only
  rw [h.read]
  cases adjudicate (rowOf (eventsOf db req.accountId)) req with
  | error outcome => exact .inr ⟨outcome, rfl, rfl, rfl⟩
  | ok t =>
    refine .inl ⟨t, rfl, rfl, ?_⟩
    unfold applyTransition ensureStateRow
    cases db.lossControl.get req.accountId <;>
      simp [casAdvance, transitionEvent]

lemma Recorded.handleRequest (h : ∀ a, Recorded db a) : Recorded (LossControl.handleRequest db req now).1 a := by
  rcases handleRequest_cases (h req.accountId) now with ⟨t, adjudicated, -, e⟩ | ⟨outcome, -, -, e⟩
  · rw [e]
    exact Recorded.write h rfl adjudicated
  · rw [e]
    exact Recorded.ensure h

end Workbench.Risk.LossControl
