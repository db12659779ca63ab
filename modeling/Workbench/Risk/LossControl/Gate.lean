import Workbench.Risk.Types
import Workbench.Risk.LossControl.StateMachine

/-!
# The loss-control service and its gate

Model of `LossControlService.request_transition` (`app/risk/loss_control/service.py`), run to its
commit, and of `LossControlGate.evaluate` (`app/risk/loss_control/gate.py`), which reads the persisted
state and says what it permits for one order.

A `LossControlDecision` carries what the engine acts on (`authoritative`, `permitsOrder`) and the
evidence it logs; `legacy_outcome` is the text form of `legacyPermits`.
-/

namespace Workbench.Risk.LossControl
open Workbench.Lib Option

/-! ## The service -/

/-- The row Python `_ensure_state_row` inserts. -/
def initialState : RiskLossControlState := ⟨.normal, 0, 0⟩

/-- Python `_ensure_state_row`. -/
def ensureStateRow (db : Db) (accountId : Nat) : Db :=
  match db.lossControl.get accountId with
  | some _ => db
  | none => { db with lossControl := db.lossControl.set accountId initialState }

/-- Python `load_state_row`. -/
def loadStateRow (db : Db) (accountId : Nat) : Option RiskLossControlState :=
  db.lossControl.get accountId

/-- The write of an applied transition: `_cas_advance` and the event, one commit. -/
def applyTransition (db : Db) (accountId : Nat) (row : RiskLossControlState) (trigger : LossTrigger)
    (t : Transition) (now : Instant) (context : TransitionContext := {}) : Db :=
  { db with
    lossControl := db.lossControl.set accountId
      ⟨t.toState, row.stateVersion + 1, row.lastSequenceNo + 1⟩
    controlEvents := db.controlEvents ++
      [⟨accountId, row.lastSequenceNo + 1, t.controlType, row.state, t.toState, trigger, now,
        context⟩] }

/-- Python `request_transition`, with no other writer between its read and its write. -/
def requestTransition (db : Db) (accountId : Nat) (trigger : LossTrigger) (now : Instant) : Db :=
  let row := (loadStateRow db accountId).getD initialState
  match decideTransition row.state trigger with
  | none => ensureStateRow db accountId
  | some t => applyTransition (ensureStateRow db accountId) accountId row trigger t now

/-- The state a trigger leaves an account in; an absent row counts as NORMAL. -/
def stateAfter (state : Option LossState) (trigger : LossTrigger) : LossState :=
  let current := state.getD .normal
  ((decideTransition current trigger).map (·.toState)).getD current

def lossState (db : Db) (accountId : Nat) : Option LossState :=
  (loadStateRow db accountId).map (·.state)

lemma lossState_requestTransition {db : Db} {a a' : Nat} {trigger : LossTrigger} {now : Instant} :
    lossState (requestTransition db a trigger now) a' =
      if a' = a then some (stateAfter (lossState db a) trigger) else lossState db a' := by
  unfold requestTransition stateAfter lossState loadStateRow
  cases row : db.lossControl.get a with
  | none =>
    simp only [getD_none, map_none, initialState]
    cases decideTransition .normal trigger with
    | none => simp only [ensureStateRow, row, Dict.get_set, map_none]; split <;> rfl
    | some t => simp only [applyTransition, ensureStateRow, row, Dict.get_set]; split <;> rfl
  | some r =>
    simp only [getD_some, map_some]
    cases decideTransition r.state trigger with
    | none =>
      simp only [ensureStateRow, row, map_none, getD_none]
      split
      · rename_i eq
        rw [eq, row]
        rfl
      · rfl
    | some t => simp only [applyTransition, ensureStateRow, row, Dict.get_set]; split <;> rfl

lemma requestTransition_frame {db : Db} {a : Nat} {trigger : LossTrigger} {now : Instant} :
    ∃ rows events, requestTransition db a trigger now =
      { db with lossControl := rows, controlEvents := events } := by
  have ensured : ∃ rows, ensureStateRow db a = { db with lossControl := rows } := by
    unfold ensureStateRow
    split
    · exact ⟨db.lossControl, rfl⟩
    · exact ⟨_, rfl⟩
  obtain ⟨rows, e⟩ := ensured
  unfold requestTransition
  dsimp only
  split
  · exact ⟨rows, db.controlEvents, e⟩
  · exact ⟨_, _, by rw [e]; rfl⟩

/-! ## The gate -/

/-- How the loss-control verdict compares with the legacy one. -/
inductive Divergence where
  | agrees
  | adrStricter
  | adrLooser
  | error
  deriving DecidableEq, Repr

/-- The stable error codes of a fail-closed decision. -/
inductive GateError where
  | gateEval
  | triggerCommit
  deriving DecidableEq, Repr

/-- Python `LossControlDecision`. -/
structure LossControlDecision where
  mode : LossControlMode
  authoritative : Bool
  state : Option LossState
  stateVersion : Option Nat
  outcome : OrderOutcome
  permitsOrder : Bool
  verifiedReduction : Option Bool
  legacyPermits : Bool
  divergence : Divergence
  reasonCode : Option ReasonCode
  error : Option GateError := none

/-- Python `_effective_permits`. -/
def effectivePermits (outcome : OrderOutcome) (verifiedReduction : Option Bool) : Bool :=
  match outcome with
  | .allow => true
  | .allowReductionOnly => verifiedReduction.getD false
  | .refuse | .integrityStop => false

/-- Python `_divergence`, for a legacy decision that is known. -/
def divergence (adrPermits legacyPermits : Bool) : Divergence :=
  if adrPermits = legacyPermits then .agrees
  else if legacyPermits then .adrStricter else .adrLooser

/-- Python `fail_closed_decision`. -/
def failClosedDecision (mode : LossControlMode) (legacyPermits : Bool) (error : GateError) :
    LossControlDecision where
  mode := mode
  authoritative := mode = .enforce
  state := none
  stateVersion := none
  outcome := .integrityStop
  permitsOrder := false
  verifiedReduction := none
  legacyPermits := legacyPermits
  divergence := .error
  reasonCode := some .lossControlStop
  error := some error

/-- What a state permits for an order whose reduction verdict is known. -/
def statePermits (state : Option LossState) (verifiedReduction : Option Bool) : Bool :=
  effectivePermits (orderOutcomeForState state (verifiedReduction.getD false)) verifiedReduction

/-- Python `LossControlGate.evaluate`; `fails` is an exception while it runs. -/
def evaluateGate (fails : Bool) (db : Db) (mode : LossControlMode) (accountId : Nat)
    (verifiedReduction : Option Bool) (legacyPermits : Bool) : LossControlDecision :=
  if fails then failClosedDecision mode legacyPermits .gateEval
  else
    let row := loadStateRow db accountId
    let state := row.map (·.state)
    let permits := statePermits state verifiedReduction
    { mode
      authoritative := mode = .enforce
      state
      stateVersion := row.map (·.stateVersion)
      outcome := orderOutcomeForState state (verifiedReduction.getD false)
      permitsOrder := permits
      verifiedReduction
      legacyPermits
      divergence := divergence permits legacyPermits
      reasonCode := if permits then none else some .lossControlStop }

end Workbench.Risk.LossControl
