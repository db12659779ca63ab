import Workbench.Db.Models

/-!
# The loss-control state machine

Model of the pure layer of `app/risk/loss_control/state_machine.py`: the transition graph
`decide_transition`, and what a state permits for one order (`order_outcome_for_state`). States and
triggers are enumerations, so the source's branches for an unknown string have no counterpart; an
unknown state is a missing row, which `orderOutcomeForState` receives as `none`.
-/

namespace Workbench.Risk.LossControl

/-- Membership in Python `_RECOVERY_ORIGIN_STATES`. -/
def recoveryOrigin : LossState → Bool
  | .reductionOnlyDailyLoss | .reductionOnlyBreaker | .integrityStop => true
  | _ => false

/-- A Python `TransitionDecision` that applies. -/
structure Transition where
  toState : LossState
  controlType : ControlType
  reason : String
  deriving DecidableEq, Repr

/-- Python `decide_transition`; `none` is the explicit no-op. -/
@[grind] def decideTransition (state : LossState) (trigger : LossTrigger)
    (recoveryOriginState : Option LossState := none) : Option Transition :=
  match trigger, state with
  -- an integrity violation dominates every state but the stop itself
  | .integrityViolation, .integrityStop => none
  | .integrityViolation, _ => some ⟨.integrityStop, .integrity, "integrity violation"⟩
  | .dailyLossBreach, .normal => some ⟨.reductionOnlyDailyLoss, .dailyLoss, "daily-loss breach"⟩
  | .breakerTrip, .normal => some ⟨.reductionOnlyBreaker, .circuitBreaker, "breaker trip"⟩
  | .recoveryRequest, .reductionOnlyDailyLoss
  | .recoveryRequest, .reductionOnlyBreaker
  | .recoveryRequest, .integrityStop => some ⟨.recoveryPreflight, .recovery, "recovery requested"⟩
  | .preflightPass, .recoveryPreflight => some ⟨.recoveryCooldown, .recovery, "preflight passed"⟩
  | .preflightFail, .recoveryPreflight =>
    match recoveryOriginState.filter recoveryOrigin with
    | some origin =>
      some ⟨origin, if origin = .integrityStop then .integrity else .recovery,
        "preflight failed — return to recovery origin"⟩
    | none =>
      some ⟨.integrityStop, .integrity, "preflight failed — origin absent/invalid, fail closed"⟩
  | .cooldownComplete, .recoveryCooldown => some ⟨.normal, .recovery, "cooldown complete"⟩
  | .healthRegressed, .recoveryCooldown =>
    some ⟨.integrityStop, .integrity, "health regressed in cooldown"⟩
  | _, _ => none

/-- The rungs of Python `PRECEDENCE_LADDER`. -/
inductive OrderOutcome where
  | integrityStop
  | allowReductionOnly
  | refuse
  | allow
  deriving DecidableEq, Repr

/-- Membership in `_LC_REDUCTION_DEPENDENT_STATES` (the engine) and `_REDUCTION_ONLY_FOR_ORDERS` (the
    state machine), which hold the same four states. -/
def reductionDependent : LossState → Bool
  | .reductionOnlyDailyLoss | .reductionOnlyBreaker | .recoveryPreflight | .recoveryCooldown => true
  | .normal | .integrityStop => false

/-- Python `order_outcome_for_state`; `none` is a state that is not known. -/
def orderOutcomeForState (state : Option LossState) (verifiedReduction : Bool) : OrderOutcome :=
  match state with
  | none => .integrityStop
  | some .integrityStop => .integrityStop
  | some .normal => .allow
  | some _ => if verifiedReduction then .allowReductionOnly else .refuse

end Workbench.Risk.LossControl
