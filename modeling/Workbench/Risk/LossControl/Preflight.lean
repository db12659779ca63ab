import Workbench.Risk.LossControl.Service

/-!
# The recovery preflight

Model of `run_preflight_checks` and `aggregate_verdict` (`app/risk/loss_control/preflight.py`). The
checks that read the loss-control tables (state, origin, trip cause, control state) and the catch-all
are modelled; what the other seven find, at the broker and in the books, comes from outside as
`Findings`, so that everything proved here holds whatever they find. A check that raises counts as
INCOMPLETE, and so does one whose prerequisites did not pass.
-/

namespace Workbench.Risk.LossControl
open Workbench.Lib List

/-- Python `PREFLIGHT_CHECK_REGISTRY`. -/
def checkRegistry : List CheckName :=
  [.stateKnownAndRecoverable, .recoveryOriginProven, .brokerReachable, .brokerAccountActive,
    .positionsReconcile, .openOrdersReconcile, .reservationsReconcile, .sessionBaselineValid,
    .dailyLossRecomputed, .tripCauseClassified, .controlStateConsistent,
    .noUnresolvedIntegrityCondition]

/-- Python `_PREREQS`. -/
def prerequisites : CheckName → List CheckName
  | .stateKnownAndRecoverable => []
  | .recoveryOriginProven => [.stateKnownAndRecoverable]
  | .brokerReachable => [.stateKnownAndRecoverable, .recoveryOriginProven]
  | .brokerAccountActive => [.brokerReachable]
  | .positionsReconcile => [.brokerReachable]
  | .openOrdersReconcile => [.brokerReachable]
  | .reservationsReconcile => [.brokerReachable, .openOrdersReconcile]
  | .sessionBaselineValid => [.stateKnownAndRecoverable]
  | .dailyLossRecomputed => [.sessionBaselineValid]
  | .tripCauseClassified => [.stateKnownAndRecoverable]
  | .controlStateConsistent => [.stateKnownAndRecoverable]
  | .noUnresolvedIntegrityCondition => []

/-- What the checks that are not modelled find, and which checks raise. -/
structure Findings where
  status : CheckName → CheckStatus := fun _ => .pass
  raises : CheckName → Bool := fun _ => false

/-- Python `PreflightContext`. -/
structure PreflightContext where
  accountId : Nat
  originState : Option LossState
  requestEvent : Option RiskControlEvent
  tripCause : Option TripCause

/-- Python `_result`: PASS or FAIL. -/
def passIf (ok : Bool) : CheckStatus := if ok then .pass else .fail

@[simp] lemma passIf_pass {ok : Bool} : passIf ok = .pass ↔ ok = true := by
  cases ok <;> simp [passIf]

/-- Membership in `ALL_TRIP_CAUSES` without UNKNOWN. -/
def classified : TripCause → Bool
  | .unknown | .unlisted _ => false
  | _ => true

/-- What a check other than the catch-all says, once its prerequisites passed. -/
def runCheck (db : Db) (ctx : PreflightContext) (findings : Findings) : CheckName → CheckStatus
  | .stateKnownAndRecoverable =>
    match db.lossControl.get ctx.accountId with
    | none => .fail
    | some row => passIf (row.state = .recoveryPreflight && ctx.originState.any recoveryOrigin)
  | .recoveryOriginProven =>
    passIf (ctx.requestEvent.any (fun e =>
      e.toState = .recoveryPreflight ∧ some e.fromState = ctx.originState) &&
        ctx.originState.any recoveryOrigin)
  | .tripCauseClassified => passIf (ctx.tripCause.any classified)
  | .controlStateConsistent =>
    match db.lossControl.get ctx.accountId, db.accounts.get ctx.accountId with
    | some row, some account =>
      passIf (row.stateVersion ≤ row.lastSequenceNo &&
        (ctx.originState ≠ some .reductionOnlyBreaker || account.circuitBreakerTrippedAt.isSome))
    | _, _ => .fail
  | name => findings.status name

/-- Fail-closed aggregation: any FAIL, else any INCOMPLETE, else PASS (Python `aggregate_verdict`, and
    what `_no_unresolved_integrity_condition` makes of the results before it). -/
def aggregateVerdict (results : List CheckResult) : CheckStatus :=
  if results.any (·.status = .fail) then .fail
  else if results.any (·.status = .incomplete) then .incomplete
  else .pass

/-- The status of one check after the results before it. -/
def checkStatus (db : Db) (ctx : PreflightContext) (findings : Findings) (prior : List CheckResult)
    (name : CheckName) : CheckStatus :=
  if (prerequisites name).any fun p => prior.any fun r => r.name = p ∧ r.status ≠ .pass then .incomplete
  else if findings.raises name then .incomplete
  else if name = .noUnresolvedIntegrityCondition then aggregateVerdict prior
  else runCheck db ctx findings name

/-- Python `run_preflight_checks`. -/
def runPreflightChecks (db : Db) (ctx : PreflightContext) (findings : Findings) : List CheckResult :=
  checkRegistry.foldl
    (fun results name => results ++ [⟨name, checkStatus db ctx findings results name⟩]) []

variable {db : Db} {ctx : PreflightContext} {findings : Findings}

lemma runPreflightChecks_names :
    (runPreflightChecks db ctx findings).map (·.name) = checkRegistry := rfl

lemma aggregateVerdict_pass {results : List CheckResult} :
    aggregateVerdict results = .pass ↔ ∀ r ∈ results, r.status = .pass := by
  unfold aggregateVerdict
  constructor
  · intro verdict r mem
    split at verdict
    · cases verdict
    · split at verdict
      · cases verdict
      · rename_i no_fail complete
        simp only [any_eq_true, decide_eq_true_eq, not_exists, not_and] at no_fail complete
        cases status : r.status with
        | pass => rfl
        | fail => exact absurd status (no_fail r mem)
        | incomplete => exact absurd status (complete r mem)
  · intro all
    rw [if_neg, if_neg]
    · simp only [any_eq_true, decide_eq_true_eq, not_exists, not_and]
      intro r mem
      simp [all r mem]
    · simp only [any_eq_true, decide_eq_true_eq, not_exists, not_and]
      intro r mem
      simp [all r mem]

lemma checkStatus_pass {prior : List CheckResult} {name : CheckName}
    (e : checkStatus db ctx findings prior name = .pass)
    (other : name ≠ .noUnresolvedIntegrityCondition) : runCheck db ctx findings name = .pass := by
  unfold checkStatus at e
  split at e
  · cases e
  · split at e
    · cases e
    · simpa [other] using e

lemma runPreflightChecks_pass (e : aggregateVerdict (runPreflightChecks db ctx findings) = .pass) :
    (∃ row, db.lossControl.get ctx.accountId = some row ∧ row.state = .recoveryPreflight) ∧
      ctx.originState.any recoveryOrigin = true ∧ ctx.tripCause.any classified = true := by
  rw [aggregateVerdict_pass] at e
  simp only [runPreflightChecks, checkRegistry, foldl_cons, foldl_nil, nil_append,
    cons_append, forall_mem_cons] at e
  obtain ⟨state, -, -, -, -, -, -, -, -, cause, -⟩ := e
  have known := checkStatus_pass state (by simp)
  have named := checkStatus_pass cause (by simp)
  simp only [runCheck, passIf_pass] at known named
  cases row : db.lossControl.get ctx.accountId with
  | none => simp [row] at known
  | some r =>
    simp only [row, passIf_pass, Bool.and_eq_true, decide_eq_true_eq] at known
    exact ⟨⟨r, rfl, known.1⟩, known.2, named⟩

end Workbench.Risk.LossControl
