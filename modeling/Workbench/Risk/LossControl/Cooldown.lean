import Workbench.Risk.LossControl.Recovery

/-!
# The recovery cooldown

Model of the re-arm policy (`evaluate_cooldown` and what it uses, `app/risk/loss_control/state_machine.py`)
and of `CooldownEvaluator._evaluate` (`app/risk/loss_control/cooldown.py`) up to its transition. What
the evaluator is supplied with is `AccountEvidence`: whether the three reconciliation checks pass with
the adapter it was given (never without one), a velocity reading, the instant, and the trading date
of that instant.
-/

namespace Workbench.Risk.LossControl
open Workbench.Lib

/-! ## The policy -/

/-- The dwell classes. -/
inductive DwellClass where
  | artifact
  | rateVelocity
  | confirmedDailyLoss
  | integrity
  deriving DecidableEq, Repr

/-- Python `DwellRequirement`. -/
inductive DwellRequirement where
  | fixedMinutes (minutes : Nat)
  | untilNextSession
  | untilManualRepair
  deriving DecidableEq, Repr

/-- Membership in `_INTEGRITY_TRIP_CAUSES`. -/
def integrityCause : TripCause → Bool
  | .brokerStateUncertain | .positionReconciliationFailed | .sessionBaselineMissing
  | .sessionBaselineMismatch | .staleMarketData | .orderStateUncertain
  | .controlConfigurationInvalid | .reductionNotVerifiable => true
  | _ => false

/-- Python `dwell_class_for_trip`. -/
def dwellClassForTrip (cause : Option TripCause) (evidence : Option TripEvidenceStatus) : DwellClass :=
  if cause = some .realizedAndMarkToMarketLoss then .confirmedDailyLoss
  else if cause = some .lossVelocity then .rateVelocity
  else if cause.any integrityCause then .integrity
  else if evidence = some .artifactConfirmed then .artifact
  else .integrity

/-- Python `required_dwell`. -/
def requiredDwell : DwellClass → DwellRequirement
  | .artifact => .fixedMinutes 15
  | .rateVelocity => .fixedMinutes 30
  | .confirmedDailyLoss => .untilNextSession
  | .integrity => .untilManualRepair

/-- Python `velocity_is_healthy`. -/
def velocityIsHealthy (current tripLimit : ℚ) (sustainedSeconds : Int) : Bool :=
  if tripLimit ≤ 0 ∨ current < 0 ∨ sustainedSeconds < 0 then false
  else current ≤ tripLimit * (1 / 2) ∧ 600 ≤ sustainedSeconds

/-- Python `CooldownInputs`. -/
structure CooldownInputs where
  dwellClass : DwellClass
  dwellElapsedSeconds : Nat
  newSessionStarted : Bool
  manualRepairComplete : Bool
  integrityAlertsActive : Bool
  brokerReconciled : Bool
  stateUnchangedSinceCooldown : Bool
  velocityHealthy : Bool
  deriving DecidableEq, Repr

/-- Python `_dwell_satisfied`. -/
def dwellSatisfied (inp : CooldownInputs) : Bool :=
  match requiredDwell inp.dwellClass with
  | .fixedMinutes minutes => minutes * 60 ≤ inp.dwellElapsedSeconds
  | .untilNextSession => inp.newSessionStarted
  | .untilManualRepair => inp.manualRepairComplete

/-- The verdicts of the policy. -/
inductive CooldownVerdict where
  | hold
  | complete
  | regressed
  deriving DecidableEq, Repr

/-- Python `evaluate_cooldown`, with its reason. -/
def evaluateCooldown (inp : CooldownInputs) : CooldownVerdict × String :=
  if inp.integrityAlertsActive then (.regressed, "integrity alert active during cooldown")
  else if !inp.stateUnchangedSinceCooldown then (.regressed, "new trip enqueued during cooldown")
  else if !dwellSatisfied inp then (.hold, "minimum dwell not satisfied")
  else if !inp.brokerReconciled then (.hold, "broker reconciliation not clean")
  else if inp.dwellClass = .rateVelocity && !inp.velocityHealthy then
    (.hold, "loss velocity not recovered")
  else (.complete, "all D1.4 conditions hold")

lemma dwellSatisfied_iff {inp : CooldownInputs} : dwellSatisfied inp = true ↔
    match inp.dwellClass with
    | .artifact => 15 * 60 ≤ inp.dwellElapsedSeconds
    | .rateVelocity => 30 * 60 ≤ inp.dwellElapsedSeconds
    | .confirmedDailyLoss => inp.newSessionStarted = true
    | .integrity => inp.manualRepairComplete = true := by
  unfold dwellSatisfied
  cases inp.dwellClass with
  | artifact => exact decide_eq_true_iff
  | rateVelocity => exact decide_eq_true_iff
  | confirmedDailyLoss => rfl
  | integrity => rfl

/-- The policy completes a cooldown that nothing has disturbed when its dwell is over, the broker
    reconciles and a velocity trip has recovered. -/
lemma evaluateCooldown_complete {inp : CooldownInputs} (quiet : inp.integrityAlertsActive = false)
    (unchanged : inp.stateUnchangedSinceCooldown = true) :
    (evaluateCooldown inp).1 = .complete ↔ dwellSatisfied inp = true ∧ inp.brokerReconciled = true ∧
      (inp.dwellClass = .rateVelocity → inp.velocityHealthy = true) := by
  unfold evaluateCooldown
  rw [quiet, unchanged]
  cases dwellSatisfied inp <;> cases inp.brokerReconciled <;> cases inp.velocityHealthy <;>
    by_cases velocity : inp.dwellClass = .rateVelocity <;> simp [velocity]

/-! ## The evaluator -/

/-- Python `VelocityReading`. -/
structure VelocityReading where
  current : ℚ
  tripLimit : ℚ
  sustainedSeconds : Int
  deriving DecidableEq, Repr

/-- What an evaluation is supplied with. -/
structure AccountEvidence where
  reconciles : Bool := false
  velocity : Option VelocityReading := none
  instant : Instant
  sessionDate : Option String := none
  deriving DecidableEq, Repr

/-- Python `_cooldown_entry_event`, with its id. -/
def cooldownEntryEvent (db : Db) (accountId : Nat) : Option (RiskControlEvent × Nat) :=
  (db.controlEvents.zipIdx.reverse.find? fun e =>
    e.1.accountId = accountId ∧ e.1.toState = .recoveryCooldown).filter fun e =>
      e.1.fromState = .recoveryPreflight ∧ e.1.requestedTransition = .preflightPass

def boundPreflight (db : Db) (entryId : Nat) : Option RiskRecoveryPreflight :=
  db.preflights.find? (·.transitionEventId = some entryId)

/-- Python `_trip_evidence_status`. -/
def tripEvidenceStatus (db : Db) (accountId : Nat) (origin : Option LossState) (before : Nat) :
    Option TripEvidenceStatus :=
  origin.bind fun origin => ((db.controlEvents.take before).reverse.find? fun e =>
    e.accountId = accountId ∧ e.toState = origin ∧ e.context.tripEvidenceStatus.isSome).bind
      (·.context.tripEvidenceStatus)

/-- Python `_events_after`. -/
def eventsAfter (db : Db) (accountId sequenceNo : Nat) : List RiskControlEvent :=
  db.controlEvents.filter fun e => e.accountId = accountId ∧ sequenceNo < e.sequenceNo

/-- Python `_velocity_healthy`. -/
def velocityHealthy (dwellClass : DwellClass) (velocity : Option VelocityReading) : Bool :=
  dwellClass ≠ .rateVelocity ||
    velocity.any fun v => velocityIsHealthy v.current v.tripLimit v.sustainedSeconds

/-- Python `_elapsed_seconds`. -/
def elapsedSeconds (enteredAt instant : Instant) : Nat := (instant - enteredAt) / 1000000

/-- Python `_new_session_started`. -/
def newSessionStarted (entrySessionDate current : Option String) : Bool :=
  match entrySessionDate, current with
  | some entered, some current => entered < current
  | _, _ => false

def cooldownClass (db : Db) (accountId : Nat) (preflight : RiskRecoveryPreflight) (entryId : Nat) :
    DwellClass :=
  dwellClassForTrip preflight.tripCause
    (tripEvidenceStatus db accountId preflight.originState entryId)

/-- The inputs the evaluator gathers for the policy. -/
def cooldownInputs (db : Db) (accountId : Nat) (entry : RiskControlEvent × Nat)
    (preflight : RiskRecoveryPreflight) (evidence : AccountEvidence) : CooldownInputs :=
  let dwellClass := cooldownClass db accountId preflight entry.2
  let postEntry := eventsAfter db accountId entry.1.sequenceNo
  { dwellClass
    dwellElapsedSeconds := elapsedSeconds entry.1.createdAt evidence.instant
    newSessionStarted := newSessionStarted entry.1.context.sessionDate evidence.sessionDate
    manualRepairComplete := preflight.authorizedByActorId.isSome
    integrityAlertsActive := postEntry.any (·.controlType = .integrity)
    brokerReconciled := evidence.reconciles
    stateUnchangedSinceCooldown := postEntry.isEmpty
    velocityHealthy := velocityHealthy dwellClass evidence.velocity }

/-- What an evaluation does after its reads: nothing, or one transition against the version it read. -/
inductive CooldownRead where
  | noOp
  | hold
  | fire (trigger : LossTrigger) (version : Nat)
  deriving DecidableEq, Repr

/-- The reads of Python `CooldownEvaluator._evaluate`. -/
def evaluateAccount (db : Db) (accountId : Nat) (evidence : AccountEvidence) : CooldownRead :=
  match (loadStateRow db accountId).filter (·.state = .recoveryCooldown) with
  | none => .noOp
  | some row =>
    match cooldownEntryEvent db accountId with
    | none => .fire .healthRegressed row.stateVersion
    | some entry =>
      match boundPreflight db entry.2 with
      | none => .fire .healthRegressed row.stateVersion
      | some preflight =>
        match (evaluateCooldown (cooldownInputs db accountId entry preflight evidence)).1 with
        | .complete => .fire .cooldownComplete row.stateVersion
        | .regressed => .fire .healthRegressed row.stateVersion
        | .hold => .hold

lemma evaluateAccount_fire {db : Db} {a : Nat} {evidence : AccountEvidence} {trigger : LossTrigger}
    {version : Nat} (e : evaluateAccount db a evidence = .fire trigger version) :
    (trigger = .cooldownComplete ∨ trigger = .healthRegressed) ∧
      ∃ row, loadStateRow db a = some row ∧ row.state = .recoveryCooldown ∧ row.stateVersion = version := by
  unfold evaluateAccount at e
  split at e
  · cases e
  · rename_i row loaded
    obtain ⟨get, state⟩ := Option.filter_eq_some_iff.1 loaded
    have read : ∃ row', loadStateRow db a = some row' ∧ row'.state = .recoveryCooldown ∧
        row'.stateVersion = row.stateVersion := ⟨row, get, by simpa using state, rfl⟩
    split at e
    · cases e
      exact ⟨.inr rfl, read⟩
    · split at e
      · cases e
        exact ⟨.inr rfl, read⟩
      · split at e <;> cases e
        · exact ⟨.inl rfl, read⟩
        · exact ⟨.inr rfl, read⟩

end Workbench.Risk.LossControl
