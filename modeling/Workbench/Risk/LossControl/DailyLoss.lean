import Workbench.Risk.Types

/-!
# The daily-loss basis

Model of `app/risk/loss_control/daily_loss_observation.py` (the Model A observation under a Start A
canary binding, and the table every surface maps it through) and of
`app/risk/loss_control/daily_loss_basis.py` (the session baseline and its legacy fallbacks).

The body hash of an authorization is compared as the body it seals. A `DailyLossBasis` keeps the day
change and its source; the fallback reason is provenance that no gate reads.
-/

namespace Workbench.Risk.LossControl
open Workbench.Lib

/-! ## Model A -/

/-- Python `ObservationStatus`. -/
inductive ObservationStatus where
  | available
  | unavailable
  | stale
  | conflict
  | invalid
  deriving DecidableEq, Repr

/-- Python `SurfaceAction`. -/
inductive SurfaceAction where
  | evaluate
  | refuse
  | reject
  | permitReduction
  | failOrIncomplete
  | fail
  | permitReductionAdr0042Only
  deriving DecidableEq, Repr

/-- The surfaces `map_surface_action` knows. -/
inductive Surface where
  | phase0
  | newRisk
  | verifiedReduction
  | recovery
  deriving DecidableEq, Repr

/-- Python `map_surface_action`. -/
def mapSurfaceAction : ObservationStatus → Surface → SurfaceAction
  | .available, .phase0 => .evaluate
  | .available, .newRisk => .evaluate
  | .available, .verifiedReduction => .permitReduction
  | .available, .recovery => .evaluate
  | _, .phase0 => .refuse
  | _, .newRisk => .reject
  | .unavailable, .verifiedReduction => .permitReduction
  | .stale, .verifiedReduction => .permitReduction
  | .conflict, .verifiedReduction => .permitReductionAdr0042Only
  | .invalid, .verifiedReduction => .permitReductionAdr0042Only
  | .unavailable, .recovery => .failOrIncomplete
  | .stale, .recovery => .failOrIncomplete
  | .conflict, .recovery => .fail
  | .invalid, .recovery => .fail

/-- Python `EXPECTED_BROKER_ACCOUNT_ID`. -/
def expectedBrokerAccountId : String := "PA34USW0Q8UO"

/-- What `resolve_effective_canary_binding` returns. -/
inductive CanaryBinding where
  | unbound
  | conflict
  | bound (binding : StartABody)

/-- Python `resolve_effective_canary_binding`. -/
def resolveEffectiveCanaryBinding (db : Db) (accountId : Nat) (sessionDate : String) :
    CanaryBinding :=
  let rows := db.startA.filter fun a =>
    a.body.workbenchAccountId = accountId ∧ a.body.authorizedSessionDate = sessionDate ∧
      a.body.effective
  match rows with
  | [] => .unbound
  | [row] =>
    if row.body ≠ row.sealedBody then .conflict
    else if row.body.brokerAccountId ≠ expectedBrokerAccountId then .conflict
    else .bound row.body
  | _ => .conflict

/-- Python `load_bound_model_a_baseline`: the ACTIVE baselines of exactly this binding. -/
def loadBoundModelABaseline (db : Db) (binding : StartABody) : List CanaryBaseline :=
  db.canaryBaselines.filter fun b =>
    b.accountId = binding.workbenchAccountId ∧
      b.marketSessionDate = binding.authorizedSessionDate ∧
      b.designVersion = binding.designVersion ∧ b.freezeId = binding.freezeId ∧
      b.startAId = binding.startAId ∧ b.configurationDigest = binding.configurationDigest ∧
      b.active ∧ b.sessionOpenSource

/-- Python `DailyLossObservation`: its status, why, and what it measured. -/
structure DailyLossObservation where
  status : ObservationStatus
  reasonCode : Option String
  currentEquity : Option ℚ
  dailyPnl : Option ℚ

def failedObservation (status : ObservationStatus) (reasonCode : String) (currentEquity : Option ℚ) :
    DailyLossObservation :=
  ⟨status, some reasonCode, currentEquity, none⟩

/-- The observation of the single baseline bound to an authorization. -/
def observeBaseline (binding : StartABody) (row : CanaryBaseline) (currentEquity : Option ℚ) :
    DailyLossObservation :=
  if row.freezeBodySha256 ≠ binding.freezeBodySha256 ∨ row.imageDigest ≠ binding.imageDigest ∨
      row.commitSha ≠ binding.commitSha ∨ row.brokerAccountId ≠ binding.brokerAccountId then
    failedObservation .conflict "BASELINE_BINDING_MISMATCH" currentEquity
  else if row.brokerAccountId ≠ expectedBrokerAccountId then
    failedObservation .conflict "BROKER_IDENTITY_MISMATCH" currentEquity
  else if row.evidenceComplete = false then
    failedObservation .invalid "BASELINE_EVIDENCE_INCOMPLETE" currentEquity
  else match currentEquity with
    | none => failedObservation .unavailable "CURRENT_EQUITY_MISSING" none
    | some equity => ⟨.available, none, some equity, some (equity - row.baselineEquity)⟩

/-- Python `observe_model_a_daily_loss`. -/
def observeModelADailyLoss (db : Db) (accountId : Nat) (currentEquity : Option ℚ)
    (sessionDate : Option String) : Option DailyLossObservation :=
  match sessionDate with
  | none => none
  | some date =>
    match resolveEffectiveCanaryBinding db accountId date with
    | .unbound => none
    | .conflict => some (failedObservation .conflict "CANARY_BINDING_CONFLICT" currentEquity)
    | .bound binding =>
      match loadBoundModelABaseline db binding with
      | [] => some (failedObservation .unavailable "MODEL_A_BASELINE_MISSING" currentEquity)
      | [row] => some (observeBaseline binding row currentEquity)
      | _ => some (failedObservation .conflict "MULTIPLE_BOUND_MODEL_A_BASELINES" currentEquity)

lemma mapSurfaceAction_newRisk {status : ObservationStatus} (h : status ≠ .available) :
    mapSurfaceAction status .newRisk = .reject := by
  cases status with
  | available => exact absurd rfl h
  | unavailable => rfl
  | stale => rfl
  | conflict => rfl
  | invalid => rfl

lemma observeModelADailyLoss_available {db : Db} {accountId : Nat} {equity : Option ℚ}
    {date : Option String} {obs : DailyLossObservation}
    (e : observeModelADailyLoss db accountId equity date = some obs) :
    (obs.status = .available ∧ obs.dailyPnl.isSome ∧ equity.isSome) ∨ obs.status ≠ .available := by
  unfold observeModelADailyLoss at e
  split at e
  · cases e
  · split at e
    · cases e
    · cases e
      exact .inr (by simp [failedObservation])
    · split at e
      · cases e
        exact .inr (by simp [failedObservation])
      · cases e
        unfold observeBaseline
        split
        · exact .inr (by simp [failedObservation])
        · split
          · exact .inr (by simp [failedObservation])
          · split
            · exact .inr (by simp [failedObservation])
            · cases equity with
              | none => exact .inr (by simp [failedObservation])
              | some _ => exact .inl ⟨rfl, rfl, rfl⟩
      · cases e
        exact .inr (by simp [failedObservation])

/-! ## The session baseline -/

/-- The `basis_source` of a daily-loss basis. -/
inductive BasisSource where
  | sessionBaseline
  | legacyLastEquity
  | legacyCumulativeFallback
  deriving DecidableEq, Repr

/-- Python `DailyLossBasis`. -/
structure DailyLossBasis where
  dayChange : Option ℚ
  basisSource : Option BasisSource

/-- Python `_load_today_baseline`. -/
def loadTodayBaseline (db : Db) (accountId : Nat) (sessionDate : String) :
    Option RiskSessionBaseline :=
  db.sessionBaselines.find? fun b => b.accountId = accountId ∧ b.marketSessionDate = sessionDate

/-- What the cumulative fallback is computed from, where a caller sanctions it. -/
structure Cumulative where
  realized : ℚ
  unrealized : ℚ

/-- Python `_legacy_basis`. -/
def legacyBasis (currentEquity lastEquity : Option ℚ) (cumulative : Option Cumulative) :
    DailyLossBasis :=
  let fallback : DailyLossBasis :=
    match cumulative with
    | some c => ⟨some (c.realized + c.unrealized), some .legacyCumulativeFallback⟩
    | none => ⟨none, none⟩
  match currentEquity, lastEquity with
  | some equity, some last =>
    if 0 < last then ⟨some (equity - last), some .legacyLastEquity⟩ else fallback
  | _, _ => fallback

/-- Python `select_daily_loss_basis`. -/
def selectDailyLossBasis (db : Db) (accountId : Nat) (currentEquity lastEquity : Option ℚ)
    (cumulative : Option Cumulative) (sessionDate : Option String) : DailyLossBasis :=
  match sessionDate.bind (loadTodayBaseline db accountId) with
  | none => legacyBasis currentEquity lastEquity cumulative
  | some baseline =>
    if baseline.active ∧ 0 < baseline.baselineEquity then
      ⟨currentEquity.map (· - baseline.baselineEquity), some .sessionBaseline⟩
    else legacyBasis currentEquity lastEquity cumulative

end Workbench.Risk.LossControl
