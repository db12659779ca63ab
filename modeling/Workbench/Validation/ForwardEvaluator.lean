import Workbench.Validation.SecurityLineage
import Workbench.Validation.ShadowLedger

/-!
# The forward evaluator

Model of `app/validation/forward_evaluator.py`: the decision of one session is obtained, checked, and booked into the
shadow ledger. A call that raises leaves what it has written.

Python → Lean naming: `_validate_decision_values` → `validateDecisionValues`, `_assert_no_concealed_transition` →
`assertNoConcealedTransition`, `_commit_matches` → `commitMatches`, `evaluate_session` → `evaluateSession`.
-/

set_option linter.dupNamespace false

namespace Workbench.Validation
open Lib

/-! ## Decisions -/

/-- Python `InstrumentDecisionState`. -/
structure InstrumentDecisionState where
  held : List String
  currentWeights : Dict String ℚ
  lastAppliedTargetWeights : Dict String ℚ
  priorAppliedGross : ℚ
  sessionsSinceRebalance : ℤ
  weightDriftThreshold : ℚ
  backstopDays : ℤ
deriving DecidableEq

/-- Python `ForwardDecision`. -/
structure ForwardDecision where
  record : SeamRecord
  instrumentIdentity : String
  durableStateId : String
  instrumentState : InstrumentDecisionState
  snapshotDigest : String := ""
  inputEvidenceDigest : String := ""
deriving DecidableEq

/-- Python `ForwardEvaluationError`, by what is told. -/
inductive ForwardEvaluationError where
  | alreadyEvaluated (iso : String)
  | noExpectedDigest
  | noDigest
  | otherSnapshot (decision expected : String)
  | otherDate (date iso : String)
  | otherIdentity (actual frozen : String)
  | sameIdentity (durableStateId : String)
  | grossOutOfRange (g : ℚ)
  | duplicateTargets (names : List String)
  | tooManyTargets (names : List String)
  | otherNames (weights names : List String)
  | negativeWeight (ticker : String) (w : ℚ)
  | exceedsGross (total g : ℚ)
  | otherWeighting (weighting : String)
  | otherWeight (ticker : String) (w expected : ℚ)
  | concealsMembership (targets held : List String)
  | concealsRegime (g prior : ℚ)
  | concealsBackstop (since backstop : ℤ)
  | concealsDrift (drift threshold : ℚ)
deriving DecidableEq

/-! ## The frozen configuration -/

/-- `FROZEN_CONFIG["weighting"]` -/
def frozenWeighting : String := "equal"

/-- `FROZEN_CONFIG["max_names"]` -/
def maxNames : ℕ := 5

/-- `FROZEN_CONFIG["max_position_pct"]` -/
def maxPositionPct : ℚ := 1 / 5

/-- `_GROSS_EPS` -/
def grossEps : ℚ := 1 / 10 ^ 9

/-- `_WEIGHT_EPS` -/
def weightEps : ℚ := 1 / 10 ^ 9

/-- `_SHA_LEN` -/
def shaLen : ℕ := 40

/-- `_MIN_GOVERNED_SHORT_SHA` -/
def minGovernedShortSha : ℕ := 12

/-- `PRODUCTION_STRATEGY_COMMIT` -/
def productionStrategyCommit : String := "b0058bf335628f8dbde09a93915314f3a1f7743b"

/-! ## The checks -/

/-- `sorted(names)` -/
def sorted (names : List String) : List String := names.insertionSort (· ≤ ·)

/-- The loop that sums the weights and refuses a negative one. -/
def totalWeight : ℚ → List (String × ℚ) → Except ForwardEvaluationError ℚ
  | total, [] => .ok total
  | total, (ticker, w) :: weights => if w < 0 then .error (.negativeWeight ticker w)
    else totalWeight (total + w) weights

/-- The loop that compares each weight with the registered one. -/
def conforms (expected : ℚ) : List (String × ℚ) → Except ForwardEvaluationError Unit
  | [] => .ok ()
  | (ticker, w) :: weights =>
    if weightEps < |w - expected| then .error (.otherWeight ticker w expected) else conforms expected weights

/-- Python `_validate_decision_values`. -/
def validateDecisionValues (rec : SeamRecord) : Except ForwardEvaluationError Unit :=
  let g := rec.regimeGross
  let names := rec.targetNames
  if ¬ (0 ≤ g ∧ g ≤ 1) then .error (.grossOutOfRange g)
  else if ¬ names.Nodup then .error (.duplicateTargets names)
  else if maxNames < names.length then .error (.tooManyTargets names)
  else if (ShadowLedger.keys rec.weights).toFinset ≠ names.toFinset then
    .error (.otherNames (sorted (ShadowLedger.keys rec.weights)) (sorted names))
  else do
    let total ← totalWeight 0 rec.weights.entries
    if g + weightEps < total then .error (.exceedsGross total g)
    else if names = [] then .ok ()
    else if frozenWeighting ≠ "equal" then .error (.otherWeighting frozenWeighting)
    else conforms (min (1 / (names.length : ℚ)) maxPositionPct * g) rec.weights.entries

/-- The largest drift of the held names: `max` over distances. -/
def maxDrift (held : List String) (current target : String → ℚ) : ℚ :=
  (held.map fun ticker => |current ticker - target ticker|).foldr max 0

/-- Python `_assert_no_concealed_transition`. -/
def assertNoConcealedTransition (rec : SeamRecord) (st : InstrumentDecisionState) :
    Except ForwardEvaluationError Unit :=
  let drift := maxDrift st.held (ShadowLedger.weightOf st.currentWeights)
    (ShadowLedger.weightOf st.lastAppliedTargetWeights)
  if rec.tradeInitiated then .ok ()
  else if rec.targetNames.toFinset ≠ st.held.toFinset then
    .error (.concealsMembership (sorted rec.targetNames) (sorted st.held))
  else if grossEps < |rec.regimeGross - st.priorAppliedGross| then
    .error (.concealsRegime rec.regimeGross st.priorAppliedGross)
  else if st.backstopDays ≤ st.sessionsSinceRebalance then
    .error (.concealsBackstop st.sessionsSinceRebalance st.backstopDays)
  else if st.held ≠ [] ∧ st.weightDriftThreshold < drift then .error (.concealsDrift drift st.weightDriftThreshold)
  else .ok ()

/-- `set(s) <= _HEX` -/
def isHex (s : String) : Bool := s.toList.all fun c => c ∈ "0123456789abcdef".toList

/-- Python `_is_full_sha`. -/
def isFullSha (s : String) : Bool := s.length = shaLen && isHex s

/-- `s.lower()`, of ASCII letters: no other letter is one of a commit name in either case. -/
def lower (s : String) : String := String.ofList (s.toList.map Char.toLower)

/-- Python `_commit_matches`. -/
def commitMatches (actual frozen : String) : Bool :=
  let a := lower (strip actual)
  let f := lower (strip frozen)
  if !isFullSha a then false
  else if isFullSha f then a = f
  else minGovernedShortSha ≤ f.length && isHex f && f.toList.isPrefixOf a.toList

/-! ## A session -/

/-- Python `ForwardEvaluator`. -/
structure ForwardEvaluator where
  ledger : ShadowLedger
  shadowLedgerIdentity : String
  expectedSnapshotDigest : String := ""
  expectedInstrumentIdentity : String := productionStrategyCommit
  processedSessions : Finset String := ∅
  shadowLedgerDriftDiagnostics : Dict String ℚ := .empty
  lastDecision : Option ForwardDecision := none

/-- What a session raises. -/
inductive EvaluationFault where
  | refused (error : ForwardEvaluationError)
  | provider (text : String)
  | booking (fault : Fault)
deriving DecidableEq

/-- Python `DecisionProvider`. -/
abbrev DecisionProvider := Date → Except String ForwardDecision

/-- The boundary checks of a decision, in order. -/
def boundaryChecks (ev : ForwardEvaluator) (iso : String) (decision : ForwardDecision) :
    Except ForwardEvaluationError Unit :=
  if strip decision.snapshotDigest = "" then .error .noDigest
  else if decision.snapshotDigest ≠ ev.expectedSnapshotDigest then
    .error (.otherSnapshot decision.snapshotDigest ev.expectedSnapshotDigest)
  else if decision.record.date ≠ iso then .error (.otherDate decision.record.date iso)
  else if !commitMatches decision.instrumentIdentity ev.expectedInstrumentIdentity then
    .error (.otherIdentity decision.instrumentIdentity ev.expectedInstrumentIdentity)
  else if decision.durableStateId = ev.shadowLedgerIdentity then .error (.sameIdentity decision.durableStateId)
  else do
    validateDecisionValues decision.record
    assertNoConcealedTransition decision.record decision.instrumentState

/-- Python `_shadow_ledger_drift`. -/
def shadowLedgerDrift (s : ShadowLedgerState) : ℚ :=
  if s.held = [] ∨ s.equity ≤ 0 ∨ ShadowLedger.keys s.targetW = [] then 0
  else maxDrift s.held (fun ticker => ShadowLedger.weightOf s.sleeves ticker / s.equity)
    (ShadowLedger.weightOf s.targetW)

/-- Python `evaluate_session`. -/
def evaluateSession (provider : DecisionProvider) (price : PriceFn) (d : Date) :
    EStateM EvaluationFault ForwardEvaluator SessionOutcome := fun ev =>
  let iso := d.isoformat
  if iso ∈ ev.processedSessions then .error (.refused (.alreadyEvaluated iso)) ev
  else if strip ev.expectedSnapshotDigest = "" then .error (.refused .noExpectedDigest) ev
  else
    match provider d with
    | .error text => .error (.provider text) ev
    | .ok decision =>
      let ev := { ev with lastDecision := some decision }
      match boundaryChecks ev iso decision with
      | .error e => .error (.refused e) ev
      | .ok () =>
        let ev := { ev with shadowLedgerDriftDiagnostics :=
          ev.shadowLedgerDriftDiagnostics.set iso (shadowLedgerDrift ev.ledger.state) }
        match ShadowLedger.bookDecision ev.ledger.toLedgerConfig d decision.record price ev.ledger.state with
        | .error fault s => .error (.booking fault) { ev with ledger := { ev.ledger with state := s } }
        | .ok outcome s => .ok outcome { ev with
            ledger := { ev.ledger with state := s }
            processedSessions := insert iso ev.processedSessions }

end Workbench.Validation
