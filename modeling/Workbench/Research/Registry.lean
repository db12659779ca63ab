import Mathlib.Algebra.Order.Floor.Ring
import Mathlib.Data.Rat.Floor
import Workbench.Lib.Dict
import Workbench.Lib.Machine

/-!
# The research registry

Model of `app/research/registry/store.py` and `app/research/promotion/gate.py`: the strategies and the
experiments of a `ResearchStore`, the log of their transitions, and the promotion gate. Every SQL statement
commits by itself, so a call is the list of the statements it still has to execute.
-/

namespace Workbench.Research
open Lib

/-! ## The gate -/

/-- The numbers of a metrics dict; `_num` reads anything else as absent. -/
abbrev Metrics := List (String × ℚ)

/-- Python `Criterion`. -/
structure Criterion where
  label : String
  passed : Metrics → Bool
  weight : ℚ := 1

/-- Python `GateProfile`. -/
structure GateProfile where
  name : String
  criteria : List Criterion
  evidenceKey : Option String := none
  evidenceFloor : ℚ := 0
  evidenceStrong : ℚ := 0
  minConfidence : ℚ := 0

/-- The verdicts of the gate. -/
inductive Verdict where
  | go | goWarning | noGo | inconclusive
deriving DecidableEq, Repr

def Verdict.name : Verdict → String
  | .go => "GO"
  | .goWarning => "GO_WARNING"
  | .noGo => "NO-GO"
  | .inconclusive => "INCONCLUSIVE"

/-- Python `GateResult`. -/
structure GateResult where
  verdict : Verdict
  researchState : String
  confidenceScore : Int
  checks : List (String × Bool)
deriving DecidableEq

/-- Python `round`: halves go to the even neighbour. -/
def roundHalfEven (q : ℚ) : Int :=
  let below := ⌊q⌋
  if q - below < 1 / 2 then below
  else if 1 / 2 < q - below then below + 1
  else if below % 2 = 0 then below else below + 1

lemma abs_roundHalfEven_sub_le {q : ℚ} : |(roundHalfEven q : ℚ) - q| ≤ 1 / 2 := by
  have below := Int.floor_le q
  have above := Int.lt_floor_add_one q
  rw [abs_le, roundHalfEven]
  split_ifs <;> push_cast <;> constructor <;> linarith

lemma roundHalfEven_mono {q r : ℚ} (le : q ≤ r) : roundHalfEven q ≤ roundHalfEven r := by
  have near := abs_le.1 (abs_roundHalfEven_sub_le (q := q))
  have near' := abs_le.1 (abs_roundHalfEven_sub_le (q := r))
  by_contra lt
  have gap : (roundHalfEven r : ℚ) + 1 ≤ roundHalfEven q := by exact_mod_cast not_le.1 lt
  -- both are the same half
  have same : q = r := by linarith
  exact lt (same ▸ le_rfl)

lemma roundHalfEven_lt {q r : ℚ} (apart : q + 1 < r) : roundHalfEven q < roundHalfEven r := by
  have near := abs_le.1 (abs_roundHalfEven_sub_le (q := q))
  have near' := abs_le.1 (abs_roundHalfEven_sub_le (q := r))
  have lt : (roundHalfEven q : ℚ) < roundHalfEven r := by linarith
  exact_mod_cast lt

lemma roundHalfEven_intCast {n : ℤ} : roundHalfEven n = n := by
  simp [roundHalfEven]

/-- The evidence of the metrics, where the profile asks for it; an empty key asks for none. -/
def evidenceOf (metrics : Metrics) (profile : GateProfile) : Option (Option ℚ) :=
  (profile.evidenceKey.filter (· ≠ "")).map fun key => metrics.lookup key

def lacksEvidence (metrics : Metrics) (profile : GateProfile) : Bool :=
  (evidenceOf metrics profile).any fun evidence => !(evidence.any (profile.evidenceFloor ≤ ·))

/-- Python `evaluate`. -/
def evaluate (metrics : Metrics) (profile : GateProfile) : GateResult :=
  let checks := profile.criteria.map fun c => (c.label, c.passed metrics)
  let sum := (profile.criteria.map (·.weight)).sum
  let totalW := if sum = 0 then 1 else sum
  let passedW := ((profile.criteria.filter (·.passed metrics)).map (·.weight)).sum
  let confidence := roundHalfEven (100 * passedW / totalW)
  if lacksEvidence metrics profile then ⟨.inconclusive, "RESEARCH", confidence, checks⟩
  else if checks.any (!·.2) then ⟨.noGo, "REJECTED", confidence, checks⟩
  else if confidence < profile.minConfidence then ⟨.noGo, "REJECTED", confidence, checks⟩
  else
    let strong := (evidenceOf metrics profile).all (·.all (profile.evidenceStrong ≤ ·))
    ⟨if strong then .go else .goWarning, "VALIDATED", confidence, checks⟩

/-! ## The store -/

/-- The entities with a lifecycle. -/
inductive EntityType where
  | strategy | experiment
deriving DecidableEq, Repr

/-- The axes of a lifecycle. -/
inductive Axis where
  | research | deployment
deriving DecidableEq, Repr

/-- Python `RESEARCH_STATES` and `DEPLOYMENT_STATES`. -/
def Axis.states : Axis → List String
  | .research => ["RESEARCH", "VALIDATED", "REJECTED", "ARCHIVED"]
  | .deployment => ["NONE", "PAPER", "CANARY", "LIVE", "RETIRED"]

/-- The states of a row of `strategies`. -/
structure StrategyRow where
  researchState : String := "RESEARCH"
  deploymentState : String := "NONE"
deriving DecidableEq

/-- A row of `experiments`: its state, and what the gate reads and writes. -/
structure ExperimentRow where
  researchState : String := "RESEARCH"
  confidenceScore : Option Int := none
  metricsSummary : Metrics := []
deriving DecidableEq

/-- Python `TransitionRecord`. -/
structure TransitionRow where
  entityType : EntityType
  entityId : String
  axis : Axis
  fromState : String
  toState : String
  reason : String
  actor : Option String := none
deriving DecidableEq

/-- The statements that write. -/
inductive Sql where
  | putStrategy (id : String) (row : StrategyRow)
  | putExperiment (id : String) (row : ExperimentRow)
  | setConfidence (id : String) (score : Int)
  | insertTransition (row : TransitionRow)
  | setState (entityType : EntityType) (id : String) (axis : Axis) (state : String)
deriving DecidableEq

/-- The calls of the API; a new id is random, so any id may come. -/
inductive Call where
  | recordStrategy (id : String) (row : StrategyRow)
  | recordExperiment (id : String) (row : ExperimentRow)
  | transition (entityType : EntityType) (id : String) (axis : Axis) (toState reason : String) (actor : Option String)
  | gateExperiment (id : String) (profile : GateProfile) (metrics : Option Metrics) (reasons : List String)
    (actor : String := "promotion_gate")

/-- The tables, the statements that the running call has left, and the result it is to return. `gated` is what
    the last call returned when it was a gate; `registered` keeps the states at registration. -/
structure State where
  strategies : Dict String StrategyRow := .empty
  experiments : Dict String ExperimentRow := .empty
  transitions : List TransitionRow := []
  pending : List Sql := []
  gating : Option (String × GateResult) := none
  gated : Option (String × GateResult) := none
  registered : Dict (EntityType × String × Axis) String := .empty

/-- The state column of an entity; an experiment has no deployment state. -/
@[grind] def stored (s : State) (entityType : EntityType) (id : String) (axis : Axis) : Option String :=
  match entityType, axis with
  | .strategy, .research => (s.strategies.get id).map (·.researchState)
  | .strategy, .deployment => (s.strategies.get id).map (·.deploymentState)
  | .experiment, .research => (s.experiments.get id).map (·.researchState)
  | .experiment, .deployment => none

def rows (s : State) (entityType : EntityType) (id : String) (axis : Axis) : List TransitionRow :=
  s.transitions.filter fun r => r.entityType = entityType ∧ r.entityId = id ∧ r.axis = axis

/-- Keep the state an entity is registered with. -/
def register (d : Dict (EntityType × String × Axis) String) (k : EntityType × String × Axis) (state : String) :
    Dict (EntityType × String × Axis) String :=
  if d.contains k then d else d.set k state

/-- What a statement does; an `UPDATE` of an absent row does nothing. -/
@[grind] def execute (s : State) : Sql → State
  | .putStrategy id row => { s with
      strategies := s.strategies.set id row
      registered := register (register s.registered (.strategy, id, .research) row.researchState)
        (.strategy, id, .deployment) row.deploymentState }
  | .putExperiment id row => { s with
      experiments := s.experiments.set id row
      registered := register s.registered (.experiment, id, .research) row.researchState }
  | .setConfidence id score =>
    match s.experiments.get id with
    | none => s
    | some row => { s with experiments := s.experiments.set id { row with confidenceScore := some score } }
  | .insertTransition row => { s with transitions := s.transitions ++ [row] }
  | .setState .strategy id .research state =>
    match s.strategies.get id with
    | none => s
    | some row => { s with strategies := s.strategies.set id { row with researchState := state } }
  | .setState .strategy id .deployment state =>
    match s.strategies.get id with
    | none => s
    | some row => { s with strategies := s.strategies.set id { row with deploymentState := state } }
  | .setState .experiment id .research state =>
    match s.experiments.get id with
    | none => s
    | some row => { s with experiments := s.experiments.set id { row with researchState := state } }
  | .setState .experiment _ .deployment _ => s

/-- Python `ResearchStore.transition`: the statements it executes, unless it raises. -/
def transition (s : State) (entityType : EntityType) (id : String) (axis : Axis) (toState reason : String)
    (actor : Option String) : Option (List Sql) :=
  if toState ∉ axis.states then none
  else match stored s entityType id axis with
    | none => none
    | some fromState =>
      some [.insertTransition ⟨entityType, id, axis, fromState, toState, reason, actor⟩,
        .setState entityType id axis toState]

/-- The recorded reason; the texts of the result, in which Python prints numbers, are given. -/
def gateReason (profile : GateProfile) (result : GateResult) (reasons : List String) : String :=
  "gate[" ++ profile.name ++ "] " ++ result.verdict.name ++ " (confidence " ++ toString result.confidenceScore ++ ")" ++
    if reasons.isEmpty then "" else " — " ++ "; ".intercalate reasons

/-- The metrics that `gate_experiment` evaluates. -/
def gateMetrics (s : State) (id : String) (metrics : Option Metrics) : Metrics :=
  metrics.getD (((s.experiments.get id).map (·.metricsSummary)).getD [])

/-- Python `gate_experiment`: its result and the statements it executes, unless it raises. -/
def gateExperiment (s : State) (id : String) (profile : GateProfile) (metrics : Option Metrics) (reasons : List String)
    (actor : String) : Option (GateResult × List Sql) :=
  if !s.experiments.contains id then none
  else
    let result := evaluate (gateMetrics s id metrics) profile
    let score : Sql := .setConfidence id result.confidenceScore
    if result.researchState = "VALIDATED" ∨ result.researchState = "REJECTED" then
      (transition s .experiment id .research result.researchState (gateReason profile result reasons)
        (some actor)).map
        fun statements => (result, score :: statements)
    else some (result, [score])

/-- A call begins; one that raises executes nothing. -/
def begin (s : State) : Call → State
  | .recordStrategy id row => { s with pending := [.putStrategy id row] }
  | .recordExperiment id row => { s with pending := [.putExperiment id row] }
  | .transition entityType id axis toState reason actor =>
    { s with pending := (transition s entityType id axis toState reason actor).getD [] }
  | .gateExperiment id profile metrics reasons actor =>
    match gateExperiment s id profile metrics reasons actor with
    | none => s
    | some (result, statements) => { s with pending := statements, gating := some (id, result) }

/-- What may happen next. -/
inductive Label where
  | call (c : Call)
  | execute
  | crash

def registry : Machine State Label where
  step s
    | .call c => if s.pending = [] then some (begin { s with gated := none } c) else none
    | .execute =>
      match s.pending with
      | [] => none
      | [q] => some { execute s q with pending := [], gating := none, gated := s.gating }
      | q :: qs => some { execute s q with pending := qs }
    | .crash => some { s with pending := [], gating := none, gated := none }

end Workbench.Research
