import Workbench.Lib.DocValue
import Workbench.Seed.Reconciliation

/-!
# The deployment blob

Model of `app/strategies/deployment_state.py`: the lifecycle blob of a strategy, the JSON object that it is written as,
and the validation of an object that was read. Fields whose type the loader does not check are JSON values.
-/

set_option linter.dupNamespace false

namespace Workbench.Strategies.DeploymentState
open Workbench.Lib
open Workbench.Seed (DeploymentState SeedAttemptStatus)

variable {φ : Type}

/-! ## The values -/

/-- `str(state)` -/
def stateText : DeploymentState → String
  | .neverDeployed => "NEVER_DEPLOYED"
  | .deploymentPending => "DEPLOYMENT_PENDING"
  | .deployed => "DEPLOYED"
  | .intentionallyFlat => "INTENTIONALLY_FLAT"

/-- The members of `DeploymentState`. -/
def states : List DeploymentState := [.neverDeployed, .deploymentPending, .deployed, .intentionallyFlat]

/-- `str(status)` -/
def statusText : SeedAttemptStatus → String
  | .prepared => "PREPARED"
  | .submitting => "SUBMITTING"
  | .ordersOpen => "ORDERS_OPEN"
  | .partiallyFilled => "PARTIALLY_FILLED"
  | .filled => "FILLED"
  | .terminallyUnfilled => "TERMINALLY_UNFILLED"
  | .reconciliationRequired => "RECONCILIATION_REQUIRED"

/-- The members of `SeedAttemptStatus`. -/
def statuses : List SeedAttemptStatus :=
  [.prepared, .submitting, .ordersOpen, .partiallyFilled, .filled, .terminallyUnfilled, .reconciliationRequired]

/-- The member of an enumeration with a value: `Enum(v)`; `none` is a `ValueError`, also for a list or an object. -/
def member {ε : Type} (text : ε → String) (members : List ε) : Doc φ → Option ε
  | .str s => members.find? fun e => Text.of (text e) = s
  | .null | .bool _ | .int _ | .float _ | .arr _ | .obj _ => none

/-- Python `SeedAttempt`. -/
structure SeedAttempt (φ : Type) where
  attemptId : Doc φ
  createdAt : DateTime
  intendedSymbols : List (Doc φ)
  clientOrderIdPrefix : Doc φ
  submittedOrderIds : List (Doc φ) := []
  status : SeedAttemptStatus := .prepared
  lastReconciledFillAt : Option DateTime := none
  lastReconciledFillId : Doc φ := .null

/-- Python `DeploymentBlob`. -/
structure DeploymentBlob (φ : Type) where
  rev : Int
  state : DeploymentState
  hasEverDeployed : Bool
  firstDeployedAt : Option DateTime := none
  activeSeedAttempt : Option (SeedAttempt φ) := none
  lastSeedAttempt : Doc φ := .null
  schemaVersion : Int := 1

/-- The consistency rules. -/
structure DeploymentBlob.Consistent (b : DeploymentBlob φ) : Prop where
  deployed : b.state = .deployed → b.hasEverDeployed = true
  first : b.hasEverDeployed = true → b.firstDeployedAt.isSome
  pending : b.state = .deploymentPending → b.activeSeedAttempt.isSome
  never : b.state = .neverDeployed → ∀ a ∈ b.activeSeedAttempt, a.status.terminal = true

/-! ## Writing -/

/-- Python `_iso`. -/
def iso (t : Option DateTime) : Doc φ := (t.map Doc.ofDatetime).getD .null

/-- Python `seed_attempt_to_dict`. -/
def SeedAttempt.toDict (a : SeedAttempt φ) : List (Text × Doc φ) :=
  [(.of "attempt_id", a.attemptId), (.of "created_at", .ofDatetime a.createdAt),
    (.of "intended_symbols", .arr a.intendedSymbols), (.of "client_order_id_prefix", a.clientOrderIdPrefix),
    (.of "submitted_order_ids", .arr a.submittedOrderIds), (.of "status", .str (.of (statusText a.status))),
    (.of "last_reconciled_fill_at", iso a.lastReconciledFillAt),
    (.of "last_reconciled_fill_id", a.lastReconciledFillId)]

/-- Python `DeploymentBlob.to_dict`. -/
def DeploymentBlob.toDict (b : DeploymentBlob φ) : List (Text × Doc φ) :=
  [(.of "schema_version", .int b.schemaVersion), (.of "_rev", .int b.rev),
    (.of "state", .str (.of (stateText b.state))), (.of "has_ever_deployed", .bool b.hasEverDeployed),
    (.of "first_deployed_at", iso b.firstDeployedAt),
    (.of "active_seed_attempt", (b.activeSeedAttempt.map fun a => .obj a.toDict).getD .null),
    (.of "last_seed_attempt", b.lastSeedAttempt)]

/-! ## Reading -/

/-- What `DeploymentStateInvalid` says. -/
inductive Invalid (φ : Type) where
  | notAnObject
  | schemaVersion (found : Doc φ)
  | rev
  | state (found : Doc φ)
  | datetime (field : String) (found : Doc φ)
  | missingDatetime (field : String)
  | attemptKey (missing : String)
  | attemptStatus (found : Doc φ)
  | deployedButNever
  | everWithoutFirst
  | pendingWithoutAttempt
  | neverWithOpenAttempt

/-- What `load_deployment_blob` raises: the exceptions of its module, or a `TypeError`. -/
inductive Raised (φ : Type) where
  | uninitialized
  | invalid (why : Invalid φ)
  | typeError

abbrev Load (φ α : Type) := Except (Raised φ) α

/-- Python `_parse_dt`. -/
def parseDt (v : Doc φ) (field : String) : Load φ (Option DateTime) :=
  match v with
  | .null => .ok none
  | v => (orRaise v.datetime (.invalid (.datetime field v))).map some

/-- Python `_require_dt`. -/
def requireDt (v : Doc φ) (field : String) : Load φ DateTime := do
  orRaise (← parseDt v field) (.invalid (.missingDatetime field))

/-- `d[k]`, in `seed_attempt_from_dict`. -/
def attemptKey (fields : List (Text × Doc φ)) (k : String) : Load φ (Doc φ) :=
  orRaise (Doc.get? fields k) (.invalid (.attemptKey k))

/-- `tuple(d.get(k, ()))` -/
def attemptItems (fields : List (Text × Doc φ)) (k : String) : Load φ (List (Doc φ)) :=
  orRaise ((Doc.get? fields k).getD (.arr [])).toItems .typeError

/-- Python `seed_attempt_from_dict`, on an object. -/
def attemptOf (fields : List (Text × Doc φ)) : Load φ (SeedAttempt φ) := do
  let attemptId ← attemptKey fields "attempt_id"
  let created ← attemptKey fields "created_at"
  let createdAt ← requireDt created "attempt.created_at"
  let intendedSymbols ← attemptItems fields "intended_symbols"
  let clientOrderIdPrefix ← attemptKey fields "client_order_id_prefix"
  let submittedOrderIds ← attemptItems fields "submitted_order_ids"
  let found ← attemptKey fields "status"
  let status ← orRaise (member statusText statuses found) (.invalid (.attemptStatus found))
  let lastReconciledFillAt ←
    parseDt (Doc.get fields "last_reconciled_fill_at") "attempt.last_reconciled_fill_at"
  return {
    attemptId, createdAt, intendedSymbols, clientOrderIdPrefix, submittedOrderIds, status, lastReconciledFillAt
    lastReconciledFillId := Doc.get fields "last_reconciled_fill_id" }

/-- Python `seed_attempt_from_dict`: what is no object has no `d["attempt_id"]`. -/
def seedAttemptFromDict : Doc φ → Load φ (SeedAttempt φ)
  | .obj fields => attemptOf fields
  | .null | .bool _ | .int _ | .float _ | .str _ | .arr _ => .error .typeError

def activeOf (fields : List (Text × Doc φ)) : Load φ (Option (SeedAttempt φ)) :=
  match Doc.get fields "active_seed_attempt" with
  | .null => .ok none
  | v => (seedAttemptFromDict v).map some

/-- Python `load_deployment_blob`, on an object. -/
def blobOf (F : Floats φ) (fields : List (Text × Doc φ)) : Load φ (DeploymentBlob φ) := do
  raiseIf ((Doc.get fields "schema_version").equalsInt F 1 = false)
    (.invalid (.schemaVersion (Doc.get fields "schema_version")))
  let rev ← orRaise (Doc.get fields "_rev").asInt (.invalid .rev)
  let state ← orRaise ((Doc.get? fields "state").bind (member stateText states))
    (.invalid (.state (Doc.get fields "state")))
  let hasEver := (Doc.get fields "has_ever_deployed").truthy F
  let firstDep ← parseDt (Doc.get fields "first_deployed_at") "first_deployed_at"
  let active ← activeOf fields
  raiseIf (state = .deployed ∧ hasEver = false) (.invalid .deployedButNever)
  raiseIf (hasEver = true ∧ firstDep = none) (.invalid .everWithoutFirst)
  raiseIf (state = .deploymentPending ∧ active.isNone) (.invalid .pendingWithoutAttempt)
  raiseIf (state = .neverDeployed ∧ active.any (!·.status.terminal)) (.invalid .neverWithOpenAttempt)
  return {
    rev, state
    hasEverDeployed := hasEver
    firstDeployedAt := firstDep
    activeSeedAttempt := active
    lastSeedAttempt := Doc.get fields "last_seed_attempt" }

/-- Python `load_deployment_blob`; `None` is null. -/
def loadDeploymentBlob (F : Floats φ) : Doc φ → Load φ (DeploymentBlob φ)
  | .null => .error .uninitialized
  | .obj fields => blobOf F fields
  | .bool _ | .int _ | .float _ | .str _ | .arr _ => .error (.invalid .notAnObject)

end Workbench.Strategies.DeploymentState
