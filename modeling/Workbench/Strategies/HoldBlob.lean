import Workbench.Strategies.DeploymentState
import Workbench.Strategies.Hold

/-!
# The hold blob

Model of `HoldRecord.to_dict` and `load_hold_record` of `app/strategies/operational_hold.py` on every JSON value that a
row can hold, floats among them.
-/

namespace Workbench.Strategies.HoldBlob
open Workbench.Lib
open Hold (HoldStatus)
open DeploymentState (member)

variable {φ : Type}

/-- Python `HoldRecord`. -/
structure HoldRecord (φ : Type) where
  status : HoldStatus
  reasonCode : Doc φ
  reason : Doc φ
  effectiveAt : Doc φ
  placedAt : Doc φ
  placedBy : Doc φ
  rev : Int
  evidenceRefs : List (Doc φ) := []
  approvalRef : Doc φ := .null
  source : Doc φ := .null
  clearedAt : Doc φ := .null
  clearedBy : Doc φ := .null
  schemaVersion : Int := 1

/-- The fields that validation requires are there. -/
structure HoldRecord.Complete (F : Floats φ) (r : HoldRecord φ) : Prop where
  reasonCode : r.reasonCode.truthy F = true
  effectiveAt : r.effectiveAt.truthy F = true
  placedAt : r.placedAt.truthy F = true

/-- Python `HoldRecord.to_dict`. -/
def HoldRecord.toDict (r : HoldRecord φ) : List (Text × Doc φ) :=
  [(.of "schema_version", .int r.schemaVersion), (.of "_rev", .int r.rev), (.of "status", .str (.of r.status.value)),
    (.of "reason_code", r.reasonCode), (.of "reason", r.reason), (.of "effective_at", r.effectiveAt),
    (.of "placed_at", r.placedAt), (.of "placed_by", r.placedBy), (.of "evidence_refs", .arr r.evidenceRefs),
    (.of "approval_ref", r.approvalRef), (.of "source", r.source), (.of "cleared_at", r.clearedAt),
    (.of "cleared_by", r.clearedBy)]

/-- What `HoldStateInvalid` says. -/
inductive Invalid (φ : Type) where
  | notAnObject
  | schemaVersion (found : Doc φ)
  | rev
  | status (found : Doc φ)
  | missing (field : String)

/-- What `load_hold_record` raises: the exception of its module, or a `TypeError`. -/
inductive Raised (φ : Type) where
  | invalid (why : Invalid φ)
  | typeError

/-- The members of `HoldStatus`. -/
def statuses : List HoldStatus := [.active, .cleared]

def required : List String := ["reason_code", "effective_at", "placed_at"]

/-- `raw.get(k, default)` -/
def getD (fields : List (Text × Doc φ)) (k : String) (default : Doc φ) : Doc φ := (Doc.get? fields k).getD default

def HoldRecord.ofFields (fields : List (Text × Doc φ)) (rev : Int) (status : HoldStatus)
    (evidenceRefs : List (Doc φ)) : HoldRecord φ where
  status := status
  reasonCode := Doc.get fields "reason_code"
  reason := getD fields "reason" (.str [])
  effectiveAt := Doc.get fields "effective_at"
  placedAt := Doc.get fields "placed_at"
  placedBy := getD fields "placed_by" (.str [])
  rev := rev
  evidenceRefs := evidenceRefs
  approvalRef := Doc.get fields "approval_ref"
  source := Doc.get fields "source"
  clearedAt := Doc.get fields "cleared_at"
  clearedBy := Doc.get fields "cleared_by"

/-- Python `load_hold_record`, on an object. -/
def recordOf (F : Floats φ) (fields : List (Text × Doc φ)) : Except (Raised φ) (HoldRecord φ) := do
  raiseIf ((Doc.get fields "schema_version").equalsInt F 1 = false)
    (.invalid (.schemaVersion (Doc.get fields "schema_version")))
  let rev ← orRaise (Doc.get fields "_rev").asInt (.invalid .rev)
  let status ← orRaise ((Doc.get? fields "status").bind (member HoldStatus.value statuses))
    (.invalid (.status (Doc.get fields "status")))
  match required.find? fun req => !(Doc.get fields req).truthy F with
  | some req => .error (.invalid (.missing req))
  | none => do
    let evidenceRefs ← orRaise (getD fields "evidence_refs" (.arr [])).toItems .typeError
    return .ofFields fields rev status evidenceRefs

/-- Python `load_hold_record`; `None` is null. -/
def loadHoldRecord (F : Floats φ) : Doc φ → Except (Raised φ) (Option (HoldRecord φ))
  | .null => .ok none
  | .obj fields => (recordOf F fields).map some
  | .bool _ | .int _ | .float _ | .str _ | .arr _ => .error (.invalid .notAnObject)

end Workbench.Strategies.HoldBlob
