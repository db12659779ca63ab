import Workbench.Lib.Json
import Workbench.Db.Enums

/-!
# Operational holds

Model of `app/strategies/operational_hold.py` and of the mutators of `app/strategies/hold_service.py`. A hold
is the JSON value of one `strategy_state` row. Each mutator reads the value and either replies or plans one
write: a new value under a compare-and-set, with the audit row that is committed in the same transaction.

The fields of a `HoldRecord` are kept as the JSON values they were read as; validation only asks that some of
them are there.
-/

set_option linter.dupNamespace false

namespace Workbench.Strategies.Hold
open Workbench.Lib

abbrev Fields := List (String × Json)

/-- Python `HoldStatus`. -/
inductive HoldStatus where
  | active
  | cleared
  deriving DecidableEq, Repr

/-- `str(status)`. -/
def HoldStatus.value : HoldStatus → String
  | .active => "ACTIVE"
  | .cleared => "CLEARED"

/-- `HoldStatus(v)`. -/
def HoldStatus.parse : Json → Option HoldStatus
  | .str "ACTIVE" => some .active
  | .str "CLEARED" => some .cleared
  | _ => none

/-- Python `HoldRecord`. -/
structure HoldRecord where
  status : HoldStatus
  reasonCode : Json
  reason : Json
  effectiveAt : Json
  placedAt : Json
  placedBy : Json
  rev : Int
  evidenceRefs : List Json := []
  approvalRef : Json := .null
  source : Json := .null
  clearedAt : Json := .null
  clearedBy : Json := .null

/-- Python `to_dict`. -/
def HoldRecord.toDict (r : HoldRecord) : Fields :=
  [("schema_version", .int 1), ("_rev", .int r.rev), ("status", .str r.status.value),
    ("reason_code", r.reasonCode), ("reason", r.reason), ("effective_at", r.effectiveAt),
    ("placed_at", r.placedAt), ("placed_by", r.placedBy), ("evidence_refs", .arr r.evidenceRefs),
    ("approval_ref", r.approvalRef), ("source", r.source), ("cleared_at", r.clearedAt),
    ("cleared_by", r.clearedBy)]

/-- Why a hold row cannot be read. -/
inductive Invalid where
  | notAnObject
  | schemaVersion (found : Json)
  | rev
  | status (found : Json)
  | missing (field : String)
  | typeError

/-- Whether `schema_version == 1`. -/
def schemaOk (f : Fields) : Bool := (Json.field f "schema_version").asInt = some 1

def HoldRecord.ofFields (f : Fields) (rev : Int) (status : HoldStatus) (evidenceRefs : List Json) : HoldRecord where
  status := status
  reasonCode := Json.field f "reason_code"
  reason := Json.fieldD f "reason" (.str "")
  effectiveAt := Json.field f "effective_at"
  placedAt := Json.field f "placed_at"
  placedBy := Json.fieldD f "placed_by" (.str "")
  rev := rev
  evidenceRefs := evidenceRefs
  approvalRef := Json.field f "approval_ref"
  source := Json.field f "source"
  clearedAt := Json.field f "cleared_at"
  clearedBy := Json.field f "cleared_by"

/-- Python `load_hold_record`, on an object. -/
def loadFields (f : Fields) : Except Invalid HoldRecord :=
  if !schemaOk f then .error (.schemaVersion (Json.field f "schema_version"))
  else match (Json.field f "_rev").asInt with
    | none => .error .rev
    | some rev => match HoldStatus.parse (Json.field f "status") with
      | none => .error (.status (Json.field f "status"))
      | some status =>
        match ["reason_code", "effective_at", "placed_at"].find? fun req => !(Json.field f req).truthy with
        | some req => .error (.missing req)
        | none => match (Json.fieldD f "evidence_refs" (.arr [])).toList with
          | none => .error .typeError
          | some evidenceRefs => .ok (.ofFields f rev status evidenceRefs)

/-- Python `load_hold_record`; an absent row and a JSON null are the same. -/
def loadHoldRecord : Option Json → Except Invalid (Option HoldRecord)
  | none | some .null => .ok none
  | some (.obj f) => (loadFields f).map some
  | some _ => .error .notAnObject

/-- Python `RETRO_SOURCE`. -/
def retroSource : String := "RETROSPECTIVE_FORMALIZATION"

/-! ## The calls -/

/-- The arguments of `place`. -/
structure Place where
  reasonCode : String
  reason : String
  effectiveAt : String
  placedAt : String
  placedBy : String
  evidenceRefs : List Json := []
  approvalRef : Option String := none
  source : Option String := none

/-- The arguments of `clear`. -/
structure Clear where
  expectedRev : Int
  clearedAt : String
  clearedBy : String

/-- The arguments of `update_reason`. -/
structure UpdateReason where
  expectedRev : Int
  expectedReasonCode : String
  newReasonCode : String
  newReason : String
  updatedAt : String
  updatedBy : String
  evidenceRefs : Option (List Json) := none
  source : String := "GOVERNING_ADJUDICATION_UPDATE"
  apply : Bool := true

/-- The arguments of `adopt_legacy_operational_hold`, with the time it reads. -/
structure Adopt where
  expectedReasonCode : String
  expectedPausedAt : String
  expectedLegacyStatus : String := "PAUSED"
  placedBy : String
  evidenceRefs : List Json := []
  approvalRef : Option String := none
  now : String
  apply : Bool := true

/-- A call of a mutator. -/
inductive Call where
  | place (args : Place)
  | clear (args : Clear)
  | updateReason (args : UpdateReason)
  | adopt (args : Adopt)

/-- What a call refuses with. -/
inductive Refusal where
  | invalid (why : Invalid)
  | unavailable
  | holdConflict
  | reasonUpdateRefused
  | adoptionRefused
  | crashed

/-- What a call returns. -/
inductive Reply where
  | noop
  | changed
  | wouldUpdate
  | updated
  | alreadyUpdated
  | wouldAdopt
  | adopted
  | alreadyAdopted
  | alreadyAdoptedAndCleared
  | refused (why : Refusal)

def Reply.applied : Reply → Bool
  | .changed | .updated | .adopted => true
  | _ => false

/-- The condition of a write. -/
inductive Expect where
  | absent
  | rev (r : Int)
  | value (raw : Json)

def Expect.met : Expect → Option Json → Bool
  | .absent, v => v.isNone
  | .rev r, some (.obj f) => (Json.field f "_rev").asInt = some r
  | .rev _, _ => false
  | .value raw, v => v = some raw

/-- The actions of the audit rows. -/
inductive AuditAction where
  | strategyHoldPlaced
  | strategyHoldCleared
  | strategyHoldReasonUpdated
  deriving DecidableEq, Repr

/-- An audit row of the strategy. -/
structure AuditRow where
  action : AuditAction
  payload : Fields

/-- A write that a call has planned. -/
structure Write where
  expect : Expect
  blob : Fields
  audit : AuditRow
  reply : Reply
  lost : Refusal

/-- A call after its read: it replies, or writes. -/
inductive Plan where
  | reply (r : Reply)
  | write (w : Write)

/-! ## The mutators -/

/-- Read the hold first; what cannot be read is refused. -/
def reading (v : Option Json) (next : Option HoldRecord → Plan) : Plan :=
  match loadHoldRecord v with
  | .error why => .reply (.refused (.invalid why))
  | .ok cur => next cur

/-- The record `place` writes. -/
def placedRecord (a : Place) (rev : Int) : HoldRecord where
  status := .active
  reasonCode := .str a.reasonCode
  reason := .str a.reason
  effectiveAt := .str a.effectiveAt
  placedAt := .str a.placedAt
  placedBy := .str a.placedBy
  rev := rev
  evidenceRefs := a.evidenceRefs
  approvalRef := .ofOption a.approvalRef
  source := .ofOption a.source

/-- The write of `place`. -/
def placeWrite (a : Place) (cur : Option HoldRecord) : Write :=
  let rev := cur.elim 1 (·.rev + 1)
  { expect := cur.elim .absent (.rev ·.rev)
    blob := (placedRecord a rev).toDict
    audit := ⟨.strategyHoldPlaced, [("reason_code", .str a.reasonCode), ("reason", .str a.reason),
      ("rev", .int rev), ("effective_at", .str a.effectiveAt), ("placed_by", .str a.placedBy),
      ("source", .ofOption a.source), ("evidence_refs", .arr a.evidenceRefs),
      ("approval_ref", .ofOption a.approvalRef)]⟩
    reply := .changed
    lost := .holdConflict }

/-- Python `place`. -/
def place (a : Place) (v : Option Json) : Plan :=
  reading v fun cur =>
    match cur with
    | some r =>
      if r.status = .active then
        if r.reasonCode = .str a.reasonCode then .reply .noop else .reply (.refused .holdConflict)
      else .write (placeWrite a cur)
    | none => .write (placeWrite a none)

/-- The record `clear` writes. -/
def clearedRecord (a : Clear) (r : HoldRecord) : HoldRecord :=
  { r with
    status := .cleared
    rev := r.rev + 1
    clearedAt := .str a.clearedAt
    clearedBy := .str a.clearedBy }

/-- The write of `clear`. -/
def clearWrite (a : Clear) (r : HoldRecord) : Write where
  expect := .rev r.rev
  blob := (clearedRecord a r).toDict
  audit := ⟨.strategyHoldCleared, [("reason_code", r.reasonCode), ("rev", .int (r.rev + 1)),
    ("prior_rev", .int r.rev), ("cleared_by", .str a.clearedBy)]⟩
  reply := .changed
  lost := .holdConflict

/-- Python `clear`. -/
def clear (a : Clear) (v : Option Json) : Plan :=
  reading v fun cur =>
    match cur with
    | none => .reply (.refused .holdConflict)
    | some r =>
      if r.status ≠ .active then .reply .noop
      else if r.rev ≠ a.expectedRev then .reply (.refused .holdConflict)
      else .write (clearWrite a r)

/-- The loop of `update_reason` that carries the other keys of the stored blob forward. -/
def carryForward (blob raw : Fields) : Fields :=
  raw.foldl (fun blob e => if (blob.lookup e.1).isSome then blob else blob ++ [e]) blob

/-- The record `update_reason` writes. -/
def relabelled (a : UpdateReason) (r : HoldRecord) : HoldRecord where
  status := .active
  reasonCode := .str a.newReasonCode
  reason := .str a.newReason
  effectiveAt := r.effectiveAt
  placedAt := r.placedAt
  placedBy := r.placedBy
  rev := r.rev + 1
  evidenceRefs := a.evidenceRefs.getD r.evidenceRefs
  approvalRef := r.approvalRef
  source := .str a.source

/-- The write of `update_reason`. -/
def updateWrite (a : UpdateReason) (raw : Fields) (r : HoldRecord) : Write where
  expect := .value (.obj raw)
  blob := Dict.setEntry "previous_reason_code" r.reasonCode (carryForward (relabelled a r).toDict raw)
  audit := ⟨.strategyHoldReasonUpdated, [("old_reason_code", r.reasonCode),
    ("new_reason_code", .str a.newReasonCode), ("reason", .str a.newReason), ("hold_remained_active", .bool true),
    ("previous_rev", .int r.rev), ("new_rev", .int (r.rev + 1)), ("effective_at", r.effectiveAt),
    ("effective_at_unchanged", .bool true), ("updated_at", .str a.updatedAt), ("updated_by", .str a.updatedBy),
    ("source", .str a.source), ("evidence_refs", .arr (relabelled a r).evidenceRefs)]⟩
  reply := .updated
  lost := .reasonUpdateRefused

/-- Python `update_reason`. -/
def updateReason (a : UpdateReason) (v : Option Json) : Plan :=
  reading v fun cur =>
    match cur, v with
    | some r, some (.obj raw) =>
      if r.reasonCode = .str a.newReasonCode ∧ r.status = .active then .reply .alreadyUpdated
      else if r.status ≠ .active ∨ r.rev ≠ a.expectedRev ∨ r.reasonCode ≠ .str a.expectedReasonCode then
        .reply (.refused .reasonUpdateRefused)
      else if a.apply then .write (updateWrite a raw r)
      else .reply .wouldUpdate
    | _, _ => .reply (.refused .reasonUpdateRefused)

/-- The record `adopt_legacy_operational_hold` writes. -/
def adoptedRecord (a : Adopt) (raw : Fields) : HoldRecord where
  status := .active
  reasonCode := .str a.expectedReasonCode
  reason := Json.fieldD raw "reason" (.str "")
  effectiveAt := .str a.expectedPausedAt
  placedAt := .str a.now
  placedBy := .str a.placedBy
  rev := 1
  evidenceRefs := a.evidenceRefs
  approvalRef := .ofOption a.approvalRef
  source := .str retroSource

def adoptWrite (a : Adopt) (raw : Fields) : Write where
  expect := .value (.obj raw)
  blob := Dict.setEntry "legacy_marker" (.obj raw) (adoptedRecord a raw).toDict
  audit := ⟨.strategyHoldPlaced, [("reason_code", .str a.expectedReasonCode),
    ("reason", (adoptedRecord a raw).reason), ("rev", .int 1), ("effective_at", .str a.expectedPausedAt),
    ("placed_by", .str a.placedBy), ("source", .str retroSource), ("retrospective", .bool true),
    ("adopted_from_legacy", .bool true), ("evidence_refs", .arr a.evidenceRefs),
    ("approval_ref", .ofOption a.approvalRef)]⟩
  reply := .adopted
  lost := .adoptionRefused

/-- `is_this_adoption`. -/
def isThisAdoption (a : Adopt) (raw : Fields) : Bool :=
  match Json.field raw "legacy_marker" with
  | .obj lm =>
    Json.field raw "source" = .str retroSource && Json.field raw "reason_code" = .str a.expectedReasonCode &&
    Json.field raw "effective_at" = .str a.expectedPausedAt &&
    Json.field lm "status" = .str a.expectedLegacyStatus &&
    Json.field lm "reason_code" = .str a.expectedReasonCode && Json.field lm "paused_at" = .str a.expectedPausedAt
  | _ => false

/-- Python `adopt_legacy_operational_hold`. -/
def adopt (a : Adopt) (v : Option Json) : Plan :=
  match v with
  | some (.obj raw) =>
    if schemaOk raw then
      if !isThisAdoption a raw then .reply (.refused .adoptionRefused)
      else match Json.field raw "status" with
        | .str "ACTIVE" => .reply .alreadyAdopted
        | .str "CLEARED" => .reply .alreadyAdoptedAndCleared
        | _ => .reply (.refused .adoptionRefused)
    else if Json.field raw "status" ≠ .str a.expectedLegacyStatus ∨
        Json.field raw "reason_code" ≠ .str a.expectedReasonCode ∨
        Json.field raw "paused_at" ≠ .str a.expectedPausedAt then .reply (.refused .adoptionRefused)
    else if a.apply then .write (adoptWrite a raw)
    else .reply .wouldAdopt
  | _ => .reply (.refused .adoptionRefused)

def Call.plan : Call → Option Json → Plan
  | .place a => Hold.place a
  | .clear a => Hold.clear a
  | .updateReason a => Hold.updateReason a
  | .adopt a => Hold.adopt a

end Workbench.Strategies.Hold
