import Workbench.Governance.RunRegistry

/-!
# The results guard

Model of `app/research/range002/governance/results_guard.py`, `holdout_token.py` and `evidence.py`. An `authorize` call
is a task that takes one step for each thing it reads or writes: the registry, a file of evidence, the token files.
Between two steps other calls run, files change and processes die. What a read of a file gives is part of the label,
so files may change at any time; the token files are also kept, since `authorize` creates them.
-/

namespace Workbench.Governance
open Lib

/-! ## What a call is given -/

abbrev Bytes := List UInt8

/-- Python `json`, `hashing.py` and `hashlib`, as far as the guard uses them. -/
structure Codec (ν : Type) extends Documents ν where
  /-- `loads_strict`; `none` is a `CanonicalisationError`. -/
  loads : Bytes → Option ν
  /-- The mapping, when the value is one. -/
  object : ν → Option (Dict String ν)
  /-- `content_sha256` of a value that is no mapping. -/
  otherSha256 : ν → Option String
  /-- The string, when the value is one. -/
  asText : ν → Option String
  /-- The value of an integer. -/
  int : Int → ν
  /-- `json.dumps` with sorted keys and compact separators, encoded. -/
  dumps : Dict String ν → Bytes
  /-- `hashlib.sha256(raw).hexdigest()`. -/
  sha256 : Bytes → String

/-- Python `content_sha256`; `none` is a `CanonicalisationError`. -/
def Codec.contentSha256Of {ν : Type} (codec : Codec ν) (value : ν) : Option String :=
  match codec.object value with
  | some body => codec.contentSha256 body
  | none => codec.otherSha256 value

/-- Python `GuardSpecView`; a value that is only tested for `None` is whether it is set. -/
structure GuardSpecView where
  specSha256 : String
  isSigned : Bool
  selection : DateRange
  confirmation : DateRange
  holdout : DateRange
  p3Criteria : Bool
  exitsCandidates : Bool
  exitsSelection : Bool
  exposed : List DateRange
  /-- The text under `exposure_ledger_sha256` of the exposure record. -/
  exposureLedgerSha256 : Option String
  registryGenesisId : Option String
  maxP3aAttempts : Option Int
  maxP3bAttempts : Option Int

/-- Python `GovernanceManifest`. -/
structure GovernanceManifest where
  approvedRegistryGenesisId : Option String
  maxP3aAttempts : Option Int
  maxP3bAttempts : Option Int
  sha256 : String

/-- Python `ExposureEntry`. -/
structure ExposureEntry where
  id : String
  window : DateRange

/-- Python `ExposureLedger`. -/
structure ExposureLedger where
  entries : List ExposureEntry
  isSigned : Bool
  sha256 : String

/-- Python `PredecessorEvidence`. -/
structure PredecessorEvidence where
  runId : String
  auditPackPath : String
  selectionRecordPath : Option String := none

/-- Python `HoldoutToken`. -/
structure HoldoutToken where
  specSha256 : String
  tokenId : String
  registryGenesisId : String
deriving DecidableEq

/-- The arguments of `authorize`; a store is named by its directory. -/
structure AuthorizeRequest where
  spec : GuardSpecView
  phase : Phase
  partition : Partition
  runId : String
  exposureLedger : ExposureLedger
  holdoutStore : Option Nat := none
  holdoutToken : Option HoldoutToken := none
  requestedRange : Option DateRange := none
  predecessorEvidence : List PredecessorEvidence := []
  independenceAuthorization : Option String := none
  budgetResetAuthorization : Option String := none

/-- What `authorize` raises. -/
inductive Refusal where
  | budgetResetNotAccepted | independenceAuthorizationNotAccepted | specNotFrozen | specNotSigned
  | manifestNotApproved | registryNotEnrolled | registryGenesisMismatch | manifestGenesisMismatch
  | partitionNotAuthorized | paperApprovalNotImplemented | specIncomplete | phaseOrder
  | predecessorHoldoutNotAuthorized | predecessorEvidenceMissing | predecessorEvidenceMismatch
  | predecessorEvidenceBinding | rangeOverlapsPartition | paperRangeNotAfterR2 | replayRangeOutsideR2
  | exposureOverlap | exposureLedgerNotSigned | exposureBinding | runNotRegistered | capabilityAlreadyIssued
  | attemptLimitNotSet | manifestLimitMismatch | attemptLimitOutOfRange | attemptLimitExceeded
  | holdoutAlreadyOpened | holdoutToken | holdoutTokenInvalid
  | registry (error : Error)
deriving DecidableEq, Repr

/-! ## The checks -/

/-- Python `R2_EXCLUDED_WINDOW`. -/
def r2ExcludedWindow : DateRange := ⟨⟨2026, 1, 1, by decide⟩, ⟨2026, 7, 31, by decide⟩, by decide⟩

variable {ν : Type}

/-- `registry.genesis_id`. -/
def genesisId (records : List (ChainRecord ν)) : Option String :=
  match records with
  | ⟨_, .registryGenesis id⟩ :: _ => some id
  | _ => none

/-- The checks of `authorize` up to the registry's runs. -/
def checkRequest (manifest : GovernanceManifest) (records : List (ChainRecord ν)) (req : AuthorizeRequest) :
    Except Refusal Unit := do
  raiseIf req.budgetResetAuthorization.isSome .budgetResetNotAccepted
  raiseIf req.independenceAuthorization.isSome .independenceAuthorizationNotAccepted
  raiseIf (¬ hex64 req.spec.specSha256) .specNotFrozen
  raiseIf (req.spec.isSigned = false) .specNotSigned
  let approved ← orRaise manifest.approvedRegistryGenesisId .manifestNotApproved
  let genesis ← orRaise (genesisId records) .registryNotEnrolled
  raiseIf (req.spec.registryGenesisId ≠ some genesis) .registryGenesisMismatch
  raiseIf (genesis ≠ approved) .manifestGenesisMismatch
  raiseIf (req.partition ∉ phasePartitions req.phase) .partitionNotAuthorized
  raiseIf (req.phase = .p5) .paperApprovalNotImplemented
  raiseIf (req.partition ∈ [.developmentSelection, .developmentConfirmation, .holdout] ∧
    ¬ (req.spec.p3Criteria ∧ req.spec.exitsCandidates ∧ req.spec.exitsSelection)) .specIncomplete

/-- A predecessor that a phase requires: its phase, whether it needs a selection record, and whether it needs a
    `holdout_authorized` row. -/
structure Required where
  phase : Phase
  needsSelection : Bool
  needsHoldoutAuth : Bool
deriving DecidableEq

/-- Python `_REQUIRED_PREDECESSORS`. -/
def requiredPredecessors : Phase → List Required
  | .p3b => [⟨.p3a, true, false⟩]
  | .p4 => [⟨.p3a, true, false⟩, ⟨.p3b, false, false⟩]
  | .p5 => [⟨.p4, false, true⟩]
  | .p2 | .p3a => []

def isPredecessor (specSha256 : String) (need : Required) (r : RunState) : Bool :=
  r.specSha256 = specSha256 && r.phase = need.phase && r.status = .completed && r.capabilityIssuedSeq.isSome &&
    (!need.needsSelection || r.selectionRecordSeq.isSome)

/-- The evidence that is supplied for a run; a later item replaces an earlier one. -/
def evidenceFor (evidence : List PredecessorEvidence) (runId : String) : Option PredecessorEvidence :=
  evidence.reverse.find? (·.runId = runId)

/-- The run and the evidence that `_check_phase_order` takes for a predecessor. -/
def pickPredecessor (req : AuthorizeRequest) (runs : List RunState) (need : Required) :
    Except Refusal (RunState × PredecessorEvidence) := do
  let done := runs.filter (isPredecessor req.spec.specSha256 need)
  raiseIf (done = []) .phaseOrder
  let authorized := if need.needsHoldoutAuth then done.filter (·.holdoutAuthorizedSeq.isSome) else done
  raiseIf (authorized = []) .predecessorHoldoutNotAuthorized
  orRaise (authorized.findSome? fun r => (evidenceFor req.predecessorEvidence r.runId).map (r, ·))
    .predecessorEvidenceMissing

variable (codec : Codec ν) [DecidableEq ν]

def auditPackHeader (runId specSha256 : String) : Dict String ν :=
  (((Dict.empty.set "format" (codec.text "range002-audit-pack")).set "run_id" (codec.text runId)).set
    "spec_sha256" (codec.text specSha256)).set "version" (codec.int 1)

/-- Python `parse_audit_pack_header`. -/
def parseAuditPackHeader (raw : Bytes) : Option (String × String) := do
  let line := raw.takeWhile (· ≠ 10)
  if line.length = raw.length then none
  let header ← (codec.loads line).bind codec.object
  if ¬ (header.entries.map (·.1)).Perm ["format", "run_id", "spec_sha256", "version"] then none
  let runId ← (header.get "run_id").bind codec.asText
  let specSha256 ← (header.get "spec_sha256").bind codec.asText
  if header.get "format" ≠ some (codec.text "range002-audit-pack") then none
  if header.get "version" ≠ some (codec.int 1) then none
  if runId = "" ∨ ¬ hex64 specSha256 then none
  if codec.dumps (auditPackHeader codec runId specSha256) ≠ line then none
  return (runId, specSha256)

/-- The audit pack of a predecessor is the one its row records, and was written for it. -/
def checkPack (run : RunState) (raw : Option Bytes) : Except Refusal Bytes := do
  let pack ← orRaise raw .predecessorEvidenceMissing
  raiseIf (run.auditPackSha256 ≠ some (codec.sha256 pack)) .predecessorEvidenceMismatch
  raiseIf (parseAuditPackHeader codec pack ≠ some (run.runId, run.specSha256)) .predecessorEvidenceBinding
  return pack

/-- The selection record of a predecessor is the one its row records, and was written for it. -/
def checkSelection (run : RunState) (raw : Option Bytes) : Except Refusal (Dict String ν) := do
  let raw ← orRaise raw .predecessorEvidenceMissing
  let parsed ← orRaise (codec.loads raw) .predecessorEvidenceMissing
  let sha ← orRaise (codec.contentSha256Of parsed) .predecessorEvidenceMissing
  raiseIf (run.selectionRecordSha256 ≠ some sha) .predecessorEvidenceMismatch
  let body ← orRaise (codec.object parsed) .predecessorEvidenceBinding
  raiseIf (body.get "run_id" ≠ some (codec.text run.runId) ∨
    body.get "spec_sha256" ≠ some (codec.text run.specSha256)) .predecessorEvidenceBinding
  return body

/-- Python `_partition_range`. -/
def partitionRange (spec : GuardSpecView) : Partition → Option DateRange
  | .developmentSelection => some spec.selection
  | .developmentConfirmation => some spec.confirmation
  | .holdout => some spec.holdout
  | .paper | .replayRng001 => none

/-- Python `_check_free_range`. -/
def checkFreeRange (spec : GuardSpecView) (partition : Partition) (rng : DateRange) : Except Refusal Unit := do
  raiseIf ([spec.selection, spec.confirmation, spec.holdout].any rng.overlaps) .rangeOverlapsPartition
  raiseIf (partition = .paper ∧ rng.start ≤ r2ExcludedWindow.ends) .paperRangeNotAfterR2
  raiseIf (partition = .replayRng001 ∧ ¬ r2ExcludedWindow.contains rng) .replayRangeOutsideR2

def dateRange (req : AuthorizeRequest) : Except Refusal DateRange :=
  match partitionRange req.spec req.partition with
  | some range => do
    raiseIf (req.requestedRange.any fun r => !range.contains r) .partitionNotAuthorized
    return req.requestedRange.getD range
  | none => do
    let requested ← orRaise req.requestedRange .partitionNotAuthorized
    checkFreeRange req.spec req.partition requested
    return requested

def citable (req : AuthorizeRequest) : Bool := req.partition ≠ .replayRng001

def checkExposure (req : AuthorizeRequest) (range : DateRange) : Except Refusal Unit :=
  if citable req then do
    raiseIf (range.overlaps r2ExcludedWindow) .exposureOverlap
    raiseIf (req.spec.exposed.any range.overlaps) .exposureOverlap
    raiseIf (req.exposureLedger.isSigned = false) .exposureLedgerNotSigned
    let recorded ← orRaise (req.spec.exposureLedgerSha256.filter hex64) .exposureBinding
    raiseIf (recorded ≠ req.exposureLedger.sha256) .exposureBinding
    raiseIf (req.exposureLedger.entries.any fun e => e.window.overlaps range) .exposureOverlap
  else .ok ()

/-- Python `find_open_run`. -/
def findOpenRun (states : List RunState) (req : AuthorizeRequest) : Except Refusal RunState := do
  let run ← orRaise (states.find? (·.runId = req.runId)) .runNotRegistered
  raiseIf (run.status ≠ .open) .runNotRegistered
  raiseIf ((run.specSha256, run.phase, run.partition) ≠ (req.spec.specSha256, req.phase, req.partition))
    .runNotRegistered
  return run

def checkThisRun (states : List RunState) (req : AuthorizeRequest) : Except Refusal Unit := do
  let run := states.find? (·.runId = req.runId)
  raiseIf (req.partition ≠ .holdout ∧ run.any (·.capabilityIssuedSeq.isSome)) .capabilityAlreadyIssued
  raiseIf (req.phase ∈ attemptPhases ∧
    ¬ run.any fun r => r.protectedRange = partitionRange req.spec req.partition) .runNotRegistered

/-- Python `_check_attempt_limit`. -/
def checkAttemptLimit (manifest : GovernanceManifest) (states : List RunState) (req : AuthorizeRequest) :
    Except Refusal (Option Int) :=
  if req.phase ∈ attemptPhases then do
    let specLimit := if req.phase = .p3a then req.spec.maxP3aAttempts else req.spec.maxP3bAttempts
    raiseIf (specLimit.all (· < 1)) .attemptLimitNotSet
    raiseIf (manifest.maxP3aAttempts.isNone ∨ manifest.maxP3bAttempts.isNone) .manifestNotApproved
    raiseIf (req.spec.maxP3aAttempts ≠ manifest.maxP3aAttempts ∨ req.spec.maxP3bAttempts ≠ manifest.maxP3bAttempts)
      .manifestLimitMismatch
    let limit ← orRaise (if req.phase = .p3a then manifest.maxP3aAttempts else manifest.maxP3bAttempts)
      .attemptLimitNotSet
    raiseIf (maxAttemptLimit < limit) .attemptLimitOutOfRange
    let run ← orRaise (states.find? (·.runId = req.runId)) .runNotRegistered
    raiseIf (limit ≤ (attemptsConsumed states run).length) .attemptLimitExceeded
    return some limit
  else return none

/-- Python `_check_holdout_unopened`. -/
def checkHoldoutUnopened (states : List RunState) (req : AuthorizeRequest) : Except Refusal Unit := do
  let run ← orRaise (states.find? (·.runId = req.runId)) .runNotRegistered
  raiseIf (run.holdoutRange ≠ some req.spec.holdout) .runNotRegistered
  raiseIf run.holdoutAuthorizedSeq.isSome .holdoutAlreadyOpened
  raiseIf (holdoutConflict states run).isSome .holdoutAlreadyOpened

/-! ## The token files -/

/-- The files of a spec in a store. -/
inductive TokenKind where
  | token | intent | verified
deriving DecidableEq, Repr

/-- A file of the store, as it reads. -/
structure TokenFile where
  specSha256 : String
  tokenId : String
  registryGenesisId : String
  runId : Option String := none
deriving DecidableEq

/-- A directory: the files of each spec, and what is in them; half a file reads as `none`. -/
abbrev TokenFiles := String → TokenKind → Option (Option TokenFile)

/-- What `validate_unused` sees of a directory, one file after the other. -/
structure StoreView where
  verified : Bool
  intent : Bool
  token : Bool
  stored : Option TokenFile

/-- Python `validate_unused`. -/
def validateUnused (token : Option HoldoutToken) (specSha256 genesis : String) (view : StoreView) :
    Except Refusal HoldoutToken := do
  let token ← orRaise token .holdoutTokenInvalid
  raiseIf (token.specSha256 ≠ specSha256) .holdoutTokenInvalid
  raiseIf (token.registryGenesisId ≠ genesis) .registryGenesisMismatch
  raiseIf (view.verified ∨ view.intent) .holdoutAlreadyOpened
  raiseIf (view.token = false) .holdoutTokenInvalid
  let stored ← orRaise view.stored .holdoutTokenInvalid
  raiseIf (stored.registryGenesisId ≠ genesis) .registryGenesisMismatch
  raiseIf (stored.tokenId ≠ token.tokenId ∨ stored.specSha256 ≠ specSha256) .holdoutTokenInvalid
  return token

def HoldoutToken.file (token : HoldoutToken) (runId : String) : TokenFile where
  specSha256 := token.specSha256
  tokenId := token.tokenId
  registryGenesisId := token.registryGenesisId
  runId := some runId

/-! ## Calls under way -/

/-- A predecessor whose artefacts were read and checked. -/
structure Artefact (ν : Type) where
  run : RunState
  pack : Bytes
  selection : Option (Dict String ν)

def Artefact.digests (a : Artefact ν) : Evidence :=
  ⟨a.run.runId, codec.sha256 a.pack, a.selection.bind codec.contentSha256⟩

/-- A call whose artefacts and dates are checked; `limit` is what `_check_attempt_limit` returned. -/
structure Checked (ν : Type) where
  req : AuthorizeRequest
  artefacts : List (Artefact ν)
  range : DateRange
  limit : Option Int := none
  token : Option HoldoutToken := none

/-- What a checked call does next. -/
inductive Stage where
  | findOpenRun | thisRun | attemptLimit | holdoutUnopened | validate | mark | beginConsume | commitConsume | issue
deriving DecidableEq, Repr

/-- Python `ResultsCapability`. -/
structure ResultsCapability where
  specSha256 : String
  phase : Phase
  partition : Partition
  runId : String
  dateRange : DateRange
  citable : Bool
  exposureLedgerSha256 : Option String
  evidenceDigests : List Evidence

/-- A call of `authorize`: what it has read, and what it does next. `refused` keeps whether the call had marked
    the holdout. -/
inductive Task (ν : Type) where
  | idle
  | ordering (req : AuthorizeRequest)
  | reading (req : AuthorizeRequest) (runs : List RunState) (todo : List Required) (done : List (Artefact ν))
  | selecting (req : AuthorizeRequest) (runs : List RunState) (todo : List Required) (done : List (Artefact ν))
      (run : RunState) (pack : Bytes)
  | checked (c : Checked ν) (stage : Stage)
  | issued (c : Checked ν)
  | returned (c : Checked ν)
  | refused (marked : Bool)
  | dead

def Checked.capability (c : Checked ν) : ResultsCapability where
  specSha256 := c.req.spec.specSha256
  phase := c.req.phase
  partition := c.req.partition
  runId := c.req.runId
  dateRange := c.range
  citable := citable c.req
  exposureLedgerSha256 := if citable c.req then some c.req.exposureLedger.sha256 else none
  evidenceDigests := c.artefacts.map (Artefact.digests codec)

/-- Python `require_capability`, of a capability that `authorize` made. -/
def requireCapability (states : List RunState) (capability : ResultsCapability) : Bool :=
  (states.find? (·.runId = capability.runId)).any fun run =>
    run.status = .open && run.specSha256 = capability.specSha256 && run.phase = capability.phase &&
      run.partition = capability.partition

/-- The registry, the stores, and the calls; `created` lists the token files that calls created. -/
structure GuardState (ν : Type) where
  registry : State ν
  stores : Nat → TokenFiles := fun _ _ _ => none
  created : List (Nat × Nat × TokenKind) := []
  tasks : Nat → Task ν := fun _ => .idle

/-- The steps: of the registry, of a call, and of the world. -/
inductive GuardLabel (ν : Type) where
  | registry (l : Label ν)
  | authorize (k : Nat) (req : AuthorizeRequest)
  | order (k : Nat)
  | readPack (k : Nat) (raw : Option Bytes)
  | readSelection (k : Nat) (raw : Option Bytes)
  | proceed (k : Nat)
  | validate (k : Nat) (view : StoreView)
  | beginConsume (k : Nat) (view : StoreView) (whole : Bool)
  | commitConsume (k : Nat) (intent : Option TokenFile) (whole : Bool)
  | giveBack (k : Nat)
  | crash (k : Nat)
  | setStore (d : Nat) (files : TokenFiles)

def GuardState.move (s : GuardState ν) (k : Nat) (marked : Bool) (next : Except Refusal (Task ν)) : GuardState ν :=
  { s with tasks := Function.update s.tasks k (match next with | .ok task => task | .error _ => .refused marked) }

def readRuns (records : List (ChainRecord ν)) (f : List RunState → Except Refusal (Task ν)) :
    Except Refusal (Task ν) :=
  match fold records with
  | .ok states => f states
  | .error e => .error (.registry e)

/-- What follows when the artefacts are checked: the dates, and the exposure. -/
def resolve (req : AuthorizeRequest) (artefacts : List (Artefact ν)) : Except Refusal (Task ν) := do
  let range ← dateRange req
  checkExposure req range
  return .checked { req, artefacts, range } .findOpenRun

def nextPredecessor (req : AuthorizeRequest) (runs : List RunState) (todo : List Required)
    (done : List (Artefact ν)) : Except Refusal (Task ν) :=
  match todo with
  | [] => resolve req done
  | _ :: _ => .ok (.reading req runs todo done)

/-- A step of a checked call that reads the runs. -/
def Checked.look (manifest : GovernanceManifest) (states : List RunState) (c : Checked ν) :
    Stage → Except Refusal (Task ν)
  | .findOpenRun => do
    let _ ← findOpenRun states c.req
    return .checked c .thisRun
  | .thisRun => do
    checkThisRun states c.req
    return .checked c .attemptLimit
  | .attemptLimit => do
    let limit ← checkAttemptLimit manifest states c.req
    return .checked { c with limit } (if c.req.partition = .holdout then .holdoutUnopened else .issue)
  | .holdoutUnopened => do
    checkHoldoutUnopened states c.req
    raiseIf c.req.holdoutStore.isNone .partitionNotAuthorized
    return .checked c .validate
  | _ => .error .partitionNotAuthorized

/-- `_create_exclusive`: `none` when the file is there. -/
def createExclusive (files : TokenFiles) (specSha256 : String) (kind : TokenKind) (content : Option TokenFile) :
    Option TokenFiles :=
  if (files specSha256 kind).isSome then none
  else some (Function.update files specSha256 (Function.update (files specSha256) kind (some content)))

/-- A call creates a token file; half a file ends the call. -/
def GuardState.create (s : GuardState ν) (k d : Nat) (specSha256 : String) (kind : TokenKind) (content : TokenFile)
    (whole : Bool) (next : Task ν) : GuardState ν :=
  match createExclusive (s.stores d) specSha256 kind (if whole then some content else none) with
  | none => s.move k true (.error .holdoutAlreadyOpened)
  | some files =>
    { s with stores := Function.update s.stores d files, created := (k, d, kind) :: s.created }.move k true
      (if whole then .ok next else .error .holdoutToken)

/-- A call appends to the registry; the row it writes is the step's effect. -/
def GuardState.append (s : GuardState ν) (k : Nat) (marked : Bool) (c : Call ν) (next : Task ν) : GuardState ν :=
  match build codec.toDocuments s.registry.records c with
  | .ok row =>
    { s with registry := { s.registry with records := Governance.append s.registry.records row } }.move k marked
      (.ok next)
  | .error e => s.move k marked (.error (.registry e))

def resultsGuard (manifest : GovernanceManifest) : Machine (GuardState ν) (GuardLabel ν) where
  step s
    | .registry l => ((Governance.registry codec.toDocuments).step s.registry l).map fun registry => { s with registry }
    | .authorize k req =>
      match s.tasks k with
      | .idle => some (s.move k false ((checkRequest manifest s.registry.records req).map fun _ => .ordering req))
      | _ => none
    | .order k =>
      match s.tasks k with
      | .ordering req =>
        some (s.move k false (readRuns s.registry.records fun states =>
          nextPredecessor req states (requiredPredecessors req.phase) []))
      | _ => none
    | .readPack k raw =>
      match s.tasks k with
      | .reading req runs (need :: todo) done =>
        some (s.move k false (do
          let (run, item) ← pickPredecessor req runs need
          let pack ← checkPack codec run raw
          if need.needsSelection then
            raiseIf item.selectionRecordPath.isNone .predecessorEvidenceMissing
            return .selecting req runs todo done run pack
          else nextPredecessor req runs todo (done ++ [⟨run, pack, none⟩])))
      | _ => none
    | .readSelection k raw =>
      match s.tasks k with
      | .selecting req runs todo done run pack =>
        some (s.move k false (do
          let body ← checkSelection codec run raw
          nextPredecessor req runs todo (done ++ [⟨run, pack, some body⟩])))
      | _ => none
    | .proceed k =>
      match s.tasks k with
      | .checked c .mark =>
        some (s.append codec k false (.markHoldoutAuthorized c.req.runId) (.checked c .beginConsume))
      | .checked c .issue =>
        some (s.append codec k (c.req.partition = .holdout)
          (.markCapabilityIssued c.req.runId (c.artefacts.map (Artefact.digests codec)) (some manifest.sha256) c.limit)
          (.issued c))
      | .checked c stage =>
        if stage ∈ [.findOpenRun, .thisRun, .attemptLimit, .holdoutUnopened] then
          some (s.move k false (readRuns s.registry.records fun states => c.look manifest states stage))
        else none
      | _ => none
    | .validate k view =>
      match s.tasks k with
      | .checked c .validate =>
        some (s.move k false (do
          let genesis ← orRaise (genesisId s.registry.records) .registryNotEnrolled
          let token ← validateUnused c.req.holdoutToken c.req.spec.specSha256 genesis view
          return .checked { c with token := some token } .mark))
      | _ => none
    | .beginConsume k view whole =>
      match s.tasks k with
      | .checked c .beginConsume =>
        match c.req.holdoutStore, c.token with
        | some d, some token =>
          match validateUnused (some token) token.specSha256 token.registryGenesisId view with
          | .ok _ =>
            some (s.create k d token.specSha256 .intent (token.file c.req.runId) whole (.checked c .commitConsume))
          | .error e => some (s.move k true (.error e))
        | _, _ => none
      | _ => none
    | .commitConsume k intent whole =>
      match s.tasks k with
      | .checked c .commitConsume =>
        match c.req.holdoutStore, c.token with
        | some d, some token =>
          if intent = some (token.file c.req.runId) then
            some (s.create k d token.specSha256 .verified (token.file c.req.runId) whole (.checked c .issue))
          else some (s.move k true (.error .holdoutTokenInvalid))
        | _, _ => none
      | _ => none
    | .giveBack k =>
      match s.tasks k with
      | .issued c => some (s.move k true (.ok (.returned c)))
      | _ => none
    | .crash k => some (s.move k true (.ok .dead))
    | .setStore d files => some { s with stores := Function.update s.stores d files }

def guarded (genesisId : String) : GuardState ν where
  registry := enrolled genesisId

end Workbench.Governance
