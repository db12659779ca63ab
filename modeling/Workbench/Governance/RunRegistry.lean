import Workbench.Lib.Calendar
import Workbench.Lib.Dict
import Workbench.Lib.Machine
import Workbench.Lib.Outcome

/-!
# The run registry

Model of `app/research/range002/governance/run_registry.py` and `model.py`. A registry is the list of the records of
its chain: an append reads the records under the writer lock, lets the call decide on them, and writes one record
or none, so the appends of all handles are in one order. `abort_open_runs` takes the lock for each run it closes,
and other calls come between.
-/

namespace Workbench.Governance
open Lib

/-! ## Vocabularies -/

/-- Python `Partition`. -/
inductive Partition where
  | developmentSelection | developmentConfirmation | holdout | paper | replayRng001
deriving DecidableEq, Repr

/-- `partition.value`. -/
def Partition.value : Partition → String
  | .developmentSelection => "DEVELOPMENT_SELECTION"
  | .developmentConfirmation => "DEVELOPMENT_CONFIRMATION"
  | .holdout => "HOLDOUT"
  | .paper => "PAPER"
  | .replayRng001 => "REPLAY_RNG001"

/-- `Partition(value)`; `none` is a `ValueError`. -/
def Partition.ofValue (value : String) : Option Partition :=
  [developmentSelection, developmentConfirmation, holdout, paper, replayRng001].find? (·.value = value)

/-- Python `Phase`. -/
inductive Phase where
  | p2 | p3a | p3b | p4 | p5
deriving DecidableEq, Repr

/-- `phase.value`. -/
def Phase.value : Phase → String
  | .p2 => "P2"
  | .p3a => "P3A"
  | .p3b => "P3B"
  | .p4 => "P4"
  | .p5 => "P5"

/-- `Phase(value)`; `none` is a `ValueError`. -/
def Phase.ofValue (value : String) : Option Phase := [p2, p3a, p3b, p4, p5].find? (·.value = value)

/-- Python `PHASE_PARTITIONS`. -/
def phasePartitions : Phase → List Partition
  | .p2 => [.replayRng001]
  | .p3a => [.developmentSelection]
  | .p3b => [.developmentConfirmation]
  | .p4 => [.holdout]
  | .p5 => [.paper]

/-- Python `_ATTEMPT_PHASES`. -/
def attemptPhases : List Phase := [.p3a, .p3b]

/-- Python `RunStatus`. -/
inductive RunStatus where
  | «open» | completed | failed | defect | aborted
deriving DecidableEq, Repr

/-- `status.value`. -/
def RunStatus.value : RunStatus → String
  | .open => "OPEN"
  | .completed => "COMPLETED"
  | .failed => "FAILED"
  | .defect => "DEFECT"
  | .aborted => "ABORTED"

/-- `RunStatus(value)`; `none` is a `ValueError`. -/
def RunStatus.ofValue (value : String) : Option RunStatus :=
  [RunStatus.open, completed, failed, defect, aborted].find? (·.value = value)

@[simp] lemma Partition.ofValue_value (p : Partition) : ofValue p.value = some p := by cases p <;> rfl

@[simp] lemma Phase.ofValue_value (p : Phase) : ofValue p.value = some p := by cases p <;> rfl

@[simp] lemma RunStatus.ofValue_value (s : RunStatus) : ofValue s.value = some s := by cases s <;> rfl

/-- Python `MAX_ATTEMPT_LIMIT`. -/
def maxAttemptLimit : Int := 10000

/-- Python `MAX_SEED_ABS`. -/
def maxSeedAbs : Nat := 2 ^ 63 - 1

/-- Python `MAX_EVIDENCE_ITEMS`. -/
def maxEvidenceItems : Nat := 16

/-- Python `MAX_EXIT_CANDIDATES`. -/
def maxExitCandidates : Nat := 64

/-- Python `MAX_SELECTION_RECORD_BYTES`. -/
def maxSelectionRecordBytes : Nat := 2 ^ 19

/-- What the calls raise. -/
inductive Error where
  | registryRecord (message : String)
  | runNotRegistered (runId : String)
  | capabilityNotIssued (runId : String)
  | evidenceReuse (digest : String)
  | capabilityAlreadyIssued (runId : String)
  | attemptLimitNotSet (phase : Phase)
  | attemptLimitExceeded (phase : Phase) (used : Nat)
  | holdoutAlreadyOpened (runId : String)
  | registryIntegrity (message : String)
  | value
deriving DecidableEq, Repr

/-! ## Records -/

def isHex (s : String) : Bool := s.toList.all fun c => c.isDigit || ('a' ≤ c && c ≤ 'f')

/-- `_HEX64.fullmatch`. -/
def hex64 (s : String) : Bool := s.toList.length = 64 && isHex s

/-- `_HEX.fullmatch`. -/
def hex (s : String) : Bool := (s.toList.length = 40 || s.toList.length = 64) && isHex s

/-- Python `_require_hex`. -/
def requireHex (name : String) (pattern : String → Bool) (value : Option String) : Except Error String :=
  orRaise (value.filter pattern) (.registryRecord name)

/-- The payload of a `run_opened` row. -/
structure OpenedPayload where
  runId : String
  phase : String
  partition : String
  specSha256 : String
  codeSha : String
  dataManifestSha256 : String
  seeds : List (String × Int)
  exitCandidates : List String
  holdoutStart : Option String := none
  holdoutEnd : Option String := none
  protectedStart : Option String := none
  protectedEnd : Option String := none
deriving DecidableEq

/-- An item of predecessor evidence. -/
structure Evidence where
  runId : String
  auditPackSha256 : String
  selectionRecordSha256 : Option String
deriving DecidableEq

/-- The payload of a `capability_issued` row. -/
structure CapabilityPayload where
  runId : String
  phase : String
  partition : String
  specSha256 : String
  evidence : List Evidence
  manifestSha256 : Option String
deriving DecidableEq

/-- The JSON documents, as far as the registry looks into them. -/
structure Documents (ν : Type) where
  /-- The value of a string. -/
  text : String → ν
  /-- `content_sha256`; `none` is a `CanonicalisationError`. -/
  contentSha256 : Dict String ν → Option String
  /-- `len(json.dumps(body, default=str))`. -/
  dumpsLength : Dict String ν → Nat

/-- A row of the registry, by its kind. -/
inductive Row (ν : Type) where
  | registryGenesis (genesisId : String)
  | runOpened (payload : OpenedPayload)
  | runClosed (runId : String) (status : String) (auditPackSha256 : Option String)
  | selectionRecord (runId : String) (record : Dict String ν) (recordSha256 : String)
  | holdoutAuthorized (runId : String)
  | capabilityIssued (payload : CapabilityPayload)

/-- Python `ChainRecord`. -/
structure ChainRecord (ν : Type) where
  seq : Nat
  row : Row ν

variable {ν : Type}

def Row.runId : Row ν → Option String
  | .registryGenesis _ => none
  | .runOpened p => some p.runId
  | .runClosed id _ _ | .selectionRecord id _ _ | .holdoutAuthorized id => some id
  | .capabilityIssued p => some p.runId

/-! ## The states of the runs -/

/-- Python `RunState`. -/
structure RunState where
  runId : String
  phase : Phase
  partition : Partition
  specSha256 : String
  codeSha : String
  dataManifestSha256 : String
  seeds : List (String × Int)
  exitCandidates : List String
  status : RunStatus
  auditPackSha256 : Option String
  openedSeq : Nat
  selectionRecordSeq : Option Nat
  holdoutAuthorizedSeq : Option Nat := none
  holdoutRange : Option DateRange := none
  selectionRecordSha256 : Option String := none
  capabilityIssuedSeq : Option Nat := none
  protectedRange : Option DateRange := none
deriving DecidableEq

/-- Python `_opened_window`. -/
def openedWindow : Option String → Option String → Except Error (Option DateRange)
  | none, none => .ok none
  | some start, some ends =>
    match Date.fromisoformat start, Date.fromisoformat ends with
    | some start, some ends =>
      if ordered : start ≤ ends then .ok (some ⟨start, ends, ordered⟩)
      else .error (.registryIntegrity "run_opened row has a malformed holdout window")
    | _, _ => .error (.registryIntegrity "run_opened row has a malformed holdout window")
  | _, _ => .error (.registryIntegrity "run_opened row has a malformed holdout window")

/-- The state of a run as a `run_opened` row opens it. -/
def RunState.opened (seq : Nat) (p : OpenedPayload) : Except Error RunState := do
  let phase ← orRaise (Phase.ofValue p.phase) .value
  let partition ← orRaise (Partition.ofValue p.partition) .value
  let holdoutRange ← openedWindow p.holdoutStart p.holdoutEnd
  let protectedRange ← openedWindow p.protectedStart p.protectedEnd
  return {
    runId := p.runId, phase, partition, specSha256 := p.specSha256, codeSha := p.codeSha,
    dataManifestSha256 := p.dataManifestSha256, seeds := p.seeds, exitCandidates := p.exitCandidates,
    status := .open, auditPackSha256 := none, openedSeq := seq, selectionRecordSeq := none, holdoutRange,
    protectedRange }

/-- What a `run_closed` row replaces. -/
def RunState.close (status : RunStatus) (audit : Option String) (s : RunState) : RunState :=
  { s with status, auditPackSha256 := audit }

/-- What a `selection_record` row replaces. -/
def RunState.select (seq : Nat) (sha : String) (s : RunState) : RunState :=
  { s with selectionRecordSeq := some seq, selectionRecordSha256 := some sha }

/-- What a `holdout_authorized` row replaces. -/
def RunState.mark (seq : Nat) (s : RunState) : RunState := { s with holdoutAuthorizedSeq := some seq }

/-- What a `capability_issued` row replaces: the first one counts. -/
def RunState.issue (seq : Nat) (s : RunState) : RunState :=
  { s with capabilityIssuedSeq := s.capabilityIssuedSeq.or (some seq) }

/-- `states[rid] = replace(states[rid], ...)`; the states stand in the order in which the runs were opened. -/
def replace (runId : String) (f : RunState → RunState) (states : List RunState) : List RunState :=
  states.map fun s => if s.runId = runId then f s else s

/-- `states[rid] = replace(states[rid], ...)` for a run that is `known`. -/
def replaceKnown (runId : String) (f : RunState → RunState) (states : List RunState) :
    Except Error (List RunState) := do
  raiseIf (runId ∉ states.map (·.runId)) (.registryIntegrity "record refers to unknown run_id")
  return replace runId f states

/-- The body of the loop of `_fold`. -/
def foldRecord (states : List RunState) (rec : ChainRecord ν) : Except Error (List RunState) :=
  match rec.row with
  | .registryGenesis _ => do
    raiseIf (rec.seq ≠ 1) (.registryIntegrity "second registry_genesis row")
    return states
  | .runOpened p => do
    raiseIf (p.runId ∈ states.map (·.runId)) (.registryIntegrity "re-opens duplicate run_id")
    return states ++ [← RunState.opened rec.seq p]
  | .runClosed id status audit => do
    let status ← orRaise (RunStatus.ofValue status) .value
    replaceKnown id (RunState.close status audit) states
  | .selectionRecord id _ sha => replaceKnown id (RunState.select rec.seq sha) states
  | .holdoutAuthorized id => replaceKnown id (RunState.mark rec.seq) states
  | .capabilityIssued p => replaceKnown p.runId (RunState.issue rec.seq) states

/-- Python `_fold`. -/
def fold (records : List (ChainRecord ν)) : Except Error (List RunState) := records.foldlM foldRecord []

/-- Another HOLDOUT run that blocks `run` from opening the holdout: the condition of `holdout_conflict`. -/
def blocks (run other : RunState) : Bool :=
  other.runId ≠ run.runId && other.partition = .holdout &&
    (other.holdoutAuthorizedSeq.isSome || (other.holdoutRange.isNone && other.status = .completed)) &&
    (other.specSha256 = run.specSha256 ||
      match other.holdoutRange, run.holdoutRange with
      | some theirs, some ours => theirs.overlaps ours
      | _, _ => true)

/-- Python `holdout_conflict`. -/
def holdoutConflict (runs : List RunState) (run : RunState) : Option RunState := runs.find? (blocks run)

/-- Python `attempts_consumed`. -/
def attemptsConsumed (runs : List RunState) (run : RunState) : List RunState :=
  runs.filter fun other => other.runId ≠ run.runId && other.phase = run.phase && other.capabilityIssuedSeq.isSome

/-- Python `_find`. -/
def findRun (states : List RunState) (runId : String) : Except Error RunState :=
  orRaise (states.find? (·.runId = runId)) (.runNotRegistered runId)

/-! ## The calls -/

/-- The arguments of `open_run`. -/
structure OpenRequest where
  phase : Phase
  specSha256 : String
  codeSha : String
  dataManifestSha256 : String
  partition : Partition
  seeds : List (String × Int)
  exitCandidates : List String
  holdoutRange : Option DateRange := none
  protectedRange : Option DateRange := none

/-- The calls that append. -/
inductive Call (ν : Type) where
  | openRun (req : OpenRequest)
  | closeRun (runId : String) (status : RunStatus) (auditPackSha256 : Option String)
  | recordSelection (runId : String) (record : Dict String ν)
  | markCapabilityIssued (runId : String) (evidence : List Evidence) (manifestSha256 : Option String)
      (attemptLimit : Option Int)
  | markHoldoutAuthorized (runId : String)

/-- `f"range002-run-{n:06d}"`. -/
def runIdText (n : Nat) : String :=
  "range002-run-" ++ String.ofList ((Nat.toDigits 10 n).leftpad 6 '0')

/-- `_RUN_ID.fullmatch`, on ASCII digits. -/
def isRunId (s : String) : Bool :=
  match s.toList.splitAt 13 with
  | (head, number) =>
    head = "range002-run-".toList && 6 ≤ number.length && number.length ≤ 12 && number.all Char.isDigit

/-- The checks of `open_run`. -/
def OpenRequest.check (req : OpenRequest) : Except Error Unit := do
  raiseIf (req.partition ∉ phasePartitions req.phase) (.registryRecord "partition is not valid for phase")
  let _ ← requireHex "spec_sha256" hex64 (some req.specSha256)
  let _ ← requireHex "code_sha" hex (some req.codeSha)
  let _ ← requireHex "data_manifest_sha256" hex64 (some req.dataManifestSha256)
  raiseIf (req.seeds = []) (.registryRecord "seeds must be a non-empty mapping (fixed seeds, plan 6.3)")
  raiseIf (req.seeds.any (fun s => maxSeedAbs < s.2.natAbs) ∨ 64 < req.seeds.length)
    (.registryRecord "seeds: too many entries or a value outside 64-bit range")
  raiseIf (maxExitCandidates < req.exitCandidates.length ∨
      ¬ req.exitCandidates.all (fun c => c ≠ "" && c.toList.length ≤ 64))
    (.registryRecord "exit_candidates must be a sequence of at most 64 non-empty ids (<= 64 chars)")
  raiseIf (req.partition = .holdout ∧ req.holdoutRange.isNone)
    (.registryRecord "a HOLDOUT run must record the spec's holdout_range (a DateRange)")
  raiseIf (req.partition ≠ .holdout ∧ req.holdoutRange.isSome)
    (.registryRecord "holdout_range belongs to HOLDOUT runs only")
  raiseIf (req.phase ∈ attemptPhases ∧ req.protectedRange.isNone)
    (.registryRecord "the run must record the spec's protected development window (protected_range, a DateRange)")
  raiseIf (req.phase ∉ attemptPhases ∧ req.protectedRange.isSome)
    (.registryRecord "protected_range belongs to P3A / P3B runs only")

/-- The payload that `open_run` builds. -/
def OpenRequest.payload (req : OpenRequest) (runId : String) : OpenedPayload where
  runId := runId
  phase := req.phase.value
  partition := req.partition.value
  specSha256 := req.specSha256
  codeSha := req.codeSha
  dataManifestSha256 := req.dataManifestSha256
  seeds := req.seeds
  exitCandidates := req.exitCandidates
  holdoutStart := req.holdoutRange.map (·.start.isoformat)
  holdoutEnd := req.holdoutRange.map (·.ends.isoformat)
  protectedStart := req.protectedRange.map (·.start.isoformat)
  protectedEnd := req.protectedRange.map (·.ends.isoformat)

/-- The state of a run as `open_run` opens it. -/
def OpenRequest.state (req : OpenRequest) (seq : Nat) : RunState where
  runId := runIdText seq
  phase := req.phase
  partition := req.partition
  specSha256 := req.specSha256
  codeSha := req.codeSha
  dataManifestSha256 := req.dataManifestSha256
  seeds := req.seeds
  exitCandidates := req.exitCandidates
  status := .open
  auditPackSha256 := none
  openedSeq := seq
  selectionRecordSeq := none
  holdoutRange := req.holdoutRange
  protectedRange := req.protectedRange

/-- `run.status is not RunStatus.OPEN`. -/
def requireOpen (run : RunState) : Except Error Unit := raiseIf (run.status ≠ .open) (.registryRecord "run is not OPEN")

/-- What `close_run` checks before the append. -/
def checkClose (status : RunStatus) (audit : Option String) : Except Error Unit := do
  raiseIf (status = .open) (.registryRecord "not a closing status")
  raiseIf ((status = .completed ∨ audit.isSome) ∧ (audit.filter hex64).isNone) (.registryRecord "audit_pack_sha256")

/-- The callback of `close_run`. -/
def buildClose (states : List RunState) (runId : String) (status : RunStatus) (audit : Option String) :
    Except Error (Row ν) := do
  let run ← findRun states runId
  requireOpen run
  raiseIf (status = .completed ∧ run.capabilityIssuedSeq.isNone) (.capabilityNotIssued runId)
  raiseIf (audit.isSome ∧ states.any fun s => s.runId ≠ runId && s.auditPackSha256 = audit) (.evidenceReuse runId)
  return .runClosed runId status.value audit

/-- The callback of `record_selection`. -/
def buildSelection [DecidableEq ν] (docs : Documents ν) (states : List RunState) (runId : String)
    (body : Dict String ν) (sha : String) : Except Error (Row ν) := do
  let run ← findRun states runId
  requireOpen run
  raiseIf (run.phase ≠ .p3a) (.registryRecord "a SelectionRecord belongs to a P3A run")
  raiseIf run.selectionRecordSeq.isSome (.registryRecord "run already has a selection record")
  raiseIf (body.get "run_id" ≠ some (docs.text runId) ∨ body.get "spec_sha256" ≠ some (docs.text run.specSha256))
    (.registryRecord "selection record must embed this run's 'run_id' and 'spec_sha256'")
  raiseIf (states.any (·.selectionRecordSha256 = some sha)) (.evidenceReuse sha)
  return .selectionRecord runId body sha

/-- An item of `_validated_evidence`. -/
def validEvidence (item : Evidence) : Bool :=
  isRunId item.runId && hex64 item.auditPackSha256 && item.selectionRecordSha256.all hex64

/-- Python `_validated_evidence`. -/
def validatedEvidence (evidence : List Evidence) : Except Error (List Evidence) := do
  raiseIf (maxEvidenceItems < evidence.length) (.registryRecord "evidence has more than 16 items")
  raiseIf (¬ evidence.all validEvidence) (.registryRecord "evidence")
  return evidence

/-- What `mark_capability_issued` checks before the append. -/
def checkCapability (evidence : List Evidence) (manifest : Option String) (limit : Option Int) :
    Except Error (List Evidence) := do
  let digests ← validatedEvidence evidence
  raiseIf (¬ manifest.all hex64) (.registryRecord "manifest_sha256")
  raiseIf (limit.any fun n => n < 1 || maxAttemptLimit < n)
    (.registryRecord "attempt_limit must be an integer in 1..10000")
  return digests

/-- The attempts of the run's phase are not used up. -/
def checkAttempts (states : List RunState) (run : RunState) (limit : Option Int) : Except Error Unit :=
  if run.phase ∈ attemptPhases then do
    let limit ← orRaise limit (.attemptLimitNotSet run.phase)
    raiseIf (limit ≤ (attemptsConsumed states run).length)
      (.attemptLimitExceeded run.phase (attemptsConsumed states run).length)
  else .ok ()

/-- The callback of `mark_capability_issued`. -/
def buildCapability (states : List RunState) (runId : String) (digests : List Evidence)
    (manifest : Option String) (limit : Option Int) : Except Error (Row ν) := do
  let run ← findRun states runId
  requireOpen run
  raiseIf run.capabilityIssuedSeq.isSome (.capabilityAlreadyIssued runId)
  checkAttempts states run limit
  return .capabilityIssued ⟨runId, run.phase.value, run.partition.value, run.specSha256, digests, manifest⟩

/-- The callback of `mark_holdout_authorized`. -/
def buildHoldout (states : List RunState) (runId : String) : Except Error (Row ν) := do
  let run ← findRun states runId
  requireOpen run
  raiseIf (run.partition ≠ .holdout) (.registryRecord "only a HOLDOUT run can be marked holdout-authorized")
  raiseIf run.holdoutAuthorizedSeq.isSome (.registryRecord "run was already holdout-authorized")
  raiseIf (holdoutConflict states run).isSome (.holdoutAlreadyOpened runId)
  return .holdoutAuthorized runId

variable [DecidableEq ν] (docs : Documents ν)

/-- The row that a call appends to the records it finds under the lock. -/
def build (records : List (ChainRecord ν)) : Call ν → Except Error (Row ν)
  | .openRun req => do
    req.check
    return .runOpened (req.payload (runIdText (records.length + 1)))
  | .closeRun id status audit => do
    checkClose status audit
    buildClose (← fold records) id status audit
  | .recordSelection id body => do
    raiseIf (body.entries = []) (.registryRecord "selection record must not be empty")
    let sha ← orRaise (docs.contentSha256 body) (.registryRecord "selection record is not canonical JSON")
    raiseIf (maxSelectionRecordBytes < docs.dumpsLength body) (.registryRecord "selection record is too large")
    buildSelection docs (← fold records) id body sha
  | .markCapabilityIssued id evidence manifest limit => do
    let digests ← checkCapability evidence manifest limit
    buildCapability (← fold records) id digests manifest limit
  | .markHoldoutAuthorized id => do buildHoldout (← fold records) id

def append (records : List (ChainRecord ν)) (row : Row ν) : List (ChainRecord ν) :=
  records ++ [⟨records.length + 1, row⟩]

/-- The chain after a call: one that raises writes nothing. -/
def call (records : List (ChainRecord ν)) (c : Call ν) : List (ChainRecord ν) :=
  match build docs records c with
  | .ok row => append records row
  | .error _ => records

/-! ## Runs -/

/-- A registry in use; `aborting` holds what each running `abort_open_runs` has left to close. -/
structure State (ν : Type) where
  records : List (ChainRecord ν)
  aborting : Nat → List String := fun _ => []

/-- The steps: a call of any handle, and the parts of an `abort_open_runs`. -/
inductive Label (ν : Type) where
  | call (c : Call ν)
  | abortOpenRuns (k : Nat)
  | abortNext (k : Nat)

/-- The open runs that `abort_open_runs` finds. -/
def openRuns (records : List (ChainRecord ν)) : List String :=
  match fold records with
  | .ok states => (states.filter (·.status = .open)).map (·.runId)
  | .error _ => []

def registry : Machine (State ν) (Label ν) where
  step s
    | .call c => some { s with records := call docs s.records c }
    | .abortOpenRuns k => some { s with aborting := Function.update s.aborting k (openRuns s.records) }
    | .abortNext k =>
      match s.aborting k with
      | [] => none
      | id :: rest =>
        match build docs s.records (.closeRun id .aborted none) with
        | .ok row => some { records := append s.records row, aborting := Function.update s.aborting k rest }
        | .error _ => some { s with aborting := Function.update s.aborting k [] }

/-- A registry as `enroll_new` leaves it. -/
def enrolled (genesisId : String) : State ν where
  records := append [] (.registryGenesis genesisId)

end Workbench.Governance
