import Workbench.Lib.JsonDumps
import Workbench.Lib.Machine

/-!
# Crash consistency of Phase 0

Model of `app/risk/loss_control/phase0_crash_consistency.py`: the classification of an interrupted run from its
journal, the broker truth and the remote evidence, the terminal package that is reproduced from them, and the write
of a package that may be repeated. A driver writes the journal of one run step by step; a crash leaves the journal as
it is, and what it calls after a restart reads that journal.

SHA-256 and `repr` of a string are parameters.
-/

namespace Workbench.Phase0
open Workbench.Lib

/-! ## Vocabularies -/

/-- Python `DriverStatus`. -/
inductive DriverStatus where
  | running | terminal | recoveryRequired | reconciled | unknownBrokerOutcome
deriving DecidableEq

/-- `str(status)` -/
def DriverStatus.value : DriverStatus → Text
  | .running => Text.of "DRIVER_RUNNING"
  | .terminal => Text.of "DRIVER_TERMINAL"
  | .recoveryRequired => Text.of "DRIVER_RECOVERY_REQUIRED"
  | .reconciled => Text.of "DRIVER_RECONCILED"
  | .unknownBrokerOutcome => Text.of "UNKNOWN_BROKER_OUTCOME"

/-- Python `CrashScenario`. -/
inductive CrashScenario where
  | deathBeforePackage | deathAfterSubmitBeforeLocal | packageWithoutStatusUpdate | duplicateTerminalWrite
  | restartReconciliation | objectStorePartialFailure | localRemoteDisagreement

/-- `str(scenario)` -/
def CrashScenario.value : CrashScenario → Text
  | .deathBeforePackage => Text.of "DEATH_BEFORE_PACKAGE"
  | .deathAfterSubmitBeforeLocal => Text.of "DEATH_AFTER_SUBMIT_BEFORE_LOCAL"
  | .packageWithoutStatusUpdate => Text.of "PACKAGE_WITHOUT_STATUS_UPDATE"
  | .duplicateTerminalWrite => Text.of "DUPLICATE_TERMINAL_WRITE"
  | .restartReconciliation => Text.of "RESTART_RECONCILIATION"
  | .objectStorePartialFailure => Text.of "OBJECT_STORE_PARTIAL_FAILURE"
  | .localRemoteDisagreement => Text.of "LOCAL_REMOTE_DISAGREEMENT"

/-! ## Evidence -/

/-- Python `JournalRecord`. -/
structure JournalRecord where
  runId : Text
  accountId : Int
  legsIntent : List Text := []
  legsPersisted : List Text := []
  packageWritten : Bool := false
  statusWritten : Option DriverStatus := none
  objectStoreAcked : Bool := false
  localEvidenceDigest : Option Text := none

/-- Python `BrokerTruth`. -/
structure BrokerTruth where
  known : Bool
  clientOrderIds : List Text := []

/-- Python `RemoteEvidence`. -/
structure RemoteEvidence where
  present : Bool
  digest : Option Text := none
  isPartial : Bool := false

/-- Python `Classification`. -/
structure Classification where
  status : DriverStatus
  scenario : Option CrashScenario
  detail : Text
  conclusive : Bool

/-- Python `TerminalPackage`. -/
structure TerminalPackage where
  runId : Text
  accountId : Int
  status : DriverStatus
  journalDigest : Text
  brokerClientOrderIds : List Text
  packageDigest : Text
  conclusive : Bool
  notes : List Text := []

/-- What the interpreter and its libraries compute. -/
structure Python where
  /-- `hashlib.sha256(text.encode()).hexdigest()` -/
  sha256 : List Char → Text
  /-- `repr(s)` -/
  repr : Text → Text

variable (P : Python)

/-- `str(xs)`, of a list of strings. -/
def Python.listText (xs : List Text) : Text :=
  Text.of "[" ++ (List.intersperse (Text.of ", ") (xs.map P.repr)).flatten ++ Text.of "]"

/-- `bool(digest)` -/
def truthy (digest : Option Text) : Bool := digest.any (· ≠ [])

/-- `"sha256:" + hexdigest` of a document, its keys in order. -/
def Python.digest (doc : Doc Unit) : Except DumpError Text :=
  (Doc.canonical Floats.infinite doc).map fun cs => Text.of "sha256:" ++ P.sha256 cs

def ofTexts (xs : List Text) : Doc Unit := .arr (xs.map .str)

/-- What the digest of a journal is computed of. -/
def JournalRecord.doc (journal : JournalRecord) : Doc Unit :=
  .obj [(Text.of "account_id", .int journal.accountId), (Text.of "legs_intent", ofTexts journal.legsIntent),
    (Text.of "legs_persisted", ofTexts journal.legsPersisted),
    (Text.of "local_evidence_digest", journal.localEvidenceDigest.elim .null .str),
    (Text.of "object_store_acked", .bool journal.objectStoreAcked),
    (Text.of "package_written", .bool journal.packageWritten), (Text.of "run_id", .str journal.runId),
    (Text.of "status_written", journal.statusWritten.elim .null fun status => .str status.value)]

/-- Python `_journal_digest`. -/
def journalDigest (journal : JournalRecord) : Except DumpError Text := P.digest journal.doc

/-- Python `_submit_gap`. -/
def submitGap (journal : JournalRecord) : List Text :=
  journal.legsIntent.dedup.filter (· ∉ journal.legsPersisted)

/-! ## Classification -/

/-- `RemoteEvidence(present=False)` -/
def RemoteEvidence.absent : RemoteEvidence := { present := false }

def disagrees (journal : JournalRecord) (remote : RemoteEvidence) : Bool :=
  truthy journal.localEvidenceDigest && remote.present && truthy remote.digest &&
    decide (remote.digest ≠ journal.localEvidenceDigest)

/-- A partial upload, or an acknowledgement without remote presence. -/
def incomplete (journal : JournalRecord) (remote : RemoteEvidence) : Bool :=
  remote.isPartial || journal.objectStoreAcked && !remote.present

/-- Python `classify_interrupt`. -/
def classifyInterrupt (journal : JournalRecord) (broker : BrokerTruth) (remote : Option RemoteEvidence) :
    Classification :=
  let remote := remote.getD .absent
  if disagrees journal remote then
    ⟨.recoveryRequired, some .localRemoteDisagreement,
      Text.of "local evidence digest disagrees with remote mirror", false⟩
  else if incomplete journal remote then
    ⟨.recoveryRequired, some .objectStorePartialFailure,
      Text.of "object-store evidence incomplete or ack disagrees with presence", false⟩
  else if submitGap journal ≠ [] then
    if broker.known = false then
      ⟨.unknownBrokerOutcome, some .deathAfterSubmitBeforeLocal,
        Text.of "intent recorded; broker truth unknown; local persistence missing", false⟩
    else
      let overlap := (submitGap journal).filter (· ∈ broker.clientOrderIds)
      ⟨.recoveryRequired, some .deathAfterSubmitBeforeLocal,
        if overlap ≠ [] then
          Text.of "broker holds unpersisted client_order_id(s) " ++ P.listText (overlap.insertionSort (· ≤ ·))
        else Text.of "local intent without persistence; broker has no matching id yet or differs", false⟩
  else if journal.packageWritten = false then
    ⟨.recoveryRequired, some .deathBeforePackage,
      if journal.statusWritten ≠ some .terminal then Text.of "run interrupted before terminal package creation"
      else Text.of "status claims terminal but package was never written", false⟩
  else match journal.statusWritten with
    | none => ⟨.recoveryRequired, some .packageWithoutStatusUpdate,
        Text.of "terminal package present but driver status not durably updated", false⟩
    | some status =>
      if broker.known = false then
        ⟨.unknownBrokerOutcome, some .restartReconciliation,
          Text.of "package present but broker truth unavailable", false⟩
      else match status with
        | .terminal => ⟨.terminal, none, Text.of "journal package, status, and broker truth agree", true⟩
        | .recoveryRequired => ⟨.recoveryRequired, some .restartReconciliation,
            Text.of "recovery-required status already durably recorded", false⟩
        | .reconciled => ⟨.reconciled, some .restartReconciliation, Text.of "prior reconciliation recorded", true⟩
        | .running | .unknownBrokerOutcome => ⟨.recoveryRequired, some .restartReconciliation,
            Text.of "unresolved interrupt under status=" ++ status.value, false⟩

/-- Whether `reconcile_after_restart` promotes. -/
def canReconcile (journal : JournalRecord) (broker : BrokerTruth) (remote : RemoteEvidence) : Bool :=
  broker.known && journal.packageWritten && decide (submitGap journal = []) && remote.present &&
    !remote.isPartial && journal.localEvidenceDigest.isSome && decide (remote.digest = journal.localEvidenceDigest) &&
    decide (journal.statusWritten ∈ [none, some .recoveryRequired, some .unknownBrokerOutcome])

/-- Python `reconcile_after_restart`. -/
def reconcileAfterRestart (journal : JournalRecord) (broker : BrokerTruth) (remote : Option RemoteEvidence) :
    Classification :=
  let remote := remote.getD .absent
  let classified := classifyInterrupt P journal broker (some remote)
  if classified.status = .terminal ∧ classified.conclusive = false then
    ⟨.recoveryRequired, some .restartReconciliation, Text.of "refused non-conclusive terminal on restart", false⟩
  else if canReconcile journal broker remote then
    ⟨.reconciled, some .restartReconciliation,
      Text.of "restart reconciliation: journal, broker, and remote evidence agree", true⟩
  else classified

/-! ## Packages -/

def Classification.notes (c : Classification) : List Text :=
  c.detail :: (c.scenario.map fun scenario => Text.of "scenario=" ++ scenario.value).toList

/-- What the digest of a package is computed of. -/
def packageDoc (journal : JournalRecord) (broker : BrokerTruth) (c : Classification) (journalDigest : Text) :
    Doc Unit :=
  .obj [(Text.of "account_id", .int journal.accountId),
    (Text.of "broker_client_order_ids", ofTexts broker.clientOrderIds), (Text.of "conclusive", .bool c.conclusive),
    (Text.of "journal_digest", .str journalDigest), (Text.of "notes", ofTexts c.notes),
    (Text.of "run_id", .str journal.runId), (Text.of "status", .str c.status.value)]

/-- Python `reproduce_terminal_package`. -/
def reproduceTerminalPackage (journal : JournalRecord) (broker : BrokerTruth) (remote : Option RemoteEvidence) :
    Except DumpError TerminalPackage := do
  let classification := classifyInterrupt P journal broker remote
  let journalDigest ← journalDigest P journal
  let packageDigest ← P.digest (packageDoc journal broker classification journalDigest)
  return {
    runId := journal.runId
    accountId := journal.accountId
    status := classification.status
    journalDigest := journalDigest
    brokerClientOrderIds := broker.clientOrderIds
    packageDigest := packageDigest
    conclusive := classification.conclusive
    notes := classification.notes }

/-- Python `write_terminal_once`. -/
def writeTerminalOnce (existingPackage : Option TerminalPackage) (journal : JournalRecord) (broker : BrokerTruth)
    (remote : Option RemoteEvidence) : Except DumpError (TerminalPackage × Bool) := do
  let fresh ← reproduceTerminalPackage P journal broker remote
  match existingPackage with
  | none => return (fresh, true)
  | some existing =>
    if existing.packageDigest = fresh.packageDigest then return (existing, false)
    else return ({
      runId := journal.runId
      accountId := journal.accountId
      status := .recoveryRequired
      journalDigest := fresh.journalDigest
      brokerClientOrderIds := fresh.brokerClientOrderIds
      packageDigest := fresh.packageDigest
      conclusive := false
      notes := fresh.notes ++ [Text.of "duplicate terminal write disagreement"] }, false)

/-! ## The progress of a run -/

/-- A call of `write_terminal_once` that returned: the remote evidence it was given, and what it returned. -/
structure Written where
  remote : Option RemoteEvidence
  package : TerminalPackage
  createdNew : Bool

/-- The durable journal of a run, the package that is stored, and what the writes have returned so far. -/
structure Progress where
  journal : JournalRecord
  stored : Option TerminalPackage := none
  returned : List Written := []

/-- A durable write of the driver, a crash, or a call of `write_terminal_once`; a crash may come before what the call
returned is kept. -/
inductive Act where
  | intend (leg : Text)
  | persist (leg : Text)
  | writePackage (digest : Option Text)
  | writeStatus (status : DriverStatus)
  | acknowledge
  | crash
  | write (remote : Option RemoteEvidence) (kept : Bool)

def Progress.start (runId : Text) (accountId : Int) : Progress where
  journal := { runId, accountId }

/-- One step: legs come before the package, the package before the status, the status before the acknowledgement; the
calls of `write_terminal_once` come after the status. -/
def progress (broker : BrokerTruth) (s : Progress) : Act → Option Progress
  | .intend leg =>
    if s.journal.packageWritten then none
    else some { s with journal := { s.journal with legsIntent := s.journal.legsIntent ++ [leg] } }
  | .persist leg =>
    if s.journal.packageWritten = false ∧ leg ∈ s.journal.legsIntent then
      some { s with journal := { s.journal with legsPersisted := s.journal.legsPersisted ++ [leg] } }
    else none
  | .writePackage digest =>
    if s.journal.packageWritten then none
    else some { s with journal := { s.journal with packageWritten := true, localEvidenceDigest := digest } }
  | .writeStatus status =>
    if s.journal.packageWritten ∧ s.journal.statusWritten = none then
      some { s with journal := { s.journal with statusWritten := some status } }
    else none
  | .acknowledge =>
    if s.journal.statusWritten.isSome then
      some { s with journal := { s.journal with objectStoreAcked := true } }
    else none
  | .crash => some s
  | .write remote kept =>
    if s.journal.statusWritten.isSome then
      match writeTerminalOnce P s.stored s.journal broker remote with
      | .error _ => some s
      | .ok (package, createdNew) => some { s with
          stored := if createdNew && kept then some package else s.stored
          returned := s.returned ++ [⟨remote, package, createdNew⟩] }
    else none

/-- The driver of one run, under one broker truth. -/
def driver (broker : BrokerTruth) : Machine Progress Act := ⟨progress P broker⟩

end Workbench.Phase0
