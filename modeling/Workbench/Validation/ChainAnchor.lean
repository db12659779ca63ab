import Workbench.Validation.WitnessProtocol

/-!
# The anchor log

Model of `app/validation/chain_anchor.py`: the anchor record with its digest, the line that is written for it, the
reader of the log, the comparison of the log with the committed observations and with the external witness, and the
preparation of an anchor. A field of a line that was read is a JSON value, for the reader does not check its type.

Python → Lean naming: `_digest` → `AnchorCore.digest`; `_serialize` → `serializeAnchor`; `append_anchor`, up to the
signature → `prepareAnchor`. A failure is the code that is reported, `"raised"` for an exception without one.
-/

set_option linter.dupNamespace false

namespace Workbench.Validation
open Workbench.Lib

variable {φ : Type}

/-- Python `CommittedObservation`. -/
structure CommittedObservation where
  sequence : Nat
  sessionDate : Text
  commitSha256 : Text
  previousCommitSha256 : Option Text
deriving DecidableEq

abbrev AnchorFailure := String

/-! ## Records -/

/-- The signed core of an anchor, as JSON values. -/
structure AnchorCore (φ : Type) where
  sequence : Doc φ
  sessionDate : Doc φ
  commitSha256 : Doc φ
  previousCommitSha256 : Doc φ
  previousAnchorSha256 : Doc φ
  deployedTreeIdentity : Doc φ
  anchoredAt : Doc φ

/-- Python `AnchorRecord`. -/
structure AnchorRecord (φ : Type) where
  core : AnchorCore φ
  witnessReceipt : SignedReceipt

/-- Python `core_body`, its keys in order. -/
def AnchorCore.body (c : AnchorCore φ) : Doc φ :=
  .obj [(t "anchored_at", c.anchoredAt), (t "commit_sha256", c.commitSha256),
    (t "deployed_tree_identity", c.deployedTreeIdentity), (t "previous_anchor_sha256", c.previousAnchorSha256),
    (t "previous_commit_sha256", c.previousCommitSha256), (t "sequence", c.sequence),
    (t "session_date", c.sessionDate)]

/-- What the log is read and written with: the floats, SHA-256 as hexadecimal digits, and `<=` of two values that are
no two strings, `none` where they cannot be compared. -/
structure Codec (φ : Type) where
  floats : Floats φ
  sha256 : List Char → Text
  le : Doc φ → Doc φ → Option Bool

variable (X : Codec φ)

/-- Python `anchor_sha256`. -/
def AnchorCore.digest (c : AnchorCore φ) : Except DumpError Text := (Doc.canonical X.floats c.body).map X.sha256

/-- Python `witnessed_tip`. -/
def AnchorCore.tip (c : AnchorCore φ) (digest : Text) : TipFields φ :=
  ⟨c.sequence, c.sessionDate, c.commitSha256, digest⟩

/-- `json.dumps(v, sort_keys=True)` -/
def dumpsSpaced (F : Floats φ) (d : Doc φ) : Except DumpError (List Char) := do
  raiseIf (d.sortKeys.fits = false) .valueError
  return d.sortKeys.text F .spaced

def AnchorRecord.payload (r : AnchorRecord φ) (digest receipt : Text) : Doc φ :=
  .obj [(t "anchor_sha256", .str digest), (t "anchored_at", r.core.anchoredAt),
    (t "commit_sha256", r.core.commitSha256), (t "deployed_tree_identity", r.core.deployedTreeIdentity),
    (t "previous_anchor_sha256", r.core.previousAnchorSha256),
    (t "previous_commit_sha256", r.core.previousCommitSha256), (t "sequence", r.core.sequence),
    (t "session_date", r.core.sessionDate), (t "witness_receipt", .str receipt)]

/-- Python `_serialize`. -/
def serializeAnchor (r : AnchorRecord φ) : Except DumpError (List Char) := do
  let digest ← r.core.digest X
  let receipt ← serializeReceipt X.floats r.witnessReceipt
  dumpsSpaced X.floats (r.payload digest receipt)

/-! ## Reading the log -/

/-- `v == n` -/
def eqInt (F : Floats φ) (n : Int) : Doc φ → Bool
  | .int m => m = n
  | .bool b => (if b then 1 else 0) = n
  | .float x => F.le (.inr x) (.inl n) && F.le (.inl n) (.inr x)
  | .null | .str _ | .arr _ | .obj _ => false

/-- `v == s`, for a string or `None`. -/
def eqOptional : Option Text → Doc φ → Bool
  | some s, .str r => r = s
  | none, .null => true
  | _, _ => false

/-- `a <= b` -/
def leValue : Doc φ → Doc φ → Option Bool
  | .str a, .str b => some (a ≤ b)
  | a, b => X.le a b

def anchorFields : List String :=
  ["sequence", "session_date", "commit_sha256", "previous_commit_sha256", "previous_anchor_sha256",
    "deployed_tree_identity", "anchored_at", "witness_receipt"]

/-- The core of a line that has all the fields. -/
def coreOf (fields : List (Text × Doc φ)) : Option (AnchorCore φ) := do
  let sequence ← Doc.get? fields "sequence"
  let sessionDate ← Doc.get? fields "session_date"
  let commit ← Doc.get? fields "commit_sha256"
  let previousCommit ← Doc.get? fields "previous_commit_sha256"
  let previousAnchor ← Doc.get? fields "previous_anchor_sha256"
  let tree ← Doc.get? fields "deployed_tree_identity"
  let anchoredAt ← Doc.get? fields "anchored_at"
  return ⟨sequence, sessionDate, commit, previousCommit, previousAnchor, tree, anchoredAt⟩

/-- One line as a record, with the digest that it stores. -/
def parseLine (line : List Char) : Except AnchorFailure (AnchorRecord φ × Option (Doc φ)) :=
  match loads (Hooks.plain X.floats) line with
  | .error .decode => .error "ANCHOR_LOG_INVALID"
  | .error _ => .error "raised"
  | .ok (.obj fields) => do
    let core ← orRaise (coreOf fields) "ANCHOR_LOG_INVALID"
    let text ← orRaise (stringField fields "witness_receipt") "ANCHOR_LOG_INVALID"
    match deserializeReceipt X.floats text with
    | .error _ => .error "ANCHOR_LOG_INVALID"
    | .ok receipt => do
      raiseIf (fields.any fun e => e.1 ≠ t "anchor_sha256" ∧ anchorFields.all fun k => t k ≠ e.1)
        "ANCHOR_LOG_INVALID"
      return (⟨core, receipt⟩, Doc.get? fields "anchor_sha256")
  | .ok _ => .error "raised"

/-- The lines from the `i`-th on: each carries its digest, its place, the digest of the line before it and a later
date. -/
def readLines (i : Nat) (prev : Option Text) (last : Option (Doc φ)) :
    List (List Char) → Except AnchorFailure (List (AnchorRecord φ))
  | [] => .ok []
  | line :: lines => do
    let (r, stored) ← parseLine X line
    match r.core.digest X with
    | .error _ => .error "raised"
    | .ok digest => do
      raiseIf (stored.all fun d => eqOptional (some digest) d = false) "ANCHOR_LOG_INVALID"
      raiseIf (eqInt X.floats i r.core.sequence = false) "ANCHOR_LOG_INVALID"
      raiseIf (eqOptional prev r.core.previousAnchorSha256 = false) "ANCHOR_LOG_INVALID"
      match last.map (leValue X r.core.sessionDate) with
      | some none => .error "raised"
      | some (some true) => .error "ANCHOR_LOG_INVALID"
      | some (some false) | none => do
        return r :: (← readLines (i + 1) (some (X.sha256 line)) (some r.core.sessionDate) lines)

def logLines (log : List Char) : List (List Char) := (log.splitOn '\n').filter (· ≠ [])

/-- Python `read_anchors`; a log that does not exist is an empty text. -/
def readAnchors (log : List Char) : Except AnchorFailure (List (AnchorRecord φ)) :=
  readLines X 1 none none (logLines log)

/-! ## The three chains -/

def AnchorCore.witnesses (c : AnchorCore φ) (o : CommittedObservation) : Bool :=
  eqOptional (some o.commitSha256) c.commitSha256 && eqOptional o.previousCommitSha256 c.previousCommitSha256 &&
    eqOptional (some o.sessionDate) c.sessionDate

/-- The anchors that have an observation witness it. -/
def witnessesAll (anchors : List (AnchorRecord φ)) (obs : List CommittedObservation) : Bool :=
  (anchors.zip obs).all fun p => p.1.core.witnesses p.2

/-- Python `_assert_matches_observations`. -/
def assertMatchesObservations (anchors : List (AnchorRecord φ)) (obs : List CommittedObservation) :
    Except AnchorFailure Unit := do
  raiseIf (obs.length < anchors.length) "ANCHOR_AHEAD_OF_RECORD"
  raiseIf (witnessesAll anchors obs = false) "ANCHOR_DIVERGES_FROM_RECORD"
  raiseIf (anchors.length < obs.length) "ANCHOR_BEHIND_RECORD"

def verifyLocal (v : AnchorVerifier) (r : AnchorRecord φ) : Except AnchorFailure Unit :=
  match r.core.digest X with
  | .error _ => .error "raised"
  | .ok digest => verifyReceipt X.floats X.sha256 v (r.core.tip digest) r.witnessReceipt

/-- One external record against the local anchor. -/
def compareExternal (v : AnchorVerifier) (e : WitnessedTip × SignedReceipt) (r : AnchorRecord φ) :
    Except AnchorFailure Unit :=
  match r.core.digest X, serializeReceipt X.floats e.2, serializeReceipt X.floats r.witnessReceipt with
  | .ok digest, .ok external, .ok localText => do
    raiseIf (eqOptional (some e.1.commitSha256) r.core.commitSha256 = false ∨ e.1.anchorSha256 ≠ digest)
      "EXTERNAL_WITNESS_DIVERGES"
    raiseIf (external ≠ localText) "EXTERNAL_WITNESS_DIVERGES"
    verifyReceipt X.floats X.sha256 v e.1.fields e.2
  | _, _, _ => .error "raised"

def forAll {α : Type} (f : α → Except AnchorFailure Unit) : List α → Except AnchorFailure Unit
  | [] => .ok ()
  | a :: l => do
    f a
    forAll f l

/-- Python `_assert_witnessed`. -/
def assertWitnessed (v : AnchorVerifier) (anchors : List (AnchorRecord φ))
    (sink : Except WitnessFailure (List (WitnessedTip × SignedReceipt))) : Except AnchorFailure Unit := do
  forAll (verifyLocal X v) anchors
  let external ← sink
  raiseIf (anchors.length < external.length) "EXTERNAL_WITNESS_AHEAD"
  forAll (fun p => compareExternal X v p.1 p.2) (external.zip anchors)
  raiseIf (external.length < anchors.length) "EXTERNAL_WITNESS_BEHIND"

/-- Python `verify_anchor_consistency`. -/
def verifyAnchorConsistency (v : AnchorVerifier) (log : List Char) (obs : List CommittedObservation)
    (sink : Except WitnessFailure (List (WitnessedTip × SignedReceipt))) :
    Except AnchorFailure (List (AnchorRecord φ)) := do
  let anchors ← readAnchors X log
  assertMatchesObservations anchors obs
  assertWitnessed X v anchors sink
  return anchors

/-! ## Preparing an anchor -/

/-- What `append_anchor` has found before it signs: the tip is anchored, or the core and the tip to be signed. -/
inductive Preparation (φ : Type) where
  | anchored
  | toSign (core : AnchorCore φ) (tip : WitnessedTip)

def newCore (o : CommittedObservation) (prev : Option Text) (tree anchoredAt : Text) : AnchorCore φ :=
  ⟨.int o.sequence, .str o.sessionDate, .str o.commitSha256, ofOptional o.previousCommitSha256, ofOptional prev,
    .str tree, .str anchoredAt⟩

/-- Python `append_anchor`, up to the signature. -/
def prepareAnchor (log : List Char) (obs : List CommittedObservation) (tree anchoredAt : Text) :
    Except AnchorFailure (Preparation φ) :=
  match obs.getLast? with
  | none => .error "ANCHOR_BEHIND_RECORD"
  | some o => do
    let anchors ← readAnchors X log
    raiseIf (obs.length < anchors.length) "ANCHOR_AHEAD_OF_RECORD"
    raiseIf (witnessesAll anchors obs = false) "ANCHOR_DIVERGES_FROM_RECORD"
    if anchors.length = obs.length then return .anchored
    else do
      raiseIf (anchors.length + 1 ≠ obs.length) "ANCHOR_BEHIND_RECORD"
      let core := newCore o ((logLines log).getLast?.map X.sha256) tree anchoredAt
      match core.digest X with
      | .error _ => .error "raised"
      | .ok digest => return .toSign core ⟨o.sequence, o.sessionDate, o.commitSha256, digest⟩

end Workbench.Validation
