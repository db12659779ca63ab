import Workbench.Lib.Timestamp

/-!
# The witness protocol

Model of `app/validation/witness_protocol.py`: the one canonical envelope, the receipt with its serializer and its
strict parser, and the verification of a receipt against the pinned identity. A receipt that is written reads back
(`deserializeReceipt_serializeReceipt`).

Python → Lean naming: `SignedReceipt.to_dict` → `SignedReceipt.toDoc`; `SignedReceipt.from_dict` →
`SignedReceipt.fromDict`. Strings are lists of code points; SHA-256, base64 and the signature schemes are parameters.
-/

set_option linter.dupNamespace false

namespace Workbench.Validation
open Workbench.Lib

variable {φ : Type}

/-- A string of this module's source, as a Python string. -/
abbrev t (s : String) : Text := Text.of s

/-- `None` or a string, as a JSON value. -/
def ofOptional : Option Text → Doc φ
  | none => .null
  | some s => .str s

/-- The characters of a string; a surrogate is no character of a JSON text. -/
def chars (s : Text) : List Char := s.map fun c => Char.ofNat c.val

@[simp] lemma chars_ofChars {cs : List Char} : chars (ofChars cs) = cs := Text.map_char_ofChars

/-! ## The signed subject -/

/-- Python `WitnessedTip`. -/
structure WitnessedTip where
  sequence : Int
  sessionDate : Text
  commitSha256 : Text
  anchorSha256 : Text
deriving DecidableEq

/-- The fields of a tip as JSON values: the parser of the anchor log does not check their types. -/
structure TipFields (φ : Type) where
  sequence : Doc φ
  sessionDate : Doc φ
  commitSha256 : Doc φ
  anchorSha256 : Text

def WitnessedTip.fields (tip : WitnessedTip) : TipFields φ :=
  ⟨.int tip.sequence, .str tip.sessionDate, .str tip.commitSha256, tip.anchorSha256⟩

/-- Python `WitnessSigningIdentity`. -/
structure WitnessSigningIdentity where
  protocolVersion : Int
  algorithm : Text
  keyId : Text
  publicKeyFingerprint : Text
deriving DecidableEq

/-- The payload of the envelope, its keys in order. -/
def envelopeDoc (tip : TipFields φ) (identity : WitnessSigningIdentity) : Doc φ :=
  .obj [(t "algorithm", .str identity.algorithm), (t "anchor_sha256", .str tip.anchorSha256),
    (t "commit_sha256", tip.commitSha256), (t "key_id", .str identity.keyId),
    (t "protocol_version", .int identity.protocolVersion),
    (t "public_key_fingerprint", .str identity.publicKeyFingerprint), (t "sequence", tip.sequence),
    (t "session_date", tip.sessionDate)]

/-- `ENVELOPE_DOMAIN_PREFIX` -/
def envelopeDomainPrefix : List Char := "workbench.witness.v2\n".toList

/-- Python `build_witness_envelope`. -/
def buildWitnessEnvelope (F : Floats φ) (tip : TipFields φ) (identity : WitnessSigningIdentity) :
    Except DumpError (List Char) :=
  (Doc.canonical F (envelopeDoc tip identity)).map (envelopeDomainPrefix ++ ·)

/-! ## The receipt -/

/-- Python `SignedReceipt`. -/
structure SignedReceipt where
  protocolVersion : Int
  algorithm : Text
  keyId : Text
  publicKeyFingerprint : Text
  messageDigest : Text
  signature : Text
  signedAt : Text
  witnessIdentity : Text
deriving DecidableEq

/-- `_RECEIPT_FIELDS` -/
def receiptFields : List String :=
  ["protocol_version", "algorithm", "key_id", "public_key_fingerprint", "message_digest", "signature", "signed_at",
    "witness_identity"]

/-- Python `to_dict`, its keys in order. -/
def SignedReceipt.toDoc (r : SignedReceipt) : Doc φ :=
  .obj [(t "algorithm", .str r.algorithm), (t "key_id", .str r.keyId), (t "message_digest", .str r.messageDigest),
    (t "protocol_version", .int r.protocolVersion), (t "public_key_fingerprint", .str r.publicKeyFingerprint),
    (t "signature", .str r.signature), (t "signed_at", .str r.signedAt),
    (t "witness_identity", .str r.witnessIdentity)]

/-- Python `serialize_receipt`. -/
def serializeReceipt (F : Floats φ) (r : SignedReceipt) : Except DumpError Text :=
  (Doc.canonical F r.toDoc).map ofChars

/-- A witness failure: the code that a `WitnessError` reports, `"raised"` for another exception. -/
abbrev WitnessFailure := String

/-- `_SIGNED_AT_RE.match(signed_at)`, and `strptime` raises no `ValueError`. -/
def signedAtReadable (s : Text) : Bool := Timestamp.readable s

/-- The string of a field; `none` where it is none. -/
def stringField (fields : List (Text × Doc φ)) (k : String) : Option Text :=
  match Doc.get? fields k with
  | some (.str s) => some s
  | _ => none

/-- The version of a receipt: an integer, and no boolean. -/
def versionField (fields : List (Text × Doc φ)) : Except WitnessFailure Int :=
  match Doc.get? fields "protocol_version" with
  | some (.int n) => .ok n
  -- the message shows the version, and an integer inside it may be too long to be written
  | some v => .error (if v.fits then "WITNESS_RECEIPT_MALFORMED" else "raised")
  | none => .error "WITNESS_RECEIPT_MALFORMED"

/-- Python `from_dict`: missing fields and unknown fields are both refused. -/
def SignedReceipt.fromDict : Doc φ → Except WitnessFailure SignedReceipt
  | .obj fields => do
    raiseIf (receiptFields.any fun k => (Doc.get? fields k).isNone) "WITNESS_RECEIPT_MALFORMED"
    raiseIf (fields.any fun e => receiptFields.all fun k => t k ≠ e.1) "WITNESS_RECEIPT_MALFORMED"
    let version ← versionField fields
    let algorithm ← orRaise (stringField fields "algorithm") "WITNESS_RECEIPT_MALFORMED"
    let keyId ← orRaise (stringField fields "key_id") "WITNESS_RECEIPT_MALFORMED"
    let fingerprint ← orRaise (stringField fields "public_key_fingerprint") "WITNESS_RECEIPT_MALFORMED"
    let digest ← orRaise (stringField fields "message_digest") "WITNESS_RECEIPT_MALFORMED"
    let signature ← orRaise (stringField fields "signature") "WITNESS_RECEIPT_MALFORMED"
    let signedAt ← orRaise (stringField fields "signed_at") "WITNESS_RECEIPT_MALFORMED"
    let identity ← orRaise (stringField fields "witness_identity") "WITNESS_RECEIPT_MALFORMED"
    raiseIf (signedAtReadable signedAt = false) "WITNESS_RECEIPT_MALFORMED"
    return ⟨version, algorithm, keyId, fingerprint, digest, signature, signedAt, identity⟩
  | _ => .error "WITNESS_RECEIPT_MALFORMED"

/-- Python `deserialize_receipt`. -/
def deserializeReceipt (F : Floats φ) (text : Text) : Except WitnessFailure SignedReceipt :=
  match loads (Hooks.plain F) (chars text) with
  | .error _ => .error "WITNESS_RECEIPT_MALFORMED"
  | .ok payload => SignedReceipt.fromDict payload

/-! ## Verification -/

/-- What verifies: the pinned identity, and the check of a signature under the installed key. -/
structure AnchorVerifier where
  pinned : WitnessSigningIdentity
  valid : (envelope : List Char) → (signature : Text) → Bool

/-- `ALLOWLISTED_ALGORITHMS` -/
def allowlistedAlgorithms : List Text := [t "ECDSA_SHA_256_P256", t "ED25519"]

/-- Python `verify_receipt`: the identity is checked before the signature. -/
def verifyReceipt (F : Floats φ) (sha256 : List Char → Text) (v : AnchorVerifier) (tip : TipFields φ)
    (r : SignedReceipt) : Except WitnessFailure Unit := do
  raiseIf (r.protocolVersion ≠ 2) "WITNESS_PROTOCOL_VERSION_UNSUPPORTED"
  raiseIf (r.algorithm ∉ allowlistedAlgorithms) "WITNESS_ALGORITHM_NOT_ALLOWLISTED"
  raiseIf (r.algorithm ≠ v.pinned.algorithm) "WITNESS_ALGORITHM_NOT_PINNED"
  raiseIf (r.keyId ≠ v.pinned.keyId) "WITNESS_KEY_IDENTITY_MISMATCH"
  raiseIf (r.publicKeyFingerprint ≠ v.pinned.publicKeyFingerprint) "WITNESS_KEY_IDENTITY_MISMATCH"
  match buildWitnessEnvelope F tip v.pinned with
  | .error _ => .error "INDEPENDENT_WITNESS_UNAVAILABLE"
  | .ok envelope => do
    raiseIf (sha256 envelope ≠ r.messageDigest) "WITNESS_MESSAGE_DIGEST_MISMATCH"
    raiseIf (v.valid envelope r.signature = false) "ANCHOR_SIGNATURE_INVALID"

/-! ## Round trips -/

lemma canonical_of_ordered {F : Floats φ} {d : Doc φ} (ordered : d.ordered = true) (fits : d.fits = true) :
    Doc.canonical F d = .ok (d.text F .compact) := by
  rw [Doc.canonical, Doc.sortKeys_eq ordered, fits]
  rfl

lemma loads_compact {F : Floats φ} (lawful : F.Lawful) {d : Doc φ} (whole : d.joined = d) (ordered : d.ordered = true)
    (fits : d.fits = true) : loads (Hooks.plain F) (d.text F .compact) = .ok d := by
  have read := loads_text (q := .compact) lawful (Loads.takes_plain lawful fits (whole.symm ▸ ordered))
  rw [whole] at read
  exact read

def Whole (s : Text) : Prop := s.joined = s

/-- An integer has no more digits than the interpreter writes. -/
def Short (n : Int) : Prop := (Nat.toDigits 10 n.natAbs).length ≤ maxDigits

/-- A receipt that the strict parser takes back. -/
structure SignedReceipt.Readable (r : SignedReceipt) : Prop where
  version : Short r.protocolVersion
  algorithm : Whole r.algorithm
  keyId : Whole r.keyId
  fingerprint : Whole r.publicKeyFingerprint
  digest : Whole r.messageDigest
  signature : Whole r.signature
  signedAt : Whole r.signedAt
  identity : Whole r.witnessIdentity
  timestamp : signedAtReadable r.signedAt = true

lemma receiptKeys_joined : ∀ k ∈ receiptFields, (t k).joined = t k := by decide +kernel

def joined (r : SignedReceipt) : SignedReceipt :=
  ⟨r.protocolVersion, r.algorithm.joined, r.keyId.joined, r.publicKeyFingerprint.joined, r.messageDigest.joined,
    r.signature.joined, r.signedAt.joined, r.witnessIdentity.joined⟩

lemma joined_toDoc {r : SignedReceipt} : (r.toDoc : Doc φ).joined = (joined r).toDoc := by
  have key := receiptKeys_joined
  simp only [receiptFields, List.forall_mem_cons] at key
  obtain ⟨version, algorithm, keyId, fingerprint, digest, signature, signedAt, identity, -⟩ := key
  simp only [SignedReceipt.toDoc, Doc.joined, Doc.joinedFields, version, algorithm, keyId, fingerprint, digest,
    signature, signedAt, identity, joined]

lemma toDoc_ordered {r : SignedReceipt} : (r.toDoc : Doc φ).ordered = true := by
  have keys : ([t "algorithm", t "key_id", t "message_digest", t "protocol_version", t "public_key_fingerprint",
      t "signature", t "signed_at", t "witness_identity"] : List Text).Pairwise (· < ·) := by decide +kernel
  simp [SignedReceipt.toDoc, Doc.ordered, Doc.orderedFields, -List.pairwise_cons, keys]

variable {F : Floats φ} {r : SignedReceipt}

lemma toDoc_joined (readable : r.Readable) : (r.toDoc : Doc φ).joined = r.toDoc := by
  rw [joined_toDoc, joined, readable.algorithm, readable.keyId, readable.fingerprint, readable.digest,
    readable.signature, readable.signedAt, readable.identity]

lemma toDoc_fits (short : Short r.protocolVersion) : (r.toDoc : Doc φ).fits = true := by
  simp only [SignedReceipt.toDoc, Doc.fits, Doc.fitsFields, Bool.true_and, Bool.and_true, decide_eq_true_eq]
  exact short

def receiptText (F : Floats φ) (r : SignedReceipt) : Text := ofChars (r.toDoc.text F .compact)

lemma serializeReceipt_eq (short : Short r.protocolVersion) : serializeReceipt F r = .ok (receiptText F r) := by
  rw [serializeReceipt, canonical_of_ordered toDoc_ordered (toDoc_fits short)]
  rfl

lemma fromDict_toDoc (timestamp : signedAtReadable r.signedAt = true) :
    SignedReceipt.fromDict (r.toDoc : Doc φ) = .ok r := by
  simp [SignedReceipt.toDoc, SignedReceipt.fromDict, versionField, stringField, Doc.get?, Dict.lookup_cons,
    receiptFields,
    timestamp, orRaise, raiseIf, Bind.bind, Except.bind, pure, Except.pure]

/-- A receipt that is written reads back. -/
theorem deserializeReceipt_serializeReceipt (lawful : F.Lawful) (readable : r.Readable) :
    deserializeReceipt F (receiptText F r) = .ok r := by
  rw [deserializeReceipt, receiptText, chars_ofChars,
    loads_compact lawful (toDoc_joined readable) toDoc_ordered (toDoc_fits readable.version)]
  exact fromDict_toDoc readable.timestamp

end Workbench.Validation
