import Workbench.Validation.WitnessProtocol

/-!
# The schema of a receipt

What `SignedReceipt.from_dict` accepts, value by value, and when a receipt that it accepts is written and read back.
The strict parser follows the schema (`Canonical`) but for one thing: `\d` and `strptime` take digits of any script.
Beside that, a receipt that is accepted may be unwritable, for its version has too many digits, or may read back as
another, for one of its strings holds a surrogate pair in two pieces. Where nothing of the kind is met the codec is
exact (`receipt_codec_iff`).
-/

set_option linter.dupNamespace false

namespace Workbench.Validation.ReceiptSchema
open Workbench.Lib Option
variable {fields : List (Text × Doc φ)} {φ : Type}

/-! ## The schema -/

def OnlyProtocolFields (fields : List (Text × Doc φ)) : Prop := ∀ e ∈ fields, ∃ k ∈ receiptFields, t k = e.1

/-- An object holds the eight protocol fields and no other, those of a receipt: an integer and strings. -/
structure Holds (fields : List (Text × Doc φ)) (r : SignedReceipt) : Prop where
  version : Doc.get? fields "protocol_version" = some (.int r.protocolVersion)
  algorithm : Doc.get? fields "algorithm" = some (.str r.algorithm)
  keyId : Doc.get? fields "key_id" = some (.str r.keyId)
  fingerprint : Doc.get? fields "public_key_fingerprint" = some (.str r.publicKeyFingerprint)
  digest : Doc.get? fields "message_digest" = some (.str r.messageDigest)
  signature : Doc.get? fields "signature" = some (.str r.signature)
  signedAt : Doc.get? fields "signed_at" = some (.str r.signedAt)
  identity : Doc.get? fields "witness_identity" = some (.str r.witnessIdentity)
  only : OnlyProtocolFields fields

/-- A text is that of an instant of the calendar, `YYYY-MM-DDTHH:MM:SSZ` in ASCII digits. -/
def IsInstant (s : Text) : Prop := ∃ i : DateTime, s = ofChars (Timestamp.instantText i.1)

/-- A value follows the schema: an object of the eight fields, its `signed_at` an instant. -/
def Canonical (v : Doc φ) : Prop := ∃ fields r, v = .obj fields ∧ Holds fields r ∧ IsInstant r.signedAt

/-- A value has the eight fields and no other, and its version is no integer and cannot be shown in a message. -/
def Unshowable (v : Doc φ) : Prop :=
  ∃ fields d, v = .obj fields ∧ (∀ k ∈ receiptFields, ∃ d, Doc.get? fields k = some d) ∧ OnlyProtocolFields fields ∧
    Doc.get? fields "protocol_version" = some d ∧ (∀ n, d ≠ .int n) ∧ d.fits = false

lemma Holds.unique {r r' : SignedReceipt} (h : Holds fields r) (h' : Holds fields r') : r = r' := by
  have version := h.version.symm.trans h'.version
  have algorithm := h.algorithm.symm.trans h'.algorithm
  have keyId := h.keyId.symm.trans h'.keyId
  have fingerprint := h.fingerprint.symm.trans h'.fingerprint
  have digest := h.digest.symm.trans h'.digest
  have signature := h.signature.symm.trans h'.signature
  have signedAt := h.signedAt.symm.trans h'.signedAt
  have identity := h.identity.symm.trans h'.identity
  simp only [some.injEq, Doc.int.injEq, Doc.str.injEq] at *
  obtain ⟨_, _, _, _, _, _, _, _⟩ := r
  simp_all

/-! ## What the parser accepts -/

lemma stringField_eq {k : String} {s : Text} : stringField fields k = some s ↔ Doc.get? fields k = some (.str s) := by
  rw [stringField]
  split
  · rename_i r found
    rw [found, some.injEq, some.injEq, Doc.str.injEq]
  · rename_i other
    constructor
    · intro eq
      cases eq
    · intro found
      exact absurd found (other s)

lemma versionField_eq {n : Int} : versionField fields = .ok n ↔ Doc.get? fields "protocol_version" = some (.int n) := by
  rw [versionField]
  split
  · rename_i m found
    rw [found, Except.ok.injEq, some.injEq, Doc.int.injEq]
  · rename_i v other found
    constructor
    · intro eq
      cases eq
    · intro isInt
      rw [found] at isInt
      exact absurd (some.inj isInt) (other n)
  · rename_i found
    rw [found]
    constructor <;> intro eq <;> cases eq

lemma onlyProtocolFields_iff :
    ¬ (fields.any fun e => receiptFields.all fun k => t k ≠ e.1) = true ↔ OnlyProtocolFields fields := by
  simp [OnlyProtocolFields]

lemma fromDict_eq_ok {v : Doc φ} {r : SignedReceipt} :
    SignedReceipt.fromDict v = .ok r ↔
      ∃ fields, v = .obj fields ∧ Holds fields r ∧ signedAtReadable r.signedAt = true := by
  constructor
  · intro accepted
    cases v with
    | obj fields =>
      rw [SignedReceipt.fromDict, raiseIf_bind_eq_ok, raiseIf_bind_eq_ok, onlyProtocolFields_iff] at accepted
      obtain ⟨-, only, accepted⟩ := accepted
      obtain ⟨n, version, accepted⟩ := bind_eq_ok.1 accepted
      simp only [raiseIf_bind_eq_ok, orRaise_bind_eq_ok] at accepted
      obtain ⟨algorithm, eqa, keyId, eqk, fingerprint, eqf, digest, eqd, signature, eqs, signedAt, eqt, identity, eqi,
        read, eq⟩ := accepted
      cases eq
      refine ⟨fields, rfl, ⟨?_, stringField_eq.1 eqa, stringField_eq.1 eqk, stringField_eq.1 eqf, stringField_eq.1 eqd,
        stringField_eq.1 eqs, stringField_eq.1 eqt, stringField_eq.1 eqi, only⟩, ?_⟩
      · exact versionField_eq.1 version
      · exact Bool.not_eq_false _ ▸ read
    | _ => cases accepted
  · rintro ⟨fields, eq, holds, read⟩
    subst eq
    have complete : ¬ (receiptFields.any fun k => (Doc.get? fields k).isNone) = true := by
      simp [receiptFields, holds.version, holds.algorithm, holds.keyId, holds.fingerprint, holds.digest,
        holds.signature, holds.signedAt, holds.identity]
    rw [SignedReceipt.fromDict, raiseIf_bind_eq_ok, raiseIf_bind_eq_ok, onlyProtocolFields_iff]
    refine ⟨complete, holds.only, bind_eq_ok.2 ⟨_, versionField_eq.2 holds.version, ?_⟩⟩
    simp only [raiseIf_bind_eq_ok, orRaise_bind_eq_ok, stringField_eq]
    exact ⟨_, holds.algorithm, _, holds.keyId, _, holds.fingerprint, _, holds.digest, _, holds.signature, _,
      holds.signedAt, _, holds.identity, by rw [read]; decide, rfl⟩

/-! ## How a value is refused -/

section

variable {ε : Type} {α β : Type}

lemma bind_eq_error {x : Except ε α} {f : α → Except ε β} {e : ε} :
    (x >>= f) = .error e ↔ x = .error e ∨ ∃ a, x = .ok a ∧ f a = .error e := by
  cases x with
  | error e' => simp [bind, Except.bind]
  | ok a => simp [bind, Except.bind]

lemma raiseIf_bind_eq_error {c : Prop} [Decidable c] {e e' : ε} {f : Unit → Except ε β} :
    (raiseIf c e >>= f) = .error e' ↔ c ∧ e = e' ∨ ¬ c ∧ f () = .error e' := by
  by_cases h : c
  · simp [raiseIf, h, bind, Except.bind]
  · simp [raiseIf, h, bind, Except.bind]

lemma orRaise_bind_eq_error {x : Option α} {e e' : ε} {f : α → Except ε β} :
    (orRaise x e >>= f) = .error e' ↔ x = none ∧ e = e' ∨ ∃ a, x = some a ∧ f a = .error e' := by
  cases x with
  | none => simp [orRaise, bind, Except.bind]
  | some a => simp [orRaise, bind, Except.bind]

end

lemma complete_iff : ¬ (receiptFields.any fun k => (Doc.get? fields k).isNone) = true ↔
      ∀ k ∈ receiptFields, ∃ d, Doc.get? fields k = some d := by
  simp [ne_none_iff_exists']

lemma versionField_eq_error {e : WitnessFailure} (refused : versionField fields = .error e) :
    e = "WITNESS_RECEIPT_MALFORMED" ∨
      e = "raised" ∧ ∃ d, Doc.get? fields "protocol_version" = some d ∧ (∀ n, d ≠ .int n) ∧ d.fits = false := by
  rw [versionField] at refused
  split at refused
  · cases refused
  · rename_i d other found
    cases fits : d.fits with
    | true =>
      rw [fits] at refused
      exact .inl (Except.error.inj refused).symm
    | false =>
      rw [fits] at refused
      exact .inr ⟨(Except.error.inj refused).symm, d, found, other, fits⟩
  · exact .inl (Except.error.inj refused).symm

lemma fromDict_eq_error {v : Doc φ} {e : WitnessFailure} (refused : SignedReceipt.fromDict v = .error e) :
    e = "WITNESS_RECEIPT_MALFORMED" ∨ e = "raised" ∧ Unshowable v := by
  cases v with
  | obj fields =>
    rw [SignedReceipt.fromDict, raiseIf_bind_eq_error] at refused
    obtain ⟨-, eq⟩ | ⟨complete, refused⟩ := refused
    · exact .inl eq.symm
    obtain ⟨-, eq⟩ | ⟨only, refused⟩ := raiseIf_bind_eq_error.1 refused
    · exact .inl eq.symm
    obtain refused | ⟨n, version, refused⟩ := bind_eq_error.1 refused
    · refine (versionField_eq_error refused).imp_right ?_
      rintro ⟨eq, d, found, noInt, long⟩
      exact ⟨eq, fields, d, rfl, complete_iff.1 complete, onlyProtocolFields_iff.1 only, found, noInt, long⟩
    · -- every later check raises the one error
      simp only [orRaise_bind_eq_error, raiseIf_bind_eq_error, pure, Except.pure, reduceCtorEq, and_false, or_false]
        at refused
      left
      obtain ⟨-, eq⟩ | ⟨_, -, refused⟩ := refused
      · exact eq.symm
      obtain ⟨-, eq⟩ | ⟨_, -, refused⟩ := refused
      · exact eq.symm
      obtain ⟨-, eq⟩ | ⟨_, -, refused⟩ := refused
      · exact eq.symm
      obtain ⟨-, eq⟩ | ⟨_, -, refused⟩ := refused
      · exact eq.symm
      obtain ⟨-, eq⟩ | ⟨_, -, refused⟩ := refused
      · exact eq.symm
      obtain ⟨-, eq⟩ | ⟨_, -, refused⟩ := refused
      · exact eq.symm
      obtain ⟨-, eq⟩ | ⟨_, -, -, eq⟩ := refused
      · exact eq.symm
      · exact eq.symm
  | _ => exact .inl (Except.error.inj refused).symm

lemma Unshowable.raised {v : Doc φ} (unshowable : Unshowable v) : SignedReceipt.fromDict v = .error "raised" := by
  obtain ⟨fields, d, rfl, complete, only, found, noInt, long⟩ := unshowable
  have version : versionField fields = .error "raised" := by
    rw [versionField, found]
    cases d with
    | int n => exact absurd rfl (noInt n)
    | _ => simp [long]
  rw [SignedReceipt.fromDict, raiseIf_bind_eq_error]
  refine .inr ⟨complete_iff.2 complete, raiseIf_bind_eq_error.2 (.inr ⟨onlyProtocolFields_iff.2 only, ?_⟩)⟩
  exact bind_eq_error.2 (.inl version)

/-! ## What is read back -/

variable {F : Floats φ} {r : SignedReceipt}

lemma serializeReceipt_eq_ok {text : Text} :
    serializeReceipt F r = .ok text ↔ Short r.protocolVersion ∧ receiptText F r = text := by
  constructor
  · intro written
    have fits : (r.toDoc : Doc φ).fits = true := by
      cases canonical : Doc.canonical F (r.toDoc : Doc φ) with
      | error e =>
        rw [serializeReceipt, canonical] at written
        cases written
      | ok cs =>
        have sorted := (Doc.canonical_eq_ok canonical).1
        rw [Doc.sortKeys_eq toDoc_ordered] at sorted
        exact sorted
    have short : Short r.protocolVersion := by
      simp only [SignedReceipt.toDoc, Doc.fits, Doc.fitsFields, Bool.true_and, Bool.and_true, decide_eq_true_eq] at fits
      exact fits
    rw [serializeReceipt_eq short] at written
    exact ⟨short, Except.ok.inj written⟩
  · rintro ⟨short, eq⟩
    rw [serializeReceipt_eq short, eq]

lemma deserializeReceipt_receiptText (lawful : F.Lawful) (short : Short r.protocolVersion) :
    deserializeReceipt F (receiptText F r) = SignedReceipt.fromDict ((joined r).toDoc : Doc φ) := by
  have ordered : (r.toDoc : Doc φ).joined.ordered = true := by
    rw [joined_toDoc]
    exact toDoc_ordered
  have read := loads_text (q := .compact) lawful (Loads.takes_plain lawful (toDoc_fits short) ordered)
  rw [deserializeReceipt, receiptText, chars_ofChars, read, joined_toDoc]

lemma holds_toDoc (eq : r.toDoc = Doc.obj fields) : Holds fields r := by
  cases eq
  constructor
  case only =>
    have known : ∀ k ∈ [t "algorithm", t "key_id", t "message_digest", t "protocol_version",
        t "public_key_fingerprint", t "signature", t "signed_at", t "witness_identity"],
        ∃ k' ∈ receiptFields, t k' = k := by decide
    intro e mem
    apply known
    simp only [List.mem_cons, List.not_mem_nil, or_false] at mem
    rcases mem with rfl | rfl | rfl | rfl | rfl | rfl | rfl | rfl <;> simp
  all_goals simp [Doc.get?, Dict.lookup_cons]

lemma whole_of_roundTrip (lawful : F.Lawful) (short : Short r.protocolVersion)
    (back : deserializeReceipt F (receiptText F r) = .ok r) : joined r = r := by
  rw [deserializeReceipt_receiptText lawful short] at back
  obtain ⟨fields, eq, holds, -⟩ := fromDict_eq_ok.1 back
  exact (holds_toDoc eq).unique holds

/-! ## The codec -/

/-- A receipt that can be stored: its version is written, no pair is split, and its `signed_at` is ASCII. -/
structure Storable (r : SignedReceipt) : Prop where
  version : Short r.protocolVersion
  algorithm : Whole r.algorithm
  keyId : Whole r.keyId
  fingerprint : Whole r.publicKeyFingerprint
  digest : Whole r.messageDigest
  signature : Whole r.signature
  identity : Whole r.witnessIdentity
  signedAt : r.signedAt.Ascii

/-- Nothing irregular is met in a value: if it holds the fields of a receipt whose `signed_at` is readable, then that
    receipt can be stored; and a version that is no integer can be shown. -/
structure Regular (v : Doc φ) : Prop where
  storable : ∀ fields r, v = .obj fields → Holds fields r → signedAtReadable r.signedAt = true → Storable r
  showable : ¬ Unshowable v

variable (F) in
/-- The parser is exact on a value: it accepts it if it follows the schema, and refuses it by a `WitnessProtocolError`
    otherwise; and the receipt that it accepts is written and read back. -/
structure Exact (v : Doc φ) : Prop where
  accepts : (∃ r, SignedReceipt.fromDict v = .ok r) ↔ Canonical v
  refuses : ∀ e, SignedReceipt.fromDict v = .error e → e = "WITNESS_RECEIPT_MALFORMED"
  roundTrip : ∀ r, SignedReceipt.fromDict v = .ok r →
    ∃ text, serializeReceipt F r = .ok text ∧ deserializeReceipt F text = .ok r

variable (F) in
/-- The receipts of two values are told apart by their texts. -/
def Distinct (v w : Doc φ) : Prop :=
  ∀ r r', SignedReceipt.fromDict v = .ok r → SignedReceipt.fromDict w = .ok r' →
    ∀ text, serializeReceipt F r = .ok text → serializeReceipt F r' = .ok text → r = r'

lemma whole_of_ascii {s : Text} (ascii : s.Ascii) : Whole s := by
  apply Text.joined_eq
  intro c mem
  exact (ascii c mem).trans (by decide)

lemma Storable.readable (storable : Storable r) (read : signedAtReadable r.signedAt = true) : r.Readable :=
  ⟨storable.version, storable.algorithm, storable.keyId, storable.fingerprint, storable.digest, storable.signature,
    whole_of_ascii storable.signedAt, storable.identity, read⟩

lemma storable_of_roundTrip (lawful : F.Lawful) (isInstant : IsInstant r.signedAt)
    (back : ∃ text, serializeReceipt F r = .ok text ∧ deserializeReceipt F text = .ok r) : Storable r := by
  obtain ⟨text, written, back⟩ := back
  obtain ⟨short, rfl⟩ := serializeReceipt_eq_ok.1 written
  have whole := whole_of_roundTrip lawful short back
  exact ⟨short, congrArg SignedReceipt.algorithm whole, congrArg SignedReceipt.keyId whole,
    congrArg SignedReceipt.publicKeyFingerprint whole, congrArg SignedReceipt.messageDigest whole,
    congrArg SignedReceipt.signature whole, congrArg SignedReceipt.witnessIdentity whole,
    (Timestamp.readable_ascii_iff.2 isInstant).2⟩

/-- The parser is exact on a value just where nothing irregular is met. -/
theorem exact_iff (lawful : F.Lawful) {v : Doc φ} : Exact F v ↔ Regular v := by
  constructor
  · intro exact_
    refine ⟨?_, ?_⟩
    · intro fields r eq holds read
      have accepted : SignedReceipt.fromDict v = .ok r := fromDict_eq_ok.2 ⟨fields, eq, holds, read⟩
      obtain ⟨fields', r', eq', holds', isInstant⟩ := exact_.accepts.1 ⟨r, accepted⟩
      obtain rfl : fields = fields' := Doc.obj.inj (eq.symm.trans eq')
      obtain rfl := holds.unique holds'
      exact storable_of_roundTrip lawful isInstant (exact_.roundTrip r accepted)
    · intro unshowable
      have code := exact_.refuses _ unshowable.raised
      exact absurd code (by decide)
  · intro regular
    refine ⟨?_, ?_, ?_⟩
    · constructor
      · intro ⟨r, accepted⟩
        obtain ⟨fields, eq, holds, read⟩ := fromDict_eq_ok.1 accepted
        have storable := regular.storable fields r eq holds read
        exact ⟨fields, r, eq, holds, Timestamp.readable_ascii_iff.1 ⟨read, storable.signedAt⟩⟩
      · intro ⟨fields, r, eq, holds, isInstant⟩
        exact ⟨r, fromDict_eq_ok.2 ⟨fields, eq, holds, (Timestamp.readable_ascii_iff.2 isInstant).1⟩⟩
    · intro e refused
      rcases fromDict_eq_error refused with eq | ⟨-, unshowable⟩
      · exact eq
      · exact absurd unshowable regular.showable
    · intro r accepted
      obtain ⟨fields, eq, holds, read⟩ := fromDict_eq_ok.1 accepted
      have storable := regular.storable fields r eq holds read
      exact ⟨_, serializeReceipt_eq storable.version,
        deserializeReceipt_serializeReceipt lawful (storable.readable read)⟩

/-- The receipt codec is exact on two values just where nothing irregular is met in them. -/
theorem receipt_codec_iff (lawful : F.Lawful) {v w : Doc φ} :
    Exact F v ∧ Exact F w ∧ Distinct F v w ↔ Regular v ∧ Regular w := by
  rw [exact_iff lawful, exact_iff lawful]
  constructor
  · intro ⟨regularv, regularw, _⟩
    exact ⟨regularv, regularw⟩
  · intro ⟨regularv, regularw⟩
    refine ⟨regularv, regularw, ?_⟩
    intro r r' accepted accepted' text written written'
    -- the text is read back as either receipt
    obtain ⟨_, written₁, back⟩ := ((exact_iff lawful).2 regularv).roundTrip r accepted
    obtain ⟨_, written₂, back'⟩ := ((exact_iff lawful).2 regularw).roundTrip r' accepted'
    cases written.symm.trans written₁
    cases written'.symm.trans written₂
    exact Except.ok.inj (back.symm.trans back')

def signedAtText (signedAt : Text) : SignedReceipt :=
  ⟨2, t "ED25519", t "reference", t "ab", t "cd", t "c2ln", signedAt, t "witness"⟩

def signedAtValue (signedAt : Text) : Doc Unit := (signedAtText signedAt).toDoc

theorem receipt_codec_iff_signed :
    Exact Floats.infinite (signedAtValue (t "2026-07-27T20:15:00Z")) ∧
        Exact Floats.infinite (signedAtValue (t "2026-07-28T20:15:00Z")) ∧
        Distinct Floats.infinite (signedAtValue (t "2026-07-27T20:15:00Z")) (signedAtValue (t "2026-07-28T20:15:00Z")) ↔
      Regular (signedAtValue (t "2026-07-27T20:15:00Z")) ∧ Regular (signedAtValue (t "2026-07-28T20:15:00Z")) :=
  receipt_codec_iff Floats.lawful_infinite

/-- A day whose second digit is an Arabic-Indic seven is accepted. -/
theorem arabic_digit_accepted :
    ¬ Exact Floats.infinite (signedAtValue (t "2026-07-2" ++ [1639] ++ t "T20:15:00Z")) := by
  intro parser
  have accepted : SignedReceipt.fromDict (signedAtValue (t "2026-07-2" ++ [1639] ++ t "T20:15:00Z")) = .ok _ :=
    fromDict_toDoc (by decide)
  obtain ⟨fields, r, eq, holds, isInstant⟩ := parser.accepts.1 ⟨_, accepted⟩
  obtain rfl := (holds_toDoc eq).unique holds
  have ascii := (Timestamp.readable_ascii_iff.2 isInstant).2
  exact absurd (ascii 1639 (by decide)) (by decide)

end Workbench.Validation.ReceiptSchema
