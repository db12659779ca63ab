import Workbench.Lib.DateOrder
import Workbench.Validation.WitnessProtocol

/-!
# The S3 sink

Model of `app/validation/aws/s3_sink.py`: the key and the payload of a tip, the conditional put, the listing in pages
and the strict parse of a stored object. A payload that is stored reads back as its tip and its receipt
(`parse_payload`).

Bodies are ASCII texts. The prefix is the one that the constructor keeps.
-/

set_option linter.dupNamespace false

namespace Workbench.Validation
open Workbench.Lib List

variable {φ : Type}

abbrev Objects := Dict Text (List Char)

/-- A bucket as one sink uses it: its prefix, and the number of keys on a page of a listing. -/
structure Bucket where
  prefixText : Text
  pageSize : Nat

/-- `MAX_LIST_PAGES` -/
def maxListPages : Nat := 100

/-! ## Keys and payloads -/

def zeroPadded (width n : Nat) : List Char := if n < 10 ^ width then DateTime.pad width n else Nat.toDigits 10 n

/-- `f"{sequence:06d}"` -/
def sequenceText : Int → List Char
  | .ofNat n => zeroPadded 6 n
  | .negSucc n => '-' :: zeroPadded 5 (n + 1)

/-- Python `_key_for`. -/
def keyFor (b : Bucket) (sequence : Int) (sessionDate : Text) : Text :=
  let name := ofChars (sequenceText sequence) ++ (t "-" ++ (sessionDate ++ t ".json"))
  if b.prefixText = [] then name else b.prefixText ++ (t "/" ++ name)

def tipDoc (tip : WitnessedTip) : Doc φ :=
  .obj [(t "anchor_sha256", .str tip.anchorSha256), (t "commit_sha256", .str tip.commitSha256),
    (t "sequence", .int tip.sequence), (t "session_date", .str tip.sessionDate)]

def payloadDoc (tip : WitnessedTip) (receipt : Text) : Doc φ :=
  .obj [(t "receipt", .str receipt), (t "tip", tipDoc tip)]

/-- Python `_canonical_payload`. -/
def canonicalPayload (F : Floats φ) (tip : WitnessedTip) (r : SignedReceipt) : Except DumpError (List Char) := do
  let receipt ← serializeReceipt F r
  Doc.canonical F (payloadDoc tip receipt)

/-! ## The bucket -/

/-- `put_object` with `IfNoneMatch="*"`: the objects after it, and whether it has created one. -/
def putObject (objects : Objects) (key : Text) (body : List Char) : Objects × Bool :=
  match objects.get key with
  | none => (objects.set key body, true)
  | some _ => (objects, false)

/-- The keys under the prefix, in the order of a listing. -/
def underPrefix (b : Bucket) (objects : Objects) : List Text :=
  ((objects.entries.map Prod.fst).filter fun k =>
    b.prefixText = [] ∨ (b.prefixText ++ t "/").isPrefixOf k).mergeSort (· ≤ ·)

/-- The pages of a listing, as many as may be read. -/
def listPages (b : Bucket) : Nat → List Text → Except WitnessFailure (List Text)
  | 0, _ => .error "EXTERNAL_WITNESS_INVALID"
  | n + 1, keys =>
    if keys.length ≤ b.pageSize then .ok keys
    else do return keys.take b.pageSize ++ (← listPages b n (keys.drop b.pageSize))

/-- Python `_list_keys`. -/
def listKeys (b : Bucket) (objects : Objects) : Except WitnessFailure (List Text) := do
  return (← listPages b maxListPages (underPrefix b objects)).filter fun k => (t ".json").isSuffixOf k

/-! ## Reading -/

/-- `int(v)` of what is no integer, and `str(v)` of what is no string. -/
structure Coercions (φ : Type) where
  int : Doc φ → Option Int
  str : Doc φ → Text

/-- `int(v)` -/
def Coercions.toInt (C : Coercions φ) : Doc φ → Option Int
  | .int n => some n
  | .bool b => some (if b then 1 else 0)
  | .null => C.int .null
  | .float x => C.int (.float x)
  | .str s => C.int (.str s)
  | .arr vs => C.int (.arr vs)
  | .obj fs => C.int (.obj fs)

/-- `str(v)` -/
def Coercions.toStr (C : Coercions φ) : Doc φ → Text
  | .str s => s
  | .int n => C.str (.int n)
  | .bool b => C.str (.bool b)
  | .null => C.str .null
  | .float x => C.str (.float x)
  | .arr vs => C.str (.arr vs)
  | .obj fs => C.str (.obj fs)

/-- `set(fields) == names` -/
def keysAre (fields : List (Text × Doc φ)) (names : List String) : Bool :=
  names.all (fun k => (Doc.get? fields k).isSome) && fields.all fun e => names.any fun k => t k = e.1

def parseTip (C : Coercions φ) : Doc φ → Option WitnessedTip
  | .obj fields =>
    if keysAre fields ["sequence", "session_date", "commit_sha256", "anchor_sha256"] then do
      let sequence ← (Doc.get? fields "sequence").bind C.toInt
      let sessionDate ← (Doc.get? fields "session_date").map C.toStr
      let commit ← (Doc.get? fields "commit_sha256").map C.toStr
      let anchor ← (Doc.get? fields "anchor_sha256").map C.toStr
      return ⟨sequence, sessionDate, commit, anchor⟩
    else none
  | _ => none

/-- Python `_parse`. -/
def parse (F : Floats φ) (C : Coercions φ) (b : Bucket) (key : Text) (raw : List Char) :
    Except WitnessFailure (WitnessedTip × SignedReceipt) :=
  match loads (Hooks.plain F) raw with
  | .error .digits => .error "ValueError"
  | .error _ => .error "EXTERNAL_WITNESS_INVALID"
  | .ok (.obj fields) => do
    raiseIf (keysAre fields ["tip", "receipt"] = false) "EXTERNAL_WITNESS_INVALID"
    let tip ← orRaise ((Doc.get? fields "tip").bind (parseTip C)) "EXTERNAL_WITNESS_INVALID"
    let text ← orRaise (stringField fields "receipt") "EXTERNAL_WITNESS_INVALID"
    match deserializeReceipt F text with
    | .error _ => .error "EXTERNAL_WITNESS_INVALID"
    | .ok receipt => do
      raiseIf (key ≠ keyFor b tip.sequence tip.sessionDate) "EXTERNAL_WITNESS_INVALID"
      return (tip, receipt)
  | .ok _ => .error "EXTERNAL_WITNESS_INVALID"

def readRecord (F : Floats φ) (C : Coercions φ) (b : Bucket) (objects : Objects) (key : Text) :
    Except WitnessFailure (WitnessedTip × SignedReceipt) := do
  parse F C b key (← orRaise (objects.get key) "EXTERNAL_WITNESS_INVALID")

/-- Python `read_all`: every recorded tip, in the order of the sequences. -/
def readAll (F : Floats φ) (C : Coercions φ) (b : Bucket) (objects : Objects) :
    Except WitnessFailure (List (WitnessedTip × SignedReceipt)) := do
  let records ← (← listKeys b objects).mapM (readRecord F C b objects)
  return records.mergeSort fun r r' => r.1.sequence ≤ r'.1.sequence

/-! ## The payload of a tip -/

/-- A tip that reads back. -/
structure WitnessedTip.Readable (tip : WitnessedTip) : Prop where
  sequence : Short tip.sequence
  sessionDate : Whole tip.sessionDate
  commitSha256 : Whole tip.commitSha256
  anchorSha256 : Whole tip.anchorSha256

section
variable {F : Floats φ} {C : Coercions φ} {b : Bucket} {tip : WitnessedTip} {r : SignedReceipt}

lemma payloadKeys_joined : ∀ k ∈ ["receipt", "tip", "anchor_sha256", "commit_sha256", "sequence", "session_date"],
    (t k).joined = t k := by decide +kernel

lemma payloadDoc_ordered {receipt : Text} : (payloadDoc tip receipt : Doc φ).ordered = true := by
  have outer : ([t "receipt", t "tip"] : List Text).Pairwise (· < ·) := by decide +kernel
  have inner : ([t "anchor_sha256", t "commit_sha256", t "sequence", t "session_date"] : List Text).Pairwise
      (· < ·) := by decide +kernel
  simp [payloadDoc, tipDoc, Doc.ordered, Doc.orderedFields, -pairwise_cons, outer, inner]

lemma payloadDoc_fits {receipt : Text} (short : Short tip.sequence) : (payloadDoc tip receipt : Doc φ).fits = true := by
  simp only [payloadDoc, tipDoc, Doc.fits, Doc.fitsFields, Bool.true_and, Bool.and_true, decide_eq_true_eq]
  exact short

lemma receiptText_whole (lawful : F.Lawful) : Whole (receiptText F r) := by
  apply Text.joined_eq
  intro c mem
  obtain ⟨d, mem_d, rfl⟩ := mem_map.1 mem
  have ascii := (Doc.plain_text (q := .compact) lawful d mem_d).2
  rw [toNat_ofNat_val]
  omega

lemma payloadDoc_joined {receipt : Text} (readable : tip.Readable) (whole : Whole receipt) :
    (payloadDoc tip receipt : Doc φ).joined = payloadDoc tip receipt := by
  have key := payloadKeys_joined
  simp only [forall_mem_cons] at key
  obtain ⟨receiptKey, tipKey, anchor, commit, sequence, date, -⟩ := key
  simp only [payloadDoc, tipDoc, Doc.joined, Doc.joinedFields, receiptKey, tipKey, anchor, commit, sequence, date]
  rw [whole, readable.sessionDate, readable.commitSha256, readable.anchorSha256]

def payloadText (F : Floats φ) (tip : WitnessedTip) (r : SignedReceipt) : List Char :=
  (payloadDoc tip (receiptText F r)).text F .compact

lemma canonicalPayload_eq (short : Short tip.sequence) (version : Short r.protocolVersion) :
    canonicalPayload F tip r = .ok (payloadText F tip r) := by
  rw [canonicalPayload, serializeReceipt_eq version]
  exact canonical_of_ordered payloadDoc_ordered (payloadDoc_fits short)

lemma parseTip_tipDoc : parseTip C (tipDoc tip) = some tip := by
  simp [parseTip, tipDoc, keysAre, Doc.get?, Dict.lookup_cons, Coercions.toInt, Coercions.toStr]

/-- A payload reads back, under its own key, as its tip and its receipt. -/
theorem parse_payload (lawful : F.Lawful) (readable : tip.Readable) (readable' : r.Readable) :
    parse F C b (keyFor b tip.sequence tip.sessionDate) (payloadText F tip r) = .ok (tip, r) := by
  have read : loads (Hooks.plain F) (payloadText F tip r) = .ok (payloadDoc tip (receiptText F r)) :=
    loads_compact lawful (payloadDoc_joined readable (receiptText_whole lawful)) payloadDoc_ordered
      (payloadDoc_fits readable.sequence)
  have receipt := deserializeReceipt_serializeReceipt lawful readable'
  rw [parse, read]
  simp [payloadDoc, keysAre, Doc.get?, Dict.lookup_cons, stringField, parseTip_tipDoc, receipt, orRaise, raiseIf,
    Bind.bind, Except.bind, pure, Except.pure]

lemma payloadText_inj (lawful : F.Lawful) {tip' : WitnessedTip} {r' : SignedReceipt} (readable : tip.Readable)
    (receipt : r.Readable) (readable' : tip'.Readable) (receipt' : r'.Readable)
    (eq : payloadText F tip r = payloadText F tip' r') : (tip, r) = (tip', r') := by
  have docs {u : WitnessedTip} {q : SignedReceipt} (h : u.Readable) :
      loads (Hooks.plain F) (payloadText F u q) = .ok (payloadDoc u (receiptText F q)) :=
    loads_compact lawful (payloadDoc_joined h (receiptText_whole lawful)) payloadDoc_ordered
      (payloadDoc_fits h.sequence)
  have same : payloadDoc (φ := φ) tip (receiptText F r) = payloadDoc tip' (receiptText F r') :=
    Except.ok.inj ((docs readable).symm.trans ((congrArg _ eq).trans (docs readable')))
  have texts : receiptText F r = receiptText F r' ∧ tip = tip' := by
    obtain ⟨⟩ := tip
    obtain ⟨⟩ := tip'
    simpa [payloadDoc, tipDoc, and_comm, and_assoc, and_left_comm] using same
  have read := deserializeReceipt_serializeReceipt lawful receipt
  rw [texts.1, deserializeReceipt_serializeReceipt lawful receipt'] at read
  rw [texts.2, Except.ok.inj read]

end

/-! ## What is read -/

lemma listPages_eq {b : Bucket} {n : Nat} {keys : List Text} (fit : keys.length ≤ (n + 1) * b.pageSize) :
    listPages b (n + 1) keys = .ok keys := by
  induction n generalizing keys with
  | zero =>
    rw [listPages, if_pos (by omega)]
  | succ n ih =>
    rw [listPages]
    split
    · rfl
    · have rest : (keys.drop b.pageSize).length ≤ (n + 1) * b.pageSize := by
        rw [length_drop]
        have more : (n + 1 + 1) * b.pageSize = (n + 1) * b.pageSize + b.pageSize := by ring
        omega
      rw [ih rest]
      exact congrArg Except.ok (take_append_drop b.pageSize keys)

lemma keyFor_prefix {b : Bucket} {n : Int} {d : Text} :
    b.prefixText = [] ∨ (b.prefixText ++ t "/").isPrefixOf (keyFor b n d) = true := by
  rw [keyFor]
  split
  · exact .inl ‹_›
  · right
    rw [← append_assoc]
    exact isPrefixOf_iff_prefix.2 (prefix_append _ _)

lemma keyFor_suffix {b : Bucket} {n : Int} {d : Text} : (t ".json").isSuffixOf (keyFor b n d) = true := by
  rw [keyFor, isSuffixOf_iff_suffix]
  have name : t ".json" <:+ ofChars (sequenceText n) ++ (t "-" ++ (d ++ t ".json")) :=
    ((suffix_append d _).trans (suffix_append _ _)).trans (suffix_append _ _)
  split
  · exact name
  · exact (name.trans (suffix_append _ _)).trans (suffix_append _ _)

/-- Every object is the payload of one of some records, under its own key. -/
def Recorded (F : Floats φ) (b : Bucket) (objects : Objects) (given : List (WitnessedTip × SignedReceipt)) : Prop :=
  ∀ k body, objects.get k = some body → ∃ p ∈ given, p.1.Readable ∧ p.2.Readable ∧
    k = keyFor b p.1.sequence p.1.sessionDate ∧ body = payloadText F p.1 p.2

def Dated (given : List (WitnessedTip × SignedReceipt)) : Prop :=
  ∀ p ∈ given, ∀ q ∈ given, p.1.sequence = q.1.sequence → p.1.sessionDate = q.1.sessionDate

lemma mapM_ok {α β ε : Type} {f : α → Except ε β} {g : β → α} {Q : β → Prop} {l : List α}
    (ok : ∀ a ∈ l, ∃ b, f a = .ok b ∧ g b = a ∧ Q b) : ∃ bs, l.mapM f = .ok bs ∧ bs.map g = l ∧ ∀ b ∈ bs, Q b := by
  induction l with
  | nil => exact ⟨[], rfl, rfl, fun b mem => absurd mem not_mem_nil⟩
  | cons a l ih =>
    obtain ⟨b, head, of, holds⟩ := ok a mem_cons_self
    obtain ⟨bs, tail, ofs, rest⟩ := ih fun a' mem => ok a' (mem_cons_of_mem a mem)
    refine ⟨b :: bs, ?_, ?_, forall_mem_cons.2 ⟨holds, rest⟩⟩
    · rw [mapM_cons, head, tail]
      rfl
    · rw [map_cons, of, ofs]

section
variable {F : Floats φ} {C : Coercions φ} {b : Bucket} {objects : Objects}
  {given : List (WitnessedTip × SignedReceipt)}

lemma listKeys_eq (recorded : Recorded F b objects given) (pages : objects.entries.length ≤ maxListPages * b.pageSize) :
    ∃ keys, listKeys b objects = .ok keys ∧ keys.Perm (objects.entries.map Prod.fst) := by
  have named : ∀ k ∈ objects.entries.map Prod.fst, ∃ n d, k = keyFor b n d := by
    intro k mem
    obtain ⟨e, mem_e, rfl⟩ := mem_map.1 mem
    obtain ⟨p, -, -, -, key, -⟩ := recorded e.1 e.2 (Dict.get_of_mem_entries mem_e)
    exact ⟨_, _, key⟩
  have under : ((objects.entries.map Prod.fst).filter fun k =>
      b.prefixText = [] ∨ (b.prefixText ++ t "/").isPrefixOf k) = objects.entries.map Prod.fst := by
    apply filter_eq_self.2
    intro k mem
    obtain ⟨n, d, rfl⟩ := named k mem
    exact decide_eq_true keyFor_prefix
  have perm : (underPrefix b objects).Perm (objects.entries.map Prod.fst) := by
    rw [underPrefix, under]
    exact mergeSort_perm _ _
  have listed : listPages b maxListPages (underPrefix b objects) = .ok (underPrefix b objects) := by
    apply listPages_eq
    rw [perm.length_eq, length_map]
    exact pages
  refine ⟨underPrefix b objects, ?_, perm⟩
  rw [listKeys, listed]
  refine congrArg Except.ok (filter_eq_self.2 fun k mem => ?_)
  obtain ⟨n, d, rfl⟩ := named k (perm.mem_iff.1 mem)
  exact keyFor_suffix

/-- What is read of a bucket whose objects are payloads: their records, in increasing order of the sequences. -/
theorem readAll_recorded (lawful : F.Lawful) (recorded : Recorded F b objects given) (dated : Dated given)
    (pages : objects.entries.length ≤ maxListPages * b.pageSize) :
    ∃ records, readAll F C b objects = .ok records ∧
      records.Pairwise (fun r r' => r.1.sequence < r'.1.sequence) ∧ (∀ r ∈ records, r ∈ given) ∧
      records.length = objects.entries.length ∧ ∀ p : WitnessedTip × SignedReceipt, p.1.Readable → p.2.Readable →
        objects.get (keyFor b p.1.sequence p.1.sessionDate) = some (payloadText F p.1 p.2) → p ∈ records := by
  let key (r : WitnessedTip × SignedReceipt) : Text := keyFor b r.1.sequence r.1.sessionDate
  obtain ⟨keys, listed, perm⟩ := listKeys_eq recorded pages
  have read : ∀ k ∈ keys, ∃ r, readRecord F C b objects k = .ok r ∧ key r = k ∧
      (r ∈ given ∧ r.1.Readable ∧ r.2.Readable ∧ objects.get (key r) = some (payloadText F r.1 r.2)) := by
    intro k mem
    obtain ⟨e, mem_e, rfl⟩ := mem_map.1 (perm.mem_iff.1 mem)
    have found := Dict.get_of_mem_entries mem_e
    obtain ⟨p, mem_p, readable, receipt, named, body⟩ := recorded e.1 e.2 found
    refine ⟨p, ?_, named.symm, mem_p, readable, receipt, ?_⟩
    · have read : readRecord F C b objects e.1 = parse F C b e.1 e.2 := by
        rw [readRecord, found]
        rfl
      rw [read, body, named]
      exact parse_payload lawful readable receipt
    · rw [← body, ← found, named]
  obtain ⟨rs, parsed, keysOf, each⟩ := mapM_ok read
  have sorted : (rs.mergeSort fun r r' => r.1.sequence ≤ r'.1.sequence).Perm rs := mergeSort_perm _ _
  have distinct : (keys.Nodup) := perm.nodup_iff.2 objects.nodup
  refine ⟨rs.mergeSort fun r r' => r.1.sequence ≤ r'.1.sequence, ?_, ?_, ?_, ?_, ?_⟩
  · rw [readAll, listed]
    show (do
      let records ← keys.mapM (readRecord F C b objects)
      return _) = _
    rw [parsed]
    rfl
  · -- equal sequences would make equal keys
    have ordered : (rs.mergeSort fun r r' => r.1.sequence ≤ r'.1.sequence).Pairwise fun r r' =>
        decide (r.1.sequence ≤ r'.1.sequence) = true :=
      pairwise_mergeSort (by simp; omega) (by simp; omega) rs
    have apart : (rs.mergeSort fun r r' => r.1.sequence ≤ r'.1.sequence).Pairwise fun r r' => key r ≠ key r' := by
      rw [← pairwise_map (R := (· ≠ ·))]
      exact (sorted.map key).nodup_iff.2 (keysOf ▸ distinct)
    refine (ordered.and apart).imp_of_mem fun {r r'} mem mem' h => ?_
    have le : r.1.sequence ≤ r'.1.sequence := of_decide_eq_true h.1
    refine lt_of_le_of_ne le fun same => h.2 ?_
    have date := dated r (each r (sorted.mem_iff.1 mem)).1 r' (each r' (sorted.mem_iff.1 mem')).1 same
    show keyFor b r.1.sequence r.1.sessionDate = keyFor b r'.1.sequence r'.1.sessionDate
    rw [same, date]
  · intro r mem
    exact (each r (sorted.mem_iff.1 mem)).1
  · rw [sorted.length_eq, ← length_map key, keysOf, perm.length_eq, length_map]
  · intro p readable receipt found
    have listed_p : key p ∈ rs.map key := by
      rw [keysOf]
      exact perm.mem_iff.2 (mem_map_of_mem (Dict.mem_entries_of_get found))
    obtain ⟨r, mem, same⟩ := mem_map.1 listed_p
    obtain ⟨-, readable_r, receipt_r, body⟩ := each r mem
    rw [same] at body
    have equal : r = p := payloadText_inj lawful readable_r receipt_r readable receipt
      (Option.some.inj (body.symm.trans found))
    exact sorted.mem_iff.2 (equal ▸ mem)

end

end Workbench.Validation
