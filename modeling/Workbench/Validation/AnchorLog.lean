import Workbench.Validation.ChainAnchor
import Workbench.Validation.S3Sink

/-!
# What an anchor log says

The log that a sequence of anchors writes, read back: its lines (`logLines_logText`), each line as its record
(`parseLine_line`), and the whole log where every anchor carries its place, the digest of the line before it and a
later date (`readAnchors_logText`).
-/

set_option linter.dupNamespace false

namespace Workbench.Validation
open Workbench.Lib List

variable {φ : Type}

/-- The codec is sound: floats read back, and a digest has no split surrogate pair. -/
structure Codec.Lawful (X : Codec φ) : Prop where
  floats : X.floats.Lawful
  digest : ∀ cs, Whole (X.sha256 cs)

/-- An anchor of an observation: what is signed, and the receipt. -/
structure Entry where
  observation : CommittedObservation
  previous : Option Text
  tree : Text
  anchoredAt : Text
  receipt : SignedReceipt
deriving DecidableEq

/-- An observation whose strings read back. -/
structure CommittedObservation.Readable (o : CommittedObservation) : Prop where
  sequence : Short o.sequence
  sessionDate : Whole o.sessionDate
  commitSha256 : Whole o.commitSha256
  previousCommitSha256 : ∀ s ∈ o.previousCommitSha256, Whole s

/-- An anchor whose strings read back. -/
structure Entry.Readable (e : Entry) : Prop where
  observation : e.observation.Readable
  previous : ∀ s ∈ e.previous, Whole s
  tree : Whole e.tree
  anchoredAt : Whole e.anchoredAt
  receipt : e.receipt.Readable

namespace Entry

def core (e : Entry) : AnchorCore φ := newCore e.observation e.previous e.tree e.anchoredAt

def record (e : Entry) : AnchorRecord φ := ⟨e.core, e.receipt⟩

variable (X : Codec φ)

def digest (e : Entry) : Text := X.sha256 ((e.core : AnchorCore φ).body.text X.floats .compact)

def tip (e : Entry) : WitnessedTip :=
  ⟨e.observation.sequence, e.observation.sessionDate, e.observation.commitSha256, e.digest X⟩

def payload (e : Entry) : Doc φ := e.record.payload (e.digest X) (receiptText X.floats e.receipt)

def line (e : Entry) : List Char := (e.payload X).text X.floats .spaced

variable {X} {e : Entry}

lemma ofOptional_joined {s : Option Text} (whole : ∀ x ∈ s, Whole x) : (ofOptional s : Doc φ).joined =
    ofOptional s := by
  cases s with
  | none => rfl
  | some x =>
    have same : x.joined = x := whole x rfl
    rw [ofOptional, Doc.joined, same]

lemma ofOptional_ordered {s : Option Text} : (ofOptional s : Doc φ).ordered = true := by
  cases s with
  | none => rfl
  | some x => rfl

lemma ofOptional_fits {s : Option Text} : (ofOptional s : Doc φ).fits = true := by
  cases s with
  | none => rfl
  | some x => rfl

lemma body_ordered : (e.core : AnchorCore φ).body.ordered = true := by
  have keys : ([t "anchored_at", t "commit_sha256", t "deployed_tree_identity", t "previous_anchor_sha256",
      t "previous_commit_sha256", t "sequence", t "session_date"] : List Text).Pairwise (· < ·) := by decide +kernel
  simp [core, newCore, AnchorCore.body, Doc.ordered, Doc.orderedFields, -pairwise_cons, keys, ofOptional_ordered]

lemma body_fits (short : Short e.observation.sequence) : (e.core : AnchorCore φ).body.fits = true := by
  simp only [core, newCore, AnchorCore.body, Doc.fits, Doc.fitsFields, ofOptional_fits, Bool.true_and, Bool.and_true,
    decide_eq_true_eq]
  exact short

lemma digest_eq (short : Short e.observation.sequence) : (e.core : AnchorCore φ).digest X = .ok (e.digest X) := by
  rw [AnchorCore.digest, canonical_of_ordered body_ordered (body_fits short)]
  rfl

lemma payload_ordered : (e.payload X).ordered = true := by
  have keys : ([t "anchor_sha256", t "anchored_at", t "commit_sha256", t "deployed_tree_identity",
      t "previous_anchor_sha256", t "previous_commit_sha256", t "sequence", t "session_date", t "witness_receipt"] :
      List Text).Pairwise (· < ·) := by decide +kernel
  simp [payload, record, core, newCore, AnchorRecord.payload, Doc.ordered, Doc.orderedFields, -pairwise_cons,
    keys, ofOptional_ordered]

lemma payload_fits (short : Short e.observation.sequence) : (e.payload X).fits = true := by
  simp only [payload, record, core, newCore, AnchorRecord.payload, Doc.fits, Doc.fitsFields, ofOptional_fits,
    Bool.true_and, Bool.and_true, decide_eq_true_eq]
  exact short

lemma payloadKeys_joined : ∀ k ∈ "anchor_sha256" :: anchorFields, (t k).joined = t k := by decide +kernel

lemma payload_joined (lawful : X.Lawful) (readable : e.Readable) : (e.payload X).joined = e.payload X := by
  have key := payloadKeys_joined
  simp only [anchorFields, forall_mem_cons] at key
  obtain ⟨anchor, sequence, date, commit, previousCommit, previousAnchor, tree, anchoredAt, receipt, -⟩ := key
  have digest : (e.digest X).joined = e.digest X := lawful.digest _
  have text : (receiptText X.floats e.receipt).joined = receiptText X.floats e.receipt :=
    receiptText_whole lawful.floats
  simp only [payload, record, core, newCore, AnchorRecord.payload, Doc.joined, Doc.joinedFields, anchor, sequence,
    date, commit, previousCommit, previousAnchor, tree, anchoredAt, receipt, digest, text,
    ofOptional_joined readable.previous, ofOptional_joined readable.observation.previousCommitSha256]
  rw [readable.tree, readable.anchoredAt, readable.observation.sessionDate, readable.observation.commitSha256]

lemma serializeAnchor_eq (short : Short e.observation.sequence) (version : Short e.receipt.protocolVersion) :
    serializeAnchor X (e.record : AnchorRecord φ) = .ok (e.line X) := by
  have digest : (e.record : AnchorRecord φ).core.digest X = .ok (e.digest X) := digest_eq short
  have receipt : serializeReceipt X.floats (e.record : AnchorRecord φ).witnessReceipt =
      .ok (receiptText X.floats e.receipt) := serializeReceipt_eq version
  rw [serializeAnchor, digest, receipt]
  simp only [Bind.bind, Except.bind]
  have same : (e.record : AnchorRecord φ).payload (e.digest X) (receiptText X.floats e.receipt) = e.payload X := by
    rw [payload]
  rw [same, dumpsSpaced, Doc.sortKeys_eq payload_ordered, payload_fits short]
  rfl

/-- A line reads back as its record, with the digest that it carries. -/
theorem parseLine_line (lawful : X.Lawful) (readable : e.Readable) :
    parseLine X (e.line X) = .ok (e.record, some (.str (e.digest X))) := by
  have fits := payload_fits (X := X) readable.observation.sequence
  have whole := payload_joined lawful readable
  have read := loads_text (q := .spaced) lawful.floats
    (Loads.takes_plain lawful.floats fits (whole.symm ▸ payload_ordered))
  rw [whole] at read
  have receipt := deserializeReceipt_serializeReceipt lawful.floats readable.receipt
  rw [parseLine, line, read]
  simp [payload, record, core, newCore, AnchorRecord.payload, coreOf, stringField, Doc.get?, Dict.lookup_cons,
    anchorFields, receipt, orRaise, raiseIf, Bind.bind, Except.bind, pure, Except.pure]

lemma newline_notMem (lawful : X.Lawful) : '\n' ∉ e.line X := by
  intro mem
  have plain := (Doc.plain_text lawful.floats _ mem).1
  exact absurd plain (by decide)

lemma line_ne_nil (lawful : X.Lawful) : e.line X ≠ [] := by
  apply ne_nil_of_length_pos
  exact Loads.text_length lawful.floats

lemma witnesses : (e.core : AnchorCore φ).witnesses e.observation = true := by
  have optional {s : Option Text} : eqOptional s (ofOptional s : Doc φ) = true := by
    cases s with
    | none => rfl
    | some x => exact decide_eq_true rfl
  rw [AnchorCore.witnesses, Bool.and_eq_true, Bool.and_eq_true]
  exact ⟨⟨decide_eq_true rfl, optional⟩, decide_eq_true rfl⟩

end Entry

/-! ## The log -/

section
variable (X : Codec φ)

def logText (es : List Entry) : List Char := es.flatMap fun e => e.line X ++ ['\n']

/-- Each anchor carries its place, the digest of the line before it and a later date. -/
def Chained (i : Nat) (prev : Option Text) (last : Option Text) : List Entry → Prop
  | [] => True
  | e :: es => e.Readable ∧ e.observation.sequence = i ∧ e.previous = prev ∧
      (∀ d ∈ last, d < e.observation.sessionDate) ∧
      Chained (i + 1) (some (X.sha256 (e.line X))) (some e.observation.sessionDate) es

variable {X} {es : List Entry} {e : Entry} {i : Nat} {prev last : Option Text}

lemma logText_append : logText X (es ++ [e]) = logText X es ++ (e.line X ++ ['\n']) := by
  rw [logText, flatMap_append, flatMap_singleton]
  rfl

lemma logLines_logText (lawful : X.Lawful) : logLines (logText X es) = es.map fun e => e.line X := by
  induction es with
  | nil => rfl
  | cons e es ih =>
    have split : logText X (e :: es) = e.line X ++ '\n' :: logText X es := by
      rw [logText, flatMap_cons, append_assoc]
      rfl
    rw [split, logLines, splitOn_append_cons_self, splitOn_eq_singleton (Entry.newline_notMem lawful),
      singleton_append]
    have kept : decide (e.line X ≠ []) = true := decide_eq_true (Entry.line_ne_nil lawful)
    rw [filter_cons, kept, if_pos rfl]
    exact congrArg (e.line X :: ·) ih

lemma readLines_chained (lawful : X.Lawful) (chained : Chained X i prev last es) :
    readLines X i prev (last.map .str) (es.map fun e => e.line X) = .ok (es.map fun e => e.record) := by
  induction es generalizing i prev last with
  | nil => rfl
  | cons e es ih =>
    obtain ⟨readable, sequence, previous, later, rest⟩ := chained
    have tail := ih rest
    have digest : (e.record : AnchorRecord φ).core.digest X = .ok (e.digest X) :=
      Entry.digest_eq readable.observation.sequence
    have place : eqInt X.floats i (e.record : AnchorRecord φ).core.sequence = true := by
      apply decide_eq_true
      exact_mod_cast sequence
    have before : eqOptional prev (e.record : AnchorRecord φ).core.previousAnchorSha256 = true := by
      show eqOptional prev (ofOptional e.previous) = true
      rw [previous]
      cases prev with
      | none => rfl
      | some x => exact decide_eq_true rfl
    have dated : (last.map .str).map (leValue X (e.record : AnchorRecord φ).core.sessionDate) =
        last.map fun _ => some false := by
      cases last with
      | none => rfl
      | some d =>
        have after : ¬ e.observation.sessionDate ≤ d := not_le.2 (later d rfl)
        show some (some (decide (e.observation.sessionDate ≤ d))) = some (some false)
        rw [decide_eq_false after]
    have own : (some (.str (e.digest X)) : Option (Doc φ)).all (fun d => eqOptional (some (e.digest X)) d = false) =
        false := by
      show decide (decide (e.digest X = e.digest X) = false) = false
      simp
    have more : readLines X (i + 1) (some (X.sha256 (e.line X)))
        (some (e.record : AnchorRecord φ).core.sessionDate) (es.map fun e => e.line X) =
          .ok (es.map fun e => e.record) := tail
    rw [map_cons, readLines, Entry.parseLine_line lawful readable]
    simp only [Bind.bind, Except.bind, digest, place, before, dated, own, more, raiseIf]
    cases last with
    | none => rfl
    | some d => rfl

/-- A log of chained anchors reads back as their records. -/
theorem readAnchors_logText (lawful : X.Lawful) (chained : Chained X 1 none none es) :
    readAnchors X (logText X es) = .ok (es.map fun e => e.record) := by
  rw [readAnchors, logLines_logText lawful]
  exact readLines_chained lawful chained

lemma Chained.concat (chained : Chained X i prev last es) (readable : e.Readable)
    (sequence : e.observation.sequence = i + es.length)
    (previous : e.previous = (es.getLast?.map fun e => X.sha256 (e.line X)).or prev)
    (later : ∀ d ∈ (es.getLast?.map fun e => e.observation.sessionDate).or last, d < e.observation.sessionDate) :
    Chained X i prev last (es ++ [e]) := by
  induction es generalizing i prev last with
  | nil => exact ⟨readable, sequence, previous, later, trivial⟩
  | cons e' es ih =>
    obtain ⟨readable', sequence', previous', later', rest⟩ := chained
    refine ⟨readable', sequence', previous', later', ?_⟩
    have more : i + (e' :: es).length = i + 1 + es.length := by
      rw [length_cons]
      omega
    apply ih rest (sequence.trans more)
    · rw [previous]
      cases es with
      | nil => rfl
      | cons e'' es =>
        rw [getLast?_cons_cons, getLast?_eq_some_getLast (cons_ne_nil e'' es)]
        rfl
    · intro d mem
      apply later
      cases es with
      | nil => exact mem
      | cons e'' es =>
        rw [getLast?_eq_some_getLast (cons_ne_nil e'' es)] at mem
        rw [getLast?_cons_cons, getLast?_eq_some_getLast (cons_ne_nil e'' es)]
        exact mem

lemma Chained.sequences (chained : Chained X i prev last es) :
    ∀ e ∈ es, e.Readable ∧ i ≤ e.observation.sequence ∧ e.observation.sequence < i + es.length := by
  induction es generalizing i prev last with
  | nil =>
    intro e mem
    cases mem
  | cons e' es ih =>
    obtain ⟨readable, sequence, -, -, rest⟩ := chained
    rw [length_cons]
    intro e mem
    obtain rfl | mem := mem_cons.1 mem
    · exact ⟨readable, by omega, by omega⟩
    · obtain ⟨readable, from_i, below⟩ := ih rest e mem
      exact ⟨readable, by omega, by omega⟩

lemma Chained.increasing (chained : Chained X i prev last es) :
    es.Pairwise fun e e' => e.observation.sequence < e'.observation.sequence := by
  induction es generalizing i prev last with
  | nil => exact .nil
  | cons e' es ih =>
    obtain ⟨-, sequence, -, -, rest⟩ := chained
    refine pairwise_cons.2 ⟨fun e mem => ?_, ih rest⟩
    have from_i := (rest.sequences e mem).2.1
    omega

end

end Workbench.Validation
