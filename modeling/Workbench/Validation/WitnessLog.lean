import Workbench.Lib.Sha256
import Workbench.Validation.Anchoring

/-!
# The witness log

What the sink says of the calls that were made on it, and what a run of `append_anchor` can do after another has
crashed: it goes through exactly where nothing is stored for its tip, or the bytes that it would publish itself.
-/

set_option linter.dupNamespace false

namespace Workbench.Validation
open Workbench.Lib List Machine

variable {φ : Type}

/-! ## The anchors of a log -/

def Entry.key (b : Bucket) (e : Entry) : Text := keyFor b e.observation.sequence e.observation.sessionDate

def Entry.body (X : Codec φ) (e : Entry) : List Char := payloadText X.floats (e.tip X) e.receipt

def Entry.publication (X : Codec φ) (b : Bucket) (e : Entry) : Publication := ⟨e.tip X, e.receipt, e.key b, e.body X⟩

lemma short_of_lt {n : Nat} (lt : n < 1000000) : Short n := by
  have six : (Nat.toDigits 10 n).length ≤ 6 := (Nat.length_toDigits_le_iff (by decide) (by decide)).2 (by omega)
  have max : 6 ≤ maxDigits := by decide
  exact six.trans max

section
variable {X : Codec φ} {b : Bucket} {v : AnchorVerifier} {e : Entry} {es : List Entry}
  {obs : List CommittedObservation}
variable {a : Request} {core : AnchorCore φ}

lemma Entry.Readable.tip (lawful : X.Lawful) (readable : e.Readable) : (e.tip X).Readable where
  sequence := readable.observation.sequence
  sessionDate := readable.observation.sessionDate
  commitSha256 := readable.observation.commitSha256
  anchorSha256 := lawful.digest _

lemma Entry.publication_of (readable : e.Readable) :
    Publication.of X.floats b (e.tip X) e.receipt = .ok (e.publication X b) := by
  rw [Publication.of, canonicalPayload_eq readable.observation.sequence readable.receipt.version]
  rfl

lemma sign_entry (readable : e.Readable) :
    sign X b e.core (e.tip X) e.receipt = .ok ⟨e.line X, e.publication X b, .putting⟩ := by
  have line : serializeAnchor X ⟨e.core, e.receipt⟩ = .ok (e.line X) :=
    Entry.serializeAnchor_eq readable.observation.sequence readable.receipt.version
  rw [sign, line, Entry.publication_of readable]
  rfl

/-- An anchor that may follow: it reads back, witnesses the next observation, binds the last line and verifies. -/
structure Next (X : Codec φ) (v : AnchorVerifier) (obs : List CommittedObservation) (es : List Entry) (e : Entry) :
    Prop where
  readable : e.Readable
  observation : obs[es.length]? = some e.observation
  previous : e.previous = es.getLast?.map fun e => X.sha256 (e.line X)
  verified : verifyReceipt X.floats X.sha256 v (e.tip X).fields e.receipt = .ok ()

/-- Observations as the store commits them. -/
structure Committed (obs : List CommittedObservation) : Prop where
  each : ∀ i o, obs[i]? = some o → o.Readable ∧ o.sequence = i + 1
  dated : obs.Pairwise fun o o' => o.sessionDate < o'.sessionDate

/-- The log is the text of chained anchors of the first observations, every anchor is stored, what else is stored lies
under the key of the next observation, and a run in progress signs the next anchor. -/
structure Anchoring.Inv (X : Codec φ) (b : Bucket) (v : AnchorVerifier) (es : List Entry) (s : Anchoring) : Prop where
  committed : Committed s.obs
  chained : Chained X 1 none none es
  log : s.log = logText X es
  anchored : es.map Entry.observation <+: s.obs
  verified : ∀ e ∈ es, verifyReceipt X.floats X.sha256 v (e.tip X).fields e.receipt = .ok ()
  kept : ∀ e ∈ es, s.objects.get (e.key b) = some (e.body X)
  stored : ∀ k body, s.objects.get k = some body → (∃ e ∈ es, k = e.key b ∧ body = e.body X) ∨
    ∃ o, s.obs[es.length]? = some o ∧ k = keyFor b o.sequence o.sessionDate
  call : ∀ c ∈ s.call, ∃ e, Next X v s.obs es e ∧ c.line = e.line X ∧ c.publication = e.publication X b ∧
    (c.phase = .returned → s.objects.get (e.key b) = some (e.body X))

lemma Committed.concat {o : CommittedObservation} (committed : Committed obs) (follows : Follows obs o)
    (sessionDate : Whole o.sessionDate) (commit : Whole o.commitSha256)
    (previous : ∀ x ∈ o.previousCommitSha256, Whole x) : Committed (obs ++ [o]) where
  each i o' found := by
    obtain old | new := lt_or_ge i obs.length
    · rw [getElem?_append_left old] at found
      exact committed.each i o' found
    · rw [getElem?_append_right new] at found
      obtain ⟨bound, rfl⟩ := List.getElem?_eq_some_iff.1 found
      have place : i = obs.length := by
        rw [length_singleton] at bound
        omega
      subst place
      simp only [Nat.sub_self, getElem_cons_zero]
      exact ⟨⟨short_of_lt follows.2.1, sessionDate, commit, previous⟩, follows.1⟩
  dated := by
    refine pairwise_append.2 ⟨committed.dated, pairwise_singleton _ _, ?_⟩
    intro o' mem o'' mem'
    obtain rfl := mem_singleton.1 mem'
    obtain ⟨init, last, rfl⟩ : ∃ init last, obs = init ++ [last] :=
      ⟨_, _, (dropLast_append_getLast (ne_nil_of_mem mem)).symm⟩
    have later := follows.2.2 last (by simp)
    obtain before | rfl := (mem_append.1 mem).imp id mem_singleton.1
    · exact ((pairwise_append.1 committed.dated).2.2 o' before last (by simp)).trans later
    · exact later

lemma Next.chained {obs : List CommittedObservation} (next : Next X v obs es e) (committed : Committed obs)
    (chained : Chained X 1 none none es) (anchored : es.map Entry.observation <+: obs) :
    Chained X 1 none none (es ++ [e]) := by
  have place := (committed.each _ _ next.observation).2
  apply chained.concat next.readable
  · omega
  · rw [Option.or_none]
    exact next.previous
  · intro d mem
    rw [Option.or_none] at mem
    obtain ⟨last, is_last, rfl⟩ := Option.map_eq_some_iff.1 mem
    -- the last anchor witnesses the observation before the next one
    obtain ⟨rest, rfl⟩ := anchored
    have before : last.observation ∈ es.map Entry.observation :=
      mem_map_of_mem (mem_of_getLast? is_last)
    have after : e.observation ∈ rest := by
      have found := next.observation
      rw [getElem?_append_right (by simp)] at found
      exact mem_of_getElem? found
    exact (pairwise_append.1 committed.dated).2.2 _ before _ after

lemma Next.anchored {obs : List CommittedObservation} (next : Next X v obs es e)
    (anchored : es.map Entry.observation <+: obs) : (es ++ [e]).map Entry.observation <+: obs := by
  obtain ⟨rest, rfl⟩ := anchored
  have found := next.observation
  rw [getElem?_append_right (by simp)] at found
  cases rest with
  | nil => cases found
  | cons o rest =>
    have same : o = e.observation := by simpa using found
    rw [map_append, same, map_singleton]
    exact ⟨rest, by simp⟩

/-! ## Preparing an anchor -/

lemma witnessesAll_records (anchored : es.map Entry.observation <+: obs) :
    witnessesAll (es.map fun e => (e.record : AnchorRecord φ)) obs = true := by
  induction es generalizing obs with
  | nil => rfl
  | cons e es ih =>
    cases obs with
    | nil => exact absurd anchored (by simp)
    | cons o obs =>
      obtain ⟨rfl, rest⟩ := cons_prefix_cons.1 anchored
      have first : (e.record : AnchorRecord φ).core.witnesses e.observation = true := Entry.witnesses
      rw [witnessesAll, map_cons, zip_cons_cons, all_cons, first]
      exact ih rest

lemma prepareAnchor_cases (lawful : X.Lawful) (committed : Committed obs) (chained : Chained X 1 none none es)
    (anchored : es.map Entry.observation <+: obs) {tree anchoredAt : Text} {p : Preparation φ}
    (prepared : prepareAnchor X (logText X es) obs tree anchoredAt = .ok p) :
    (p = .anchored ∧ es.length = obs.length) ∨ ∃ o, obs[es.length]? = some o ∧ es.length + 1 = obs.length ∧
      ∀ r, p = .toSign (Entry.core ⟨o, es.getLast?.map fun e => X.sha256 (e.line X), tree, anchoredAt, r⟩)
        (Entry.tip X ⟨o, es.getLast?.map fun e => X.sha256 (e.line X), tree, anchoredAt, r⟩) := by
  have within : es.length ≤ obs.length := by
    have le := anchored.length_le
    rw [length_map] at le
    exact le
  rw [prepareAnchor] at prepared
  cases last : obs.getLast? with
  | none =>
    rw [last] at prepared
    cases prepared
  | some o =>
    rw [last, readAnchors_logText lawful chained] at prepared
    obtain ⟨anchors, read, checked⟩ := bind_eq_ok.1 prepared
    obtain rfl := Except.ok.inj read
    simp only [raiseIf_bind_eq_ok, length_map, witnessesAll_records anchored] at checked
    obtain ⟨-, -, branch⟩ := checked
    split at branch
    · exact .inl ⟨(Except.ok.inj branch).symm, ‹_›⟩
    · obtain ⟨behind, digested⟩ := raiseIf_bind_eq_ok.1 branch
      have one : es.length + 1 = obs.length := not_not.1 behind
      have found : obs[es.length]? = some o := by
        rw [← last, getLast?_eq_getElem?, ← one]
        rfl
      have previous : (logLines (logText X es)).getLast?.map X.sha256 =
          es.getLast?.map fun e => X.sha256 (e.line X) := by
        rw [logLines_logText lawful, getLast?_map, Option.map_map]
        rfl
      refine .inr ⟨o, found, one, fun r => ?_⟩
      have digest := Entry.digest_eq (X := X) (e := ⟨o, es.getLast?.map fun e => X.sha256 (e.line X), tree,
          anchoredAt, r⟩)
        (committed.each _ _ found).1.sequence
      rw [previous] at digested
      split at digested
      · cases digested
      · rename_i d eq
        have same := Except.ok.inj (eq.symm.trans digest)
        rw [← Except.ok.inj digested, same]
        rfl

/-! ## What every step keeps -/

variable {s s' : Anchoring} {l : Act}

lemma Anchoring.Inv.start : Anchoring.Inv X b v [] Anchoring.start where
  committed := ⟨fun i o found => (by cases found), .nil⟩
  chained := trivial
  log := rfl
  anchored := nil_prefix
  verified e mem := by cases mem
  kept e mem := by cases mem
  stored k body found := by cases found
  call c mem := by cases mem

lemma Anchoring.Inv.signs (lawful : X.Lawful) (inv : s.Inv X b v es)
    {tip : WitnessedTip} (honest : Honest X v s (.begin a))
    (prepared : prepareAnchor X s.log s.obs a.tree a.anchoredAt = .ok (.toSign core tip)) :
    ∃ e, Next X v s.obs es e ∧ es.length + 1 = s.obs.length ∧ e.receipt = a.receipt ∧ tip = e.tip X ∧
      sign X b core tip a.receipt = .ok ⟨e.line X, e.publication X b, .putting⟩ := by
  rw [Honest, prepared] at honest
  obtain ⟨tree, anchoredAt, receipt, verified⟩ := honest tip rfl
  rw [inv.log] at prepared
  obtain ⟨impossible, -⟩ | ⟨o, found, one, entry⟩ :=
    prepareAnchor_cases lawful inv.committed inv.chained inv.anchored prepared
  · cases impossible
  · obtain ⟨rfl, rfl⟩ := Preparation.toSign.inj (entry a.receipt)
    have previous : ∀ x ∈ es.getLast?.map fun e => X.sha256 (e.line X), Whole x := by
      intro x mem
      obtain ⟨e, -, rfl⟩ := Option.map_eq_some_iff.1 mem
      exact lawful.digest _
    have readable : Entry.Readable ⟨o, es.getLast?.map fun e => X.sha256 (e.line X), a.tree, a.anchoredAt, a.receipt⟩ :=
      ⟨(inv.committed.each _ _ found).1, previous, tree, anchoredAt, receipt⟩
    exact ⟨_, ⟨readable, found, rfl, verified⟩, one, rfl, rfl, sign_entry readable⟩

lemma Anchoring.Inv.move (inv : s.Inv X b v es) {c : Signing} {m : Move} {objects : Objects} {ph : Phase}
    (call : s.call = some c) (moved : c.publication.move s.objects c.phase m = some (objects, ph)) :
    Anchoring.Inv X b v es { s with objects, call := some { c with phase := ph } } := by
  obtain ⟨e, next, line, publication, -⟩ := inv.call c call
  refine { inv with kept := ?_, stored := ?_, call := ?_ }
  · intro e' mem
    exact Publication.move_keeps moved (inv.kept e' mem)
  · intro k body found
    obtain old | ⟨rfl, rfl⟩ := Publication.move_stored moved found
    · exact inv.stored k body old
    · rw [publication]
      exact .inr ⟨_, next.observation, rfl⟩
  · intro c' mem
    obtain rfl := Option.some.inj mem
    refine ⟨e, next, line, publication, fun returned => ?_⟩
    obtain rfl : ph = .returned := returned
    have stored := Publication.move_returned moved
    rw [publication] at stored
    exact stored

lemma Anchoring.Inv.appended (inv : s.Inv X b v es) {c : Signing} (call : s.call = some c)
    (returned : c.phase = .returned) :
    ∃ e, Anchoring.Inv X b v (es ++ [e]) { s with log := s.log ++ (c.line ++ ['\n']), call := none } := by
  obtain ⟨e, next, line, -, stored⟩ := inv.call c call
  refine ⟨e, { inv with
    chained := next.chained inv.committed inv.chained inv.anchored
    log := ?_, anchored := next.anchored inv.anchored, verified := ?_, kept := ?_, stored := ?_, call := ?_ }⟩
  · show s.log ++ (c.line ++ ['\n']) = _
    rw [inv.log, line, logText_append]
  · intro e' mem
    obtain old | new := mem_append.1 mem
    · exact inv.verified e' old
    · obtain rfl := mem_singleton.1 new
      exact next.verified
  · intro e' mem
    obtain old | new := mem_append.1 mem
    · exact inv.kept e' old
    · obtain rfl := mem_singleton.1 new
      exact stored returned
  · intro k body found
    obtain ⟨e', mem, of⟩ | ⟨o, next_o, rfl⟩ := inv.stored k body found
    · exact .inl ⟨e', mem_append_left _ mem, of⟩
    · -- what lay under the key of this observation is what has just been published
      obtain rfl := Option.some.inj (next_o.symm.trans next.observation)
      exact .inl ⟨e, by simp, rfl, Option.some.inj (found.symm.trans (stored returned))⟩
  · intro c' mem
    cases mem

lemma Anchoring.Inv.commit (inv : s.Inv X b v es) {o : CommittedObservation} (follows : Follows s.obs o)
    (honest : Honest X v s (.commit o)) : Anchoring.Inv X b v es { s with obs := s.obs ++ [o] } := by
  have kept {i : Nat} {o' : CommittedObservation} (found : s.obs[i]? = some o') : (s.obs ++ [o])[i]? = some o' := by
    obtain ⟨bound, -⟩ := List.getElem?_eq_some_iff.1 found
    rw [getElem?_append_left bound]
    exact found
  refine { inv with
    committed := inv.committed.concat follows honest.1 honest.2.1 honest.2.2
    anchored := inv.anchored.trans (prefix_append _ _), stored := ?_, call := ?_ }
  · intro k body found
    obtain known | ⟨o', next, rfl⟩ := inv.stored k body found
    · exact .inl known
    · exact .inr ⟨o', kept next, rfl⟩
  · intro c call
    obtain ⟨e, next, rest⟩ := inv.call c call
    exact ⟨e, { next with observation := kept next.observation }, rest⟩

/-- A step keeps the invariant, of the same anchors or of one more. -/
theorem Anchoring.Inv.step (lawful : X.Lawful) (inv : ∃ es, s.Inv X b v es) (honest : Honest X v s l)
    (step : (anchoring X b).step s l = some s') : ∃ es, s'.Inv X b v es := by
  obtain ⟨es, inv⟩ := inv
  obtain ⟨o, rfl, follows, rfl⟩ | ⟨a, rfl, -, rfl | ⟨core, tip, c, prepared, signed, rfl⟩⟩ |
    ⟨m, c, objects, ph, rfl, call, moved, rfl⟩ | ⟨c, rfl, call, returned, rfl⟩ | ⟨rfl, rfl⟩ := step_cases step
  · exact ⟨es, inv.commit follows honest⟩
  · exact ⟨es, inv⟩
  · obtain ⟨e, next, -, -, -, as_signed⟩ := inv.signs lawful honest prepared
    obtain rfl := Except.ok.inj (signed.symm.trans as_signed)
    refine ⟨es, { inv with call := ?_ }⟩
    intro c' mem
    obtain rfl := Option.some.inj mem
    exact ⟨e, next, rfl, rfl, fun returned => by cases returned⟩
  · exact ⟨es, inv.move call moved⟩
  · obtain ⟨e, inv⟩ := inv.appended call returned
    exact ⟨_, inv⟩
  · refine ⟨es, { inv with call := ?_ }⟩
    intro c mem
    cases mem

/-! ## What verifies -/

variable {C : Coercions φ}

def Entry.pair (X : Codec φ) (e : Entry) : WitnessedTip × SignedReceipt := (e.tip X, e.receipt)

lemma forAll_ok {α : Type} {f : α → Except AnchorFailure Unit} {l : List α} (ok : ∀ a ∈ l, f a = .ok ()) :
    forAll f l = .ok () := by
  induction l with
  | nil => rfl
  | cons a l ih =>
    rw [forAll, ok a mem_cons_self]
    exact ih fun a' mem => ok a' (mem_cons_of_mem a mem)

lemma eq_of_increasing {α β : Type} [LinearOrder β] {f : α → β} {l : List α}
    (increasing : l.Pairwise fun a a' => f a < f a') {a a' : α} (mem : a ∈ l) (mem' : a' ∈ l) (same : f a = f a') :
    a = a' := by
  obtain ⟨m, bound, rfl⟩ := getElem_of_mem mem
  obtain ⟨n, bound', rfl⟩ := getElem_of_mem mem'
  have ordered := pairwise_iff_getElem.1 increasing
  obtain lt | rfl | gt := lt_trichotomy m n
  · exact absurd same (ordered m n bound bound' lt).ne
  · rfl
  · exact absurd same (ordered n m bound' bound gt).ne'

lemma Anchoring.Inv.objects_anchored (inv : s.Inv X b v es) (all : es.length = s.obs.length) {k : Text}
    {body : List Char} (found : s.objects.get k = some body) : ∃ e ∈ es, k = e.key b ∧ body = e.body X := by
  obtain known | ⟨o, next, -⟩ := inv.stored k body found
  · exact known
  · rw [all, getElem?_eq_none le_rfl] at next
    cases next

lemma Anchoring.Inv.readAll_eq (lawful : X.Lawful) (inv : s.Inv X b v es) (all : es.length = s.obs.length)
    (pages : s.obs.length ≤ maxListPages * b.pageSize) :
    readAll X.floats C b s.objects = .ok (es.map (Entry.pair X)) := by
  have readable : ∀ e ∈ es, e.Readable := fun e mem => (inv.chained.sequences e mem).1
  have recorded : Recorded X.floats b s.objects (es.map (Entry.pair X)) := by
    intro k body found
    obtain ⟨e, mem, key, payload⟩ := inv.objects_anchored all found
    exact ⟨e.pair X, mem_map_of_mem mem, (readable e mem).tip lawful, (readable e mem).receipt, key, payload⟩
  have dated : Dated (es.map (Entry.pair X)) := by
    intro p mem q mem' same
    obtain ⟨e, mem_e, rfl⟩ := mem_map.1 mem
    obtain ⟨e', mem_e', rfl⟩ := mem_map.1 mem'
    have same : e.observation.sequence = e'.observation.sequence := Int.ofNat_inj.1 same
    rw [eq_of_increasing inv.chained.increasing mem_e mem_e' same]
  have few : s.objects.entries.length ≤ maxListPages * b.pageSize := by
    have keys : s.objects.entries.map Prod.fst ⊆ es.map (Entry.key b) := by
      intro k mem
      obtain ⟨entry, mem_entry, rfl⟩ := mem_map.1 mem
      obtain ⟨e, mem_e, key, -⟩ := inv.objects_anchored all (Dict.get_of_mem_entries mem_entry)
      exact key ▸ mem_map_of_mem mem_e
    have le := (subperm_of_subset s.objects.nodup keys).length_le
    rw [length_map, length_map] at le
    omega
  obtain ⟨records, read, increasing, given, -, stored⟩ := readAll_recorded (C := C) lawful.floats recorded dated few
  have same : records = es.map (Entry.pair X) := by
    let below (p q : WitnessedTip × SignedReceipt) : Prop := p.1.sequence < q.1.sequence
    have irrefl : Std.Irrefl below := ⟨fun p => lt_irrefl p.1.sequence⟩
    have antisymm : Std.Antisymm below := ⟨fun p q lt gt => absurd (lt_trans lt gt) (lt_irrefl p.1.sequence)⟩
    apply List.Pairwise.eq_of_mem_iff (r := below) increasing
    · rw [pairwise_map]
      exact inv.chained.increasing.imp fun lt => Int.ofNat_lt.2 lt
    · intro p
      refine ⟨given p, fun mem => ?_⟩
      obtain ⟨e, mem_e, rfl⟩ := mem_map.1 mem
      exact stored _ ((readable e mem_e).tip lawful) (readable e mem_e).receipt (inv.kept e mem_e)
  rw [read, same]

/-- Where every observation is anchored, the three chains agree. -/
theorem Anchoring.Inv.consistent (lawful : X.Lawful) (inv : s.Inv X b v es) (all : es.length = s.obs.length)
    (pages : s.obs.length ≤ maxListPages * b.pageSize) : s.Consistent X C b v := by
  have readable : ∀ e ∈ es, e.Readable := fun e mem => (inv.chained.sequences e mem).1
  have digests : ∀ e ∈ es, (e.record : AnchorRecord φ).core.digest X = .ok (e.digest X) := fun e mem =>
    Entry.digest_eq (readable e mem).observation.sequence
  have matched : assertMatchesObservations (es.map fun e => (e.record : AnchorRecord φ)) s.obs = .ok () := by
    rw [assertMatchesObservations]
    simp [raiseIf, all, witnessesAll_records inv.anchored, Bind.bind, Except.bind]
  have signatures : forAll (verifyLocal X v) (es.map fun e => e.record) = .ok () := by
    apply forAll_ok
    intro r mem
    obtain ⟨e, mem_e, rfl⟩ := mem_map.1 mem
    rw [verifyLocal, digests e mem_e]
    exact inv.verified e mem_e
  have compared : forAll (fun p => compareExternal X v p.1 p.2)
      ((es.map (Entry.pair X)).zip (es.map fun e => e.record)) = .ok () := by
    apply forAll_ok
    intro p mem
    rw [zip_map', mem_map] at mem
    obtain ⟨e, mem_e, rfl⟩ := mem
    have receipt := serializeReceipt_eq (F := X.floats) (readable e mem_e).receipt.version
    have own : compareExternal X v (e.pair X) e.record =
        verifyReceipt X.floats X.sha256 v (e.tip X).fields e.receipt := by
      have commit : eqOptional (some (e.pair X).1.commitSha256) (e.record : AnchorRecord φ).core.commitSha256 = true :=
        decide_eq_true rfl
      have text : serializeReceipt X.floats (e.pair X).2 = .ok (receiptText X.floats e.receipt) := receipt
      have text' : serializeReceipt X.floats (e.record : AnchorRecord φ).witnessReceipt =
          .ok (receiptText X.floats e.receipt) := receipt
      have digest : (e.pair X).1.anchorSha256 = e.digest X := rfl
      rw [compareExternal, digests e mem_e, text, text']
      simp [commit, digest, raiseIf, Bind.bind, Except.bind]
      rfl
    rw [own]
    exact inv.verified e mem_e
  refine ⟨es.map fun e => e.record, ?_⟩
  rw [verifyAnchorConsistency, inv.log, readAnchors_logText lawful inv.chained, inv.readAll_eq lawful all pages]
  show (do
    assertMatchesObservations _ _
    assertWitnessed X v _ _
    return _) = _
  rw [matched, assertWitnessed, signatures]
  simp [Bind.bind, Except.bind, raiseIf, compared, pure, Except.pure]

/-! ## A run that follows a crash -/

lemma Anchoring.moves {c : Signing} {ms : List Move} (inv : s.Inv X b v es) (call : s.call = some c)
    (run : (anchoring X b).run s (ms.map .publish) = some s') :
    ∃ objects ph, s' = { s with objects, call := some { c with phase := ph } } ∧ s'.Inv X b v es ∧
      (∀ k body, s.objects.get k = some body → objects.get k = some body) ∧
      ((∃ body, s.objects.get c.publication.key = some body) → objects = s.objects) := by
  induction ms generalizing s c with
  | nil =>
    obtain rfl := Option.some.inj run
    refine ⟨s.objects, c.phase, ?_, inv, fun k body found => found, fun _ => rfl⟩
    rw [← call]
  | cons m ms ih =>
    obtain ⟨u, step, rest⟩ := run_cons.1 run
    obtain ⟨o, impossible, -⟩ | ⟨a, impossible, -⟩ | ⟨m', c', objects, ph, same, call', moved, rfl⟩ |
      ⟨c', impossible, -⟩ | ⟨impossible, -⟩ := step_cases step
    · cases impossible
    · cases impossible
    · obtain rfl := Option.some.inj (call.symm.trans call')
      obtain rfl := Act.publish.inj same
      obtain ⟨objects', ph', rfl, inv', keeps, taken⟩ := ih (inv.move call moved) rfl rest
      refine ⟨objects', ph', rfl, inv', ?_, ?_⟩
      · intro k body found
        exact keeps k body (Publication.move_keeps moved found)
      · intro ⟨body, found⟩
        rw [taken ⟨body, Publication.move_keeps moved found⟩]
        obtain ⟨-, -, -, free, -⟩ | ⟨-, -, -, -, -, rfl, -⟩ | ⟨-, -, -, -, rfl, -⟩ | ⟨rfl, -⟩ :=
          Publication.move_cases moved
        · rw [free] at found
          cases found
        · rfl
        · rfl
        · rfl
    · cases impossible
    · cases impossible

lemma Anchoring.Inv.begins (lawful : X.Lawful) (inv : s.Inv X b v es) (idle : s.call = none)
    (honest : Honest X v s (.begin a)) {tip : WitnessedTip}
    (prepared : prepareAnchor X s.log s.obs a.tree a.anchoredAt = .ok (.toSign core tip)) :
    ∃ e u, Next X v s.obs es e ∧ es.length + 1 = s.obs.length ∧ e.receipt = a.receipt ∧ tip = e.tip X ∧
      u = { s with call := some ⟨e.line X, e.publication X b, .putting⟩ } ∧ u.Inv X b v es ∧
      (anchoring X b).step s (.begin a) = some u := by
  obtain ⟨e, next, one, receipt, same, signed⟩ := inv.signs (b := b) lawful honest prepared
  refine ⟨e, _, next, one, receipt, same, rfl, { inv with call := ?_ }, ?_⟩
  · intro c mem
    obtain rfl := Option.some.inj mem
    exact ⟨e, next, rfl, rfl, fun returned => by cases returned⟩
  · simp only [anchoring, idle, prepared, signed]

lemma Anchoring.Inv.completed (lawful : X.Lawful) (inv : s.Inv X b v es)
    (idle : s.call = none) (honest : Honest X v s (.begin a)) {tip : WitnessedTip}
    (prepared : prepareAnchor X s.log s.obs a.tree a.anchoredAt = .ok (.toSign core tip))
    (completes : s.Completes X b a s') :
    (∃ es', s'.Inv X b v es' ∧ es'.length = s'.obs.length) ∧ s'.obs = s.obs ∧ ∀ body,
      s.objects.get (keyFor b tip.sequence tip.sessionDate) = some body →
      body = payloadText X.floats tip a.receipt := by
  obtain ⟨e, u, next, one, receipt, rfl, rfl, begun, step⟩ := inv.begins lawful idle honest prepared
  obtain ⟨ms, run⟩ := completes
  rw [cons_append, run_cons, step] at run
  obtain ⟨u, same, run⟩ := run
  obtain rfl := Option.some.inj same
  obtain ⟨u, moved, last⟩ := run_append.1 run
  obtain ⟨objects, ph, rfl, sent, keeps, -⟩ := moves begun rfl moved
  obtain ⟨w, append, finished⟩ := run_cons.1 last
  obtain rfl := Option.some.inj finished
  obtain ⟨o, impossible, -⟩ | ⟨a', impossible, -⟩ | ⟨m', c', objects', ph', impossible, -⟩ |
    ⟨c, -, call, returned, rfl⟩ | ⟨impossible, -⟩ := step_cases append
  · cases impossible
  · cases impossible
  · cases impossible
  · obtain ⟨e', done⟩ := sent.appended call returned
    refine ⟨⟨_, done, ?_⟩, rfl, ?_⟩
    · rw [length_append]
      exact one
    intro body found
    obtain rfl := Option.some.inj call
    obtain ⟨e₀, -, -, same, stored⟩ := sent.call _ rfl
    have key : e.key b = e₀.key b := congrArg Publication.key same
    have published : e.body X = e₀.body X := congrArg Publication.body same
    have kept := keeps _ _ found
    rw [← receipt]
    refine Option.some.inj (kept.symm.trans ?_)
    show objects.get (e.key b) = some (e.body X)
    rw [key, published]
    exact stored returned
  · cases impossible

lemma Anchoring.Inv.goes_through (lawful : X.Lawful) (inv : s.Inv X b v es) (idle : s.call = none)
    (honest : Honest X v s (.begin a)) {tip : WitnessedTip}
    (prepared : prepareAnchor X s.log s.obs a.tree a.anchoredAt = .ok (.toSign core tip))
    (free : s.objects.get (keyFor b tip.sequence tip.sessionDate) = none ∨
      s.objects.get (keyFor b tip.sequence tip.sessionDate) = some (payloadText X.floats tip a.receipt)) :
    ∃ s', s.Completes X b a s' := by
  obtain ⟨e, u, -, -, receipt, rfl, rfl, -, step⟩ := inv.begins (b := b) lawful idle honest prepared
  rw [← receipt] at free
  obtain none | same := free
  · have put : putObject s.objects (e.publication X b).key (e.publication X b).body =
        (s.objects.set (e.key b) (e.body X), true) := putObject_free none
    refine ⟨{ s with
      objects := s.objects.set (e.key b) (e.body X), log := s.log ++ (e.line X ++ ['\n']), call := .none },
      [.put true], run_cons.2 ⟨_, step, ?_⟩⟩
    simp [Machine.run, anchoring, Publication.move, put]
  · have put : putObject s.objects (e.publication X b).key (e.publication X b).body = (s.objects, false) :=
      putObject_taken same
    have read : s.objects.get (e.publication X b).key = some (e.publication X b).body := same
    refine ⟨{ s with log := s.log ++ (e.line X ++ ['\n']), call := none }, [.put true, .compare],
      run_cons.2 ⟨_, step, ?_⟩⟩
    simp [Machine.run, anchoring, Publication.move, put, read]

lemma Anchoring.Inv.refused (lawful : X.Lawful) (inv : s.Inv X b v es) (idle : s.call = none)
    (honest : Honest X v s (.begin a)) {tip : WitnessedTip}
    (prepared : prepareAnchor X s.log s.obs a.tree a.anchoredAt = .ok (.toSign core tip)) {body : List Char}
    (found : s.objects.get (keyFor b tip.sequence tip.sessionDate) = some body)
    (other : body ≠ payloadText X.floats tip a.receipt) :
    (∀ (ms : List Move) s', (anchoring X b).run s (.begin a :: ms.map .publish) = some s' →
      s'.objects = s.objects ∧ s'.log = s.log) ∧
    ∃ s' c, (anchoring X b).run s [.begin a, .publish (.put true), .publish .compare] = some s' ∧ s'.call = some c ∧
      c.phase = .diverges := by
  obtain ⟨e, u, -, -, receipt, rfl, rfl, begun, step⟩ := inv.begins lawful idle honest prepared
  rw [← receipt] at other
  constructor
  · intro ms s' run
    obtain ⟨w, again, moved⟩ := run_cons.1 run
    obtain rfl := Option.some.inj (step.symm.trans again)
    obtain ⟨objects, ph, rfl, -, -, taken⟩ := moves begun rfl moved
    exact ⟨taken ⟨body, found⟩, rfl⟩
  · have put : putObject s.objects (e.publication X b).key (e.publication X b).body = (s.objects, false) :=
      putObject_taken found
    have read : s.objects.get (e.publication X b).key = some body := found
    have differs : body ≠ (e.publication X b).body := other
    rw [Machine.run, step]
    simp [Machine.run, anchoring, Publication.move, put, read, differs]

/-! ## The claim -/

/-- One record for every call that has returned, each the tip and the receipt of a call, in increasing order of the
sequences. -/
def Traffic.Faithful (F : Floats φ) (C : Coercions φ) (b : Bucket) (s : Traffic) : Prop :=
  ∃ records, readAll F C b s.objects = .ok records ∧
    records.Pairwise (fun r r' => r.1.sequence < r'.1.sequence) ∧ (∀ r ∈ records, r ∈ s.given) ∧
      ∀ c ∈ s.calls, c.2 = .returned → (c.1.tip, c.1.receipt) ∈ records

/-- What a further run can do: where the tip is anchored the chains agree; where its anchor is missing the run goes
through exactly if nothing is stored for the tip or its own bytes are, the chains then agree, and else it changes
nothing and is refused. -/
def Anchoring.Recovers (X : Codec φ) (C : Coercions φ) (b : Bucket) (v : AnchorVerifier) (s : Anchoring) (a : Request) :
    Prop :=
  match prepareAnchor X s.log s.obs a.tree a.anchoredAt with
  | .ok .anchored => s.Consistent X C b v
  | .ok (.toSign _ tip) =>
    let stored := s.objects.get (keyFor b tip.sequence tip.sessionDate)
    let body := payloadText X.floats tip a.receipt
    ((∃ s', s.Completes X b a s') ↔ stored = none ∨ stored = some body) ∧
      (∀ s', s.Completes X b a s' → s'.Consistent X C b v) ∧
      ∀ other, stored = some other → other ≠ body →
        (∀ (ms : List Move) s', (anchoring X b).run s (.begin a :: ms.map .publish) = some s' →
          s'.objects = s.objects ∧ s'.log = s.log) ∧
        ∃ s' c, (anchoring X b).run s [.begin a, .publish (.put true), .publish .compare] = some s' ∧
          s'.call = some c ∧ c.phase = .diverges
  | .error _ => True

lemma Traffic.Inv.faithful {F : Floats φ} {s : Traffic} (lawful : F.Lawful) (inv : s.Inv F b)
    (readable : ∀ c ∈ s.given, c.1.Readable ∧ c.2.Readable) (dated : Dated s.given)
    (pages : s.objects.entries.length ≤ maxListPages * b.pageSize) : s.Faithful F C b := by
  obtain ⟨records, read, increasing, given, -, stored⟩ :=
    readAll_recorded (C := C) lawful (inv.recorded readable) dated pages
  refine ⟨records, read, increasing, given, ?_⟩
  intro c mem returned
  obtain ⟨tip, receipt⟩ := readable _ (mem_map.2 ⟨c, mem, rfl⟩)
  obtain ⟨-, -, key, payload⟩ := Publication.of_ok (inv.made c mem)
  rw [canonicalPayload_eq tip.sequence receipt.version] at payload
  have found := inv.returned c mem returned
  rw [← Except.ok.inj payload, key] at found
  exact stored _ tip receipt found

def Traffic.increasing (F : Floats φ) (C : Coercions φ) (b : Bucket) (s : Traffic) : Bool :=
  match readAll F C b s.objects with
  | .ok records => records.Pairwise fun r r' => r.1.sequence < r'.1.sequence
  | .error _ => false

lemma Traffic.not_faithful {F : Floats φ} {s : Traffic} (no : s.increasing F C b = false) : ¬ s.Faithful F C b := by
  intro ⟨records, read, increasing, _⟩
  rw [Traffic.increasing, read] at no
  exact absurd increasing (of_decide_eq_false no)

def Traffic.clashes (s : Traffic) : Bool :=
  decide (∃ c ∈ s.calls, ∃ c' ∈ s.calls, c.2 = .returned ∧ c'.2 = .returned ∧
    c.1.tip.sequence = c'.1.tip.sequence ∧ c.1.tip ≠ c'.1.tip)

lemma Traffic.not_faithful_of_clashes {F : Floats φ} {s : Traffic} (clashes : s.clashes = true) :
    ¬ s.Faithful F C b := by
  intro ⟨records, read, increasing, _, recorded⟩
  obtain ⟨c, mem, c', mem', returned, returned', same, differ⟩ := of_decide_eq_true clashes
  exact differ (congrArg Prod.fst
    (eq_of_increasing increasing (recorded c mem returned) (recorded c' mem' returned') same))

def Anchoring.blocked (X : Codec φ) (b : Bucket) (s : Anchoring) (a : Request) : Bool :=
  (toBeSigned (prepareAnchor X s.log s.obs a.tree a.anchoredAt)).any fun tip =>
    (s.objects.get (keyFor b tip.sequence tip.sessionDate)).any fun body =>
      body ≠ payloadText X.floats tip a.receipt

lemma Anchoring.Inv.stuck (lawful : X.Lawful) (inv : s.Inv X b v es) (idle : s.call = none)
    (honest : Honest X v s (.begin a)) (blocked : s.blocked X b a = true) : ¬ s.Completes X b a s' := by
  intro completes
  obtain ⟨tip, signs, differs⟩ := (Option.any_eq_true _ _).1 blocked
  obtain ⟨body, found, other⟩ := (Option.any_eq_true _ _).1 differs
  cases prepared : prepareAnchor X s.log s.obs a.tree a.anchoredAt with
  | error failure =>
    rw [prepared] at signs
    cases signs
  | ok p =>
    rw [prepared] at signs
    cases p with
    | anchored => cases signs
    | toSign core tip' =>
      obtain rfl := Option.some.inj signs
      exact of_decide_eq_true other ((inv.completed lawful idle honest prepared completes).2.2 body found)

lemma Anchoring.Inv.recovers (lawful : X.Lawful) (inv : s.Inv X b v es) (idle : s.call = none)
    (honest : Honest X v s (.begin a)) (pages : s.obs.length ≤ maxListPages * b.pageSize) : s.Recovers X C b v a := by
  unfold Anchoring.Recovers
  split
  · rename_i prepared
    rw [inv.log] at prepared
    obtain ⟨-, all⟩ | ⟨o, -, -, entry⟩ :=
      prepareAnchor_cases lawful inv.committed inv.chained inv.anchored prepared
    · exact inv.consistent lawful all pages
    · cases entry a.receipt
  · rename_i core tip prepared
    refine ⟨⟨?_, inv.goes_through lawful idle honest prepared⟩, ?_, ?_⟩
    · intro ⟨s', completes⟩
      have own := (inv.completed lawful idle honest prepared completes).2.2
      cases found : s.objects.get (keyFor b tip.sequence tip.sessionDate) with
      | none => exact .inl rfl
      | some body =>
        rw [own body found]
        exact .inr rfl
    · intro s' completes
      obtain ⟨⟨es', inv', all⟩, obs, -⟩ := inv.completed lawful idle honest prepared completes
      exact inv'.consistent lawful all (obs ▸ pages)
    · intro other found differs
      exact inv.refused lawful idle honest prepared found differs
  · trivial

/-- The sink is a faithful log of the calls that were made on it, by any number of writers, and what a run of
`append_anchor` can do after any runs that were cut short. -/
theorem witness_log (lawful : X.Lawful) :
    (∀ (es : List Event) (s : Traffic), (traffic X.floats b).run Traffic.start es = some s →
      (∀ (es' : List Event) (s' : Traffic) (k : Text) (body : List Char), (traffic X.floats b).run s es' = some s' →
        s.objects.get k = some body → s'.objects.get k = some body) ∧
      ((∀ c ∈ s.given, c.1.Readable ∧ c.2.Readable) → Dated s.given →
        s.objects.entries.length ≤ maxListPages * b.pageSize → s.Faithful X.floats C b)) ∧
    ∀ (ls : List Act) (s : Anchoring), (anchoring X b).run Anchoring.start ls = some s →
      (anchoring X b).Meets (Honest X v) Anchoring.start ls → s.obs.length ≤ maxListPages * b.pageSize →
      s.call = none → ∀ a : Request, Honest X v s (.begin a) → s.Recovers X C b v a := by
  constructor
  · intro es s run
    refine ⟨fun es' s' k body more found => Traffic.run_keeps more found, fun readable dated pages => ?_⟩
    exact (Traffic.run_inv run).faithful lawful.floats readable dated pages
  · intro ls s run honest pages idle a may
    obtain ⟨es, inv⟩ := run_invariant (I := fun s => ∃ es, Anchoring.Inv X b v es s)
      (fun inv honest step => Anchoring.Inv.step lawful inv honest step) ⟨[], Anchoring.Inv.start⟩ honest run
    exact inv.recovers lawful idle may pages

end

/-! ## Runs that were cut short -/

instance {s : Text} : Decidable (Whole s) := inferInstanceAs (Decidable (s.joined = s))

instance {n : Int} : Decidable (Short n) := inferInstanceAs (Decidable (_ ≤ _))

instance {r : SignedReceipt} : Decidable r.Readable :=
  decidable_of_iff (Short r.protocolVersion ∧ Whole r.algorithm ∧ Whole r.keyId ∧ Whole r.publicKeyFingerprint ∧
      Whole r.messageDigest ∧ Whole r.signature ∧ Whole r.signedAt ∧ Whole r.witnessIdentity ∧
      signedAtReadable r.signedAt = true)
    ⟨fun ⟨a, b, c, d, e, f, g, h, i⟩ => ⟨a, b, c, d, e, f, g, h, i⟩,
      fun ⟨a, b, c, d, e, f, g, h, i⟩ => ⟨a, b, c, d, e, f, g, h, i⟩⟩

instance {tip : WitnessedTip} : Decidable tip.Readable :=
  decidable_of_iff (Short tip.sequence ∧ Whole tip.sessionDate ∧ Whole tip.commitSha256 ∧ Whole tip.anchorSha256)
    ⟨fun ⟨a, b, c, d⟩ => ⟨a, b, c, d⟩, fun ⟨a, b, c, d⟩ => ⟨a, b, c, d⟩⟩

instance {X : Codec φ} {v : AnchorVerifier} : ∀ {s : Anchoring} {l : Act}, Decidable (Honest X v s l)
  | _, .commit _ => inferInstanceAs (Decidable (_ ∧ _ ∧ _))
  | _, .begin _ => inferInstanceAs (Decidable (∀ tip ∈ toBeSigned _, _))
  | _, .publish _ => inferInstanceAs (Decidable True)
  | _, .append => inferInstanceAs (Decidable True)
  | _, .crash => inferInstanceAs (Decidable True)

instance {given : List (WitnessedTip × SignedReceipt)} : Decidable (Dated given) :=
  inferInstanceAs (Decidable (∀ p ∈ given, ∀ q ∈ given, _ → _))

/-- SHA-256 and no float but `inf`. -/
def sha256Codec : Codec Unit := ⟨Floats.infinite, Sha256.hexdigest, fun _ _ => none⟩

def sampleBucket : Bucket := ⟨t "witness", 1000⟩

/-- `int(v)` and `str(v)` are not reached. -/
def noCoercions : Coercions Unit := ⟨fun _ => none, fun _ => []⟩

def sampleIdentity : WitnessSigningIdentity := ⟨2, t "ED25519", t "key-1", t "fingerprint-1"⟩

def sampleSignature (envelope : List Char) : Text := ofChars (envelope.reverse.take 40)

def sampleVerifier : AnchorVerifier := ⟨sampleIdentity, fun envelope signature => signature = sampleSignature envelope⟩

def sampleReceipt (tip : WitnessedTip) (signedAt : Text) : SignedReceipt :=
  let envelope := envelopeDomainPrefix ++ (envelopeDoc tip.fields sampleIdentity).text Floats.infinite .compact
  ⟨2, t "ED25519", t "key-1", t "fingerprint-1", Sha256.hexdigest envelope, sampleSignature envelope, signedAt,
    t "witness-1"⟩

def firstObservation : CommittedObservation := ⟨1, t "2026-01-05", t "commit-1", none⟩

def requestAt (time : Text) : Request :=
  let tip := Entry.tip sha256Codec ⟨firstObservation, none, t "tree-1", time, sampleReceipt ⟨0, [], [], []⟩ time⟩
  ⟨t "tree-1", time, sampleReceipt tip time⟩

def crashedRun : List Act :=
  [.commit firstObservation, .begin (requestAt (t "2026-01-05T22:00:00Z")), .publish (.put true), .crash]

lemma digitChar_lt {n : Nat} : (Nat.digitChar n).toNat < 55296 := by
  have hexadecimal : ∀ m < 16, (Nat.digitChar m).toNat < 55296 := by decide
  obtain lt | ge := lt_or_ge n 16
  · exact hexadecimal n lt
  · have star : Nat.digitChar n = '*' := by
      rw [Nat.digitChar]
      repeat rw [if_neg (by omega)]
    rw [star]
    decide

lemma hexdigest_whole {cs : List Char} : Whole (Sha256.hexdigest cs) := by
  apply Text.joined_eq
  intro c mem
  obtain ⟨d, mem_d, rfl⟩ := mem_map.1 mem
  rw [toNat_ofNat_val]
  obtain ⟨w, -, mem_w⟩ := mem_flatMap.1 mem_d
  obtain ⟨byte, -, mem_byte⟩ := mem_flatMap.1 mem_w
  simp only [mem_cons, not_mem_nil, or_false] at mem_byte
  obtain rfl | rfl := mem_byte
  · exact digitChar_lt
  · exact digitChar_lt

lemma lawful_sha256Codec : sha256Codec.Lawful := ⟨Floats.lawful_infinite, fun _ => hexdigest_whole⟩

def twoTips : List Event :=
  [.publish ⟨1, t "2026-01-05", t "commit-1", t "anchor-1"⟩ (sampleReceipt ⟨1, [], [], []⟩ (t "2026-01-05T22:00:00Z")),
    .publish ⟨2, t "2026-01-06", t "commit-2", t "anchor-2"⟩ (sampleReceipt ⟨2, [], [], []⟩ (t "2026-01-06T22:00:00Z")),
    .move 1 (.put false), .move 0 (.put true), .move 1 (.put true), .move 1 .compare]

def sameRequest : Request := requestAt (t "2026-01-05T22:00:00Z")

def laterRequest : Request := requestAt (t "2026-01-05T22:05:00Z")

/-- What is constant in the answers of the signer reads back. -/
lemma sample_reads :
    (Short 1 ∧ Short 2) ∧ (Whole (t "ED25519") ∧ Whole (t "key-1") ∧ Whole (t "fingerprint-1") ∧
      Whole (t "witness-1")) ∧ (Whole (t "2026-01-05") ∧ Whole (t "commit-1") ∧ Whole (t "tree-1")) ∧
      (Whole (t "2026-01-05T22:00:00Z") ∧ signedAtReadable (t "2026-01-05T22:00:00Z") = true) ∧
      (Whole (t "2026-01-05T22:05:00Z") ∧ signedAtReadable (t "2026-01-05T22:05:00Z") = true) ∧
      t "2026-01-05T22:00:00Z" ≠ t "2026-01-05T22:05:00Z" ∧ Follows [] firstObservation ∧
      ([t "algorithm", t "anchor_sha256", t "commit_sha256", t "key_id", t "protocol_version",
        t "public_key_fingerprint", t "sequence", t "session_date"] : List Text).Pairwise (· < ·) := by
  decide +kernel

lemma sampleReceipt_verifies {tip : WitnessedTip} {time : Text} (short : Short tip.sequence) :
    verifyReceipt sha256Codec.floats sha256Codec.sha256 sampleVerifier tip.fields (sampleReceipt tip time) =
      .ok () := by
  obtain ⟨⟨-, version⟩, -, -, -, -, -, -, keys⟩ := sample_reads
  have ordered : (envelopeDoc tip.fields sampleIdentity : Doc Unit).ordered = true := by
    simp [envelopeDoc, WitnessedTip.fields, Doc.ordered, Doc.orderedFields, -List.pairwise_cons, keys]
  have fits : (envelopeDoc tip.fields sampleIdentity : Doc Unit).fits = true := by
    simp only [envelopeDoc, WitnessedTip.fields, Doc.fits, Doc.fitsFields, Bool.true_and, Bool.and_true,
      Bool.and_eq_true, decide_eq_true_eq]
    exact ⟨version, short⟩
  have envelope : buildWitnessEnvelope Floats.infinite tip.fields sampleIdentity =
      .ok (envelopeDomainPrefix ++ (envelopeDoc tip.fields sampleIdentity).text Floats.infinite .compact) := by
    rw [buildWitnessEnvelope, canonical_of_ordered ordered fits]
    rfl
  simp only [verifyReceipt, raiseIf_bind_eq_ok]
  refine ⟨by simp [sampleReceipt], by simp [sampleReceipt, allowlistedAlgorithms], not_not.2 rfl, not_not.2 rfl,
    not_not.2 rfl, ?_⟩
  simp only [sha256Codec, sampleVerifier, envelope]
  simp [sampleReceipt]

lemma sampleReceipt_readable {tip : WitnessedTip} {time : Text} (whole : Whole time)
    (timestamp : signedAtReadable time = true) : (sampleReceipt tip time).Readable where
  version := sample_reads.1.2
  algorithm := sample_reads.2.1.1
  keyId := sample_reads.2.1.2.1
  fingerprint := sample_reads.2.1.2.2.1
  digest := hexdigest_whole
  signature := by
    apply Text.joined_eq
    intro c mem
    obtain ⟨d, last, rfl⟩ := mem_map.1 mem
    have header : ∀ c ∈ envelopeDomainPrefix, c.toNat < 55296 := by
      unfold envelopeDomainPrefix
      simp
    have small : d.toNat < 55296 := by
      obtain first | plain := mem_append.1 (mem_reverse.1 (take_subset _ _ last))
      · exact header d first
      · have := Doc.plain_text Floats.lawful_infinite d plain
        omega
    rw [toNat_ofNat_val]
    exact small
  signedAt := whole
  identity := sample_reads.2.1.2.2.2
  timestamp := timestamp

/-- The anchor of the first observation, with the answer of the signer. -/
def firstEntry (time : Text) : Entry := ⟨firstObservation, none, t "tree-1", time, (requestAt time).receipt⟩

section
variable {φ : Type} {time : Text} {s : Anchoring}

/-- The tip of an anchor is not of its receipt. -/
lemma tip_receipt {X : Codec φ} {o : CommittedObservation} {previous : Option Text} {tree : Text}
    (r r' : SignedReceipt) :
    Entry.tip X ⟨o, previous, tree, time, r⟩ = Entry.tip X ⟨o, previous, tree, time, r'⟩ := rfl

lemma firstEntry_receipt : (firstEntry time).receipt = sampleReceipt ((firstEntry time).tip sha256Codec) time :=
  congrArg (sampleReceipt · time) (tip_receipt _ _)

lemma firstEntry_readable (whole : Whole time) (timestamp : signedAtReadable time = true) :
    (firstEntry time).Readable where
  observation :=
    ⟨sample_reads.1.1, sample_reads.2.2.1.1, sample_reads.2.2.1.2.1, fun _ mem => by cases mem⟩
  previous _ mem := by cases mem
  tree := sample_reads.2.2.1.2.2
  anchoredAt := whole
  receipt := firstEntry_receipt ▸ sampleReceipt_readable whole timestamp

lemma prepareAnchor_first (log : s.log = []) (obs : s.obs = [firstObservation]) :
    prepareAnchor sha256Codec s.log s.obs (t "tree-1") time =
      .ok (.toSign (firstEntry time).core ((firstEntry time).tip sha256Codec)) := by
  have short : Short (firstEntry time).observation.sequence := sample_reads.1.1
  have digest : (newCore firstObservation none (t "tree-1") time).digest sha256Codec = _ :=
    Entry.digest_eq (X := sha256Codec) short
  have read : readAnchors sha256Codec [] = .ok [] := rfl
  have last : (logLines []).getLast?.map sha256Codec.sha256 = none := rfl
  rw [log, obs, prepareAnchor]
  simp only [getLast?_singleton, read, last, digest]
  rfl

/-- The signer answers the tip that a run signs after the first commit. -/
lemma requestAt_honest (log : s.log = []) (obs : s.obs = [firstObservation]) (whole : Whole time)
    (timestamp : signedAtReadable time = true) : Honest sha256Codec sampleVerifier s (.begin (requestAt time)) := by
  intro tip signs
  have signs : tip ∈ toBeSigned (prepareAnchor sha256Codec s.log s.obs (t "tree-1") time) := signs
  rw [prepareAnchor_first log obs] at signs
  obtain rfl := Option.some.inj signs
  have readable := firstEntry_readable whole timestamp
  refine ⟨readable.tree, whole, readable.receipt, ?_⟩
  show verifyReceipt _ _ _ _ (firstEntry time).receipt = _
  rw [firstEntry_receipt]
  exact sampleReceipt_verifies readable.observation.sequence

lemma step_firstObservation : (anchoring sha256Codec sampleBucket).step Anchoring.start (.commit firstObservation) =
    some ⟨[firstObservation], [], Dict.empty, none⟩ := by
  obtain ⟨-, -, -, -, -, -, follows, -⟩ := sample_reads
  simp only [anchoring, Anchoring.start, if_pos follows, nil_append]

/-- The publication of the first anchor is stored when the run ends. -/
lemma run_crashed (whole : Whole time) (timestamp : signedAtReadable time = true) :
    (anchoring sha256Codec sampleBucket).run Anchoring.start
        [.commit firstObservation, .begin (requestAt time), .publish (.put true), .crash] =
      some ⟨[firstObservation], [], Dict.empty.set ((firstEntry time).key sampleBucket)
        ((firstEntry time).body sha256Codec), none⟩ := by
  have prepared := @prepareAnchor_first time ⟨[firstObservation], [], Dict.empty, none⟩ rfl rfl
  have signed := sign_entry (X := sha256Codec) (b := sampleBucket) (firstEntry_readable whole timestamp)
  have begins : (anchoring sha256Codec sampleBucket).step ⟨[firstObservation], [], Dict.empty, none⟩
      (.begin (requestAt time)) = some ⟨[firstObservation], [], Dict.empty,
        some ⟨(firstEntry time).line sha256Codec, (firstEntry time).publication sha256Codec sampleBucket,
          .putting⟩⟩ := by
    have receipt : (requestAt time).receipt = (firstEntry time).receipt := rfl
    have tree : (requestAt time).tree = t "tree-1" := rfl
    have anchoredAt : (requestAt time).anchoredAt = time := rfl
    simp only [anchoring, receipt, tree, anchoredAt, prepared, signed]
  exact Machine.run_cons.2 ⟨_, step_firstObservation, Machine.run_cons.2 ⟨_, begins, rfl⟩⟩

lemma blocked_of_stored {objects : Objects} {time' : Text} {call : Option Signing} (whole : Whole time)
    (timestamp : signedAtReadable time = true) (whole' : Whole time') (timestamp' : signedAtReadable time' = true)
    (stored : objects.get ((firstEntry time).key sampleBucket) = some ((firstEntry time).body sha256Codec))
    (other : time ≠ time') :
    Anchoring.blocked sha256Codec sampleBucket ⟨[firstObservation], [], objects, call⟩ (requestAt time') = true := by
  have prepared : toBeSigned (prepareAnchor sha256Codec [] [firstObservation] (t "tree-1") time') =
      some ((firstEntry time').tip sha256Codec) :=
    congrArg toBeSigned (prepareAnchor_first (s := ⟨[firstObservation], [], objects, call⟩) rfl rfl)
  have differ : (firstEntry time).body sha256Codec ≠ (firstEntry time').body sha256Codec := by
    intro eq
    have old := firstEntry_readable whole timestamp
    have new := firstEntry_readable whole' timestamp'
    have same := payloadText_inj Floats.lawful_infinite (old.tip lawful_sha256Codec) old.receipt
      (new.tip lawful_sha256Codec) new.receipt eq
    exact other (congrArg (fun p => p.2.signedAt) same)
  rw [Anchoring.blocked]
  show ((toBeSigned (prepareAnchor sha256Codec [] [firstObservation] (t "tree-1") time')).any fun tip => _) = true
  rw [prepared, Option.any_some]
  show (Option.any _ (objects.get ((firstEntry time).key sampleBucket))) = true
  rw [stored, Option.any_some]
  exact decide_eq_true differ

end

lemma crashedRun_honest : (anchoring sha256Codec sampleBucket).Meets (Honest sha256Codec sampleVerifier)
    Anchoring.start crashedRun := by
  obtain ⟨-, -, ⟨date, commit, -⟩, ⟨whole, timestamp⟩, -⟩ := sample_reads
  refine Machine.meets_cons.2 ⟨⟨date, commit, fun _ mem => by cases mem⟩, fun s commits =>
    Machine.meets_cons.2 ⟨?_, fun _ _ => ?_⟩⟩
  · obtain rfl := Option.some.inj (step_firstObservation.symm.trans commits)
    exact requestAt_honest rfl rfl whole timestamp
  · exact Machine.meets_cons.2 ⟨trivial, fun _ _ => Machine.meets_cons.2 ⟨trivial, fun _ _ => trivial⟩⟩

lemma crashedRun_end : ∃ s, (anchoring sha256Codec sampleBucket).run Anchoring.start crashedRun = some s ∧
    s.call = none ∧ s.obs.length ≤ maxListPages * sampleBucket.pageSize ∧
    Honest sha256Codec sampleVerifier s (.begin sameRequest) ∧ Honest sha256Codec sampleVerifier s
      (.begin laterRequest) ∧ s.blocked sha256Codec sampleBucket laterRequest = true := by
  obtain ⟨-, -, -, ⟨whole, timestamp⟩, ⟨whole', timestamp'⟩, other, -⟩ := sample_reads
  refine ⟨_, run_crashed whole timestamp, rfl, by decide, ?_, ?_, ?_⟩
  · exact requestAt_honest rfl rfl whole timestamp
  · exact requestAt_honest rfl rfl whole' timestamp'
  · exact blocked_of_stored whole timestamp whole' timestamp' Dict.get_set_self other

lemma twoTips_end : ∃ s, (traffic Floats.infinite sampleBucket).run Traffic.start twoTips = some s ∧
    (∀ c ∈ s.given, c.1.Readable ∧ c.2.Readable) ∧ Dated s.given ∧
    s.objects.entries.length ≤ maxListPages * sampleBucket.pageSize := by
  have checked : ((traffic Floats.infinite sampleBucket).run Traffic.start twoTips).map (fun s =>
      decide ((∀ c ∈ s.given, c.1.Readable ∧ c.2.Readable) ∧ Dated s.given ∧
        s.objects.entries.length ≤ maxListPages * sampleBucket.pageSize)) = some true := by decide +kernel
  obtain ⟨s, run, holds⟩ := Option.map_eq_some_iff.1 checked
  exact ⟨s, run, of_decide_eq_true holds⟩

/-- The bucket after two writers is faithful, and the run that is repeated as it was goes through after a crash. -/
theorem witness_log_retried :
    (∃ s, (traffic Floats.infinite sampleBucket).run Traffic.start twoTips = some s ∧
      s.Faithful Floats.infinite noCoercions sampleBucket) ∧
    ∃ s, (anchoring sha256Codec sampleBucket).run Anchoring.start crashedRun = some s ∧
      s.Recovers sha256Codec noCoercions sampleBucket sampleVerifier sameRequest := by
  constructor
  · obtain ⟨s, run, readable, dated, pages⟩ := twoTips_end
    exact ⟨s, run, ((witness_log (v := sampleVerifier) lawful_sha256Codec).1 twoTips s run).2 readable dated pages⟩
  · obtain ⟨s, run, idle, pages, may, -⟩ := crashedRun_end
    exact ⟨s, run, (witness_log lawful_sha256Codec).2 crashedRun s run crashedRun_honest pages idle sameRequest may⟩

def twoDates : List Event :=
  [.publish ⟨1, t "2026-01-05", t "commit-1", t "anchor-1"⟩ (sampleReceipt ⟨1, [], [], []⟩ (t "2026-01-05T22:00:00Z")),
    .publish ⟨1, t "2026-01-06", t "commit-2", t "anchor-2"⟩ (sampleReceipt ⟨1, [], [], []⟩ (t "2026-01-06T22:00:00Z")),
    .move 0 (.put true), .move 1 (.put true)]

def brokenReceipt : List Event :=
  [.publish ⟨1, t "2026-01-05", t "commit-1", t "anchor-1"⟩ (sampleReceipt ⟨1, [], [], []⟩ (t "later")),
    .move 0 (.put true)]

lemma twoDates_end : ∃ s, (traffic Floats.infinite sampleBucket).run Traffic.start twoDates = some s ∧
    (∀ c ∈ s.calls, c.2 = .returned) ∧ s.clashes = true := by
  have checked : ((traffic Floats.infinite sampleBucket).run Traffic.start twoDates).map (fun s =>
      decide ((∀ c ∈ s.calls, c.2 = .returned) ∧ s.clashes = true)) = some true := by decide +kernel
  obtain ⟨s, run, holds⟩ := Option.map_eq_some_iff.1 checked
  exact ⟨s, run, of_decide_eq_true holds⟩

lemma brokenReceipt_end : ∃ s, (traffic Floats.infinite sampleBucket).run Traffic.start brokenReceipt = some s ∧
    (∀ c ∈ s.calls, c.2 = .returned) ∧ s.increasing Floats.infinite noCoercions sampleBucket = false := by
  have checked : ((traffic Floats.infinite sampleBucket).run Traffic.start brokenReceipt).map (fun s =>
      decide ((∀ c ∈ s.calls, c.2 = .returned) ∧ s.increasing Floats.infinite noCoercions sampleBucket = false)) =
        some true := by decide +kernel
  obtain ⟨s, run, holds⟩ := Option.map_eq_some_iff.1 checked
  exact ⟨s, run, of_decide_eq_true holds⟩

/-- After a crash a run of the same tip at another time cannot go through; two dates make two records of one sequence;
and a receipt that does not read back makes the sink unreadable. -/
theorem not_witness_log :
    (∃ s, (anchoring sha256Codec sampleBucket).run Anchoring.start crashedRun = some s ∧
      (anchoring sha256Codec sampleBucket).Meets (Honest sha256Codec sampleVerifier) Anchoring.start crashedRun ∧
      s.call = none ∧ Honest sha256Codec sampleVerifier s (.begin laterRequest) ∧
      ¬ ∃ s', s.Completes sha256Codec sampleBucket laterRequest s' ∧
        s'.Consistent sha256Codec noCoercions sampleBucket sampleVerifier) ∧
    (∃ s, (traffic Floats.infinite sampleBucket).run Traffic.start twoDates = some s ∧
      (∀ c ∈ s.calls, c.2 = .returned) ∧ ¬ s.Faithful Floats.infinite noCoercions sampleBucket) ∧
    ∃ s, (traffic Floats.infinite sampleBucket).run Traffic.start brokenReceipt = some s ∧
      (∀ c ∈ s.calls, c.2 = .returned) ∧ ¬ s.Faithful Floats.infinite noCoercions sampleBucket := by
  refine ⟨?_, ?_, ?_⟩
  · obtain ⟨s, run, idle, -, -, may, blocked⟩ := crashedRun_end
    obtain ⟨es, inv⟩ := run_invariant
      (I := fun s => ∃ es, Anchoring.Inv sha256Codec sampleBucket sampleVerifier es s)
      (fun inv honest step => Anchoring.Inv.step lawful_sha256Codec inv honest step) ⟨[], Anchoring.Inv.start⟩
      crashedRun_honest run
    refine ⟨s, run, crashedRun_honest, idle, may, ?_⟩
    intro ⟨s', completes, _⟩
    exact inv.stuck lawful_sha256Codec idle may blocked completes
  · obtain ⟨s, run, ended, clashes⟩ := twoDates_end
    exact ⟨s, run, ended, Traffic.not_faithful_of_clashes clashes⟩
  · obtain ⟨s, run, ended, unread⟩ := brokenReceipt_end
    exact ⟨s, run, ended, Traffic.not_faithful unread⟩

end Workbench.Validation
