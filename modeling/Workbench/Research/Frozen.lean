import Workbench.Lib.JsonText
import Workbench.Research.Capture

/-!
# A frozen capture

Once a partition has a manifest, the manifest describes the files, so that every verification passes and a
reader parses what was hashed. This holds as long as a freeze publishes what it has read and no write comes
after it: the calls look for the manifest when they begin, and access the files later.
-/

namespace Workbench.Research.Capture
open Lib List Option Dict Machine
variable {d : Disk} {m : Manifest} {sha : Bytes → String} {render : Manifest → Bytes} {ref : PartitionRef}

/-! ## What a manifest says -/

def Captured (path : String) : Prop := isTmp path = false ∧ path ≠ manifestPath

instance (path : String) : Decidable (Captured path) := inferInstanceAs (Decidable (_ ∧ _))

/-- A manifest names the partition, and has an entry for each captured file. -/
structure Describes (sha : Bytes → String) (ref : PartitionRef) (d : Disk) (m : Manifest) : Prop where
  feed : m.fields.get "feed" = some (.str ref.feed)
  session : m.fields.get "session" = some (.str ref.session)
  sound : ∀ e ∈ m.files, Captured e.path ∧ ∃ content, d.files.get e.path = some content ∧
    e = ⟨e.path, sha content, content.length⟩
  complete : ∀ path content, Captured path → d.files.get path = some content →
    ⟨path, sha content, content.length⟩ ∈ m.files

def Alike (d d' : Disk) : Prop := ∀ path, Captured path → d'.files.get path = d.files.get path

lemma Describes.congr {d' : Disk} (h : Describes sha ref d m) (alike : Alike d d') : Describes sha ref d' m := by
  refine ⟨h.feed, h.session, ?_, ?_⟩
  · intro e mem
    obtain ⟨captured, content, found, eq⟩ := h.sound e mem
    exact ⟨captured, content, (alike _ captured).trans found, eq⟩
  · intro path content captured found
    exact h.complete path content captured ((alike path captured).symm.trans found)

lemma Describes.verify (h : Describes sha ref d m) (frozen : d.manifest = some m) : verify sha render ref d = [] := by
  simp only [Capture.verify, frozen]
  rw [append_eq_nil_iff, filterMap_eq_nil_iff, map_eq_nil_iff, filter_eq_nil_iff]
  refine ⟨?_, ?_⟩
  · intro e mem
    obtain ⟨captured, content, found, eq⟩ := h.sound e mem
    have read : d.read render e.path = some content := by
      rw [Disk.read, if_neg captured.2]
      exact found
    rw [read, eq]
    simp
  · intro path mem unlisted
    simp only [decide_eq_true_eq] at unlisted
    obtain ⟨other, kept, absent⟩ := unlisted
    obtain ⟨content, found⟩ := isSome_iff_exists.1 (Dict.mem_keys.1 mem)
    have entry := h.complete path content ⟨by simpa using kept, other⟩ found
    exact absent (mem_map_of_mem (f := (·.path)) entry)

lemma listed_of_verify (frozen : d.manifest = some m) (verified : verify sha render ref d = [])
    {path : String} (captured : Captured path) :
    (∀ content, d.files.get path = some content → ∃ e ∈ m.files, e.path = path ∧ e.sha256 = sha content) ∧
      ∀ e ∈ m.files, e.path = path → ∃ content, d.files.get path = some content ∧ e.sha256 = sha content := by
  simp only [verify, frozen] at verified
  rw [append_eq_nil_iff, filterMap_eq_nil_iff, map_eq_nil_iff, filter_eq_nil_iff] at verified
  obtain ⟨matched, listed⟩ := verified
  have sound : ∀ e ∈ m.files, e.path = path → ∃ content, d.files.get path = some content ∧ e.sha256 = sha content := by
    intro e mem eq
    have problem := matched e mem
    rw [Disk.read, if_neg (eq ▸ captured.2), eq] at problem
    cases found : d.files.get path with
    | none =>
      rw [found] at problem
      cases problem
    | some content =>
      rw [found] at problem
      refine ⟨content, rfl, ?_⟩
      by_contra ne
      have clash : sha content ≠ e.sha256 := fun same => ne same.symm
      simp [clash] at problem
  refine ⟨?_, sound⟩
  intro content found
  have isKey : path ∈ d.files.entries.map Prod.fst := Dict.mem_keys.2 (by rw [found]; rfl)
  have entry : path ∈ m.files.map (·.path) := by
    by_contra absent
    refine listed path isKey ?_
    simpa using ⟨captured.2, captured.1, fun e mem same => absent (mem_map.2 ⟨e, mem, same⟩)⟩
  obtain ⟨e, mem, eq⟩ := mem_map.1 entry
  obtain ⟨content', found', same⟩ := sound e mem eq
  rw [found] at found'
  cases found'
  exact ⟨e, mem, eq, same⟩

/-- Two disks that a manifest verifies have the same captured files. -/
theorem Alike.of_verify (injective : Function.Injective sha) {d' : Disk} (frozen : d.manifest = some m)
    (frozen' : d'.manifest = some m) (verified : verify sha render ref d = []) (verified' : verify sha render ref d' =
      []) : Alike d d' := by
  intro path captured
  obtain ⟨listed, sound⟩ := listed_of_verify frozen verified captured
  obtain ⟨listed', sound'⟩ := listed_of_verify frozen' verified' captured
  cases found : d.files.get path with
  | none =>
    cases found' : d'.files.get path with
    | none => rfl
    | some content' =>
      obtain ⟨e, mem, eq, -⟩ := listed' content' found'
      obtain ⟨content, present, -⟩ := sound e mem eq
      rw [found] at present
      cases present
  | some content =>
    obtain ⟨e, mem, eq, same⟩ := listed content found
    obtain ⟨content', present, same'⟩ := sound' e mem eq
    rw [present, injective (same.symm.trans same')]

/-! ## The condition -/

/-- A provenance that does not rename the partition. -/
def Named (ref : PartitionRef) (provenance : Dict String Json) : Prop :=
  (∀ v ∈ provenance.get "feed", v = .str ref.feed) ∧ ∀ v ∈ provenance.get "session", v = .str ref.session

instance (provenance : Dict String Json) : Decidable (Named ref provenance) := inferInstanceAs (Decidable (_ ∧ _))

/-- The files that were hashed are the captured files, as they are now. -/
def Current (d : Disk) (hashed : List (String × Bytes)) : Prop :=
  (∀ e ∈ hashed, Captured e.1 ∧ d.files.get e.1 = some e.2) ∧ ∀ e ∈ d.files.entries, Captured e.1 → e ∈ hashed

instance (d : Disk) (hashed : List (String × Bytes)) : Decidable (Current d hashed) := inferInstanceAs
    (Decidable (_ ∧ _))

/-- A freeze does not rename the partition, and publishes the captured files as they are; a write that finds a
    manifest changes nothing. -/
def Careful (ref : PartitionRef) (s : State) : Label → Prop
  | .freeze _ provenance _ => s.disk.manifest = none → Named ref provenance
  | .openAppend p =>
    match s.phases p with
    | .opening path _ => s.disk.manifest = none ∨ s.disk.files.contains path = true
    | _ => True
  | .write p _ =>
    match s.phases p with
    | .appending _ _ => s.disk.manifest = none
    | _ => True
  | .rename p =>
    match s.phases p with
    | .staged _ (.parquet path content) => s.disk.manifest = none ∨ s.disk.files.get path = some content
    | .staged _ (.manifest _ hashed) => Current s.disk hashed
    | _ => True
  | _ => True

instance (s : State) : (l : Label) → Decidable (Careful ref s l)
  | .freeze _ provenance _ => inferInstanceAs (Decidable (s.disk.manifest = none → Named ref provenance))
  | .openAppend p => match eq : s.phases p with
    | .opening path _ => decidable_of_iff (s.disk.manifest = none ∨ s.disk.files.contains path = true)
      (by simp [Careful, eq])
    | .idle | .appending .. | .staging .. | .staged .. | .listing .. | .hashing .. | .reading _ =>
      isTrue (by simp [Careful, eq])
  | .write p _ => match eq : s.phases p with
    | .appending _ _ => decidable_of_iff (s.disk.manifest = none) (by simp [Careful, eq])
    | .idle | .opening .. | .staging .. | .staged .. | .listing .. | .hashing .. | .reading _ =>
      isTrue (by simp [Careful, eq])
  | .rename p => match eq : s.phases p with
    | .staged _ (.parquet path content) =>
      decidable_of_iff (s.disk.manifest = none ∨ s.disk.files.get path = some content) (by simp [Careful, eq])
    | .staged _ (.manifest _ hashed) => decidable_of_iff (Current s.disk hashed) (by simp [Careful, eq])
    | .idle | .opening .. | .appending .. | .staging .. | .listing .. | .hashing .. | .reading _ =>
      isTrue (by simp [Careful, eq])
  | .appendJsonl .. | .writeParquet .. | .stage _ | .unlink _ | .list _ | .hash _ | .publish .. | .check .. | .parse _
  | .crash _ => isTrue trivial

/-! ## The manifest of a freeze -/

lemma get_foldl_set_same {es : List (String × Json)} {d : Dict String Json} {k : String} {v : Json}
    (same : ∀ e ∈ es, e.1 = k → e.2 = v) (found : d.get k = some v) :
    (es.foldl (fun d e => d.set e.1 e.2) d).get k = some v := by
  induction es generalizing d with
  | nil => exact found
  | cons e es ih =>
    apply ih fun e' mem => same e' (mem_cons_of_mem _ mem)
    rw [get_set]
    split
    · rename_i eq
      rw [same e mem_cons_self eq.symm]
    · exact found

lemma Describes.of_freeze {provenance : Dict String Json} {frozenAt : String} {hashed : List (String × Bytes)}
    (named : Named ref provenance) (current : Current d hashed) :
    Describes sha ref d (manifestOf sha ref provenance frozenAt hashed) := by
  have field {k v : String} (ne : k ≠ "files") (same : ∀ w ∈ provenance.get k, w = .str v)
      (own : (((((Dict.empty.set "schema" (.str "mdq-capture-manifest/1")).set "feed" (.str ref.feed)).set
        "session" (.str ref.session)).set "collector_version" (.str "mdq-collector/0.1.0")).set "frozen_at"
          (.str frozenAt) :
          Dict String Json).get k = some (.str v)) :
      (manifestOf sha ref provenance frozenAt hashed).fields.get k = some (.str v) := by
    simp only [manifestOf]
    rw [get_erase, if_neg ne]
    refine get_foldl_set_same ?_ own
    intro e mem eq
    apply same
    rw [← eq]
    exact get_of_mem_entries mem
  refine ⟨field (by decide) named.1 ?_, field (by decide) named.2 ?_, ?_, ?_⟩
  · simp [get_set]
  · simp [get_set]
  · intro e mem
    obtain ⟨⟨path, content⟩, read, rfl⟩ := mem_map.1 mem
    obtain ⟨captured, found⟩ := current.1 _ read
    exact ⟨captured, content, found, rfl⟩
  · intro path content captured found
    exact mem_map.2 ⟨(path, content), current.2 _ (mem_entries_of_get found) captured, rfl⟩

/-! ## The invariant -/

def Stands (sha : Bytes → String) (ref : PartitionRef) (d : Disk) : Phase → Prop
  | .staging tmp target | .staged tmp target => isTmp tmp = true ∧ ∀ m hashed, target = .manifest m hashed →
      ∃ provenance frozenAt, Named ref provenance ∧ m = manifestOf sha ref provenance frozenAt hashed
  | .listing provenance _ | .hashing provenance _ _ _ => Named ref provenance
  | .reading m => d.manifest ≠ none ∧ Describes sha ref d m
  | _ => True

/-- A manifest describes the files, and what was parsed is in its manifest. -/
structure Inv (sha : Bytes → String) (ref : PartitionRef) (s : State) : Prop where
  frozen : ∀ m, s.disk.manifest = some m → Describes sha ref s.disk m
  stands : ∀ p, Stands sha ref s.disk (s.phases p)
  parsed : ∀ r ∈ s.parsed, ⟨quotesPath, sha r.2, r.2.length⟩ ∈ r.1.files

/-- A partition stays unfrozen, or keeps its captured files. -/
def Evolves (d d' : Disk) : Prop := (d'.manifest = d.manifest ∨ d'.manifest ≠ none) ∧ (d.manifest = none ∨ Alike d d')

lemma Stands.evolve {d' : Disk} {phase : Phase} (h : Stands sha ref d phase) (evolves : Evolves d d') :
    Stands sha ref d' phase := by
  cases phase with
  | reading m =>
    obtain ⟨frozen, describes⟩ := h
    refine ⟨?_, describes.congr (evolves.2.resolve_left frozen)⟩
    obtain same | some_ := evolves.1
    · rw [same]
      exact frozen
    · exact some_
  | staging | staged | listing | hashing | idle | opening | appending => exact h

lemma isTmp_append {name : String} : isTmp (name ++ ".tmp") = true := by
  rw [isTmp, String.toList_append]
  exact isSuffixOf_iff_suffix.2 (suffix_append _ _)

section Steps

variable {s t : State}

lemma Inv.moved (h : Inv sha ref s) (evolves : Evolves s.disk t.disk)
    (frozen : ∀ m, t.disk.manifest = some m → Describes sha ref t.disk m) {p : Nat} {phase : Phase}
    (phases : t.phases = Function.update s.phases p phase) (stands : Stands sha ref t.disk phase)
    (parsed : ∀ r ∈ t.parsed, r ∈ s.parsed ∨ ⟨quotesPath, sha r.2, r.2.length⟩ ∈ r.1.files) : Inv sha ref t := by
  refine ⟨frozen, ?_, ?_⟩
  · intro q
    rw [phases]
    by_cases same : q = p
    · rw [same, Function.update_self]
      exact stands
    · rw [Function.update_of_ne same]
      exact (h.stands q).evolve evolves
  · intro r mem
    obtain old | new := parsed r mem
    · exact h.parsed r old
    · exact new

lemma Inv.move (h : Inv sha ref s) {p : Nat} {phase : Phase} (stands : Stands sha ref s.disk phase) :
    Inv sha ref (s.move p phase) :=
  h.moved ⟨.inl rfl, .inr fun _ _ => rfl⟩ h.frozen rfl stands fun _ => .inl

lemma Inv.wrote (h : Inv sha ref s) {files : Dict String Bytes} {p : Nat} {phase : Phase}
    (kept : s.disk.manifest = none ∨ Alike s.disk { s.disk with files := files })
    (stands : Stands sha ref { s.disk with files := files } phase) :
    Inv sha ref { s.move p phase with disk := { s.disk with files := files } } := by
  refine h.moved ⟨.inl rfl, kept⟩ ?_ rfl stands fun _ => .inl
  intro m frozen
  obtain unfrozen | alike := kept
  · rw [unfrozen] at frozen
    cases frozen
  · exact (h.frozen m frozen).congr alike

lemma alike_set_tmp {d : Disk} {tmp : String} {content : Bytes} (temporary : isTmp tmp = true) :
    Alike d { d with files := d.files.set tmp content } := by
  intro path captured
  apply get_set_of_ne
  rintro rfl
  rw [captured.1] at temporary
  cases temporary

lemma alike_erase_tmp {d : Disk} {tmp : String} (temporary : isTmp tmp = true) :
    Alike d { d with files := d.files.erase tmp } := by
  intro path captured
  show (d.files.erase tmp).get path = _
  rw [get_erase, if_neg]
  rintro rfl
  rw [captured.1] at temporary
  cases temporary

theorem Inv.step {l : Label} (h : Inv sha ref s) (careful : Careful ref s l)
    (st : (partition sha render ref).step s l = some t) : Inv sha ref t := by
  simp only [partition] at st
  cases l with
  | appendJsonl p kind data =>
    simp only [Capture.step] at st
    split at st
    · split at st
      · cases st
        exact h.move trivial
      · cases st
        exact h
    · cases st
  | openAppend p =>
    simp only [Capture.step] at st
    split at st
    · rename_i path data at_
      simp only [Careful, at_] at careful
      have stands (d : Disk) : Stands sha ref d (if data = [] then .idle else .appending path data) := by
        split <;> trivial
      split at st
      · cases st
        exact h.move (stands _)
      · rename_i missing
        cases st
        exact h.wrote (.inl (careful.resolve_right missing)) (stands _)
    · cases st
  | write p n =>
    simp only [Capture.step] at st
    split at st
    · rename_i path data at_
      simp only [Careful, at_] at careful
      split at st
      · cases st
      · cases st
        refine h.wrote (.inl careful) ?_
        split <;> trivial
    · cases st
  | writeParquet p kind name content tmp =>
    simp only [Capture.step] at st
    split at st
    · split at st
      · cases st
        exact h.move ⟨isTmp_append, nofun⟩
      · cases st
        exact h
    · cases st
  | stage p =>
    simp only [Capture.step] at st
    split at st
    · rename_i tmp target at_
      cases st
      have stands := h.stands p
      rw [at_] at stands
      exact h.wrote (.inr (alike_set_tmp stands.1)) stands
    · cases st
  | rename p =>
    have stands := h.stands p
    simp only [Capture.step] at st
    split at st
    · rename_i tmp path content at_
      cases st
      simp only [Careful, at_] at careful
      rw [at_] at stands
      refine h.wrote (careful.imp id ?_) trivial
      intro same path' captured
      have kept := alike_erase_tmp (d := s.disk) stands.1
      rw [get_set]
      split
      · rename_i eq
        rw [eq, same]
      · exact kept path' captured
    · rename_i tmp m hashed at_
      cases st
      simp only [Careful, at_] at careful
      rw [at_] at stands
      obtain ⟨temporary, made⟩ := stands
      obtain ⟨provenance, frozenAt, named, rfl⟩ := made m hashed rfl
      have alike : Alike s.disk { s.disk with files := s.disk.files.erase tmp } := alike_erase_tmp temporary
      refine h.moved ⟨.inr nofun, .inr alike⟩ ?_ rfl trivial fun _ => .inl
      intro m published
      cases published
      exact (Describes.of_freeze named careful).congr alike
    · cases st
  | unlink p =>
    have stands := h.stands p
    simp only [Capture.step] at st
    split at st
    · rename_i tmp target at_
      cases st
      rw [at_] at stands
      exact h.wrote (.inr (alike_erase_tmp stands.1)) trivial
    · rename_i tmp target at_
      cases st
      rw [at_] at stands
      exact h.wrote (.inr (alike_erase_tmp stands.1)) trivial
    · cases st
  | freeze p provenance frozenAt =>
    simp only [Capture.step] at st
    split at st
    · split at st
      · cases st
        exact h
      · rename_i unfrozen
        cases st
        exact h.move (careful (by simpa using unfrozen))
    · cases st
  | list p =>
    simp only [Capture.step] at st
    split at st
    · rename_i provenance frozenAt at_
      have stands := h.stands p
      rw [at_] at stands
      cases st
      refine h.move ?_
      split
      · trivial
      · exact stands
    · cases st
  | hash p =>
    simp only [Capture.step] at st
    split at st
    · rename_i provenance frozenAt path todo hashed at_
      have stands := h.stands p
      rw [at_] at stands
      split at st
      · cases st
        exact h.move trivial
      · cases st
        exact h.move stands
    · cases st
  | publish p tmp =>
    simp only [Capture.step] at st
    split at st
    · rename_i provenance frozenAt hashed at_
      have stands := h.stands p
      rw [at_] at stands
      cases st
      refine h.move ⟨isTmp_append, ?_⟩
      intro m hashed' eq
      cases eq
      exact ⟨provenance, frozenAt, stands, rfl⟩
    · cases st
  | check p verifyIntegrity =>
    simp only [Capture.step] at st
    split at st
    · rename_i m at_ frozen
      split at st
      · cases st
        refine h.move ⟨?_, h.frozen m frozen⟩
        rw [frozen]
        nofun
      · cases st
        exact h
    · cases st
      exact h
    · cases st
  | parse p =>
    simp only [Capture.step] at st
    split at st
    · rename_i m at_
      have stands := h.stands p
      rw [at_] at stands
      split at st
      · cases st
        exact h.move trivial
      · rename_i content found
        cases st
        refine @Inv.moved _ _ s _ h ⟨.inl rfl, .inr fun _ _ => rfl⟩ h.frozen p .idle rfl trivial ?_
        intro r mem
        obtain old | new := mem_append.1 mem
        · exact .inl old
        · rw [mem_singleton.1 new]
          exact .inr (stands.2.complete quotesPath content ⟨by decide, by decide⟩ found)
    · cases st
  | crash p =>
    cases st
    exact h.move trivial

end Steps

/-! ## Runs -/

lemma frozen_step {s t : State} {l : Label} (st : (partition sha render ref).step s l = some t)
    (frozen : s.disk.manifest ≠ none) : t.disk.manifest ≠ none := by
  simp only [partition] at st
  cases l <;> simp only [step] at st <;> grind [State.move, State.store, State.delete]

/-- Once there is a manifest there is one ever after, it describes the partition, every verification passes, and what
readers parse is in it; two verified disks with one manifest have the same captured files. -/
theorem frozen_capture_immutable (injective : Function.Injective sha) {labels labels' : List Label} {s t : State}
    (met : (partition sha render ref).Meets (Careful ref) {} (labels ++ labels'))
    (run : (partition sha render ref).run {} labels = some s) (rest : (partition sha render ref).run s labels' = some t)
    (frozen : s.disk.manifest ≠ none) :
    (∃ m, t.disk.manifest = some m ∧ Describes sha ref t.disk m) ∧ verify sha render ref t.disk = [] ∧
      (∀ r ∈ t.parsed, ⟨quotesPath, sha r.2, r.2.length⟩ ∈ r.1.files) ∧
      ∀ d d' : Disk, d.manifest ≠ none → d'.manifest = d.manifest → verify sha render ref d = [] → ¬Alike d d' →
        verify sha render ref d' ≠ [] := by
  have start : Inv sha ref {} := ⟨nofun, fun _ => trivial, fun _ mem => absurd mem not_mem_nil⟩
  have inv : Inv sha ref t := run_invariant Inv.step start met (run_append.2 ⟨s, run, rest⟩)
  have stays : t.disk.manifest ≠ none :=
    run_invariant (fun kept _ st => frozen_step st kept) frozen meets_true rest
  obtain ⟨m, published⟩ := ne_none_iff_exists'.1 stays
  have describes := inv.frozen m published
  refine ⟨⟨m, published, describes⟩, describes.verify published, inv.parsed, ?_⟩
  intro d d' manifest same verified changed verified'
  obtain ⟨m, manifest⟩ := ne_none_iff_exists'.1 manifest
  exact changed (Alike.of_verify injective manifest (same.trans manifest) verified verified')

def plainSha (content : Bytes) : String := String.ofList (content.map fun b => Char.ofNat b.toNat)

lemma plainSha_injective : Function.Injective plainSha := by
  intro a b eq
  have chars := String.ofList_injective eq
  refine map_injective_iff.2 ?_ chars
  intro x y same
  have bytes : ∀ n < 256, (Char.ofNat n).toNat = n := by decide +kernel
  have value (z : UInt8) : (Char.ofNat z.toNat).toNat = z.toNat := bytes _ z.toNat_lt
  apply UInt8.toNat_inj.1
  exact (value x).symm.trans ((congrArg Char.toNat same).trans (value y))

def plainRender (m : Manifest) : Bytes :=
  (Json.dumps (.obj (m.fields.entries ++ [("files", .arr (m.files.map fun e =>
    .obj [("path", .str e.path), ("sha256", .str e.sha256), ("bytes", .int e.bytes)]))]))).map fun c =>
      UInt8.ofNat c.toNat

def captureRef : PartitionRef := ⟨"sip", "2026-07-20"⟩

def captureLabels : List Label :=
  [.appendJsonl 0 "quotes" [1, 2, 3], .openAppend 0, .write 0 2, .write 0 1,
   .writeParquet 0 "bars" "bars_1min" [7, 7] "a1", .stage 0, .rename 0,
   .freeze 1 (Dict.empty.set "provider" (.str "alpaca")) "2026-07-20T21:00:00+00:00", .list 1, .hash 1, .hash 1,
   .publish 1 "b2", .stage 1, .rename 1]

def readLabels : List Label := [.check 2 true, .appendJsonl 0 "quotes" [4], .parse 2]

theorem capture_stays_frozen : ∃ s t, (partition plainSha plainRender captureRef).run {} captureLabels = some s ∧
    (partition plainSha plainRender captureRef).run s readLabels = some t ∧
    verify plainSha plainRender captureRef t.disk = [] ∧ t.parsed.map (·.2) = [[1, 2, 3]] := by
  obtain ⟨t, whole⟩ := isSome_iff_exists.1
    (show ((partition plainSha plainRender captureRef).run {} (captureLabels ++ readLabels)).isSome =
      true by decide +kernel)
  obtain ⟨s, run, rest⟩ := run_append.1 whole
  have frozen : s.disk.manifest.isSome = true :=
    Machine.observe (t := s) (f := fun s => s.disk.manifest.isSome) run (by decide +kernel)
  obtain ⟨-, verified, -, -⟩ :=
      @frozen_capture_immutable plainSha plainRender captureRef plainSha_injective captureLabels
    readLabels s t (by decide +kernel) run rest (by rw [← isSome_iff_ne_none]; exact frozen)
  refine ⟨s, t, run, rest, verified, ?_⟩
  exact Machine.observe (t := t) (f := fun s => s.parsed.map (·.2)) (x := [[1, 2, 3]]) whole (by decide +kernel)

def lateLabels : List Label :=
  [.appendJsonl 0 "quotes" [1], .openAppend 0, .write 0 1, .appendJsonl 0 "quotes" [2],
   .freeze 1 .empty "2026-07-20T21:00:00+00:00", .list 1, .hash 1, .publish 1 "b2", .stage 1, .rename 1,
   .openAppend 0, .write 0 1]

def renamedLabels : List Label :=
  [.appendJsonl 0 "quotes" [1], .openAppend 0, .write 0 1,
   .freeze 1 (Dict.empty.set "feed" (.str "iex")) "2026-07-20T21:00:00+00:00", .list 1, .hash 1, .publish 1 "b2",
     .stage 1,
   .rename 1]

theorem frozen_capture_changed :
    (∃ t, (partition plainSha plainRender captureRef).run {} lateLabels = some t ∧ t.disk.manifest.isSome = true ∧
      verify plainSha plainRender captureRef t.disk ≠ []) ∧
    (∃ t, (partition plainSha plainRender captureRef).run {} renamedLabels = some t ∧
      t.disk.manifest.map (fun m => m.fields.get "feed") = some (some (.str "iex"))) := by
  refine ⟨?_, ?_⟩
  · obtain ⟨t, run⟩ := isSome_iff_exists.1
      (show ((partition plainSha plainRender captureRef).run {} lateLabels).isSome = true by decide +kernel)
    refine ⟨t, run, ?_, ?_⟩
    · exact Machine.observe (t := t) (f := fun s => s.disk.manifest.isSome) run (by decide +kernel)
    · have problems : verify plainSha plainRender captureRef t.disk = ["hash mismatch: quotes/samples.jsonl"] :=
        Machine.observe (t := t) (f := fun s => verify plainSha plainRender captureRef s.disk) run (by decide +kernel)
      rw [problems]
      nofun
  · obtain ⟨t, run⟩ := isSome_iff_exists.1
      (show ((partition plainSha plainRender captureRef).run {} renamedLabels).isSome = true by decide +kernel)
    refine ⟨t, run, ?_⟩
    exact Machine.observe (t := t) (f := fun s => s.disk.manifest.map fun m => m.fields.get "feed")
      (x := some (some (.str "iex"))) run (by decide +kernel)

end Workbench.Research.Capture
