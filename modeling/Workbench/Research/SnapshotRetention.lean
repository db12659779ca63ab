import Workbench.Research.Snapshot

/-!
# What a snapshot directory keeps

A snapshot reads back as the payload that was written, where the prune of its own write leaves it (`Stays`): it is the
newest, pinned, or within the window and the budget. No prune drops the newest date or a pinned one, and it leaves no
more snapshots than the cap beside the pinned ones. A stored file is returned only where it records no digest or the
digest of its own object, so that a changed file which still records the written digest is returned only with what was
written.
-/

namespace Workbench.Research.Snapshot
open Workbench.Lib List Dict

variable {φ : Type} {C : Codec φ}

/-! ## The prune -/

section Prune
variable {d : Directory} {now : DateTime} {a b : Text}

lemma mem_listSnapshotDates : a ∈ listSnapshotDates d ↔ isDate a = true ∧ (d.files.get a).isSome = true := by
  rw [listSnapshotDates, mem_insertionSort, mem_filter, Dict.mem_keys, and_comm]

lemma nodup_listSnapshotDates : (listSnapshotDates d).Nodup := by
  rw [listSnapshotDates, (perm_insertionSort _ _).nodup_iff]
  exact d.files.nodup.filter _

lemma le_head (mem : a ∈ listSnapshotDates d) (first : (listSnapshotDates d).head? = some b) : a ≤ b := by
  have sorted : (listSnapshotDates d).Pairwise (· ≥ ·) := pairwise_insertionSort _ _
  cases dates : listSnapshotDates d with
  | nil =>
    rw [dates] at mem
    cases mem
  | cons c rest =>
    rw [dates] at mem first sorted
    obtain rfl := Option.some.inj first
    rcases mem_cons.1 mem with rfl | mem
    · exact le_rfl
    · exact (pairwise_cons.1 sorted).1 a mem

lemma mem_shielded_of_newest (mem : a ∈ listSnapshotDates d) (newest : ∀ b ∈ listSnapshotDates d, b ≤ a) :
    a ∈ shielded C d := by
  cases first : (listSnapshotDates d).head? with
  | none =>
    rw [head?_eq_none_iff] at first
    rw [first] at mem
    cases mem
  | some b =>
    have same : a = b := le_antisymm (le_head mem first) (newest b (mem_of_head? first))
    rw [shielded, first, same]
    exact Finset.mem_union_left _ (by simp)

lemma mem_unpinned : a ∈ unpinned C d ↔ a ∈ listSnapshotDates d ∧ a ∉ shielded C d := by
  rw [unpinned, mem_filter, decide_eq_true_eq]

lemma notMem_dropped (mem : a ∈ shielded C d) : a ∉ dropped C now d := by
  intro drop
  have listed : a ∈ unpinned C d := by
    rcases mem_append.1 drop with old | beyond
    · exact (mem_filter.1 old).1
    · exact (mem_filter.1 (mem_of_mem_drop beyond)).1
  exact (mem_unpinned.1 listed).2 mem

lemma get_foldl_erase {drop : List Text} {files : Dict Text (List Char)} :
    (drop.foldl (fun files a => files.erase a) files).get b = if b ∈ drop then none else files.get b := by
  induction drop generalizing files with
  | nil => rfl
  | cons a drop ih =>
    rw [foldl_cons, ih, get_erase]
    by_cases same : b = a
    · simp [same]
    · simp [same]

lemma get_pruneSnapshots : (pruneSnapshots C now d).1.files.get b =
    if b ∈ dropped C now d then none else d.files.get b := by
  rw [pruneSnapshots]
  split
  · rename_i none
    have nothing : dropped C now d = [] := by
      rw [dropped, unpinned, none, filter_nil, filter_nil, filter_nil, drop_nil, append_nil]
    rw [nothing, if_neg not_mem_nil]
  · exact get_foldl_erase

lemma pins_pruneSnapshots : (pruneSnapshots C now d).1.pins = d.pins := by
  rw [pruneSnapshots]
  split <;> rfl

lemma mem_dates_pruneSnapshots : b ∈ listSnapshotDates (pruneSnapshots C now d).1 ↔
    b ∈ listSnapshotDates d ∧ b ∉ dropped C now d := by
  rw [mem_listSnapshotDates, mem_listSnapshotDates, get_pruneSnapshots]
  split
  · rename_i drop
    simp [drop]
  · rename_i stays
    simp [stays]

lemma length_pruneSnapshots :
    ((listSnapshotDates (pruneSnapshots C now d).1).filter (· ∉ loadPinnedAsOf C d)).length ≤ maxFiles := by
  have nodup : ((listSnapshotDates (pruneSnapshots C now d).1).filter (· ∉ loadPinnedAsOf C d)).Nodup :=
    nodup_listSnapshotDates.filter _
  rw [← toFinset_card_of_nodup nodup]
  -- what is left is the newest date, pinned ones, and those within the budget
  have within : ((listSnapshotDates (pruneSnapshots C now d).1).filter (· ∉ loadPinnedAsOf C d)).toFinset ⊆
      (shielded C d \ loadPinnedAsOf C d) ∪
        (((unpinned C d).filter (cutoff now ≤ ·)).take (keepBudget C d)).toFinset := by
    intro b mem
    rw [mem_toFinset, mem_filter, mem_dates_pruneSnapshots, decide_eq_true_eq] at mem
    obtain ⟨⟨listed, stays⟩, notPinned⟩ := mem
    rw [Finset.mem_union, Finset.mem_sdiff, mem_toFinset]
    cases Decidable.em (b ∈ shielded C d) with
    | inl shield => exact .inl ⟨shield, notPinned⟩
    | inr free =>
      have candidate := mem_unpinned.2 ⟨listed, free⟩
      rw [dropped, mem_append, not_or] at stays
      have inWindow : b ∈ (unpinned C d).filter (cutoff now ≤ ·) := by
        refine mem_filter.2 ⟨candidate, decide_eq_true (not_lt.1 fun old => stays.1 ?_)⟩
        exact mem_filter.2 ⟨candidate, decide_eq_true old⟩
      rw [← take_append_drop (keepBudget C d) ((unpinned C d).filter (cutoff now ≤ ·))] at inWindow
      exact .inr ((mem_append.1 inWindow).resolve_right stays.2)
  have few : (shielded C d \ loadPinnedAsOf C d).card ≤ 1 := by
    rw [shielded, Finset.union_sdiff_right]
    refine (Finset.card_le_card Finset.sdiff_subset).trans ?_
    cases (listSnapshotDates d).head? <;> simp
  have room : (shielded C d \ loadPinnedAsOf C d).card + keepBudget C d ≤ maxFiles := by
    have part := Finset.card_le_card (Finset.sdiff_subset (s := shielded C d) (t := loadPinnedAsOf C d))
    rw [keepBudget]
    have cap : maxFiles = 90 := rfl
    omega
  refine (Finset.card_le_card within).trans ((Finset.card_union_le _ _).trans (le_trans ?_ room))
  apply Nat.add_le_add_left
  exact (toFinset_card_le _).trans (length_take_le _ _)

end Prune

/-! ## What is written and read -/

section Write
variable {d d' : Directory} {now : DateTime} {payload p : Payload φ} {a k : Text} {v : PyValue φ} {digest : Text}
variable {fs : List (Text × Doc φ)}

/-- A payload of plain values, whose keys split no surrogate pair. -/
def Payload.Plain (payload : Payload φ) : Prop := ∀ e ∈ payload.entries, e.1.joined = e.1 ∧ e.2.Plain

lemma Payload.Plain.value (plain : payload.Plain) : payload.value.Plain :=
  .dict payload.nodup (fun e mem => (plain e mem).1) fun e mem => (plain e mem).2

lemma Payload.Plain.erase (plain : payload.Plain) : Payload.Plain (payload.erase k) :=
  fun e mem => plain e (mem_filter.1 mem).1

lemma Payload.Plain.get (plain : payload.Plain) (found : payload.get k = some v) : v.Plain :=
  (plain (k, v) (mem_entries_of_get found)).2

lemma Payload.Plain.set (plain : payload.Plain) (whole : k.joined = k) (value : v.Plain) :
    Payload.Plain (payload.set k v) := by
  intro e mem
  have found := get_of_mem_entries mem
  rw [get_set] at found
  split at found
  · rename_i same
    obtain rfl := Option.some.inj found
    exact ⟨by rw [same]; exact whole, value⟩
  · exact plain e (mem_entries_of_get found)

lemma Payload.Plain.getD (plain : payload.Plain) (value : v.Plain) : ((payload.get k).getD v).Plain := by
  cases found : payload.get k with
  | none => exact value
  | some w => exact plain.get found

lemma val_lt_of_ascii {s : String} (ascii : s.toList.all (·.toNat < 128) = true) : ∀ c ∈ Text.of s, c.val < 55296 := by
  intro c listed
  obtain ⟨x, mem, rfl⟩ := mem_map.1 listed
  have small : x.toNat < 128 := of_decide_eq_true (all_eq_true.1 ascii x mem)
  rw [toNat_ofNat_val]
  omega

lemma joined_of {s : String} (ascii : s.toList.all (·.toNat < 128) = true) : (Text.of s).joined = Text.of s :=
  Text.joined_eq (val_lt_of_ascii ascii)

lemma Payload.Plain.stamp (plain : payload.Plain) : Payload.Plain (Snapshot.stamp C now payload) := by
  have schema := plain.set (k := Text.of "schema_version") (joined_of (by decide)) (v := .int schemaVersion) .int
  have screen := schema.set (k := Text.of "screen_id") (joined_of (by decide))
    (schema.getD (k := Text.of "screen_id") (v := .str screenId) .str)
  have version := screen.set (k := Text.of "screen_version") (joined_of (by decide))
    (screen.getD (k := Text.of "screen_version") (v := .str screenVersion) .str)
  have scope := version.set (k := Text.of "universe_id") (joined_of (by decide))
    (version.getD (k := Text.of "universe_id") (v := .str universeId) .str)
  refine scope.set (joined_of (by decide)) ?_
  split
  · exact scope.getD .null
  · exact .str

lemma filter_encoded {es : List (Text × PyValue φ)} {gs : List (Text × Doc φ)} {F : Floats φ}
    (whole : List.Forall₂ (fun e f => e.1 = f.1 ∧ PyValue.encode F e.2 = .ok f.2) es fs)
    (part : List.Forall₂ (fun e f => e.1 = f.1 ∧ PyValue.encode F e.2 = .ok f.2) (es.filter (·.1 ≠ k)) gs) :
    fs.filter (·.1 ≠ k) = gs := by
  induction whole generalizing gs with
  | nil =>
    cases part
    rfl
  | @cons e f es fs head _ ih =>
    cases Decidable.em (e.1 = k) with
    | inl same =>
      rw [filter_cons_of_neg (by simpa using same)] at part
      rw [filter_cons_of_neg (by simpa using head.1.symm.trans same)]
      exact ih part
    | inr other =>
      rw [filter_cons_of_pos (by simpa using other)] at part
      rw [filter_cons_of_pos (by rw [← head.1]; simpa using other)]
      cases part with
      | @cons _ g _ gs head' rest =>
        have same : f = g := Prod.ext (head.1.symm.trans head'.1) (Except.ok.inj (head.2.symm.trans head'.2))
        rw [same, ih rest]

lemma filter_sorted (distinct : (fs.map Prod.fst).Nodup) :
    (Doc.sorted fs).filter (·.1 ≠ k) = Doc.sorted (fs.filter (·.1 ≠ k)) := by
  refine List.Perm.eq_of_pairwise (fun f g memf memg (le : f.1 ≤ g.1) (ge : g.1 ≤ f.1) => ?_) ?_ ?_ ?_
  · have memf := Doc.mem_sorted.1 (mem_filter.1 memf).1
    have memg := (mem_filter.1 (Doc.mem_sorted.1 memg)).1
    exact inj_on_of_nodup_map distinct memf memg (le_antisymm le ge)
  · exact (pairwise_insertionSort _ fs).filter _
  · exact pairwise_insertionSort _ _
  · exact ((perm_insertionSort _ fs).filter _).trans (perm_insertionSort _ _).symm

lemma filter_joinedFields (whole : ∀ f ∈ fs, f.1.joined = f.1) :
    (Doc.joinedFields fs).filter (·.1 ≠ k) = Doc.joinedFields (fs.filter (·.1 ≠ k)) := by
  rw [Doc.joinedFields_eq_map, Doc.joinedFields_eq_map, filter_map]
  congr 1
  apply filter_congr
  intro f mem
  rw [Function.comp_apply, whole f mem]

lemma lookup_of_mem {f : Doc φ} (distinct : (fs.map Prod.fst).Nodup) (mem : (k, f) ∈ fs) : fs.lookup k = some f := by
  induction fs with
  | nil => cases mem
  | cons g fs ih =>
    rw [map_cons, nodup_cons] at distinct
    rw [Dict.lookup_cons]
    rcases mem_cons.1 mem with rfl | mem
    · rw [if_pos rfl]
    · rw [if_neg, ih distinct.2 mem]
      rintro same
      exact distinct.1 (same ▸ mem_map_of_mem mem)

/-- The fields that are written of a payload: in order, one of each entry, and all but one without that entry. -/
structure Fields (C : Codec φ) (p : Payload φ) (fs : List (Text × Doc φ)) : Prop where
  increase : (fs.map Prod.fst).Pairwise (· < ·)
  whole : ∀ f ∈ fs, f.1.joined = f.1
  field : ∀ k v f, p.get k = some v → v.encode C.floats = .ok f → fs.lookup k = some f
  without : ∀ k doc, (Payload.value (p.erase k)).encode C.floats = .ok doc → doc = .obj (fs.filter (·.1 ≠ k))

lemma encode_payload (plain : p.Plain) {doc : Doc φ} (encoded : p.value.encode C.floats = .ok doc) :
    ∃ fs, doc = .obj fs ∧ Fields C p fs := by
  obtain ⟨gs, rfl, same⟩ := PyValue.encode_dict encoded
  have distinct : (gs.map Prod.fst).Nodup := by
    rw [PyValue.keys_encoded same]
    exact p.nodup
  have increase := Doc.pairwise_sorted distinct
  refine ⟨Doc.sorted gs, rfl, increase, ?_, ?_, ?_⟩
  · intro f mem
    obtain ⟨e, meme, key, -⟩ := PyValue.exists_of_forall₂ same (Doc.mem_sorted.1 mem)
    rw [← key]
    exact (plain e meme).1
  · intro k v f found written
    obtain ⟨g, mem, key, value⟩ := PyValue.exists_of_forall₂' same (mem_entries_of_get found)
    have eq : g = (k, f) := Prod.ext key.symm (Except.ok.inj (value.symm.trans written))
    apply lookup_of_mem (increase.imp fun lt => ne_of_lt lt)
    rw [← eq]
    exact Doc.mem_sorted.2 mem
  · intro k doc encoded'
    obtain ⟨gs', rfl, same'⟩ := PyValue.encode_dict encoded'
    rw [filter_sorted distinct, filter_encoded same same']

lemma signed_eq_ok (signs : signed C now payload = .ok p) :
    ∃ body, (Payload.value (p.erase (Text.of "sha256"))).encode C.floats = .ok body ∧
      p.get (Text.of "sha256") = some (.str (C.sha256 (body.text C.floats .compact))) ∧
      p.erase (Text.of "sha256") = (stamp C now payload).erase (Text.of "sha256") := by
  obtain ⟨digest, digested, signs⟩ := bind_eq_ok.1 signs
  obtain rfl := Except.ok.inj signs
  obtain ⟨cs, text, rfl⟩ := PyValue.map_eq_ok digested
  obtain ⟨body, encoded, rfl⟩ := PyValue.map_eq_ok text
  refine ⟨body, ?_, get_set_self, erase_set⟩
  rw [erase_set]
  exact encoded

lemma Payload.Plain.signed (plain : payload.Plain) (signs : Snapshot.signed C now payload = .ok p) : p.Plain := by
  obtain ⟨digest, -, signs⟩ := bind_eq_ok.1 signs
  obtain rfl := Except.ok.inj signs
  exact plain.stamp.set (joined_of (by decide)) .str

lemma readSnapshot_object {content : List Char} {fields : List (Text × Doc φ)} (stored : d.files.get a = some content)
    (object : loads (Hooks.plain C.floats) content = .ok (.obj fields))
    (recorded : (Doc.get fields "sha256").truthy C.floats = true) :
    readSnapshot C d (some a) =
      (sha256Of' C fields).map fun digest => if records digest (Doc.get fields "sha256") then some fields
        else none := by
  rw [readSnapshot, Option.some_or, Option.bind_some, stored]
  simp only [object, recorded, if_true]
  cases sha256Of' C fields <;> rfl

lemma read_stored (lawful : C.Lawful) (plain : payload.Plain) (signs : signed C now payload = .ok p) {cs : List Char}
    (text : canonical C p.value = .ok cs) (stored : d.files.get a = some (cs ++ ['\n'])) :
    ∃ fs, p.value.encode C.floats = .ok (.obj fs) ∧ readSnapshot C d (some a) = .ok (some (Doc.joinedFields fs)) := by
  have plain_p := plain.signed signs
  obtain ⟨doc, encoded, rfl⟩ := PyValue.map_eq_ok text
  obtain ⟨fs, rfl, fields⟩ := encode_payload plain_p encoded
  obtain ⟨fits, ordered⟩ := plain_p.value.encode encoded
  have object : loads (Hooks.plain C.floats) ((Doc.obj fs).text C.floats .compact ++ ['\n']) =
      .ok (.obj (Doc.joinedFields fs)) := loads_object lawful.floats (Loads.takes_plain lawful.floats fits ordered) rfl
  obtain ⟨body, encoded_body, digest, -⟩ := signed_eq_ok signs
  have recorded : Doc.get (Doc.joinedFields fs) "sha256" = .str (C.sha256 (body.text C.floats .compact)) := by
    rw [Doc.get, Doc.get?, Doc.lookup_joinedFields (val_lt_of_ascii (by decide)), fields.field _ _ _ digest rfl]
    show Doc.str _ = _
    rw [Text.joined_eq (lawful.plain _)]
  have rest : sha256Of' C (Doc.joinedFields fs) = .ok (C.sha256 (body.text C.floats .compact)) := by
    obtain ⟨fits_body, ordered_body⟩ := plain_p.erase.value.encode encoded_body
    have canonical_body := Doc.canonical_joined (F := C.floats) fits_body ordered_body
    rw [fields.without _ _ encoded_body] at canonical_body ⊢
    rw [sha256Of', filter_joinedFields fields.whole]
    exact congrArg _ canonical_body
  refine ⟨fs, encoded, ?_⟩
  rw [readSnapshot_object stored object, rest, recorded]
  · simp [Except.map, records]
  · rw [recorded, Doc.truthy]
    simpa using lawful.nonempty _

lemma writeSnapshot_eq_ok (named : asOf payload = some a) :
    writeSnapshot C now d payload = .ok d' ↔ ∃ p cs, signed C now payload = .ok p ∧ canonical C p.value = .ok cs ∧
      (pruneSnapshots C now { d with files := d.files.set a (cs ++ ['\n']) }).1 = d' := by
  have mapped {α : Type} {x : Except DumpError α} {y : α} : x.mapError WriteError.dump = .ok y ↔ x = .ok y := by
    cases x with
    | error e => simp [Except.mapError]
    | ok z => simp [Except.mapError]
  rw [writeSnapshot, orRaise_bind_eq_ok]
  constructor
  · rintro ⟨a', named', rest⟩
    obtain rfl := Option.some.inj (named.symm.trans named')
    obtain ⟨p, signs, rest⟩ := bind_eq_ok.1 rest
    obtain ⟨cs, text, rest⟩ := bind_eq_ok.1 rest
    exact ⟨p, cs, mapped.1 signs, mapped.1 text, Except.ok.inj rest⟩
  · rintro ⟨p, cs, signs, text, rfl⟩
    refine ⟨a, named, bind_eq_ok.2 ⟨p, mapped.2 signs, bind_eq_ok.2 ⟨cs, mapped.2 text, rfl⟩⟩⟩

lemma of_readSnapshot {fields : List (Text × Doc φ)} (read : readSnapshot C d (some a) = .ok (some fields)) :
    (∃ content, d.files.get a = some content ∧ loads (Hooks.plain C.floats) content = .ok (.obj fields)) ∧
      ((Doc.get fields "sha256").truthy C.floats = true →
        ∃ digest, sha256Of' C fields = .ok digest ∧ Doc.get fields "sha256" = .str digest) := by
  rw [readSnapshot, Option.some_or, Option.bind_some] at read
  cases stored : d.files.get a with
  | none =>
    rw [stored] at read
    cases read
  | some content =>
    rw [stored] at read
    dsimp only at read
    split at read
    · rename_i found object
      split at read
      · obtain ⟨digest, rest, read⟩ := bind_eq_ok.1 read
        have read := Except.ok.inj read
        split at read
        · rename_i match_
          obtain rfl := Option.some.inj read
          refine ⟨⟨content, rfl, object⟩, fun _ => ⟨digest, rest, ?_⟩⟩
          rw [records.eq_def] at match_
          split at match_
          · rename_i same
            rw [same, of_decide_eq_true match_]
          · cases match_
        · cases read
      · rename_i falsy
        obtain rfl := Option.some.inj (Except.ok.inj read)
        exact ⟨⟨content, rfl, object⟩, fun truthy => absurd truthy falsy⟩
    · cases read
    · cases read

lemma read_changed (lawful : C.Lawful) (injective : Function.Injective C.sha256) (plain : payload.Plain)
    (signs : signed C now payload = .ok p) (written : p.get (Text.of "sha256") = some (.str digest))
    {fields : List (Text × Doc φ)} (read : readSnapshot C d (some a) = .ok (some fields))
    (kept : Doc.get fields "sha256" = .str digest) :
    ∃ body, (Payload.value (p.erase (Text.of "sha256"))).encode C.floats = .ok body ∧
      (Doc.obj (fields.filter (·.1 ≠ Text.of "sha256"))).sortKeys.joined = body.joined := by
  obtain ⟨body, encoded, own, -⟩ := signed_eq_ok signs
  obtain rfl : C.sha256 (body.text C.floats .compact) = digest :=
    PyValue.str.inj (Option.some.inj (own.symm.trans written))
  refine ⟨body, encoded, ?_⟩
  have truthy : (Doc.get fields "sha256").truthy C.floats = true := by
    rw [kept, Doc.truthy]
    simpa using lawful.nonempty _
  obtain ⟨digest, rest, recorded⟩ := (of_readSnapshot read).2 truthy
  obtain rfl := Doc.str.inj (kept.symm.trans recorded)
  obtain ⟨cs, text, same⟩ := PyValue.map_eq_ok rest
  obtain rfl := injective same
  obtain ⟨fits, sorted⟩ := Doc.canonical_eq_ok text
  have fits_body := (((plain.signed signs).erase).value.encode encoded).1
  exact Doc.text_determines lawful.floats fits fits_body sorted

end Write

/-! ## Runs -/

/-- A run of calls: the dates that were written, and the directory. The pins file and the clock may change between
calls; a call that raises writes nothing. -/
inductive Run (C : Codec φ) (d₀ : Directory) : List Text → Directory → Prop where
  | start : Run C d₀ [] d₀
  | call {ws d d' now pins payload a} : Run C d₀ ws d → asOf payload = some a →
    writeSnapshot C now { d with pins := pins } payload = .ok d' → Run C d₀ (ws ++ [a]) d'
  | raised {ws d now pins payload e} : Run C d₀ ws d →
    writeSnapshot C now { d with pins := pins } payload = .error e → Run C d₀ ws { d with pins := pins }

section Runs
variable {d₀ d d' : Directory} {now : DateTime} {pins : Option (List Char)} {payload : Payload φ} {a m : Text}
  {ws : List Text}

/-- A date that the prune of a directory leaves: the newest, a pinned one, or one within the window that has fewer later
dates in its way than the budget. -/
def Stays (C : Codec φ) (now : DateTime) (d : Directory) (a : Text) : Prop :=
  (∀ b ∈ listSnapshotDates d, b ≤ a) ∨ a ∈ loadPinnedAsOf C d ∨
    (cutoff now ≤ a ∧ ((unpinned C d).filter (a < ·)).length < keepBudget C d)

lemma le_length_of_mem_drop {l : List Text} {k : ℕ} (descending : l.Pairwise (· > ·)) (mem : a ∈ l.drop k) :
    k ≤ (l.filter (a < ·)).length := by
  rw [← take_append_drop k l] at descending ⊢
  have parts := pairwise_append.1 descending
  have above : (l.take k).filter (a < ·) = l.take k := by
    rw [filter_eq_self]
    intro b before
    exact decide_eq_true (parts.2.2 b before a mem)
  have long : k ≤ l.length := by
    by_contra short
    rw [drop_eq_nil_of_le (not_le.1 short).le] at mem
    cases mem
  rw [filter_append, length_append, above, length_take, Nat.min_eq_left long]
  exact Nat.le_add_right _ _

lemma Stays.notMem_dropped (stays : Stays C now d a) (listed : a ∈ listSnapshotDates d) : a ∉ dropped C now d := by
  rcases stays with newest | pinned | ⟨inWindow, few⟩
  · exact Snapshot.notMem_dropped (mem_shielded_of_newest listed newest)
  · exact Snapshot.notMem_dropped (Finset.mem_union_right _ pinned)
  · intro drop
    rw [dropped, mem_append] at drop
    rcases drop with old | beyond
    · exact (of_decide_eq_true (mem_filter.1 old).2 : a < cutoff now).not_ge inWindow
    · have sorted : (listSnapshotDates d).Pairwise (· > ·) := by
        have ge : (listSnapshotDates d).Pairwise (· ≥ ·) := pairwise_insertionSort _ _
        exact (ge.and nodup_listSnapshotDates).imp fun both => lt_of_le_of_ne both.1 (Ne.symm both.2)
      have many := le_length_of_mem_drop ((sorted.filter _).filter _) beyond
      rw [filter_filter] at many
      have fewer : ((unpinned C d).filter fun b => decide (a < b) && decide (cutoff now ≤ b)).length ≤
          ((unpinned C d).filter (a < ·)).length := by
        apply List.Sublist.length_le
        apply monotone_filter_right
        intro b both
        exact (Bool.and_eq_true_iff.1 both).1
      exact (many.trans fewer).not_gt few

lemma Run.mem_dates (run : Run C d₀ ws d) (mem : a ∈ listSnapshotDates d) : a ∈ listSnapshotDates d₀ ∨ a ∈ ws := by
  induction run with
  | start => exact .inl mem
  | @call ws d d' now pins payload b run named written ih =>
    obtain ⟨p, cs, -, -, rfl⟩ := (writeSnapshot_eq_ok named).1 written
    have mem := (mem_dates_pruneSnapshots.1 mem).1
    rw [mem_listSnapshotDates, get_set] at mem
    rw [mem_append, mem_singleton]
    obtain ⟨date, found⟩ := mem
    split at found
    · rename_i same
      exact .inr (.inr same)
    · rcases ih (mem_listSnapshotDates.2 ⟨date, found⟩) with first | earlier
      · exact .inl first
      · exact .inr (.inl earlier)
  | raised _ _ ih => exact ih mem

lemma Run.newest (run : Run C d₀ ws d) (date : isDate m = true) (among : m ∈ listSnapshotDates d₀ ∨ m ∈ ws)
    (newest : ∀ b, b ∈ listSnapshotDates d₀ ∨ b ∈ ws → isDate b = true → b ≤ m) : m ∈ listSnapshotDates d := by
  induction run with
  | start => exact among.resolve_right not_mem_nil
  | @call ws d d' now pins payload a run named written ih =>
    obtain ⟨p, cs, -, -, rfl⟩ := (writeSnapshot_eq_ok named).1 written
    have stored : m ∈ listSnapshotDates (⟨d.files.set a (cs ++ ['\n']), pins⟩ : Directory) := by
      rw [mem_listSnapshotDates, get_set]
      refine ⟨date, ?_⟩
      split
      · rfl
      · rename_i other
        have before : m ∈ listSnapshotDates d₀ ∨ m ∈ ws := by
          rcases among with first | listed
          · exact .inl first
          · rcases mem_append.1 listed with earlier | last
            · exact .inr earlier
            · exact absurd (mem_singleton.1 last) other
        have present := ih before fun b among => newest b (among.imp id (mem_append_left _))
        exact (mem_listSnapshotDates.1 present).2
    refine mem_dates_pruneSnapshots.2 ⟨stored, notMem_dropped (mem_shielded_of_newest stored ?_)⟩
    intro b listed
    obtain ⟨date, found⟩ := mem_listSnapshotDates.1 listed
    refine newest b ?_ date
    rw [get_set] at found
    split at found
    · rename_i same
      exact .inr (mem_append_right _ (mem_singleton.2 same))
    · exact (run.mem_dates (mem_listSnapshotDates.2 ⟨date, found⟩)).imp id (mem_append_left _)
  | raised _ _ ih => exact ih among newest

def stampedNames : List Text :=
  ["schema_version", "screen_id", "screen_version", "universe_id", "built_at", "sha256"].map Text.of

lemma get_signed {p : Payload φ} {k : Text} (signs : signed C now payload = .ok p) (other : k ∉ stampedNames) :
    p.get k = payload.get k := by
  obtain ⟨digest, -, signs⟩ := bind_eq_ok.1 signs
  obtain rfl := Except.ok.inj signs
  simp only [stampedNames, map_cons, map_nil, mem_cons, not_mem_nil, or_false, not_or] at other
  obtain ⟨schema, screen, version, scope, built, sha⟩ := other
  rw [get_set_of_ne sha, stamp, get_set_of_ne built, get_set_of_ne scope, get_set_of_ne version,
    get_set_of_ne screen, get_set_of_ne schema]

/-- After every call of a run: where the prune leaves it, the written date reads back as the payload; the pinned files
and the newest date are there; and a file that is read records no digest or its own. -/
theorem snapshots_retained (lawful : C.Lawful) (run : Run C d₀ ws d) (named : asOf payload = some a)
    (date : isDate a = true) (plain : payload.Plain)
    (written : writeSnapshot C now { d with pins := pins } payload = .ok d') :
    ∃ p cs, signed C now payload = .ok p ∧ canonical C p.value = .ok cs ∧
      (∀ k, k ∉ stampedNames → p.get k = payload.get k) ∧
      (Stays C now ⟨d.files.set a (cs ++ ['\n']), pins⟩ a →
        ∃ fs, p.value.encode C.floats = .ok (.obj fs) ∧
          readSnapshot C d' (some a) = .ok (some (Doc.joinedFields fs))) ∧
      (∀ b ∈ loadPinnedAsOf C d', d'.files.get b = (d.files.set a (cs ++ ['\n'])).get b) ∧
      (∀ m, isDate m = true → m ∈ listSnapshotDates d₀ ∨ m ∈ ws ++ [a] →
        (∀ b, b ∈ listSnapshotDates d₀ ∨ b ∈ ws ++ [a] → isDate b = true → b ≤ m) → (d'.files.get m).isSome = true) ∧
      ((listSnapshotDates d').filter (· ∉ loadPinnedAsOf C d')).length ≤ maxFiles ∧
      (∀ e b fields, readSnapshot C e (some b) = .ok (some fields) →
        (∃ content, e.files.get b = some content ∧ loads (Hooks.plain C.floats) content = .ok (.obj fields)) ∧
          ((Doc.get fields "sha256").truthy C.floats = true →
            ∃ digest, sha256Of' C fields = .ok digest ∧ Doc.get fields "sha256" = .str digest) ∧
          ∀ digest, Function.Injective C.sha256 → p.get (Text.of "sha256") = some (.str digest) →
            Doc.get fields "sha256" = .str digest →
              ∃ body, (Payload.value (p.erase (Text.of "sha256"))).encode C.floats = .ok body ∧
                (Doc.obj (fields.filter (·.1 ≠ Text.of "sha256"))).sortKeys.joined = body.joined) := by
  have afterwards : Run C d₀ (ws ++ [a]) d' := run.call named written
  obtain ⟨p, cs, signs, text, rfl⟩ := (writeSnapshot_eq_ok named).1 written
  -- a prune reads the pins file and leaves it
  have same_pins : loadPinnedAsOf C (pruneSnapshots C now ⟨d.files.set a (cs ++ ['\n']), pins⟩).1 =
      loadPinnedAsOf C ⟨d.files.set a (cs ++ ['\n']), pins⟩ := by
    rw [loadPinnedAsOf, loadPinnedAsOf, pins_pruneSnapshots]
  have listed : a ∈ listSnapshotDates (⟨d.files.set a (cs ++ ['\n']), pins⟩ : Directory) :=
    mem_listSnapshotDates.2 ⟨date, by rw [get_set_self]; rfl⟩
  refine ⟨p, cs, signs, text, fun k other => get_signed signs other, ?_, ?_, ?_, ?_, ?_⟩
  · intro stays
    apply read_stored lawful plain signs text
    rw [get_pruneSnapshots, if_neg (stays.notMem_dropped listed), get_set_self]
  · intro b pinned
    rw [same_pins] at pinned
    rw [get_pruneSnapshots, if_neg (notMem_dropped (Finset.mem_union_right _ pinned))]
  · intro m isdate among newest
    exact (mem_listSnapshotDates.1 (afterwards.newest isdate among newest)).2
  · rw [same_pins]
    exact length_pruneSnapshots
  · intro e b fields read
    obtain ⟨object, own⟩ := of_readSnapshot read
    exact ⟨object, own, fun digest injective signed_as kept =>
      read_changed lawful injective plain signs signed_as read kept⟩

lemma Stays.of_pinned {e : Directory} (same : d.pins = e.pins) (pinned : a ∈ loadPinnedAsOf C e) : Stays C now d a := by
  refine .inr (.inl ?_)
  rw [loadPinnedAsOf] at pinned ⊢
  rw [same]
  exact pinned

end Runs

/-! ## A directory -/

def plainCodec : Codec Unit where
  floats := Floats.infinite
  sha256 cs := 35 :: cs.map fun c => Fin.ofNat _ (c.toNat % 55296)
  str
    | .str s => s
    | _ => []

lemma lawful_plainCodec : plainCodec.Lawful where
  floats := Floats.lawful_infinite
  nonempty _ := cons_ne_nil _ _
  plain := by
    intro cs c mem
    rcases mem_cons.1 mem with rfl | mem
    · decide
    · obtain ⟨x, -, rfl⟩ := mem_map.1 mem
      have small := Nat.mod_lt x.toNat (show 0 < 55296 by decide)
      show x.toNat % 55296 % 1114112 < 55296
      omega

def clock : DateTime := ⟨{ year := 2026, month := 8, day := 18 }, by constructor <;> decide⟩

def dated (a : String) : Payload Unit := Dict.empty.set (Text.of "as_of") (.str (Text.of a))

lemma asOf_dated {a : String} : asOf (dated a) = some (Text.of a) := by
  rw [asOf, dated, get_set_self]

lemma plain_dated {a : String} : (dated a).Plain := by
  have plain : Payload.Plain (Dict.empty : Payload Unit) := fun _ mem => absurd mem not_mem_nil
  exact plain.set (joined_of (by decide)) .str

lemma exists_of_any {ε α : Type} {x : Except ε α} {test : α → Bool} (holds : x.toOption.any test = true) :
    ∃ a, x = .ok a ∧ test a = true := by
  cases x with
  | error e => cases holds
  | ok a => exact ⟨a, rfl, holds⟩

def twoPins : Option (List Char) := some "[\"2026-01-05\", \"2026-01-06\"]".toList

/-- Three calls: January 5 is pinned from the second on, and the third prunes February 2. -/
def threeWrites (holds : Directory → Bool) : Bool :=
  (writeSnapshot plainCodec clock ⟨Dict.empty, none⟩ (dated "2026-01-05")).toOption.any fun d₁ =>
    (writeSnapshot plainCodec clock { d₁ with pins := twoPins } (dated "2026-02-02")).toOption.any fun d₂ =>
      (writeSnapshot plainCodec clock { d₂ with pins := twoPins } (dated "2026-08-18")).toOption.any holds

lemma run_threeWrites {holds : Directory → Bool} (ends : threeWrites holds = true) :
    ∃ d, Run plainCodec ⟨Dict.empty, none⟩ [Text.of "2026-01-05", Text.of "2026-02-02", Text.of "2026-08-18"] d ∧
      holds d = true := by
  obtain ⟨d₁, first, ends⟩ := exists_of_any ends
  obtain ⟨d₂, second, ends⟩ := exists_of_any ends
  obtain ⟨d₃, third, holds⟩ := exists_of_any ends
  have none_ : Run plainCodec ⟨Dict.empty, none⟩ [] ⟨Dict.empty, none⟩ := .start
  have one : Run plainCodec ⟨Dict.empty, none⟩ [Text.of "2026-01-05"] d₁ := none_.call asOf_dated first
  have two : Run plainCodec ⟨Dict.empty, none⟩ [Text.of "2026-01-05", Text.of "2026-02-02"] d₂ :=
      one.call asOf_dated second
  exact ⟨d₃, two.call asOf_dated third, holds⟩

/-- February 2 is gone; a back-fill of January 6, which is pinned, reads back, and January 5 and August 18 are still
there. -/
theorem snapshots_retained_pinned : ∃ d d',
    Run plainCodec ⟨Dict.empty, none⟩ [Text.of "2026-01-05", Text.of "2026-02-02", Text.of "2026-08-18"] d ∧
    listSnapshotDates d = [Text.of "2026-08-18", Text.of "2026-01-05"] ∧
    writeSnapshot plainCodec clock { d with pins := twoPins } (dated "2026-01-06") = .ok d' ∧
    (∃ fields, readSnapshot plainCodec d' (some (Text.of "2026-01-06")) = .ok (some fields)) ∧
    (d'.files.get (Text.of "2026-01-05")).isSome = true ∧ (d'.files.get (Text.of "2026-08-18")).isSome = true ∧
    ((listSnapshotDates d').filter (· ∉ loadPinnedAsOf plainCodec d')).length ≤ maxFiles := by
  have ends : threeWrites (fun d => listSnapshotDates d = [Text.of "2026-08-18", Text.of "2026-01-05"] &&
      (writeSnapshot plainCodec clock { d with pins := twoPins } (dated "2026-01-06")).toOption.any fun d' =>
        Text.of "2026-01-05" ∈ loadPinnedAsOf plainCodec d') = true := by
    decide +kernel
  obtain ⟨d, run, holds⟩ := run_threeWrites ends
  obtain ⟨dates, last⟩ := Bool.and_eq_true_iff.1 holds
  obtain ⟨d', written, pinned⟩ := exists_of_any last
  have kept : listSnapshotDates d = [Text.of "2026-08-18", Text.of "2026-01-05"] := of_decide_eq_true dates
  obtain ⟨p, cs, -, -, -, back, unchanged, newest, few, -⟩ := snapshots_retained lawful_plainCodec run asOf_dated
    (by decide +kernel) plain_dated written
  obtain ⟨fs, -, read⟩ := back (Stays.of_pinned (e := ⟨Dict.empty, twoPins⟩) rfl (by decide +kernel))
  have old : (d.files.get (Text.of "2026-01-05")).isSome = true := (mem_listSnapshotDates.1 (by rw [kept]; simp)).2
  refine ⟨d, d', run, kept, written, ⟨_, read⟩, ?_, ?_, few⟩
  · rw [unchanged _ (of_decide_eq_true pinned), get_set_of_ne (by decide +kernel)]
    exact old
  · refine newest _ (by decide +kernel) (.inr (by simp)) fun b among _ => ?_
    obtain none_ | called := among
    · exact absurd none_ (by simp [listSnapshotDates, Dict.empty])
    · simp only [List.mem_append, List.mem_cons, List.not_mem_nil, or_false] at called
      rcases called with (rfl | rfl | rfl) | rfl
      all_goals decide +kernel

def isAbsent {ε α : Type} : Except ε (Option α) → Bool
  | .ok none => true
  | _ => false

lemma eq_of_isAbsent {ε α : Type} {x : Except ε (Option α)} (absent : isAbsent x = true) : x = .ok none := by
  match x, absent with
  | .ok none, _ => rfl

def splitKeys : Payload Unit :=
  ((dated "2026-08-18").set [Fin.ofNat _ 0xd83d, Fin.ofNat _ 0xde00] (.int 1)).set [Fin.ofNat _ 0xffff] (.int 2)

/-- A late back-fill is pruned by its own write; a file that lost its digest is returned; keys that split a surrogate
pair are in another order once they are read. -/
theorem backfill_pruned_unsigned_returned :
    (∃ d d', writeSnapshot plainCodec clock ⟨Dict.empty, none⟩ (dated "2026-08-18") = .ok d ∧
      writeSnapshot plainCodec clock d (dated "2026-01-05") = .ok d' ∧
      readSnapshot plainCodec d' (some (Text.of "2026-01-05")) = .ok none) ∧
    (∃ d, writeSnapshot plainCodec clock ⟨Dict.empty, none⟩ (dated "2026-08-18") = .ok d ∧
      readSnapshot plainCodec { d with files := d.files.set (Text.of "2026-08-18") "{}".toList }
        (some (Text.of "2026-08-18")) = .ok (some [])) ∧
    (∃ d, writeSnapshot plainCodec clock ⟨Dict.empty, none⟩ splitKeys = .ok d ∧
      readSnapshot plainCodec d (some (Text.of "2026-08-18")) = .ok none) := by
  refine ⟨?_, ?_, ?_⟩
  · have ends : (writeSnapshot plainCodec clock ⟨Dict.empty, none⟩ (dated "2026-08-18")).toOption.any (fun d =>
        (writeSnapshot plainCodec clock d (dated "2026-01-05")).toOption.any fun d' =>
          isAbsent (readSnapshot plainCodec d' (some (Text.of "2026-01-05")))) = true := by
      decide +kernel
    obtain ⟨d, written, ends⟩ := exists_of_any ends
    obtain ⟨d', filled, absent⟩ := exists_of_any ends
    exact ⟨d, d', written, filled, eq_of_isAbsent absent⟩
  · have ends : (writeSnapshot plainCodec clock ⟨Dict.empty, none⟩ (dated "2026-08-18")).toOption.any
      (fun _ => true) = true := by
      decide +kernel
    obtain ⟨d, written, -⟩ := exists_of_any ends
    have object : loads (Hooks.plain plainCodec.floats) "{}".toList = .ok (.obj []) := rfl
    refine ⟨d, written, ?_⟩
    rw [readSnapshot, Option.some_or, Option.bind_some, get_set_self]
    simp only [object]
    rfl
  · have ends : (writeSnapshot plainCodec clock ⟨Dict.empty, none⟩ splitKeys).toOption.any (fun d =>
        isAbsent (readSnapshot plainCodec d (some (Text.of "2026-08-18")))) = true := by
      decide +kernel
    obtain ⟨d, written, absent⟩ := exists_of_any ends
    exact ⟨d, written, eq_of_isAbsent absent⟩

end Workbench.Research.Snapshot
