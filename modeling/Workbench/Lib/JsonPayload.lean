import Workbench.Lib.JsonDumps

/-!
# Payloads

A payload is a value of dictionaries with string keys, lists and scalars: what a program hands to `json.dumps` to be
read back. Its document has sorted keys that stay sorted when surrogate pairs are joined (`Plain.encode`), so that a
text of it that is followed by white space reads back as it (`loads_object`), and its canonical text is the text again.
-/

namespace Workbench.Lib
open List Bool

variable {φ : Type} {F : Floats φ}

/-! ## Payloads -/

def strEntries {α : Type} (fields : List (Text × α)) : List (Key φ × α) := fields.map fun f => (.str f.1, f.2)

/-- A value whose dictionaries have distinct string keys, none of which splits a surrogate pair. -/
inductive PyValue.Plain : PyValue φ → Prop where
  | null : Plain .null
  | bool {b} : Plain (.bool b)
  | int {n} : Plain (.int n)
  | float {x} : Plain (.float x)
  | str {s} : Plain (.str s)
  | date {s} : Plain (.date s)
  | list {vs} : (∀ v ∈ vs, Plain v) → Plain (.list vs)
  | tuple {vs} : (∀ v ∈ vs, Plain v) → Plain (.tuple vs)
  | dict {fs : List (Text × PyValue φ)} :
    (fs.map Prod.fst).Nodup → (∀ f ∈ fs, f.1.joined = f.1) → (∀ f ∈ fs, Plain f.2) → Plain (.dict (strEntries fs))

/-! ## The document of a payload -/

namespace Doc
variable {fs : List (Text × Doc φ)}

lemma joinedFields_eq_map : joinedFields fs = fs.map fun f => (f.1.joined, f.2.joined) := by
  induction fs with
  | nil => rfl
  | cons f fs ih =>
    obtain ⟨k, v⟩ := f
    rw [joinedFields, ih, map_cons]

lemma joinedItems_eq_map {vs : List (Doc φ)} : joinedItems vs = vs.map joined := by
  induction vs with
  | nil => rfl
  | cons v vs ih => rw [joinedItems, ih, map_cons]

lemma fitsItems_iff {vs : List (Doc φ)} : fitsItems vs = true ↔ ∀ v ∈ vs, v.fits = true := by
  induction vs with
  | nil => simp [fitsItems]
  | cons v vs ih => rw [fitsItems, and_eq_true, ih, forall_mem_cons]

lemma fitsFields_iff : fitsFields fs = true ↔ ∀ f ∈ fs, f.2.fits = true := by
  induction fs with
  | nil => simp [fitsFields]
  | cons f fs ih =>
    obtain ⟨k, v⟩ := f
    rw [fitsFields, and_eq_true, ih, forall_mem_cons]

lemma orderedItems_iff {vs : List (Doc φ)} : orderedItems vs = true ↔ ∀ v ∈ vs, v.ordered = true := by
  induction vs with
  | nil => simp [orderedItems]
  | cons v vs ih => rw [orderedItems, and_eq_true, ih, forall_mem_cons]

lemma orderedFields_iff : orderedFields fs = true ↔ ∀ f ∈ fs, f.2.ordered = true := by
  induction fs with
  | nil => simp [orderedFields]
  | cons f fs ih =>
    obtain ⟨k, v⟩ := f
    rw [orderedFields, and_eq_true, ih, forall_mem_cons]

def sorted (fs : List (Text × Doc φ)) : List (Text × Doc φ) := fs.insertionSort fun a b => a.1 ≤ b.1

lemma mem_sorted {f : Text × Doc φ} : f ∈ sorted fs ↔ f ∈ fs :=
  mem_insertionSort _

lemma pairwise_sorted (distinct : (fs.map Prod.fst).Nodup) : ((sorted fs).map Prod.fst).Pairwise (· < ·) := by
  have perm : List.Perm ((sorted fs).map Prod.fst) (fs.map Prod.fst) := (perm_insertionSort _ fs).map _
  have nodup : ((sorted fs).map Prod.fst).Pairwise (· ≠ ·) := perm.nodup_iff.2 distinct
  have le : ((sorted fs).map Prod.fst).Pairwise (· ≤ ·) := by
    rw [pairwise_map]
    exact pairwise_insertionSort _ fs
  exact (le.and nodup).imp fun both => lt_of_le_of_ne both.1 both.2

end Doc

namespace PyValue
variable {fs : List (Text × PyValue φ)}

lemma map_eq_ok {ε α β : Type} {f : α → β} {x : Except ε α} {b : β} (ends : x.map f = .ok b) :
    ∃ a, x = .ok a ∧ f a = b := by
  cases x with
  | error e => cases ends
  | ok a => exact ⟨a, rfl, Except.ok.inj ends⟩

lemma encodeItems_forall {vs : List (PyValue φ)} {ds : List (Doc φ)} (written : encodeItems F vs = .ok ds) :
    List.Forall₂ (fun v d => encode F v = .ok d) vs ds := by
  induction vs generalizing ds with
  | nil =>
    obtain rfl := Except.ok.inj written
    exact .nil
  | cons v vs ih =>
    rw [encodeItems] at written
    obtain ⟨d, head, written⟩ := bind_eq_ok.1 written
    obtain ⟨ds', tail, written⟩ := bind_eq_ok.1 written
    obtain rfl := Except.ok.inj written
    exact .cons head (ih tail)

lemma encodeEntries_str {es : List (Key φ × Doc φ)} (written : encodeEntries F (strEntries fs) = .ok es) :
    ∃ gs, es = strEntries gs ∧ List.Forall₂ (fun f g => f.1 = g.1 ∧ encode F f.2 = .ok g.2) fs gs := by
  induction fs generalizing es with
  | nil =>
    obtain rfl := Except.ok.inj written
    exact ⟨[], rfl, .nil⟩
  | cons f fs ih =>
    rw [strEntries, map_cons, encodeEntries] at written
    obtain ⟨d, head, written⟩ := bind_eq_ok.1 written
    obtain ⟨es', tail, written⟩ := bind_eq_ok.1 written
    obtain ⟨gs, rfl, rest⟩ := ih tail
    obtain rfl := Except.ok.inj written
    exact ⟨(f.1, d) :: gs, rfl, .cons ⟨rfl, head⟩ rest⟩

lemma sortEntries_str {gs : List (Text × Doc φ)} :
    sortEntries F (strEntries gs) = .ok (strEntries (Doc.sorted gs)) := by
  rw [sortEntries]
  split
  · rename_i short
    match gs with
    | [] => rfl
    | [_] => rfl
    | _ :: _ :: _ => simp [strEntries] at short
  · have strings : (strEntries gs).mapM (fun e => (keyString e.1).map fun k => (k, e)) =
        some (gs.map fun g => (g.1, ((.str g.1, g.2) : Key φ × Doc φ))) := by
      clear * -
      induction gs with
      | nil => rfl
      | cons g gs ih =>
        rw [strEntries] at ih ⊢
        rw [map_cons, mapM_cons, ih]
        rfl
    have sorted : (gs.map fun g => (g.1, ((.str g.1, g.2) : Key φ × Doc φ))).insertionSort (fun a b => a.1 ≤ b.1) =
        (Doc.sorted gs).map fun g => (g.1, ((.str g.1, g.2) : Key φ × Doc φ)) := by
      symm
      apply map_insertionSort
      intro a _ b _
      exact Iff.rfl
    rw [strings]
    dsimp only
    rw [sorted, map_map]
    rfl

lemma encode_dict {d : Doc φ} (written : encode F (.dict (strEntries fs)) = .ok d) :
    ∃ gs, d = .obj (Doc.sorted gs) ∧ List.Forall₂ (fun f g => f.1 = g.1 ∧ encode F f.2 = .ok g.2) fs gs := by
  have names {gs : List (Text × Doc φ)} :
      (strEntries gs).mapM (fun e => (keyText F e.1).map fun k => (k, e.2)) = .ok gs := by
    induction gs with
    | nil => rfl
    | cons g gs ih =>
      rw [strEntries] at ih ⊢
      rw [map_cons, mapM_cons, ih]
      rfl
  rw [encode] at written
  obtain ⟨es, inside, written⟩ := bind_eq_ok.1 written
  obtain ⟨gs, rfl, same⟩ := encodeEntries_str inside
  obtain ⟨es, sorted, written⟩ := bind_eq_ok.1 written
  rw [sortEntries_str] at sorted
  obtain rfl := Except.ok.inj sorted
  obtain ⟨fields, named, written⟩ := bind_eq_ok.1 written
  rw [names] at named
  obtain rfl := Except.ok.inj named
  exact ⟨gs, (Except.ok.inj written).symm, same⟩

lemma exists_of_forall₂ {α β : Type} {R : α → β → Prop} {as : List α} {bs : List β} (related : List.Forall₂ R as bs)
    {b : β} (mem : b ∈ bs) : ∃ a ∈ as, R a b := by
  induction related with
  | nil => cases mem
  | @cons a b' as bs head _ ih =>
    rcases mem_cons.1 mem with rfl | mem
    · exact ⟨a, mem_cons_self, head⟩
    · obtain ⟨a', mem, rel⟩ := ih mem
      exact ⟨a', mem_cons_of_mem a mem, rel⟩

lemma exists_of_forall₂' {α β : Type} {R : α → β → Prop} {as : List α} {bs : List β} (related : List.Forall₂ R as bs)
    {a : α} (mem : a ∈ as) : ∃ b ∈ bs, R a b :=
  exists_of_forall₂ related.flip mem

lemma items_encoded {vs : List (PyValue φ)} {ds : List (Doc φ)}
    (each : ∀ v ∈ vs, ∀ {d : Doc φ}, v.encode F = .ok d → d.fits = true ∧ d.joined.ordered = true)
    (same : List.Forall₂ (fun v d => encode F v = .ok d) vs ds) :
    (Doc.arr ds).fits = true ∧ (Doc.arr ds).joined.ordered = true := by
  have all : ∀ d ∈ ds, d.fits = true ∧ d.joined.ordered = true := by
    intro d mem
    obtain ⟨v, memv, written⟩ := exists_of_forall₂ same mem
    exact each v memv written
  refine ⟨Doc.fitsItems_iff.2 fun d mem => (all d mem).1, ?_⟩
  rw [Doc.joined, Doc.ordered, Doc.orderedItems_iff, Doc.joinedItems_eq_map]
  intro d listed
  obtain ⟨d, mem, rfl⟩ := mem_map.1 listed
  exact (all d mem).2

lemma keys_encoded {gs : List (Text × Doc φ)}
    (same : List.Forall₂ (fun f g => f.1 = g.1 ∧ encode F f.2 = .ok g.2) fs gs) :
    gs.map Prod.fst = fs.map Prod.fst := by
  induction same with
  | nil => rfl
  | cons head _ ih => rw [map_cons, map_cons, head.1, ih]

lemma fields_encoded {gs : List (Text × Doc φ)} (distinct : (fs.map Prod.fst).Nodup)
    (whole : ∀ f ∈ fs, f.1.joined = f.1)
    (each : ∀ f ∈ fs, ∀ {d : Doc φ}, f.2.encode F = .ok d → d.fits = true ∧ d.joined.ordered = true)
    (same : List.Forall₂ (fun f g => f.1 = g.1 ∧ encode F f.2 = .ok g.2) fs gs) :
    (Doc.obj (Doc.sorted gs)).fits = true ∧ (Doc.obj (Doc.sorted gs)).joined.ordered = true := by
  have keys := keys_encoded same
  have all : ∀ g ∈ Doc.sorted gs, g.1.joined = g.1 ∧ g.2.fits = true ∧ g.2.joined.ordered = true := by
    intro g mem
    obtain ⟨f, memf, key, written⟩ := exists_of_forall₂ same (Doc.mem_sorted.1 mem)
    rw [← key]
    exact ⟨whole f memf, each f memf written⟩
  refine ⟨Doc.fitsFields_iff.2 fun g mem => (all g mem).2.1, ?_⟩
  have joined_keys : (Doc.joinedFields (Doc.sorted gs)).map Prod.fst = (Doc.sorted gs).map Prod.fst := by
    rw [Doc.joinedFields_eq_map, map_map]
    apply map_congr_left
    intro g mem
    exact (all g mem).1
  rw [Doc.joined, Doc.ordered, and_eq_true, Doc.orderedFields_iff, joined_keys]
  refine ⟨?_, decide_eq_true (Doc.pairwise_sorted (by rw [keys]; exact distinct))⟩
  intro g listed
  rw [Doc.joinedFields_eq_map] at listed
  obtain ⟨g, mem, rfl⟩ := mem_map.1 listed
  exact (all g mem).2.2

/-- The document of a payload: no integer is too long, and its keys increase, also with its pairs joined. -/
theorem Plain.encode {v : PyValue φ} (plain : v.Plain) {d : Doc φ} (written : v.encode F = .ok d) :
    d.fits = true ∧ d.joined.ordered = true := by
  induction plain generalizing d with
  | null =>
    obtain rfl := Except.ok.inj written
    exact ⟨rfl, rfl⟩
  | bool =>
    obtain rfl := Except.ok.inj written
    exact ⟨rfl, rfl⟩
  | @int n =>
    rw [PyValue.encode, intRepr] at written
    obtain ⟨cs, short, rfl⟩ := map_eq_ok written
    exact ⟨decide_eq_true (not_lt.1 (raiseIf_bind_eq_ok.1 short).1), rfl⟩
  | float =>
    obtain rfl := Except.ok.inj written
    exact ⟨rfl, rfl⟩
  | str =>
    obtain rfl := Except.ok.inj written
    exact ⟨rfl, rfl⟩
  | date =>
    obtain rfl := Except.ok.inj written
    exact ⟨rfl, rfl⟩
  | @list vs _ ih =>
    obtain ⟨ds, items, rfl⟩ := map_eq_ok written
    exact items_encoded ih (encodeItems_forall items)
  | @tuple vs _ ih =>
    obtain ⟨ds, items, rfl⟩ := map_eq_ok written
    exact items_encoded ih (encodeItems_forall items)
  | @dict fs distinct whole _ ih =>
    obtain ⟨gs, rfl, same⟩ := encode_dict written
    exact fields_encoded distinct whole ih same

end PyValue

/-! ## The text of an object -/

namespace Loads

variable {H : Hooks φ} {q : Separators}

lemma value_object (lawful : F.Lawful) {fs : List (Text × Doc φ)} {n : Nat} {t : List Char}
    (takes : Takes H F (.obj fs)) (fuel : ((Doc.obj fs).text F q).length ≤ n) :
    value H n ((Doc.obj fs).text F q ++ t) = .ok ((Doc.obj fs).joined, t) := by
  cases n with
  | zero =>
    have := text_length (q := q) lawful (d := .obj fs)
    omega
  | succ n =>
    cases fs with
    | nil =>
      have pairs : H.pairs [] = .ok [] := takes.2
      have close : skip ('}' :: t) = '}' :: t := skip_cons (by decide)
      rw [Doc.text, Doc.textFields, cons_append, singleton_append, value, close]
      simp only [pairs]
      rfl
    | cons f fs =>
      obtain ⟨k, v⟩ := f
      have read := fields_text (q := q) lawful (t := t) (n := n) (cons_ne_nil (k, v) fs) takes.1 (by
        rw [Doc.text, length_cons] at fuel
        omega)
      rw [Doc.textFields, Text.quote] at read
      rw [Doc.text, Doc.textFields, Text.quote]
      simp only [cons_append] at read ⊢
      rw [value_fields, read]
      show (do
        let fs ← H.pairs (Doc.joinedFields ((k, v) :: fs))
        return (Doc.obj fs, t)) = _
      rw [takes.2]
      rfl

end Loads

/-- The text of an object reads back as the object with its pairs joined, also with white space behind it. -/
theorem loads_object {H : Hooks φ} {q : Separators} (lawful : F.Lawful) {fs : List (Text × Doc φ)} {t : List Char}
    (takes : Loads.Takes H F (.obj fs)) (blank : Loads.skip t = []) :
    loads H ((Doc.obj fs).text F q ++ t) = .ok (Doc.obj fs).joined := by
  have read := Loads.value_object (q := q) lawful (n := 2 * ((Doc.obj fs).text F q ++ t).length + 2) (t := t) takes
    (by rw [length_append]; omega)
  have skip := Loads.skip_text (q := q) lawful (d := .obj fs) (t := t)
  rw [loads, skip, read]
  show (do
    raiseIf (Loads.skip t ≠ []) LoadError.decode
    return (Doc.obj fs).joined) = _
  rw [blank, raiseIf_bind_eq_ok]
  exact ⟨fun ne => ne rfl, rfl⟩

end Workbench.Lib
