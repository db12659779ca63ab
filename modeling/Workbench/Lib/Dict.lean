import Mathlib.Data.List.Nodup
import Mathlib.Tactic

/-!
# Insertion-ordered dictionaries

A dictionary is the list of its entries in insertion order, with no key twice. `set` overwrites the
entry of a key that is present (keeping its place) and appends otherwise, `get` looks a key up,
`erase` drops it, `mapMaybe` rewrites every value and drops some of them.

`groupBy` is the loop that folds rows into a dictionary, one accumulator a key; `get_groupBy` says
that the accumulator of a key is the fold over the rows of that key alone.
-/

namespace Workbench.Lib
open Option Finset

/-- An insertion-ordered dictionary. -/
structure Dict (κ ν : Type*) where
  entries : List (κ × ν)
  nodup : (entries.map Prod.fst).Nodup
  deriving DecidableEq, Repr

namespace Dict
variable {α : Type*} {κ ν μ ρ : Type*}

def empty : Dict κ ν := ⟨[], List.nodup_nil⟩

def values (d : Dict κ ν) : List ν := d.entries.map (·.2)

variable [DecidableEq κ]

/-- The value stored under `k`. -/
def get (d : Dict κ ν) (k : κ) : Option ν := d.entries.lookup k

/-- Whether `k` is a key. -/
def contains (d : Dict κ ν) (k : κ) : Bool := (d.get k).isSome

/-- Overwrite the first entry of `k`, or append one. -/
def setEntry (k : κ) (v : ν) : List (κ × ν) → List (κ × ν)
  | [] => [(k, v)]
  | e :: es => if e.1 = k then (k, v) :: es else e :: setEntry k v es

lemma mem_keys_setEntry {k k' : κ} {v : ν} {es : List (κ × ν)} :
    k' ∈ (setEntry k v es).map Prod.fst ↔ k' = k ∨ k' ∈ es.map Prod.fst := by
  induction es with
  | nil => simp [setEntry]
  | cons e es ih =>
    simp only [setEntry]
    split
    · rename_i eq; subst eq; simp
    · simp only [List.map_cons, List.mem_cons, ih]; tauto

lemma nodup_setEntry {k : κ} {v : ν} {es : List (κ × ν)} (nd : (es.map Prod.fst).Nodup) :
    ((setEntry k v es).map Prod.fst).Nodup := by
  induction es with
  | nil => simp [setEntry]
  | cons e es ih =>
    rw [List.map_cons, List.nodup_cons] at nd
    simp only [setEntry]
    split
    · rename_i eq; subst eq; simpa using nd
    · rename_i ne
      rw [List.map_cons, List.nodup_cons, mem_keys_setEntry]
      exact ⟨by rintro (eq | m); exacts [ne eq, nd.1 m], ih nd.2⟩

/-- Store `v` under `k`. -/
def set (d : Dict κ ν) (k : κ) (v : ν) : Dict κ ν := ⟨setEntry k v d.entries, nodup_setEntry d.nodup⟩

/-- Remove `k`. -/
def erase (d : Dict κ ν) (k : κ) : Dict κ ν where
  entries := d.entries.filter (·.1 ≠ k)
  nodup := d.nodup.sublist (List.filter_sublist.map _)

/-- Rewrite every value, dropping the entries mapped to nothing. -/
def mapMaybe (d : Dict κ ν) (f : κ → ν → Option μ) : Dict κ μ where
  entries := d.entries.filterMap fun e => (f e.1 e.2).map (e.1, ·)
  nodup := by
    obtain ⟨es, nd⟩ := d
    induction es with
    | nil => simp
    | cons e es ih =>
      rw [List.map_cons, List.nodup_cons] at nd
      cases h : f e.1 e.2 with
      | none => simpa [List.filterMap_cons, h] using ih nd.2
      | some v =>
        simp only [List.filterMap_cons, h, map_some, List.map_cons, List.nodup_cons]
        refine ⟨?_, ih nd.2⟩
        intro m
        obtain ⟨x, mx, eq⟩ := List.mem_map.1 m
        obtain ⟨y, my, hy⟩ := List.mem_filterMap.1 mx
        obtain ⟨w, -, rfl⟩ := map_eq_some_iff.1 hy
        exact nd.1 (List.mem_map.2 ⟨y, my, eq⟩)

/-- Rewrite every value, keeping the keys in their places. -/
def mapValues (d : Dict κ ν) (f : κ → ν → μ) : Dict κ μ where
  entries := d.entries.map fun e => (e.1, f e.1 e.2)
  nodup := by
    rw [List.map_map]
    exact d.nodup

/-- Fold the rows into a dictionary: each row updates the accumulator of its key. -/
def groupBy (key : ρ → κ) (f : Option ν → ρ → ν) (rows : List ρ) : Dict κ ν :=
  rows.foldl (fun d r => d.set (key r) (f (d.get (key r)) r)) empty

@[simp] lemma get_empty {k : κ} : (empty : Dict κ ν).get k = none := rfl

lemma lookup_cons [BEq κ] [LawfulBEq κ] {k : κ} {e : κ × ν} {es : List (κ × ν)} :
    (e :: es).lookup k = if k = e.1 then some e.2 else es.lookup k := by
  obtain ⟨k', v⟩ := e
  rw [List.lookup_cons]
  by_cases eq : k = k'
  · simp [eq]
  · rw [beq_eq_false_iff_ne.2 eq, if_neg eq]

lemma lookup_setEntry_self {k : κ} {v : ν} {es : List (κ × ν)} : (setEntry k v es).lookup k = some v := by
  induction es with
  | nil => simp [setEntry]
  | cons e es ih =>
    simp only [setEntry]
    split
    · simp
    · rename_i ne
      rw [lookup_cons, if_neg (Ne.symm ne)]
      exact ih

lemma lookup_setEntry_of_ne {k k' : κ} {v : ν} {es : List (κ × ν)} (ne : k' ≠ k) :
    (setEntry k v es).lookup k' = es.lookup k' := by
  induction es with
  | nil => simp [setEntry, lookup_cons, ne]
  | cons e es ih =>
    simp only [setEntry]
    split
    · rename_i eq
      subst eq
      rw [lookup_cons, lookup_cons, if_neg ne, if_neg ne]
    · rw [lookup_cons, lookup_cons, ih]

@[simp] lemma get_set_self {d : Dict κ ν} {k : κ} {v : ν} : (d.set k v).get k = some v :=
  lookup_setEntry_self

lemma get_set_of_ne {d : Dict κ ν} {k k' : κ} {v : ν} (ne : k' ≠ k) : (d.set k v).get k' = d.get k' :=
  lookup_setEntry_of_ne ne

lemma get_set {d : Dict κ ν} {k k' : κ} {v : ν} : (d.set k v).get k' = if k' = k then some v else d.get k' := by
  split
  · rename_i eq; subst eq; exact get_set_self
  · rename_i ne; exact get_set_of_ne ne

lemma get_erase {d : Dict κ ν} {k k' : κ} : (d.erase k).get k' = if k' = k then none else d.get k' := by
  obtain ⟨es, nd⟩ := d
  simp only [get, erase]
  clear nd
  induction es with
  | nil => simp
  | cons e es ih =>
    by_cases gone : e.1 = k
    · rw [List.filter_cons_of_neg (by simpa using gone), ih, lookup_cons]
      split
      · rfl
      · rename_i ne
        rw [if_neg fun h => ne (h.trans gone)]
    · rw [List.filter_cons_of_pos (by simpa using gone), lookup_cons, lookup_cons, ih]
      by_cases eq : k' = e.1
      · have ne : k' ≠ k := fun h => gone (eq ▸ h)
        rw [if_pos eq, if_pos eq, if_neg ne]
      · rw [if_neg eq, if_neg eq]

@[simp] lemma set_set {d : Dict κ ν} {k : κ} {v w : ν} : (d.set k v).set k w = d.set k w := by
  have entries {es : List (κ × ν)} : setEntry k w (setEntry k v es) = setEntry k w es := by
    induction es with
    | nil => simp [setEntry]
    | cons e es ih =>
      by_cases eq : e.1 = k
      · simp [setEntry, eq]
      · simp [setEntry, eq, ih]
  unfold set
  simp only [entries]

lemma set_of_get {d : Dict κ ν} {k : κ} {v : ν} (found : d.get k = some v) : d.set k v = d := by
  have entries : setEntry k v d.entries = d.entries := by
    revert found
    rw [get]
    generalize d.entries = es
    intro found
    induction es with
    | nil => cases found
    | cons e es ih =>
      rw [lookup_cons] at found
      rw [setEntry]
      split at found
      next eq =>
        obtain rfl := some.inj found
        rw [if_pos eq.symm, eq]
      next ne => rw [if_neg (Ne.symm ne), ih found]
  simp only [set, entries]

lemma get_mapMaybe {d : Dict κ ν} {f : κ → ν → Option μ} {k : κ} : (d.mapMaybe f).get k = (d.get k).bind (f k) := by
  obtain ⟨es, nd⟩ := d
  simp only [get, mapMaybe]
  induction es with
  | nil => rfl
  | cons e es ih =>
    rw [List.map_cons, List.nodup_cons] at nd
    by_cases eq : k = e.1
    · subst eq
      rw [lookup_cons, if_pos rfl, bind_some]
      cases h : f e.1 e.2 with
      | some v => simp [h]
      | none =>
        -- the key is gone from the rest of the list, so the later entries cannot answer for it
        have none : es.lookup e.1 = none := by
          rw [List.lookup_eq_none_iff]
          intro p mp
          simpa using fun h : e.1 = p.1 => nd.1 (List.mem_map.2 ⟨p, mp, h.symm⟩)
        rw [List.filterMap_cons, h, map_none, ih nd.2, none, bind_none]
    · rw [lookup_cons, if_neg eq]
      cases h : f e.1 e.2 with
      | some v => rw [List.filterMap_cons, h, map_some, lookup_cons, if_neg eq, ih nd.2]
      | none => rw [List.filterMap_cons, h, map_none, ih nd.2]

omit [DecidableEq κ] in
lemma keys_mapValues {d : Dict κ ν} {f : κ → ν → μ} :
    (d.mapValues f).entries.map Prod.fst = d.entries.map Prod.fst := by
  rw [mapValues, List.map_map]
  rfl

lemma get_mapValues {d : Dict κ ν} {f : κ → ν → μ} {k : κ} : (d.mapValues f).get k = (d.get k).map (f k) := by
  obtain ⟨es, nd⟩ := d
  simp only [get, mapValues]
  induction es with
  | nil => rfl
  | cons e es ih =>
    rw [List.map_cons, List.nodup_cons] at nd
    rw [List.map_cons, lookup_cons, lookup_cons, ih nd.2]
    split
    · rename_i eq
      rw [eq, map_some]
    · rfl

omit [DecidableEq κ] in
lemma mapValues_mapValues {ξ : Type*} {d : Dict κ ν} {f : κ → ν → μ} {g : κ → μ → ξ} :
    (d.mapValues f).mapValues g = d.mapValues fun k v => g k (f k v) := by
  simp only [mapValues, List.map_map, Function.comp_def]

omit [DecidableEq κ] in
lemma mapValues_eq_self {d : Dict κ ν} {f : κ → ν → ν} (same : ∀ e ∈ d.entries, f e.1 e.2 = e.2) :
    d.mapValues f = d := by
  obtain ⟨es, nd⟩ := d
  rw [mapValues, Dict.mk.injEq]
  trans es.map id
  · apply List.map_congr_left
    intro e mem
    rw [same e mem, id]
  · exact List.map_id es

lemma mem_values_of_get {d : Dict κ ν} {k : κ} {v : ν} (e : d.get k = some v) : v ∈ d.values := by
  obtain ⟨es, es', eq, -⟩ := List.lookup_eq_some_iff.1 e
  rw [values, eq]
  simp

lemma mem_entries_of_get {d : Dict κ ν} {k : κ} {v : ν} (e : d.get k = some v) : (k, v) ∈ d.entries := by
  obtain ⟨es, es', eq, -⟩ := List.lookup_eq_some_iff.1 e
  rw [eq]
  simp

lemma get_of_mem_entries {d : Dict κ ν} {e : κ × ν} (mem : e ∈ d.entries) : d.get e.1 = some e.2 := by
  obtain ⟨es, nd⟩ := d
  simp only [get] at mem ⊢
  induction es with
  | nil => cases mem
  | cons a es ih =>
    rw [List.map_cons, List.nodup_cons] at nd
    rw [lookup_cons]
    rcases List.mem_cons.1 mem with rfl | mem
    · simp
    · rw [if_neg, ih nd.2 mem]
      intro eq
      exact nd.1 (eq ▸ List.mem_map_of_mem mem)

lemma mem_keys {d : Dict κ ν} {k : κ} : k ∈ d.entries.map Prod.fst ↔ (d.get k).isSome = true := by
  constructor
  · intro mem
    obtain ⟨e, found, rfl⟩ := List.mem_map.1 mem
    rw [get_of_mem_entries found]
    rfl
  · intro isSome
    by_contra absent
    have missing : d.get k = none := by
      unfold get
      rw [List.lookup_eq_none_iff]
      intro e mem
      rw [bne_iff_ne]
      rintro rfl
      exact absent (List.mem_map_of_mem mem)
    rw [missing] at isSome
    cases isSome

lemma keys_set {d : Dict κ ν} {k : κ} {v : ν} (isKey : k ∈ d.entries.map Prod.fst) :
    (d.set k v).entries.map Prod.fst = d.entries.map Prod.fst := by
  show (setEntry k v d.entries).map Prod.fst = _
  revert isKey
  generalize d.entries = es
  intro isKey
  induction es with
  | nil => cases isKey
  | cons e es ih =>
    simp only [setEntry]
    split
    · rename_i eq
      rw [List.map_cons, List.map_cons, eq]
    · rename_i ne
      rcases List.mem_cons.1 isKey with eq | mem
      · exact absurd eq.symm ne
      · rw [List.map_cons, List.map_cons, ih mem]

lemma sum_entries [AddCommMonoid α] {d : Dict κ ν} (f : κ → ν → α) : (d.entries.map fun e => f e.1 e.2).sum =
      ∑ k ∈ (d.entries.map Prod.fst).toFinset, (d.get k).elim 0 (f k) := by
  rw [List.sum_toFinset _ d.nodup, List.map_map]
  congr 1
  apply List.map_congr_left
  intro e mem
  rw [Function.comp_apply, get_of_mem_entries mem]
  rfl

lemma sum_entries_of_support [AddCommMonoid α] {d : Dict κ ν} (f : κ → ν → α) {keys : Finset κ}
    (others : ∀ k v, d.get k = some v → k ∉ keys → f k v = 0) :
    (d.entries.map fun e => f e.1 e.2).sum = ∑ k ∈ keys, (d.get k).elim 0 (f k) := by
  rw [sum_entries]
  -- what only one of the two sums counts is zero
  trans ∑ k ∈ (d.entries.map Prod.fst).toFinset ∪ keys, (d.get k).elim 0 (f k)
  · apply sum_subset subset_union_left
    intro k _ out
    rw [List.mem_toFinset, mem_keys, Bool.not_eq_true, isSome_eq_false_iff, isNone_iff_eq_none] at out
    rw [out]
    rfl
  · symm
    apply sum_subset subset_union_right
    intro k _ out
    cases found : d.get k with
    | none => rfl
    | some v => exact others k v found out

@[simp] lemma erase_set {d : Dict κ ν} {k : κ} {v : ν} : (d.set k v).erase k = d.erase k := by
  have entries {es : List (κ × ν)} : (setEntry k v es).filter (·.1 ≠ k) = es.filter (·.1 ≠ k) := by
    induction es with
    | nil => simp [setEntry]
    | cons e es ih =>
      rw [setEntry]
      split
      · rename_i eq
        simp [eq]
      · rw [List.filter_cons, ih, List.filter_cons]
  simp only [erase, set, entries]

lemma erase_of_get_none {d : Dict κ ν} {k : κ} (absent : d.get k = none) : d.erase k = d := by
  have others : d.entries.filter (·.1 ≠ k) = d.entries := by
    apply List.filter_eq_self.2
    intro e mem
    have ne : e.1 ≠ k := by
      rintro rfl
      rw [get_of_mem_entries mem] at absent
      cases absent
    simpa using ne
  simp only [erase, others]

lemma sum_values [AddCommMonoid α] {d : Dict κ ν} {k : κ} {v : ν} (f : ν → α)
    (found : d.get k = some v) : (d.values.map f).sum = f v + ((d.erase k).values.map f).sum := by
  obtain ⟨es, nd⟩ := d
  simp only [values, erase, get] at found ⊢
  induction es with
  | nil => cases found
  | cons e es ih =>
    rw [List.map_cons, List.nodup_cons] at nd
    rw [lookup_cons] at found
    by_cases eq : k = e.1
    · rw [if_pos eq] at found
      obtain rfl := some.inj found
      have others : es.filter (·.1 ≠ k) = es := by
        apply List.filter_eq_self.2
        intro a mem
        have ne : a.1 ≠ k := fun same => nd.1 (eq ▸ same ▸ List.mem_map_of_mem mem)
        simpa using ne
      rw [List.filter_cons_of_neg (by simp [eq]), others, List.map_cons, List.map_cons, List.sum_cons]
    · rw [if_neg eq] at found
      rw [List.filter_cons_of_pos (by simpa using Ne.symm eq)]
      simp only [List.map_cons, List.sum_cons]
      rw [ih nd.2 found, add_left_comm]

lemma mem_values {d : Dict κ ν} {v : ν} : v ∈ d.values ↔ ∃ k, d.get k = some v := by
  constructor
  · intro mem
    obtain ⟨e, me, rfl⟩ := List.mem_map.1 mem
    exact ⟨e.1, get_of_mem_entries me⟩
  · rintro ⟨k, e⟩
    exact mem_values_of_get e

lemma filter_key_eq_nil {key : ρ → κ} {rows : List ρ} {k : κ} (never : k ∉ rows.map key) :
    rows.filter (key · = k) = [] := by
  rw [List.filter_eq_nil_iff]
  intro r mem same
  exact never (of_decide_eq_true same ▸ List.mem_map_of_mem mem)

lemma groupBy_concat {key : ρ → κ} {f : Option ν → ρ → ν} {rows : List ρ} {r : ρ} :
    groupBy key f (rows ++ [r]) = (groupBy key f rows).set (key r) (f ((groupBy key f rows).get (key r)) r) := by
  rw [groupBy, List.foldl_append]
  rfl

lemma get_groupBy {key : ρ → κ} {f : Option ν → ρ → ν} {rows : List ρ} {k : κ} :
    (groupBy key f rows).get k = (rows.filter (key · = k)).foldl (fun o r => some (f o r)) none := by
  induction rows using List.reverseRecOn with
  | nil => rfl
  | append_singleton rows r ih =>
    rw [groupBy_concat, get_set]
    split
    · rename_i eq; subst eq; simp [List.filter_append, ih]
    · rename_i ne
      have : decide (key r = k) = false := by simpa using fun h => ne h.symm
      simp [List.filter_append, this, ih]

lemma mem_keys_groupBy {key : ρ → κ} {f : Option ν → ρ → ν} {rows : List ρ} {k : κ} :
    k ∈ (groupBy key f rows).entries.map Prod.fst ↔ k ∈ rows.map key := by
  rw [mem_keys]
  induction rows using List.reverseRecOn with
  | nil => simp [groupBy]
  | append_singleton rows r ih =>
    rw [groupBy_concat, get_set, List.map_append, List.mem_append, ← ih]
    by_cases eq : k = key r <;> simp [eq]

lemma sum_values_groupBy [AddCommMonoid α] {key : ρ → κ} {amount : ρ → α} {rows : List ρ} :
    (groupBy key (fun o r => o.getD 0 + amount r) rows).values.sum = (rows.map amount).sum := by
  induction rows using List.reverseRecOn with
  | nil => rfl
  | append_singleton rows r ih =>
    rw [groupBy_concat]
    generalize groupBy key (fun o r => o.getD 0 + amount r) rows = d at ih ⊢
    rw [List.map_append, List.sum_append, ← ih, List.map_singleton, List.sum_singleton]
    have after := sum_values id (get_set_self (d := d) (k := key r) (v := (d.get (key r)).getD 0 + amount r))
    rw [erase_set, List.map_id, List.map_id, id] at after
    rw [after]
    cases found : d.get (key r) with
    | none => rw [erase_of_get_none found, getD_none, zero_add, add_comm]
    | some v =>
      have before := sum_values id found
      rw [List.map_id, List.map_id, id] at before
      rw [before, getD_some, add_right_comm]

lemma get_foldl_set {key : ρ → κ} {val : ρ → ν} {rows : List ρ} {d : Dict κ ν} {k : κ} (nodup : (rows.map key).Nodup) :
    (rows.foldl (fun d r => d.set (key r) (val r)) d).get k = ((rows.find? (key · = k)).map val).or (d.get k) := by
  induction rows generalizing d with
  | nil => rfl
  | cons r rows ih =>
    rw [List.map_cons, List.nodup_cons] at nodup
    rw [List.foldl_cons, ih nodup.2, get_set, List.find?_cons]
    by_cases eq : key r = k
    · have none : rows.find? (key · = k) = none := by
        rw [List.find?_eq_none]
        intro x m
        simpa using fun same : key x = k => nodup.1 (by rw [eq, ← same]; exact List.mem_map_of_mem m)
      rw [none]
      simp [eq]
    · simp [eq, Ne.symm eq]

lemma get_foldl_set_of_mem {key : ρ → κ} {val : ρ → ν} {rows : List ρ} {d : Dict κ ν} {r : ρ}
    (nodup : (rows.map key).Nodup) (mem : r ∈ rows) :
    (rows.foldl (fun d r => d.set (key r) (val r)) d).get (key r) = some (val r) := by
  rw [get_foldl_set nodup]
  cases found : rows.find? (key · = key r) with
  | none => exact absurd (List.find?_eq_none.1 found r mem) (by simp)
  | some r' =>
    have same : key r' = key r := by simpa using List.find?_some found
    have eq := List.inj_on_of_nodup_map nodup (List.mem_of_find?_eq_some found) mem same
    rw [eq]
    rfl

end Dict

end Workbench.Lib
