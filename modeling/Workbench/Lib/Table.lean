import Mathlib.Algebra.BigOperators.Group.List.Basic
import Mathlib.Algebra.Order.Ring.Rat
import Workbench.Lib.Dict

/-!
# Append-only tables

A table is a list of rows; the primary key of a row is its position, as with an autoincrement key
whose rows are never deleted. `total w` is `SELECT SUM(w)` over the whole table (a filter is a
weight that vanishes off the selected rows), `amend i f` rewrites the row with key `i`.

The lemmas say how a total moves: by the new row's weight on an insert, by the difference of the
weights on an `amend`, and not at all when the weight of the row does not change.
-/

namespace Workbench.Lib
open List Option

namespace Table
variable {i : Nat} {ρ' : Type*} {ρ : Type*}

/-- `SELECT SUM(w)` over the table. -/
def total (w : ρ → ℚ) (rows : List ρ) : ℚ := (rows.map w).sum

/-- Rewrite the row with primary key `i`, if there is one. -/
def amend (i : Nat) (f : ρ → ρ) (rows : List ρ) : List ρ := rows.modify i f

@[simp] lemma total_nil {w : ρ → ℚ} : total w [] = 0 := rfl

@[simp] lemma total_cons {w : ρ → ℚ} {r : ρ} {rows : List ρ} : total w (r :: rows) = w r + total w rows := by
  simp [total]

lemma total_append {w : ρ → ℚ} {rows rows' : List ρ} : total w (rows ++ rows') = total w rows + total w rows' := by
  simp [total]

@[simp] lemma total_insert {w : ρ → ℚ} {r : ρ} {rows : List ρ} : total w (rows ++ [r]) = total w rows + w r := by
  simp [total]

@[simp] lemma length_amend {f : ρ → ρ} {rows : List ρ} : (amend i f rows).length = rows.length := by
  simp [amend]

lemma getElem?_amend {j : Nat} {f : ρ → ρ} {rows : List ρ} :
    (amend i f rows)[j]? = if i = j then rows[j]?.map f else rows[j]? := by
  simp only [amend, getElem?_modify]
  split <;> simp

lemma getElem?_amend_self {f : ρ → ρ} {rows : List ρ} {r : ρ} (e : rows[i]? = some r) :
    (amend i f rows)[i]? = some (f r) := by
  simp [getElem?_amend, e]

lemma getElem?_amend_of_ne {j : Nat} {f : ρ → ρ} {rows : List ρ} (ne : i ≠ j) : (amend i f rows)[j]? = rows[j]? := by
  simp [getElem?_amend, ne]

lemma map_amend {τ : Type*} {g : ρ → τ} {f : ρ → ρ} {f' : τ → τ} {rows : List ρ}
    (comm : ∀ r, g (f r) = f' (g r)) : (amend i f rows).map g = amend i f' (rows.map g) := by
  apply ext_getElem?
  intro j
  rw [getElem?_map, getElem?_amend, getElem?_amend, getElem?_map]
  split
  · cases rows[j]? with
    | none => rfl
    | some r => exact congrArg some (comm r)
  · rfl

lemma total_amend {w : ρ → ℚ} {f : ρ → ρ} {rows : List ρ} {r : ρ} (e : rows[i]? = some r) :
    total w (amend i f rows) = total w rows - w r + w (f r) := by
  induction rows generalizing i with
  | nil => simp at e
  | cons a rows ih =>
    cases i with
    | zero =>
      simp only [getElem?_cons_zero, some.injEq] at e
      subst e
      simp only [amend, modify_zero_cons, total_cons]
      ring
    | succ i =>
      simp only [getElem?_cons_succ] at e
      have h := ih e
      simp only [amend, modify_succ_cons, total_cons] at h ⊢
      rw [h]
      ring

lemma total_amend_of_same {w : ρ → ℚ} {f : ρ → ρ} {rows : List ρ}
    (same : ∀ r, w (f r) = w r) : total w (amend i f rows) = total w rows := by
  cases e : rows[i]? with
  | none =>
    have h : amend i f rows = rows := by
      apply ext_getElem?
      intro j
      rw [getElem?_amend]
      split
      · rename_i eq; subst eq; simp [e]
      · rfl
    rw [h]
  | some r => rw [total_amend e, same]; ring

lemma total_nonneg {w : ρ → ℚ} {rows : List ρ} (pos : ∀ r ∈ rows, 0 ≤ w r) : 0 ≤ total w rows := by
  induction rows with
  | nil => simp
  | cons r rows ih =>
    rw [total_cons]
    have h1 := pos r mem_cons_self
    have h2 := ih fun r m => pos r (mem_cons_of_mem _ m)
    linarith

lemma total_le_total {w v : ρ → ℚ} {rows : List ρ} (le : ∀ r ∈ rows, w r ≤ v r) : total w rows ≤ total v rows := by
  induction rows with
  | nil => simp
  | cons r rows ih =>
    rw [total_cons, total_cons]
    have h1 := le r mem_cons_self
    have h2 := ih fun r m => le r (mem_cons_of_mem _ m)
    linarith

lemma total_congr {w v : ρ → ℚ} {rows : List ρ} (eq : ∀ r ∈ rows, w r = v r) : total w rows = total v rows := by
  unfold total
  rw [map_congr_left eq]

lemma total_add {w v : ρ → ℚ} {rows : List ρ} : total (fun r => w r + v r) rows = total w rows + total v rows := by
  induction rows with
  | nil => simp
  | cons r rows ih => simp only [total_cons, ih]; ring

lemma le_total {w : ρ → ℚ} {rows : List ρ} (pos : ∀ r ∈ rows, 0 ≤ w r) {r : ρ} (m : r ∈ rows) : w r ≤ total w rows := by
  induction rows with
  | nil => cases m
  | cons a rows ih =>
    rw [total_cons]
    have rest := total_nonneg fun r m => pos r (mem_cons_of_mem _ m)
    cases m with
    | head => linarith
    | tail _ m =>
      have h := ih (fun r m => pos r (mem_cons_of_mem _ m)) m
      have h0 := pos a mem_cons_self
      linarith

lemma total_map {w : ρ' → ℚ} {f : ρ → ρ'} {rows : List ρ} : total w (rows.map f) = total (fun r => w (f r)) rows := by
  simp [total, Function.comp_def]

lemma total_filter {w : ρ → ℚ} {p : ρ → Bool} {rows : List ρ} :
    total w (rows.filter p) = total (fun r => if p r then w r else 0) rows := by
  induction rows with
  | nil => rfl
  | cons r rows ih =>
    rw [filter_cons, total_cons, ← ih]
    split <;> simp

lemma getD_foldl_sum {w : ρ → ℚ} {rows : List ρ} :
    (rows.foldl (fun o r => some (o.getD 0 + w r)) none).getD 0 = total w rows := by
  induction rows using List.reverseRecOn with
  | nil => rfl
  | append_singleton rows r ih => simp [foldl_append, ih]

lemma foldl_least {w : ρ → ℚ} {rows : List ρ} :
    rows.foldl (fun o r => some ((o.map (min · (w r))).getD (w r))) none = (rows.map w).min? := by
  have from_some : ∀ (rows : List ρ) (x : ℚ),
      rows.foldl (fun o r => some ((o.map (min · (w r))).getD (w r))) (some x) =
        some ((rows.map w).foldl min x) := by
    intro rows
    induction rows with
    | nil => intro x; rfl
    | cons r rows ih => intro x; exact ih (min x (w r))
  cases rows with
  | nil => rfl
  | cons r rows =>
    rw [map_cons, min?_cons']
    exact from_some rows (w r)

lemma total_filterMap {w : ρ' → ℚ} {f : ρ → Option ρ'} {rows : List ρ} :
    total w (rows.filterMap f) = total (fun r => (f r).elim 0 w) rows := by
  induction rows with
  | nil => rfl
  | cons r rows ih => cases h : f r <;> simp [h, ih]

/-- A total over a longer table that is row by row at most the total over a shorter one, and at most
    zero on the rows the shorter table lacks. -/
lemma total_le_of_getElem? {w : ρ → ℚ} {w' : ρ' → ℚ} {rows : List ρ} {rows' : List ρ'}
    (len : rows.length ≤ rows'.length) (le : ∀ (i : Nat) r', rows'[i]? = some r' → w' r' ≤ (rows[i]?.map w).getD 0) :
    total w' rows' ≤ total w rows := by
  induction rows' generalizing rows with
  | nil =>
    have : rows = [] := length_eq_zero_iff.1 (Nat.le_zero.1 len)
    subst this
    simp
  | cons r' rows' ih =>
    have head := le 0 r' rfl
    cases rows with
    | nil =>
      have tail := @ih [] (Nat.zero_le _) fun i x get => by
        simpa using le (i + 1) x (by simpa using get)
      simp only [getElem?_nil, map_none, getD_none] at head
      rw [total_cons]
      rw [total_nil] at tail ⊢
      linarith
    | cons r rows =>
      have tail := @ih rows (by simpa using len) fun i x get => by
        simpa using le (i + 1) x (by simpa using get)
      simp only [getElem?_cons_zero, map_some, getD_some] at head
      rw [total_cons, total_cons]
      linarith

lemma total_eq_of_getElem? {w : ρ → ℚ} {w' : ρ' → ℚ} {rows : List ρ} {rows' : List ρ'}
    (len : rows'.length = rows.length) (eq : ∀ (i : Nat) r r', rows[i]? = some r → rows'[i]? = some r' → w' r' = w r) :
    total w' rows' = total w rows := by
  have map : rows'.map w' = rows.map w := by
    refine ext_getElem (by simpa using len) fun i h' h => ?_
    simp only [length_map] at h h'
    simp only [getElem_map]
    exact eq i _ _ (getElem?_eq_getElem h) (getElem?_eq_getElem h')
  rw [total, map, total]

lemma total_single {w : ρ → ℚ} {rows : List ρ} {r : ρ} (get : rows[i]? = some r)
    (zero : ∀ (j : Nat) r', rows[j]? = some r' → j ≠ i → w r' = 0) : total w rows = w r := by
  have le : total w rows ≤ total w [r] ∧ total w [r] ≤ total w rows := by
    induction rows generalizing i with
    | nil => simp at get
    | cons x rows ih =>
      rw [total_cons]
      cases i with
      | zero =>
        simp only [getElem?_cons_zero, some.injEq] at get
        subst get
        have rest : total w rows = 0 := by
          rw [total, sum_eq_zero]
          intro y m
          obtain ⟨r', m', rfl⟩ := mem_map.1 m
          obtain ⟨j, get⟩ := mem_iff_getElem?.1 m'
          exact zero (j + 1) r' (by simpa using get) (by simp)
        simp [rest]
      | succ i =>
        have head : w x = 0 := zero 0 x rfl (by simp)
        rw [head, zero_add]
        refine ih (by simpa using get) fun j r' get' ne => ?_
        exact zero (j + 1) r' (by simpa using get') (by simpa using ne)
  rw [total_cons, total_nil, add_zero] at le
  exact le_antisymm le.1 le.2

lemma total_of_key {κ : Type*} [DecidableEq κ] {w : ρ → ℚ} {key : ρ → κ} {rows : List ρ} {r : ρ}
    (nodup : (rows.map key).Nodup) (m : r ∈ rows) : total (fun x => if key x = key r then w x else 0) rows = w r := by
  induction rows with
  | nil => cases m
  | cons a rows ih =>
    rw [map_cons, nodup_cons] at nodup
    rw [total_cons]
    rcases mem_cons.1 m with rfl | m
    · have rest : total (fun x => if key x = key r then w x else 0) rows = total (fun _ => 0) rows := by
        refine total_congr fun x mx => if_neg fun eq => nodup.1 ?_
        rw [← eq]
        exact mem_map_of_mem mx
      rw [rest, if_pos rfl]
      simp [total]
    · rw [ih nodup.2 m, if_neg, zero_add]
      intro eq
      exact nodup.1 (eq ▸ mem_map_of_mem m)

lemma total_key_le {κ : Type*} [DecidableEq κ] {key : ρ → κ} {rows : List ρ} {k : κ} {x : ℚ}
    (nodup : (rows.map key).Nodup) (pos : 0 ≤ x) : total (fun r => if key r = k then x else 0) rows ≤ x := by
  by_cases m : k ∈ rows.map key
  · obtain ⟨r, mr, rfl⟩ := mem_map.1 m
    exact (@total_of_key _ _ _ (fun _ => x) _ _ _ nodup mr).le
  · have zero : total (fun r => if key r = k then x else 0) rows = total (fun _ => 0) rows := by
      refine total_congr fun r mr => if_neg fun eq => m ?_
      rw [← eq]
      exact mem_map_of_mem mr
    rw [zero]
    simpa [total] using pos

lemma total_comm {τ : Type*} {w : ρ → τ → ℚ} {rows : List ρ} {rows' : List τ} :
    total (fun r => total (w r) rows') rows = total (fun r' => total (w · r') rows) rows' := by
  induction rows with
  | nil => simp [total]
  | cons r rows ih =>
    simp only [total_cons, ih]
    exact total_add.symm

lemma total_zipIdx {w : ρ → ℚ} {rows : List ρ} : total (fun x : ρ × Nat => w x.1) rows.zipIdx = total w rows := by
  rw [← @total_map _ _ w Prod.fst, zipIdx_map_fst]

lemma zipIdx_amend {f : ρ → ρ} {rows : List ρ} :
    (amend i f rows).zipIdx = amend i (fun x => (f x.1, x.2)) rows.zipIdx := by
  apply ext_getElem?
  intro j
  rw [getElem?_zipIdx, getElem?_amend, getElem?_amend, getElem?_zipIdx]
  split
  · rw [Option.map_map, Option.map_map]
    rfl
  · rfl

lemma total_eraseIdx {w : ρ → ℚ} {r : ρ} {rows : List ρ} (e : rows[i]? = some r) :
    total w (rows.eraseIdx i) = total w rows - w r := by
  induction rows generalizing i with
  | nil => simp at e
  | cons a rows ih =>
    cases i with
    | zero =>
      simp only [getElem?_cons_zero, some.injEq] at e
      subst e
      simp [total_cons]
    | succ i =>
      simp only [getElem?_cons_succ] at e
      simp only [eraseIdx_cons_succ, total_cons, ih e]
      ring

/-! ## Rows in order -/

section Sorted
variable {κ : Type*} [LinearOrder κ] {key : ρ → κ}

lemma filter_orderedInsert {keep : ρ → Bool} {r : ρ} {rows : List ρ} (sorted : rows.Pairwise fun a b => key a ≤ key b) :
    (rows.orderedInsert (fun a b => key a ≤ key b) r).filter keep =
      if keep r then (rows.filter keep).orderedInsert (fun a b => key a ≤ key b) r else rows.filter keep := by
  induction rows with
  | nil =>
    rw [orderedInsert_nil, filter_cons]
    rfl
  | cons a rows ih =>
    obtain ⟨least, rest⟩ := pairwise_cons.1 sorted
    by_cases le : key r ≤ key a
    · rw [orderedInsert_cons, if_pos le, filter_cons]
      refine ite_congr rfl (fun _ => ?_) fun _ => rfl
      -- the new row comes before every row that is left
      cases left : (a :: rows).filter keep with
      | nil => rfl
      | cons b _ =>
        have mem : b ∈ a :: rows := mem_of_mem_filter (left ▸ mem_cons_self)
        have first : key r ≤ key b := by
          obtain rfl | tail := mem_cons.1 mem
          · exact le
          · exact le.trans (least b tail)
        rw [orderedInsert_cons, if_pos first]
    · rw [orderedInsert_cons, if_neg le, filter_cons, filter_cons, ih rest]
      cases keep a with
      | false => rfl
      | true =>
        simp only [if_true]
        split
        · rw [orderedInsert_cons, if_neg le]
        · rfl

lemma filter_insertionSort {keep : ρ → Bool} {rows : List ρ} :
    (rows.insertionSort fun a b => key a ≤ key b).filter keep =
      (rows.filter keep).insertionSort fun a b => key a ≤ key b := by
  induction rows with
  | nil => rfl
  | cons r rows ih =>
    have : Std.Total fun a b : ρ => key a ≤ key b := ⟨fun a b => LinearOrder.le_total (key a) (key b)⟩
    have : IsTrans ρ fun a b => key a ≤ key b := ⟨fun _ _ _ => le_trans⟩
    rw [insertionSort_cons, filter_orderedInsert (pairwise_insertionSort _ rows), ih, filter_cons]
    cases keep r with
    | false => rfl
    | true => rfl

lemma filter_append_filter_not {below : ρ → Bool} {rows : List ρ} (sorted : rows.Pairwise fun a b => key a ≤ key b)
    (down : ∀ a b, key a ≤ key b → below b → below a) :
    rows.filter below ++ rows.filter (fun r => !below r) = rows := by
  induction rows with
  | nil => rfl
  | cons r rows ih =>
    obtain ⟨least, rest⟩ := pairwise_cons.1 sorted
    cases low : below r with
    | true =>
      rw [filter_cons_of_pos low, filter_cons_of_neg (by simp [low]), cons_append, ih rest]
    | false =>
      have none : rows.filter below = [] := by
        rw [filter_eq_nil_iff]
        intro a mem high
        rw [down r a (least a mem) high] at low
        cases low
      rw [none, nil_append] at ih
      rw [filter_cons_of_neg (by simp [low]), none, nil_append, filter_cons_of_pos (by simp [low]),
        ih rest]

end Sorted

end Table

lemma Dict.total_get_le {κ ν : Type*} [DecidableEq κ] {d : Dict κ ν} {w : κ × ν → ℚ} {keys : List κ}
    (pos : ∀ e, 0 ≤ w e) (nodup : keys.Nodup) :
    Table.total (fun k => ((d.get k).map fun v => w (k, v)).getD 0) keys ≤ Table.total w d.entries := by
  unfold Dict.get
  generalize d.entries = es
  induction es with
  | nil => simp [Table.total]
  | cons e es ih =>
    have split : Table.total (fun k => (((e :: es).lookup k).map fun v => w (k, v)).getD 0) keys ≤
        Table.total (fun k => (if k = e.1 then w e else 0) +
          ((es.lookup k).map fun v => w (k, v)).getD 0) keys := by
      refine Table.total_le_total fun k _ => ?_
      have rest : 0 ≤ ((es.lookup k).map fun v => w (k, v)).getD 0 := by
        cases es.lookup k with
        | none => exact le_rfl
        | some v => exact pos _
      rw [Dict.lookup_cons]
      split
      · rename_i eq
        subst eq
        simpa using rest
      · simp
    rw [Table.total_add] at split
    have head := @Table.total_key_le _ _ _ id keys e.1 _ (by simpa using nodup) (pos e)
    rw [Table.total_cons]
    simp only [id] at head
    linarith

lemma Dict.total_set {κ ν : Type*} [DecidableEq κ] {d : Dict κ ν} {k : κ} {v : ν} {w : ν → ℚ} :
    Table.total w (d.set k v).values = Table.total w d.values - ((d.get k).map w).getD 0 + w v := by
  show Table.total w ((Dict.setEntry k v d.entries).map (·.2)) =
    Table.total w (d.entries.map (·.2)) - ((d.entries.lookup k).map w).getD 0 + w v
  generalize d.entries = es
  induction es with
  | nil => simp [Dict.setEntry]
  | cons e es ih =>
    rw [Dict.setEntry, Dict.lookup_cons]
    by_cases eq : e.1 = k
    · rw [if_pos eq, if_pos eq.symm]
      simp only [map_cons, Table.total_cons, map_some, getD_some]
      ring
    · rw [if_neg eq, if_neg (Ne.symm eq)]
      simp only [map_cons, Table.total_cons] at ih ⊢
      rw [ih]
      ring

end Workbench.Lib
