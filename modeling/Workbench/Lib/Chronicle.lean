import Mathlib.Tactic

/-!
# Chronicles

A chronicle is a log whose entries are numbered from one and each of which says which state it left
and which it entered. `Format` names these three readings of an entry, `endOf` is the state a log
ends in, and `Faithful` says that a log is the history of one thing: numbered without gap or repeat,
every entry leaving the state its predecessor entered, every entry a permitted step. The last section is
about a log that is selected from a table.
-/

namespace Workbench.Lib
open List

/-- How to read the entries of a log. -/
structure Format (σ ε : Type*) where
  number : ε → Nat
  source : ε → σ
  target : ε → σ

namespace Format

variable {σ ε : Type*} (F : Format σ ε) (start : σ)

def endOf (log : List ε) : σ := (log.getLast?.map F.target).getD start

/-- A log is a history that starts in `start`. -/
structure Faithful (edge : ε → Prop) (log : List ε) : Prop where
  numbered : log.map F.number = List.range' 1 log.length
  linked : ∀ i e, log[i]? = some e → F.source e = F.endOf start (log.take i)
  edges : ∀ e ∈ log, edge e

variable {F start} {edge : ε → Prop} {log : List ε} {e e' : ε}

@[simp] lemma endOf_append : F.endOf start (log ++ [e]) = F.target e := by
  simp [endOf]

lemma endOf_take_succ {i : Nat} (get : log[i]? = some e) : F.endOf start (log.take (i + 1)) = F.target e := by
  obtain ⟨lt, rfl⟩ := List.getElem?_eq_some_iff.1 get
  rw [take_succ_eq_append_getElem lt, endOf_append]

namespace Faithful

lemma nil : F.Faithful start edge [] := ⟨rfl, by simp, by simp⟩

lemma append (h : F.Faithful start edge log) (number : F.number e = log.length + 1)
    (source : F.source e = F.endOf start log) (step : edge e) : F.Faithful start edge (log ++ [e]) := by
  refine ⟨?_, ?_, ?_⟩
  · rw [map_append, h.numbered, length_append, length_singleton,
      List.range'_1_concat, map_singleton, number, Nat.add_comm]
  · intro i x get
    by_cases lt : i < log.length
    · rw [getElem?_append_left lt] at get
      rw [take_append_of_le_length lt.le]
      exact h.linked i x get
    · rw [getElem?_append_right (not_lt.1 lt)] at get
      obtain ⟨zero, rfl⟩ := List.getElem?_eq_some_iff.1 get
      have here : i = log.length := by
        simp only [length_singleton] at zero
        omega
      subst here
      rw [take_left]
      simpa using source
  · intro x mem
    rcases mem_append.1 mem with old | new
    · exact h.edges x old
    · rw [mem_singleton.1 new]
      exact step

lemma number_eq (h : F.Faithful start edge log) {i : Nat} (get : log[i]? = some e) : F.number e = i + 1 := by
  have same := congrArg (·[i]?) h.numbered
  obtain ⟨lt, -⟩ := List.getElem?_eq_some_iff.1 get
  simp only [getElem?_map, get, Option.map_some, getElem?_range' lt, Option.some.injEq]
    at same
  omega

lemma first (h : F.Faithful start edge log) (get : log[0]? = some e) : F.source e = start :=
  h.linked 0 e get

lemma succ (h : F.Faithful start edge log) {i : Nat} (get : log[i]? = some e)
    (get' : log[i + 1]? = some e') : F.source e' = F.target e := by
  rw [h.linked (i + 1) e' get', endOf_take_succ get]

lemma pred (h : F.Faithful start edge log) {i : Nat} (get : log[i]? = some e)
    (left : F.source e ≠ start) : ∃ j e', i = j + 1 ∧ log[j]? = some e' ∧ F.target e' = F.source e := by
  cases i with
  | zero => exact absurd (h.first get) left
  | succ j =>
    obtain ⟨lt, -⟩ := List.getElem?_eq_some_iff.1 get
    have get' := getElem?_eq_getElem (Nat.lt_of_succ_lt lt)
    exact ⟨j, _, rfl, get', (h.succ get' get).symm⟩

end Faithful

end Format

/-! ## Selections

A log that is kept in one table with others is the selection of its entries. -/

section Selection

variable {ε : Type*} {p : ε → Bool} {table : List ε} {x : ε} {r k : Nat}

lemma filter_take : (table.take r).filter p = (table.filter p).take ((table.take r).filter p).length := by
  have split : table.filter p = (table.take r).filter p ++ (table.drop r).filter p := by
    rw [← filter_append, take_append_drop]
  rw [split, take_left]

lemma getElem?_filter_of_getElem? (get : table[r]? = some x) (selected : p x = true) :
    (table.filter p)[((table.take r).filter p).length]? = some x := by
  obtain ⟨lt, rfl⟩ := List.getElem?_eq_some_iff.1 get
  have split : table = table.take r ++ table[r] :: table.drop (r + 1) := by
    rw [getElem_cons_drop, take_append_drop]
  have selection : table.filter p =
      (table.take r).filter p ++ table[r] :: (table.drop (r + 1)).filter p := by
    conv_lhs => rw [split]
    rw [filter_append, filter_cons_of_pos selected]
  rw [selection, getElem?_append_right le_rfl, Nat.sub_self]
  rfl

lemma exists_getElem?_of_filter (get : (table.filter p)[k]? = some x) :
    ∃ r, table[r]? = some x ∧ ((table.take r).filter p).length = k := by
  induction table generalizing k with
  | nil => cases get
  | cons y ys ih =>
    cases selected : p y with
    | true =>
      rw [filter_cons_of_pos selected] at get
      cases k with
      | zero => exact ⟨0, get, rfl⟩
      | succ k =>
        obtain ⟨r, at_, length⟩ := ih get
        refine ⟨r + 1, at_, ?_⟩
        rw [take_succ_cons, filter_cons_of_pos selected, length_cons, length]
    | false =>
      rw [filter_cons_of_neg (by simp [selected])] at get
      obtain ⟨r, at_, length⟩ := ih get
      refine ⟨r + 1, at_, ?_⟩
      rw [take_succ_cons, filter_cons_of_neg (by simp [selected]), length]

end Selection

end Workbench.Lib
