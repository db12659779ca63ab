import Mathlib.Tactic

/-!
# Holes in a list of marks

A hole is a run of consecutive unmarked positions. `scan` walks the list once and keeps the first of the longest holes
(`scanned_scan`). A longest hole is maximal (`Hole.maximal`).
-/

namespace Workbench.Lib.Holes
open List

/-- The `n` positions from `start` on are unmarked. -/
def Hole (present : List Bool) (start n : ℕ) : Prop := ∀ i < n, present[start + i]? = some false

/-- A hole that cannot be made longer. -/
structure MaximalHole (present : List Bool) (start n : ℕ) : Prop where
  pos : 0 < n
  hole : Hole present start n
  left : ∀ k, start = k + 1 → present[k]? = some true
  right : present[start + n]? ≠ some false

/-- There are marks on both sides of a maximal hole. -/
structure InnerHole (present : List Bool) (start n : ℕ) : Prop extends MaximalHole present start n where
  before : 0 < start
  after : start + n < present.length

/-! ## The scan -/

/-- How far the scan is: the run at hand and where it ends, the longest run and where it ends. -/
structure Scan where
  run : ℕ := 0
  runEnd : ℤ := -1
  worst : ℕ := 0
  worstEnd : ℤ := -1
deriving DecidableEq

def Scan.next (s : Scan) (e : Bool × ℕ) : Scan :=
  if e.1 then { s with run := 0 }
  else if s.worst < s.run + 1 then ⟨s.run + 1, e.2, s.run + 1, e.2⟩
  else { s with run := s.run + 1, runEnd := e.2 }

def scan (present : List Bool) : Scan := present.zipIdx.foldl Scan.next {}

section Holes

variable {present : List Bool} {start n : ℕ}

lemma Hole.le_length (hole : Hole present start n) (pos : 0 < n) : start + n ≤ present.length := by
  have last := hole (n - 1) (by omega)
  obtain ⟨lt, -⟩ := List.getElem?_eq_some_iff.1 last
  omega

lemma hole_snoc_true (pos : 0 < n) : Hole (present ++ [true]) start n ↔ Hole present start n := by
  constructor
  · intro hole i lt
    have unmarked := hole i lt
    rw [getElem?_append] at unmarked
    split at unmarked
    next => exact unmarked
    next far =>
      rcases eq : start + i - present.length with _ | k <;> rw [eq] at unmarked <;> simp at unmarked
  · intro hole i lt
    have fits := hole.le_length pos
    rw [getElem?_append_left (by omega)]
    exact hole i lt

lemma hole_snoc_false (pos : 0 < n) : Hole (present ++ [false]) start n ↔
    Hole present start n ∨ start + n = present.length + 1 ∧ Hole present start (n - 1) := by
  constructor
  · intro hole
    have fits := hole.le_length pos
    rw [length_append, length_singleton] at fits
    rcases Nat.lt_or_ge present.length (start + n) with past | within
    · refine .inr ⟨by omega, ?_⟩
      intro i lt
      rw [← hole i (by omega), getElem?_append_left (by omega)]
    · refine .inl ?_
      intro i lt
      rw [← hole i lt, getElem?_append_left (by omega)]
  · rintro (hole | ⟨eq, hole⟩) i lt
    · have fits := hole.le_length pos
      rw [getElem?_append_left (by omega)]
      exact hole i lt
    · rcases Nat.lt_or_ge i (n - 1) with inside | last
      · rw [getElem?_append_left (by omega)]
        exact hole i inside
      · rw [show start + i = present.length by omega]
        simp

end Holes

/-- What the scan knows of the positions it has seen. -/
structure Scanned (present : List Bool) (s : Scan) : Prop where
  fits : s.run ≤ present.length
  trailing : Hole present (present.length - s.run) s.run
  ends : ∀ n, Hole present (present.length - n) n → n ≤ present.length → n ≤ s.run
  worst : ∀ start n, Hole present start n → n ≤ s.worst
  found : 0 < s.worst → ∃ start : ℕ, s.worstEnd = start + s.worst - 1 ∧ Hole present start s.worst ∧
    ∀ start', Hole present start' s.worst → start ≤ start'
  none : s.worst = 0 → s.worstEnd = -1

section Scan

variable {present : List Bool} {s : Scan}

lemma Scanned.marked (scanned : Scanned present s) : Scanned (present ++ [true]) { s with run := 0 } where
  fits := Nat.zero_le _
  trailing := by
    intro i lt
    cases lt
  ends := by
    intro n hole le
    rcases Nat.eq_zero_or_pos n with rfl | pos
    · exact le_rfl
    · have fits := ((hole_snoc_true pos).1 hole).le_length pos
      rw [length_append, length_singleton] at fits le
      omega
  worst := by
    intro start n hole
    rcases Nat.eq_zero_or_pos n with rfl | pos
    · exact Nat.zero_le _
    · exact scanned.worst start n ((hole_snoc_true pos).1 hole)
  found := by
    intro pos
    obtain ⟨start, ends, hole, first⟩ := scanned.found pos
    refine ⟨start, ends, (hole_snoc_true pos).2 hole, ?_⟩
    intro start' hole'
    exact first start' ((hole_snoc_true pos).1 hole')
  none := scanned.none

lemma Scanned.unmarked (scanned : Scanned present s) :
    Scanned (present ++ [false]) (s.next (false, present.length)) := by
  have fits := scanned.fits
  have trailing : Hole (present ++ [false]) (present.length - s.run) (s.run + 1) :=
    (hole_snoc_false (Nat.succ_pos _)).2 (.inr ⟨by omega, scanned.trailing⟩)
  have trailing' : Hole (present ++ [false]) ((present ++ [false]).length - (s.run + 1)) (s.run + 1) := by
    rw [length_append, length_singleton, Nat.add_sub_add_right]
    exact trailing
  -- a hole that ends here is no longer than the run, and the others were seen before
  have split : ∀ start n, 0 < n → Hole (present ++ [false]) start n →
      Hole present start n ∨ n ≤ s.run + 1 ∧ start = present.length + 1 - n := by
    intro start n pos hole
    rcases (hole_snoc_false pos).1 hole with before | ⟨eq, before⟩
    · exact .inl before
    · refine .inr ⟨?_, by omega⟩
      have le := scanned.ends (n - 1) (by rwa [show present.length - (n - 1) = start by omega]) (by omega)
      omega
  have ends : ∀ n, Hole (present ++ [false]) ((present ++ [false]).length - n) n → n ≤ (present ++ [false]).length →
      n ≤ s.run + 1 := by
    intro n hole le
    rw [length_append, length_singleton] at hole le
    rcases Nat.eq_zero_or_pos n with rfl | pos
    · exact Nat.zero_le _
    · rcases split _ n pos hole with before | ⟨le, -⟩
      · have fits := before.le_length pos
        omega
      · exact le
  simp only [Scan.next, Bool.false_eq_true, if_false]
  split
  next longer =>
    refine ⟨by simp; omega, trailing', ends, ?_, ?_, by simp⟩
    · intro start n hole
      rcases Nat.eq_zero_or_pos n with rfl | pos
      · exact Nat.zero_le _
      · rcases split start n pos hole with before | ⟨le, -⟩
        · exact (scanned.worst start n before).trans longer.le
        · exact le
    · intro pos
      refine ⟨present.length - s.run, by simp only; omega, trailing, ?_⟩
      intro start' hole'
      rcases split start' (s.run + 1) pos hole' with before | ⟨-, rfl⟩
      · exact absurd (scanned.worst start' _ before) (by omega)
      · omega
  next shorter =>
    refine ⟨by simp; omega, trailing', ends, ?_, ?_, scanned.none⟩
    · intro start n hole
      rcases Nat.eq_zero_or_pos n with rfl | pos
      · exact Nat.zero_le _
      · rcases split start n pos hole with before | ⟨le, -⟩
        · exact scanned.worst start n before
        · exact le.trans (not_lt.1 shorter)
    · intro pos
      obtain ⟨start, worstEnd, hole, first⟩ := scanned.found pos
      refine ⟨start, worstEnd, (hole_snoc_false pos).2 (.inl hole), ?_⟩
      intro start' hole'
      rcases split start' s.worst pos hole' with before | ⟨-, rfl⟩
      · exact first start' before
      · have within := hole.le_length pos
        omega

/-- The scan knows all of it. -/
theorem scanned_scan : Scanned present (scan present) := by
  induction present using List.reverseRecOn with
  | nil =>
    refine ⟨le_rfl, ?_, ?_, ?_, ?_, fun _ => rfl⟩
    · intro i lt
      cases lt
    · intro n _ le
      exact le
    · intro start n hole
      by_contra pos
      have unmarked := hole 0 (by simp only [scan] at pos; omega)
      simp at unmarked
    · intro pos
      cases pos
  | append_singleton present b ih =>
    rw [scan, zipIdx_append, foldl_append]
    show Scanned _ (Scan.next (scan present) (b, 0 + present.length))
    rw [Nat.zero_add]
    cases b with
    | true => exact ih.marked
    | false => exact ih.unmarked

end Scan

/-! ## Longest holes -/

section Longest

variable {present : List Bool} {start n : ℕ}

lemma Hole.maximal (hole : Hole present start n) (pos : 0 < n) (longest : ∀ start' n', Hole present start' n' →
    n' ≤ n) : MaximalHole present start n := by
  refine ⟨pos, hole, ?_, ?_⟩
  · intro k eq
    have within := hole.le_length pos
    cases mark : present[k]? with
    | none =>
      rw [List.getElem?_eq_none_iff] at mark
      omega
    | some b =>
      cases b with
      | true => rfl
      | false =>
        have longer : Hole present k (n + 1) := by
          intro i lt
          cases i with
          | zero => exact mark
          | succ i =>
            rw [← hole i (by omega)]
            congr 1
            omega
        exact absurd (longest k _ longer) (by omega)
  · intro mark
    have longer : Hole present start (n + 1) := by
      intro i lt
      rcases Nat.lt_succ_iff_lt_or_eq.1 lt with inside | rfl
      · exact hole i inside
      · exact mark
    exact absurd (longest start _ longer) (by omega)

end Longest

end Workbench.Lib.Holes
