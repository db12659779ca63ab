import Mathlib.Tactic

/-!
# First in, first out

Lots enter a queue at its end and leave it at its front, in parts. Counted from the first unit that ever entered, a lot
is an interval of units; `shares` are the parts of the lots that lie in an interval, and `remaining` are the lots beyond
a count. `take` is the loop that takes an amount out of a queue, and `take_remaining` says that it takes the units after
those that have left: the units leave in the order in which they entered.
-/

namespace Workbench.Lib.Fifo
open List

variable {ρ : Type*}

/-- A quantity that entered together. -/
structure Lot (ρ : Type*) where
  data : ρ
  qty : ℚ

def total (lots : List (Lot ρ)) : ℚ := (lots.map Lot.qty).sum

/-- The parts of the lots between the units `lo` and `hi`; the first lot begins at `start`. -/
@[grind] def shares (lo hi : ℚ) : ℚ → List (Lot ρ) → List (ρ × ℚ)
  | _, [] => []
  | start, l :: lots =>
    let part := min hi (start + l.qty) - max lo start
    (if 0 < part then [(l.data, part)] else []) ++ shares lo hi (start + l.qty) lots

/-- The lots beyond the first `x` units. -/
@[grind] def remaining : List (Lot ρ) → ℚ → List (Lot ρ)
  | [], _ => []
  | l :: lots, x => if l.qty ≤ x then remaining lots (x - l.qty) else ⟨l.data, l.qty - x⟩ :: lots

/-- Take an amount out of a queue: the parts that are taken, what could not be taken, and the queue that is left. -/
@[grind] def take : ℚ → List (Lot ρ) → List (ρ × ℚ) × ℚ × List (Lot ρ)
  | amount, [] => ([], amount, [])
  | amount, l :: lots =>
    if amount ≤ 0 then ([], amount, l :: lots)
    else if l.qty ≤ amount then
      let (parts, left, queue) := take (amount - l.qty) lots
      ((l.data, l.qty) :: parts, left, queue)
    else ([(l.data, amount)], 0, ⟨l.data, l.qty - amount⟩ :: lots)

variable {l : Lot ρ} {lots : List (Lot ρ)} {lo hi start d x amount : ℚ}

@[simp] lemma total_nil : total ([] : List (Lot ρ)) = 0 := rfl

@[simp] lemma total_cons : total (l :: lots) = l.qty + total lots := sum_cons

lemma total_append {more : List (Lot ρ)} : total (lots ++ more) = total lots + total more := by
  rw [total, map_append, sum_append, ← total, ← total]

lemma total_nonneg (positive : ∀ l ∈ lots, 0 < l.qty) : 0 ≤ total lots := by
  induction lots with
  | nil => exact le_rfl
  | cons l lots ih =>
    rw [total_cons]
    exact add_nonneg (positive l mem_cons_self).le (ih fun l' mem => positive l' (mem_cons_of_mem _ mem))

/-! ## The units in an interval -/

lemma shares_shift (lo hi start d : ℚ) (lots : List (Lot ρ)) :
    shares (lo + d) (hi + d) (start + d) lots = shares lo hi start lots := by
  induction lots generalizing start with
  | nil => rfl
  | cons l lots ih =>
    have next : start + d + l.qty = start + l.qty + d := by ring
    have part : min (hi + d) (start + d + l.qty) - max (lo + d) (start + d) =
        min hi (start + l.qty) - max lo start := by
      rw [next, min_add_add_right, max_add_add_right]
      ring
    simp only [shares, part]
    rw [next, ih (start + l.qty)]

lemma shares_of_le (positive : ∀ l ∈ lots, 0 < l.qty) (le : hi ≤ start) : shares lo hi start lots = [] := by
  induction lots generalizing start with
  | nil => rfl
  | cons l lots ih =>
    have pos := positive l mem_cons_self
    have none : ¬ 0 < min hi (start + l.qty) - max lo start := by
      have := min_le_left hi (start + l.qty)
      have := le_max_right lo start
      linarith
    rw [shares, if_neg none, nil_append]
    exact ih (fun l' mem => positive l' (mem_cons_of_mem _ mem)) (by linarith)

lemma shares_empty (le : hi ≤ lo) : shares lo hi start lots = [] := by
  induction lots generalizing start with
  | nil => rfl
  | cons l lots ih =>
    have none : ¬ 0 < min hi (start + l.qty) - max lo start := by
      have := min_le_left hi (start + l.qty)
      have := le_max_left lo start
      linarith
    rw [shares, if_neg none, nil_append, ih]

lemma shares_from (positive : ∀ l ∈ lots, 0 < l.qty) (le : lo ≤ start) :
    shares lo hi start lots = shares start hi start lots := by
  have any {s : ℚ} (le : lo ≤ s) (le' : start ≤ s) : shares lo hi s lots = shares start hi s lots := by
    induction lots generalizing s with
    | nil => rfl
    | cons l lots ih =>
      have pos := positive l mem_cons_self
      rw [shares, shares, max_eq_right le, max_eq_right le',
        ih (fun l' mem => positive l' (mem_cons_of_mem _ mem)) (by linarith) (by linarith)]
  exact any le le_rfl

lemma shares_cons_of_le (le : l.qty ≤ lo) : shares lo hi 0 (l :: lots) = shares (lo - l.qty) (hi - l.qty) 0 lots := by
  have none : ¬ 0 < min hi (0 + l.qty) - max lo 0 := by
    have := min_le_right hi (0 + l.qty)
    have := le_max_left lo 0
    linarith
  have shift := shares_shift (lo - l.qty) (hi - l.qty) 0 l.qty lots
  rw [sub_add_cancel, sub_add_cancel] at shift
  rw [shares, if_neg none, nil_append, shift]

/-! ## The units that are left -/

lemma remaining_zero (positive : ∀ l ∈ lots, 0 < l.qty) : remaining lots 0 = lots := by
  cases lots with
  | nil => rfl
  | cons l lots => rw [remaining, if_neg (not_le.2 (positive l mem_cons_self)), sub_zero]

lemma remaining_positive (positive : ∀ l ∈ lots, 0 < l.qty) : ∀ l ∈ remaining lots x, 0 < l.qty := by
  induction lots generalizing x with
  | nil => exact fun _ mem => absurd mem not_mem_nil
  | cons l lots ih =>
    have rest : ∀ l ∈ lots, 0 < l.qty := fun l' mem => positive l' (mem_cons_of_mem _ mem)
    rw [remaining]
    split
    · exact ih rest
    · rename_i some
      intro l' mem
      rcases mem_cons.1 mem with rfl | mem
      · exact sub_pos.2 (not_le.1 some)
      · exact rest l' mem

lemma total_remaining (nonneg : 0 ≤ x) (le : x ≤ total lots) : total (remaining lots x) = total lots - x := by
  induction lots generalizing x with
  | nil =>
    rw [total_nil] at le
    rw [remaining, total_nil, le_antisymm le nonneg, sub_zero]
  | cons l lots ih =>
    rw [total_cons] at le
    rw [remaining]
    split
    · rename_i out
      rw [ih (sub_nonneg.2 out) (by linarith), total_cons]
      ring
    · rw [total_cons, total_cons]
      ring

lemma remaining_eq_nil (positive : ∀ l ∈ lots, 0 < l.qty) (le : total lots ≤ x) : remaining lots x = [] := by
  induction lots generalizing x with
  | nil => rfl
  | cons l lots ih =>
    have rest : ∀ l ∈ lots, 0 < l.qty := fun l' mem => positive l' (mem_cons_of_mem _ mem)
    have nonneg := total_nonneg rest
    rw [total_cons] at le
    rw [remaining, if_pos (by linarith), ih rest (by linarith)]

lemma remaining_concat (pos : 0 < l.qty) (nonneg : 0 ≤ x) (le : x ≤ total lots) :
    remaining (lots ++ [l]) x = remaining lots x ++ [l] := by
  induction lots generalizing x with
  | nil =>
    rw [total_nil] at le
    rw [le_antisymm le nonneg, nil_append, remaining_zero fun l' mem => mem_singleton.1 mem ▸ pos]
    rfl
  | cons l' lots ih =>
    rw [total_cons] at le
    rw [cons_append, remaining, remaining]
    split
    · rename_i out
      exact ih (sub_nonneg.2 out) (sub_le_iff_le_add'.2 le)
    · rfl

/-! ## The loop -/

lemma data_mem_of_take {l : Lot ρ} (mem : l ∈ (take amount lots).2.2) : ∃ l' ∈ lots, l'.data = l.data := by
  induction lots generalizing amount with
  | nil => exact absurd mem not_mem_nil
  | cons first lots ih =>
    rw [take] at mem
    split at mem
    · exact ⟨l, mem, rfl⟩
    · split at mem
      · obtain ⟨l', found, same⟩ := ih mem
        exact ⟨l', mem_cons_of_mem _ found, same⟩
      · rcases mem_cons.1 mem with rfl | mem
        · exact ⟨first, mem_cons_self, rfl⟩
        · exact ⟨l, mem_cons_of_mem _ mem, rfl⟩

lemma take_remaining (positive : ∀ l ∈ lots, 0 < l.qty) (nonneg : 0 ≤ x) (le : x ≤ total lots) (some : 0 ≤ amount) :
    take amount (remaining lots x) =
      (shares x (x + min amount (total lots - x)) 0 lots, amount - min amount (total lots - x),
        remaining lots (x + min amount (total lots - x))) := by
  induction lots generalizing x amount with
  | nil =>
    rw [total_nil] at le ⊢
    rw [le_antisymm le nonneg, sub_zero, min_eq_right some, sub_zero]
    rfl
  | cons l lots ih =>
    have pos := positive l mem_cons_self
    have rest : ∀ l ∈ lots, 0 < l.qty := fun l' mem => positive l' (mem_cons_of_mem _ mem)
    have restNonneg := total_nonneg rest
    rw [total_cons] at le ⊢
    by_cases out : l.qty ≤ x
    · -- the first lot has left
      have distance : l.qty + total lots - x = total lots - (x - l.qty) := by ring
      have gone : l.qty ≤ x + min amount (total lots - (x - l.qty)) := by
        have := le_min some (sub_nonneg.2 (sub_le_iff_le_add'.2 le))
        linarith
      rw [remaining, if_pos out, ih rest (sub_nonneg.2 out) (sub_le_iff_le_add'.2 le) some, distance,
        shares_cons_of_le out, remaining, if_pos gone, add_sub_right_comm]
    · have inside := not_le.1 out
      rw [remaining, if_neg out, take]
      by_cases none : amount ≤ 0
      · have zero : amount = 0 := le_antisymm none some
        subst zero
        have least : min 0 (l.qty + total lots - x) = 0 := min_eq_left (by linarith)
        rw [if_pos none, least, add_zero, sub_zero, shares_empty le_rfl, remaining, if_neg out]
      · have more := not_le.1 none
        rw [if_neg none]
        by_cases whole : l.qty - x ≤ amount
        · -- the first lot is taken whole
          have rest_ := ih rest le_rfl restNonneg (sub_nonneg.2 whole)
          rw [remaining_zero rest, sub_zero, zero_add] at rest_
          have least : min amount (l.qty + total lots - x) = l.qty - x + min (amount - (l.qty - x)) (total lots) := by
            rw [← min_add_add_left]
            congr 1 <;> ring
          have upper : x + (l.qty - x + min (amount - (l.qty - x)) (total lots)) =
              min (amount - (l.qty - x)) (total lots) + l.qty := by ring
          have leastNonneg : 0 ≤ min (amount - (l.qty - x)) (total lots) := le_min (sub_nonneg.2 whole) restNonneg
          have part : min (min (amount - (l.qty - x)) (total lots) + l.qty) (0 + l.qty) - max x 0 = l.qty - x := by
            rw [max_eq_left nonneg, min_eq_right (by linarith), zero_add]
          have shift := shares_shift 0 (min (amount - (l.qty - x)) (total lots)) 0 l.qty lots
          rw [zero_add] at shift
          have parts : shares x (min (amount - (l.qty - x)) (total lots) + l.qty) l.qty lots =
              shares 0 (min (amount - (l.qty - x)) (total lots)) 0 lots := by
            rw [shares_from rest inside.le, shift]
          simp only
          rw [if_pos whole, rest_, least, upper, shares, part, if_pos (sub_pos.2 inside), zero_add, parts,
            singleton_append, remaining, if_pos (by linarith), add_sub_cancel_right, sub_sub]
        · -- the amount is a part of the first lot
          have short := not_le.1 whole
          have least : min amount (l.qty + total lots - x) = amount := min_eq_left (by linarith)
          have part : min (x + amount) (0 + l.qty) - max x 0 = amount := by
            rw [max_eq_left nonneg, zero_add, min_eq_left (by linarith), add_sub_cancel_left]
          simp only
          rw [if_neg whole, least, sub_self, shares, part, if_pos more, zero_add, shares_of_le rest (by linarith),
            append_nil, remaining, if_neg (by linarith), sub_sub]

end Workbench.Lib.Fifo
