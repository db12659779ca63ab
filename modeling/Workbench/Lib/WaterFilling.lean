import Mathlib.Algebra.BigOperators.Group.Finset.Basic
import Mathlib.Algebra.Order.BigOperators.Group.Finset
import Mathlib.Tactic

/-!
# Filling groups up to a cap

A `Basin` is a finite set of groups with positive totals, an amount that is in no group, and a cap. At a factor it holds
the factor times what is in no group, and of each group the factor times its total, up to the cap (`held`). To find the
factor at which it holds a given mass, groups over the cap are frozen at the cap, and what that frees raises the factor
of the rest: `Level` is what every such pass keeps (`Level.next`). With no group over the cap the factor is found
(`Level.held_eq`); with nothing left to raise, no factor exists (`Level.spilt`, `held_le`).
-/

namespace Workbench.Lib.WaterFilling

variable {σ K : Type*} [DecidableEq σ] [Field K] [LinearOrder K] [IsStrictOrderedRing K]

/-- Groups with their totals, what is in no group, and the cap of a group. -/
structure Basin (σ K : Type*) [Field K] [LinearOrder K] where
  groups : Finset σ
  total : σ → K
  loose : K
  cap : K
  total_pos : ∀ s ∈ groups, 0 < total s
  loose_nonneg : 0 ≤ loose

namespace Basin

def held (b : Basin σ K) (f : K) : K := f * b.loose + ∑ s ∈ b.groups, min b.cap (f * b.total s)

/-- The groups that are not frozen and over the cap at a factor. -/
def brimming (b : Basin σ K) (frozen : Finset σ) (f : K) : Finset σ :=
  (b.groups \ frozen).filter fun s => b.cap < f * b.total s

def rest (b : Basin σ K) (frozen : Finset σ) : K := b.loose + ∑ s ∈ b.groups \ frozen, b.total s

/-- What freezing the groups over the cap frees. -/
def freed (b : Basin σ K) (frozen : Finset σ) (f : K) : K := ∑ s ∈ b.brimming frozen f, (f * b.total s - b.cap)

/-- The factor of the rest once what is freed is spread over it. -/
def raised (b : Basin σ K) (frozen : Finset σ) (f : K) : K :=
  f * (1 + b.freed frozen f / (f * b.rest (frozen ∪ b.brimming frozen f)))

end Basin

/-- Frozen groups at the cap and the rest at one factor make up the mass. -/
structure Level (b : Basin σ K) (mass : K) (frozen : Finset σ) (f : K) : Prop where
  known : frozen ⊆ b.groups
  one_le : 1 ≤ f
  full : ∀ s ∈ frozen, b.cap ≤ f * b.total s
  mass_eq : frozen.card * b.cap + f * b.rest frozen = mass

variable {b : Basin σ K} {frozen : Finset σ} {mass f : K} {s : σ}

omit [IsStrictOrderedRing K] in
lemma mem_brimming : s ∈ b.brimming frozen f ↔ (s ∈ b.groups ∧ s ∉ frozen) ∧ b.cap < f * b.total s := by
  rw [Basin.brimming, Finset.mem_filter, Finset.mem_sdiff]

omit [IsStrictOrderedRing K] in
lemma disjoint_brimming : Disjoint frozen (b.brimming frozen f) := by
  rw [Finset.disjoint_right]
  intro s mem
  exact (mem_brimming.1 mem).1.2

omit [IsStrictOrderedRing K] in
lemma frozen_union_brimming (known : frozen ⊆ b.groups) : frozen ∪ b.brimming frozen f ⊆ b.groups := by
  apply Finset.union_subset known
  intro s mem
  exact (mem_brimming.1 mem).1.1

omit [IsStrictOrderedRing K] in
lemma rest_eq_add : b.rest frozen = b.rest (frozen ∪ b.brimming frozen f) + ∑ s ∈ b.brimming frozen f, b.total s := by
  have part : b.brimming frozen f ⊆ b.groups \ frozen := Finset.filter_subset _ _
  have split := Finset.sum_sdiff part (f := b.total)
  rw [Finset.sdiff_sdiff_left'] at split
  rw [Basin.rest, Basin.rest, ← split, Finset.sdiff_union_distrib, add_assoc]

omit [IsStrictOrderedRing K] in
lemma freed_eq : b.freed frozen f = f * ∑ s ∈ b.brimming frozen f, b.total s - (b.brimming frozen f).card * b.cap := by
  rw [Basin.freed, Finset.sum_sub_distrib, Finset.mul_sum, Finset.sum_const, nsmul_eq_mul]

lemma freed_nonneg : 0 ≤ b.freed frozen f := by
  apply Finset.sum_nonneg
  intro s mem
  exact sub_nonneg.2 (mem_brimming.1 mem).2.le

lemma freed_pos (some_over : (b.brimming frozen f).Nonempty) : 0 < b.freed frozen f := by
  apply Finset.sum_pos _ some_over
  intro s mem
  exact sub_pos.2 (mem_brimming.1 mem).2

lemma rest_nonneg : 0 ≤ b.rest frozen := by
  apply add_nonneg b.loose_nonneg
  apply Finset.sum_nonneg
  intro s mem
  exact (b.total_pos s (Finset.mem_sdiff.1 mem).1).le

omit [IsStrictOrderedRing K] in
lemma Level.start (mass_eq : b.loose + ∑ s ∈ b.groups, b.total s = mass) : Level b mass ∅ 1 where
  known := Finset.empty_subset _
  one_le := le_refl _
  full := by simp
  mass_eq := by rw [Finset.card_empty, Nat.cast_zero, zero_mul, zero_add, one_mul, Basin.rest, Finset.sdiff_empty,
    mass_eq]

lemma le_raised (one_le : 1 ≤ f) : f ≤ b.raised frozen f := by
  have share : 0 ≤ b.freed frozen f / (f * b.rest (frozen ∪ b.brimming frozen f)) :=
    div_nonneg freed_nonneg (mul_nonneg (zero_le_one.trans one_le) rest_nonneg)
  rw [Basin.raised]
  exact le_mul_of_one_le_right (zero_le_one.trans one_le) (le_add_of_nonneg_right share)

lemma Level.next (level : Level b mass frozen f) (left : 0 < b.rest (frozen ∪ b.brimming frozen f)) :
    Level b mass (frozen ∪ b.brimming frozen f) (b.raised frozen f) where
  known := frozen_union_brimming level.known
  one_le := level.one_le.trans (le_raised level.one_le)
  full := by
    intro s mem
    rcases Finset.mem_union.1 mem with old | new
    · have pos := b.total_pos s (level.known old)
      exact (level.full s old).trans (mul_le_mul_of_nonneg_right (le_raised level.one_le) pos.le)
    · have pos := b.total_pos s (mem_brimming.1 new).1.1
      exact (mem_brimming.1 new).2.le.trans (mul_le_mul_of_nonneg_right (le_raised level.one_le) pos.le)
  mass_eq := by
    have pos : 0 < f := zero_lt_one.trans_le level.one_le
    -- what the rest gains is what was freed
    have gained : b.raised frozen f * b.rest (frozen ∪ b.brimming frozen f)
        = f * b.rest (frozen ∪ b.brimming frozen f) + b.freed frozen f := by
      rw [Basin.raised]
      field_simp
    have before := level.mass_eq
    rw [rest_eq_add (f := f)] at before
    rw [gained, freed_eq, Finset.card_union_of_disjoint disjoint_brimming, Nat.cast_add, ← before]
    ring

omit [IsStrictOrderedRing K] in
lemma Level.held_eq (level : Level b mass frozen f) (none_over : b.brimming frozen f = ∅) : b.held f = mass := by
  have frozen_part : ∑ s ∈ frozen, min b.cap (f * b.total s) = frozen.card * b.cap := by
    rw [← nsmul_eq_mul, ← Finset.sum_const]
    apply Finset.sum_congr rfl
    intro s mem
    exact min_eq_left (level.full s mem)
  have free_part : ∑ s ∈ b.groups \ frozen, min b.cap (f * b.total s) = f * ∑ s ∈ b.groups \ frozen, b.total s := by
    rw [Finset.mul_sum]
    apply Finset.sum_congr rfl
    intro s mem
    apply min_eq_right
    by_contra above
    have found : s ∈ b.brimming frozen f := mem_brimming.2 ⟨Finset.mem_sdiff.1 mem, not_le.1 above⟩
    rw [none_over] at found
    exact Finset.notMem_empty s found
  rw [Basin.held, ← Finset.sum_sdiff level.known, frozen_part, free_part, ← level.mass_eq, Basin.rest]
  ring

lemma Level.spilt (level : Level b mass frozen f) (some_over : (b.brimming frozen f).Nonempty)
    (nothing : b.rest (frozen ∪ b.brimming frozen f) ≤ 0) : b.loose = 0 ∧ b.groups.card * b.cap < mass := by
  have sum_nonneg : 0 ≤ ∑ s ∈ b.groups \ (frozen ∪ b.brimming frozen f), b.total s :=
    Finset.sum_nonneg fun s mem => (b.total_pos s (Finset.mem_sdiff.1 mem).1).le
  have loose_nonneg := b.loose_nonneg
  rw [Basin.rest] at nothing
  have all_frozen : b.groups = frozen ∪ b.brimming frozen f := by
    apply Finset.Subset.antisymm _ (frozen_union_brimming level.known)
    rw [← Finset.sdiff_eq_empty_iff_subset]
    by_contra others
    have pos : 0 < ∑ s ∈ b.groups \ (frozen ∪ b.brimming frozen f), b.total s :=
      Finset.sum_pos (fun s mem => b.total_pos s (Finset.mem_sdiff.1 mem).1) (Finset.nonempty_iff_ne_empty.2 others)
    linarith
  refine ⟨by linarith, ?_⟩
  have before := level.mass_eq
  have no_rest : b.rest (frozen ∪ b.brimming frozen f) = 0 :=
    le_antisymm (by rw [Basin.rest]; exact nothing) rest_nonneg
  rw [rest_eq_add (f := f), no_rest, zero_add] at before
  have freed := freed_pos some_over
  rw [freed_eq] at freed
  rw [all_frozen, Finset.card_union_of_disjoint disjoint_brimming, Nat.cast_add, ← before]
  linarith

omit [DecidableEq σ] in
lemma held_le : b.held f ≤ f * b.loose + b.groups.card * b.cap := by
  rw [Basin.held, ← nsmul_eq_mul, ← Finset.sum_const]
  gcongr
  exact min_le_left _ _

omit [IsStrictOrderedRing K] in
lemma card_lt (some_over : (b.brimming frozen f).Nonempty) : frozen.card < (frozen ∪ b.brimming frozen f).card := by
  rw [Finset.card_union_of_disjoint disjoint_brimming]
  exact Nat.lt_add_of_pos_right (Finset.card_pos.2 some_over)

end Workbench.Lib.WaterFilling
