import Mathlib.Tactic

/-!
# Bisection

A search by halving an interval between an argument that fits and one that does not. Each step keeps the bracket and
halves its width, and its ends stay on a grid. Where the arguments that fit go down to the lower end without a gap, the
argument that is found is the greatest of the grid that fits (`isGreatest_bisect`), and whatever fits is less than one
width above it (`lt_of_fits`).
-/

namespace Workbench.Lib
variable {n : ℕ} {K : Type*} [Field K] [LinearOrder K] [IsStrictOrderedRing K] {fits : K → Bool} {lo hi : K}

local instance two_atLeastTwo : Nat.AtLeastTwo 2 := ⟨le_rfl⟩

def bisect (fits : K → Bool) : ℕ → K → K → K × K
  | 0, lo, hi => (lo, hi)
  | n + 1, lo, hi => if fits ((lo + hi) / 2) then bisect fits n ((lo + hi) / 2) hi else bisect fits n lo ((lo + hi) / 2)

/-- The lower end fits and the upper end does not. -/
structure Bracket (fits : K → Bool) (lo hi : K) : Prop where
  lower : fits lo = true
  upper : fits hi = false
  lt : lo < hi

/-- The arguments that fit go down to `lo` without a gap. -/
def DownTo (fits : K → Bool) (lo hi : K) : Prop := ∀ x y, lo ≤ x → x ≤ y → y ≤ hi → fits y = true → fits x = true

lemma Bracket.halve (bracket : Bracket fits lo hi) :
    fits ((lo + hi) / 2) = true ∧ Bracket fits ((lo + hi) / 2) hi ∨
      fits ((lo + hi) / 2) = false ∧ Bracket fits lo ((lo + hi) / 2) := by
  have lt := bracket.lt
  cases fit : fits ((lo + hi) / 2) with
  | true => exact .inl ⟨rfl, fit, bracket.upper, by linarith⟩
  | false => exact .inr ⟨rfl, bracket.lower, fit, by linarith⟩

lemma bisect_bracket (bracket : Bracket fits lo hi) : Bracket fits (bisect fits n lo hi).1 (bisect fits n lo hi).2 ∧
      (bisect fits n lo hi).2 = (bisect fits n lo hi).1 + (hi - lo) / 2 ^ n ∧
      ∃ k : ℕ, k < 2 ^ n ∧ (bisect fits n lo hi).1 = lo + k * ((hi - lo) / 2 ^ n) := by
  induction n generalizing lo hi with
  | zero =>
    refine ⟨bracket, ?_, 0, by simp, ?_⟩
    · simp [bisect]
    · simp [bisect]
  | succ n ih =>
    have two : (2 : K) ^ n ≠ 0 := pow_ne_zero n two_ne_zero
    rw [bisect]
    rcases bracket.halve with ⟨fit, half⟩ | ⟨unfit, half⟩
    · rw [if_pos fit]
      obtain ⟨found, width, k, lt, grid⟩ := ih half
      refine ⟨found, ?_, 2 ^ n + k, by rw [pow_succ]; omega, ?_⟩
      · rw [width, pow_succ]
        field_simp
        ring
      · rw [grid, pow_succ]
        push_cast
        field_simp
        ring
    · rw [unfit, if_neg Bool.false_ne_true]
      obtain ⟨found, width, k, lt, grid⟩ := ih half
      refine ⟨found, ?_, k, by rw [pow_succ]; omega, ?_⟩
      · rw [width, pow_succ]
        field_simp
        ring
      · rw [grid, pow_succ]
        field_simp
        ring

lemma bisect_mem (bracket : Bracket fits lo hi) : lo ≤ (bisect fits n lo hi).1 ∧ (bisect fits n lo hi).2 ≤ hi := by
  obtain ⟨-, width, k, lt, grid⟩ := bisect_bracket (n := n) bracket
  have positive : 0 < (hi - lo) / 2 ^ n := div_pos (sub_pos.2 bracket.lt) (pow_pos two_pos n)
  have steps : (k : K) + 1 ≤ 2 ^ n := by exact_mod_cast lt
  have whole : 2 ^ n * ((hi - lo) / 2 ^ n) = hi - lo := mul_div_cancel₀ _ (pow_ne_zero n two_ne_zero)
  constructor
  · rw [grid]
    have := mul_nonneg (Nat.cast_nonneg (α := K) k) positive.le
    linarith
  · rw [width, grid]
    have := mul_le_mul_of_nonneg_right steps positive.le
    linarith

lemma lt_of_fits {x : K} (bracket : Bracket fits lo hi) (down : DownTo fits lo hi) (le : x ≤ hi)
    (fit : fits x = true) : x < (bisect fits n lo hi).1 + (hi - lo) / 2 ^ n := by
  obtain ⟨found, width, -⟩ := bisect_bracket (n := n) bracket
  rw [← width]
  by_contra above
  have inside := (bisect_mem (n := n) bracket).1.trans found.lt.le
  have fit' := down _ x inside (not_lt.1 above) le fit
  rw [found.upper] at fit'
  exact Bool.false_ne_true fit'

/-- What is found is the greatest argument of the grid that fits. -/
theorem isGreatest_bisect (bracket : Bracket fits lo hi) (down : DownTo fits lo hi) :
    IsGreatest {x | fits x = true ∧ ∃ k : ℕ, k ≤ 2 ^ n ∧ x = lo + k * ((hi - lo) / 2 ^ n)} (bisect fits n lo hi).1 := by
  obtain ⟨found, -, k, lt, grid⟩ := bisect_bracket (n := n) bracket
  have positive : 0 < (hi - lo) / 2 ^ n := div_pos (sub_pos.2 bracket.lt) (pow_pos two_pos n)
  have whole : 2 ^ n * ((hi - lo) / 2 ^ n) = hi - lo := mul_div_cancel₀ _ (pow_ne_zero n two_ne_zero)
  refine ⟨⟨found.lower, k, lt.le, grid⟩, ?_⟩
  rintro x ⟨fit, j, le, rfl⟩
  have top : (j : K) * ((hi - lo) / 2 ^ n) ≤ 2 ^ n * ((hi - lo) / 2 ^ n) :=
    mul_le_mul_of_nonneg_right (by exact_mod_cast le) positive.le
  have below := lt_of_fits (n := n) bracket down (x := lo + j * ((hi - lo) / 2 ^ n)) (by linarith) fit
  rw [grid] at below ⊢
  -- two points of the grid that are less than one width apart
  have close : (j : K) * ((hi - lo) / 2 ^ n) < (k + 1) * ((hi - lo) / 2 ^ n) := by linarith
  have steps : j ≤ k := by
    have lt : (j : K) < (k : K) + 1 := lt_of_mul_lt_mul_right close positive.le
    exact Nat.lt_succ_iff.1 (by exact_mod_cast lt)
  have := mul_le_mul_of_nonneg_right (show (j : K) ≤ k by exact_mod_cast steps) positive.le
  linarith

end Workbench.Lib
