import Mathlib.Tactic

/-!
# The share of a sleeve in a quadratic risk

A covariance over a list of assets is a bilinear form of two books (`form`); the risk of a book is the form of the book
with itself, and the share of a sleeve is the form of the sleeve with the book over the risk. Where the covariance is
positive semidefinite, a sleeve that is scaled down from a factor within a cap stays within it (`within_of_le`): the
factors that are within the cap are an interval from zero, whatever the sign of the covariance between the sleeve and
the rest.
-/

namespace Workbench.Lib.Risk
open List

variable {ι K : Type*} [Field K] {names : List ι} {cov : ι → ι → K} {x y z : ι → K} {r : K}

def form (names : List ι) (cov : ι → ι → K) (x y : ι → K) : K :=
  (names.map fun i => x i * (names.map fun j => cov i j * y j).sum).sum

lemma form_add_left : form names cov (fun i => x i + y i) z = form names cov x z + form names cov y z := by
  simp only [form, add_mul, sum_map_add]

lemma form_smul_left : form names cov (fun i => r * x i) z = r * form names cov x z := by
  simp only [form, mul_assoc, sum_map_mul_left]

lemma form_add_right : form names cov z (fun i => x i + y i) = form names cov z x + form names cov z y := by
  simp only [form, mul_add, sum_map_add]

lemma form_smul_right : form names cov z (fun i => r * x i) = r * form names cov z x := by
  simp only [form, mul_left_comm _ r, sum_map_mul_left]

lemma form_congr {x' y' : ι → K} (eqx : ∀ i ∈ names, x i = x' i) (eqy : ∀ i ∈ names, y i = y' i) :
    form names cov x y = form names cov x' y' := by
  have inner : ∀ i, (names.map fun j => cov i j * y j).sum = (names.map fun j => cov i j * y' j).sum := by
    intro i
    congr 1
    apply map_congr_left
    intro j mem
    rw [eqy j mem]
  rw [form, form]
  congr 1
  apply map_congr_left
  intro i mem
  rw [eqx i mem, inner]

lemma sum_swap {α β : Type*} {l : List α} {m : List β} {f : α → β → K} :
    (l.map fun i => (m.map fun j => f i j).sum).sum = (m.map fun j => (l.map fun i => f i j).sum).sum := by
  induction l with
  | nil => simp
  | cons i l ih => simp only [map_cons, sum_cons, ih, sum_map_add]

lemma form_comm (symm : ∀ i ∈ names, ∀ j ∈ names, cov i j = cov j i) : form names cov x y = form names cov y x := by
  simp only [form, ← sum_map_mul_left]
  rw [sum_swap]
  congr 1
  apply map_congr_left
  intro j memj
  congr 1
  apply map_congr_left
  intro i memi
  rw [symm i memi j memj]
  ring

/-! ## A sleeve and the rest -/

def scaled (mask : ι → Bool) (f : K) (x : ι → K) (i : ι) : K := if mask i then x i * f else x i

def sleeve (mask : ι → Bool) (x : ι → K) (i : ι) : K := if mask i then x i else 0

def rest (mask : ι → Bool) (x : ι → K) (i : ι) : K := if mask i then 0 else x i

variable {mask : ι → Bool} {f : K}

lemma scaled_eq : scaled mask f x = fun i => f * sleeve mask x i + rest mask x i := by
  funext i
  cases inSleeve : mask i with
  | true => simp [scaled, sleeve, rest, inSleeve, mul_comm]
  | false => simp [scaled, sleeve, rest, inSleeve]

lemma sleeve_scaled : sleeve mask (scaled mask f x) = fun i => f * sleeve mask x i := by
  funext i
  cases inSleeve : mask i with
  | true => simp [scaled, sleeve, inSleeve, mul_comm]
  | false => simp [sleeve, inSleeve]

lemma form_sleeve_scaled :
    form names cov (sleeve mask (scaled mask f x)) (scaled mask f x) =
      form names cov (sleeve mask x) (sleeve mask x) * f ^ 2 + form names cov (sleeve mask x) (rest mask x) * f := by
  rw [sleeve_scaled, scaled_eq, form_smul_left, form_add_right, form_smul_right]
  ring

lemma form_scaled (symm : ∀ i ∈ names, ∀ j ∈ names, cov i j = cov j i) :
    form names cov (scaled mask f x) (scaled mask f x) = form names cov (sleeve mask x) (sleeve mask x) * f ^ 2 +
        2 * form names cov (sleeve mask x) (rest mask x) * f + form names cov (rest mask x) (rest mask x) := by
  rw [scaled_eq, form_add_left, form_smul_left, form_add_right, form_smul_right, form_add_right, form_smul_right,
    form_comm symm (x := rest mask x) (y := sleeve mask x)]
  ring

variable [LinearOrder K] [IsStrictOrderedRing K]

/-- A covariance is symmetric, and no book has a negative risk. -/
structure Psd (names : List ι) (cov : ι → ι → K) : Prop where
  symm : ∀ i ∈ names, ∀ j ∈ names, cov i j = cov j i
  nonneg : ∀ x, 0 ≤ form names cov x x

/-! ## Scaling the sleeve -/

section Scaling

variable {a b c ε cap f g : K}

/-- The share of a sleeve scaled by `f` is within the cap: the risk of the book is too small to be shared, or the part
    of the sleeve is no more than the cap's. `a` is the risk of the sleeve, `c` that of the rest and `b` what is between
    them. -/
def Within (a b c ε cap f : K) : Prop :=
  a * f ^ 2 + 2 * b * f + c ≤ ε ∨ a * f ^ 2 + b * f ≤ cap * (a * f ^ 2 + 2 * b * f + c)

lemma part_le_of_le (a_nonneg : 0 ≤ a) (c_nonneg : 0 ≤ c) (cap_pos : 0 < cap) (cap_lt : cap < 1) (g_nonneg : 0 ≤ g)
    (le : g ≤ f) (part : a * f ^ 2 + b * f ≤ cap * (a * f ^ 2 + 2 * b * f + c)) :
    a * g ^ 2 + b * g ≤ cap * (a * g ^ 2 + 2 * b * g + c) := by
  rcases (g_nonneg.trans le).eq_or_lt with zero | pos
  · have same : g = f := le_antisymm le (zero ▸ g_nonneg)
    rw [same]
    exact part
  · have rest : 0 ≤ cap * c := mul_nonneg cap_pos.le c_nonneg
    have convex : 0 ≤ (1 - cap) * a * g * (f * (f - g)) :=
      mul_nonneg (mul_nonneg (mul_nonneg (by linarith) a_nonneg) g_nonneg) (mul_nonneg pos.le (by linarith))
    have chord : f * ((1 - cap) * a * g ^ 2 + (1 - 2 * cap) * b * g - cap * c) =
        g * ((1 - cap) * a * f ^ 2 + (1 - 2 * cap) * b * f - cap * c) - cap * c * (f - g) -
          (1 - cap) * a * g * (f * (f - g)) := by ring
    have endpoint : g * ((1 - cap) * a * f ^ 2 + (1 - 2 * cap) * b * f - cap * c) ≤ 0 :=
      mul_nonpos_of_nonneg_of_nonpos g_nonneg (by linarith)
    have gap : 0 ≤ cap * c * (f - g) := mul_nonneg rest (by linarith)
    have scaled : f * ((1 - cap) * a * g ^ 2 + (1 - 2 * cap) * b * g - cap * c) ≤ 0 := by linarith
    have below := nonpos_of_mul_nonpos_right scaled pos
    linarith

/-- A sleeve that is scaled down from a factor within the cap stays within it. -/
theorem within_of_le (a_nonneg : 0 ≤ a) (c_nonneg : 0 ≤ c) (risk : 0 ≤ a * g ^ 2 + 2 * b * g + c) (cap_pos : 0 < cap)
    (cap_lt : cap < 1) (g_nonneg : 0 ≤ g) (le : g ≤ f) (within : Within a b c ε cap f) : Within a b c ε cap g := by
  rcases within with small | part
  · rcases le_or_gt (a * g + b) 0 with falling | rising
    · -- the sleeve hedges the rest: its part is not positive
      right
      have hedge : g * (a * g + b) ≤ 0 := mul_nonpos_of_nonneg_of_nonpos g_nonneg falling
      have share : 0 ≤ cap * (a * g ^ 2 + 2 * b * g + c) := mul_nonneg cap_pos.le risk
      linarith
    · -- the risk grows from here to the factor, where it is small
      left
      have slope : 0 ≤ (f - g) * ((a * g + b) + (a * f + b)) := by
        have more : a * g ≤ a * f := mul_le_mul_of_nonneg_left le a_nonneg
        exact mul_nonneg (by linarith) (by linarith)
      linarith
  · exact .inr (part_le_of_le a_nonneg c_nonneg cap_pos cap_lt g_nonneg le part)

/-- The factors of a sleeve that are within a cap are an interval from zero. -/
theorem scaled_within_of_le (psd : Psd names cov) (cap_pos : 0 < cap) (cap_lt : cap < 1) (g_nonneg : 0 ≤ g) (le : g ≤ f)
    (within : form names cov (scaled mask f x) (scaled mask f x) ≤ ε ∨
      form names cov (sleeve mask (scaled mask f x)) (scaled mask f x) ≤
        cap * form names cov (scaled mask f x) (scaled mask f x)) :
    form names cov (scaled mask g x) (scaled mask g x) ≤ ε ∨
      form names cov (sleeve mask (scaled mask g x)) (scaled mask g x) ≤
        cap * form names cov (scaled mask g x) (scaled mask g x) := by
  have risk := psd.nonneg (scaled mask g x)
  rw [form_scaled psd.symm] at risk
  rw [form_scaled psd.symm, form_sleeve_scaled] at within ⊢
  exact within_of_le (psd.nonneg _) (psd.nonneg _) risk cap_pos cap_lt g_nonneg le within

end Scaling

end Workbench.Lib.Risk
