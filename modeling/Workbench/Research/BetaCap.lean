import Workbench.Lib.Bisection
import Workbench.Lib.RiskShare
import Workbench.Research.Registry

/-!
# The equity-beta cap

Model of `app/research/factor_lab/beta_cap.py`, with `risk_contributions` of `erc.py`, over exact rationals: the share
of the equity names in the risk of a book, and the governor that scales the equity names down until their share is
within the cap. The bisection finds the greatest factor of its grid (`scale_isGreatest`). The weights of all priced
names are rounded afterwards, to the nearest sixth decimal; the governor keeps its word just where that moves no other
name, moves no equity name away from zero and leaves the share within the cap (`governed_iff`).

Python → Lean naming: `_FLOOR` → `floor`; `cap_equity_beta` → `capEquityBetaWith`, which takes `shrinkCov` as
an argument. A vector or a matrix over the priced names is a function of names; `str.upper` is a parameter.
-/

namespace Workbench.Research.BetaCap
open Workbench.Lib List Option

variable {ν : Type} [DecidableEq ν]

/-- `round(x, k)` -/
def roundTo (k : ℕ) (x : ℚ) : ℚ := roundHalfEven (x * 10 ^ k) / 10 ^ k

/-! ## The risk of a book -/

/-- `_FLOOR` -/
def floor : ℚ := 1 / 10 ^ 18

/-- Python `risk_contributions`. -/
def riskContributions (names : List ν) (cov : ν → ν → ℚ) (w : ν → ℚ) : ν → ℚ :=
  let rc i := w i * (names.map fun j => cov i j * w j).sum
  let total := (names.map rc).sum
  if total ≤ floor then fun _ => 0 else fun i => rc i / total

/-- Python `equity_rc`: the contributions of the names of the mask. -/
def equityRc (names : List ν) (cov : ν → ν → ℚ) (mask : ν → Bool) (vec : ν → ℚ) : ℚ :=
  ((names.filter mask).map (riskContributions names cov vec)).sum

/-- `np.abs(v).sum()` -/
def gross (names : List ν) (v : ν → ℚ) : ℚ := (names.map fun i => |v i|).sum

/-! ## The covariance of a panel -/

/-- A frame of daily returns; `none` is a `NaN`. -/
structure Panel (ν : Type) where
  columns : List ν
  rows : List (ν → Option ℚ)

def mean (rows : List (ν → ℚ)) (k : ν) : ℚ := (rows.map fun r => r k).sum / rows.length

/-- `np.cov(returns, rowvar=False, ddof=1)` -/
def sampleCov (rows : List (ν → ℚ)) (i j : ν) : ℚ :=
  (rows.map fun r => (r i - mean rows i) * (r j - mean rows j)).sum / (rows.length - 1)

/-- Python `_shrink_cov`. -/
def shrinkCov (shrink : ℚ) (rows : List (ν → ℚ)) (i j : ν) : ℚ :=
  (1 - shrink) * sampleCov rows i j + shrink * (if i = j then sampleCov rows i j else 0)

/-! ## The governor -/

/-- The report of a call. -/
structure Report where
  applied : Bool := false
  cap : ℚ
  nPriced : ℕ
  note : Option String := none
  equityBetaRcBefore : Option ℚ := none
  grossBefore : Option ℚ := none
  nEquity : Option ℕ := none
  scaleEquityBeta : Option ℚ := none
  equityBetaRcAfter : Option ℚ := none
  grossAfter : Option ℚ := none
  cashFreed : Option ℚ := none

/-- `_BISECTION_ITERS` -/
def bisectionIters : ℕ := 50

variable (upper : ν → ν)

/-- `cols[s.upper()]`: the last column of the name. -/
def columnOf (returns : Panel ν) (s : ν) : Option ν := returns.columns.reverse.find? fun c => upper c = upper s

/-- `priced`, in the order of the book. -/
def pricedNames (weights : Dict ν ℚ) (returns : Panel ν) : List ν :=
  (weights.entries.map Prod.fst).filter fun s => (columnOf upper returns s).isSome

def cell (returns : Panel ν) (row : ν → Option ℚ) (s : ν) : Option ℚ := (columnOf upper returns s).bind row

/-- The rows without a `NaN` in the columns of the priced names, the last ones of them. -/
def commonRows (weights : Dict ν ℚ) (returns : Panel ν) (lookback : ℕ) : List (ν → ℚ) :=
  let complete := returns.rows.filter fun row => (pricedNames upper weights returns).all fun s =>
    (cell upper returns row s).isSome
  let panel := complete.map fun row s => (cell upper returns row s).getD 0
  -- `iloc[-0:]` is the whole panel
  if lookback < panel.length ∧ lookback ≠ 0 then panel.drop (panel.length - lookback) else panel

def weightOf (book : Dict ν ℚ) (s : ν) : ℚ := (book.get s).getD 0

def isEquity (equityNames : List ν) (s : ν) : Bool := upper s ∈ equityNames.map upper

/-- Whether the share of the equity names, scaled by a factor, is within the cap. -/
def within (names : List ν) (cov : ν → ν → ℚ) (mask : ν → Bool) (cap : ℚ) (v : ν → ℚ) (f : ℚ) : Bool :=
  equityRc names cov mask (Risk.scaled mask f v) ≤ cap

/-- The scale of the equity names: the lower end of the bisection, 1 within the budget. -/
def scale (names : List ν) (cov : ν → ν → ℚ) (mask : ν → Bool) (cap : ℚ) (v : ν → ℚ) : ℚ :=
  if equityRc names cov mask v ≤ cap then 1 else (bisect (within names cov mask cap v) bisectionIters 0 1).1

/-- Python `cap_equity_beta`, with the covariance that is estimated. -/
def capEquityBetaWith (estimate : List (ν → ℚ) → ν → ν → ℚ) (weights : Dict ν ℚ) (returns : Panel ν)
    (equityNames : List ν) (cap : ℚ) (lookback : ℕ) : Dict ν ℚ × Report :=
  let priced := pricedNames upper weights returns
  let panel := commonRows upper weights returns lookback
  let report : Report := { cap := cap, nPriced := priced.length }
  if priced.length < 3 then (weights, { report with note := some "fewer than 3 priced names; governor skipped" })
  else if panel.length < 3 then
    (weights, { report with note := some "fewer than 3 common-date rows; governor skipped" })
  else
    let cov := estimate panel
    let v := weightOf weights
    let mask := isEquity upper equityNames
    let rc0 := equityRc priced cov mask v
    let gross0 := gross priced v
    let report := { report with
      equityBetaRcBefore := some (roundTo 4 rc0), grossBefore := some (roundTo 4 gross0)
      nEquity := some (priced.filter mask).length }
    if rc0 ≤ cap then (weights, { report with note := some "within budget; no change" })
    else
      let f := scale priced cov mask cap v
      let vv := Risk.scaled mask f v
      (priced.foldl (fun book s => book.set s (roundTo 6 (vv s))) weights, { report with
        applied := true, scaleEquityBeta := some (roundTo 4 f)
        equityBetaRcAfter := some (roundTo 4 (equityRc priced cov mask vv))
        grossAfter := some (roundTo 4 (gross priced vv)), cashFreed := some (roundTo 4 (gross0 - gross priced vv)) })

/-! ## The share as a form -/

section Share

omit [DecidableEq ν]

variable {names : List ν} {cov : ν → ν → ℚ} {mask : ν → Bool} {cap f g : ℚ} {v vec : ν → ℚ}

lemma sum_filter_map {p : ν → Bool} {h : ν → ℚ} :
    ((names.filter p).map h).sum = (names.map fun i => if p i then h i else 0).sum := by
  induction names with
  | nil => rfl
  | cons i names ih =>
    cases chosen : p i with
    | true => rw [filter_cons_of_pos chosen, map_cons, map_cons, sum_cons, sum_cons, ih, chosen,
        if_pos rfl]
    | false => rw [filter_cons_of_neg (by simp [chosen]), map_cons, sum_cons, ih, chosen,
        if_neg Bool.false_ne_true, zero_add]

lemma equityRc_eq :
    equityRc names cov mask vec = if Risk.form names cov vec vec ≤ floor then 0
      else Risk.form names cov (Risk.sleeve mask vec) vec / Risk.form names cov vec vec := by
  rw [equityRc, sum_filter_map]
  unfold riskContributions
  split
  · rename_i small
    have risk : Risk.form names cov vec vec ≤ floor := small
    rw [if_pos risk]
    simp
  · rename_i large
    have risk : ¬ Risk.form names cov vec vec ≤ floor := large
    rw [if_neg risk, Risk.form, div_eq_mul_inv, ← sum_map_mul_right]
    congr 1
    apply map_congr_left
    intro i _
    cases chosen : mask i with
    | true => simp [Risk.sleeve, chosen, Risk.form, div_eq_mul_inv]
    | false => simp [Risk.sleeve, chosen]

lemma equityRc_le_iff (cap_pos : 0 < cap) :
    equityRc names cov mask vec ≤ cap ↔ Risk.form names cov vec vec ≤ floor ∨
        Risk.form names cov (Risk.sleeve mask vec) vec ≤ cap * Risk.form names cov vec vec := by
  rw [equityRc_eq]
  by_cases small : Risk.form names cov vec vec ≤ floor
  · simp [small, cap_pos.le]
  · have positive : 0 < Risk.form names cov vec vec := lt_trans (by norm_num [floor]) (not_le.1 small)
    rw [if_neg small, div_le_iff₀ positive]
    simp [small]

lemma within_iff (cap_pos : 0 < cap) :
    within names cov mask cap v f = true ↔ Risk.form names cov (Risk.scaled mask f v) (Risk.scaled mask f v) ≤ floor ∨
        Risk.form names cov (Risk.sleeve mask (Risk.scaled mask f v)) (Risk.scaled mask f v) ≤
          cap * Risk.form names cov (Risk.scaled mask f v) (Risk.scaled mask f v) := by
  rw [within, decide_eq_true_eq, equityRc_le_iff cap_pos]

lemma within_down (psd : Risk.Psd names cov) (cap_pos : 0 < cap) (cap_lt : cap < 1) :
    DownTo (within names cov mask cap v) 0 1 := by
  intro g f nonneg le _ fits
  rw [within_iff cap_pos] at fits ⊢
  exact Risk.scaled_within_of_le psd cap_pos cap_lt nonneg le fits

lemma within_zero (psd : Risk.Psd names cov) (cap_pos : 0 < cap) : within names cov mask cap v 0 = true := by
  rw [within_iff cap_pos, Risk.form_sleeve_scaled]
  right
  have risk := mul_nonneg cap_pos.le (psd.nonneg (Risk.scaled mask 0 v))
  linarith

@[simp] lemma scaled_one : Risk.scaled mask 1 v = v := by
  funext i
  simp [Risk.scaled]

lemma bracket_of_breach (psd : Risk.Psd names cov) (cap_pos : 0 < cap) (breach : ¬ equityRc names cov mask v ≤ cap) :
    Bracket (within names cov mask cap v) 0 1 := by
  refine ⟨within_zero psd cap_pos, ?_, zero_lt_one⟩
  rw [within, scaled_one]
  exact decide_eq_false breach

lemma scale_spec (psd : Risk.Psd names cov) (cap_pos : 0 < cap) (cap_lt : cap < 1) :
    (0 ≤ scale names cov mask cap v ∧ scale names cov mask cap v ≤ 1) ∧
      within names cov mask cap v (scale names cov mask cap v) = true ∧
      ∀ g ≤ 1, within names cov mask cap v g = true → g < scale names cov mask cap v + 1 / 2 ^ 50 := by
  rw [scale]
  split
  · rename_i budget
    refine ⟨⟨zero_le_one, le_rfl⟩, ?_, ?_⟩
    · rw [within, scaled_one]
      exact decide_eq_true budget
    · intro g le _
      exact lt_of_le_of_lt le (by norm_num)
  · rename_i breach
    have bracket := bracket_of_breach psd cap_pos breach
    obtain ⟨found, width, -⟩ := bisect_bracket (n := bisectionIters) bracket
    obtain ⟨low, high⟩ := bisect_mem (n := bisectionIters) bracket
    refine ⟨⟨low, found.lt.le.trans high⟩, found.lower, ?_⟩
    intro g le fits
    have below := lt_of_fits (n := bisectionIters) bracket (within_down psd cap_pos cap_lt) le fits
    rw [sub_zero] at below
    exact below

/-- Where the book breaches the cap, the scale is the greatest multiple of `2⁻⁵⁰` that is within it. -/
theorem scale_isGreatest (psd : Risk.Psd names cov) (cap_pos : 0 < cap) (cap_lt : cap < 1)
    (breach : ¬ equityRc names cov mask v ≤ cap) :
    IsGreatest {f | equityRc names cov mask (Risk.scaled mask f v) ≤ cap ∧ ∃ k : ℕ, k ≤ 2 ^ 50 ∧ f = k / 2 ^ 50}
      (scale names cov mask cap v) := by
  have greatest := isGreatest_bisect (n := bisectionIters) (bracket_of_breach psd cap_pos breach)
    (within_down psd cap_pos cap_lt)
  have grid : {f | equityRc names cov mask (Risk.scaled mask f v) ≤ cap ∧ ∃ k : ℕ, k ≤ 2 ^ 50 ∧ f = k / 2 ^ 50} =
      {f | within names cov mask cap v f = true ∧
        ∃ k : ℕ, k ≤ 2 ^ bisectionIters ∧ f = 0 + k * ((1 - 0) / 2 ^ bisectionIters)} := by
    ext f
    have same : ∀ k : ℕ, (k : ℚ) / 2 ^ 50 = 0 + k * ((1 - 0) / 2 ^ bisectionIters) := by
      intro k
      rw [bisectionIters]
      ring
    simp only [Set.mem_ofPred_eq, within, decide_eq_true_eq, same, bisectionIters]
  rw [scale, if_neg breach, grid]
  exact greatest

end Share

/-! ## The shrunk covariance -/

section Covariance

variable {names : List ν} {rows : List (ν → ℚ)} {shrink : ℚ}

omit [DecidableEq ν] in
lemma form_sampleCov {x : ν → ℚ} :
    Risk.form names (sampleCov rows) x x =
      (rows.map fun r => (names.map fun i => x i * (r i - mean rows i)).sum ^ 2).sum / (rows.length - 1) := by
  have expand : ∀ i, x i * (names.map fun j => sampleCov rows i j * x j).sum =
      (rows.map fun r => x i * (r i - mean rows i) * ((names.map fun j => x j * (r j - mean rows j)).sum /
        (rows.length - 1))).sum := by
    intro i
    simp only [sampleCov, div_eq_mul_inv, ← sum_map_mul_right, ← sum_map_mul_left]
    rw [Risk.sum_swap]
    congr 1
    apply map_congr_left
    intro r _
    congr 1
    apply map_congr_left
    intro j _
    ring
  rw [Risk.form]
  simp only [expand]
  rw [Risk.sum_swap]
  simp only [sum_map_mul_right]
  simp only [div_eq_mul_inv, ← mul_assoc, sum_map_mul_right, sq]

omit [DecidableEq ν] in
lemma sampleCov_comm {i j : ν} : sampleCov rows i j = sampleCov rows j i := by
  simp only [sampleCov, mul_comm]

lemma form_shrinkCov {x : ν → ℚ} (nodup : names.Nodup) :
    Risk.form names (shrinkCov shrink rows) x x = (1 - shrink) * Risk.form names (sampleCov rows) x x +
        shrink * (names.map fun i => x i ^ 2 * sampleCov rows i i).sum := by
  have own : ∀ i ∈ names, (names.map fun j => shrinkCov shrink rows i j * x j).sum =
      (1 - shrink) * (names.map fun j => sampleCov rows i j * x j).sum + shrink * (sampleCov rows i i * x i) := by
    intro i mem
    have diagonal : (names.map fun j => (if i = j then sampleCov rows i j else 0) * x j).sum =
        sampleCov rows i i * x i := by
      rw [sum_map_eq_nsmul_single i _ fun j ne _ => by rw [if_neg (Ne.symm ne), zero_mul],
        count_eq_one_of_mem nodup mem, one_nsmul, if_pos rfl]
    simp only [shrinkCov, add_mul, mul_assoc, sum_map_add, sum_map_mul_left]
    rw [diagonal]
  have parts : Risk.form names (shrinkCov shrink rows) x x =
      (names.map fun i => (1 - shrink) * (x i * (names.map fun j => sampleCov rows i j * x j).sum) +
        shrink * (x i ^ 2 * sampleCov rows i i)).sum := by
    rw [Risk.form]
    congr 1
    apply map_congr_left
    intro i mem
    rw [own i mem]
    ring
  rw [parts, sum_map_add, sum_map_mul_left, sum_map_mul_left, Risk.form]

/-- The shrunk sample covariance is positive semidefinite. -/
theorem psd_shrinkCov (nodup : names.Nodup) (shrink_nonneg : 0 ≤ shrink) (shrink_le : shrink ≤ 1)
    (rows_pos : 1 ≤ rows.length) : Risk.Psd names (shrinkCov shrink rows) := by
  have count : (0 : ℚ) ≤ rows.length - 1 := by
    rw [sub_nonneg]
    exact_mod_cast rows_pos
  have squares : ∀ h : (ν → ℚ) → ℚ, 0 ≤ (rows.map fun r => h r ^ 2).sum / ((rows.length : ℚ) - 1) := by
    intro h
    apply div_nonneg _ count
    apply sum_nonneg
    intro y mem
    obtain ⟨r, -, rfl⟩ := mem_map.1 mem
    exact sq_nonneg _
  constructor
  · intro i _ j _
    rw [shrinkCov, shrinkCov, sampleCov_comm]
    by_cases same : i = j
    · rw [same]
    · rw [if_neg same, if_neg (Ne.symm same)]
  · intro x
    have variances : 0 ≤ (names.map fun i => x i ^ 2 * sampleCov rows i i).sum := by
      apply sum_nonneg
      intro y mem
      obtain ⟨i, -, rfl⟩ := mem_map.1 mem
      have variance := squares fun r => r i - mean rows i
      simp only [sq] at variance
      exact mul_nonneg (sq_nonneg _) variance
    have sample := squares fun r => (names.map fun i => x i * (r i - mean rows i)).sum
    rw [← form_sampleCov] at sample
    rw [form_shrinkCov nodup]
    exact add_nonneg (mul_nonneg (by linarith) sample) (mul_nonneg shrink_nonneg variances)

end Covariance

/-! ## Rounding -/

/-- `y` is `x`, up to a millionth toward zero. -/
structure TowardZero (x y : ℚ) : Prop where
  smaller : |y| ≤ |x|
  sign : 0 ≤ x * y
  close : |x - y| < 1 / 10 ^ 6

lemma TowardZero.rfl {x : ℚ} : TowardZero x x := ⟨le_rfl, mul_self_nonneg x, by norm_num⟩

lemma towardZero_roundTo {x : ℚ} (smaller : |roundTo 6 x| ≤ |x|) : TowardZero x (roundTo 6 x) := by
  refine ⟨smaller, ?_, ?_⟩
  · have zero : roundHalfEven 0 = 0 := by
      have := roundHalfEven_intCast (n := 0)
      rwa [Int.cast_zero] at this
    rcases le_total 0 x with nonneg | nonpos
    · have mono := roundHalfEven_mono (show 0 ≤ x * 10 ^ 6 by positivity)
      rw [zero] at mono
      exact mul_nonneg nonneg (div_nonneg (by exact_mod_cast mono) (by positivity))
    · have mono := roundHalfEven_mono (show x * 10 ^ 6 ≤ 0 by linarith)
      rw [zero] at mono
      exact mul_nonneg_of_nonpos_of_nonpos nonpos
        (div_nonpos_of_nonpos_of_nonneg (by exact_mod_cast mono) (by positivity))
  · have near := abs_le.1 (abs_roundHalfEven_sub_le (q := x * 10 ^ 6))
    rw [roundTo, abs_lt]
    constructor <;> linarith

lemma get_foldl_set {names : List ν} {h : ν → ℚ} {book : Dict ν ℚ} {s : ν} :
    (names.foldl (fun book s => book.set s (h s)) book).get s = if s ∈ names then some (h s) else book.get s := by
  induction names generalizing book with
  | nil => simp
  | cons n names ih =>
    rw [foldl_cons, ih, Dict.get_set]
    by_cases later : s ∈ names
    · simp [later]
    · by_cases now : s = n
      · simp [now]
      · simp [later, now]

/-! ## A call -/

/-- A call of the governor. -/
structure Call (ν : Type) where
  upper : ν → ν
  estimate : List (ν → ℚ) → ν → ν → ℚ
  weights : Dict ν ℚ
  returns : Panel ν
  equityNames : List ν
  cap : ℚ
  lookback : ℕ

namespace Call
variable {s : ν} (c : Call ν)

def names : List ν := pricedNames c.upper c.weights c.returns

def rows : List (ν → ℚ) := commonRows c.upper c.weights c.returns c.lookback

def cov : ν → ν → ℚ := c.estimate c.rows

def mask : ν → Bool := isEquity c.upper c.equityNames

def result : Dict ν ℚ :=
  (capEquityBetaWith c.upper c.estimate c.weights c.returns c.equityNames c.cap c.lookback).1

/-- The share of the equity names in the risk of a book. -/
def share (book : ν → ℚ) : ℚ := equityRc c.names c.cov c.mask book

def scaledBook (f : ℚ) : ν → ℚ := Risk.scaled c.mask f (weightOf c.weights)

/-- The factor by which the equity names are scaled. -/
def factor : ℚ := scale c.names c.cov c.mask c.cap (weightOf c.weights)

/-- What the governor asks of a call: three priced names, three rows, a covariance and a cap between 0 and 1. -/
structure Assessed : Prop where
  names : 3 ≤ c.names.length
  rows : 3 ≤ c.rows.length
  psd : Risk.Psd c.names c.cov
  cap_pos : 0 < c.cap
  cap_lt : c.cap < 1

/-- What the governor promises. -/
structure Governed : Prop where
  /-- A name that is no equity name, or is not priced, keeps its weight. -/
  untouched : ∀ s, ¬ (s ∈ c.names ∧ c.mask s = true) → c.result.get s = c.weights.get s
  /-- An equity name is scaled by the factor, up to rounding toward zero. -/
  scaled : ∀ s ∈ c.names, c.mask s = true →
    ∃ w, c.result.get s = some w ∧ TowardZero (weightOf c.weights s * c.factor) w
  /-- No weight grows. -/
  deRisked : ∀ s, |weightOf c.result s| ≤ |weightOf c.weights s|
  unit : 0 ≤ c.factor ∧ c.factor ≤ 1
  /-- The returned book is within the cap. -/
  within : c.share (weightOf c.result) ≤ c.cap
  /-- So is the book scaled by the factor, and whatever factor is within the cap is less than `2⁻⁵⁰` above it. -/
  largest : c.share (c.scaledBook c.factor) ≤ c.cap ∧
    ∀ g ≤ 1, c.share (c.scaledBook g) ≤ c.cap → g < c.factor + 1 / 2 ^ 50
  /-- The factors that are within the cap are an interval from zero. -/
  interval : c.share (c.scaledBook 0) ≤ c.cap ∧
    ∀ g f, 0 ≤ g → g ≤ f → f ≤ 1 → c.share (c.scaledBook f) ≤ c.cap → c.share (c.scaledBook g) ≤ c.cap

/-- Rounding does no harm: the book is within the cap as it is, or, with the greatest multiple of `2⁻⁵⁰` that is within
    it as the factor, no weight of another priced name is moved, none of an equity name is rounded away from zero, and
    the rounded book is within the cap. -/
def RoundsWell : Prop :=
  c.share (weightOf c.weights) ≤ c.cap ∨
    ∀ f, IsGreatest {f | c.share (c.scaledBook f) ≤ c.cap ∧ ∃ k : ℕ, k ≤ 2 ^ 50 ∧ f = k / 2 ^ 50} f →
      (∀ s ∈ c.names, c.mask s = false → roundTo 6 (weightOf c.weights s) = weightOf c.weights s) ∧
        (∀ s ∈ c.names, c.mask s = true → |roundTo 6 (weightOf c.weights s * f)| ≤ |weightOf c.weights s * f|) ∧
        c.share (fun s => roundTo 6 (c.scaledBook f s)) ≤ c.cap

variable {c}

lemma nodup_names : c.names.Nodup := c.weights.nodup.filter _

lemma mem_names (mem : s ∈ c.names) : c.weights.get s = some (weightOf c.weights s) := by
  have isKey := Dict.mem_keys.1 (mem_of_mem_filter mem)
  obtain ⟨w, found⟩ := isSome_iff_exists.1 isKey
  rw [weightOf, found]
  rfl

lemma result_of_budget (budget : c.share (weightOf c.weights) ≤ c.cap) : c.result = c.weights := by
  have rc : equityRc (pricedNames c.upper c.weights c.returns) (c.estimate (commonRows c.upper c.weights c.returns
      c.lookback)) (isEquity c.upper c.equityNames) (weightOf c.weights) ≤ c.cap := budget
  rw [result, capEquityBetaWith]
  simp only [if_pos rc]
  split_ifs <;> rfl

lemma get_result_of_breach (assessed : c.Assessed) (breach : ¬ c.share (weightOf c.weights) ≤ c.cap) :
    c.result.get s = if s ∈ c.names then some (roundTo 6 (c.scaledBook c.factor s)) else c.weights.get s := by
  have names : ¬ (pricedNames c.upper c.weights c.returns).length < 3 := not_lt.2 assessed.names
  have rows : ¬ (commonRows c.upper c.weights c.returns c.lookback).length < 3 := not_lt.2 assessed.rows
  have rc : ¬ equityRc (pricedNames c.upper c.weights c.returns) (c.estimate (commonRows c.upper c.weights c.returns
      c.lookback)) (isEquity c.upper c.equityNames) (weightOf c.weights) ≤ c.cap := breach
  have written : c.result =
      c.names.foldl (fun book s => book.set s (roundTo 6 (c.scaledBook c.factor s))) c.weights := by
    rw [result, capEquityBetaWith]
    simp only [if_neg names, if_neg rows, if_neg rc]
    rfl
  rw [written, get_foldl_set]

lemma weightOf_result (assessed : c.Assessed) (breach : ¬ c.share (weightOf c.weights) ≤ c.cap) :
    weightOf c.result s = if s ∈ c.names then roundTo 6 (c.scaledBook c.factor s) else weightOf c.weights s := by
  rw [weightOf, get_result_of_breach assessed breach]
  split <;> rfl

lemma share_congr {book book' : ν → ℚ} (eq : ∀ s ∈ c.names, book s = book' s) : c.share book = c.share book' := by
  have sleeves : ∀ s ∈ c.names, Risk.sleeve c.mask book s = Risk.sleeve c.mask book' s := by
    intro s mem
    rw [Risk.sleeve, Risk.sleeve, eq s mem]
  rw [share, share, equityRc_eq, equityRc_eq, Risk.form_congr eq eq, Risk.form_congr sleeves eq]

lemma scaledBook_equity {f : ℚ} (equity : c.mask s = true) : c.scaledBook f s = weightOf c.weights s * f :=
  if_pos equity

lemma scaledBook_other {f : ℚ} (other : c.mask s = false) : c.scaledBook f s = weightOf c.weights s := by
  rw [scaledBook, Risk.scaled, other, if_neg Bool.false_ne_true]

lemma within_eq {f : ℚ} :
    BetaCap.within c.names c.cov c.mask c.cap (weightOf c.weights) f = true ↔ c.share (c.scaledBook f) ≤ c.cap :=
  decide_eq_true_iff

lemma factor_spec (assessed : c.Assessed) :
    (0 ≤ c.factor ∧ c.factor ≤ 1) ∧ c.share (c.scaledBook c.factor) ≤ c.cap ∧
      ∀ g ≤ 1, c.share (c.scaledBook g) ≤ c.cap → g < c.factor + 1 / 2 ^ 50 := by
  have spec : (0 ≤ c.factor ∧ c.factor ≤ 1) ∧
      BetaCap.within c.names c.cov c.mask c.cap (weightOf c.weights) c.factor = true ∧ _ :=
    scale_spec assessed.psd assessed.cap_pos assessed.cap_lt
  obtain ⟨unit, fits, largest⟩ := spec
  exact ⟨unit, within_eq.1 fits, fun g le fits => largest g le (within_eq.2 fits)⟩

lemma factors_interval (assessed : c.Assessed) :
    c.share (c.scaledBook 0) ≤ c.cap ∧
      ∀ g f, 0 ≤ g → g ≤ f → f ≤ 1 → c.share (c.scaledBook f) ≤ c.cap → c.share (c.scaledBook g) ≤ c.cap := by
  refine ⟨within_eq.1 (within_zero assessed.psd assessed.cap_pos), ?_⟩
  intro g f nonneg le le_one fits
  exact within_eq.1 (within_down assessed.psd assessed.cap_pos assessed.cap_lt g f nonneg le le_one (within_eq.2 fits))

lemma factor_isGreatest (assessed : c.Assessed) (breach : ¬ c.share (weightOf c.weights) ≤ c.cap) :
    IsGreatest {f | c.share (c.scaledBook f) ≤ c.cap ∧ ∃ k : ℕ, k ≤ 2 ^ 50 ∧ f = k / 2 ^ 50} c.factor :=
  scale_isGreatest assessed.psd assessed.cap_pos assessed.cap_lt breach

lemma share_result (assessed : c.Assessed) (breach : ¬ c.share (weightOf c.weights) ≤ c.cap) :
    c.share (weightOf c.result) = c.share fun s => roundTo 6 (c.scaledBook c.factor s) := by
  apply share_congr
  intro s mem
  rw [weightOf_result assessed breach, if_pos mem]

/-! ### When the promise is kept -/

lemma governed_of_budget (assessed : c.Assessed) (budget : c.share (weightOf c.weights) ≤ c.cap) : c.Governed := by
  obtain ⟨unit, fits, largest⟩ := factor_spec assessed
  have same := result_of_budget budget
  have one : c.factor = 1 := if_pos budget
  constructor
  case untouched =>
    intro s _
    rw [same]
  case scaled =>
    intro s mem _
    refine ⟨weightOf c.weights s, ?_, ?_⟩
    · rw [same]
      exact mem_names mem
    · rw [one, mul_one]
      exact .rfl
  case deRisked =>
    intro s
    rw [same]
  case unit => exact unit
  case within =>
    rw [same]
    exact budget
  case largest => exact ⟨fits, largest⟩
  case interval => exact factors_interval assessed

lemma roundsWell_of_governed (assessed : c.Assessed) (breach : ¬ c.share (weightOf c.weights) ≤ c.cap)
    (governed : c.Governed) : c.RoundsWell := by
  right
  intro f isGreatest
  obtain rfl : f = c.factor := isGreatest.unique (factor_isGreatest assessed breach)
  refine ⟨?_, ?_, ?_⟩
  · intro s mem other
    have kept := governed.untouched s fun both => Bool.false_ne_true (other.symm.trans both.2)
    rw [get_result_of_breach assessed breach, if_pos mem, mem_names mem, scaledBook_other other] at kept
    exact some.inj kept
  · intro s mem equity
    obtain ⟨w, found, toward⟩ := governed.scaled s mem equity
    rw [get_result_of_breach assessed breach, if_pos mem, scaledBook_equity equity] at found
    rw [some.inj found]
    exact toward.smaller
  · rw [← share_result assessed breach]
    exact governed.within

lemma governed_of_roundsWell (assessed : c.Assessed) (breach : ¬ c.share (weightOf c.weights) ≤ c.cap)
    (well : c.RoundsWell) : c.Governed := by
  obtain ⟨unit, fits, largest⟩ := factor_spec assessed
  obtain ⟨others, equities, within⟩ := (well.resolve_left breach) _ (factor_isGreatest assessed breach)
  constructor
  case untouched =>
    intro s untouched
    rw [get_result_of_breach assessed breach]
    split
    · rename_i mem
      have other : c.mask s = false := by
        rw [← Bool.not_eq_true]
        exact fun equity => untouched ⟨mem, equity⟩
      rw [scaledBook_other other, others s mem other, mem_names mem]
    · rfl
  case scaled =>
    intro s mem equity
    refine ⟨_, by rw [get_result_of_breach assessed breach, if_pos mem], ?_⟩
    rw [scaledBook_equity equity]
    exact towardZero_roundTo (equities s mem equity)
  case deRisked =>
    intro s
    rw [weightOf_result assessed breach]
    split
    · rename_i mem
      cases isEquity : c.mask s with
      | true =>
        -- the scaled weight is no larger, and it is rounded toward zero
        have smaller : |weightOf c.weights s * c.factor| ≤ |weightOf c.weights s| := by
          rw [abs_mul, abs_of_nonneg unit.1]
          exact mul_le_of_le_one_right (abs_nonneg _) unit.2
        rw [scaledBook_equity isEquity]
        exact (equities s mem isEquity).trans smaller
      | false => rw [scaledBook_other isEquity, others s mem isEquity]
    · exact le_rfl
  case unit => exact unit
  case within =>
    rw [share_result assessed breach]
    exact within
  case largest => exact ⟨fits, largest⟩
  case interval => exact factors_interval assessed

/-- The governor keeps its promise just where rounding does no harm. -/
theorem governed_iff (assessed : c.Assessed) : c.Governed ↔ c.RoundsWell := by
  by_cases budget : c.share (weightOf c.weights) ≤ c.cap
  · exact iff_of_true (governed_of_budget assessed budget) (.inl budget)
  · constructor
    · intro governed
      exact roundsWell_of_governed assessed budget governed
    · intro well
      exact governed_of_roundsWell assessed budget well

end Call

/-! ## With the shrunk covariance -/

/-- A call of `cap_equity_beta`. -/
def shrunkCall (upper : ν → ν) (weights : Dict ν ℚ) (returns : Panel ν) (equityNames : List ν) (cap : ℚ)
    (lookback : ℕ) (shrink : ℚ) : Call ν :=
  ⟨upper, shrinkCov shrink, weights, returns, equityNames, cap, lookback⟩

/-- The shrunk covariance is what the governor asks for. -/
theorem assessed_shrunkCall {upper : ν → ν} {weights : Dict ν ℚ} {returns : Panel ν} {equityNames : List ν} {cap : ℚ}
    {lookback : ℕ} {shrink : ℚ} (shrink_nonneg : 0 ≤ shrink) (shrink_le : shrink ≤ 1)
    (names : 3 ≤ (pricedNames upper weights returns).length)
    (rows : 3 ≤ (commonRows upper weights returns lookback).length) (cap_pos : 0 < cap) (cap_lt : cap < 1) :
    (shrunkCall upper weights returns equityNames cap lookback shrink).Assessed :=
  ⟨names, rows, psd_shrinkCov Call.nodup_names shrink_nonneg shrink_le (le_trans (by decide) rows), cap_pos, cap_lt⟩

def sampleWeights : Dict String ℚ :=
  ⟨[("AAPL", 1000003 / 1000000), ("TLT", 3000009 / 10000000), ("GLD", 4000012 / 10000000)], by decide⟩

def sampleReturns : Panel String where
  columns := ["AAPL", "TLT", "GLD"]
  rows := [[1, 1, 1], [1, -1, -1], [-1, 1, -1], [-1, -1, 1]].map fun row s =>
    (["AAPL", "TLT", "GLD"].zip row).lookup s

/-- `str.upper` of ASCII names. -/
def upperAscii (s : String) : String := String.ofList (s.toList.map Char.toUpper)

def sampleCall : Call String :=
  shrunkCall upperAscii sampleWeights sampleReturns ["AAPL"] (1 / 2) 120 (15 / 100)

lemma assessed_sampleCall : sampleCall.Assessed :=
  assessed_shrunkCall (by norm_num) (by norm_num) (by decide +kernel) (by decide +kernel) (by norm_num) (by norm_num)

theorem governed_iff_sample : sampleCall.Governed ↔ sampleCall.RoundsWell :=
  Call.governed_iff assessed_sampleCall

/-- The hedge `TLT` is rounded up. -/
theorem hedge_grows : ¬ sampleCall.Governed := by
  intro governed
  have breach : ¬ sampleCall.share (weightOf sampleCall.weights) ≤ sampleCall.cap := by decide +kernel
  have grown := governed.deRisked "TLT"
  rw [Call.weightOf_result assessed_sampleCall breach, if_pos (by decide +kernel),
    Call.scaledBook_other (by decide +kernel)] at grown
  revert grown
  decide +kernel

end Workbench.Research.BetaCap
