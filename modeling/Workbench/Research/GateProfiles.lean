import Mathlib
import Workbench.Research.Registry

/-!
# The profiles of the promotion gate

Model of the criterion builders, the built-in profiles and the component scores of `app/research/promotion/gate.py`,
over the `evaluate` of the registry. A metric that gets better can fail a criterion: a drawdown of exactly zero is read
as a missing one. `evaluate_monotone_iff` says when a better book is judged no worse.

Python → Lean naming: `ge`, `le` and `predicate` build a `ComponentCriterion`, a criterion with its component;
`BOOK_BACKTEST_PROFILE` → `Profile.bookBacktest`, and so on.
-/

namespace Workbench.Research
open Lib List Dict

/-! ## Criterion builders -/

/-- Python `_num`. -/
def num (m : Metrics) (key : String) : Option ℚ := m.lookup key

/-- A criterion and its `component`. -/
structure ComponentCriterion extends Criterion where
  component : String

/-- Python `ge`. -/
def ge (key : String) (thr : ℚ) (label : String) (weight : ℚ) (component : String) : ComponentCriterion where
  label := label
  passed m := (num m key).any (thr ≤ ·)
  weight := weight
  component := component

/-- Python `le`. -/
def le (key : String) (thr : ℚ) (label : String) (weight : ℚ) (component : String) : ComponentCriterion where
  label := label
  passed m := (num m key).any (· ≤ thr)
  weight := weight
  component := component

/-- Python `predicate`. -/
def predicate (label : String) (fn : Metrics → Bool) (weight : ℚ) (component : String) : ComponentCriterion where
  label := label
  passed := fn
  weight := weight
  component := component

/-- `_num(m, key) or default`: zero is falsy. -/
def numOr (m : Metrics) (key : String) (default : ℚ) : ℚ := ((num m key).filter (· ≠ 0)).getD default

/-! ## Built-in profiles -/

/-- The keys of `PROFILES`. -/
inductive Profile where
  | bookBacktest | factorIc | portfolioBacktest
deriving DecidableEq, Repr

/-- Python `_oos_pf_ok`. -/
def oosPfOk (m : Metrics) : Bool :=
  match num m "oos_pf", num m "is_pf" with
  | some oos, some isPf => max 1 (8 / 10 * isPf) ≤ oos
  | _, _ => false

/-- The criterion `max_drawdown <= 8%`. -/
def maxDrawdown : ComponentCriterion :=
  predicate "max_drawdown <= 8%" (fun m => -8 / 100 ≤ numOr m "max_drawdown" (-1)) 2 "overall"

namespace Profile

def criteria : Profile → List ComponentCriterion
  | .bookBacktest =>
    [ge "profit_factor" (13 / 10) "profit_factor >= 1.3" 1 "overall",
     ge "win_rate" (45 / 100) "win_rate >= 0.45" 1 "overall",
     ge "avg_win_loss" 1 "avg_win/avg_loss >= 1.0" 1 "overall",
     ge "expectancy_r" (15 / 100) "expectancy >= 0.15R" 1 "overall",
     maxDrawdown,
     predicate "oos_pf >= max(1.0, 0.8*is_pf)" oosPfOk 2 "overall",
     ge "data_coverage" (97 / 100) "data_coverage >= 0.97" 1 "overall",
     ge "robust_pf_ratio" (8 / 10) "robust PF >= 0.8x" 2 "overall",
     ge "robust_trade_ratio" (8 / 10) "robust trades >= 0.8x" 2 "overall"]
  | .factorIc =>
    [predicate "oos_ic > 0" (fun m => 0 < numOr m "oos_ic" 0) 2 "overall",
     ge "oos_ls_sharpe" (5 / 10) "oos LS-Sharpe >= 0.5" 2 "overall",
     ge "ic_hit" (5 / 10) "IC>0 in >= 50% of months" 1 "overall",
     ge "rolling_ic_pct_positive" (6 / 10) "rolling-12m IC positive >= 60%" 2 "overall"]
  | .portfolioBacktest =>
    [ge "sharpe" (5 / 10) "book Sharpe >= 0.5" 2 "statistical",
     ge "sortino" (7 / 10) "Sortino >= 0.7" 1 "statistical",
     ge "excess_sharpe" 0 "excess Sharpe >= 0 (vs benchmark)" 1 "statistical",
     ge "oos_is_sharpe_ratio" (8 / 10) "OOS Sharpe >= 0.8x IS Sharpe" 2 "oos_stability",
     ge "rolling_sharpe_positive_frac" (55 / 100) "rolling Sharpe positive >= 55%" 1 "oos_stability",
     ge "excess_max_dd" 0 "max DD <= benchmark maxDD (excess_max_dd >= 0)" 2 "drawdown",
     ge "calmar" (5 / 10) "Calmar >= 0.5" 1 "drawdown",
     le "turnover_annual" 4 "annual turnover <= 400%" 1 "turnover",
     le "max_weight_change" (25 / 100) "single-name weight stability <= 0.25" 1 "turnover",
     le "avg_adv_participation" (2 / 100) "ADV participation <= 2%" 1 "capacity"]

/-- Python `PROFILES`. -/
def gate : Profile → GateProfile
  | .bookBacktest =>
    ⟨"book_backtest", (criteria .bookBacktest).map (·.toCriterion), some "trade_count", 30, 50, 0⟩
  | .factorIc => ⟨"factor_ic", (criteria .factorIc).map (·.toCriterion), some "n_periods", 24, 60, 0⟩
  | .portfolioBacktest =>
    ⟨"portfolio_backtest", (criteria .portfolioBacktest).map (·.toCriterion), some "n_rebalances", 52, 156, 70⟩

end Profile

/-! ## Component scores -/

/-- Python `ComponentScore`. -/
structure ComponentScore where
  component : String
  passedWeight : ℚ
  totalWeight : ℚ
deriving DecidableEq

/-- The weights of criteria, added up by component. -/
def byComponent (criteria : List ComponentCriterion) : Dict String ℚ :=
  Dict.groupBy (·.component) (fun o c => o.getD 0 + c.weight) criteria

/-- The `component_scores` of `evaluate`. -/
def componentScores (m : Metrics) (criteria : List ComponentCriterion) : List ComponentScore :=
  (byComponent criteria).entries.map fun e =>
    ⟨e.1, ((byComponent (criteria.filter (·.passed m))).get e.1).getD 0, e.2⟩

/-- The weighted share of passed criteria, in percent, read off component scores. -/
def share (scores : List ComponentScore) : ℚ :=
  100 * (scores.map (·.passedWeight)).sum / (scores.map (·.totalWeight)).sum

/-! ## Better metrics -/

/-- In which direction a metric gets better. -/
inductive Direction where
  | higher | lower | towardZero | equal
deriving DecidableEq, Repr

def Direction.Improves : Direction → Option ℚ → Option ℚ → Prop
  | .higher, old, new => ∀ x ∈ old, ∃ y ∈ new, x ≤ y
  | .lower, old, new => ∀ x ∈ old, ∃ y ∈ new, y ≤ x
  | .towardZero, old, new => ∀ x ∈ old, ∃ y ∈ new, x ≤ y ∧ y ≤ 0 ∨ 0 ≤ y ∧ y ≤ x
  | .equal, old, new => old = new

/-- The direction of each metric that a profile reads, the evidence among them. -/
def Profile.directions : Profile → List (String × Direction)
  | .bookBacktest =>
    [("profit_factor", .higher), ("win_rate", .higher), ("avg_win_loss", .higher), ("expectancy_r", .higher),
     ("max_drawdown", .towardZero), ("oos_pf", .higher), ("is_pf", .equal), ("data_coverage", .higher),
     ("robust_pf_ratio", .higher), ("robust_trade_ratio", .higher), ("trade_count", .higher)]
  | .factorIc =>
    [("oos_ic", .higher), ("oos_ls_sharpe", .higher), ("ic_hit", .higher), ("rolling_ic_pct_positive", .higher),
     ("n_periods", .higher)]
  | .portfolioBacktest =>
    [("sharpe", .higher), ("sortino", .higher), ("excess_sharpe", .higher), ("oos_is_sharpe_ratio", .higher),
     ("rolling_sharpe_positive_frac", .higher), ("excess_max_dd", .higher), ("calmar", .higher),
     ("turnover_annual", .lower), ("max_weight_change", .lower), ("avg_adv_participation", .lower),
     ("n_rebalances", .higher)]

/-- The second metrics are at least as good as the first, metric by metric. -/
def AtLeastAsGood (p : Profile) (m m' : Metrics) : Prop :=
  ∀ e ∈ p.directions, e.2.Improves (num m e.1) (num m' e.1)

/-- The order of the verdicts that are reached with enough evidence. -/
def Verdict.rank : Verdict → ℕ
  | .noGo | .inconclusive => 0
  | .goWarning => 1
  | .go => 2

/-- The gate judges the second metrics no worse than the first, and its confidence is what the component scores say. -/
structure JudgedNoWorse (p : Profile) (m m' : Metrics) : Prop where
  verdict : lacksEvidence m p.gate = false →
    (evaluate m' p.gate).verdict ≠ .inconclusive ∧ (evaluate m p.gate).verdict.rank ≤ (evaluate m' p.gate).verdict.rank
  confidence : (evaluate m p.gate).confidenceScore ≤ (evaluate m' p.gate).confidenceScore
  range : ∀ n ∈ [m, m'], 0 ≤ (evaluate n p.gate).confidenceScore ∧ (evaluate n p.gate).confidenceScore ≤ 100
  recovered : ∀ n ∈ [m, m'], (evaluate n p.gate).confidenceScore = roundHalfEven (share (componentScores n p.criteria))

/-- The weight of the criteria that the second metrics pass and the first do not. -/
def gained (p : Profile) (m m' : Metrics) : ℚ :=
  ((p.gate.criteria.filter fun c => !c.passed m && c.passed m').map (·.weight)).sum

/-- The drawdown of a book was within the limit and becomes zero. -/
def DrawdownVanishes (p : Profile) (m m' : Metrics) : Prop :=
  p = .bookBacktest ∧ (∃ d, num m "max_drawdown" = some d ∧ -8 / 100 ≤ d ∧ d ≠ 0) ∧ num m' "max_drawdown" = some 0

/-! ## The confidence -/

section Confidence

variable {p : Profile} {m m' : Metrics}

def totalWeight (p : Profile) : ℚ := (p.gate.criteria.map (·.weight)).sum

/-- The weight of the criteria that the metrics pass. -/
def passedWeight (p : Profile) (m : Metrics) : ℚ := ((p.gate.criteria.filter (·.passed m)).map (·.weight)).sum

lemma gate_criteria : p.gate.criteria = p.criteria.map (·.toCriterion) := by
  cases p <;> rfl

lemma totalWeight_eq : totalWeight p = if p = .factorIc then 7 else 13 := by
  cases p <;> simp [totalWeight, Profile.gate, Profile.criteria, ge, le, predicate, maxDrawdown] <;> norm_num

lemma totalWeight_pos : 0 < totalWeight p := by
  rw [totalWeight_eq]
  split <;> norm_num

lemma confidence_eq : (evaluate m p.gate).confidenceScore = roundHalfEven (100 * passedWeight p m / totalWeight p) := by
  have nonzero : ¬ (p.gate.criteria.map (·.weight)).sum = 0 := totalWeight_pos.ne'
  simp only [evaluate, if_neg nonzero, passedWeight, totalWeight]
  split_ifs <;> rfl

lemma weight_nat : ∀ c ∈ p.gate.criteria, ∃ n : ℕ, c.weight = n := by
  have one : ∃ n : ℕ, (1 : ℚ) = n := ⟨1, by norm_num⟩
  have two : ∃ n : ℕ, (2 : ℚ) = n := ⟨2, by norm_num⟩
  cases p <;> simp [Profile.gate, Profile.criteria, ge, le, predicate, maxDrawdown, one, two]

lemma sum_weight_nat {criteria : List Criterion} (nat : ∀ c ∈ criteria, ∃ n : ℕ, c.weight = n) :
    ∃ n : ℕ, (criteria.map (·.weight)).sum = n := by
  induction criteria with
  | nil => exact ⟨0, by simp⟩
  | cons c criteria ih =>
    obtain ⟨n, eq⟩ := nat c mem_cons_self
    obtain ⟨k, rest⟩ := ih fun c mem => nat c (mem_cons_of_mem _ mem)
    exact ⟨n + k, by rw [map_cons, sum_cons, eq, rest, Nat.cast_add]⟩

lemma sum_filter_nat (keep : Criterion → Bool) : ∃ n : ℕ, ((p.gate.criteria.filter keep).map (·.weight)).sum = n :=
  sum_weight_nat fun c mem => weight_nat c (mem_of_mem_filter mem)

/-- The weight of the criteria that the first metrics pass and the second do not. -/
def lost (p : Profile) (m m' : Metrics) : ℚ :=
  ((p.gate.criteria.filter fun c => c.passed m && !c.passed m').map (·.weight)).sum

lemma passedWeight_add : passedWeight p m' + lost p m m' = passedWeight p m + gained p m m' := by
  rw [passedWeight, passedWeight, lost, gained]
  induction p.gate.criteria with
  | nil => rfl
  | cons c criteria ih =>
    simp only [filter_cons]
    cases c.passed m <;> cases c.passed m' <;> simp <;> linarith

lemma passedWeight_nonneg : 0 ≤ passedWeight p m := by
  obtain ⟨n, eq⟩ := sum_filter_nat (p := p) (·.passed m)
  rw [passedWeight, eq]
  exact Nat.cast_nonneg n

lemma passedWeight_le : passedWeight p m ≤ totalWeight p := by
  obtain ⟨n, eq⟩ := sum_filter_nat (p := p) (!·.passed m)
  have split : totalWeight p = passedWeight p m + ((p.gate.criteria.filter (!·.passed m)).map (·.weight)).sum := by
    rw [totalWeight, passedWeight]
    induction p.gate.criteria with
    | nil => simp
    | cons c criteria ih =>
      simp only [filter_cons]
      cases c.passed m <;> simp <;> linarith
  rw [split, eq]
  exact le_add_of_nonneg_right (Nat.cast_nonneg n)

lemma confidence_range : 0 ≤ (evaluate m p.gate).confidenceScore ∧ (evaluate m p.gate).confidenceScore ≤ 100 := by
  have pos : 0 < totalWeight p := totalWeight_pos
  have nonneg : 0 ≤ passedWeight p m := passedWeight_nonneg
  have le : passedWeight p m ≤ totalWeight p := passedWeight_le
  rw [confidence_eq]
  constructor
  · have low := roundHalfEven_mono (show ((0 : ℤ) : ℚ) ≤ 100 * passedWeight p m / totalWeight p by positivity)
    rwa [roundHalfEven_intCast] at low
  · have high := roundHalfEven_mono (show 100 * passedWeight p m / totalWeight p ≤ ((100 : ℤ) : ℚ) by
      rw [div_le_iff₀ pos]
      push_cast
      linarith)
    rwa [roundHalfEven_intCast] at high

lemma share_componentScores : share (componentScores m p.criteria) = 100 * passedWeight p m / totalWeight p := by
  have total : ((componentScores m p.criteria).map (·.totalWeight)).sum = totalWeight p := by
    rw [componentScores, map_map]
    show (byComponent p.criteria).values.sum = _
    rw [byComponent, sum_values_groupBy, totalWeight, gate_criteria, map_map]
    rfl
  have passed : ((componentScores m p.criteria).map (·.passedWeight)).sum = passedWeight p m := by
    rw [componentScores, map_map]
    generalize kept : byComponent (p.criteria.filter (·.passed m)) = scores
    -- a component with a passed criterion is a component
    have others : ∀ k v, scores.get k = some v → k ∉ ((byComponent p.criteria).entries.map Prod.fst).toFinset →
        v = 0 := by
      intro k v found out
      refine absurd ?_ out
      have key := Dict.mem_keys.2 (Option.isSome_iff_exists.2 ⟨v, found⟩)
      rw [← kept, byComponent, mem_keys_groupBy] at key
      rw [mem_toFinset, byComponent, mem_keys_groupBy]
      exact (filter_sublist.map _).subset key
    have listed := sum_entries (d := byComponent p.criteria) fun k _ => (scores.get k).getD 0
    have added := sum_entries_of_support (d := scores) (fun _ v => v) others
    calc ((byComponent p.criteria).entries.map fun e => (scores.get e.1).getD 0).sum
        = ∑ k ∈ ((byComponent p.criteria).entries.map Prod.fst).toFinset, (scores.get k).elim 0 (fun v => v) := by
          rw [listed]
          apply Finset.sum_congr rfl
          intro k mem
          obtain ⟨v, found⟩ := Option.isSome_iff_exists.1 (Dict.mem_keys.1 (mem_toFinset.1 mem))
          rw [found]
          cases scores.get k <;> rfl
      _ = scores.values.sum := added.symm
      _ = passedWeight p m := by
          rw [← kept, byComponent, sum_values_groupBy, passedWeight, gate_criteria, filter_map, map_map]
          rfl
  rw [share, total, passed]

end Confidence

/-! ## What a better metric does to a criterion -/

section Criteria

variable {p : Profile} {m m' : Metrics}

/-- A criterion that the first metrics pass is passed by the second. -/
def Keeps (m m' : Metrics) (c : Criterion) : Prop := c.passed m = true → c.passed m' = true

lemma keeps_ge {key label component : String} {thr weight : ℚ}
    (better : Direction.higher.Improves (num m key) (num m' key)) :
    Keeps m m' (ge key thr label weight component).toCriterion := by
  intro passes
  obtain ⟨x, old, le⟩ := (Option.any_eq_true _ _).1 passes
  obtain ⟨y, new, more⟩ := better x old
  exact (Option.any_eq_true _ _).2 ⟨y, new, decide_eq_true ((of_decide_eq_true le).trans more)⟩

lemma keeps_le {key label component : String} {thr weight : ℚ}
    (better : Direction.lower.Improves (num m key) (num m' key)) :
    Keeps m m' (le key thr label weight component).toCriterion := by
  intro passes
  obtain ⟨x, old, le⟩ := (Option.any_eq_true _ _).1 passes
  obtain ⟨y, new, less⟩ := better x old
  exact (Option.any_eq_true _ _).2 ⟨y, new, decide_eq_true (less.trans (of_decide_eq_true le))⟩

lemma numOr_of_some {key : String} {x default : ℚ} (some : num m key = some x) :
    numOr m key default = if x = 0 then default else x := by
  rw [numOr, some, Option.filter_some]
  by_cases zero : x = 0 <;> simp [zero]

lemma numOr_of_none {key : String} {default : ℚ} (none : num m key = none) : numOr m key default = default := by
  rw [numOr, none]
  rfl

lemma keeps_oosIc (better : Direction.higher.Improves (num m "oos_ic") (num m' "oos_ic")) :
    Keeps m m' (predicate "oos_ic > 0" (fun m => 0 < numOr m "oos_ic" 0) 2 "overall").toCriterion := by
  intro passes
  have positive : 0 < numOr m "oos_ic" 0 := of_decide_eq_true passes
  refine decide_eq_true ?_
  cases old : num m "oos_ic" with
  | none => exact absurd positive (by rw [numOr_of_none old]; exact lt_irrefl _)
  | some x =>
    obtain ⟨y, new, more⟩ := better x old
    rw [numOr_of_some old] at positive
    rw [numOr_of_some new]
    split_ifs at positive ⊢ <;> linarith

lemma oosPfOk_iff : oosPfOk m = true ↔
    ∃ oos isPf, num m "oos_pf" = some oos ∧ num m "is_pf" = some isPf ∧ max 1 (8 / 10 * isPf) ≤ oos := by
  rw [oosPfOk]
  cases num m "oos_pf" <;> cases num m "is_pf" <;> simp

lemma keeps_oosPf (better : Direction.higher.Improves (num m "oos_pf") (num m' "oos_pf"))
    (same : num m "is_pf" = num m' "is_pf") :
    Keeps m m' (predicate "oos_pf >= max(1.0, 0.8*is_pf)" oosPfOk 2 "overall").toCriterion := by
  intro passes
  obtain ⟨oos, isPf, old, inSample, enough⟩ := oosPfOk_iff.1 passes
  obtain ⟨oos', new, more⟩ := better oos old
  exact oosPfOk_iff.2 ⟨oos', isPf, new, same ▸ inSample, enough.trans more⟩

lemma maxDrawdown_passed : maxDrawdown.passed m = true ↔ ∃ d, num m "max_drawdown" = some d ∧ -8 / 100 ≤ d ∧ d ≠ 0 := by
  show decide (-8 / 100 ≤ numOr m "max_drawdown" (-1)) = true ↔ _
  rw [decide_eq_true_eq]
  cases found : num m "max_drawdown" with
  | none =>
    rw [numOr_of_none found]
    constructor
    · norm_num
    · rintro ⟨_, ⟨⟩, _⟩
  | some d =>
    rw [numOr_of_some found]
    by_cases zero : d = 0
    · simp only [if_pos zero, Option.some.injEq, exists_eq_left']
      norm_num [zero]
    · simp [zero]

lemma keeps_maxDrawdown (better : Direction.towardZero.Improves (num m "max_drawdown") (num m' "max_drawdown"))
    (nonzero : num m' "max_drawdown" ≠ some 0) : Keeps m m' maxDrawdown.toCriterion := by
  intro passes
  obtain ⟨d, old, within, -⟩ := maxDrawdown_passed.1 passes
  obtain ⟨d', new, closer⟩ := better d old
  refine maxDrawdown_passed.2 ⟨d', new, ?_, ?_⟩
  · rcases closer with ⟨up, -⟩ | ⟨nonneg, -⟩
    · exact within.trans up
    · linarith
  · rintro rfl
    exact nonzero new

lemma keeps_book (good : AtLeastAsGood .bookBacktest m m') :
    ∃ before after, Profile.criteria .bookBacktest = before ++ maxDrawdown :: after ∧
      (∀ c ∈ before, Keeps m m' c.toCriterion) ∧ ∀ c ∈ after, Keeps m m' c.toCriterion := by
  have better {key : String} {d : Direction} (mem : (key, d) ∈ Profile.directions .bookBacktest) :
      d.Improves (num m key) (num m' key) := good _ mem
  simp only [Profile.directions, mem_cons, Prod.mk.injEq] at better
  refine ⟨[_, _, _, _], [_, _, _, _], rfl, ?_, ?_⟩
  · simp only [forall_mem_cons]
    exact ⟨keeps_ge (better (by simp)), keeps_ge (better (by simp)), keeps_ge (better (by simp)),
      keeps_ge (better (by simp)), by simp⟩
  · simp only [forall_mem_cons]
    exact ⟨keeps_oosPf (better (by simp)) (better (d := .equal) (by simp)), keeps_ge (better (by simp)),
      keeps_ge (better (by simp)), keeps_ge (better (by simp)), by simp⟩

lemma keeps_other (good : AtLeastAsGood p m m') (other : p ≠ .bookBacktest) :
    ∀ c ∈ p.criteria, Keeps m m' c.toCriterion := by
  have better {key : String} {d : Direction} (mem : (key, d) ∈ p.directions) : d.Improves (num m key) (num m' key) :=
    good _ mem
  cases p with
  | bookBacktest => exact absurd rfl other
  | factorIc =>
    simp only [Profile.directions, mem_cons, Prod.mk.injEq] at better
    simp only [Profile.criteria, forall_mem_cons]
    exact ⟨keeps_oosIc (better (by simp)), keeps_ge (better (by simp)), keeps_ge (better (by simp)),
      keeps_ge (better (by simp)), by simp⟩
  | portfolioBacktest =>
    simp only [Profile.directions, mem_cons, Prod.mk.injEq] at better
    simp only [Profile.criteria, forall_mem_cons]
    exact ⟨keeps_ge (better (by simp)), keeps_ge (better (by simp)), keeps_ge (better (by simp)),
      keeps_ge (better (by simp)), keeps_ge (better (by simp)), keeps_ge (better (by simp)),
        keeps_ge (better (by simp)),
      keeps_le (better (by simp)), keeps_le (better (by simp)), keeps_le (better (by simp)), by simp⟩

lemma filter_lost_eq_nil {criteria : List ComponentCriterion} (keeps : ∀ c ∈ criteria, Keeps m m' c.toCriterion) :
    (criteria.map (·.toCriterion)).filter (fun c => c.passed m && !c.passed m') = [] := by
  rw [filter_eq_nil_iff]
  intro c mem
  obtain ⟨c, listed, rfl⟩ := mem_map.1 mem
  have kept := keeps c listed
  rw [Keeps] at kept
  cases old : c.passed m with
  | false => simp
  | true => simp [kept old]

lemma keeps_all (good : AtLeastAsGood p m m') (stays : ¬ DrawdownVanishes p m m') :
    ∀ c ∈ p.criteria, Keeps m m' c.toCriterion := by
  by_cases book : p = .bookBacktest
  · subst book
    obtain ⟨before, after, eq, keepsBefore, keepsAfter⟩ := keeps_book good
    have keepsDrawdown : Keeps m m' maxDrawdown.toCriterion := by
      intro passes
      refine keeps_maxDrawdown (good ("max_drawdown", .towardZero) (by simp [Profile.directions])) ?_ passes
      intro zero
      exact stays ⟨rfl, maxDrawdown_passed.1 passes, zero⟩
    rw [eq, forall_mem_append, forall_mem_cons]
    exact ⟨keepsBefore, keepsDrawdown, keepsAfter⟩
  · exact keeps_other good book

lemma lost_eq_zero (keeps : ∀ c ∈ p.criteria, Keeps m m' c.toCriterion) : lost p m m' = 0 := by
  rw [lost, gate_criteria, filter_lost_eq_nil keeps]
  rfl

lemma lost_eq_two (good : AtLeastAsGood p m m') (vanishes : DrawdownVanishes p m m') : lost p m m' = 2 := by
  obtain ⟨rfl, within, zero⟩ := vanishes
  obtain ⟨before, after, eq, keepsBefore, keepsAfter⟩ := keeps_book good
  have passes : maxDrawdown.passed m = true := maxDrawdown_passed.2 within
  have fails : maxDrawdown.passed m' = false := by
    rw [Bool.eq_false_iff, Ne, maxDrawdown_passed, zero]
    simp
  rw [lost, gate_criteria, eq, map_append, filter_append, filter_lost_eq_nil keepsBefore, map_cons,
    filter_cons_of_pos (by rw [passes, fails]; rfl), filter_lost_eq_nil keepsAfter]
  simp [maxDrawdown, predicate]

end Criteria

/-! ## The verdict -/

section Verdict

variable {p : Profile} {m m' : Metrics}

lemma evidence_directed : ∃ key, (key, Direction.higher) ∈ p.directions ∧ ∀ n, evidenceOf n p.gate = some
    (num n key) := by
  cases p with
  | bookBacktest => exact ⟨"trade_count", by simp [Profile.directions], fun _ => rfl⟩
  | factorIc => exact ⟨"n_periods", by simp [Profile.directions], fun _ => rfl⟩
  | portfolioBacktest => exact ⟨"n_rebalances", by simp [Profile.directions], fun _ => rfl⟩

lemma reaches_mono {key : String} {bound : ℚ} (better : Direction.higher.Improves (num m key) (num m' key))
    (reaches : (num m key).any (bound ≤ ·) = true) : (num m' key).any (bound ≤ ·) = true :=
  @keeps_ge m m' key "" "" bound 0 better reaches

lemma lacksEvidence_mono (good : AtLeastAsGood p m m') (enough : lacksEvidence m p.gate = false) :
    lacksEvidence m' p.gate = false := by
  obtain ⟨key, directed, evidence⟩ := evidence_directed (p := p)
  simp only [lacksEvidence, evidence, Option.any_some, Bool.not_eq_false'] at enough ⊢
  exact reaches_mono (good _ directed) enough

lemma verdict_eq (enough : lacksEvidence m p.gate = false) :
    (evaluate m p.gate).verdict =
      if p.gate.criteria.all (·.passed m) ∧ p.gate.minConfidence ≤ (evaluate m p.gate).confidenceScore then
        if (evidenceOf m p.gate).all (·.all (p.gate.evidenceStrong ≤ ·)) then .go else .goWarning else .noGo := by
  have failing : (p.gate.criteria.map fun c => (c.label, c.passed m)).any (!·.2) = !p.gate.criteria.all
      (·.passed m) := by
    rw [any_map, not_all_eq_any_not]
    rfl
  rw [confidence_eq]
  simp only [evaluate, enough, Bool.false_eq_true, if_false, failing]
  have nonzero : ¬ (p.gate.criteria.map (·.weight)).sum = 0 := totalWeight_pos.ne'
  simp only [if_neg nonzero]
  cases all : p.gate.criteria.all (·.passed m) with
  | false => simp
  | true =>
    simp only [Bool.not_true, Bool.false_eq_true, if_false, true_and, passedWeight, totalWeight]
    split_ifs with low <;> first | rfl | (exfalso; linarith)

lemma verdict_ne_inconclusive (enough : lacksEvidence m p.gate = false) :
    (evaluate m p.gate).verdict ≠ .inconclusive := by
  rw [verdict_eq enough]
  split_ifs <;> simp

lemma rank_le (good : AtLeastAsGood p m m') (enough : lacksEvidence m p.gate = false)
    (confidence : (evaluate m p.gate).confidenceScore ≤ (evaluate m' p.gate).confidenceScore)
    (keeps : p.gate.criteria.all (·.passed m) = true → p.gate.criteria.all (·.passed m') = true) :
    (evaluate m p.gate).verdict.rank ≤ (evaluate m' p.gate).verdict.rank := by
  rw [verdict_eq enough, verdict_eq (lacksEvidence_mono good enough)]
  by_cases passes : p.gate.criteria.all (·.passed m) = true ∧
      p.gate.minConfidence ≤ (evaluate m p.gate).confidenceScore
  · have passes' : p.gate.criteria.all (·.passed m') = true ∧
        p.gate.minConfidence ≤ (evaluate m' p.gate).confidenceScore :=
      ⟨keeps passes.1, passes.2.trans (Int.cast_le.2 confidence)⟩
    rw [if_pos passes, if_pos passes']
    obtain ⟨key, directed, evidence⟩ := evidence_directed (p := p)
    simp only [lacksEvidence, evidence, Option.any_some, Bool.not_eq_false'] at enough
    obtain ⟨x, old, -⟩ := (Option.any_eq_true _ _).1 enough
    obtain ⟨y, new, more⟩ := good _ directed x old
    simp only [evidence, old, Option.mem_def.1 new, Option.all_some, decide_eq_true_eq]
    split_ifs with strong strong'
    · exact le_rfl
    · exact absurd (strong.trans more) strong'
    · decide
    · exact le_rfl
  · rw [if_neg passes]
    exact Nat.zero_le _

end Verdict

/-! ## Monotone verdicts -/

section Monotone

variable {p : Profile} {m m' : Metrics}

lemma confidence_mono (more : passedWeight p m ≤ passedWeight p m') :
    (evaluate m p.gate).confidenceScore ≤ (evaluate m' p.gate).confidenceScore := by
  have pos : 0 < totalWeight p := totalWeight_pos
  rw [confidence_eq, confidence_eq]
  apply roundHalfEven_mono
  gcongr

lemma confidence_lt (less : passedWeight p m' < passedWeight p m) :
    (evaluate m' p.gate).confidenceScore < (evaluate m p.gate).confidenceScore := by
  have pos : 0 < totalWeight p := totalWeight_pos
  have small : totalWeight p ≤ 13 := by
    rw [totalWeight_eq]
    split <;> norm_num
  obtain ⟨n, eq⟩ := sum_filter_nat (p := p) (·.passed m)
  obtain ⟨n', eq'⟩ := sum_filter_nat (p := p) (·.passed m')
  have gap : passedWeight p m' + 1 ≤ passedWeight p m := by
    rw [passedWeight, passedWeight, eq, eq'] at less ⊢
    exact_mod_cast less
  rw [confidence_eq, confidence_eq]
  apply roundHalfEven_lt
  rw [← sub_pos, show 100 * passedWeight p m / totalWeight p - (100 * passedWeight p m' / totalWeight p + 1) =
    (100 * passedWeight p m - 100 * passedWeight p m' - totalWeight p) / totalWeight p by field_simp; ring]
  apply div_pos _ pos
  linarith

/-- Better metrics are judged no worse exactly when no drawdown within the limit becomes zero, or the criteria that are
    newly passed weigh as much as that of the drawdown. -/
theorem evaluate_monotone_iff (good : AtLeastAsGood p m m') :
    JudgedNoWorse p m m' ↔ ¬ DrawdownVanishes p m m' ∨ 2 ≤ gained p m m' := by
  have balance := @passedWeight_add p m m'
  constructor
  · intro judged
    by_contra neither
    push Not at neither
    obtain ⟨vanishes, little⟩ := neither
    rw [lost_eq_two good vanishes] at balance
    exact absurd judged.confidence (not_le.2 (confidence_lt (by linarith)))
  · intro holds
    have nonneg : 0 ≤ gained p m m' := by
      obtain ⟨n, eq⟩ := sum_filter_nat (p := p) fun c => !c.passed m && c.passed m'
      rw [gained, eq]
      exact Nat.cast_nonneg n
    have covered : lost p m m' ≤ gained p m m' := by
      by_cases vanishes : DrawdownVanishes p m m'
      · rw [lost_eq_two good vanishes]
        exact holds.resolve_left (not_not_intro vanishes)
      · rw [lost_eq_zero (keeps_all good vanishes)]
        exact nonneg
    have confidence := @confidence_mono p m m' (by linarith)
    refine ⟨?_, confidence, fun _ _ => confidence_range, ?_⟩
    · intro enough
      refine ⟨verdict_ne_inconclusive (lacksEvidence_mono good enough), rank_le good enough confidence ?_⟩
      intro all
      rw [all_eq_true] at all ⊢
      by_cases vanishes : DrawdownVanishes p m m'
      · -- a book that passes all gains nothing
        have nothing : gained p m m' = 0 := by
          have none : (p.gate.criteria.filter fun c => !c.passed m && c.passed m') = [] := by
            rw [filter_eq_nil_iff]
            intro c mem
            simp [all c mem]
          rw [gained, none]
          rfl
        rw [lost_eq_two good vanishes, nothing] at covered
        norm_num at covered
      · intro c mem
        rw [gate_criteria] at mem
        obtain ⟨c, listed, rfl⟩ := mem_map.1 mem
        refine keeps_all good vanishes c listed (all _ ?_)
        rw [gate_criteria]
        exact mem_map_of_mem listed
    · intro n _
      rw [share_componentScores, confidence_eq]

end Monotone

def soundBook : Metrics :=
  [("profit_factor", 15 / 10), ("win_rate", 5 / 10), ("avg_win_loss", 12 / 10), ("expectancy_r", 2 / 10),
   ("max_drawdown", -5 / 100), ("oos_pf", 14 / 10), ("is_pf", 15 / 10), ("data_coverage", 1),
   ("robust_pf_ratio", 9 / 10), ("robust_trade_ratio", 9 / 10), ("trade_count", 60)]

def flawlessBook : Metrics := soundBook.map fun e => if e.1 = "max_drawdown" then (e.1, 0) else e

def calmerBook : Metrics := soundBook.map fun e => if e.1 = "max_drawdown" then (e.1, -1 / 100) else e

lemma flawlessBook_good : AtLeastAsGood .bookBacktest soundBook flawlessBook := by
  simp [AtLeastAsGood, Profile.directions, Direction.Improves, num, soundBook, flawlessBook, List.lookup]
  norm_num

lemma calmerBook_good : AtLeastAsGood .bookBacktest soundBook calmerBook := by
  simp [AtLeastAsGood, Profile.directions, Direction.Improves, num, soundBook, calmerBook, List.lookup]
  norm_num

/-- A calmer book is judged no worse. -/
theorem evaluate_monotone_iff_calmer : AtLeastAsGood .bookBacktest soundBook calmerBook ∧
    JudgedNoWorse .bookBacktest soundBook calmerBook := by
  refine ⟨calmerBook_good, (evaluate_monotone_iff calmerBook_good).2 (.inl ?_)⟩
  rintro ⟨-, -, zero⟩
  exact absurd zero (by decide +kernel)

/-- A book whose drawdown vanishes falls from GO to NO-GO, and its confidence from 100 to 85. -/
theorem flawless_judged_worse : AtLeastAsGood .bookBacktest soundBook flawlessBook ∧
    (evaluate soundBook Profile.bookBacktest.gate).verdict = .go ∧
    (evaluate flawlessBook Profile.bookBacktest.gate).verdict = .noGo ∧
    ¬ JudgedNoWorse .bookBacktest soundBook flawlessBook := by
  have sound : (evaluate soundBook Profile.bookBacktest.gate).confidenceScore = 100 := by decide +kernel
  have flawless : (evaluate flawlessBook Profile.bookBacktest.gate).confidenceScore = 85 := by decide +kernel
  refine ⟨flawlessBook_good, by decide +kernel, by decide +kernel, ?_⟩
  intro judged
  have falls := judged.confidence
  rw [sound, flawless] at falls
  norm_num at falls

end Workbench.Research
