import Workbench.Templates.WeeklyBook
import Workbench.Lib.Outcome
import Workbench.Research.BetaCap

/-!
# The combined book

Model of `strategies_user/templates/combined_book.py` and `combined_book_v13.py`, and of `cross_asset_tsmom`
(`app/research/factor_lab`): the two sleeves, their blend, the call of the equity-beta governor and the rebalance. The
two versions differ in the size of the equity sleeve, in where a name is capped and in what change is too small to
trade. The closes of a panel are the ones the template prices with. -/

set_option linter.dupNamespace false

namespace Workbench.Templates.Weekly
open Workbench.Lib Workbench.Research List

abbrev Weights := Dict String ℚ

/-! ## The close panel -/

/-- A panel of closes over the common days of its columns. -/
structure Panel where
  days : List Nat
  cols : Dict String (List ℚ)

/-- The series of the symbols that have bars, under upper-cased tickers. -/
def series (ctx : Ctx) (n : Nat) : List String → Dict String (List Bar) → Except String (Dict String (List Bar))
  | [], d => .ok d
  | sym :: rest, d => do
    match ← ctx.getRecentBars sym "1Day" n with
    | none => series ctx n rest d
    | some bars => series ctx n rest (if bars = [] then d else d.set (upper sym) bars)

/-- The days on which every series has a bar, in order. -/
def commonDays (columns : List (List Bar)) : List Nat :=
  (((columns.headD []).map (·.t)).filter fun t => columns.all fun bars => bars.any (·.t = t)).dedup.mergeSort (· ≤ ·)

def closeAt (bars : List Bar) (t : Nat) : ℚ := ((bars.find? (·.t = t)).map (·.c)).getD 0

/-- Python `_close_panel`. -/
def closePanel (ctx : Ctx) (symbols : List String) (n : Nat) : Except String (Option Panel) := do
  let columns ← series ctx n symbols Dict.empty
  if columns.entries = [] then return none
  else
    let days := commonDays columns.values
    return some ⟨days, columns.mapMaybe fun _ bars => some (days.map (closeAt bars))⟩

/-! ## The cross-asset sleeve -/

/-- The parameters of the cross-asset sleeve. -/
structure CrossAssetParams where
  crossAssetSymbols : List String := ["SPY", "EFA", "EEM", "TLT", "IEF", "GLD", "DBC", "UUP", "KMLM"]
  caLookbackDays : Nat := 252
  caSkipDays : Nat := 21
  caVolLookbackDays : Nat := 60
  caVolTarget : ℚ := 10 / 100
  caCorrAware : Bool := true
  caCorrLambda : ℚ := 1 / 2
  caCorrLookback : Nat := 60
  caCorrFloor : ℚ := 0
  caCorrCap : ℚ := 2
  caCorrProxy : String := "SPY"

/-- Python `_cross_asset_symbols`. -/
def CrossAssetParams.symbols (c : CrossAssetParams) : List String :=
  (if c.crossAssetSymbols = [] then ({} : CrossAssetParams).crossAssetSymbols else c.crossAssetSymbols).map upper

/-- The closes of the last returns of a column. -/
def lastReturns (k pos : Nat) (col : List ℚ) : List ℚ := (col.drop (pos - k)).take (k + 1)

/-- The momentum of a column, where its base is not zero. -/
def columnMomentum (c : CrossAssetParams) (pos : Nat) (col : List ℚ) : Option ℚ :=
  let base := col.getD (pos - c.caSkipDays - c.caLookbackDays) 0
  if base = 0 then none else some (col.getD (pos - c.caSkipDays) 0 / base - 1)

/-- The volatility by which an asset in an uptrend is weighted; `none` is an asset that is not. -/
def trendVol (N : Numerics) (c : CrossAssetParams) (pos : Nat) (col : List ℚ) : Option ℚ := do
  let momentum ← columnMomentum c pos col
  let vol ← N.returnStd (lastReturns c.caVolLookbackDays pos col)
  if 0 < momentum ∧ 1 / 1000000000 < vol then some vol else none

def tilt (N : Numerics) (c : CrossAssetParams) (pos : Nat) (proxy col : List ℚ) : ℚ :=
  let corr := N.safeCorr (lastReturns c.caCorrLookback pos col) (lastReturns c.caCorrLookback pos proxy)
  min c.caCorrCap (max c.caCorrFloor (1 - c.caCorrLambda * corr))

/-- Python `cross_asset_tsmom`; `none` is `"insufficient_data"`. -/
def crossAssetTsmom (N : Numerics) (c : CrossAssetParams) (panel : Panel) : Option Weights :=
  let pos := panel.days.length - 1
  if panel.days = [] ∨ pos < c.caSkipDays + c.caLookbackDays ∨ pos < c.caVolLookbackDays then none
  else
    let inv (col : List ℚ) : Option ℚ := (trendVol N c pos col).map (1 / ·)
    let total := (panel.cols.values.map fun col => (inv col).getD 0).sum
    let parity (col : List ℚ) : ℚ := (inv col).getD 0 / total
    let tilted (col : List ℚ) : ℚ := match panel.cols.get c.caCorrProxy with
      | none => parity col
      | some proxy => parity col * tilt N c pos proxy col
    let tiltedSum := (panel.cols.values.map tilted).sum
    let rp (col : List ℚ) : ℚ :=
      if c.caCorrAware ∧ panel.cols.contains c.caCorrProxy ∧ c.caCorrLookback ≤ pos ∧ 0 < tiltedSum
      then tilted col / tiltedSum else parity col
    let inTrend := panel.cols.values.filter fun col => (inv col).isSome
    let portVolAnnual :=
      N.bookVol (inTrend.map fun col => (lastReturns c.caVolLookbackDays pos col, rp col)) * N.sqrt 252
    let volScale := if 0 < portVolAnnual then min 1 (c.caVolTarget / portVolAnnual) else 1
    some (panel.cols.mapMaybe fun _ col => some (if (inv col).isSome then volScale * rp col else 0))

/-- `{k.upper(): float(v) for k, v in weights.items() if v > 0}` -/
def positive (w : Weights) : Weights :=
  w.entries.foldl (fun d e => if 0 < e.2 then d.set (upper e.1) e.2 else d) Dict.empty

/-- Python `_cross_asset_sleeve_weights`, before a cap: without the history it is all cash. -/
def crossAssetSleeveWeights (N : Numerics) (ctx : Ctx) (c : CrossAssetParams) : Except String Weights := do
  let need := c.caLookbackDays + c.caSkipDays + max c.caVolLookbackDays 5 + 5
  match ← closePanel ctx c.symbols need with
  | none => return Dict.empty
  | some panel =>
    if panel.days.length < c.caLookbackDays + c.caSkipDays + 1 then return Dict.empty
    else match crossAssetTsmom N c panel with
      | none => return Dict.empty
      | some w => return positive w

/-! ## The equity-beta governor -/

/-- The parameters of the governor. -/
structure BetaParams where
  enforceBetaCap : Bool
  betaCapReportOnly : Bool := true
  betaCapMaxRc : ℚ := 80 / 100
  betaCapLookback : Nat := 120
  betaCapShrink : ℚ := 15 / 100

/-- `NON_EQUITY_ETFS` -/
def nonEquityEtfs : List String := ["TLT", "IEF", "GLD", "DBC", "UUP", "KMLM"]

/-- `panel.pct_change().dropna(how="any")`; no return is read from a close of zero. -/
def Panel.returns (panel : Panel) : BetaCap.Panel String where
  columns := panel.cols.entries.map Prod.fst
  rows :=
    let change (i : Nat) (s : String) : Option ℚ := (panel.cols.get s).bind fun col =>
      if col.getD i 0 = 0 then none else some (col.getD (i + 1) 0 / col.getD i 0 - 1)
    ((List.range (panel.days.length - 1)).map change).filter fun row => panel.cols.entries.all fun e => (row e.1).isSome

/-- Python `_maybe_beta_cap`: it fails open, and without enforcement it changes nothing. -/
def maybeBetaCap (ctx : Ctx) (b : BetaParams) (target : Weights) : Weights :=
  let names := (target.entries.filter (0 < ·.2)).map (·.1)
  if b.enforceBetaCap = false ∨ names.length < 3 then target
  else match closePanel ctx names (b.betaCapLookback + 10) with
    | .error _ => target
    | .ok none => target
    | .ok (some panel) =>
      if panel.returns.rows.length < 3 then target
      else (BetaCap.capEquityBetaWith upper (BetaCap.shrinkCov b.betaCapShrink) target panel.returns
        (names.filter (upper · ∉ nonEquityEtfs)) b.betaCapMaxRc b.betaCapLookback).1

/-! ## The book -/

/-- The parameters that the two versions share. -/
structure CombinedParams extends BookParams, CrossAssetParams, BetaParams where
  equitySleeveWeight : ℚ := 40 / 100
  crossAssetWeight : ℚ := 60 / 100
  momentumLookbackDays : Nat := 252
  momentumSkipDays : Nat := 21
  equityTopQuantile : ℚ := 40 / 100
  maxPositionPct : ℚ := 4 / 100

def CombinedParams.window (p : CombinedParams) : Window := ⟨p.momentumLookbackDays, p.momentumSkipDays⟩

/-- The gate: risk-off, for the equity sleeve, is a reading below the average. -/
def CombinedParams.riskOff (p : CombinedParams) (ctx : Ctx) : Except String Bool := do
  if p.useMarketRegimeFilter then return (← marketBelowMa ctx p.toBookParams) = some true else return false

/-- The names of the equity sleeve: registered, no cross-asset ETF and not the market proxy. -/
def CombinedParams.equityNames (p : CombinedParams) (ctx : Ctx) : List String :=
  (ctx.symbols.map upper).filter fun s => s ∉ p.toCrossAssetParams.symbols ∧ s ≠ upper p.marketFilterSymbol

/-- The rank-and-cut of the equity sleeve: `k` names of equal weight, for the numbers that a version computes. -/
def equityWeights (S : SortValues) (p : CombinedParams) (ctx : Ctx) (k : (eligible : Nat) → Nat)
    (weight : (names : Nat) → ℚ) (scores : List ScoreRow) : Weights :=
  let rows := scores.filter (·.ticker ∈ p.equityNames ctx)
  let names := ((S.sort rows).take (k rows.length)).map (·.ticker)
  names.foldl (fun d t => d.set (upper t) (weight names.length)) Dict.empty

/-- Python `_equity_sleeve_weights`. -/
def equitySleeveWeights (p : CombinedParams) (ctx : Ctx) (weights : List ScoreRow → Weights) :
    Except String Weights := do
  if ← p.riskOff ctx then return Dict.empty
  else match ctx.scores p.window with
    | .error (.holdOn _) => return Dict.empty
    | .error (.other e) => .error e
    | .ok scores => return weights scores

/-- Add the weights of a sleeve, by its share, to a target. -/
def addSleeve (share : ℚ) (w target : Weights) : Weights :=
  w.entries.foldl (fun d e => d.set (upper e.1) ((d.get (upper e.1)).getD 0 + share * e.2)) target

/-- What distinguishes a version of the combined book. -/
structure Edition where
  equityWeights : SortValues → Ctx → List ScoreRow → Weights
  /-- The cap on a cross-asset weight. -/
  capSleeve : ℚ → ℚ := id
  /-- What is computed from the investable equity before the loop. -/
  equity : ℚ → Except String ℚ := .ok
  notional : (equity weight : ℚ) → ℚ
  style : (equity : ℚ) → Style

def combinedTarget (N : Numerics) (ctx : Ctx) (p : CombinedParams) (v : Edition) : Except String Weights := do
  let eqW ← equitySleeveWeights p ctx (v.equityWeights N.sort ctx)
  let caW ← crossAssetSleeveWeights N ctx p.toCrossAssetParams
  let capped := caW.mapMaybe fun _ w => some (v.capSleeve w)
  let target := addSleeve p.crossAssetWeight capped (addSleeve p.equitySleeveWeight eqW Dict.empty)
  return maybeBetaCap ctx p.toBetaParams target

/-- `{k: v for k, v in target.items() if v > 0}` -/
def wanted (target : Weights) : List Sized := target.entries.filter (0 < ·.2)

def combinedRebalance (N : Numerics) (ctx : Ctx) (p : CombinedParams) (v : Edition) : Tick Unit := do
  let target ← Attempt.ofExcept (combinedTarget N ctx p v)
  let sorted := (wanted target).mergeSort fun e e' => e.1 ≤ e'.1
  applyTargets ctx p.toBookParams (holdings ctx ctx.symbols) ((wanted target).map (·.1))
    (v.equity (investableBase ctx p.toBookParams))
    (fun equity => sorted.map fun e => (e.1, v.notional equity e.2)) v.style

namespace CombinedBook

/-- `default_params` of the combined book. -/
structure Params extends CombinedParams where
  enforceBetaCap := false
  minTradePct : ℚ := 3 / 100

/-- The combined book: the top quantile, capped when it is traded. -/
def edition (p : Params) : Edition where
  equityWeights S ctx := equityWeights S p.toCombinedParams ctx
    (fun n => max 1 ⌈n * p.equityTopQuantile⌉.toNat) (fun n => 1 / n)
  notional equity weight := min (equity * weight) (equity * p.maxPositionPct)
  style _ := { small := fun cur price delta notional => 0 < cur ∧ |delta| * price < notional * p.minTradePct }

/-- Python `CombinedBook._rebalance`. -/
def rebalance (N : Numerics) (ctx : Ctx) (p : Params) : Tick Unit :=
  combinedRebalance N ctx p.toCombinedParams (edition p)

end CombinedBook

namespace CombinedBookV13

/-- `default_params` of the combined book v1.3. -/
structure Params extends CombinedParams where
  enforceBetaCap := true
  equityFixedN : Nat := 40
  caBookCap : ℚ := 20 / 100
  tradeFloorUsd : ℚ := 50
  tradeRelPct : ℚ := 3 / 100
  tradeCeilingEquityPct : ℚ := 10 / 10000

def Params.count (p : Params) (eligible : Nat) : Nat :=
  if p.equityFixedN = 0 then max 1 ⌈eligible * p.equityTopQuantile⌉.toNat else min p.equityFixedN eligible

/-- The cap on a cross-asset weight, so that it is a cap on the book. -/
def Params.capSleeve (p : Params) (w : ℚ) : ℚ :=
  if p.caBookCap = 0 then w
  else min w (p.caBookCap / if p.crossAssetWeight = 0 then 1 else p.crossAssetWeight)

/-- The combined book v1.3: a fixed number of names, capped inside the sleeves, and a bounded hybrid threshold. -/
def edition (p : Params) : Edition where
  equityWeights S ctx := equityWeights S p.toCombinedParams ctx p.count (fun n => min (1 / n) p.maxPositionPct)
  capSleeve := p.capSleeve
  -- the threshold divides by the invested share
  equity base := if p.cashBufferPct = 1 then .error "division by zero" else .ok base
  notional equity weight := equity * weight
  style equity := {
    small := fun _ price delta notional => |delta| * price <
      max p.tradeFloorUsd
        (min (p.tradeRelPct * notional) (p.tradeCeilingEquityPct * (equity / (1 - p.cashBufferPct)))) }

/-- Python `CombinedBook._rebalance` of v1.3. -/
def rebalance (N : Numerics) (ctx : Ctx) (p : Params) : Tick Unit :=
  combinedRebalance N ctx p.toCombinedParams (edition p)

end CombinedBookV13

/-! ## The tickers of a target -/

def Within (names : List String) {ν : Type} (d : Dict String ν) : Prop := ∀ k v, d.get k = some v → k ∈ names

section
variable {names : List String} {ν μ : Type} {d : Dict String ν}

lemma Within.empty : Within names (Dict.empty : Dict String ν) := by
  intro k v found
  cases found

lemma Within.set {k : String} {v : ν} (mem : k ∈ names) (within : Within names d) : Within names (d.set k v) := by
  intro k' v' found
  rw [Dict.get_set] at found
  split at found
  · rename_i same
    exact same ▸ mem
  · exact within k' v' found

lemma Within.mapMaybe {f : String → ν → Option μ} (within : Within names d) : Within names (d.mapMaybe f) := by
  intro k v found
  rw [Dict.get_mapMaybe] at found
  obtain ⟨v', found', -⟩ := Option.bind_eq_some_iff.1 found
  exact within k v' found'

lemma Within.foldl {f : Dict String ν → μ → Dict String ν} {l : List μ}
    (step : ∀ d, ∀ e ∈ l, Within names d → Within names (f d e)) (within : Within names d) :
    Within names (l.foldl f d) := by
  induction l generalizing d with
  | nil => exact within
  | cons e l ih =>
    exact ih (fun d' e' mem => step d' e' (mem_cons_of_mem e mem)) (step d e mem_cons_self within)

lemma Within.entry {e : String × ν} (within : Within names d) (mem : e ∈ d.entries) : e.1 ∈ names :=
  within e.1 e.2 (Dict.get_of_mem_entries mem)

end

section
variable {N : Numerics} {ctx : Ctx} {n : Nat} {names : List String}

lemma series_within {l : List String} {d d' : Dict String (List Bar)} (canonical : ∀ s ∈ l, upper s ∈ names)
    (within : Within names d) (read : series ctx n l d = .ok d') : Within names d' := by
  induction l generalizing d with
  | nil =>
    cases read
    exact within
  | cons sym l ih =>
    have rest : ∀ s ∈ l, upper s ∈ names := fun s mem => canonical s (mem_cons_of_mem sym mem)
    rw [series, bind_eq_ok] at read
    obtain ⟨answer, -, read⟩ := read
    cases answer with
    | none => exact ih rest within read
    | some bars =>
      refine ih rest ?_ read
      split
      · exact within
      · exact within.set (canonical sym mem_cons_self)

lemma series_error {l : List String} {d : Dict String (List Bar)} :
    (∃ e, series ctx n l d = .error e) ↔ ∃ sym ∈ l, ∃ e, ctx.getRecentBars sym "1Day" n = .error e := by
  induction l generalizing d with
  | nil => simp [series]
  | cons sym l ih =>
    rw [exists_mem_cons_iff, series]
    cases ctx.getRecentBars sym "1Day" n with
    | error e => exact ⟨fun _ => .inl ⟨e, rfl⟩, fun _ => ⟨e, rfl⟩⟩
    | ok answer =>
      simp only [reduceCtorEq, exists_false, false_or]
      cases answer with
      | none => exact ih
      | some bars => exact ih

end

section
variable {N : Numerics} {ctx : Ctx} {names : List String}
variable {w : Weights}

lemma closePanel_within {l : List String} {n : Nat} {panel : Panel} (canonical : ∀ s ∈ l, upper s ∈ names)
    (read : closePanel ctx l n = .ok (some panel)) : Within names panel.cols := by
  rw [closePanel, bind_eq_ok] at read
  obtain ⟨columns, read, built⟩ := read
  have within : Within names columns := series_within canonical Within.empty read
  split at built
  · cases built
  · cases built
    exact within.mapMaybe

lemma closePanel_error {l : List String} {n : Nat} :
    (∃ e, closePanel ctx l n = .error e) ↔ ∃ sym ∈ l, ∃ e, ctx.getRecentBars sym "1Day" n = .error e := by
  rw [← series_error (d := Dict.empty), closePanel]
  cases series ctx n l Dict.empty with
  | error e => exact ⟨fun _ => ⟨e, rfl⟩, fun _ => ⟨e, rfl⟩⟩
  | ok columns =>
    constructor
    · intro ⟨e, raised⟩
      by_cases none : columns.entries = []
      · exact absurd raised (by simp [none, Bind.bind, Except.bind, pure, Except.pure])
      · exact absurd raised (by simp [none, Bind.bind, Except.bind, pure, Except.pure])
    · intro ⟨e, raised⟩
      cases raised

lemma crossAssetTsmom_within {c : CrossAssetParams} {panel : Panel} (within : Within names panel.cols)
    (computed : crossAssetTsmom N c panel = some w) : Within names w := by
  rw [crossAssetTsmom] at computed
  split at computed
  · cases computed
  · cases computed
    exact within.mapMaybe

lemma positive_within (canonical : ∀ s ∈ names, upper s ∈ names) (within : Within names w) :
    Within names (positive w) := by
  refine Within.foldl (fun d e mem within_d => ?_) Within.empty
  split
  · exact within_d.set (canonical e.1 (within.entry mem))
  · exact within_d

lemma crossAssetSleeveWeights_within {c : CrossAssetParams}
    (read : crossAssetSleeveWeights N ctx c = .ok w) : Within c.symbols w := by
  have canonical : ∀ s ∈ c.symbols, upper s ∈ c.symbols := by
    intro s mem
    obtain ⟨raw, mem_raw, rfl⟩ := mem_map.1 mem
    rw [upper_upper]
    exact mem
  rw [crossAssetSleeveWeights, bind_eq_ok] at read
  obtain ⟨answer, read, built⟩ := read
  cases answer with
  | none =>
    cases built
    exact Within.empty
  | some panel =>
    have within := closePanel_within canonical read
    simp only at built
    split at built
    · cases built
      exact Within.empty
    · split at built
      · cases built
        exact Within.empty
      · rename_i computed
        cases built
        exact positive_within canonical (crossAssetTsmom_within within computed)

lemma crossAssetSleeveWeights_error {c : CrossAssetParams} :
    (∃ e, crossAssetSleeveWeights N ctx c = .error e) ↔ ∃ sym ∈ c.symbols, ∃ e,
      ctx.getRecentBars sym "1Day" (c.caLookbackDays + c.caSkipDays + max c.caVolLookbackDays 5 + 5) = .error e := by
  rw [← closePanel_error, crossAssetSleeveWeights]
  cases closePanel ctx c.symbols (c.caLookbackDays + c.caSkipDays + max c.caVolLookbackDays 5 + 5) with
  | error e => exact ⟨fun _ => ⟨e, rfl⟩, fun _ => ⟨e, rfl⟩⟩
  | ok answer =>
    constructor
    · intro ⟨e, raised⟩
      cases answer with
      | none => cases raised
      | some panel =>
        simp only [Bind.bind, Except.bind] at raised
        split at raised
        · cases raised
        · split at raised
          · cases raised
          · cases raised
    · intro ⟨e, raised⟩
      cases raised

lemma addSleeve_within {share : ℚ} {target : Weights} (canonical : ∀ s ∈ names, upper s ∈ names)
    (within : Within names w) (base : Within names target) : Within names (addSleeve share w target) := by
  refine Within.foldl (fun d e mem within_d => ?_) base
  exact within_d.set (canonical e.1 (within.entry mem))

lemma maybeBetaCap_within {b : BetaParams} {target : Weights} (within : Within names target) :
    Within names (maybeBetaCap ctx b target) := by
  rw [maybeBetaCap]
  split
  · exact within
  · split
    · exact within
    · exact within
    · split
      · exact within
      · rw [BetaCap.capEquityBetaWith]
        dsimp only
        repeat' split
        all_goals try exact within
        refine Within.foldl (fun d s priced within_d => within_d.set ?_) within
        obtain ⟨e, mem, rfl⟩ := mem_map.1 (mem_filter.1 priced).1
        exact within.entry mem

end

end Workbench.Templates.Weekly
