import Workbench.Lib.Attempt
import Workbench.Rebalance.System

/-!
# Weekly books

What the four weekly templates of `strategies_user/templates` share: the context they read (`Ctx`), the holdings they
read from it, the regime filter, and the step that trades toward a target book. A rebalance is an `Attempt`: what it
has submitted when it raises stays submitted, and `on_bar` contains the exception.

Floats and Decimals are rationals; what pandas, numpy and `math` compute from a series of closes is `Numerics`.
-/

set_option linter.dupNamespace false

namespace Workbench.Templates.Weekly
open Workbench.Lib List
variable {qty : ℚ} {ctx : Ctx} {held : Dict String ℚ} {name : String} {target : List String}

/-! ## The context -/

/-- A bar, at a day. -/
structure Bar where
  t : Nat
  c : ℚ

/-- A row of `momentum_scores`. -/
structure ScoreRow where
  ticker : String
  momentum : ℚ
  zscore : ℚ
  score : ℚ

/-- What the factor accessor raises: an error of `_HOLD_ON`, or another one. -/
inductive ScoreError where
  | holdOn (error : String)
  | other (error : String)

/-- The fields of a position that the templates read. -/
structure PositionRow where
  qty : ℚ
  side : String := "long"

/-- The window of the momentum scores. -/
structure Window where
  lookbackDays : Nat
  skipDays : Nat

/-- Python `StrategyContext`, as the templates read it during one rebalance. -/
structure Ctx where
  symbols : List String
  momentumScores : (asOf : Option Nat) → (n : Option Nat) → Window → Except ScoreError (List ScoreRow)
  sectors : List String → Except String (String → Option String)
  getRecentBars : String → (timeframe : String) → (n : Nat) → Except String (Option (List Bar))
  getPositionFor : String → Option PositionRow
  getAccountEquity : Except String (Option ℚ)
  pendingBuyQty : String → ℚ := fun _ => 0

/-- A MARKET order that a template submits. -/
structure MarketOrder where
  symbol : String
  side : OrderSide
  qty : ℚ
deriving DecidableEq

abbrev Tick := Attempt MarketOrder String

/-- What `sort_values("score", ascending=False)` makes of a table: rows of one score come in any order. -/
structure SortValues where
  sort : List ScoreRow → List ScoreRow
  perm : ∀ rows, (sort rows).Perm rows
  descending : ∀ rows, (sort rows).Pairwise fun r r' => r'.score ≤ r.score

def SortValues.stable : SortValues where
  sort rows := rows.mergeSort fun r r' => r'.score ≤ r.score
  perm rows := List.mergeSort_perm rows _
  descending rows := by
    have sorted : (rows.mergeSort fun r r' => r'.score ≤ r.score).Pairwise
        fun r r' => decide (r'.score ≤ r.score) = true := List.pairwise_mergeSort
      (fun a b c ab bc => by simp only [decide_eq_true_eq] at ab bc ⊢; exact bc.trans ab)
      (fun a b => by simpa using le_total b.score a.score) rows
    exact sorted.imp of_decide_eq_true

/-- What the numeric libraries compute from closes, and how they sort. -/
structure Numerics where
  sqrt : ℚ → ℚ
  /-- The latest EWMA variance of the daily returns; `none` is NaN. -/
  ewmVar : (span : Nat) → List ℚ → Option ℚ
  /-- The standard deviation of the daily returns; `none` where it is not finite. -/
  returnStd : List ℚ → Option ℚ
  /-- The correlation of the daily returns, 0 where it is undefined. -/
  safeCorr : List ℚ → List ℚ → ℚ
  /-- The standard deviation of the daily return of a weighted book. -/
  bookVol : List (List ℚ × ℚ) → ℚ
  sort : SortValues

/-- The parameters that all four templates read. -/
structure BookParams where
  useMarketRegimeFilter : Bool := true
  marketFilterSymbol : String := "SPY"
  marketMaDays : Nat := 200
  fractionalShares : Bool := true
  cashBufferPct : ℚ := 2 / 100
  initialEquityEstimate : ℚ := 100000
  pricingTimeframe : String := "1Day"

/-! ## Reads -/

/-- `len(self.ctx.symbols) or None` -/
def Ctx.universeSize (ctx : Ctx) : Option Nat := if ctx.symbols = [] then none else some ctx.symbols.length

def Ctx.scores (ctx : Ctx) (w : Window) : Except ScoreError (List ScoreRow) :=
  ctx.momentumScores none ctx.universeSize w

/-- Python `_price`. -/
def Ctx.price (ctx : Ctx) (p : BookParams) (symbol : String) : Except String (Option ℚ) := do
  let bars ← ctx.getRecentBars symbol p.pricingTimeframe 1
  return bars.bind fun b => b.getLast?.map (·.c)

def longQty : Option PositionRow → Option ℚ
  | none => none
  | some pos => if 0 < pos.qty ∧ pos.side = "long" then some pos.qty else none

def hold (ctx : Ctx) (held : Dict String ℚ) (sym : String) : Dict String ℚ :=
  match longQty (ctx.getPositionFor sym) with
  | some qty => held.set (upper sym) qty
  | none => held

/-- Python `_current_holdings`, over some of the registered symbols. -/
def holdings (ctx : Ctx) (symbols : List String) : Dict String ℚ := symbols.foldl (hold ctx) Dict.empty

def mean (xs : List ℚ) : ℚ := xs.sum / xs.length

/-- Whether the latest close is below the mean of the earlier ones. -/
def belowMean (closes : List ℚ) : Bool := closes.getLastD 0 < mean closes.dropLast

/-- Python `_market_below_ma`: `none` is a reading that is unavailable. -/
def marketBelowMa (ctx : Ctx) (p : BookParams) : Except String (Option Bool) := do
  match ← ctx.getRecentBars p.marketFilterSymbol "1Day" (p.marketMaDays + 1) with
  | none => return none
  | some bars =>
    if bars = [] ∨ bars.length < p.marketMaDays + 1 then return none
    else return some (belowMean (bars.map (·.c)))

/-- The account equity, or the estimate where there is no snapshot. -/
def accountEquity (ctx : Ctx) (p : BookParams) : ℚ :=
  match ctx.getAccountEquity with
  | .ok (some live) => live
  | .ok none => p.initialEquityEstimate
  | .error _ => p.initialEquityEstimate

def investableBase (ctx : Ctx) (p : BookParams) : ℚ := accountEquity ctx p * (1 - p.cashBufferPct)

/-! ## Trading toward a target -/

/-- Python `_submit`. -/
def submit (symbol : String) (side : OrderSide) (qty : ℚ) : Tick Unit :=
  if qty ≤ 0 then pure () else Attempt.emit ⟨symbol, side, qty⟩

/-- Exits: what is held and not in the target is sold to flat. -/
def exits (held : Dict String ℚ) (target : List String) : Tick Unit :=
  Attempt.each (fun h => if h.1 ∈ target then pure () else submit h.1 .sell h.2) held.entries

def targetQty (p : BookParams) (notional price : ℚ) : ℚ :=
  if p.fractionalShares then Rebalance.quantizeQty (notional / price) else ⌊notional / price⌋

abbrev Sized := String × ℚ

/-- How a template trades a target that it can price. -/
structure Style where
  /-- Whether a change is too small to trade: the quantity held, the price, the change and the notional. -/
  small : (cur price delta notional : ℚ) → Bool
  /-- What is on its way already. -/
  inFlight : String → ℚ := fun _ => 0

/-- The loop over the targets: trims are submitted, entries collected. -/
def trims (ctx : Ctx) (p : BookParams) (style : Style) (held : Dict String ℚ) : List Sized → Tick (List Sized)
  | [] => pure []
  | (sym, notional) :: rest => do
    match ← Attempt.ofExcept (ctx.price p sym) with
    | none => trims ctx p style held rest
    | some price =>
      let cur := (held.get sym).getD 0
      let delta := targetQty p notional price - cur
      if price ≤ 0 ∨ delta = 0 ∨ style.small cur price delta notional then trims ctx p style held rest
      else if delta < 0 then do
        submit sym .sell (-delta)
        trims ctx p style held rest
      else do
        let buys ← trims ctx p style held rest
        let qty := delta - style.inFlight sym
        return if qty ≤ 0 then buys else (sym, qty) :: buys

/-- Python `_apply_targets`: exits, then trims, then entries. The notionals are computed from an equity that is read
after the exits. -/
def applyTargets (ctx : Ctx) (p : BookParams) (held : Dict String ℚ) (target : List String)
    (equity : Except String ℚ) (size : ℚ → List Sized) (style : ℚ → Style) : Tick Unit := do
  exits held target
  if target = [] then pure ()
  else do
    let e ← Attempt.ofExcept equity
    let buys ← trims ctx p (style e) held (size e)
    Attempt.each (fun b : Sized => submit b.1 .buy b.2) buys

/-! ## Holdings -/

/-- A registered name with a long position, under its upper-cased ticker. -/
def Ctx.Holds (ctx : Ctx) (symbols : List String) (name : String) : Prop :=
  ∃ sym ∈ symbols, upper sym = name ∧ (longQty (ctx.getPositionFor sym)).isSome = true

lemma longQty_pos {row : Option PositionRow} (long : longQty row = some qty) : 0 < qty := by
  cases row with
  | none => cases long
  | some pos =>
    rw [longQty] at long
    split at long
    · rename_i held
      cases long
      exact held.1
    · cases long

lemma get_hold {sym : String} : (hold ctx held sym).get name =
      if name = upper sym ∧ (longQty (ctx.getPositionFor sym)).isSome = true
      then longQty (ctx.getPositionFor sym) else held.get name := by
  rw [hold]
  cases longQty (ctx.getPositionFor sym) with
  | none => simp
  | some qty => simp [Dict.get_set]

lemma isSome_holdings {symbols : List String} :
    ((holdings ctx symbols).get name).isSome = true ↔ ctx.Holds symbols name := by
  have from_any (l : List String) (held : Dict String ℚ) :
      ((l.foldl (hold ctx) held).get name).isSome = true ↔ ctx.Holds l name ∨ (held.get name).isSome = true := by
    induction l generalizing held with
    | nil => simp [Ctx.Holds]
    | cons sym l ih =>
      rw [foldl_cons, ih, get_hold]
      simp only [Ctx.Holds, mem_cons, exists_eq_or_imp]
      split
      · rename_i first
        simp [first.1, first.2]
      · rename_i other
        have other' : ¬ (upper sym = name ∧ (longQty (ctx.getPositionFor sym)).isSome = true) :=
          fun first => other ⟨first.1.symm, first.2⟩
        simp only [other', false_or]
  rw [holdings, from_any]
  simp

lemma holdings_pos {symbols : List String} (found : (holdings ctx symbols).get name = some qty) : 0 < qty := by
  have from_any (l : List String) (held : Dict String ℚ) (pos : ∀ {q}, held.get name = some q → 0 < q)
      (found : (l.foldl (hold ctx) held).get name = some qty) : 0 < qty := by
    induction l generalizing held with
    | nil => exact pos found
    | cons sym l ih =>
      refine ih _ ?_ found
      intro q found'
      rw [get_hold] at found'
      split at found'
      · exact longQty_pos found'
      · exact pos found'
  exact from_any symbols Dict.empty (by simp) found

/-! ## What is submitted -/

lemma value_submit {symbol : String} {side : OrderSide} : (submit symbol side qty).value = .ok () := by
  rw [submit]
  split
  · rfl
  · rfl

lemma mem_submit {symbol : String} {side : OrderSide} (pos : 0 < qty) :
    (submit symbol side qty).emitted = [⟨symbol, side, qty⟩] := by
  rw [submit, if_neg (not_le.2 pos)]
  rfl

lemma exits_eq : exits held target = ⟨held.entries.flatMap fun h =>
      (if h.1 ∈ target then pure () else submit h.1 .sell h.2 : Tick Unit).emitted, .ok ()⟩ := by
  apply Attempt.each_of_ok
  intro h mem_h
  split
  · rfl
  · exact value_submit

lemma exits_sell (found : held.get name = some qty) (pos : 0 < qty) (out : name ∉ target) :
    ⟨name, .sell, qty⟩ ∈ (exits held target).emitted := by
  rw [exits_eq]
  refine mem_flatMap.2 ⟨(name, qty), Dict.mem_entries_of_get found, ?_⟩
  rw [if_neg out, mem_submit pos]
  exact mem_singleton_self _

lemma applyTargets_sell {p : BookParams} {equity : Except String ℚ} {size : ℚ → List Sized} {style : ℚ → Style}
    (found : held.get name = some qty) (pos : 0 < qty) (out : name ∉ target) :
    ⟨name, .sell, qty⟩ ∈ (applyTargets ctx p held target equity size style).emitted := by
  rw [applyTargets, Attempt.mem_emitted_bind]
  exact .inl (exits_sell found pos out)

lemma sells_of_holds {p : BookParams} {symbols : List String} {equity : Except String ℚ}
    {size : ℚ → List Sized} {style : ℚ → Style} (holds : ctx.Holds symbols name) (out : name ∉ target) :
    ∃ qty, ⟨name, .sell, qty⟩ ∈ (applyTargets ctx p (holdings ctx symbols) target equity size style).emitted := by
  obtain ⟨qty, found⟩ := Option.isSome_iff_exists.1 (isSome_holdings.2 holds)
  exact ⟨qty, applyTargets_sell found (holdings_pos found) out⟩

end Workbench.Templates.Weekly
