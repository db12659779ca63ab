import Workbench.Research.Registry

/-!
# The book simulators of the factor backtest

Model of `_simulate` and `simulate_cash_book` of `app/factor_data/backtest.py`, over exact rationals. Both walk over the
rebalance dates: each has a segment of trading days after it, at its start the selected weights are charged for and
turned into sleeves, and every day of the segment marks each sleeve by the ratio of its price to the price it was
marked at before. They differ where a selection is empty, and in the cash that the second keeps.

Python → Lean naming: the loop over `seg` → `markSegment`; `px_maps` → `pxMap`; `sleeves` and `prev_px` are the two
fields of a `Sleeve`. A date is its ordinal. A price store holds at most one `closeadj` of a ticker and a date, which
is the primary key of its table.
-/

namespace Workbench.FactorData
open Workbench.Lib

variable {ν : Type}

/-! ## Prices -/

/-- The `closeadj` of a ticker on a date. -/
abbrev PriceStore (ν : Type) := ν → ℤ → Option ℚ

/-- Python `FactorDataStore.get_prices`: the closes of a ticker between two dates. -/
def PriceStore.getPrices (store : PriceStore ν) (ticker : ν) (start stop : ℤ) : ℤ → Option ℚ :=
  fun t => if start ≤ t ∧ t ≤ stop then store ticker t else none

/-- `px_maps[ticker]`, the positive closes from the rebalance date to the end of the segment. -/
def pxMap (store : PriceStore ν) (d segEnd : ℤ) (ticker : ν) : ℤ → Option ℚ :=
  fun t => (store.getPrices ticker d segEnd t).filter (0 < ·)

/-! ## A segment -/

/-- The trading days after a rebalance date, up to the next one. -/
def segment (tradingDays : List ℤ) (d : ℤ) (next : Option ℤ) : List ℤ :=
  tradingDays.filter fun t => d < t ∧ ∀ n ∈ next, t ≤ n

/-- A name's sleeve and the price it was marked at last. -/
structure Sleeve where
  value : ℚ
  prevPx : ℚ

def markDay (px : ℤ → Option ℚ) (s : Sleeve) (t : ℤ) : Sleeve :=
  match px t with
  | some p => if 0 < s.prevPx then ⟨s.value * (p / s.prevPx), p⟩ else s
  | none => s

/-- The sleeves, the equity and the curve while a segment is marked. -/
structure Marked (ν : Type) where
  sleeves : Dict ν Sleeve
  equity : ℚ
  curve : List (ℤ × ℚ)

/-- `sum(sleeves.values())` -/
def total (sleeves : Dict ν Sleeve) : ℚ := (sleeves.values.map Sleeve.value).sum

/-- Mark the days of a segment, beside a sleeve of cash. -/
def markSegment (px : ν → ℤ → Option ℚ) (cash : ℚ) : List ℤ → Marked ν → Marked ν
  | [], m => m
  | t :: seg, m =>
    let sleeves := m.sleeves.mapValues fun tk s => markDay (px tk) s t
    let equity := total sleeves + cash
    markSegment px cash seg ⟨sleeves, equity, m.curve ++ [(t, equity)]⟩

def startSleeves (px : ν → ℤ → Option ℚ) (d : ℤ) (weights : Dict ν ℚ) (equity : ℚ) : Dict ν Sleeve :=
  weights.mapValues fun tk w => ⟨w * equity, (px tk d).getD 0⟩

/-- The weights that the sleeves have drifted to. -/
def drifted (m : Marked ν) : Dict ν ℚ :=
  m.sleeves.mapValues fun _ s => if 0 < m.equity then s.value / m.equity else 0

/-- Half of the change from one book to another. -/
def turnover [DecidableEq ν] (weights prev : Dict ν ℚ) : ℚ :=
  1 / 2 * ∑ k ∈ (weights.entries.map Prod.fst).toFinset ∪ (prev.entries.map Prod.fst).toFinset,
    |(weights.get k).getD 0 - (prev.get k).getD 0|

def charge [DecidableEq ν] (bps equity : ℚ) (weights prev : Dict ν ℚ) : ℚ :=
  equity * (1 - bps / 10 ^ 4 * turnover weights prev)

/-! ## The two books -/

section Books
variable [LinearOrder ν] (store : PriceStore ν) (tradingDays : List ℤ) (select : ℤ → Dict ν ℚ) (bps : ℚ)

/-- Python `RebalanceHoldings`. -/
structure Holdings (ν : Type) where
  date : ℤ
  tickers : List ν
  realized : ℚ
  weights : Dict ν ℚ

/-- The state of `_simulate` between rebalances. -/
structure SimState (ν : Type) where
  equity : ℚ
  curve : List (ℤ × ℚ)
  holdings : List (Holdings ν)
  prevWeights : Dict ν ℚ

/-- The loop of `_simulate`. -/
def simulateLoop : List ℤ → SimState ν → SimState ν
  | [], st => st
  | d :: rest, st =>
    let seg := segment tradingDays d rest.head?
    if seg = [] then simulateLoop rest st
    else
      let weights := select d
      if weights.entries = [] then simulateLoop rest st
      else
        let equity := charge bps st.equity weights st.prevWeights
        let px := pxMap store d (seg.getLastD d)
        let m := markSegment px 0 seg ⟨startSleeves px d weights equity, equity, st.curve⟩
        let realized := if 0 < equity then m.equity / equity - 1 else 0
        let tickers := (weights.entries.map Prod.fst).insertionSort (· ≤ ·)
        simulateLoop rest
          ⟨m.equity, m.curve, st.holdings ++ [⟨d, tickers, realized, weights⟩], drifted m⟩

/-- Python `_simulate`. -/
def simulate (initialEquity : ℚ) (rebalances : List ℤ) : List (ℤ × ℚ) × List (Holdings ν) :=
  let st := simulateLoop store tradingDays select bps rebalances ⟨initialEquity, [], [], Dict.empty⟩
  (st.curve, st.holdings)

/-- The state of `simulate_cash_book` between rebalances. -/
structure CashState (ν : Type) where
  equity : ℚ
  curve : List (ℤ × ℚ)
  grossSeries : List (ℤ × ℚ)
  prevW : Dict ν ℚ

/-- The loop of `simulate_cash_book`. -/
def cashLoop : List ℤ → CashState ν → CashState ν
  | [], st => st
  | d :: rest, st =>
    let seg := segment tradingDays d rest.head?
    if seg = [] then cashLoop rest st
    else
      let weights := select d
      let gross := weights.values.sum
      let equity := charge bps st.equity weights st.prevW
      let px := pxMap store d (seg.getLastD d)
      let m := markSegment px ((1 - gross) * equity) seg ⟨startSleeves px d weights equity, equity, st.curve⟩
      cashLoop rest
        ⟨m.equity, m.curve, st.grossSeries ++ [(d, (Research.roundHalfEven (gross * 10 ^ 4) : ℚ) / 10 ^ 4)],
          drifted m⟩

/-- Python `simulate_cash_book`. -/
def simulateCashBook (initialEquity : ℚ) (rebalances : List ℤ) : List (ℤ × ℚ) × List (ℤ × ℚ) :=
  let st := cashLoop store tradingDays select bps rebalances ⟨initialEquity, [], [], Dict.empty⟩
  (st.curve, st.grossSeries)

end Books

end Workbench.FactorData
