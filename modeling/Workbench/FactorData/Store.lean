import Mathlib
import Workbench.Universe.Ownership

/-!
# The factor store

Model of the tables of `app/factor_data/store.py` that its point-in-time reads query, and of these reads. A table is a
list of rows in the order in which the engine meets them, with its primary key; a read that leaves the order of rows
open keeps that order.

Python → Lean naming: `permaticker_asof` → `permatickerAsof`, of the table. Dates are ordinals and timestamps are
microseconds; a table of SF1 that is absent is an empty one. Columns that no read returns are left out.
-/

set_option linter.dupNamespace false

namespace Workbench.FactorData
open Universe

/-- The arithmetic of `DOUBLE` columns. -/
structure Doubles (φ : Type) where
  /-- `close * volume` -/
  times : φ → Int → φ
  /-- `SUM` -/
  sum : List φ → φ

/-- Sums do not depend on the order of their terms: nothing is rounded. -/
def Doubles.Exact {φ : Type} (D : Doubles φ) : Prop := ∀ xs ys, List.Perm xs ys → D.sum xs = D.sum ys

/-! ## Tables -/

/-- A row of `sep`. -/
structure SepRow (φ : Type) where
  ticker : String
  date : Int
  close : Option φ
  volume : Option Int
deriving DecidableEq

/-- The figures that `get_sf1_asof` selects. -/
inductive Sf1Figure where
  | marketcap | ev | pe | pb | ps | evebit | evebitda | fcf | bvps | divyield
  | roe | roa | roic | ros | grossmargin | netmargin | ebitdamargin | currentratio | de
  | payoutratio | assetturnover | revenue | netinc | gp | ebit | ebitda | ncfo
  | assets | equity | debt | eps | shareswa
deriving DecidableEq

/-- A row of `sf1_fundamentals`. -/
structure Sf1Row (φ : Type) where
  ticker : String
  dimension : String
  calendardate : Int
  datekey : Int
  figure : Sf1Figure → Option φ

/-- The figures of `fundamentals`. -/
inductive Figure where
  | revenue | grossProfit | operatingIncome | ebitda | netIncome | freeCashFlow | totalDebt | totalEquity | totalAssets
  | sharesDiluted | enterpriseValue
deriving DecidableEq

/-- A row of `fundamentals`. -/
structure Fundamental (φ : Type) where
  ticker : String
  period : String
  fiscalYear : Option String
  periodEnd : Int
  filingDate : Option Int
  acceptedDate : Option Int
  figure : Figure → Option φ
  lastupdated : Option Int

/-- The tables of a store, each with its primary key. -/
structure Store (φ : Type) where
  sep : List (SepRow φ)
  tickers : List TickerRow
  sf1 : List (Sf1Row φ)
  fundamentals : List (Fundamental φ)
  sep_key : (sep.map fun r => (r.ticker, r.date)).Nodup
  tickers_key : (tickers.map (·.ticker)).Nodup
  sf1_key : (sf1.map fun r => (r.ticker, r.dimension, r.calendardate, r.datekey)).Nodup
  fundamentals_key : (fundamentals.map fun r => (r.ticker, r.period, r.periodEnd)).Nodup

variable {φ : Type}

/-! ## Reads -/

def midnight (d : Int) : Int := d * 86400000000

/-- `COALESCE(accepted_date, filing_date)` -/
def Fundamental.known (r : Fundamental φ) : Option Int := r.acceptedDate.or (r.filingDate.map midnight)

/-- Python `get_fundamentals`; rows of equal `period_end` are as stored. -/
def getFundamentals (store : Store φ) (ticker : String) (asOf : Option Int) (period : Option String) :
    List (Fundamental φ) :=
  (store.fundamentals.filter fun r =>
      r.ticker = ticker ∧ (∀ d ∈ asOf, r.known.any (· ≤ midnight d) = true) ∧ ∀ p ∈ period, r.period = p).insertionSort
    fun a b => b.periodEnd ≤ a.periodEnd

/-- The rows of `sf1_fundamentals` that a read considers. -/
def sf1Known (store : Store φ) (tickers : List String) (asOf : Int) (dimension : String) : List (Sf1Row φ) :=
  store.sf1.filter fun r => r.dimension = dimension ∧ r.datekey ≤ asOf ∧ r.ticker ∈ tickers

/-- The row numbered first in the partition of a ticker, by `datekey DESC`: as stored, among equal ones. -/
def firstRow (rows : List (Sf1Row φ)) (ticker : String) : Option (Sf1Row φ) :=
  ((rows.filter (·.ticker = ticker)).insertionSort fun a b => b.datekey ≤ a.datekey).head?

/-- Python `get_sf1_asof`: the frame's rows by ticker. -/
def getSf1Asof (store : Store φ) (tickers : List String) (asOf : Int) (dimension : String) :
    List (String × (Sf1Figure → Option φ)) :=
  if tickers = [] then []
  else
    let rows := sf1Known store tickers asOf dimension
    (rows.map (·.ticker)).dedup.filterMap fun t => (firstRow rows t).map fun r => (t, r.figure)

section Universe
variable [LinearOrder φ] [Zero φ] (D : Doubles φ)

def window (store : Store φ) (asOf lookbackDays : Int) : List (SepRow φ) :=
  store.sep.filter fun r => asOf - lookbackDays ≤ r.date ∧ r.date ≤ asOf

/-- `SUM(close * volume)` of a ticker; null where every product is. -/
def dollarVolume (rows : List (SepRow φ)) (ticker : String) : Option φ :=
  let products := (rows.filter (·.ticker = ticker)).filterMap fun r =>
    r.close.bind fun close => r.volume.map fun volume => D.times close volume
  if products = [] then none else some (D.sum products)

def Alive (row : TickerRow) (asOf : Int) : Prop :=
  (∃ first ∈ row.firstpricedate, first ≤ asOf) ∧ ∃ last ∈ row.lastpricedate, asOf ≤ last

instance (row : TickerRow) (asOf : Int) : Decidable (Alive row asOf) := inferInstanceAs (Decidable (_ ∧ _))

def Listed (table : List TickerRow) (ticker : String) (asOf : Int) : Prop :=
  ∃ row ∈ table, row.ticker = ticker ∧ Alive row asOf

instance (table : List TickerRow) (ticker : String) (asOf : Int) : Decidable (Listed table ticker asOf) :=
  inferInstanceAs (Decidable (∃ row ∈ table, _))

/-- The rows that are ranked: the volume, the greatest first, and the ticker. -/
def members (store : Store φ) (asOf lookbackDays : Int) : List (φᵒᵈ ×ₗ String) :=
  let rows := window store asOf lookbackDays
  (rows.map (·.ticker)).dedup.filterMap fun t =>
    (dollarVolume D rows t).bind fun v =>
      if Listed store.tickers t asOf ∧ 0 < v then some (toLex (OrderDual.toDual v, t)) else none

def ranking (store : Store φ) (asOf lookbackDays : Int) : List String :=
  ((members D store asOf lookbackDays).insertionSort (· ≤ ·)).map fun m => (ofLex m).2

/-- Python `dollar_volume_universe`. -/
def dollarVolumeUniverse (store : Store φ) (asOf : Int) (n : Nat) (lookbackDays : Int) : List String :=
  (ranking D store asOf lookbackDays).take n

end Universe

end Workbench.FactorData
