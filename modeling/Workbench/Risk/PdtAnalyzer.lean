import Workbench.Lib.Dict
import Workbench.Market.Session

/-!
# Pattern day trader detection

Model of `app/risk/pdt_analyzer.py`: `compute` reads the fills since the cutoff, `_identify_day_trades` walks them by
symbol and day, each day from a position of zero. Quantities are exact numbers; a history is the fills of an account in
the order of their times, with the side of the order and the ticker.

Python → Lean naming:
* `_business_days_ago` → `businessDaysAgo`, `_utc_to_eastern_date` → `utcToEasternDate`
* `_identify_day_trades` → `identifyDayTrades`, its inner loop → `walk`, `_fetch_equity` → `fetchEquity`

`length_identifyDayTrades_concat` says what one more fill adds to the count.
-/

namespace Workbench.Risk.Pdt
open Workbench.Lib Workbench.Market

/-- Python `PDT_EQUITY_THRESHOLD`. -/
def equityThreshold : ℚ := 25000

/-- Python `PDT_DAY_TRADE_THRESHOLD`. -/
def dayTradeThreshold : ℕ := 3

/-- Python `PDT_WINDOW_BUSINESS_DAYS`. -/
def windowBusinessDays : ℕ := 5

/-- A fill, with the side of its order and the ticker of its symbol. -/
structure Fill where
  filledAt : Instant
  side : OrderSide
  qty : ℚ
  ticker : String

def Fill.signed (f : Fill) : ℚ := if f.side = .buy then f.qty else -f.qty

/-- The fills of an account, by `filled_at`. -/
structure History where
  fills : List Fill
  ordered : fills.Pairwise (·.filledAt ≤ ·.filledAt)

/-- A detected day trade. -/
structure DayTrade where
  date : ℤ
  symbol : String
  openedAt : Instant
  closedAt : Instant

/-- Python `PdtStatus`. -/
structure PdtStatus where
  accountId : ℕ
  isAtRisk : Bool
  dayTradeCount : ℕ
  threshold : ℕ
  windowDays : ℕ
  accountEquity : Option ℚ
  equityThreshold : ℚ
  detectedDayTrades : List DayTrade

def dayLength : ℤ := dayMinutes * minute

/-- `d.weekday()`; the first day of the epoch was a Thursday. -/
def weekday (t : ℤ) : ℤ := (t / dayLength + 3) % 7

/-- The loop of `_business_days_ago`, with the days that are left to count. -/
def walkBack : ℕ → ℕ → ℤ → ℤ
  | _, 0, d => d
  | 0, _ + 1, d => d
  | steps + 1, n + 1, d =>
    if weekday (d - dayLength) < 5 then walkBack steps n (d - dayLength) else walkBack steps (n + 1) (d - dayLength)

/-- Python `_business_days_ago`; three steps a business day are enough. -/
def businessDaysAgo (n : ℕ) (now : Instant) : ℤ := walkBack (3 * n) n now

/-- Python `_utc_to_eastern_date`: the date five hours behind UTC. -/
def utcToEasternDate (t : Instant) : ℤ := ((t : ℤ) - 5 * 60 * minute) / dayLength

/-- The loop over the fills of a day: the position, when it was opened, and the trades. -/
structure Walk where
  position : ℚ
  openedAt : Option Instant
  trades : List DayTrade

def Walk.event (date : ℤ) (ticker : String) (w : Walk) (f : Fill) : Walk :=
  let position := w.position + f.signed
  if w.position = 0 ∧ position ≠ 0 then ⟨position, some f.filledAt, w.trades⟩
  else
    match w.openedAt with
    | some opened =>
      if w.position ≠ 0 ∧ position = 0 then ⟨position, none, w.trades ++ [⟨date, ticker, opened, f.filledAt⟩]⟩
      else ⟨position, some opened, w.trades⟩
    | none => ⟨position, none, w.trades⟩

def walk (date : ℤ) (ticker : String) (events : List Fill) : Walk :=
  events.foldl (Walk.event date ticker) ⟨0, none, []⟩

def Fill.key (f : Fill) : ℤ × String := (utcToEasternDate f.filledAt, f.ticker)

def perDayPerSymbol (rows : List Fill) : Dict (ℤ × String) (List Fill) :=
  Dict.groupBy Fill.key (fun events f => events.getD [] ++ [f]) rows

/-- Python `_identify_day_trades`. -/
def identifyDayTrades (rows : List Fill) : List DayTrade :=
  (perDayPerSymbol rows).entries.flatMap fun e => (walk e.1.1 e.1.2 e.2).trades

/-- A broker adapter: its `get_account` raises, or has an equity or none. -/
abbrev Adapter := Except Unit (Option ℚ)

/-- Python `_fetch_equity`. -/
def fetchEquity (registry : Option (ℕ → Option Adapter)) (accountId : ℕ) : Option ℚ :=
  match registry with
  | none => none
  | some get =>
    match get accountId with
    | none => none
    | some (.error _) => none
    | some (.ok equity) => equity

/-- Python `compute`; the history of an account that is not found is absent. -/
def compute (accounts : ℕ → Option History) (registry : Option (ℕ → Option Adapter)) (asOf : Instant)
    (accountId : ℕ) : Except String PdtStatus :=
  match accounts accountId with
  | none => .error s!"Account {accountId} not found"
  | some history =>
    let cutoff := businessDaysAgo windowBusinessDays asOf
    let rows := history.fills.filter fun f => decide (cutoff ≤ f.filledAt)
    let dayTrades := identifyDayTrades rows
    let equity := fetchEquity registry accountId
    .ok
      { accountId
        isAtRisk := decide (dayTradeThreshold ≤ dayTrades.length) && equity.all (· < equityThreshold)
        dayTradeCount := dayTrades.length
        threshold := dayTradeThreshold
        windowDays := windowBusinessDays
        accountEquity := equity
        equityThreshold := equityThreshold
        detectedDayTrades := dayTrades }

/-! ## One more fill -/

variable {rows events : List Fill} {f : Fill} {date : ℤ} {ticker : String}

def total (events : List Fill) : ℚ := (events.map Fill.signed).sum

lemma total_concat : total (events ++ [f]) = total events + f.signed := by
  rw [total, List.map_append, List.sum_append, List.map_singleton, List.sum_singleton, total]

lemma walk_concat : walk date ticker (events ++ [f]) = (walk date ticker events).event date ticker f := by
  rw [walk, List.foldl_append, ← walk]
  rfl

lemma walk_position (date : ℤ) (ticker : String) (events : List Fill) :
    (walk date ticker events).position = total events ∧
      ((walk date ticker events).openedAt.isSome = true ↔ total events ≠ 0) := by
  induction events using List.reverseRecOn with
  | nil => exact ⟨rfl, by simp [walk, total]⟩
  | append_singleton events f ih =>
    obtain ⟨position, isOpen⟩ := ih
    rw [walk_concat, total_concat, Walk.event, position]
    by_cases opens : total events = 0 ∧ total events + f.signed ≠ 0
    · simp only [if_pos opens]
      exact ⟨trivial, by simpa using opens.2⟩
    · simp only [if_neg opens]
      cases at_ : (walk date ticker events).openedAt with
      | none =>
        rw [at_] at isOpen
        have flat : total events = 0 := by simpa using isOpen
        exact ⟨rfl, by simpa using fun still => opens ⟨flat, still⟩⟩
      | some opened =>
        rw [at_] at isOpen
        have notFlat : total events ≠ 0 := by simpa using isOpen
        by_cases closes : total events ≠ 0 ∧ total events + f.signed = 0
        · simp only [if_pos closes]
          exact ⟨trivial, by simpa using closes.2⟩
        · simp only [if_neg closes]
          exact ⟨trivial, by simpa using fun flat => closes ⟨notFlat, flat⟩⟩

lemma length_walk_concat : (walk date ticker (events ++ [f])).trades.length =
    (walk date ticker events).trades.length + if total events ≠ 0 ∧ total (events ++ [f]) = 0 then 1 else 0 := by
  obtain ⟨position, isOpen⟩ := walk_position date ticker events
  rw [walk_concat, total_concat, Walk.event, position]
  by_cases opens : total events = 0 ∧ total events + f.signed ≠ 0
  · have still : ¬ (total events ≠ 0 ∧ total events + f.signed = 0) := fun closes => closes.1 opens.1
    simp only [if_pos opens, if_neg still, add_zero]
  · simp only [if_neg opens]
    cases at_ : (walk date ticker events).openedAt with
    | none =>
      rw [at_] at isOpen
      have flat : total events = 0 := by simpa using isOpen
      have still : ¬ (total events ≠ 0 ∧ total events + f.signed = 0) := fun closes => closes.1 flat
      simp only [if_neg still, add_zero]
    | some opened =>
      by_cases closes : total events ≠ 0 ∧ total events + f.signed = 0
      · simp only [if_pos closes, List.length_append, List.length_singleton]
      · simp only [if_neg closes, add_zero]

lemma length_walk_eq (date' : ℤ) (ticker' : String) :
    (walk date ticker events).trades.length = (walk date' ticker' events).trades.length := by
  induction events using List.reverseRecOn with
  | nil => rfl
  | append_singleton events f ih => rw [length_walk_concat, length_walk_concat, ih]

/-- The fills before `f` of its day and symbol. -/
def sameDay (rows : List Fill) (f : Fill) : List Fill := rows.filter (·.key = f.key)

lemma get_perDayPerSymbol : ((perDayPerSymbol rows).get f.key).getD [] = sameDay rows f := by
  rw [perDayPerSymbol, Dict.get_groupBy, ← sameDay]
  induction sameDay rows f using List.reverseRecOn with
  | nil => rfl
  | append_singleton events g ih =>
    rw [List.foldl_append, List.foldl_cons, List.foldl_nil, ih]
    rfl

lemma length_identifyDayTrades : (identifyDayTrades rows).length =
    ((perDayPerSymbol rows).values.map fun events => (walk 0 "" events).trades.length).sum := by
  rw [identifyDayTrades, List.length_flatMap, Dict.values, List.map_map]
  congr 1
  apply List.map_congr_left
  intro e _
  exact length_walk_eq 0 ""

lemma length_identifyDayTrades_concat : (identifyDayTrades (rows ++ [f])).length = (identifyDayTrades rows).length +
    if total (sameDay rows f) ≠ 0 ∧ total (sameDay rows f ++ [f]) = 0 then 1 else 0 := by
  have next : perDayPerSymbol (rows ++ [f]) = (perDayPerSymbol rows).set f.key (sameDay rows f ++ [f]) := by
    rw [← get_perDayPerSymbol, perDayPerSymbol, Dict.groupBy, List.foldl_append]
    rfl
  rw [length_identifyDayTrades, length_identifyDayTrades, next,
    Dict.sum_values (fun events => (walk 0 "" events).trades.length) Dict.get_set_self, Dict.erase_set,
      length_walk_concat]
  have before : ((perDayPerSymbol rows).get f.key).getD [] = sameDay rows f := get_perDayPerSymbol
  cases found : (perDayPerSymbol rows).get f.key with
  | none =>
    rw [found] at before
    rw [Dict.erase_of_get_none found, ← before]
    exact Nat.add_comm _ _
  | some events =>
    rw [found, Option.getD_some] at before
    rw [Dict.sum_values (fun events => (walk 0 "" events).trades.length) found, before]
    omega

end Workbench.Risk.Pdt
