import Mathlib.Algebra.Order.Field.Rat
import Mathlib.Data.List.Sort
import Workbench.Db.Enums
import Workbench.Lib.Dict

/-!
# Distributions of the corporate actions feed

Model of `app/market_data/alpaca_distributions.py`: `_parse_and_validate` drops the malformed items of a fetch and
stores the others by symbol and ex-date, dividends and splits apart; of the records of one ex-date the one that was
processed last is kept, of several processed on one day the last of the list. A day is an integer and a rate an exact
number; a date or a rate that cannot be read is absent.

Python → Lean naming:
* `_in_window` → `inWindow`, the two validation loops → `scan` of `dividend` and of `split`
* `_keep` → `keep`, `_series` → `series`, `_parse_and_validate` → `parseAndValidate`

`standing` is the rule of the de-duplication on its own: the records that no other one of the same ex-date replaces.
-/

namespace Workbench.Market
open Workbench.Lib List Dict

/-- An item of the fetch, its dates as `_to_ts` reads them. -/
structure Item where
  symbol : Option String
  exDate : Option ℤ
  processDate : Option ℤ
  rate : Option ℚ
  newRate : Option ℚ
  oldRate : Option ℚ

/-- The mapping of categories that the fetch returns. -/
structure Data where
  cashDividends : List Item
  forwardSplits : List Item
  reverseSplits : List Item

/-- A validated item: the cash of a dividend or the share multiplier of a split. -/
structure Record where
  symbol : String
  ex : ℤ
  value : ℚ
  processDate : Option ℤ

/-- The day a record counts as processed: its ex-date if the feed names none. -/
def Record.processed (r : Record) : ℤ := r.processDate.getD r.ex

abbrev Series := Dict ℤ ℚ

/-- By symbol and ex-date, a value and the day it was processed. -/
abbrev Bucket := Dict String (Dict ℤ (ℚ × ℤ))

/-- Python `_in_window`. -/
def inWindow (start stop : Option ℤ) (ex : ℤ) : Bool :=
  !start.any (ex < ·) && !stop.any (· < ex)

/-- The checks of a validation loop; the loops differ in the value they read. -/
def check (allowed : List String) (start stop : Option ℤ) (value : Item → Option ℚ) (item : Item) : Option Record :=
  let sym := upper (item.symbol.getD "")
  match item.exDate, value item with
  | some ex, some v => if sym ∈ allowed ∧ inWindow start stop ex then some ⟨sym, ex, v, item.processDate⟩ else none
  | _, _ => none

/-- The cash of a dividend: its rate, unless negative. -/
def cashRate (item : Item) : Option ℚ := item.rate.filter (0 ≤ ·)

/-- The multiplier of a split: `new_rate / old_rate`, both positive. -/
def multiplier (item : Item) : Option ℚ :=
  match item.newRate, item.oldRate with
  | some new, some old => if 0 < new ∧ 0 < old then some (new / old) else none
  | _, _ => none

def dividend (allowed : List String) (start stop : Option ℤ) : Item → Option Record :=
  check allowed start stop cashRate

/-- The checks of a forward or a reverse split. -/
def split (allowed : List String) (start stop : Option ℤ) : Item → Option Record :=
  check allowed start stop multiplier

/-- Python `_keep`. -/
def keep (bucket : Bucket) (r : Record) : Bucket :=
  let byEx := (bucket.get r.symbol).getD Dict.empty
  match byEx.get r.ex with
  | none => bucket.set r.symbol (byEx.set r.ex (r.value, r.processed))
  | some prior =>
    if prior.2 ≤ r.processed then bucket.set r.symbol (byEx.set r.ex (r.value, r.processed))
    else bucket.set r.symbol byEx

/-- A validation loop: the bucket it fills and the items it rejects. -/
def scan (valid : Item → Option Record) (items : List Item) (state : Bucket × ℕ) : Bucket × ℕ :=
  items.foldl
    (fun state item =>
      match valid item with
      | none => (state.1, state.2 + 1)
      | some r => (keep state.1 r, state.2))
    state

def byDay (a b : ℤ × ℚ) : Prop := a.1 ≤ b.1

instance : DecidableRel byDay := fun a b => inferInstanceAs (Decidable (a.1 ≤ b.1))

/-- Python `sort_index`. -/
def sortIndex (s : Series) : Series where
  entries := s.entries.insertionSort byDay
  nodup := ((perm_insertionSort _ _).map Prod.fst).nodup_iff.2 s.nodup

/-- Python `_series`. -/
def series (byEx : Dict ℤ (ℚ × ℤ)) : Series :=
  sortIndex (byEx.mapMaybe fun _ kept => some kept.1)

/-- What `_parse_and_validate` returns. -/
structure Parsed where
  cache : Dict String (Series × Series)
  dividends : ℕ
  splits : ℕ
  rejected : ℕ

/-- Python `{s.upper() for s in symbols}`. -/
def allowedOf (symbols : List String) : List String := (symbols.map upper).dedup

/-- Python `_parse_and_validate`. -/
def parseAndValidate (data : Data) (symbols : List String) (start stop : Option ℤ) : Parsed :=
  let allowed := allowedOf symbols
  let (divs, rejected) := scan (dividend allowed start stop) data.cashDividends (Dict.empty, 0)
  let (splits, rejected) := scan (split allowed start stop) data.forwardSplits (Dict.empty, rejected)
  let (splits, rejected) := scan (split allowed start stop) data.reverseSplits (splits, rejected)
  let found (bucket : Bucket) (sym : String) : Series := series ((bucket.get sym).getD Dict.empty)
  { cache := allowed.foldl (fun cache sym => cache.set sym (found divs sym, found splits sym)) Dict.empty
    dividends := (allowed.map fun sym => (found divs sym).entries.length).sum
    splits := (allowed.map fun sym => (found splits sym).entries.length).sum
    rejected := rejected }

/-- Python `distributions`: the dividends and the splits of a symbol. -/
def Parsed.distributions (parsed : Parsed) (symbol : String) : Series × Series :=
  (parsed.cache.get (upper symbol)).getD (Dict.empty, Dict.empty)

/-- The validated dividends of a symbol, in the order of the feed. -/
def dividendsOf (data : Data) (symbols : List String) (start stop : Option ℤ) (sym : String) : List Record :=
  (data.cashDividends.filterMap (dividend (allowedOf symbols) start stop)).filter (·.symbol = sym)

/-- The validated splits of a symbol, in the order they are read. -/
def splitsOf (data : Data) (symbols : List String) (start stop : Option ℤ) (sym : String) : List Record :=
  ((data.forwardSplits ++ data.reverseSplits).filterMap (split (allowedOf symbols) start stop)).filter (·.symbol = sym)

/-- The records that are not replaced: none of the same ex-date was processed later, and none of the same ex-date and
the same processing day is listed later. -/
def standing : List Record → List Record
  | [] => []
  | r :: later =>
    if later.any (fun l => l.ex = r.ex && r.processed ≤ l.processed) then standing later
    else r :: (standing later).filter (·.ex ≠ r.ex)

variable {rows : List Record} {r : Record} {bucket : Bucket} {sym : String} {ex : ℤ} {s : Series}

/-! ## Sorted series -/

lemma get_eq_some {κ ν : Type*} [DecidableEq κ] {d : Dict κ ν} {k : κ} {v : ν} :
    d.get k = some v ↔ (k, v) ∈ d.entries :=
  ⟨mem_entries_of_get, get_of_mem_entries⟩

@[simp] lemma get_sortIndex : (sortIndex s).get ex = s.get ex := by
  apply Option.ext
  intro v
  rw [get_eq_some, get_eq_some]
  exact mem_insertionSort _

lemma sortIndex_ascends : (sortIndex s).entries.Pairwise (·.1 < ·.1) := by
  have total : Std.Total byDay := ⟨fun a b => le_total a.1 b.1⟩
  have transitive : IsTrans (ℤ × ℚ) byDay := ⟨fun _ _ _ ab bc => le_trans ab bc⟩
  have sorted : (sortIndex s).entries.Pairwise byDay := pairwise_insertionSort byDay _
  have distinct := pairwise_map.1 (sortIndex s).nodup
  refine (sorted.and distinct).imp ?_
  intro a b both
  exact lt_of_le_of_ne both.1 both.2

lemma mem_sortIndex {b : ℤ × ℚ} : b ∈ (sortIndex s).entries ↔ b ∈ s.entries :=
  mem_insertionSort _

/-! ## The de-duplication -/

/-- What a bucket holds for a symbol on an ex-date. -/
def held (bucket : Bucket) (sym : String) (ex : ℤ) : Option (ℚ × ℤ) :=
  ((bucket.get sym).getD Dict.empty).get ex

def latest (prior : Option (ℚ × ℤ)) (r : Record) : Option (ℚ × ℤ) :=
  if prior.any (r.processed < ·.2) then prior else some (r.value, r.processed)

lemma held_keep :
    held (keep bucket r) sym ex =
      if r.symbol = sym ∧ r.ex = ex then latest (held bucket sym ex) r else held bucket sym ex := by
  have other (byEx : Dict ℤ (ℚ × ℤ)) (ne : r.symbol ≠ sym) : held (bucket.set r.symbol byEx) sym ex =
      held bucket sym ex := by
    rw [held, get_set_of_ne (Ne.symm ne), held]
  have same (byEx : Dict ℤ (ℚ × ℤ)) : held (bucket.set r.symbol byEx) r.symbol ex = byEx.get ex := by
    rw [held, get_set_self, Option.getD_some]
  by_cases here : r.symbol = sym
  · subst here
    simp only [true_and, keep]
    cases found : ((bucket.get r.symbol).getD Dict.empty).get r.ex with
    | none =>
      simp only [same, get_set]
      by_cases day : ex = r.ex
      · subst day
        rw [if_pos rfl, if_pos rfl, held, found, latest, if_neg (by simp)]
      · rw [if_neg day, if_neg (Ne.symm day), held]
    | some prior =>
      simp only
      by_cases older : prior.2 ≤ r.processed
      · rw [if_pos older, same, get_set]
        by_cases day : ex = r.ex
        · subst day
          rw [if_pos rfl, if_pos rfl, held, found, latest, if_neg (by simpa using older)]
        · rw [if_neg day, if_neg (Ne.symm day), held]
      · rw [if_neg older, same]
        by_cases day : ex = r.ex
        · subst day
          rw [if_pos rfl, held, found, latest, if_pos (by simpa using older)]
        · rw [if_neg (Ne.symm day), held]
  · rw [if_neg fun both => here both.1]
    simp only [keep]
    cases ((bucket.get r.symbol).getD Dict.empty).get r.ex with
    | none => exact other _ here
    | some prior =>
      simp only
      split
      · exact other _ here
      · exact other _ here

lemma held_foldl_keep :
    held (rows.foldl keep bucket) sym ex =
      ((rows.filter (·.symbol = sym)).filter (·.ex = ex)).foldl latest (held bucket sym ex) := by
  induction rows generalizing bucket with
  | nil => rfl
  | cons r rows ih =>
    rw [foldl_cons, ih, held_keep]
    by_cases name : r.symbol = sym
    · by_cases day : r.ex = ex
      · simp [name, day]
      · simp [name, day]
    · simp [name]

lemma foldl_latest :
    rows.foldl latest (some (r.value, r.processed)) =
      if rows.any (r.processed ≤ ·.processed) then rows.foldl latest none else some (r.value, r.processed) := by
  induction rows generalizing r with
  | nil => rfl
  | cons x rows ih =>
    have first : latest none x = some (x.value, x.processed) := rfl
    rw [foldl_cons, foldl_cons, first, any_cons, latest]
    by_cases newer : r.processed ≤ x.processed
    · rw [if_neg (by simpa using newer)]
      simp [newer]
    · rw [if_pos (by simpa using newer), ih, ih (r := x)]
      simp only [newer, decide_false, Bool.false_or]
      split
      · rename_i replaced
        -- what replaces `r` was processed after `x` as well
        have also : rows.any (x.processed ≤ ·.processed) = true := by
          rw [any_eq_true] at replaced ⊢
          obtain ⟨l, mem, le⟩ := replaced
          exact ⟨l, mem, by simp at *; omega⟩
        rw [if_pos also]
      · rfl

lemma foldl_latest_eq_standing :
    ((rows.filter (·.ex = ex)).foldl latest none).map (·.1) = ((standing rows).find? (·.ex = ex)).map (·.value) := by
  induction rows with
  | nil => rfl
  | cons r rows ih =>
    rw [standing]
    by_cases day : r.ex = ex
    · subst day
      have first : latest none r = some (r.value, r.processed) := rfl
      have replaced : (rows.filter (·.ex = r.ex)).any (r.processed ≤ ·.processed) =
          rows.any (fun l => l.ex = r.ex && r.processed ≤ l.processed) := by
        rw [any_filter]
      rw [filter_cons_of_pos (by simp), foldl_cons, first, foldl_latest, replaced]
      split
      · exact ih
      · rw [find?_cons_of_pos (by simp)]
        rfl
    · rw [filter_cons_of_neg (by simpa using day), ih]
      split
      · rfl
      · rw [find?_cons_of_neg (by simpa using day), find?_filter]
        congr 2
        funext l
        by_cases eq : l.ex = ex
        · simp [eq, Ne.symm day]
        · simp [eq]

lemma nodup_standing : ((standing rows).map Record.ex).Nodup := by
  induction rows with
  | nil => exact nodup_nil
  | cons r rows ih =>
    rw [standing]
    split
    · exact ih
    · rw [map_cons, nodup_cons]
      refine ⟨?_, ih.sublist (filter_sublist.map _)⟩
      intro mem
      obtain ⟨l, found, same⟩ := mem_map.1 mem
      simpa [same] using (mem_filter.1 found).2

/-! ## The parsed feed -/

lemma scan_eq {valid : Item → Option Record} {items : List Item} {state : Bucket × ℕ} :
    scan valid items state =
      ((items.filterMap valid).foldl keep state.1, state.2 + (items.filter (valid · = none)).length) := by
  induction items generalizing state with
  | nil => rfl
  | cons item items ih =>
    have step : scan valid (item :: items) state = scan valid items
        (match valid item with
        | none => (state.1, state.2 + 1)
        | some r => (keep state.1 r, state.2)) := rfl
    rw [step, ih]
    cases checked : valid item with
    | none =>
      rw [filterMap_cons_none checked, filter_cons_of_pos (by simpa using checked), length_cons]
      simp only [Prod.mk.injEq, true_and]
      omega
    | some r => rw [filterMap_cons_some checked, filter_cons_of_neg (by simp [checked]), foldl_cons]

lemma nodup_allowedOf {symbols : List String} : (allowedOf symbols).Nodup := nodup_dedup _

lemma symbol_mem_of_check {allowed : List String} {start stop : Option ℤ} {value : Item → Option ℚ} {item : Item}
    (valid : check allowed start stop value item = some r) : r.symbol ∈ allowed := by
  rw [check] at valid
  split at valid
  · split at valid
    · rename_i passes
      obtain rfl := Option.some.inj valid
      exact passes.1
    · cases valid
  · cases valid

lemma filter_check_eq_nil {allowed : List String} {start stop : Option ℤ} {value : Item → Option ℚ} {items : List Item}
    (unlisted : sym ∉ allowed) : (items.filterMap (check allowed start stop value)).filter (·.symbol = sym) = [] := by
  rw [filter_eq_nil_iff]
  intro r mem same
  obtain ⟨item, -, valid⟩ := mem_filterMap.1 mem
  exact unlisted (of_decide_eq_true same ▸ symbol_mem_of_check valid)

lemma get_cache {ν : Type*} {symbols : List String} (found : String → ν) :
    ((allowedOf symbols).foldl (fun cache sym => cache.set sym (found sym)) Dict.empty).get sym =
      if sym ∈ allowedOf symbols then some (found sym) else none := by
  have nodup : ((allowedOf symbols).map id).Nodup := by rw [map_id]; exact nodup_allowedOf
  split
  · rename_i mem
    exact get_foldl_set_of_mem nodup mem
  · rename_i absent
    have notFound : (allowedOf symbols).find? (id · = sym) = none := by
      rw [find?_eq_none]
      intro other mem same
      exact absent (of_decide_eq_true same ▸ mem)
    have get : ((allowedOf symbols).foldl (fun cache sym => cache.set (id sym) (found sym)) Dict.empty).get sym = _ :=
      get_foldl_set nodup
    rw [notFound] at get
    exact get

lemma get_series {byEx : Dict ℤ (ℚ × ℤ)} : (series byEx).get ex = (byEx.get ex).map (·.1) := by
  rw [series, get_sortIndex, get_mapMaybe]
  cases byEx.get ex with
  | none => rfl
  | some kept => rfl

lemma get_series_foldl_keep :
    (series (((rows.foldl keep Dict.empty).get sym).getD Dict.empty)).get ex =
      ((standing (rows.filter (·.symbol = sym))).find? (·.ex = ex)).map (·.value) := by
  have start : held (Dict.empty : Bucket) sym ex = none := rfl
  rw [get_series, ← held, held_foldl_keep, start, foldl_latest_eq_standing]

variable {data : Data} {symbols : List String} {start stop : Option ℤ} {symbol : String}

lemma get_dividends :
    ((parseAndValidate data symbols start stop).distributions symbol).1.get ex =
      ((standing (dividendsOf data symbols start stop (upper symbol))).find? (·.ex = ex)).map (·.value) := by
  rw [Parsed.distributions, parseAndValidate]
  simp only [scan_eq]
  rw [get_cache]
  split
  · exact get_series_foldl_keep
  · rename_i unlisted
    rw [dividendsOf, dividend, filter_check_eq_nil unlisted]
    rfl

lemma get_splits :
    ((parseAndValidate data symbols start stop).distributions symbol).2.get ex =
      ((standing (splitsOf data symbols start stop (upper symbol))).find? (·.ex = ex)).map (·.value) := by
  rw [Parsed.distributions, parseAndValidate]
  simp only [scan_eq, ← foldl_append, ← filterMap_append]
  rw [get_cache]
  split
  · exact get_series_foldl_keep
  · rename_i unlisted
    rw [splitsOf, split, filter_check_eq_nil unlisted]
    rfl

end Workbench.Market
