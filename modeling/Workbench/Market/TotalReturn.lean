import Workbench.Market.Distributions

/-!
# Total return

Model of `app/factor_data/total_return.py`: `total_return_index` compounds the one-day returns of a raw close series,
the dividends and the splits aligned to its days. Prices are exact numbers.

Python → Lean naming:
* `_as_series` → `asSeries`, `total_return_index` → `totalReturnIndex`, `cumprod` → `cumprod`

`worth` is what the index is for: the value of one share bought at the first close when every split multiplies the
shares and every cash amount buys shares at the next close. The index is that value for the records that stand and
whose ex-date is a day of the series; it is chained of the indices of its two halves at every bar. -/

namespace Workbench.Market
open Workbench.Lib List Dict
variable {b : ℤ × ℚ} {l : List (ℤ × ℚ)} {day : ℤ}

/-- Python `_as_series`: the values at the days of `index`, `fill` where there is none. -/
def asSeries (m : Option Series) (index : List ℤ) (fill : ℚ) : List ℚ :=
  index.map fun day => (m.bind (·.get day)).getD fill

/-- Python `cumprod`. -/
def cumprod (l : List ℚ) : List ℚ := (l.scanl (· * ·) 1).tail

/-- The return of a day: `s·(c + d) / prev − 1`. -/
def dayReturn (s c d prev : ℚ) : ℚ := s * (c + d) / prev - 1

/-- Python `total_return_index`. -/
def totalReturnIndex (close : Series) (dividends splits : Option Series) : List (ℤ × ℚ) :=
  match (sortIndex close).entries with
  | [] => []
  | first :: rest =>
    let index := (first :: rest).map (·.1)
    let c := (first :: rest).map (·.2)
    let div := asSeries dividends index 0
    let spl := asSeries splits index 1
    -- the closes shifted by one row; the first row has no prior close and no return
    let r := 0 :: List.zipWith4 dayReturn spl.tail c.tail div.tail c
    let tri := cumprod (r.map (1 + ·))
    index.zip (tri.map (· * first.2))

/-! ## One share held -/

/-- The product of the splits after `since` and through `day`. -/
def factor (splits : List Record) (since day : ℤ) : ℚ :=
  ((splits.filter fun s => since < s.ex && s.ex ≤ day).map (·.value)).prod

/-- The cash that a share held at the close of `since` earns through `day`; a dividend is paid on the shares after the
splits of its ex-date. -/
def cash (dividends splits : List Record) (since day : ℤ) : ℚ :=
  ((dividends.filter fun d => since < d.ex && d.ex ≤ day).map fun d => factor splits since d.ex * d.value).sum

/-- The final value of shares held at the close of `prev`: on each bar the splits multiply them and the cash buys more
at the close. -/
def hold (dividends splits : List Record) (shares : ℚ) (prev : ℤ × ℚ) : List (ℤ × ℚ) → ℚ
  | [] => shares * prev.2
  | bar :: bars =>
    hold dividends splits
      (shares * factor splits prev.1 bar.1 + shares * cash dividends splits prev.1 bar.1 / bar.2) bar bars

/-- The final value of one share bought at the first close. -/
def worth (close : Series) (dividends splits : List Record) : Option ℚ :=
  match (sortIndex close).entries with
  | [] => none
  | first :: bars => some (hold dividends splits 1 first bars)

/-- The records that stand and whose ex-date is a day of the series. -/
def counted (close : Series) (records : List Record) : List Record :=
  (standing records).filter fun r => (close.get r.ex).isSome

def lastValue (index : List (ℤ × ℚ)) : Option ℚ := index.getLast?.map (·.2)

def normalized (index : List (ℤ × ℚ)) : List (ℤ × ℚ) :=
  index.map fun b => (b.1, b.2 / ((index.head?.map (·.2)).getD 1))

/-- Two indices chained at a common bar: after it, each value is the product of the last value of the first index and
the value of the second. -/
def chained (first second : List (ℤ × ℚ)) : List (ℤ × ℚ) :=
  first ++ second.tail.map fun b => (b.1, (lastValue first).getD 1 * b.2)

def upTo (close : Series) (day : ℤ) : Series := close.mapMaybe fun t c => if t ≤ day then some c else none

def fromOn (close : Series) (day : ℤ) : Series := close.mapMaybe fun t c => if day ≤ t then some c else none

variable {close : Series} {dividends splits : Option Series} {paid divided : List Record} {v k shares : ℚ}
  {prev bar mid : ℤ × ℚ} {bars before after : List (ℤ × ℚ)}

/-! ## The index as a recursion -/

/-- The growth of a share from a bar to the next. -/
def growth (dividends splits : Option Series) (prev bar : ℤ × ℚ) : ℚ :=
  (splits.bind (·.get bar.1)).getD 1 * (bar.2 + (dividends.bind (·.get bar.1)).getD 0) / prev.2

/-- The values of the index after a bar at which it has the value `v`. -/
def compound (dividends splits : Option Series) (v : ℚ) (prev : ℤ × ℚ) : List (ℤ × ℚ) → List (ℤ × ℚ)
  | [] => []
  | bar :: bars =>
    (bar.1, v * growth dividends splits prev bar) ::
      compound dividends splits (v * growth dividends splits prev bar) bar bars

lemma zip_scanl_eq_compound (dividends splits : Option Series) (prev : ℤ × ℚ) (bars : List (ℤ × ℚ)) (v base : ℚ) :
    ((prev :: bars).map (·.1)).zip ((((List.zipWith4 dayReturn (asSeries splits (bars.map (·.1)) 1) (bars.map (·.2))
          (asSeries dividends (bars.map (·.1)) 0) ((prev :: bars).map (·.2))).map (1 + ·)).scanl (· * ·) v).map
            (· * base)) = (prev.1, v * base) :: compound dividends splits (v * base) prev bars := by
  induction bars generalizing prev v with
  | nil => rfl
  | cons bar bars ih =>
    have row : 1 + dayReturn ((splits.bind (·.get bar.1)).getD 1) bar.2 ((dividends.bind (·.get bar.1)).getD 0) prev.2 =
        growth dividends splits prev bar := by
      rw [dayReturn, growth, add_sub_cancel]
    have next := ih bar (v * growth dividends splits prev bar)
    rw [mul_right_comm v] at next
    simp only [asSeries, map_cons, List.zipWith4, scanl_cons, zip_cons_cons, compound] at next ⊢
    rw [row, next]

lemma totalReturnIndex_eq :
    totalReturnIndex close dividends splits =
      match (sortIndex close).entries with
      | [] => []
      | first :: bars => first :: compound dividends splits first.2 first bars := by
  rw [totalReturnIndex]
  cases (sortIndex close).entries with
  | nil => rfl
  | cons first bars =>
    have rows := zip_scanl_eq_compound dividends splits first bars 1 first.2
    rw [one_mul] at rows
    refine Eq.trans ?_ rows
    simp only [asSeries, cumprod, map_cons, tail_cons, scanl_cons, add_zero, mul_one]

lemma totalReturnIndex_eq_cons (rows : (sortIndex close).entries = prev :: bars) :
    totalReturnIndex close dividends splits = prev :: compound dividends splits prev.2 prev bars := by
  rw [totalReturnIndex_eq, rows]

/-! ## The index against the share held -/

lemma lastValue_cons_cons {a : ℤ × ℚ} : lastValue (a :: b :: l) = lastValue (b :: l) := by
  rw [lastValue, getLast?_cons_cons, lastValue]

lemma lastValue_cons (last : lastValue l = some v) : lastValue (b :: l) = some v := by
  cases l with
  | nil => cases last
  | cons a l => rw [lastValue_cons_cons, last]

lemma filter_ex_eq {rows : List Record} (nodup : (rows.map Record.ex).Nodup) :
    rows.filter (·.ex = day) = (rows.find? (·.ex = day)).toList := by
  induction rows with
  | nil => rfl
  | cons r rows ih =>
    rw [map_cons, nodup_cons] at nodup
    by_cases same : r.ex = day
    · have none : rows.filter (·.ex = day) = [] := filter_key_eq_nil (same ▸ nodup.1)
      rw [filter_cons_of_pos (by simpa using same), find?_cons_of_pos (by simpa using same), none]
      rfl
    · rw [filter_cons_of_neg (by simpa using same), find?_cons_of_neg (by simpa using same), ih nodup.2]

lemma filter_between {rows : List Record} (ascends : (bar :: bars).Pairwise (·.1 < ·.1))
    (onBars : ∀ r ∈ rows, prev.1 < r.ex → r.ex ∈ (bar :: bars).map (·.1)) (later : prev.1 < bar.1) :
    (rows.filter fun r => prev.1 < r.ex && r.ex ≤ bar.1) = rows.filter (·.ex = bar.1) := by
  apply filter_congr
  intro r mem
  rw [Bool.eq_iff_iff, Bool.and_eq_true, decide_eq_true_iff, decide_eq_true_iff, decide_eq_true_iff]
  constructor
  · rintro ⟨lt, le⟩
    obtain ⟨b, found, same⟩ := mem_map.1 (onBars r mem lt)
    rcases mem_cons.1 found with rfl | rest
    · exact same.symm
    · have := (pairwise_cons.1 ascends).1 b rest
      omega
  · intro same
    omega

lemma hold_step (shares : ℚ) (nodupPaid : (paid.map Record.ex).Nodup) (nodupDivided : (divided.map Record.ex).Nodup)
    (ascends : (bar :: bars).Pairwise (·.1 < ·.1)) (later : prev.1 < bar.1)
    (paidOnBars : ∀ r ∈ paid, prev.1 < r.ex → r.ex ∈ (bar :: bars).map (·.1))
    (dividedOnBars : ∀ r ∈ divided, prev.1 < r.ex → r.ex ∈ (bar :: bars).map (·.1))
    (aligned : dividends.bind (·.get bar.1) = (paid.find? (·.ex = bar.1)).map (·.value))
    (alignedSplits : splits.bind (·.get bar.1) = (divided.find? (·.ex = bar.1)).map (·.value))
    (positive : 0 < prev.2) (positiveBar : 0 < bar.2) :
    (shares * factor divided prev.1 bar.1 + shares * cash paid divided prev.1 bar.1 / bar.2) * bar.2 =
      shares * prev.2 * growth dividends splits prev bar := by
  have multiplied : factor divided prev.1 bar.1 = (splits.bind (·.get bar.1)).getD 1 := by
    rw [factor, filter_between ascends dividedOnBars later, filter_ex_eq nodupDivided, alignedSplits]
    cases divided.find? (·.ex = bar.1) with
    | none => rfl
    | some r => simp
  have earned : cash paid divided prev.1 bar.1 =
      (splits.bind (·.get bar.1)).getD 1 * (dividends.bind (·.get bar.1)).getD 0 := by
    rw [cash, filter_between ascends paidOnBars later, filter_ex_eq nodupPaid, aligned]
    cases found : paid.find? (·.ex = bar.1) with
    | none => simp
    | some r =>
      have same : r.ex = bar.1 := by simpa using find?_some found
      simp [same, multiplied]
  rw [multiplied, earned, growth]
  field_simp

lemma lastValue_compound (shares : ℚ) (nodupPaid : (paid.map Record.ex).Nodup)
    (nodupDivided : (divided.map Record.ex).Nodup) (ascends : (prev :: bars).Pairwise (·.1 < ·.1))
    (paidOnBars : ∀ r ∈ paid, prev.1 < r.ex → r.ex ∈ bars.map (·.1))
    (dividedOnBars : ∀ r ∈ divided, prev.1 < r.ex → r.ex ∈ bars.map (·.1))
    (aligned : ∀ bar ∈ bars, dividends.bind (·.get bar.1) = (paid.find? (·.ex = bar.1)).map (·.value))
    (alignedSplits : ∀ bar ∈ bars, splits.bind (·.get bar.1) = (divided.find? (·.ex = bar.1)).map (·.value))
    (positive : ∀ b ∈ prev :: bars, 0 < b.2) :
    lastValue ((prev.1, shares * prev.2) :: compound dividends splits (shares * prev.2) prev bars) =
      some (hold paid divided shares prev bars) := by
  induction bars generalizing prev shares with
  | nil => rfl
  | cons bar bars ih =>
    obtain ⟨laters, ascends'⟩ := pairwise_cons.1 ascends
    have later := laters bar mem_cons_self
    have step := hold_step shares nodupPaid nodupDivided ascends' later paidOnBars dividedOnBars
      (aligned bar mem_cons_self) (alignedSplits bar mem_cons_self)
      (positive prev mem_cons_self) (positive bar (by simp))
    -- a record after this bar is on one of the rest
    have rest {rows : List Record} (onBars : ∀ r ∈ rows, prev.1 < r.ex → r.ex ∈ (bar :: bars).map (·.1)) :
        ∀ r ∈ rows, bar.1 < r.ex → r.ex ∈ bars.map (·.1) := by
      intro r mem lt
      rcases mem_cons.1 (onBars r mem (later.trans lt)) with same | found
      · exact absurd same lt.ne'
      · exact found
    rw [compound, lastValue_cons_cons, hold, ← step]
    exact ih _ ascends' (rest paidOnBars) (rest dividedOnBars)
      (fun b mem => aligned b (mem_cons_of_mem _ mem))
      (fun b mem => alignedSplits b (mem_cons_of_mem _ mem))
      (fun b mem => positive b (mem_cons_of_mem _ mem))

lemma find_counted {records : List Record} (isBar : (close.get day).isSome = true) :
    (counted close records).find? (·.ex = day) = (standing records).find? (·.ex = day) := by
  rw [counted, find?_filter]
  congr 1
  funext r
  by_cases same : r.ex = day
  · simp [same, isBar]
  · simp [same]

lemma nodup_counted {records : List Record} : ((counted close records).map Record.ex).Nodup :=
  nodup_standing.sublist (filter_sublist.map _)

lemma ex_mem_of_counted {records : List Record} {r : Record} (mem : r ∈ counted close records) :
    r.ex ∈ (sortIndex close).entries.map (·.1) := by
  obtain ⟨c, found⟩ := Option.isSome_iff_exists.1 (mem_filter.1 mem).2
  exact mem_map.2 ⟨(r.ex, c), mem_sortIndex.2 (get_eq_some.1 found), rfl⟩

/-! ## The two halves -/

lemma sortIndex_entries_eq {s : Series} (ascends : l.Pairwise (·.1 < ·.1))
    (same : ∀ b, b ∈ l ↔ b ∈ s.entries) : (sortIndex s).entries = l := by
  have distinct {m : List (ℤ × ℚ)} (h : m.Pairwise (·.1 < ·.1)) : m.Nodup := by
    refine h.imp ?_
    rintro a b lt rfl
    exact lt_irrefl _ lt
  have perm : (sortIndex s).entries.Perm l := by
    rw [perm_ext_iff_of_nodup (distinct sortIndex_ascends) (distinct ascends)]
    intro b
    rw [mem_sortIndex, same]
  refine perm.eq_of_pairwise ?_ sortIndex_ascends ascends
  intro a b _ _ lt gt
  exact absurd gt lt.asymm

lemma mem_upTo : b ∈ (upTo close day).entries ↔ b ∈ close.entries ∧ b.1 ≤ day := by
  obtain ⟨t, c⟩ := b
  rw [← get_eq_some, ← get_eq_some, upTo, get_mapMaybe, Option.bind_eq_some_iff]
  simp only [Option.ite_none_right_eq_some, Option.some.injEq]
  constructor
  · rintro ⟨c', found, le, rfl⟩
    exact ⟨found, le⟩
  · rintro ⟨found, le⟩
    exact ⟨c, found, le, rfl⟩

lemma mem_fromOn : b ∈ (fromOn close day).entries ↔ b ∈ close.entries ∧ day ≤ b.1 := by
  obtain ⟨t, c⟩ := b
  rw [← get_eq_some, ← get_eq_some, fromOn, get_mapMaybe, Option.bind_eq_some_iff]
  simp only [Option.ite_none_right_eq_some, Option.some.injEq]
  constructor
  · rintro ⟨c', found, le, rfl⟩
    exact ⟨found, le⟩
  · rintro ⟨found, le⟩
    exact ⟨c, found, le, rfl⟩

lemma sortIndex_halves (rows : (sortIndex close).entries = before ++ mid :: after) :
    (sortIndex (upTo close mid.1)).entries = before ++ [mid] ∧
      (sortIndex (fromOn close mid.1)).entries = mid :: after := by
  have ascends : (before ++ mid :: after).Pairwise (·.1 < ·.1) := rows ▸ sortIndex_ascends
  obtain ⟨left, right, cross⟩ := pairwise_append.1 ascends
  obtain ⟨laters, -⟩ := pairwise_cons.1 right
  have mem (b : ℤ × ℚ) : b ∈ close.entries ↔ b ∈ before ∨ b = mid ∨ b ∈ after := by
    rw [← mem_sortIndex, rows, mem_append, mem_cons]
  constructor
  · apply sortIndex_entries_eq
    · refine pairwise_append.2 ⟨left, pairwise_singleton _ _, ?_⟩
      intro a ma b mb
      exact cross a ma b (mem_cons.2 (.inl (mem_singleton.1 mb)))
    · intro b
      rw [mem_upTo, mem, mem_append, mem_singleton]
      constructor
      · rintro (earlier | rfl)
        · exact ⟨.inl earlier, (cross b earlier mid mem_cons_self).le⟩
        · exact ⟨.inr (.inl rfl), le_rfl⟩
      · rintro ⟨earlier | rfl | later, le⟩
        · exact .inl earlier
        · exact .inr rfl
        · exact absurd le (laters b later).not_ge
  · apply sortIndex_entries_eq right
    intro b
    rw [mem_fromOn, mem, mem_cons]
    constructor
    · rintro (rfl | later)
      · exact ⟨.inr (.inl rfl), le_rfl⟩
      · exact ⟨.inr (.inr later), (laters b later).le⟩
    · rintro ⟨earlier | same, le⟩
      · exact absurd le (cross b earlier mid mem_cons_self).not_ge
      · exact same

lemma compound_mul :
    compound dividends splits (k * v) prev bars =
      (compound dividends splits v prev bars).map fun b => (b.1, k * b.2) := by
  induction bars generalizing prev v with
  | nil => rfl
  | cons bar bars ih => rw [compound, compound, mul_assoc, ih, map_cons]

lemma compound_append (dividends splits : Option Series) (v : ℚ) (prev : ℤ × ℚ) (before : List (ℤ × ℚ)) (mid : ℤ × ℚ)
    (after : List (ℤ × ℚ)) :
    ∃ w, lastValue (compound dividends splits v prev (before ++ [mid])) = some w ∧
      compound dividends splits v prev (before ++ mid :: after) =
        compound dividends splits v prev (before ++ [mid]) ++ compound dividends splits w mid after := by
  induction before generalizing prev v with
  | nil => exact ⟨v * growth dividends splits prev mid, rfl, rfl⟩
  | cons bar before ih =>
    obtain ⟨w, last, eq⟩ := ih (v * growth dividends splits prev bar) bar
    refine ⟨w, ?_, ?_⟩
    · rw [cons_append, compound]
      exact lastValue_cons last
    · rw [cons_append, compound, eq]
      rfl

lemma normalized_cons : normalized (b :: l) = (b :: l).map fun x => (x.1, x.2 / b.2) := rfl

lemma lastValue_map {f : ℚ → ℚ} : lastValue (l.map fun x => (x.1, f x.2)) = (lastValue l).map f := by
  rw [lastValue, getLast?_map, lastValue, Option.map_map, Option.map_map]
  rfl

lemma normalized_chained (positive : ∀ b ∈ close.entries, 0 < b.2)
    (rows : (sortIndex close).entries = before ++ mid :: after) :
    normalized (totalReturnIndex close dividends splits) =
      chained (normalized (totalReturnIndex (upTo close mid.1) dividends splits))
        (normalized (totalReturnIndex (fromOn close mid.1) dividends splits)) := by
  obtain ⟨left, right⟩ := sortIndex_halves rows
  have midPositive : 0 < mid.2 := positive mid (mem_sortIndex.1 (rows ▸ by simp))
  rw [totalReturnIndex_eq_cons right]
  cases before with
  | nil =>
    rw [totalReturnIndex_eq_cons rows, totalReturnIndex_eq_cons left, compound, normalized_cons, normalized_cons,
      chained]
    simp [lastValue, div_self midPositive.ne']
  | cons first before =>
    rw [cons_append] at rows left
    rw [totalReturnIndex_eq_cons rows, totalReturnIndex_eq_cons left]
    obtain ⟨w, last, eq⟩ := compound_append dividends splits first.2 first before mid after
    have lastFirst := lastValue_cons (b := first) last
    have goesOn : compound dividends splits w mid after =
        (compound dividends splits mid.2 mid after).map fun b => (b.1, w / mid.2 * b.2) := by
      rw [← compound_mul, div_mul_cancel₀ _ midPositive.ne']
    rw [eq, goesOn, chained, normalized_cons, normalized_cons, normalized_cons, lastValue_map (f := (· / first.2)),
      lastFirst,
      ← cons_append, map_append, map_map, map_cons (l := compound dividends splits mid.2 mid after),
      tail_cons, map_map]
    congr 1
    apply map_congr_left
    intro b _
    simp only [Function.comp_apply, Option.map_some, Option.getD_some, Prod.mk.injEq, true_and]
    ring

/-! ## The feed priced -/

section Feed

variable {data : Data} {symbols : List String} {start stop : Option ℤ} {symbol : String}

/-- The index of a close series on the dividends and splits that the provider has for the symbol. -/
def indexOf (data : Data) (symbols : List String) (start stop : Option ℤ) (symbol : String) (close : Series) :
    List (ℤ × ℚ) :=
  let (div, spl) := (parseAndValidate data symbols start stop).distributions symbol
  totalReturnIndex close (some div) (some spl)

lemma lastValue_indexOf (positive : ∀ b ∈ close.entries, 0 < b.2) :
    lastValue (indexOf data symbols start stop symbol close) =
      worth close (counted close (dividendsOf data symbols start stop (upper symbol)))
        (counted close (splitsOf data symbols start stop (upper symbol))) := by
  rw [indexOf, worth]
  cases rows : (sortIndex close).entries with
  | nil =>
    simp only [totalReturnIndex_eq, rows]
    rfl
  | cons first bars =>
    simp only [totalReturnIndex_eq_cons rows]
    have isBar (bar) (mem : bar ∈ bars) : (close.get bar.1).isSome = true := by
      have entry : bar ∈ close.entries := mem_sortIndex.1 (rows ▸ mem_cons_of_mem _ mem)
      rw [get_of_mem_entries entry]
      rfl
    have onBars {records : List Record} (r) (mem : r ∈ counted close records) (later : first.1 < r.ex) :
        r.ex ∈ bars.map (·.1) := by
      have found := ex_mem_of_counted mem
      rw [rows, map_cons, mem_cons] at found
      rcases found with same | found
      · exact absurd same later.ne'
      · exact found
    have aligned (bar) (mem : bar ∈ bars) :
        (some ((parseAndValidate data symbols start stop).distributions symbol).1).bind (·.get bar.1) =
          ((counted close (dividendsOf data symbols start stop (upper symbol))).find? (·.ex = bar.1)).map
            (·.value) := by
      rw [find_counted (isBar bar mem)]
      exact get_dividends
    have alignedSplits (bar) (mem : bar ∈ bars) :
        (some ((parseAndValidate data symbols start stop).distributions symbol).2).bind (·.get bar.1) =
          ((counted close (splitsOf data symbols start stop (upper symbol))).find? (·.ex = bar.1)).map (·.value) := by
      rw [find_counted (isBar bar mem)]
      exact get_splits
    have held := lastValue_compound 1 nodup_counted nodup_counted (rows ▸ sortIndex_ascends) onBars onBars aligned
      alignedSplits (fun b mem => positive b (mem_sortIndex.1 (rows ▸ mem)))
    rw [one_mul] at held
    exact held

/-- The last value of the index is the value of one share on the records that stand and are on a bar, and at every bar
the index is chained of the indices of its two halves. -/
theorem total_return_exact (data : Data) (symbols : List String) (start stop : Option ℤ) (symbol : String)
    (close : Series) (positive : ∀ b ∈ close.entries, 0 < b.2) :
    lastValue (indexOf data symbols start stop symbol close) =
        worth close (counted close (dividendsOf data symbols start stop (upper symbol)))
          (counted close (splitsOf data symbols start stop (upper symbol))) ∧ ∀ mid ∈ close.entries,
        normalized (indexOf data symbols start stop symbol close) =
          chained (normalized (indexOf data symbols start stop symbol (upTo close mid.1)))
            (normalized (indexOf data symbols start stop symbol (fromOn close mid.1))) := by
  refine ⟨lastValue_indexOf positive, ?_⟩
  intro mid mem
  obtain ⟨before, after, rows⟩ := append_of_mem (mem_sortIndex.2 mem)
  exact normalized_chained positive rows

def oneDividend (ex : ℤ) : Item where
  symbol := some "TLT"
  exDate := some ex
  processDate := none
  rate := some 1
  newRate := none
  oldRate := none

def onesOn (days : List ℤ) : Data := ⟨days.map oneDividend, [], []⟩

def tenAWeek : Series := ⟨[(0, 10), (2, 10), (4, 10)], by decide⟩

theorem total_return_exact_tlt :
    (∀ b ∈ tenAWeek.entries, 0 < b.2) ∧ lastValue (indexOf (onesOn [2]) ["TLT"] none none "TLT" tenAWeek) =
        worth tenAWeek (counted tenAWeek (dividendsOf (onesOn [2]) ["TLT"] none none (upper "TLT")))
          (counted tenAWeek (splitsOf (onesOn [2]) ["TLT"] none none (upper "TLT"))) := by
  have positive : ∀ b ∈ tenAWeek.entries, 0 < b.2 := by decide
  exact ⟨positive, (total_return_exact (onesOn [2]) ["TLT"] none none "TLT" tenAWeek positive).1⟩

lemma upper_tlt : upper "TLT" = "TLT" := by decide +kernel

lemma dividendsOf_onesOn {days : List ℤ} :
    dividendsOf (onesOn days) ["TLT"] none none "TLT" = days.map fun day => ⟨"TLT", day, 1, none⟩ := by
  have valid (day : ℤ) : dividend (allowedOf ["TLT"]) none none (oneDividend day) = some ⟨"TLT", day, 1, none⟩ := by
    have paid : Option.filter (fun rate : ℚ => 0 ≤ rate) (some 1) = some 1 := by decide
    simp [dividend, check, oneDividend, cashRate, paid, allowedOf, inWindow, upper_tlt]
  rw [dividendsOf]
  induction days with
  | nil => rfl
  | cons day days ih =>
    simp only [onesOn, map_cons] at ih ⊢
    rw [filterMap_cons_some (valid day), filter_cons_of_pos (by simp), ih]

lemma splitsOf_onesOn {days : List ℤ} : splitsOf (onesOn days) ["TLT"] none none "TLT" = [] := rfl

/-- Of two dividends of one ex-date one is lost, and so is the dividend of a day that has no bar. -/
theorem dividend_lost :
    (∀ b ∈ tenAWeek.entries, 0 < b.2) ∧ lastValue (indexOf (onesOn [2, 2]) ["TLT"] none none "TLT" tenAWeek) = some 11 ∧
      worth tenAWeek (dividendsOf (onesOn [2, 2]) ["TLT"] none none (upper "TLT"))
        (splitsOf (onesOn [2, 2]) ["TLT"] none none (upper "TLT")) = some 12 ∧
      lastValue (indexOf (onesOn [3]) ["TLT"] none none "TLT" tenAWeek) = some 10 ∧
      worth tenAWeek (dividendsOf (onesOn [3]) ["TLT"] none none (upper "TLT"))
        (splitsOf (onesOn [3]) ["TLT"] none none (upper "TLT")) = some 11 := by
  have positive : ∀ b ∈ tenAWeek.entries, 0 < b.2 := by decide
  rw [lastValue_indexOf positive, lastValue_indexOf positive, upper_tlt, dividendsOf_onesOn, dividendsOf_onesOn,
    splitsOf_onesOn, splitsOf_onesOn]
  refine ⟨positive, ?_, ?_, ?_, ?_⟩ <;> decide +kernel

end Feed

end Workbench.Market
