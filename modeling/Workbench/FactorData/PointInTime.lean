import Mathlib.Algebra.BigOperators.Group.List.Basic
import Mathlib.Data.Rat.Init
import Workbench.FactorData.Store

/-!
# Reads of a truncated store

The truncated store keeps what was known by a date, with the lifetime of each name cut to its remaining prices. The
fundamentals and the SF1 rows that are read of it are those of the store. Its universe is that of the store without the
names that do not trade on the date itself, and an identity is kept where its name does: a lifetime is bounded by later
prices. The universe and the identities do not depend on the order of the rows, nor do the others where no two rows tie.
-/

set_option linter.dupNamespace false

namespace Workbench.FactorData
open Universe List
variable {ticker : String} {row row' : TickerRow} {φ : Type} {store store' : Store φ} {d : Int}

/-! ## The truncated store -/

/-- The dates of the remaining prices of a ticker. -/
def pricesBy (store : Store φ) (d : Int) (ticker : String) : List Int :=
  (store.sep.filter fun r => r.date ≤ d ∧ r.ticker = ticker).map (·.date)

/-- A lifetime cut to the remaining prices of its name; none without any. -/
def cut (store : Store φ) (d : Int) (row : TickerRow) : Option TickerRow :=
  (pricesBy store d row.ticker).min?.bind fun low => (pricesBy store d row.ticker).max?.map fun high =>
    { row with
      firstpricedate := row.firstpricedate.map (max · low)
      lastpricedate := row.lastpricedate.map (min · high) }

lemma mem_pricesBy {x : Int} :
    x ∈ pricesBy store d ticker ↔ x ≤ d ∧ ∃ r ∈ store.sep, r.ticker = ticker ∧ r.date = x := by
  rw [pricesBy, mem_map]
  constructor
  · intro ⟨r, mem, eq⟩
    rw [mem_filter, decide_eq_true_eq] at mem
    exact ⟨eq ▸ mem.2.1, r, mem.1, mem.2.2, eq⟩
  · intro ⟨le, r, mem, ticker, eq⟩
    refine ⟨r, mem_filter.2 ⟨mem, decide_eq_true ⟨?_, ticker⟩⟩, eq⟩
    rw [eq]
    exact le

lemma cut_eq_some (left : cut store d row = some row') :
    ∃ low high, low ∈ pricesBy store d row.ticker ∧ high ∈ pricesBy store d row.ticker ∧
      (∀ x ∈ pricesBy store d row.ticker, x ≤ high) ∧
      row' = { row with
        firstpricedate := row.firstpricedate.map (max · low)
        lastpricedate := row.lastpricedate.map (min · high) } := by
  rw [cut, Option.bind_eq_some_iff] at left
  obtain ⟨low, least, left⟩ := left
  rw [Option.map_eq_some_iff] at left
  obtain ⟨high, greatest, rfl⟩ := left
  exact ⟨low, high, min?_mem least, max?_mem greatest, fun x mem => (max?_eq_some_iff.1 greatest).2 x mem, rfl⟩

lemma exists_cut {x : Int} (mem : x ∈ pricesBy store d row.ticker) : ∃ row', cut store d row = some row' := by
  rw [cut]
  cases prices : pricesBy store d row.ticker with
  | nil =>
    rw [prices] at mem
    cases mem
  | cons y ys => exact ⟨_, rfl⟩

lemma ticker_of_cut (left : cut store d row = some row') : row'.ticker = row.ticker := by
  obtain ⟨low, high, -, -, -, rfl⟩ := cut_eq_some left
  rfl

lemma permaticker_of_cut (left : cut store d row = some row') : row'.permaticker = row.permaticker := by
  obtain ⟨low, high, -, -, -, rfl⟩ := cut_eq_some left
  rfl

lemma tickers_key_cut : ((store.tickers.filterMap (cut store d)).map (·.ticker)).Nodup := by
  have distinct := store.tickers_key
  rw [List.Nodup, pairwise_map] at distinct ⊢
  rw [pairwise_filterMap]
  apply distinct.imp
  intro a b ne a' left b' left'
  rw [ticker_of_cut left, ticker_of_cut left']
  exact ne

/-- What a store held of what was known by a date. -/
def truncate (store : Store φ) (d : Int) : Store φ where
  sep := store.sep.filter fun r => r.date ≤ d
  tickers := store.tickers.filterMap (cut store d)
  sf1 := store.sf1.filter fun r => r.datekey ≤ d
  fundamentals := store.fundamentals.filter fun r => r.known.any (· < midnight (d + 1))
  sep_key := store.sep_key.sublist (filter_sublist.map _)
  tickers_key := tickers_key_cut
  sf1_key := store.sf1_key.sublist (filter_sublist.map _)
  fundamentals_key := store.fundamentals_key.sublist (filter_sublist.map _)

def TradesOn (store : Store φ) (d : Int) (ticker : String) : Prop := ∃ r ∈ store.sep, r.ticker = ticker ∧ r.date = d

instance (ticker : String) : Decidable (TradesOn store d ticker) := inferInstanceAs (Decidable (∃ r ∈ store.sep, _))

lemma alive_of_cut (left : cut store d row = some row') : Alive row' d ↔ Alive row d ∧ TradesOn store d row.ticker := by
  obtain ⟨low, high, first, last, greatest, rfl⟩ := cut_eq_some left
  have early := (mem_pricesBy.1 first).1
  obtain ⟨late, r, stored, same, date⟩ := mem_pricesBy.1 last
  constructor
  · intro ⟨⟨_, cutFirst, fle⟩, _, cutLast, lel⟩
    obtain ⟨f, begins, rfl⟩ := Option.map_eq_some_iff.1 cutFirst
    obtain ⟨l, ends, rfl⟩ := Option.map_eq_some_iff.1 cutLast
    have at_last : d ≤ high := lel.trans (min_le_right _ _)
    refine ⟨⟨⟨f, begins, (le_max_left _ _).trans fle⟩, l, ends, lel.trans (min_le_left _ _)⟩, r, stored, same, ?_⟩
    rw [date]
    exact le_antisymm late at_last
  · intro ⟨⟨⟨f, begins, fle⟩, l, ends, lel⟩, trades⟩
    have at_last : d ≤ high := greatest d (mem_pricesBy.2 ⟨le_rfl, trades⟩)
    exact ⟨⟨_, Option.map_eq_some_iff.2 ⟨f, begins, rfl⟩, max_le fle early⟩,
      _, Option.map_eq_some_iff.2 ⟨l, ends, rfl⟩, le_min lel at_last⟩

lemma listed_truncate :
    Listed (truncate store d).tickers ticker d ↔ Listed store.tickers ticker d ∧ TradesOn store d ticker := by
  constructor
  · intro ⟨row', mem, named, alive⟩
    obtain ⟨row, stored, left⟩ := mem_filterMap.1 mem
    rw [ticker_of_cut left] at named
    obtain ⟨alive, trades⟩ := (alive_of_cut left).1 alive
    rw [named] at trades
    exact ⟨⟨row, stored, named, alive⟩, trades⟩
  · intro ⟨⟨row, stored, named, alive⟩, trades⟩
    rw [← named] at trades
    obtain ⟨row', left⟩ := exists_cut (mem_pricesBy.2 ⟨le_rfl, trades⟩)
    exact ⟨row', mem_filterMap.2 ⟨row, stored, left⟩, (ticker_of_cut left).trans named,
      (alive_of_cut left).2 ⟨alive, trades⟩⟩

lemma filter_kept {α : Type} {keep read : α → Bool} {l : List α} (kept : ∀ x, read x = true → keep x = true) :
    (l.filter keep).filter read = l.filter read := by
  rw [filter_filter]
  apply filter_congr
  intro x _
  cases taken : read x with
  | false => rfl
  | true => rw [kept x taken, Bool.and_self]

/-! ## The fundamentals -/

lemma getFundamentals_truncate {period : Option String} :
    getFundamentals (truncate store d) ticker (some d) period = getFundamentals store ticker (some d) period := by
  rw [getFundamentals, getFundamentals, truncate]
  congr 1
  apply filter_kept
  intro r taken
  have known := (of_decide_eq_true taken).2.1 d rfl
  rw [Option.any_eq_true] at known ⊢
  obtain ⟨t, eq, le⟩ := known
  refine ⟨t, eq, decide_eq_true ((of_decide_eq_true le).trans_lt ?_)⟩
  rw [midnight, midnight]
  omega

lemma sf1Known_truncate {tickers : List String} {dimension : String} :
    sf1Known (truncate store d) tickers d dimension = sf1Known store tickers d dimension := by
  rw [sf1Known, sf1Known, truncate]
  apply filter_kept
  intro r taken
  exact decide_eq_true (of_decide_eq_true taken).2.1

lemma getSf1Asof_truncate {tickers : List String} {dimension : String} :
    getSf1Asof (truncate store d) tickers d dimension = getSf1Asof store tickers d dimension := by
  rw [getSf1Asof, getSf1Asof, sf1Known_truncate]

/-! ## The universe -/

section Universe
variable [LinearOrder φ] [Zero φ] {D : Doubles φ} {lookbackDays : Int}

omit [LinearOrder φ] [Zero φ] in
lemma window_truncate : window (truncate store d) d lookbackDays = window store d lookbackDays := by
  rw [window, window, truncate]
  apply filter_kept
  intro r taken
  exact decide_eq_true (of_decide_eq_true taken).2

lemma members_truncate : members D (truncate store d) d lookbackDays =
    (members D store d lookbackDays).filter fun m => TradesOn store d (ofLex m).2 := by
  rw [members, members, window_truncate, filter_filterMap]
  congr 1
  funext t
  cases dollarVolume D (window store d lookbackDays) t with
  | none => rfl
  | some v =>
    rw [Option.bind_some, Option.bind_some]
    split
    · rename_i left
      obtain ⟨listed, trades⟩ := listed_truncate.1 left.1
      rw [if_pos ⟨listed, left.2⟩]
      have kept : decide (TradesOn store d (ofLex (toLex (OrderDual.toDual v, t))).2) = true := decide_eq_true trades
      rw [Option.filter_some, if_pos kept]
    · rename_i gone
      split
      · rename_i ranked
        symm
        rw [Option.filter_eq_none_iff]
        rintro m eq trades
        obtain rfl := Option.some.inj eq
        exact gone ⟨listed_truncate.2 ⟨ranked.1, of_decide_eq_true trades⟩, ranked.2⟩
      · rfl

lemma insertionSort_filter {α : Type} [LinearOrder α] {test : α → Bool} {l : List α} :
    (l.filter test).insertionSort (· ≤ ·) = (l.insertionSort (· ≤ ·)).filter test := by
  have perm : List.Perm ((l.filter test).insertionSort (· ≤ ·)) ((l.insertionSort (· ≤ ·)).filter test) :=
    (perm_insertionSort _ _).trans ((perm_insertionSort _ l).symm.filter test)
  exact perm.eq_of_pairwise' (pairwise_insertionSort _ _) ((pairwise_insertionSort _ _).filter test)

lemma ranking_truncate : ranking D (truncate store d) d lookbackDays =
    (ranking D store d lookbackDays).filter fun t => TradesOn store d t := by
  rw [ranking, ranking, members_truncate, insertionSort_filter, filter_map]
  rfl

lemma dollarVolumeUniverse_truncate {n : Nat} : dollarVolumeUniverse D (truncate store d) d n lookbackDays =
    ((ranking D store d lookbackDays).filter fun t => TradesOn store d t).take n := by
  rw [dollarVolumeUniverse, ranking_truncate]

lemma dollarVolumeUniverse_truncate_iff :
    (∀ n, dollarVolumeUniverse D (truncate store d) d n lookbackDays = dollarVolumeUniverse D store d n lookbackDays) ↔
      ∀ t ∈ ranking D store d lookbackDays, TradesOn store d t := by
  constructor
  · intro same t mem
    have whole := same (ranking D store d lookbackDays).length
    rw [dollarVolumeUniverse_truncate, dollarVolumeUniverse, take_length,
      take_of_length_le (length_filter_le _ _), filter_eq_self] at whole
    exact of_decide_eq_true (whole t mem)
  · intro trade n
    have whole : (ranking D store d lookbackDays).filter (fun t => TradesOn store d t) =
        ranking D store d lookbackDays := by
      rw [filter_eq_self]
      exact fun t mem => decide_eq_true (trade t mem)
    rw [dollarVolumeUniverse_truncate, whole, dollarVolumeUniverse]

end Universe

/-! ## The identity -/

section Identity
variable {ticker : String} {asOf : Int} {p : String}

lemma permatickerAsof_eq_some {table : List TickerRow} : permatickerAsof table ticker asOf = some p ↔
    ∃ row, (table.filter fun row => upper row.ticker = upper ticker) = [row] ∧ row.permaticker = some p ∧ p ≠ "" ∧
      Alive row asOf := by
  rw [permatickerAsof]
  constructor
  · intro found
    split at found
    · rename_i t q first last claimed
      split at found
      · rename_i valid
        obtain rfl := Option.some.inj found
        exact ⟨_, claimed, rfl, valid.1, ⟨first, rfl, valid.2.1⟩, last, rfl, valid.2.2⟩
      · cases found
    · cases found
  · intro ⟨⟨t, q, first, last⟩, claimed, named, nonempty, ⟨f, begins, fle⟩, l, ends, lel⟩
    obtain rfl : q = some p := named
    obtain rfl : first = some f := begins
    obtain rfl : last = some l := ends
    rw [claimed]
    exact if_pos ⟨nonempty, fle, lel⟩

lemma claimed_truncate : ((truncate store d).tickers.filter fun row => upper row.ticker = upper ticker) =
    (store.tickers.filter fun row => upper row.ticker = upper ticker).filterMap (cut store d) := by
  rw [truncate, filter_filterMap, filterMap_filter]
  congr 1
  funext row
  cases left : cut store d row with
  | none => simp
  | some row' => simp [Option.filter_some, ticker_of_cut left]

lemma permatickerAsof_truncate_of_some {row : TickerRow} (found : permatickerAsof store.tickers ticker d = some p)
    (stored : row ∈ store.tickers) (claims : upper row.ticker = upper ticker) :
    permatickerAsof (truncate store d).tickers ticker d = if TradesOn store d row.ticker then some p else none := by
  obtain ⟨row', claimed, named, nonempty, alive⟩ := permatickerAsof_eq_some.1 found
  have mem : row ∈ store.tickers.filter fun row => upper row.ticker = upper ticker :=
    mem_filter.2 ⟨stored, decide_eq_true claims⟩
  rw [claimed, mem_singleton] at mem
  obtain rfl := mem
  split
  · rename_i trades
    obtain ⟨cutRow, left⟩ := exists_cut (mem_pricesBy.2 ⟨le_rfl, trades⟩)
    refine permatickerAsof_eq_some.2 ⟨cutRow, ?_, (permaticker_of_cut left).trans named, nonempty,
      (alive_of_cut left).2 ⟨alive, trades⟩⟩
    rw [claimed_truncate, claimed, filterMap_cons, left, filterMap_nil]
  · rename_i still
    cases answer : permatickerAsof (truncate store d).tickers ticker d with
    | none => rfl
    | some q =>
      obtain ⟨cutRow, claimed', -, -, alive'⟩ := permatickerAsof_eq_some.1 answer
      rw [claimed_truncate, claimed, filterMap_cons, filterMap_nil] at claimed'
      cases left : cut store d row with
      | none =>
        rw [left] at claimed'
        cases claimed'
      | some row' =>
        rw [left] at claimed'
        obtain rfl := singleton_inj.1 claimed'
        exact absurd ((alive_of_cut left).1 alive').2 still

lemma permatickerAsof_truncate_of_none (nothing : permatickerAsof store.tickers ticker d = none)
    (one : (store.tickers.filter fun row => upper row.ticker = upper ticker).length ≤ 1) :
    permatickerAsof (truncate store d).tickers ticker d = none := by
  rw [Option.eq_none_iff_forall_ne_some]
  intro p answer
  obtain ⟨cutRow, claimed', named, nonempty, alive⟩ := permatickerAsof_eq_some.1 answer
  rw [claimed_truncate] at claimed'
  match claimed : store.tickers.filter fun row => upper row.ticker = upper ticker with
  | [] =>
    rw [claimed] at claimed'
    cases claimed'
  | [row] =>
    rw [claimed, filterMap_cons, filterMap_nil] at claimed'
    cases left : cut store d row with
    | none =>
      rw [left] at claimed'
      cases claimed'
    | some row' =>
      rw [left] at claimed'
      obtain rfl := singleton_inj.1 claimed'
      have found := permatickerAsof_eq_some.2 ⟨row, claimed, (permaticker_of_cut left).symm.trans named, nonempty,
        ((alive_of_cut left).1 alive).1⟩
      rw [nothing] at found
      cases found
  | _ :: _ :: _ =>
    rw [claimed] at one
    simp at one

end Identity

/-! ## The order of rows -/

/-- Two stores with the same rows, each table in an order of its own. -/
structure Reordered (store store' : Store φ) : Prop where
  sep : List.Perm store.sep store'.sep
  tickers : List.Perm store.tickers store'.tickers
  sf1 : List.Perm store.sf1 store'.sf1
  fundamentals : List.Perm store.fundamentals store'.fundamentals

lemma insertionSort_of_untied {α β : Type} [LinearOrder β] {f : α → β} {l l' : List α} (perm : List.Perm l l')
    (untied : ∀ a ∈ l, ∀ b ∈ l, f a = f b → a = b) :
    (l.insertionSort fun a b => f b ≤ f a) = l'.insertionSort fun a b => f b ≤ f a := by
  have sorted : ∀ m : List α, (m.insertionSort fun a b => f b ≤ f a).Pairwise fun a b => f b ≤ f a :=
    fun m => pairwise_insertionSort _ m
  have same := ((perm_insertionSort (fun a b => f b ≤ f a) l).trans perm).trans
    (perm_insertionSort (fun a b => f b ≤ f a) l').symm
  apply same.eq_of_pairwise ?_ (sorted l) (sorted l')
  intro a b mem mem' ge le
  rw [mem_insertionSort] at mem mem'
  exact untied a mem b (perm.mem_iff.2 mem') (le_antisymm le ge)

lemma permatickerAsof_reordered {asOf : Int} (same : Reordered store store') :
    permatickerAsof store'.tickers ticker asOf = permatickerAsof store.tickers ticker asOf := by
  have claimed := same.tickers.filter fun row => upper row.ticker = upper ticker
  apply Option.ext
  intro p
  rw [permatickerAsof_eq_some, permatickerAsof_eq_some]
  constructor
  · intro ⟨row, one, rest⟩
    rw [one] at claimed
    exact ⟨row, perm_singleton.1 claimed, rest⟩
  · intro ⟨row, one, rest⟩
    rw [one] at claimed
    exact ⟨row, perm_singleton.1 claimed.symm, rest⟩

lemma getFundamentals_reordered {asOf : Option Int} {period : Option String} (same : Reordered store store')
    (untied : ∀ r ∈ getFundamentals store ticker asOf period, ∀ r' ∈ getFundamentals store ticker asOf period,
      r.periodEnd = r'.periodEnd → r = r') :
    getFundamentals store' ticker asOf period = getFundamentals store ticker asOf period := by
  symm
  apply insertionSort_of_untied (same.fundamentals.filter _)
  intro a mem b mem'
  exact untied a ((mem_insertionSort _).2 mem) b ((mem_insertionSort _).2 mem')

lemma untied_of_period {p : String} {asOf : Option Int} {r r' : Fundamental φ}
    (mem : r ∈ getFundamentals store ticker asOf (some p)) (mem' : r' ∈ getFundamentals store ticker asOf (some p))
    (tied : r.periodEnd = r'.periodEnd) : r = r' := by
  rw [getFundamentals, mem_insertionSort, mem_filter, decide_eq_true_eq] at mem mem'
  obtain ⟨stored, named, -, period⟩ := mem
  obtain ⟨stored', named', -, period'⟩ := mem'
  apply inj_on_of_nodup_map store.fundamentals_key stored stored'
  rw [named, named', tied, period p rfl, period' p rfl]

def IsLatest (rows : List (Sf1Row φ)) (r : Sf1Row φ) : Prop :=
  r ∈ rows ∧ ∀ x ∈ rows, x.ticker = r.ticker → x.datekey ≤ r.datekey

lemma isLatest_of_firstRow {rows : List (Sf1Row φ)} {t : String} {r : Sf1Row φ} (first : firstRow rows t = some r) :
    r.ticker = t ∧ IsLatest rows r := by
  have sorted : ((rows.filter (·.ticker = t)).insertionSort fun a b => b.datekey ≤ a.datekey).Pairwise
      fun a b => b.datekey ≤ a.datekey := pairwise_insertionSort _ _
  rw [firstRow, head?_eq_some_iff] at first
  obtain ⟨rest, first⟩ := first
  have among : ∀ x, x ∈ rows.filter (·.ticker = t) ↔ x = r ∨ x ∈ rest := by
    intro x
    rw [← mem_insertionSort (fun a b => b.datekey ≤ a.datekey), first, mem_cons]
  obtain ⟨mem, named⟩ := mem_filter.1 ((among r).2 (.inl rfl))
  have named : r.ticker = t := of_decide_eq_true named
  refine ⟨named, mem, ?_⟩
  intro x memx same
  rw [first, pairwise_cons] at sorted
  rcases (among x).1 (mem_filter.2 ⟨memx, decide_eq_true (same.trans named)⟩) with rfl | later
  · exact le_rfl
  · exact sorted.1 x later

lemma firstRow_isSome {rows : List (Sf1Row φ)} {r : Sf1Row φ} (mem : r ∈ rows) : ∃ r', firstRow rows r.ticker =
    some r' := by
  rw [firstRow, ← Option.isSome_iff_exists, isSome_head?]
  intro empty
  have mem' : r ∈ (rows.filter (·.ticker = r.ticker)).insertionSort fun a b => b.datekey ≤ a.datekey :=
    (mem_insertionSort _).2 (mem_filter.2 ⟨mem, decide_eq_true rfl⟩)
  rw [empty] at mem'
  cases mem'

lemma IsLatest.perm {rows rows' : List (Sf1Row φ)} {r : Sf1Row φ} (latest : IsLatest rows r)
    (perm : List.Perm rows rows') : IsLatest rows' r :=
  ⟨perm.mem_iff.1 latest.1, fun x mem => latest.2 x (perm.mem_iff.2 mem)⟩

lemma getSf1Asof_reordered {tickers : List String} {asOf : Int} {dimension : String} (same : Reordered store store')
    (untied : ∀ r r', IsLatest (sf1Known store tickers asOf dimension) r →
      IsLatest (sf1Known store tickers asOf dimension) r' → r.ticker = r'.ticker → r.figure = r'.figure) :
    List.Perm (getSf1Asof store' tickers asOf dimension) (getSf1Asof store tickers asOf dimension) := by
  have rows : List.Perm (sf1Known store tickers asOf dimension) (sf1Known store' tickers asOf dimension) :=
    same.sf1.filter _
  have first : ∀ t, (firstRow (sf1Known store' tickers asOf dimension) t).map (fun r => (t, r.figure)) =
      (firstRow (sf1Known store tickers asOf dimension) t).map fun r => (t, r.figure) := by
    intro t
    cases one : firstRow (sf1Known store tickers asOf dimension) t with
    | none =>
      cases other : firstRow (sf1Known store' tickers asOf dimension) t with
      | none => rfl
      | some r' =>
        obtain ⟨rfl, latest⟩ := isLatest_of_firstRow other
        obtain ⟨r, found⟩ := firstRow_isSome (latest.perm rows.symm).1
        rw [one] at found
        cases found
    | some r =>
      obtain ⟨rfl, latest⟩ := isLatest_of_firstRow one
      obtain ⟨r', other⟩ := firstRow_isSome (latest.perm rows).1
      obtain ⟨named, latest'⟩ := isLatest_of_firstRow other
      rw [other, Option.map_some, Option.map_some, untied r r' latest (latest'.perm rows.symm) named.symm]
  rw [getSf1Asof, getSf1Asof]
  split
  · exact .nil
  · simp only [first]
    exact ((rows.symm.map _).dedup).filterMap _

section Universe
variable [LinearOrder φ] [Zero φ] {D : Doubles φ} {asOf lookbackDays : Int} {n : Nat}

omit [LinearOrder φ] [Zero φ] in
lemma dollarVolume_perm {rows rows' : List (SepRow φ)} {t : String} (exact : D.Exact) (perm : List.Perm rows rows') :
    dollarVolume D rows' t = dollarVolume D rows t := by
  have products := (perm.filter (·.ticker = t)).filterMap fun r =>
    r.close.bind fun close => r.volume.map fun volume => D.times close volume
  rw [dollarVolume, dollarVolume]
  rw [exact _ _ products]
  simp only [← length_eq_zero_iff, products.length_eq]

lemma dollarVolumeUniverse_reordered (exact : D.Exact) (same : Reordered store store') :
    dollarVolumeUniverse D store' asOf n lookbackDays = dollarVolumeUniverse D store asOf n lookbackDays := by
  have rows : List.Perm (window store asOf lookbackDays) (window store' asOf lookbackDays) := same.sep.filter _
  have listed : ∀ t, Listed store'.tickers t asOf ↔ Listed store.tickers t asOf := by
    intro t
    simp only [Listed, same.tickers.mem_iff]
  have ranked : List.Perm (members D store' asOf lookbackDays) (members D store asOf lookbackDays) := by
    rw [members, members]
    simp only [dollarVolume_perm exact rows, listed]
    exact ((rows.symm.map _).dedup).filterMap _
  have sorted : (members D store' asOf lookbackDays).insertionSort (· ≤ ·) =
      (members D store asOf lookbackDays).insertionSort (· ≤ ·) :=
    (((perm_insertionSort _ _).trans ranked).trans (perm_insertionSort _ _).symm).eq_of_pairwise'
      (pairwise_insertionSort _ _) (pairwise_insertionSort _ _)
  rw [dollarVolumeUniverse, dollarVolumeUniverse, ranking, ranking, sorted]

/-- On the truncated store the universe loses the names that do not trade on the date; the SF1 rows and the
fundamentals are the same, and no identity is added where no two rows claim the ticker. No read depends on the order
of the rows. -/
theorem reads_point_in_time (D : Doubles φ) (store : Store φ) (d : Int) :
    (∀ lookbackDays n, dollarVolumeUniverse D (truncate store d) d n lookbackDays =
      ((ranking D store d lookbackDays).filter fun t => TradesOn store d t).take n) ∧ (∀ lookbackDays, (∀ n,
        dollarVolumeUniverse D (truncate store d) d n lookbackDays = dollarVolumeUniverse D store d n lookbackDays) ↔
      ∀ t ∈ ranking D store d lookbackDays, TradesOn store d t) ∧
    (∀ tickers dimension, getSf1Asof (truncate store d) tickers d dimension = getSf1Asof store tickers d dimension) ∧
    (∀ ticker period,
      getFundamentals (truncate store d) ticker (some d) period = getFundamentals store ticker (some d) period) ∧
    (∀ ticker p row, permatickerAsof store.tickers ticker d = some p → row ∈ store.tickers →
      upper row.ticker = upper ticker →
        permatickerAsof (truncate store d).tickers ticker d = if TradesOn store d row.ticker then some p else none) ∧
    (∀ ticker, permatickerAsof store.tickers ticker d = none →
      (store.tickers.filter fun row => upper row.ticker = upper ticker).length ≤ 1 →
        permatickerAsof (truncate store d).tickers ticker d = none) ∧ ∀ store', Reordered store store' →
      (D.Exact → ∀ asOf n lookbackDays,
        dollarVolumeUniverse D store' asOf n lookbackDays = dollarVolumeUniverse D store asOf n lookbackDays) ∧
      (∀ ticker asOf, permatickerAsof store'.tickers ticker asOf = permatickerAsof store.tickers ticker asOf) ∧
      (∀ ticker asOf p, getFundamentals store' ticker asOf (some p) = getFundamentals store ticker asOf (some p)) ∧
      (∀ ticker asOf, (∀ r ∈ getFundamentals store ticker asOf none, ∀ r' ∈ getFundamentals store ticker asOf none,
          r.periodEnd = r'.periodEnd → r = r') →
        getFundamentals store' ticker asOf none = getFundamentals store ticker asOf none) ∧ ∀ tickers asOf dimension,
        (∀ r r', IsLatest (sf1Known store tickers asOf dimension) r →
          IsLatest (sf1Known store tickers asOf dimension) r' → r.ticker = r'.ticker → r.figure = r'.figure) →
        List.Perm (getSf1Asof store' tickers asOf dimension) (getSf1Asof store tickers asOf dimension) := by
  refine ⟨fun _ _ => dollarVolumeUniverse_truncate, fun _ => dollarVolumeUniverse_truncate_iff,
    fun _ _ => getSf1Asof_truncate, fun _ _ => getFundamentals_truncate,
    fun _ _ _ found stored claims => permatickerAsof_truncate_of_some found stored claims,
    fun _ nothing one => permatickerAsof_truncate_of_none nothing one, ?_⟩
  intro store' same
  refine ⟨fun exact _ _ _ => dollarVolumeUniverse_reordered exact same, fun _ _ => permatickerAsof_reordered same, ?_,
    fun _ _ untied => getFundamentals_reordered same untied, fun _ _ _ untied => getSf1Asof_reordered same untied⟩
  intro ticker asOf p
  apply getFundamentals_reordered same
  intro r mem r' mem' tied
  exact untied_of_period mem mem' tied

end Universe

/-! ## A store -/

def rationals : Doubles ℚ where
  times close volume := close * volume
  sum := List.sum

def halted : Store ℚ where
  sep := [⟨"HALT", 1, some 10, some 100⟩, ⟨"HALT", 3, some 10, some 100⟩]
  tickers := [⟨"HALT", some "199059", some 1, some 3⟩]
  sf1 := [⟨"HALT", "ART", -90, 1, fun _ => some 20⟩, ⟨"HALT", "ART", 0, 1, fun _ => some 30⟩]
  fundamentals := []
  sep_key := by decide +kernel
  tickers_key := by decide +kernel
  sf1_key := by decide +kernel
  fundamentals_key := by decide +kernel

def restated : Store ℚ where
  sep := halted.sep
  tickers := halted.tickers
  sf1 := halted.sf1.reverse
  fundamentals := halted.fundamentals
  sep_key := halted.sep_key
  tickers_key := halted.tickers_key
  sf1_key := by decide +kernel
  fundamentals_key := halted.fundamentals_key

/-- On day 3 the name trades. -/
theorem reads_point_in_time_trading :
    dollarVolumeUniverse rationals (truncate halted 3) 3 10 30 = dollarVolumeUniverse rationals halted 3 10 30 := by
  apply ((reads_point_in_time rationals halted 3).2.1 30).2
  decide +kernel

/-- On day 2 the name is a member, and has an identity, by its later price; and the order of two SF1 rows of one date
key decides which is read. -/
theorem halted_by_later_price_and_tied :
    dollarVolumeUniverse rationals (truncate halted 2) 2 10 30 ≠ dollarVolumeUniverse rationals halted 2 10 30 ∧
    permatickerAsof (truncate halted 2).tickers "HALT" 2 ≠ permatickerAsof halted.tickers "HALT" 2 ∧
    Reordered halted restated ∧ (getSf1Asof halted ["HALT"] 2 "ART").map (fun row => row.2 .pe) ≠
      (getSf1Asof restated ["HALT"] 2 "ART").map fun row => row.2 .pe := by
  refine ⟨by decide +kernel, by decide +kernel, ⟨.refl _, .refl _, (reverse_perm _).symm, .refl _⟩, by decide +kernel⟩

end Workbench.FactorData
