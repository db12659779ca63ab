import Mathlib.Data.String.Basic
import Workbench.Validation.BridgeRisk

/-!
# What an eligible lineage rests on

The predecessor of a rename is looked up with `fetchone`: where its symbol has several rows, or several renames share
a date, the row that is stored first decides. `resolveLineage_contract_iff`: the resolution is sound and does not
depend on the order of the rows exactly when one row of one predecessor cannot differ from another.
-/

set_option linter.dupNamespace false

namespace Workbench.Validation
open Lib Lib.Holes List

/-! ## The contract -/

/-- The permanent id of a row, as it is compared. -/
def TickerRow.perma (r : TickerRow) : Option String := r.permaticker.map strip

/-- The effective interval of a row contains a session. -/
def TickerRow.activeAt (r : TickerRow) (session : Date) : Bool :=
  r.firstpricedate.any (· ≤ session) && r.lastpricedate.any (session ≤ ·)

/-- Exactly one row of a symbol is active at a session, and it carries the permanent id. -/
structure ActiveLineage (store : LineageStore) (ticker : String) (session : Date) (perma : String)
    (first last : Date) : Prop where
  only : ∃ row, store.tickers.filter (fun r => r.ticker = ticker && r.activeAt session) = [row] ∧
    row.perma = some perma ∧ row.firstpricedate = some first ∧ row.lastpricedate = some last
  named : perma ≠ ""

/-- A symbol was renamed from a predecessor inside the lookback. -/
def Renamed (store : LineageStore) (ticker : String) (lookback session date : Date) (predecessor : Option String) :
    Prop :=
  ∃ a ∈ store.actions, a.action = "tickerchangefrom" ∧ a.ticker = ticker ∧ a.date = some date ∧
    a.contraticker = predecessor ∧ lookback < date ∧ date ≤ session

/-- A row of a predecessor carries another permanent id. -/
def CarriesOther (store : LineageStore) (perma : String) (predecessor : Option String) : Prop :=
  ∃ r ∈ store.tickers, r.ticker = predecessor.getD "None" ∧ ∃ other, r.perma = some other ∧ other ≠ perma

/-- What an eligible decision promises. -/
structure SingleLineage (store : LineageStore) (ticker : String) (session lookback : Date) (perma : String) : Prop where
  active : ∃ first last, ActiveLineage store ticker session perma first last ∧
    ∀ start n, Hole (presence store.sep (sessionsBetween store.sep (max lookback first) (min session last)) ticker)
      start n → n < 20
  predecessors : ∀ date predecessor, Renamed store ticker lookback session date (some predecessor) →
    ¬ CarriesOther store perma (some predecessor)

/-- Two stores hold the same rows, in any order. -/
structure SameRows (store store' : LineageStore) : Prop where
  columns : store.columns = store'.columns
  tickers : store.tickers.Perm store'.tickers
  actions : store.actions.Perm store'.actions
  sep : store.sep.Perm store'.sep

/-- The resolution of a symbol is sound and does not depend on how the rows are stored or the sessions are come by, and
    the filter of the session keeps what the assessment keeps, in order. -/
structure LineageContract (store : LineageStore) (ticker : String) (session lookback : Date) : Prop where
  sound : ∀ perma, (resolveLineage store ticker session lookback none).eligible = true →
    (resolveLineage store ticker session lookback none).permaticker = perma →
      ∃ p, perma = some p ∧ SingleLineage store ticker session lookback p
  rowOrder : ∀ store', SameRows store store' →
    resolveLineage store' ticker session lookback none = resolveLineage store ticker session lookback none
  sessionList : resolveLineage store ticker session lookback (some (sessionsBetween store.sep lookback session)) =
    resolveLineage store ticker session lookback none
  filter : ∀ f, SessionLineageFilter.start store session lookback = .ok f → ∀ calls : List (List String),
    List.Forall₂ (fun candidates kept => ∃ a, assessUniverse store candidates session lookback = .ok a ∧
      kept = a.eligibleTickers ∧ kept.Sublist candidates) calls (f.calls calls)

/-- The resolution does not get to the renames; or no predecessor has a row with another permanent id; or at the first
    date at which one has, one predecessor decides, and all of its rows carry the same id. -/
def Decisive (store : LineageStore) (ticker : String) (session lookback : Date) : Prop :=
  ∀ perma first last, ActiveLineage store ticker session perma first last →
    (∀ date predecessor, Renamed store ticker lookback session date predecessor →
      ¬ CarriesOther store perma predecessor) ∨
    ∃ date predecessor other, other ≠ perma ∧ Renamed store ticker lookback session date predecessor ∧
      (∃ r ∈ store.tickers, r.ticker = predecessor.getD "None") ∧
      (∀ r ∈ store.tickers, r.ticker = predecessor.getD "None" → r.perma = some other) ∧
      ∀ date' predecessor', Renamed store ticker lookback session date' predecessor' →
        CarriesOther store perma predecessor' → date < date' ∨ date' = date ∧ predecessor' = predecessor

/-! ## Stored in any order -/

section Order

variable {store store' : LineageStore} {ticker : String} {session lookback : Date}

lemma mergeSort_eq {α : Type*} [LinearOrder α] {l l' : List α} (perm : l.Perm l') :
    l.mergeSort (fun a b => decide (a ≤ b)) = l'.mergeSort (fun a b => decide (a ≤ b)) := by
  have sorted (l : List α) : (l.mergeSort fun a b => decide (a ≤ b)).Pairwise (· ≤ ·) := by
    simpa using @pairwise_mergeSort α (fun a b => decide (a ≤ b)) (by simpa using fun _ _ _ => le_trans)
      (by simpa using le_total) l
  apply List.Perm.eq_of_pairwise _ (sorted l) (sorted l')
  · exact (mergeSort_perm _ _).trans (perm.trans (mergeSort_perm _ _).symm)
  · intro a b _ _ le ge
    exact le_antisymm le ge

lemma sessionsBetween_perm {sep sep' : List SepRow} (perm : sep.Perm sep') {start stop : Date} :
    sessionsBetween sep start stop = sessionsBetween sep' start stop := by
  apply mergeSort_eq
  apply List.Perm.dedup
  exact (perm.map _).filter _

lemma marksBetween_perm {sep sep' : List SepRow} (perm : sep.Perm sep') {start stop : Date} :
    (marksBetween sep ticker start stop).Perm (marksBetween sep' ticker start stop) :=
  (perm.filter _).map _

lemma priceRefusal_perm (same : SameRows store store') {perma : String} {first last : Date}
    {sessions : Option (List Date)} :
    priceRefusal store' ticker perma first last lookback session sessions =
      priceRefusal store ticker perma first last lookback session sessions := by
  have marks := @marksBetween_perm ticker _ _ same.sep (max lookback first) (min session last)
  have none : marksBetween store'.sep ticker (max lookback first) (min session last) = [] ↔
      marksBetween store.sep ticker (max lookback first) (min session last) = [] := by
    constructor
    · intro eq
      rwa [eq, perm_nil] at marks
    · intro eq
      rwa [eq, nil_perm] at marks
  simp only [priceRefusal, sessionsBetween_perm same.sep, none, marks.mem_iff]

lemma activeAt_eq {rows : List TickerRow} : activeAt rows session =
    (rows.filter (·.activeAt session)).filterMap fun r =>
      r.firstpricedate.bind fun first => r.lastpricedate.map fun last => (r.permaticker, first, last) := by
  induction rows with
  | nil => rfl
  | cons r rows ih =>
    rw [activeAt] at ih ⊢
    rw [filterMap_cons, filter_cons, ih]
    rcases r with ⟨symbol, permaticker, _ | first, _ | last⟩
    · simp [TickerRow.activeAt]
    · simp [TickerRow.activeAt]
    · simp [TickerRow.activeAt]
    · have active : (TickerRow.mk symbol permaticker (some first) (some last)).activeAt session =
          decide (first ≤ session ∧ session ≤ last) := by simp [TickerRow.activeAt]
      by_cases within : first ≤ session ∧ session ≤ last
      · simp [active, within]
      · simp [active, within]

lemma activeLineage_perm (same : SameRows store store') :
    activeLineage store' ticker session = activeLineage store ticker session := by
  have perm : (store.tickers.filter (·.ticker = ticker)).Perm (store'.tickers.filter (·.ticker = ticker)) :=
    same.tickers.filter _
  rw [activeLineage, activeLineage]
  generalize store.tickers.filter (·.ticker = ticker) = rows at perm
  generalize store'.tickers.filter (·.ticker = ticker) = rows' at perm
  cases rows with
  | nil =>
    obtain rfl := nil_perm.1 perm
    rfl
  | cons row rows =>
    cases rows' with
    | nil => exact absurd (perm_nil.1 perm) (cons_ne_nil _ _)
    | cons row' rows' =>
      have perm : (activeAt (row :: rows) session).Perm (activeAt (row' :: rows') session) := perm.filterMap _
      simp only
      generalize activeAt (row :: rows) session = active at perm
      generalize activeAt (row' :: rows') session = active' at perm
      rcases active with _ | ⟨a, _ | ⟨b, active⟩⟩
      · obtain rfl := nil_perm.1 perm
        rfl
      · obtain rfl := singleton_perm.1 perm
        rfl
      · have length := perm.length_eq
        rcases active' with _ | ⟨a', _ | ⟨b', active'⟩⟩
        · cases length
        · simp at length
        · have names := mergeSort_eq (perm.map fun r => r.1.getD "None")
          simp only [length, names]

end Order

/-! ## The active lineage -/

section Active

variable {store store' : LineageStore} {ticker perma : String} {session lookback first last : Date}

lemma TickerRow.interval {row : TickerRow} (active : row.activeAt session = true) :
    ∃ first last, row.firstpricedate = some first ∧ row.lastpricedate = some last ∧ first ≤ last := by
  obtain ⟨begun, going⟩ := Bool.and_eq_true_iff.1 active
  obtain ⟨first, eq, le⟩ := (Option.any_eq_true _ _).1 begun
  obtain ⟨last, eq', ge⟩ := (Option.any_eq_true _ _).1 going
  exact ⟨first, last, eq, eq', (of_decide_eq_true le).trans (of_decide_eq_true ge)⟩

lemma activeLineage_eq_ok : activeLineage store ticker session = .ok (perma, first, last) ↔
    ActiveLineage store ticker session perma first last := by
  have rows : store.tickers.filter (fun r => r.ticker = ticker && r.activeAt session) =
      (store.tickers.filter (·.ticker = ticker)).filter (·.activeAt session) := by
    rw [filter_filter]
    simp only [Bool.and_comm]
  have sound : ∀ row ∈ (store.tickers.filter (·.ticker = ticker)).filter (·.activeAt session),
      ∃ first last, row.firstpricedate = some first ∧ row.lastpricedate = some last ∧ first ≤ last :=
    fun row mem => TickerRow.interval (mem_filter.1 mem).2
  have iff : ActiveLineage store ticker session perma first last ↔
      (∃ row, (store.tickers.filter (·.ticker = ticker)).filter (·.activeAt session) = [row] ∧
        row.perma = some perma ∧ row.firstpricedate = some first ∧ row.lastpricedate = some last) ∧ perma ≠ "" := by
    rw [← rows]
    exact ⟨fun h => ⟨h.only, h.named⟩, fun h => ⟨h.1, h.2⟩⟩
  rw [iff, activeLineage]
  generalize store.tickers.filter (·.ticker = ticker) = symbol at sound
  cases symbol with
  | nil => simp
  | cons row rows =>
    simp only
    rw [activeAt_eq]
    generalize (row :: rows).filter (·.activeAt session) = active at sound
    rcases active with _ | ⟨r, _ | ⟨r', active⟩⟩
    · simp
    · obtain ⟨first', last', eq, eq', le⟩ := sound r (mem_singleton.2 rfl)
      simp only [filterMap_cons, filterMap_nil, eq, eq', Option.bind_some, Option.map_some,
        TickerRow.perma, if_neg (not_lt.2 le), List.cons.injEq, and_true, exists_eq_left']
      split
      next none => simp [none]
      next blank =>
        rw [blank]
        constructor
        · intro ok
          cases ok
        · intro ⟨⟨same, _⟩, named⟩
          exact absurd (Option.some.inj same).symm named
      next id named some_ =>
        rw [some_]
        constructor
        · intro ok
          cases ok
          exact ⟨⟨rfl, rfl, rfl⟩, named⟩
        · intro ⟨⟨same, start, stop⟩, _⟩
          cases same
          cases start
          cases stop
          rfl
    · obtain ⟨first', last', eq, eq', -⟩ := sound r mem_cons_self
      obtain ⟨first₂, last₂, eq₂, eq₂', -⟩ := sound r' (mem_cons_of_mem _ mem_cons_self)
      simp [eq, eq', eq₂, eq₂']

end Active

/-! ## The renames -/

section Renames

variable {store store' : LineageStore} {ticker perma other : String} {session lookback date : Date}
  {predecessor : Option String}

def crossed (store : LineageStore) (perma : String) (c : Date × Option String) : Option
    (Date × Option String × String) :=
  (priorPerma store c.2).bind fun prior => if prior ≠ perma then some (c.1, c.2, prior) else none

lemma crossing_eq : crossing store ticker perma lookback session =
    (changes store ticker lookback session).findSome? (crossed store perma) := rfl

lemma crossed_eq_some {c : Date × Option String} {r : Date × Option String × String} :
    crossed store perma c = some r ↔ c.1 = r.1 ∧ c.2 = r.2.1 ∧ priorPerma store r.2.1 = some r.2.2 ∧ r.2.2 ≠ perma := by
  obtain ⟨date, predecessor⟩ := c
  obtain ⟨date', predecessor', other⟩ := r
  simp only [crossed, Option.bind_eq_some_iff, Option.ite_none_right_eq_some, Option.some.injEq, Prod.mk.injEq]
  constructor
  · rintro ⟨prior, found, differs, rfl, rfl, rfl⟩
    exact ⟨rfl, rfl, found, differs⟩
  · rintro ⟨rfl, rfl, found, differs⟩
    exact ⟨other, found, differs, rfl, rfl, rfl⟩

lemma mem_changes : (date, predecessor) ∈ changes store ticker lookback session ↔
    Renamed store ticker lookback session date predecessor := by
  simp only [changes, mem_mergeSort, mem_filterMap, Renamed]
  apply exists_congr
  intro a
  apply and_congr_right
  intro _
  cases stored : a.date with
  | none => simp
  | some d =>
    simp only [Option.ite_none_right_eq_some, Option.some.injEq, Prod.mk.injEq]
    constructor
    · rintro ⟨⟨action, symbol, after, upto⟩, rfl, named⟩
      exact ⟨action, symbol, rfl, named, after, upto⟩
    · rintro ⟨action, symbol, rfl, named, after, upto⟩
      exact ⟨⟨action, symbol, after, upto⟩, rfl, named⟩

lemma changes_sorted : (changes store ticker lookback session).Pairwise (·.1 ≤ ·.1) := by
  rw [changes]
  simpa using @pairwise_mergeSort (Date × Option String) (fun c c' => decide (c.1 ≤ c'.1))
    (by simpa using fun _ _ _ => le_trans) (by simpa using fun a b => le_total a b) _

lemma priorPerma_eq_some (found : priorPerma store predecessor = some other) :
    ∃ r ∈ store.tickers, r.ticker = predecessor.getD "None" ∧ r.perma = some other := by
  obtain ⟨r, first, carried⟩ := Option.bind_eq_some_iff.1 found
  exact ⟨r, mem_of_find?_eq_some first, by simpa using find?_some first, carried⟩

lemma carriesOther_of_crossed {c : Date × Option String} {r : Date × Option String × String}
    (crosses : crossed store perma c = some r) : CarriesOther store perma c.2 := by
  obtain ⟨-, same, found, differs⟩ := crossed_eq_some.1 crosses
  obtain ⟨row, mem, named, carried⟩ := priorPerma_eq_some found
  exact ⟨row, mem, same ▸ named, r.2.2, carried, differs⟩

lemma crossing_eq_none (never : ∀ date predecessor, Renamed store ticker lookback session date predecessor →
    ¬ CarriesOther store perma predecessor) : crossing store ticker perma lookback session = none := by
  rw [crossing_eq, findSome?_eq_none_iff]
  intro c mem
  apply Option.eq_none_iff_forall_ne_some.2
  intro r crosses
  exact never c.1 c.2 (mem_changes.1 mem) (carriesOther_of_crossed crosses)

lemma of_crossing (found : crossing store ticker perma lookback session = some (date, predecessor, other)) :
    Renamed store ticker lookback session date predecessor ∧ priorPerma store predecessor = some other ∧
      other ≠ perma := by
  rw [crossing_eq] at found
  obtain ⟨c, mem, crosses⟩ := exists_of_findSome?_eq_some found
  obtain ⟨rfl, rfl, prior, differs⟩ := crossed_eq_some.1 crosses
  exact ⟨mem_changes.1 mem, prior, differs⟩

lemma crossing_of_decided (differs : other ≠ perma) (renamed : Renamed store ticker lookback session date predecessor)
    (present : ∃ r ∈ store.tickers, r.ticker = predecessor.getD "None")
    (agree : ∀ r ∈ store.tickers, r.ticker = predecessor.getD "None" → r.perma = some other)
    (first : ∀ date' predecessor', Renamed store ticker lookback session date' predecessor' →
      CarriesOther store perma predecessor' → date < date' ∨ date' = date ∧ predecessor' = predecessor) :
    crossing store ticker perma lookback session = some (date, predecessor, other) := by
  have prior : priorPerma store predecessor = some other := by
    obtain ⟨r, mem, named⟩ := present
    have some_ : (store.tickers.find? (·.ticker = predecessor.getD "None")).isSome = true :=
      find?_isSome.2 ⟨r, mem, decide_eq_true named⟩
    obtain ⟨row, found⟩ := Option.isSome_iff_exists.1 some_
    rw [priorPerma, found, Option.bind_some]
    exact agree row (mem_of_find?_eq_some found) (by simpa using find?_some found)
  have crosses : crossed store perma (date, predecessor) = some (date, predecessor, other) :=
    crossed_eq_some.2 ⟨rfl, rfl, prior, differs⟩
  have mem := mem_changes.2 renamed
  cases found : crossing store ticker perma lookback session with
  | none =>
    rw [crossing_eq, findSome?_eq_none_iff] at found
    rw [found _ mem] at crosses
    cases crosses
  | some r =>
    -- the change that is met first is neither before the date nor another one of it
    obtain ⟨earlier, c, later, split, met, none⟩ := findSome?_eq_some_iff.1 (crossing_eq.symm.trans found)
    have here : c ∈ changes store ticker lookback session := by simp [split]
    rcases first c.1 c.2 (mem_changes.1 here) (carriesOther_of_crossed met) with after | ⟨same, same'⟩
    · have sorted := @changes_sorted store ticker session lookback
      rw [split] at mem sorted
      rcases mem_append.1 mem with before | rest
      · rw [none _ before] at crosses
        cases crosses
      · rcases mem_cons.1 rest with eq | behind
        · rw [← eq] at after
          exact absurd after (lt_irrefl _)
        · exact absurd after (not_lt.2 ((pairwise_cons.1 (pairwise_append.1 sorted).2.1).1 _ behind))
    · obtain rfl : c = (date, predecessor) := Prod.ext same same'
      rw [← met, crosses]

end Renames

/-! ## The continuity of the prices -/

section Prices
variable {sep : List SepRow}

variable {store : LineageStore} {ticker perma : String} {session lookback first last start stop : Date}

lemma worstGap_eq {present : List Bool} : worstGap present = (scan present).worst := by
  have run : present.foldl (fun (s : ℕ × ℕ) ok => let run := if ok then 0 else s.1 + 1; (run, max s.2 run)) (0, 0) =
      ((scan present).run, (scan present).worst) := by
    induction present using List.reverseRecOn with
    | nil => rfl
    | append_singleton present b ih =>
      have next : scan (present ++ [b]) = (scan present).next (b, present.length) := by
        rw [scan, zipIdx_append, foldl_append, Nat.zero_add]
        rfl
      rw [foldl_append, ih, next]
      cases b with
      | true => simp [Scan.next]
      | false =>
        simp only [foldl_cons, foldl_nil, Scan.next, Bool.false_eq_true, if_false]
        split
        next longer => rw [max_eq_right longer.le]
        next shorter => rw [max_eq_left (not_lt.1 shorter)]
  rw [worstGap, run]

lemma sessionsBetween_sorted : (sessionsBetween sep start stop).Pairwise (· ≤ ·) := by
  rw [sessionsBetween]
  simpa using @pairwise_mergeSort Date (fun a b => decide (a ≤ b)) (by simpa using fun _ _ _ => le_trans)
    (by simpa using le_total) _

lemma mem_sessionsBetween {d : Date} :
    d ∈ sessionsBetween sep start stop ↔ (∃ r ∈ sep, r.date = d) ∧ start ≤ d ∧ d ≤ stop := by
  simp [sessionsBetween]

lemma sessionsBetween_filter {start' stop' : Date} (le : start ≤ start') (ge : stop' ≤ stop) :
    ((sessionsBetween sep start stop).filter fun d => start' ≤ d ∧ d ≤ stop') = sessionsBetween sep start' stop' := by
  have nodup {start stop : Date} : (sessionsBetween sep start stop).Nodup :=
    (mergeSort_perm _ _).nodup_iff.2 (nodup_dedup _)
  apply List.Perm.eq_of_pairwise _ (sessionsBetween_sorted.filter _) sessionsBetween_sorted
  · rw [perm_ext_iff_of_nodup (nodup.filter _) nodup]
    intro d
    simp only [mem_filter, mem_sessionsBetween, decide_eq_true_eq]
    constructor
    · rintro ⟨⟨traded, -⟩, within⟩
      exact ⟨traded, within⟩
    · rintro ⟨traded, after, before⟩
      exact ⟨⟨traded, le.trans after, before.trans ge⟩, after, before⟩
  · intro a b _ _ le ge
    exact le_antisymm le ge

lemma presence_sessionsBetween : presence sep (sessionsBetween sep start stop) ticker =
    (sessionsBetween sep start stop).map fun d => decide (d ∈ marksBetween sep ticker start stop) := by
  rw [presence, mergeSort_of_pairwise (by simpa using sessionsBetween_sorted)]
  apply map_congr_left
  intro d mem
  obtain ⟨-, after, before⟩ := mem_sessionsBetween.1 mem
  rw [Bool.eq_iff_iff, decide_eq_true_eq]
  simp only [marked, marksBetween, any_eq_true, mem_map, mem_filter, decide_eq_true_eq]
  constructor
  · rintro ⟨r, stored, symbol, rfl, priced⟩
    exact ⟨r, ⟨stored, symbol, ⟨after, before⟩, priced⟩, rfl⟩
  · rintro ⟨r, ⟨stored, symbol, -, priced⟩, rfl⟩
    exact ⟨r, stored, symbol, rfl, priced⟩

lemma sessionsBetween_self {d d' : Date} :
    ((sessionsBetween store.sep d d').filter fun x => d ≤ x ∧ x ≤ d') = sessionsBetween store.sep d d' :=
  sessionsBetween_filter le_rfl le_rfl

lemma priceRefusal_sessions : priceRefusal store ticker perma first last lookback session
      (some (sessionsBetween store.sep lookback session)) =
    priceRefusal store ticker perma first last lookback session none := by
  have long : ((sessionsBetween store.sep lookback session).filter fun d =>
      max lookback first ≤ d ∧ d ≤ min session last) =
      sessionsBetween store.sep (max lookback first) (min session last) :=
    sessionsBetween_filter (le_max_left _ _) (min_le_left _ _)
  simp only [priceRefusal, Option.getD_some, Option.getD_none, long, sessionsBetween_self]

lemma hole_of_accepted (accepted : priceRefusal store ticker perma first last lookback session none = none) {n : ℕ}
    {i : ℕ} (hole : Hole (presence store.sep (sessionsBetween store.sep (max lookback first) (min session last)) ticker)
      i n) : n < 20 := by
  simp only [priceRefusal, Option.getD_none, sessionsBetween_self, ← presence_sessionsBetween, worstGap_eq] at accepted
  split_ifs at accepted with _ _ _ _ long
  exact lt_of_le_of_lt (scanned_scan.worst i n hole) (not_le.1 long)

lemma boundaryDate_priceRefusal {sessions : Option (List Date)} {r : LineageDecision}
    (refused : priceRefusal store ticker perma first last lookback session sessions = some r) :
    r.boundaryDate = none ∧ r.eligible = false := by
  simp only [priceRefusal] at refused
  split_ifs at refused <;> cases refused <;> exact ⟨rfl, rfl⟩

end Prices

/-! ## The resolution -/

section Resolution

variable {store store' : LineageStore} {ticker perma other : String} {session lookback first last date : Date}
  {predecessor : Option String} {sessions : Option (List Date)}

lemma resolveLineage_of_crossing (active : ActiveLineage store ticker session perma first last)
    (crosses : crossing store ticker perma lookback session = some (date, predecessor, other)) :
    resolveLineage store ticker session lookback sessions = { refuse ticker perma .lookbackCrossesLineage
          [.text "symbol was renamed from ", .name predecessor, .text " on ", .date date,
            .text ", inside the lookback beginning ", .date lookback, .text "; predecessor resolves to ",
            .name (some other), .text ", not ", .name (some perma)] with
        predecessorPermaticker := some other
        boundaryDate := some date } := by
  rw [resolveLineage, activeLineage_eq_ok.2 active]
  simp only [crosses]

lemma eligible_of_error {r : LineageDecision} (refused : activeLineage store ticker session = .error r) :
    r.eligible = false := by
  rw [activeLineage] at refused
  split at refused
  next =>
    cases refused
    rfl
  next =>
    split at refused
    next =>
      cases refused
      rfl
    next =>
      split at refused
      next =>
        cases refused
        rfl
      next =>
        cases refused
        rfl
      next =>
        split_ifs at refused
        cases refused
        rfl
    next =>
      cases refused
      rfl

lemma of_eligible (eligible : (resolveLineage store ticker session lookback sessions).eligible = true) :
    ∃ perma first last, ActiveLineage store ticker session perma first last ∧
      crossing store ticker perma lookback session = none ∧
      priceRefusal store ticker perma first last lookback session sessions = none ∧
      (resolveLineage store ticker session lookback sessions).permaticker = some perma := by
  rw [resolveLineage] at eligible ⊢
  cases found : activeLineage store ticker session with
  | error refusal =>
    rw [found] at eligible
    rw [eligible_of_error found] at eligible
    cases eligible
  | ok lineage =>
    obtain ⟨perma, first, last⟩ := lineage
    rw [found] at eligible
    simp only at eligible ⊢
    cases crosses : crossing store ticker perma lookback session with
    | some c =>
      rw [crosses] at eligible
      cases eligible
    | none =>
      rw [crosses] at eligible
      cases refused : priceRefusal store ticker perma first last lookback session sessions with
      | some refusal =>
        rw [refused] at eligible
        rw [(boundaryDate_priceRefusal refused).2] at eligible
        cases eligible
      | none => exact ⟨perma, first, last, activeLineage_eq_ok.1 found, crosses, refused, rfl⟩

lemma singleLineage_of_decisive (decisive : Decisive store ticker session lookback)
    (eligible : (resolveLineage store ticker session lookback none).eligible = true) :
    ∃ perma, (resolveLineage store ticker session lookback none).permaticker = some perma ∧
      SingleLineage store ticker session lookback perma := by
  obtain ⟨perma, first, last, active, none, accepted, carried⟩ := of_eligible eligible
  refine ⟨perma, carried, ⟨first, last, active, fun _ _ => hole_of_accepted accepted⟩, ?_⟩
  rcases decisive perma first last active with never | ⟨date, predecessor, other, differs, renamed, present, agree,
    first⟩
  · exact fun date predecessor => never date (some predecessor)
  · rw [crossing_of_decided differs renamed present agree first] at none
    cases none

lemma ActiveLineage.perm (same : SameRows store store') (active : ActiveLineage store ticker session perma first last) :
    ActiveLineage store' ticker session perma first last := by
  rw [← activeLineage_eq_ok, activeLineage_perm same]
  exact activeLineage_eq_ok.2 active

lemma Renamed.perm (same : SameRows store store') :
    Renamed store' ticker lookback session date predecessor ↔
      Renamed store ticker lookback session date predecessor := by
  simp only [Renamed, same.actions.mem_iff]

lemma CarriesOther.perm (same : SameRows store store') :
    CarriesOther store' perma predecessor ↔ CarriesOther store perma predecessor := by
  simp only [CarriesOther, same.tickers.mem_iff]

lemma resolveLineage_perm (decisive : Decisive store ticker session lookback) (same : SameRows store store') :
    resolveLineage store' ticker session lookback none = resolveLineage store ticker session lookback none := by
  rw [resolveLineage, resolveLineage, activeLineage_perm same]
  cases found : activeLineage store ticker session with
  | error refusal => rfl
  | ok lineage =>
    obtain ⟨perma, first, last⟩ := lineage
    have crossing : crossing store' ticker perma lookback session = crossing store ticker perma lookback session := by
      rcases decisive perma first last (activeLineage_eq_ok.1 found) with
        never | ⟨date, predecessor, other, differs, renamed, present, agree, first⟩
      · rw [crossing_eq_none never, crossing_eq_none]
        intro date predecessor renamed carries
        exact never date predecessor ((Renamed.perm same).1 renamed) ((CarriesOther.perm same).1 carries)
      · rw [crossing_of_decided differs renamed present agree first]
        apply crossing_of_decided differs ((Renamed.perm same).2 renamed)
        · obtain ⟨r, mem, named⟩ := present
          exact ⟨r, same.tickers.mem_iff.1 mem, named⟩
        · intro r mem
          exact agree r (same.tickers.mem_iff.2 mem)
        · intro date' predecessor' renamed carries
          exact first date' predecessor' ((Renamed.perm same).1 renamed) ((CarriesOther.perm same).1 carries)
    simp only [crossing, priceRefusal_perm same]

end Resolution

/-! ## Where the order of the rows decides -/

section Undecided

variable {store store' : LineageStore} {ticker perma other : String} {session lookback first last date : Date}
  {predecessor : Option String}

lemma priorPerma_of_head {r : TickerRow} {rows : List TickerRow} (head : store.tickers = r :: rows)
    (named : r.ticker = predecessor.getD "None") : priorPerma store predecessor = r.perma := by
  rw [priorPerma, head, find?_cons_of_pos (by simpa using named)]
  rfl

lemma exists_crossing (differs : other ≠ perma) (renamed : Renamed store ticker lookback session date predecessor)
    (row : ∃ r ∈ store.tickers, r.ticker = predecessor.getD "None" ∧ r.perma = some other)
    (first : ∀ date' predecessor', Renamed store ticker lookback session date' predecessor' →
      CarriesOther store perma predecessor' → date ≤ date') :
    ∃ store', SameRows store store' ∧
      crossing store' ticker perma lookback session = some (date, predecessor, other) := by
  obtain ⟨r, stored, named, carried⟩ := row
  obtain ⟨a, action, tickerchange, symbol, on, from_, after, upto⟩ := renamed
  have same : SameRows store
      { store with tickers := r :: store.tickers.erase r, actions := a :: store.actions.erase a } :=
    ⟨rfl, perm_cons_erase stored, perm_cons_erase action, List.Perm.refl _⟩
  refine ⟨_, same, ?_⟩
  -- the rename comes behind the earlier dates only
  obtain ⟨rest, sorts⟩ : ∃ rest : List (Date × Option String), changes
      { store with tickers := r :: store.tickers.erase r, actions :=
        a :: store.actions.erase a } ticker lookback session =
        ((date, predecessor) :: rest).mergeSort fun c c' => c.1 ≤ c'.1 := by
    rw [changes, filterMap_cons]
    simp only [on, tickerchange, symbol, after, upto, from_, and_self, if_true]
    exact ⟨_, rfl⟩
  obtain ⟨earlier, later, split, -, before⟩ := @mergeSort_cons (Date × Option String) (fun c c' => decide (c.1 ≤ c'.1))
    (by simpa using fun _ _ _ => le_trans) (by simpa using fun a b => le_total a b) (date, predecessor) rest
  rw [crossing_eq, findSome?_eq_some_iff]
  refine ⟨earlier, (date, predecessor), later, sorts.trans split, ?_, ?_⟩
  · refine crossed_eq_some.2 ⟨rfl, rfl, ?_, differs⟩
    rw [priorPerma_of_head rfl named, carried]
  · intro c mem
    apply Option.eq_none_iff_forall_ne_some.2
    intro crossing crosses
    have here := mem_changes.1 (sorts.trans split ▸ mem_append_left _ mem)
    have le := first c.1 c.2 ((Renamed.perm same).1 here)
      ((CarriesOther.perm same).1 (carriesOther_of_crossed crosses))
    simpa [le] using before c mem

lemma crossing_of_same (active : ActiveLineage store ticker session perma first last)
    (active' : ActiveLineage store' ticker session perma first last)
    (same : resolveLineage store' ticker session lookback none = resolveLineage store ticker session lookback none)
    (crosses : crossing store ticker perma lookback session = some (date, predecessor, other)) :
    crossing store' ticker perma lookback session = some (date, predecessor, other) := by
  rw [resolveLineage_of_crossing active crosses] at same
  cases found : crossing store' ticker perma lookback session with
  | none =>
    have boundary := congrArg (·.boundaryDate) same
    rw [resolveLineage, activeLineage_eq_ok.2 active'] at boundary
    simp only [found] at boundary
    cases refused : priceRefusal store' ticker perma first last lookback session none with
    | none =>
      rw [refused] at boundary
      cases boundary
    | some r =>
      rw [refused] at boundary
      rw [(boundaryDate_priceRefusal refused).1] at boundary
      cases boundary
  | some c =>
    obtain ⟨date', predecessor', other'⟩ := c
    rw [resolveLineage_of_crossing active' found] at same
    simp only [refuse, LineageDecision.mk.injEq, Option.some.injEq, List.cons.injEq, Piece.name.injEq] at same
    obtain ⟨-, -, -, -, detail, rfl, rfl⟩ := same
    obtain rfl := detail.2.1
    rfl

lemma decisive_of_rowOrder (rowOrder : ∀ store', SameRows store store' →
      resolveLineage store' ticker session lookback none = resolveLineage store ticker session lookback none) :
    Decisive store ticker session lookback := by
  classical
  intro perma first last active
  by_cases never : ∀ date predecessor, Renamed store ticker lookback session date predecessor →
      ¬ CarriesOther store perma predecessor
  · exact .inl never
  · refine .inr ?_
    -- the first date at which a predecessor has a row with another id
    have some_ : ((changes store ticker lookback session).toFinset.filter fun c =>
        CarriesOther store perma c.2).Nonempty := by
      push Not at never
      obtain ⟨date, predecessor, renamed, carries⟩ := never
      exact ⟨(date, predecessor), by simpa using ⟨mem_changes.2 renamed, carries⟩⟩
    obtain ⟨⟨date, predecessor⟩, mem, least⟩ := Finset.exists_min_image _ Prod.fst some_
    obtain ⟨mem, r, stored, named, other, carried, differs⟩ := Finset.mem_filter.1 mem
    have renamed := mem_changes.1 (mem_toFinset.1 mem)
    have earliest : ∀ date' predecessor', Renamed store ticker lookback session date' predecessor' →
        CarriesOther store perma predecessor' → date ≤ date' := by
      intro date' predecessor' renamed' carries'
      exact least (date', predecessor')
        (Finset.mem_filter.2 ⟨mem_toFinset.2 (mem_changes.2 renamed'), carries'⟩)
    -- however the rows are stored, this rename decides
    obtain ⟨decided, same, crosses⟩ := exists_crossing differs renamed ⟨r, stored, named, carried⟩ earliest
    have always : ∀ store', SameRows store store' →
        crossing store' ticker perma lookback session = some (date, predecessor, other) := by
      intro store' same'
      apply crossing_of_same (active.perm same) (active.perm same') _ crosses
      rw [rowOrder store' same', rowOrder decided same]
    refine ⟨date, predecessor, other, differs, renamed, ⟨r, stored, named⟩, ?_, ?_⟩
    · intro r' stored' named'
      have prior := (of_crossing (always { store with tickers := r' :: store.tickers.erase r' }
        ⟨rfl, perm_cons_erase stored', List.Perm.refl _, List.Perm.refl _⟩)).2.1
      rwa [priorPerma_of_head rfl named'] at prior
    · intro date' predecessor' renamed' carries'
      rcases (earliest _ _ renamed' carries').lt_or_eq with later | rfl
      · exact .inl later
      · obtain ⟨r', stored', named', other', carried', differs'⟩ := carries'
        obtain ⟨store', same', crosses'⟩ :=
          exists_crossing differs' renamed' ⟨r', stored', named', carried'⟩ earliest
        rw [always store' same'] at crosses'
        cases crosses'
        exact .inr ⟨rfl, rfl⟩

end Undecided

/-! ## The filter of a session -/

section Filter

variable {f : SessionLineageFilter} {resolved : String → LineageDecision}

/-- The decisions that a filter makes, and remembers. -/
structure SessionLineageFilter.Resolves (f : SessionLineageFilter) (resolved : String → LineageDecision) : Prop where
  resolves : ∀ t, resolveLineage f.store t f.sessionDate f.lookbackStart (some f.sessions) = resolved t
  remembers : ∀ t d, f.decisions.get t = some d → d = resolved t

lemma SessionLineageFilter.Resolves.decision (res : f.Resolves resolved) (t : String) :
    (f.decision t).1 = resolved t ∧ (f.decision t).2.Resolves resolved := by
  rw [SessionLineageFilter.decision]
  cases cached : f.decisions.get t with
  | some d => exact ⟨res.remembers t d cached, res⟩
  | none =>
    refine ⟨res.resolves t, res.resolves, ?_⟩
    intro t' d found
    rw [Dict.get_set] at found
    split at found
    next same =>
      obtain rfl := Option.some.inj found
      rw [same]
      exact res.resolves t
    next => exact res.remembers t' d found

lemma SessionLineageFilter.Resolves.keep (res : f.Resolves resolved) (candidates : List String) :
    (f.keep candidates).1 = candidates.filter (fun t => (resolved t).eligible) ∧
      (f.keep candidates).2.Resolves resolved := by
  induction candidates generalizing f with
  | nil => exact ⟨rfl, res⟩
  | cons t candidates ih =>
    obtain ⟨decided, after⟩ := res.decision t
    obtain ⟨kept, rest⟩ := ih after
    rw [SessionLineageFilter.keep, filter_cons]
    exact ⟨by simp only [decided, kept], rest⟩

lemma SessionLineageFilter.Resolves.calls (res : f.Resolves resolved) (calls : List (List String)) :
    f.calls calls = calls.map fun candidates => candidates.filter fun t => (resolved t).eligible := by
  induction calls generalizing f with
  | nil => rfl
  | cons candidates calls ih =>
    have seen : { f with rawSeen := f.rawSeen ++ candidates.filter (· ∉ f.rawSeen) }.Resolves resolved :=
      ⟨res.resolves, res.remembers⟩
    obtain ⟨kept, after⟩ := seen.keep candidates
    rw [SessionLineageFilter.calls, SessionLineageFilter.filter, map_cons, ih after, kept]

lemma calls_of_start {store : LineageStore} {session lookback : Date}
    (started : SessionLineageFilter.start store session lookback = .ok f) (calls : List (List String)) :
    List.Forall₂ (fun candidates kept => ∃ a, assessUniverse store candidates session lookback = .ok a ∧
      kept = a.eligibleTickers ∧ kept.Sublist candidates) calls (f.calls calls) := by
  rw [SessionLineageFilter.start] at started
  cases required : requirePermanentIdentifier store with
  | error e =>
    rw [required] at started
    cases started
  | ok _ =>
    rw [required] at started
    cases started
    rw [SessionLineageFilter.Resolves.calls ⟨fun _ => rfl, fun _ _ found => by cases found⟩, List.forall₂_map_right_iff,
      List.forall₂_same]
    intro candidates _
    rw [assessUniverse, required]
    exact ⟨_, rfl, rfl, filter_sublist⟩

end Filter

/-! ## The contract of the resolution -/

/-- The resolution keeps its contract exactly where no order of the rows can decide. -/
theorem resolveLineage_contract_iff {store : LineageStore} {ticker : String} {session lookback : Date} :
    LineageContract store ticker session lookback ↔ Decisive store ticker session lookback := by
  constructor
  · intro contract
    exact decisive_of_rowOrder contract.rowOrder
  · intro decisive
    refine ⟨?_, ?_, ?_, ?_⟩
    · intro perma eligible carried
      obtain ⟨p, carried', single⟩ := singleLineage_of_decisive decisive eligible
      exact ⟨p, carried.symm.trans carried', single⟩
    · intro store' same
      exact resolveLineage_perm decisive same
    · simp only [resolveLineage, priceRefusal_sessions]
    · intro f started calls
      exact calls_of_start started calls

def handedOver (predecessors : List TickerRow) (renames : List ActionRow) : LineageStore where
  tickers := ⟨"META", some "100", some (january 5), some (january 27)⟩ :: predecessors
  actions := renames
  sep := [⟨"META", january 13, some 90⟩]

/-- The row that is stored first decides which predecessor hands its symbol over, and which of two renames is told. -/
theorem stored_first_decides :
    (¬ LineageContract (handedOver [⟨"FB", some "100", none, none⟩, ⟨"FB", some "200", none, none⟩]
        [⟨some (january 11), "tickerchangefrom", "META", some "FB"⟩]) "META" (january 13) (january 8)) ∧
      ¬ LineageContract (handedOver [⟨"FB", some "200", none, none⟩, ⟨"METV", some "300", none, none⟩]
        [⟨some (january 11), "tickerchangefrom", "META", some "FB"⟩,
          ⟨some (january 11), "tickerchangefrom", "META", some "METV"⟩]) "META" (january 13) (january 8) := by
  have active {predecessors : List TickerRow} {renames : List ActionRow}
      (others : predecessors.filter (fun r => r.ticker = "META" && r.activeAt (january 13)) = []) :
      ActiveLineage (handedOver predecessors renames) "META" (january 13) "100" (january 5) (january 27) := by
    refine ⟨⟨⟨"META", some "100", some (january 5), some (january 27)⟩, ?_, by decide, rfl, rfl⟩, by decide⟩
    rw [handedOver, filter_cons_of_pos (by decide), others]
  constructor
  · intro contract
    rcases decisive_of_rowOrder contract.rowOrder _ _ _ (active (by decide)) with never | decided
    · exact never (january 11) (some "FB") ⟨_, mem_singleton.2 rfl, by decide⟩
        ⟨⟨"FB", some "200", none, none⟩, by decide, rfl, "200", by decide, by decide⟩
    · obtain ⟨date, predecessor, other, differs, ⟨a, mem, -, -, -, rfl, -⟩, -, agree, -⟩ := decided
      obtain rfl := mem_singleton.1 mem
      have same := agree ⟨"FB", some "100", none, none⟩ (by decide) rfl
      exact differs (by simpa using (same.symm.trans (by decide : _ = some "100")))
  · intro contract
    rcases decisive_of_rowOrder contract.rowOrder _ _ _ (active (by decide)) with never | decided
    · exact never (january 11) (some "FB") ⟨_, mem_cons_self, by decide⟩
        ⟨⟨"FB", some "200", none, none⟩, by decide, rfl, "200", by decide, by decide⟩
    · obtain ⟨date, predecessor, other, -, ⟨a, mem, -, -, on, -⟩, -, -, first⟩ := decided
      obtain rfl : date = january 11 := by
        rcases mem_cons.1 mem with rfl | mem
        · exact (Option.some.inj on).symm
        · obtain rfl := mem_singleton.1 mem
          exact (Option.some.inj on).symm
      have atFb := first (january 11) (some "FB") ⟨_, mem_cons_self, by decide⟩
        ⟨⟨"FB", some "200", none, none⟩, by decide, rfl, "200", by decide, by decide⟩
      have atMetv := first (january 11) (some "METV") ⟨_, mem_cons_of_mem _ mem_cons_self, by decide⟩
        ⟨⟨"METV", some "300", none, none⟩, by decide, rfl, "300", by decide, by decide⟩
      rcases atFb with later | ⟨-, rfl⟩
      · exact absurd later (lt_irrefl _)
      · rcases atMetv with later | ⟨-, same⟩
        · exact absurd later (lt_irrefl _)
        · exact absurd same (by decide)

end Workbench.Validation
