import Workbench.Validation.SecurityLineage

/-!
# What the bridge risk misses

`assess_bridge_risk` looks at one hole of a symbol only, the first of the longest. `assessBridgeRisk_complete_iff`: it
reports the symbols with marks on both sides of a long hole exactly when none of them has a longer hole at an end of the
window.
-/

set_option linter.dupNamespace false

namespace Workbench.Validation
open Lib Lib.Holes List

def marked (sep : List SepRow) (ticker : String) (d : Date) : Bool :=
  sep.any fun r => r.ticker = ticker ∧ r.date = d ∧ r.closeadj.isSome

/-- The marks of a symbol on the sessions of a window, in order. -/
def presence (sep : List SepRow) (window : List Date) (ticker : String) : List Bool :=
  (window.mergeSort (· ≤ ·)).map (marked sep ticker)

/-- A symbol has marks on both sides of a hole of enough sessions. -/
def Bridges (present : List Bool) (minHoleSessions : ℤ) : Prop :=
  ∃ start n, InnerHole present start n ∧ minHoleSessions ≤ n

/-- The first of the longest holes. -/
structure FirstLongest (present : List Bool) (start n : ℕ) : Prop where
  maximal : MaximalHole present start n
  longest : ∀ start' n', Hole present start' n' → n' ≤ n
  first : ∀ start', Hole present start' n → start ≤ start'

/-- A symbol bridges, and a hole at the beginning of the window is as long as any inner one, or a hole at its end is
    longer. -/
def Overshadowed (present : List Bool) (minHoleSessions : ℤ) : Prop :=
  Bridges present minHoleSessions ∧
    ((∃ n, MaximalHole present 0 n ∧ ∀ start' n', InnerHole present start' n' → n' ≤ n) ∨
      ∃ start n, MaximalHole present start n ∧ start + n = present.length ∧
        ∀ start' n', InnerHole present start' n' → n' < n)

/-- A risk is one of an excluded symbol, and its hole is one with the sessions beside it marked. -/
def Genuine (sep : List SepRow) (excluded : List LineageDecision) (window : List Date) (minHoleSessions : ℤ)
    (r : BridgeRisk) : Prop :=
  (∃ decision ∈ excluded, decision.ticker = r.ticker) ∧
    ∃ start, InnerHole (presence sep window r.ticker) (start + 1) r.holeSessions ∧ minHoleSessions ≤ r.holeSessions ∧
      let ordered := window.mergeSort (· ≤ ·)
      ordered[start]? = some r.lastMarkBefore ∧ ordered[start + 1]? = some r.holeStart ∧
        ordered[start + r.holeSessions]? = some r.holeEnd ∧
        ordered[start + 1 + r.holeSessions]? = some r.firstMarkAfter

/-- What is reported of a decision: the first of its longest holes, which is inner and long enough. -/
def Describes (ordered : List Date) (present : List Bool) (decision : LineageDecision) (minHoleSessions : ℤ)
    (r : BridgeRisk) : Prop :=
  ∃ start, FirstLongest present (start + 1) r.holeSessions ∧ InnerHole present (start + 1) r.holeSessions ∧
    minHoleSessions ≤ r.holeSessions ∧ r.ticker = decision.ticker ∧ r.permaticker = decision.permaticker ∧
    ordered[start]? = some r.lastMarkBefore ∧ ordered[start + 1]? = some r.holeStart ∧
    ordered[start + r.holeSessions]? = some r.holeEnd ∧ ordered[start + 1 + r.holeSessions]? = some r.firstMarkAfter

section Scan

variable {present : List Bool} {start n : ℕ} {minHoleSessions : ℤ}

lemma firstLongest_scan (pos : 0 < (scan present).worst) :
    ∃ start : ℕ, (scan present).worstEnd = start + (scan present).worst - 1 ∧
      FirstLongest present start (scan present).worst := by
  obtain ⟨start, ends, hole, first⟩ := (@scanned_scan present).found pos
  exact ⟨start, ends, hole.maximal pos scanned_scan.worst, scanned_scan.worst, first⟩

lemma inner_iff (maximal : MaximalHole present start n) :
    InnerHole present start n ↔ start ≠ 0 ∧ start + n ≠ present.length := by
  have within := maximal.hole.le_length maximal.pos
  constructor
  · intro inner
    exact ⟨inner.before.ne', inner.after.ne⟩
  · intro apart
    exact ⟨maximal, Nat.pos_of_ne_zero apart.1, lt_of_le_of_ne within apart.2⟩

lemma FirstLongest.unique {start' n' : ℕ} (longest : FirstLongest present start n)
    (longest' : FirstLongest present start' n') : start = start' ∧ n = n' := by
  have same : n = n' :=
    le_antisymm (longest'.longest _ _ longest.maximal.hole) (longest.longest _ _ longest'.maximal.hole)
  subst same
  exact ⟨le_antisymm (longest.first _ longest'.maximal.hole) (longest'.first _ longest.maximal.hole), rfl⟩

lemma overshadowed_iff (bridges : Bridges present minHoleSessions) (longest : FirstLongest present start n) :
    Overshadowed present minHoleSessions ↔ ¬ InnerHole present start n := by
  rw [inner_iff longest.maximal]
  have bound {start' n' : ℕ} (inner : InnerHole present start' n') : n' ≤ n := longest.longest _ _ inner.hole
  constructor
  · intro overshadowed apart
    have inner := (inner_iff longest.maximal).2 apart
    rcases overshadowed.2 with ⟨m, leading, all⟩ | ⟨_, m, trailing, -, all⟩
    · have same : m = n := le_antisymm (longest.longest _ _ leading.hole) (all _ _ inner)
      have before := longest.first 0 (same ▸ leading.hole)
      exact apart.1 (Nat.le_zero.1 before)
    · exact absurd (all _ _ inner) (not_lt.2 (longest.longest _ _ trailing.hole))
  · intro touches
    refine ⟨bridges, ?_⟩
    by_cases leading : start = 0
    · exact .inl ⟨n, leading ▸ longest.maximal, fun _ _ => bound⟩
    · have trailing : start + n = present.length := by
        by_contra apart
        exact touches ⟨leading, apart⟩
      refine .inr ⟨start, n, longest.maximal, trailing, ?_⟩
      intro start' n' inner
      -- an inner hole as long would come first
      refine lt_of_le_of_ne (bound inner) ?_
      rintro rfl
      have before := longest.first start' inner.hole
      have after := inner.after
      omega

end Scan

section Risk
variable {present : List Bool} {start : ℕ}

variable {decision : LineageDecision} {ordered marks : List Date} {minHoleSessions : ℤ} {r : BridgeRisk}

lemma getLast?_before {d : Date} (at_ : ordered[start]? = some d) (mark : present[start]? = some true) :
    (((ordered.zip present).take (start + 1)).filter (·.2)).getLast? = some (d, true) := by
  have zipped : (ordered.zip present)[start]? = some (d, true) := by
    rw [getElem?_zip_eq_some]
    exact ⟨at_, mark⟩
  rw [take_add_one, zipped, Option.toList_some, filter_append]
  simp

lemma head?_after {d : Date} (at_ : ordered[start]? = some d)
    (mark : present[start]? = some true) : (((ordered.zip present).drop start).filter (·.2)).head? =
      some (d, true) := by
  have zipped : (ordered.zip present)[start]? = some (d, true) := by
    rw [getElem?_zip_eq_some]
    exact ⟨at_, mark⟩
  obtain ⟨lt, eq⟩ := List.getElem?_eq_some_iff.1 zipped
  rw [drop_eq_getElem_cons lt, eq, filter_cons_of_pos rfl, head?_cons]

lemma exists_sessions (ordered : List Date) (length : ordered.length = present.length) {n : ℕ}
    (inner : InnerHole present (start + 1) n) :
    ∃ last holeStart holeEnd first, ordered[start]? = some last ∧ ordered[start + 1]? = some holeStart ∧
      ordered[start + n]? = some holeEnd ∧ ordered[start + 1 + n]? = some first := by
  have within := inner.after
  have get {i : ℕ} (lt : i < present.length) : ∃ d, ordered[i]? = some d := by
    rw [← length] at lt
    exact ⟨ordered[i], getElem?_eq_getElem lt⟩
  obtain ⟨last, atLast⟩ := get (i := start) (by omega)
  obtain ⟨holeStart, atStart⟩ := get (i := start + 1) (by omega)
  obtain ⟨holeEnd, atEnd⟩ := get (i := start + n) (by omega)
  obtain ⟨first, atFirst⟩ := get (i := start + 1 + n) within
  exact ⟨last, holeStart, holeEnd, first, atLast, atStart, atEnd, atFirst⟩

lemma bridgeRisk_of_inner (decision : LineageDecision) (some_ : marks ≠ [])
    (eq : ordered.map (fun d => decide (d ∈ marks)) = present) {n : ℕ}
    (longest : FirstLongest present (start + 1) n) (inner : InnerHole present (start + 1) n)
    (enough : minHoleSessions ≤ n) :
    ∃ last holeStart holeEnd first, ordered[start]? = some last ∧ ordered[start + 1]? = some holeStart ∧
      ordered[start + n]? = some holeEnd ∧ ordered[start + 1 + n]? = some first ∧
      bridgeRisk decision ordered marks minHoleSessions =
        some ⟨decision.ticker, decision.permaticker, n, holeStart, holeEnd, last, first⟩ := by
  have length : ordered.length = present.length := by rw [← eq, length_map]
  have within := inner.after
  obtain ⟨last, holeStart, holeEnd, first, atLast, atStart, atEnd, atFirst⟩ := exists_sessions ordered length inner
  refine ⟨last, holeStart, holeEnd, first, atLast, atStart, atEnd, atFirst, ?_⟩
  -- the scan ends with this hole
  have pos : 0 < (scan present).worst :=
    lt_of_lt_of_le longest.maximal.pos (scanned_scan.worst _ _ longest.maximal.hole)
  obtain ⟨start', ends, found⟩ := firstLongest_scan pos
  obtain ⟨rfl, same⟩ := found.unique longest
  rw [same] at ends
  have mark : present[start]? = some true := longest.maximal.left start rfl
  have mark' : present[start + 1 + n]? = some true := by
    obtain ⟨b, at_⟩ : ∃ b, present[start + 1 + n]? = some b := ⟨_, getElem?_eq_getElem within⟩
    cases b with
    | true => exact at_
    | false => exact absurd at_ longest.maximal.right
  have positive := longest.maximal.pos
  have worstStart : ((scan present).worstEnd - n + 1).toNat = start + 1 := by omega
  have next : ((scan present).worstEnd + 1).toNat = start + 1 + n := by omega
  have worstEnd : (scan present).worstEnd.toNat = start + n := by omega
  rw [bridgeRisk, if_neg some_, eq]
  simp only [same]
  rw [if_neg (by omega), worstStart, next, worstEnd, getLast?_before atLast mark, head?_after atFirst mark', atStart,
    atEnd]

lemma bridgeRisk_eq_none (eq : ordered.map (fun d => decide (d ∈ marks)) = present)
    (outer : ∀ start n, FirstLongest present start n → InnerHole present start n → ¬ minHoleSessions ≤ n) :
    bridgeRisk decision ordered marks minHoleSessions = none := by
  have length : ordered.length = present.length := by rw [← eq, length_map]
  rw [bridgeRisk]
  split
  next => rfl
  next =>
    rw [eq]
    simp only
    split
    next => rfl
    next long =>
      push Not at long
      rcases Nat.eq_zero_or_pos (scan present).worst with none | pos
      · have ends := scanned_scan.none none
        omega
      · obtain ⟨start, ends, longest⟩ := firstLongest_scan pos
        have notInner : ¬ InnerHole present start (scan present).worst := by
          intro inner
          exact outer start _ longest inner long.1
        rw [inner_iff longest.maximal, not_and_or, not_not, not_not] at notInner
        rcases notInner with leading | trailing
        · have worstStart : ((scan present).worstEnd - (scan present).worst + 1).toNat = 0 := by omega
          rw [worstStart, take_zero]
          rfl
        · have next : ((scan present).worstEnd + 1).toNat = (ordered.zip present).length := by
            rw [length_zip]
            omega
          rw [next, drop_length]
          cases (((ordered.zip present).take _).filter (·.2)).getLast? <;> rfl

lemma bridgeRisk_eq_some (eq : ordered.map (fun d => decide (d ∈ marks)) = present) :
    bridgeRisk decision ordered marks minHoleSessions = some r ↔
      Describes ordered present decision minHoleSessions r := by
  constructor
  · intro reported
    by_cases inner : ∃ start n, FirstLongest present start n ∧ InnerHole present start n ∧ minHoleSessions ≤ n
    · obtain ⟨_ | start, n, longest, inner, enough⟩ := inner
      · exact absurd inner.before (Nat.lt_irrefl 0)
      · have some_ : marks ≠ [] := by
          rintro rfl
          simp [bridgeRisk] at reported
        obtain ⟨last, holeStart, holeEnd, first, atLast, atStart, atEnd, atFirst, risk⟩ :=
          bridgeRisk_of_inner decision some_ eq longest inner enough
        obtain rfl := Option.some.inj (risk.symm.trans reported)
        exact ⟨start, longest, inner, enough, rfl, rfl, atLast, atStart, atEnd, atFirst⟩
    · push Not at inner
      rw [bridgeRisk_eq_none eq fun start n longest within => not_le.2 (inner start n longest within)] at reported
      cases reported
  · rintro ⟨start, longest, inner, enough, ticker, permaticker, atLast, atStart, atEnd, atFirst⟩
    have some_ : marks ≠ [] := by
      rintro rfl
      have mark := longest.maximal.left start rfl
      rw [← eq, getElem?_map] at mark
      obtain ⟨d, -, absurd_⟩ := Option.map_eq_some_iff.1 mark
      simp at absurd_
    obtain ⟨last, holeStart, holeEnd, first, atLast', atStart', atEnd', atFirst', risk⟩ :=
      bridgeRisk_of_inner decision some_ eq longest inner enough
    rw [risk]
    cases r
    simp only at ticker permaticker atLast atStart atEnd atFirst atEnd' atFirst'
    simp only [Option.some.injEq, BridgeRisk.mk.injEq]
    refine ⟨ticker.symm, permaticker.symm, trivial, ?_, ?_, ?_, ?_⟩
    · exact Option.some.inj (atStart'.symm.trans atStart)
    · exact Option.some.inj (atEnd'.symm.trans atEnd)
    · exact Option.some.inj (atLast'.symm.trans atLast)
    · exact Option.some.inj (atFirst'.symm.trans atFirst)

end Risk

/-! ## All excluded symbols -/

section Assessment

variable {store : LineageStore} {excluded : List LineageDecision} {window : List Date} {minHoleSessions : ℤ}

lemma mem_marksBetween {ordered : List Date} {start stop d : Date} {ticker : String}
    (sorted : ordered.Pairwise (· ≤ ·)) (head : ordered.head? = some start) (last : ordered.getLast? = some stop)
    (mem : d ∈ ordered) : d ∈ marksBetween store.sep ticker start stop ↔ marked store.sep ticker d = true := by
  have low : start ≤ d := by
    cases ordered with
    | nil => cases mem
    | cons e ordered =>
      cases head
      rcases mem_cons.1 mem with rfl | later
      · exact le_rfl
      · exact (pairwise_cons.1 sorted).1 d later
  have high : d ≤ stop := by
    obtain ⟨initial, rfl⟩ := getLast?_eq_some_iff.1 last
    rcases mem_append.1 mem with earlier | here
    · exact (pairwise_append.1 sorted).2.2 d earlier stop (mem_singleton.2 rfl)
    · exact (mem_singleton.1 here).le
  simp only [marksBetween, mem_map, mem_filter, marked, any_eq_true, decide_eq_true_eq]
  constructor
  · rintro ⟨r, ⟨row, same, -, some⟩, rfl⟩
    exact ⟨r, row, same, rfl, some⟩
  · rintro ⟨r, row, same, rfl, some⟩
    exact ⟨r, ⟨row, same, ⟨low, high⟩, some⟩, rfl⟩

lemma mem_assessBridgeRisk {r : BridgeRisk} : r ∈ assessBridgeRisk store excluded window minHoleSessions ↔
    ∃ decision ∈ excluded, Describes (window.mergeSort (· ≤ ·)) (presence store.sep window decision.ticker) decision
      minHoleSessions r := by
  have sorted : (window.mergeSort (· ≤ ·)).Pairwise (· ≤ ·) := by
    simpa using @pairwise_mergeSort Date (fun a b => decide (a ≤ b)) (by simpa using fun _ _ _ => le_trans)
      (by simpa using le_total) window
  simp only [assessBridgeRisk, presence]
  generalize window.mergeSort (· ≤ ·) = ordered at sorted
  cases head : ordered.head? with
  | none =>
    rw [head?_eq_none_iff] at head
    subst head
    simp only [not_mem_nil, false_iff]
    rintro ⟨_, _, start, -, inner, -⟩
    exact absurd inner.after (Nat.not_lt_zero _)
  | some start =>
    cases last : ordered.getLast? with
    | none =>
      rw [getLast?_eq_none_iff] at last
      subst last
      cases head
    | some stop =>
      simp only [mem_filterMap]
      apply exists_congr
      intro decision
      apply and_congr_right
      intro _
      apply bridgeRisk_eq_some
      apply map_congr_left
      intro d mem
      rw [Bool.eq_iff_iff, decide_eq_true_eq, mem_marksBetween sorted head last mem]

lemma reported_iff {decision : LineageDecision} (mem : decision ∈ excluded) :
    (∃ r ∈ assessBridgeRisk store excluded window minHoleSessions, r.ticker = decision.ticker) ↔
      ∃ start n, FirstLongest (presence store.sep window decision.ticker) start n ∧
        InnerHole (presence store.sep window decision.ticker) start n ∧ minHoleSessions ≤ n := by
  constructor
  · rintro ⟨r, reported, same⟩
    obtain ⟨decision', -, start, longest, inner, enough, same', -⟩ := mem_assessBridgeRisk.1 reported
    rw [← same', same] at longest inner
    exact ⟨start + 1, r.holeSessions, longest, inner, enough⟩
  · rintro ⟨_ | start, n, longest, inner, enough⟩
    · exact absurd inner.before (Nat.lt_irrefl 0)
    · obtain ⟨last, holeStart, holeEnd, first, atLast, atStart, atEnd, atFirst⟩ :=
        exists_sessions (window.mergeSort (· ≤ ·)) (by rw [presence, length_map]) inner
      refine ⟨⟨decision.ticker, decision.permaticker, n, holeStart, holeEnd, last, first⟩, ?_, rfl⟩
      exact mem_assessBridgeRisk.2 ⟨decision, mem, start, longest, inner, enough, rfl, rfl, atLast, atStart, atEnd,
        atFirst⟩

lemma complete_iff {decision : LineageDecision} (mem : decision ∈ excluded) :
    ((∃ r ∈ assessBridgeRisk store excluded window minHoleSessions, r.ticker = decision.ticker) ↔
        Bridges (presence store.sep window decision.ticker) minHoleSessions) ↔
      ¬ Overshadowed (presence store.sep window decision.ticker) minHoleSessions := by
  rw [reported_iff mem]
  generalize presence store.sep window decision.ticker = present
  by_cases bridges : Bridges present minHoleSessions
  · obtain ⟨start, n, inner, enough⟩ := bridges
    have pos : 0 < (scan present).worst := lt_of_lt_of_le inner.pos (scanned_scan.worst _ _ inner.hole)
    obtain ⟨start', -, longest⟩ := firstLongest_scan pos
    rw [overshadowed_iff ⟨start, n, inner, enough⟩ longest, not_not]
    constructor
    · intro complete
      obtain ⟨_, _, longest', inner', -⟩ := complete.2 ⟨start, n, inner, enough⟩
      obtain ⟨rfl, rfl⟩ := longest.unique longest'
      exact inner'
    · intro inner'
      have more : minHoleSessions ≤ (scan present).worst :=
        enough.trans (Int.ofNat_le.2 (longest.longest _ _ inner.hole))
      exact iff_of_true ⟨_, _, longest, inner', more⟩ ⟨start, n, inner, enough⟩
  · refine iff_of_true (iff_of_false ?_ bridges) fun overshadowed => bridges overshadowed.1
    rintro ⟨start, n, -, inner, enough⟩
    exact bridges ⟨start, n, inner, enough⟩

lemma genuine_of_mem {r : BridgeRisk} (mem : r ∈ assessBridgeRisk store excluded window minHoleSessions) :
    Genuine store.sep excluded window minHoleSessions r := by
  obtain ⟨decision, listed, start, -, inner, enough, same, -, last, holeStart, holeEnd, first⟩ :=
      mem_assessBridgeRisk.1 mem
  exact ⟨⟨decision, listed, same.symm⟩, start, same ▸ inner, enough, last, holeStart, holeEnd, first⟩

/-- The report is complete, and what it says genuine, exactly when no excluded symbol is overshadowed. -/
theorem assessBridgeRisk_complete_iff (store : LineageStore) (excluded : List LineageDecision) (window : List Date)
    (minHoleSessions : ℤ) :
    (∀ decision ∈ excluded,
        ((∃ r ∈ assessBridgeRisk store excluded window minHoleSessions, r.ticker = decision.ticker) ↔
          Bridges (presence store.sep window decision.ticker) minHoleSessions)) ∧
      (∀ r ∈ assessBridgeRisk store excluded window minHoleSessions,
        Genuine store.sep excluded window minHoleSessions r) ↔
    ∀ decision ∈ excluded, ¬ Overshadowed (presence store.sep window decision.ticker) minHoleSessions := by
  constructor
  · intro complete decision mem
    exact (complete_iff mem).1 (complete.1 decision mem)
  · intro clear
    refine ⟨?_, fun r mem => genuine_of_mem mem⟩
    intro decision mem
    exact (complete_iff mem).2 (clear decision mem)

end Assessment

local instance days_ne_zero : NeZero 28 := ⟨by decide⟩

def january (d : Fin 28) : Date :=
  ⟨2026, 1, d.val + 1, (by decide : ∀ d : Fin 28, (DateTimeFields.mk 2026 1 (d.val + 1) 0 0 0 0 none).Valid) d⟩

def twoHoles : LineageStore where
  tickers := []
  actions := []
  sep := [⟨"ECHO", january 8, some 10⟩, ⟨"ECHO", january 13, some 90⟩]

def week : List Date := [january 5, january 6, january 7, january 8, january 11, january 12, january 13]

/-- Both holes are long enough, and the inner one bridges; the longer hole before it hides it. -/
theorem bridge_missed :
    assessBridgeRisk twoHoles [refuse "ECHO" none .unresolvedRemapGap []] week 2 = [] ∧
      Bridges (presence twoHoles.sep week "ECHO") 2 := by
  have sorted : week.mergeSort (· ≤ ·) = week := mergeSort_of_pairwise (by decide +kernel)
  have present : presence twoHoles.sep week "ECHO" = [false, false, false, true, false, false, true] := by
    rw [presence, sorted]
    decide +kernel
  refine ⟨?_, 4, 2, ?_, le_rfl⟩
  · rw [assessBridgeRisk, sorted]
    decide +kernel
  rw [present]
  refine ⟨⟨by decide, ?_, ?_, by decide⟩, by decide, by decide⟩
  · intro i lt
    interval_cases i <;> rfl
  · intro k eq
    obtain rfl : k = 3 := by omega
    rfl

end Workbench.Validation
