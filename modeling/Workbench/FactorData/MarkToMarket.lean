import Workbench.FactorData.Simulation

/-!
# What a simulated book is worth

`reference` says what a book is worth day by day without marking it from day to day: a segment starts with the equity
after the cost of its rebalance, a sleeve is worth its part of that by the growth of its name since the rebalance date,
and what is not invested is cash. `simulate_cash_book` is the reference over all segments, and `_simulate` the reference
over the segments whose selection is not empty (`simulation_exact`): it gives no points for the others, and keeps the
book it had before them.

The growth of a name is the ratio of its last price in the days to its price on the rebalance date. What the sleeves of
names without a price on that date are worth is left open here.
-/

namespace Workbench.FactorData
open Workbench.Lib List Dict

variable {ν : Type}

/-! ## The reference -/

def quote (store : PriceStore ν) (ticker : ν) (t : ℤ) : Option ℚ := (store ticker t).filter (0 < ·)

/-- The last price in the days by the price on the rebalance date; one where either is missing. -/
def ratioOver (store : PriceStore ν) (d : ℤ) (days : List ℤ) (ticker : ν) : ℚ :=
  match (days.filterMap (quote store ticker)).getLast?, quote store ticker d with
  | some last, some ref => last / ref
  | _, _ => 1

/-- The rebalance dates with trading days after them, each with these days. -/
def segments (tradingDays : List ℤ) : List ℤ → List (ℤ × List ℤ)
  | [] => []
  | d :: rest =>
    let seg := segment tradingDays d rest.head?
    if seg = [] then segments tradingDays rest else (d, seg) :: segments tradingDays rest

/-- What a book is worth after some days of a segment: its sleeves and its cash. -/
def bookValue (growth : ℤ → List ℤ → ν → ℚ) (weights : Dict ν ℚ) (d : ℤ) (invested : ℚ) (days : List ℤ) : ℚ :=
  (weights.entries.map fun e => e.2 * invested * growth d days e.1).sum + (1 - weights.values.sum) * invested

/-- What the weights of a book have drifted to at the end of a segment. -/
def driftedTo (growth : ℤ → List ℤ → ν → ℚ) (weights : Dict ν ℚ) (d : ℤ) (invested : ℚ) (days : List ℤ) : Dict ν ℚ :=
  let worth := bookValue growth weights d invested days
  weights.mapValues fun tk w => if 0 < worth then w * invested * growth d days tk / worth else 0

def reference [DecidableEq ν] (growth : ℤ → List ℤ → ν → ℚ) (select : ℤ → Dict ν ℚ) (bps : ℚ) :
    ℚ → Dict ν ℚ → List (ℤ × List ℤ) → List (ℤ × ℚ)
  | _, _, [] => []
  | equity, prev, (d, seg) :: rest =>
    let weights := select d
    let invested := charge bps equity weights prev
    (seg.map fun t => (t, bookValue growth weights d invested (seg.filter (· ≤ t)))) ++
      reference growth select bps (bookValue growth weights d invested seg)
        (driftedTo growth weights d invested seg) rest

/-! ## One sleeve -/

section Sleeve
variable {px : ℤ → Option ℚ} {days : List ℤ} {value ref : ℚ}

lemma foldl_markDay (positive : ∀ t p, px t = some p → 0 < p) (pos : 0 < ref) :
    days.foldl (markDay px) ⟨value, ref⟩ =
      ⟨value * ((days.filterMap px).getLastD ref / ref), (days.filterMap px).getLastD ref⟩ := by
  induction days generalizing value ref with
  | nil => rw [foldl_nil, filterMap_nil, getLastD_nil, div_self pos.ne', mul_one]
  | cons t days ih =>
    cases found : px t with
    | none =>
      have stays : markDay px ⟨value, ref⟩ t = ⟨value, ref⟩ := by rw [markDay, found]
      rw [foldl_cons, stays, filterMap_cons_none found]
      exact ih pos
    | some p =>
      have p_pos := positive t p found
      have moves : markDay px ⟨value, ref⟩ t = ⟨value * (p / ref), p⟩ := by
        rw [markDay, found]
        exact if_pos pos
      rw [foldl_cons, moves, filterMap_cons_some found, getLastD_cons, ih p_pos, Sleeve.mk.injEq]
      refine ⟨?_, rfl⟩
      field_simp

lemma foldl_markDay_of_zero : days.foldl (markDay px) ⟨value, 0⟩ = ⟨value, 0⟩ := by
  induction days with
  | nil => rfl
  | cons t days ih =>
    have stays : markDay px ⟨value, 0⟩ t = ⟨value, 0⟩ := by
      rw [markDay]
      split
      · rw [if_neg (lt_irrefl _)]
      · rfl
    rw [foldl_cons, stays, ih]

end Sleeve

section Segment
variable {store : PriceStore ν} {tradingDays seg days : List ℤ} {d : ℤ} {next : Option ℤ} {tk : ν} {t : ℤ}

lemma quote_pos {p : ℚ} (found : quote store tk t = some p) : 0 < p :=
  of_decide_eq_true (Option.filter_eq_some_iff.1 found).2

lemma mem_segment : t ∈ segment tradingDays d next ↔ t ∈ tradingDays ∧ d < t ∧ ∀ n ∈ next, t ≤ n := by
  rw [segment, mem_filter, decide_eq_true_eq]

lemma sorted_segment (ascending : tradingDays.Pairwise (· < ·)) : (segment tradingDays d next).Pairwise (· < ·) :=
  ascending.filter _

lemma pxMap_eq {segEnd : ℤ} (after : d ≤ t) (before : t ≤ segEnd) : pxMap store d segEnd tk t = quote store tk t := by
  rw [pxMap, PriceStore.getPrices, if_pos ⟨after, before⟩]
  rfl

lemma le_getLastD (sorted : seg.Pairwise (· < ·)) (mem : t ∈ seg) : t ≤ seg.getLastD d := by
  induction seg using List.reverseRecOn with
  | nil => cases mem
  | append_singleton seg u _ =>
    rw [getLastD_concat]
    rcases mem_append.1 mem with earlier | last
    · exact ((pairwise_append.1 sorted).2.2 t earlier u (mem_singleton_self u)).le
    · exact (mem_singleton.1 last).le

lemma sleeve_value {w equity : ℚ} (sorted : seg.Pairwise (· < ·)) (after : ∀ t ∈ seg, d < t) (some_days : seg ≠ [])
    (within : ∀ t ∈ days, t ∈ seg) :
    (days.foldl (markDay (pxMap store d (seg.getLastD d) tk))
      ⟨w * equity, (pxMap store d (seg.getLastD d) tk d).getD 0⟩).value =
        w * equity * ratioOver store d days tk := by
  obtain ⟨u, seg', rfl⟩ := exists_cons_of_ne_nil some_days
  have starts : d ≤ (u :: seg').getLastD d :=
    (after u mem_cons_self).le.trans (le_getLastD sorted mem_cons_self)
  have quotes : days.filterMap (pxMap store d ((u :: seg').getLastD d) tk) = days.filterMap (quote store tk) := by
    apply filterMap_congr
    intro t mem
    exact pxMap_eq (after t (within t mem)).le (le_getLastD sorted (within t mem))
  rw [pxMap_eq le_rfl starts, ratioOver]
  cases found : quote store tk d with
  | none =>
    rw [Option.getD_none, foldl_markDay_of_zero]
    split
    · rename_i contra
      cases contra
    · rw [mul_one]
  | some p =>
    have positive : ∀ t q, pxMap store d ((u :: seg').getLastD d) tk t = some q → 0 < q := by
      intro t q held
      exact of_decide_eq_true (Option.filter_eq_some_iff.1 held).2
    rw [Option.getD_some, foldl_markDay positive (quote_pos found), quotes, getLastD_eq_getLast?]
    cases last : (days.filterMap (quote store tk)).getLast? with
    | none => rw [Option.getD_none, div_self (quote_pos found).ne']
    | some q => rw [Option.getD_some]

end Segment

/-! ## A segment -/

section Marking
variable {px : ν → ℤ → Option ℚ} {cash : ℚ} {seg done : List ℤ} {start : Dict ν Sleeve} {m : Marked ν}

def after (px : ν → ℤ → Option ℚ) (start : Dict ν Sleeve) (days : List ℤ) : Dict ν Sleeve :=
  start.mapValues fun tk s => days.foldl (markDay (px tk)) s

variable (cash done m) in
lemma markSegment_eq (sorted : (done ++ seg).Pairwise (· < ·)) (sleeves : m.sleeves = after px start done) :
    markSegment px cash seg m =
      { sleeves := after px start (done ++ seg)
        equity := if seg = [] then m.equity else total (after px start (done ++ seg)) + cash
        curve := m.curve ++ seg.map fun t => (t, total (after px start ((done ++ seg).filter (· ≤ t))) + cash) } := by
  induction seg generalizing done m with
  | nil =>
    rw [markSegment, append_nil, map_nil, append_nil, if_pos rfl, ← sleeves]
  | cons t seg ih =>
    have one : (m.sleeves.mapValues fun tk s => markDay (px tk) s t) = after px start (done ++ [t]) := by
      rw [sleeves, after, after, mapValues_mapValues]
      simp only [foldl_append, foldl_cons, foldl_nil]
    have assoc : done ++ t :: seg = done ++ [t] ++ seg := by simp
    -- the days up to this one are those that are done and this one
    have upTo : (done ++ t :: seg).filter (· ≤ t) = done ++ [t] := by
      have parts := pairwise_append.1 sorted
      rw [filter_append, filter_cons_of_pos (by simp)]
      congr 1
      · rw [filter_eq_self]
        intro u mem
        exact decide_eq_true (parts.2.2 u mem t mem_cons_self).le
      · congr 1
        rw [filter_eq_nil_iff]
        intro u mem
        have later := (pairwise_cons.1 parts.2.1).1 u mem
        rw [decide_eq_true_eq]
        exact later.not_ge
    rw [markSegment, one, ih _ _ (by rw [← assoc]; exact sorted) rfl, ← assoc, map_cons, upTo, Marked.mk.injEq]
    refine ⟨rfl, ?_, ?_⟩
    · rw [if_neg (cons_ne_nil t seg)]
      split
      · rename_i nil
        rw [nil]
      · rfl
    · rw [append_assoc, singleton_append]

end Marking

section Closed
variable {store : PriceStore ν} {weights : Dict ν ℚ} {equity : ℚ} {d : ℤ} {seg days : List ℤ} {curve : List (ℤ × ℚ)}

lemma total_after (sorted : seg.Pairwise (· < ·)) (later : ∀ t ∈ seg, d < t) (some_days : seg ≠ [])
    (within : ∀ t ∈ days, t ∈ seg) :
    total (after (pxMap store d (seg.getLastD d))
      (startSleeves (pxMap store d (seg.getLastD d)) d weights equity) days) +
      (1 - weights.values.sum) * equity = bookValue (ratioOver store) weights d equity days := by
  rw [total, after, startSleeves, mapValues_mapValues, bookValue, Dict.values, Dict.mapValues, map_map,
    map_map]
  congr 2
  apply map_congr_left
  intro e _
  exact sleeve_value sorted later some_days within

variable (store weights equity curve) in
lemma marked_segment {cash : ℚ} (sorted : seg.Pairwise (· < ·)) (later : ∀ t ∈ seg, d < t) (some_days : seg ≠ [])
    (banked : cash = (1 - weights.values.sum) * equity) {m : Marked ν}
    (marked : m = markSegment (pxMap store d (seg.getLastD d)) cash seg
      ⟨startSleeves (pxMap store d (seg.getLastD d)) d weights equity, equity, curve⟩) :
    m.equity = bookValue (ratioOver store) weights d equity seg ∧
      m.curve = curve ++ seg.map (fun t => (t, bookValue (ratioOver store) weights d equity (seg.filter (· ≤ t)))) ∧
      drifted m = driftedTo (ratioOver store) weights d equity seg := by
  have start : startSleeves (pxMap store d (seg.getLastD d)) d weights equity =
      after (pxMap store d (seg.getLastD d)) (startSleeves (pxMap store d (seg.getLastD d)) d weights equity) [] :=
    (mapValues_eq_self fun _ _ => rfl).symm
  have closed := markSegment_eq cash []
    ⟨startSleeves (pxMap store d (seg.getLastD d)) d weights equity, equity, curve⟩ sorted start
  rw [nil_append, ← marked, if_neg some_days, banked, total_after sorted later some_days fun _ mem => mem] at closed
  rw [closed]
  refine ⟨rfl, ?_, ?_⟩
  · dsimp only
    congr 1
    apply map_congr_left
    intro t _
    rw [total_after sorted later some_days fun _ mem => (mem_filter.1 mem).1]
  · rw [drifted, driftedTo, after, startSleeves, mapValues_mapValues, mapValues_mapValues]
    congr 1
    funext tk w
    dsimp only
    rw [sleeve_value sorted later some_days fun _ mem => mem]

end Closed

/-! ## The books -/

section Books
variable [LinearOrder ν] {store : PriceStore ν} {tradingDays rebalances : List ℤ} {select : ℤ → Dict ν ℚ}
  {bps initialEquity : ℚ}

lemma cashLoop_curve (ascending : tradingDays.Pairwise (· < ·)) {st : CashState ν} :
    (cashLoop store tradingDays select bps rebalances st).curve =
      st.curve ++ reference (ratioOver store) select bps st.equity st.prevW (segments tradingDays rebalances) := by
  induction rebalances generalizing st with
  | nil => rw [cashLoop, segments, reference, append_nil]
  | cons d rest ih =>
    rw [cashLoop, segments]
    split
    · exact ih
    · rename_i some_days
      have later : ∀ t ∈ segment tradingDays d rest.head?, d < t := fun t mem => (mem_segment.1 mem).2.1
      obtain ⟨equity, curve, drift⟩ := marked_segment store (select d)
        (charge bps st.equity (select d) st.prevW) st.curve (sorted_segment ascending) later some_days rfl rfl
      rw [ih, reference, equity, curve, drift, append_assoc]

lemma simulateLoop_curve (ascending : tradingDays.Pairwise (· < ·))
    (whole : ∀ d ∈ rebalances, (select d).entries ≠ [] → (select d).values.sum = 1) (st : SimState ν) :
    (simulateLoop store tradingDays select bps rebalances st).curve =
      st.curve ++ reference (ratioOver store) select bps st.equity st.prevWeights
        ((segments tradingDays rebalances).filter fun s => (select s.1).entries ≠ []) := by
  induction rebalances generalizing st with
  | nil => rw [simulateLoop, segments, filter_nil, reference, append_nil]
  | cons d rest ih =>
    have ih := ih fun d' mem => whole d' (mem_cons_of_mem d mem)
    rw [simulateLoop, segments]
    split
    · exact ih st
    · rename_i some_days
      dsimp only
      split
      · rename_i empty
        rw [filter_cons_of_neg (by simpa using empty), ih]
      · rename_i chosen
        have later : ∀ t ∈ segment tradingDays d rest.head?, d < t := fun t mem => (mem_segment.1 mem).2.1
        have banked : (0 : ℚ) = (1 - (select d).values.sum) * charge bps st.equity (select d) st.prevWeights := by
          rw [whole d mem_cons_self chosen, sub_self, zero_mul]
        obtain ⟨equity, curve, drift⟩ := marked_segment store (select d)
          (charge bps st.equity (select d) st.prevWeights) st.curve
            (sorted_segment ascending) later some_days banked rfl
        rw [filter_cons_of_pos (by simpa using chosen), ih, reference, equity, curve, drift, append_assoc]

end Books

/-! ## The days of a curve -/

section Days
variable {tradingDays rebalances : List ℤ} {p q : ℤ → Bool}

lemma filter_append_filter (ascending : tradingDays.Pairwise (· < ·))
    (before : ∀ t ∈ tradingDays, ∀ u ∈ tradingDays, p t = true → q u = true → t < u) :
    tradingDays.filter p ++ tradingDays.filter q = tradingDays.filter fun t => p t || q t := by
  induction tradingDays with
  | nil => rfl
  | cons t days ih =>
    obtain ⟨first, ascending⟩ := pairwise_cons.1 ascending
    have ih := ih ascending fun a memA b memB => before a (mem_cons_of_mem t memA) b (mem_cons_of_mem t memB)
    cases inP : p t with
    | true =>
      have notQ : q t = false := by
        rw [← Bool.not_eq_true]
        intro inQ
        exact lt_irrefl t (before t mem_cons_self t mem_cons_self inP inQ)
      rw [filter_cons_of_pos inP, filter_cons_of_neg (by rw [notQ]; exact Bool.false_ne_true),
        filter_cons_of_pos (by rw [inP]; rfl), cons_append, ih]
    | false =>
      rw [filter_cons_of_neg (by rw [inP]; exact Bool.false_ne_true)]
      cases inQ : q t with
      | false =>
        rw [filter_cons_of_neg (by rw [inQ]; exact Bool.false_ne_true),
          filter_cons_of_neg (by rw [inP, inQ]; exact Bool.false_ne_true), ih]
      | true =>
        -- the later days are not in the first part, which comes before this day
        have nil : days.filter p = [] := by
          rw [filter_eq_nil_iff]
          intro a mem inP'
          exact (before a (mem_cons_of_mem t mem) t mem_cons_self inP' inQ).not_gt (first a mem)
        rw [nil, nil_append] at ih ⊢
        rw [filter_cons_of_pos inQ, filter_cons_of_pos (by rw [inQ, Bool.or_true]), ih]

lemma getLast?_before {t : ℤ} (inOrder : rebalances.Pairwise (· < ·)) :
    (rebalances.filter (· < t)).getLast? = none ↔ ∀ n ∈ rebalances.head?, t ≤ n := by
  rw [getLast?_eq_none_iff, filter_eq_nil_iff]
  cases rebalances with
  | nil => simp
  | cons n rest =>
    rw [head?_cons]
    constructor
    · intro none n' first
      obtain rfl := Option.some.inj first
      exact not_lt.1 fun before => none n mem_cons_self (decide_eq_true before)
    · intro first d mem before
      have n_first := first n rfl
      have before : d < t := of_decide_eq_true before
      rcases mem_cons.1 mem with rfl | mem
      · exact n_first.not_gt before
      · exact (n_first.trans ((pairwise_cons.1 inOrder).1 d mem).le).not_gt before

/-- Whether a day has a last rebalance date before it, and that is one of some. -/
def follows (p : ℤ → Bool) (rebalances : List ℤ) (t : ℤ) : Bool :=
  ((rebalances.filter (· < t)).getLast?.map p).getD false

lemma follows_true {t : ℤ} (inOrder : rebalances.Pairwise (· < ·)) :
    follows (fun _ => true) rebalances t = decide (∃ first ∈ rebalances.head?, first < t) := by
  rw [follows]
  cases last : (rebalances.filter (· < t)).getLast? with
  | none =>
    have notBefore := (getLast?_before inOrder).1 last
    symm
    apply decide_eq_false
    rintro ⟨first, head, before⟩
    exact (notBefore first head).not_gt before
  | some d =>
    symm
    apply decide_eq_true
    by_contra none
    push Not at none
    rw [(getLast?_before inOrder).2 none] at last
    cases last

lemma days_segments (ascending : tradingDays.Pairwise (· < ·)) (inOrder : rebalances.Pairwise (· < ·)) :
    ((segments tradingDays rebalances).filter (p ·.1)).flatMap Prod.snd = tradingDays.filter
      (follows p rebalances) := by
  induction rebalances with
  | nil =>
    rw [segments, filter_nil, flatMap_nil]
    symm
    rw [filter_eq_nil_iff]
    intro t _ contra
    cases contra
  | cons d rest ih =>
    obtain ⟨first, inOrder⟩ := pairwise_cons.1 inOrder
    have head : ((segments tradingDays (d :: rest)).filter (p ·.1)).flatMap Prod.snd =
        (segment tradingDays d rest.head?).filter (fun _ => p d) ++
          ((segments tradingDays rest).filter (p ·.1)).flatMap Prod.snd := by
      rw [segments]
      split
      · rename_i nil
        rw [nil, filter_nil, nil_append]
      · cases picked : p d with
        | true => rw [filter_cons, if_pos picked, flatMap_cons, filter_true]
        | false =>
          rw [filter_cons, if_neg (by rw [picked]; exact Bool.false_ne_true), filter_false, nil_append]
    rw [head, ih inOrder, segment, filter_filter, filter_append_filter ascending]
    · apply filter_congr
      intro t _
      rw [follows, follows]
      cases Decidable.em (d < t) with
      | inl before =>
        rw [filter_cons, if_pos (decide_eq_true before), getLast?_cons]
        cases last : (rest.filter (· < t)).getLast? with
        | none =>
          have upTo := (getLast?_before inOrder).1 last
          rw [decide_eq_true (show d < t ∧ ∀ n ∈ rest.head?, t ≤ n from ⟨before, upTo⟩)]
          simp
        | some e =>
          have past : ¬∀ n ∈ rest.head?, t ≤ n := by
            intro upTo
            rw [(getLast?_before inOrder).2 upTo] at last
            cases last
          rw [decide_eq_false fun both => past both.2]
          simp
      | inr notBefore =>
        have none : rest.filter (· < t) = [] := by
          rw [filter_eq_nil_iff]
          intro n mem before
          exact notBefore ((first n mem).trans (of_decide_eq_true before))
        rw [filter_cons, if_neg (by simpa using notBefore), none]
        simp [notBefore]
    · intro t _ u _ inSeg inRest
      have upTo : ∀ n ∈ rest.head?, t ≤ n := by
        rw [Bool.and_eq_true, decide_eq_true_eq] at inSeg
        exact inSeg.2.2
      by_contra notBefore
      -- a day that is no later than the first day of the rest has no rebalance date of the rest before it
      have none : (rest.filter (· < u)).getLast? = none := by
        rw [getLast?_before inOrder]
        intro n head
        exact (not_lt.1 notBefore).trans (upTo n head)
      rw [follows, none] at inRest
      cases inRest

end Days

section Curve
variable [DecidableEq ν] {growth growth' : ℤ → List ℤ → ν → ℚ} {select select' : ℤ → Dict ν ℚ} {bps equity v : ℚ}
  {prev : Dict ν ℚ} {segs : List (ℤ × List ℤ)} {t : ℤ}

lemma dates_reference : (reference growth select bps equity prev segs).map Prod.fst = segs.flatMap Prod.snd := by
  induction segs generalizing equity prev with
  | nil => rfl
  | cons s segs ih =>
    obtain ⟨d, seg⟩ := s
    rw [reference, map_append, map_map, ih, flatMap_cons]
    congr 1
    exact map_id seg

/-- Segments one after the other, each after its rebalance date. -/
structure Consecutive (segs : List (ℤ × List ℤ)) : Prop where
  later : ∀ s ∈ segs, ∀ t ∈ s.2, s.1 < t
  inOrder : segs.Pairwise fun s s' => s.1 < s'.1 ∧ ∀ t ∈ s.2, t ≤ s'.1

lemma mem_of_mem_segments {tradingDays rebalances : List ℤ} {s : ℤ × List ℤ}
    (mem : s ∈ segments tradingDays rebalances) : s.1 ∈ rebalances := by
  induction rebalances with
  | nil => cases mem
  | cons d rest ih =>
    rw [segments] at mem
    split at mem
    · exact mem_cons_of_mem d (ih mem)
    · rcases mem_cons.1 mem with rfl | mem
      · exact mem_cons_self
      · exact mem_cons_of_mem d (ih mem)

lemma consecutive_segments {tradingDays rebalances : List ℤ} (inOrder : rebalances.Pairwise (· < ·)) :
    Consecutive (segments tradingDays rebalances) := by
  induction rebalances with
  | nil => exact ⟨nofun, List.Pairwise.nil⟩
  | cons d rest ih =>
    obtain ⟨first, inOrder⟩ := pairwise_cons.1 inOrder
    have ih := ih inOrder
    rw [segments]
    split
    · exact ih
    · refine ⟨?_, pairwise_cons.2 ⟨?_, ih.inOrder⟩⟩
      · intro s mem t day
        rcases mem_cons.1 mem with rfl | mem
        · exact (mem_segment.1 day).2.1
        · exact ih.later s mem t day
      · intro s' mem
        have start := mem_of_mem_segments mem
        refine ⟨first s'.1 start, fun t day => ?_⟩
        -- the days end with the next rebalance date, which is the first of the rest
        cases rest with
        | nil => cases start
        | cons n rest =>
          have upTo : t ≤ n := (mem_segment.1 day).2.2 n rfl
          rcases mem_cons.1 start with same | later
          · rw [same]
            exact upTo
          · exact upTo.trans ((pairwise_cons.1 inOrder).1 s'.1 later).le

lemma day_of_mem_reference {x : ℤ × ℚ} (mem : x ∈ reference growth select bps equity prev segs) :
    ∃ s ∈ segs, x.1 ∈ s.2 := by
  have day : x.1 ∈ (reference growth select bps equity prev segs).map Prod.fst := mem_map_of_mem mem
  rw [dates_reference] at day
  exact mem_flatMap.1 day

lemma notMem_reference {p : ℤ → Bool} (later : ∀ s ∈ segs, ∀ u ∈ s.2, s.1 < u) (from_day : ∀ s ∈ segs, t ≤ s.1) :
    (t, v) ∉ reference growth select bps equity prev (segs.filter (p ·.1)) := by
  intro point
  obtain ⟨s, mem, day⟩ := day_of_mem_reference point
  have mem := (mem_filter.1 mem).1
  exact (later s mem t day).not_ge (from_day s mem)

omit [DecidableEq ν] in
lemma bookValue_congr {weights : Dict ν ℚ} {d : ℤ} {days : List ℤ} {invested : ℚ}
    (same : ∀ tk, growth d days tk = growth' d days tk) :
    bookValue growth weights d invested days = bookValue growth' weights d invested days := by
  simp only [bookValue, same]

omit [DecidableEq ν] in
lemma driftedTo_congr {weights : Dict ν ℚ} {d : ℤ} {days : List ℤ} {invested : ℚ}
    (same : ∀ tk, growth d days tk = growth' d days tk) :
    driftedTo growth weights d invested days = driftedTo growth' weights d invested days := by
  simp only [driftedTo, bookValue_congr same, same]

variable (equity prev) in
lemma reference_causal {p p' : ℤ → Bool} (consecutive : Consecutive segs) (picked : ∀ d, d < t → p d = p' d)
    (selected : ∀ d, d < t → select d = select' d)
    (grown : ∀ d days tk, d < t → (∀ u ∈ days, u ≤ t) → growth d days tk = growth' d days tk) :
    (t, v) ∈ reference growth select bps equity prev (segs.filter (p ·.1)) ↔
      (t, v) ∈ reference growth' select' bps equity prev (segs.filter (p' ·.1)) := by
  induction segs generalizing equity prev with
  | nil => rw [filter_nil, filter_nil, reference, reference]
  | cons s segs ih =>
    obtain ⟨d, seg⟩ := s
    obtain ⟨after_d, inOrder⟩ := pairwise_cons.1 consecutive.inOrder
    have later : ∀ s ∈ segs, ∀ u ∈ s.2, s.1 < u := fun s mem => consecutive.later s (mem_cons_of_mem _ mem)
    have ih := fun equity prev => ih equity prev ⟨later, inOrder⟩
    cases Decidable.em (d < t) with
    | inr notBefore =>
      have from_day : ∀ s ∈ (d, seg) :: segs, t ≤ s.1 := by
        intro s mem
        rcases mem_cons.1 mem with rfl | mem
        · exact not_lt.1 notBefore
        · exact (not_lt.1 notBefore).trans (after_d s mem).1.le
      exact iff_of_false (notMem_reference consecutive.later from_day) (notMem_reference consecutive.later from_day)
    | inl before =>
      cases pick : p d with
      | false =>
        have pick' : p' d = false := by rw [← picked d before, pick]
        rw [filter_cons, if_neg (by rw [pick]; exact Bool.false_ne_true), filter_cons,
          if_neg (by rw [pick']; exact Bool.false_ne_true)]
        exact ih equity prev
      | true =>
        have pick' : p' d = true := by rw [← picked d before, pick]
        rw [filter_cons, if_pos pick, filter_cons, if_pos pick', reference, reference, ← selected d before,
          mem_append, mem_append]
        apply or_congr
        · rw [mem_map, mem_map]
          apply exists_congr
          intro u
          apply and_congr_right
          intro _
          rw [Prod.mk.injEq, Prod.mk.injEq]
          apply and_congr_right
          rintro rfl
          rw [bookValue_congr fun tk => grown d _ tk before fun w mem => of_decide_eq_true (mem_filter.1 mem).2]
        · cases Decidable.em (∀ u ∈ seg, u ≤ t) with
          | inl past =>
            have same : ∀ tk, growth d seg tk = growth' d seg tk := fun tk => grown d seg tk before past
            rw [bookValue_congr same, driftedTo_congr same]
            exact ih _ _
          | inr ahead =>
            -- the segment reaches beyond the day, so what comes after it starts later
            push Not at ahead
            obtain ⟨u, mem, beyond⟩ := ahead
            have from_day : ∀ s ∈ segs, t ≤ s.1 := fun s listed => beyond.le.trans ((after_d s listed).2 u mem)
            exact iff_of_false (notMem_reference later from_day) (notMem_reference later from_day)

end Curve

/-! ## The two simulators -/

/-- The growth of names without a price on the rebalance date is left open. -/
structure Growth (store : PriceStore ν) (growth : ℤ → List ℤ → ν → ℚ) : Prop where
  priced : ∀ d days tk, (quote store tk d).isSome → growth d days tk = ratioOver store d days tk

/-- Every selection is empty or adds up to one. -/
def FullyInvested (rebalances : List ℤ) (select : ℤ → Dict ν ℚ) : Prop :=
  ∀ d ∈ rebalances, (select d).entries ≠ [] → (select d).values.sum = 1

/-- Whether the selection of a rebalance date is not empty. -/
def chosen (select : ℤ → Dict ν ℚ) (d : ℤ) : Bool := (select d).entries ≠ []

/-- A curve that depends on nothing later: other prices after a day and other selections from that day on leave the
point of that day. -/
def Causal (curve : PriceStore ν → (ℤ → Dict ν ℚ) → List (ℤ × ℚ)) (rebalances : List ℤ) : Prop :=
  ∀ store store' select select' t, FullyInvested rebalances select → FullyInvested rebalances select' →
    (∀ tk u, u ≤ t → store tk u = store' tk u) → (∀ d, d < t → select d = select' d) →
      ∀ v, (t, v) ∈ curve store select ↔ (t, v) ∈ curve store' select'

lemma ratioOver_congr {store store' : PriceStore ν} {d t : ℤ} {days : List ℤ} {tk : ν} (before : d < t)
    (past : ∀ u ∈ days, u ≤ t) (same : ∀ tk u, u ≤ t → store tk u = store' tk u) :
    ratioOver store d days tk = ratioOver store' d days tk := by
  have quotes : days.filterMap (quote store tk) = days.filterMap (quote store' tk) := by
    apply filterMap_congr
    intro u mem
    rw [quote, quote, same tk u (past u mem)]
  have ref : quote store tk d = quote store' tk d := by rw [quote, quote, same tk d before.le]
  rw [ratioOver, ratioOver, quotes, ref]

section Simulators
variable [LinearOrder ν] {store : PriceStore ν} {tradingDays rebalances : List ℤ} {select : ℤ → Dict ν ℚ}
  {bps initialEquity : ℚ}

lemma simulateCashBook_eq (ascending : tradingDays.Pairwise (· < ·)) :
    (simulateCashBook store tradingDays select bps initialEquity rebalances).1 =
      reference (ratioOver store) select bps initialEquity Dict.empty
        ((segments tradingDays rebalances).filter fun _ => true) := by
  rw [filter_true]
  exact cashLoop_curve ascending

lemma simulate_eq (ascending : tradingDays.Pairwise (· < ·)) (invested : FullyInvested rebalances select) :
    (simulate store tradingDays select bps initialEquity rebalances).1 =
      reference (ratioOver store) select bps initialEquity Dict.empty
        ((segments tradingDays rebalances).filter (chosen select ·.1)) :=
  simulateLoop_curve ascending invested _

lemma causal_simulateCashBook (ascending : tradingDays.Pairwise (· < ·)) (inOrder : rebalances.Pairwise (· < ·)) :
    Causal (fun (store : PriceStore ν) select =>
      (simulateCashBook store tradingDays select bps initialEquity rebalances).1)
      rebalances := by
  intro store store' select select' t _ _ prices selections v
  beta_reduce
  rw [simulateCashBook_eq ascending, simulateCashBook_eq ascending]
  exact reference_causal initialEquity Dict.empty (p := fun _ => true) (consecutive_segments inOrder)
    (fun _ _ => rfl) selections fun d days tk before past => ratioOver_congr before past prices

lemma causal_simulate (ascending : tradingDays.Pairwise (· < ·)) (inOrder : rebalances.Pairwise (· < ·)) :
    Causal (fun (store : PriceStore ν) select =>
      (simulate store tradingDays select bps initialEquity rebalances).1) rebalances := by
  intro store store' select select' t invested invested' prices selections v
  beta_reduce
  rw [simulate_eq ascending invested, simulate_eq ascending invested']
  exact reference_causal initialEquity Dict.empty (consecutive_segments inOrder)
    (fun d before => by rw [chosen, chosen, selections d before]) selections
    fun d days tk before past => ratioOver_congr before past prices

/-- The cash book is the reference over all segments and `_simulate` the reference over those whose selection is not
empty; with no selection empty they are equal, and both are causal. -/
theorem simulation_exact (ascending : tradingDays.Pairwise (· < ·)) (among : rebalances.Sublist tradingDays)
    (invested : FullyInvested rebalances select) :
    let cashBook := fun store select => (simulateCashBook store tradingDays select bps initialEquity rebalances).1
    let book := fun store select => (simulate store tradingDays select bps initialEquity rebalances).1
    (∃ growth, Growth store growth ∧
      cashBook store select =
        reference growth select bps initialEquity Dict.empty (segments tradingDays rebalances) ∧
      book store select =
        reference growth select bps initialEquity Dict.empty
          ((segments tradingDays rebalances).filter (chosen select ·.1))) ∧
    (cashBook store select).map Prod.fst = tradingDays.filter (fun t => ∃ first ∈ rebalances.head?, first < t) ∧
    (book store select).map Prod.fst = tradingDays.filter (follows (chosen select) rebalances) ∧
    ((∀ d ∈ rebalances, chosen select d = true) → book store select = cashBook store select) ∧
    Causal cashBook rebalances ∧ Causal book rebalances := by
  intro cashBook book
  have inOrder : rebalances.Pairwise (· < ·) := ascending.sublist among
  have cash_eq : cashBook store select = reference (ratioOver store) select bps initialEquity Dict.empty
      ((segments tradingDays rebalances).filter fun _ => true) := simulateCashBook_eq ascending
  have book_eq : book store select = reference (ratioOver store) select bps initialEquity Dict.empty
      ((segments tradingDays rebalances).filter (chosen select ·.1)) := simulate_eq ascending invested
  refine ⟨⟨ratioOver store, ⟨fun _ _ _ _ => rfl⟩, ?_, book_eq⟩, ?_, ?_, ?_, causal_simulateCashBook ascending inOrder,
    causal_simulate ascending inOrder⟩
  · rw [cash_eq, filter_true]
  · rw [cash_eq, dates_reference, days_segments (p := fun _ => true) ascending inOrder]
    apply filter_congr
    intro t _
    exact follows_true inOrder
  · rw [book_eq, dates_reference, days_segments ascending inOrder]
  · intro every
    rw [cash_eq, book_eq]
    congr 1
    apply filter_congr
    intro s mem
    exact every s.1 (mem_of_mem_segments mem)

end Simulators

/-- One name at ten, then at twenty: held from the first day of three, and nothing selected on the second. -/
theorem simulation_exact_held :
    let select : ℤ → Dict ℕ ℚ := fun d => if d = 0 then ⟨[(7, 1)], by decide⟩ else Dict.empty
    let store : PriceStore ℕ := fun _ t => if t = 0 then some 10 else some 20
    [(0 : ℤ), 1, 2].Pairwise (· < ·) ∧
      (simulateCashBook store [0, 1, 2] select 0 100 [0, 1]).1.map Prod.fst =
        [0, 1, 2].filter (fun t => ∃ first ∈ [(0 : ℤ), 1].head?, first < t) := by
  intro select store
  have ascending : [(0 : ℤ), 1, 2].Pairwise (· < ·) := by decide
  have invested : FullyInvested [0, 1] select := by
    intro d mem some_names
    rcases mem_cons.1 mem with rfl | mem
    · decide +kernel
    · obtain rfl := mem_singleton.1 mem
      exact absurd rfl some_names
  have among : [(0 : ℤ), 1].Sublist [0, 1, 2] := by decide
  exact ⟨ascending, (simulation_exact ascending among invested).2.1⟩

/-- An empty selection leaves `_simulate` without a point that the cash book has; and a name without a bar on the
rebalance date is marked by neither. -/
theorem empty_and_unmarked :
    let held : Dict ℕ ℚ := ⟨[(7, 1)], by decide⟩
    let select : ℤ → Dict ℕ ℚ := fun d => if d = 0 then held else Dict.empty
    let store : PriceStore ℕ := fun _ _ => some 10
    let gap : PriceStore ℕ := fun _ t => if t = 0 then none else if t < 0 then some 10 else some 20
    (simulate store [0, 1, 2] select 0 100 [0, 1]).1 ≠ (simulateCashBook store [0, 1, 2] select 0 100 [0, 1]).1 ∧
      (simulate store [0, 1, 2] select 0 100 [0, 1]).1 = [(1, 100)] ∧
      (simulateCashBook store [0, 1, 2] select 0 100 [0, 1]).1 = [(1, 100), (2, 100)] ∧
      (simulate gap [0, 1] (fun _ => held) 0 100 [0]).1 = [(1, 100)] ∧
      (simulateCashBook gap [0, 1] (fun _ => held) 0 100 [0]).1 = [(1, 100)] := by
  decide +kernel

end Workbench.FactorData
