import Workbench.Templates.RangeTrader

/-!
# A held range position is protected

A call of `on_bar` that reads a long position near the close, or at or below the stop that the day's own bars define,
returns with a SELL live or having submitted one (`range_position_protected`). This holds of the runs in which the
bars come one at a time and in order, the instance that reads the position has seen the opening bars of the day
itself, and an exit that is still flagged in flight is still live.
-/

set_option linter.dupNamespace false

namespace Workbench.Templates
open Workbench.Lib List Function

variable {p : RangeParams}

/-- Every call that saw a position to be protected has sold, or left a SELL live. -/
def Protected (s : Desk) : Prop :=
  ∀ sold live, Happened.returned true sold live ∈ s.log → sold = true ∨ live = true

/-- A bar comes while no other is worked on, and not before the last. -/
def Desk.InOrder (s : Desk) (bar : Bar) : Prop :=
  (∀ c ∈ s.calls, c = .ended) ∧
    ∀ last ∈ s.bars.head?, last.2.day < bar.day ∨ last.2.day = bar.day ∧ last.2.tod ≤ bar.tod

/-- The opening bars of the day of a bar were all seen by one instance. -/
def SeenBy (p : RangeParams) (bars : List (Nat × Bar)) (epoch : Nat) (bar : Bar) : Prop :=
  ∀ b ∈ bars, b.2.day = bar.day → p.opening b.2 = true → b.1 = epoch

/-- A call that reads a position to be protected knows the levels of the day, unless the close is near, and its
    flagged exit is live. -/
def Desk.Informed (p : RangeParams) (s : Desk) : Option Call → Prop
  | some (.reading epoch bar _) => s.due p bar = true →
    (p.levelMode = .openingRange → bar.tod < closeCutoff p → SeenBy p s.bars epoch bar) ∧
      (((s.sym epoch).any fun st => st.pending = some .exit) = true → s.sellLive = true)
  | _ => True

/-- The condition on a run; a call is not cut short while it reads the equity. -/
def Sheltered (p : RangeParams) (s : Desk) : RangeLabel → Prop
  | .begin bar => s.InOrder bar
  | .read call => s.Informed p s.calls[call]?
  | .fail call => ∀ c ∈ s.calls[call]?, ∀ epoch bar, c ≠ .equity epoch bar
  | _ => True

/-! ## What a decision leaves alone -/

/-- The part of a state that the levels come from. -/
def SymState.range (st : SymState) : Option Nat × Option ℚ × Option ℚ × Option Levels :=
  (st.tradeDay, st.orLow, st.orHigh, st.dynLevels)

section
variable {st : SymState} {equity : ℚ} {bar : Bar} {lv : Levels} {row : Option PositionRow} {long : Bool}

@[simp] lemma range_reconcile : (st.reconcile long).range = st.range := by
  rw [SymState.reconcile]
  split <;> rfl

@[simp] lemma range_accepted {reason : Reason} : (st.accepted reason).range = st.range := by
  cases reason <;> rfl

lemma range_enter : (enter p equity st bar lv).2.range = st.range := by
  rw [enter]
  repeat' split
  all_goals rfl

lemma range_onPosition : (onPosition p equity st bar lv row).2.range = st.range := by
  have kept : (st.reconcile (inLong row)).range = st.range := range_reconcile
  rw [← kept, onPosition]
  repeat' split
  all_goals first
    | rfl
    | exact range_enter

lemma reconcile_exit_iff : (st.reconcile true).pending = some .exit ↔ st.pending = some .exit := by
  rw [SymState.reconcile]
  split
  · rename_i stale
    simp at stale
    simp [stale]
  · rfl

lemma onPosition_due (is_long : inLong row = true) (close : closeCutoff p ≤ bar.tod ∨ 0 < lv.stop ∧ bar.c ≤ lv.stop) :
    (onPosition p equity st bar lv row).1 = .done ∧ st.pending = some .exit ∨
      ∃ reason, reason ≠ .rangeEntry ∧ (onPosition p equity st bar lv row).1 = .submit .sell (rowQty row) reason := by
  have positive : ¬ rowQty row ≤ 0 := by
    cases row with
    | none => cases is_long
    | some r =>
      have := (Bool.and_eq_true_iff.1 is_long).2
      exact not_le.2 (of_decide_eq_true this)
  have sells {reason : Reason} : order .sell (rowQty row) reason = .submit .sell (rowQty row) reason := if_neg positive
  by_cases flagged : st.pending = some .exit
  · refine Or.inl ⟨?_, flagged⟩
    have kept := reconcile_exit_iff.2 flagged
    rw [onPosition]
    simp only [is_long, kept]
    split
    · simp
    · rename_i early
      rw [if_pos ⟨trivial, close.resolve_left early⟩]
      simp
  · have kept := mt reconcile_exit_iff.1 flagged
    refine Or.inr ?_
    rw [onPosition]
    simp only [is_long, kept]
    split
    · exact ⟨.timeExit, by decide, by simp [sells]⟩
    · rename_i early
      rw [if_pos ⟨trivial, close.resolve_left early⟩]
      exact ⟨.stopLoss, by decide, by simp [sells]⟩

end

/-! ## The invariant -/

/-- The opening bars of a day that one instance was called with. -/
def ownBars (p : RangeParams) (bars : List (Nat × Bar)) (epoch day : Nat) : List Bar :=
  openingBars p (bars.filter fun b => b.1 = epoch) day

/-- The state of a symbol keeps the range of the bars of its day, and freezes the levels after them. -/
structure Ranges (p : RangeParams) (bars : List (Nat × Bar)) (epoch day : Nat) (st : SymState) : Prop where
  low : st.orLow = ((ownBars p bars epoch day).map (·.l)).min?
  high : st.orHigh = ((ownBars p bars epoch day).map (·.h)).max?
  frozen : ∀ lv, st.dynLevels = some lv →
    (∃ low high, st.orLow = some low ∧ st.orHigh = some high ∧ low < high ∧ lv = rangeLevels p low high) ∧
      ∃ b ∈ bars, b.2.day = day ∧ orEnd p ≤ b.2.tod

/-- The states of the symbol follow the bars; `settled` are those whose levels are resolved. -/
structure Follows (p : RangeParams) (bars settled : List (Nat × Bar)) (epoch : Nat) (sym : Nat → Option SymState) :
    Prop where
  later : ∀ e, epoch < e → sym e = none
  fresh : ∀ e, sym e = none → ∀ b ∈ bars, b.1 ≠ e
  day : ∀ e st, sym e = some st → ∃ d, st.tradeDay = some d ∧ (∃ b ∈ bars, b.1 = e ∧ b.2.day = d) ∧
    ∀ b ∈ bars, b.1 = e → b.2.day ≤ d
  ranges : p.levelMode = .openingRange → ∀ e st d, sym e = some st → st.tradeDay = some d → Ranges p settled e d st

def Call.Fits (p : RangeParams) (bars : List (Nat × Bar)) (sym : Nat → Option SymState) : Call → Prop
  | .ended => True
  | .equity epoch bar => bars.head? = some (epoch, bar) ∧ ∃ st, sym epoch = some st ∧ st.tradeDay = some bar.day
  | .emitting epoch bar lv | .reading epoch bar lv =>
    (p.levelMode = .openingRange → SeenBy p bars epoch bar) → 0 < dayStop p bars bar → lv.stop = dayStop p bars bar
  | .submitting _ _ _ _ reason due | .logging _ _ reason _ due => due = true → reason ≠ .rangeEntry
  | .explaining due => due = false

/-- Whether a call has still to resolve the levels. -/
def Call.unresolved : Call → Bool
  | .equity _ _ => true
  | _ => false

def Desk.settled (s : Desk) : List (Nat × Bar) := if s.calls.any Call.unresolved then s.bars.tail else s.bars

/-- Bars in the order of their times, the newest first. -/
def Sorted (bars : List (Nat × Bar)) : Prop :=
  bars.Pairwise fun b a => a.2.day < b.2.day ∨ a.2.day = b.2.day ∧ a.2.tod ≤ b.2.tod

/-- The invariant of the protected trader. -/
structure Shelter (p : RangeParams) (s : Desk) : Prop where
  alone : Alone s.calls
  calls : ∀ (i : Nat) (c : Call), s.calls[i]? = some c → c.Fits p s.bars s.sym
  sorted : Sorted s.bars
  follows : Follows p s.bars s.settled s.epoch s.sym
  kept : Protected s

section
variable {bars settled : List (Nat × Bar)} {sym : Nat → Option SymState} {epoch day : Nat} {bar : Bar}

lemma Sorted.cons {b : Nat × Bar} (h : Sorted bars)
    (last : ∀ a ∈ bars.head?, a.2.day < b.2.day ∨ a.2.day = b.2.day ∧ a.2.tod ≤ b.2.tod) : Sorted (b :: bars) := by
  refine pairwise_cons.2 ⟨?_, h⟩
  cases bars with
  | nil => exact fun _ mem => (by cases mem)
  | cons x bars =>
    have top := last x rfl
    intro a mem
    rcases mem_cons.1 mem with rfl | mem
    · exact top
    · have below := (pairwise_cons.1 h).1 a mem
      omega

lemma ownBars_of_seenBy (seen : SeenBy p bars epoch bar) : ownBars p bars epoch bar.day =
    openingBars p bars bar.day := by
  rw [ownBars, openingBars, openingBars, filter_map, filter_map, filter_filter]
  congr 1
  apply filter_congr
  intro b mem
  by_cases own : b.2.day = bar.day ∧ p.opening b.2 = true
  · simp [own, seen b mem own.1 own.2]
  · simp only [comp_apply, Bool.decide_and]
    simp only [not_and] at own
    by_cases same : b.2.day = bar.day
    · simp [own same]
    · simp [same]

lemma Follows.setSym {st st' : SymState} (h : Follows p bars settled epoch sym) {e : Nat} (at_e : sym e = some st)
    (range : st'.range = st.range) : Follows p bars settled epoch (Function.update sym e (some st')) := by
  obtain ⟨day, low, high, dyn⟩ : st'.tradeDay = st.tradeDay ∧ st'.orLow = st.orLow ∧ st'.orHigh = st.orHigh ∧
      st'.dynLevels = st.dynLevels := by
    simpa only [SymState.range, Prod.mk.injEq] using range
  constructor
  case later =>
    intro k lt
    rw [update_of_ne]
    · exact h.later k lt
    · rintro rfl
      exact absurd (at_e.symm.trans (h.later k lt)) (by simp)
  case fresh =>
    intro k none
    rw [update_apply] at none
    split at none
    · cases none
    · exact h.fresh k none
  case day =>
    intro k x eq
    rw [update_apply] at eq
    split at eq
    · rename_i same
      subst same
      obtain rfl := Option.some.inj eq
      rw [day]
      exact h.day k st at_e
    · exact h.day k x eq
  case ranges =>
    intro mode k x d eq trade
    rw [update_apply] at eq
    split at eq
    · rename_i same
      subst same
      obtain rfl := Option.some.inj eq
      rw [day] at trade
      have r := h.ranges mode k st d at_e trade
      exact ⟨low.trans r.low, high.trans r.high, by rw [dyn, low, high]; exact r.frozen⟩
    · exact h.ranges mode k x d eq trade

lemma Call.Fits.setSym {st st' : SymState} {c : Call} (h : c.Fits p bars sym) {e : Nat} (at_e : sym e = some st)
    (range : st'.range = st.range) : c.Fits p bars (Function.update sym e (some st')) := by
  cases c with
  | equity k b =>
    obtain ⟨head, x, at_k, day⟩ := h
    refine ⟨head, ?_⟩
    rw [update_apply]
    split
    · rename_i same
      subst same
      obtain rfl := Option.some.inj (at_e.symm.trans at_k)
      exact ⟨st', rfl, (congrArg Prod.fst range).trans day⟩
    · exact ⟨x, at_k, day⟩
  | ended | emitting | reading | submitting | logging | explaining => exact h

end

/-! ## Steps of a call -/

section
variable {s : Desk} {i : Nat} {c x : Call}

lemma Desk.settled_of_idle (idle : ∀ c ∈ s.calls, c = .ended) : s.settled = s.bars := by
  rw [Desk.settled, any_of_idle idle rfl, if_neg Bool.false_ne_true]

lemma Shelter.calls_set (h : Shelter p s) (fits : x.Fits p s.bars s.sym) (j : Nat) (d : Call)
    (get_j : (s.calls.set i x)[j]? = some d) : d.Fits p s.bars s.sym := by
  rw [getElem?_set] at get_j
  split at get_j
  · split at get_j
    · exact Option.some.inj get_j ▸ fits
    · cases get_j
  · exact h.calls j d get_j

lemma Shelter.setCall (h : Shelter p s) (get : s.calls[i]? = some c) (active : c ≠ .ended)
    (resolved : c.unresolved = false) (resolved' : x.unresolved = false) (fits : x.Fits p s.bars s.sym) :
    Shelter p (s.setCall i x) where
  alone := h.alone.set get active
  calls := h.calls_set fits
  sorted := h.sorted
  follows := by
    have before : s.settled = s.bars := by
      rw [Desk.settled, h.alone.any get active rfl, resolved, if_neg Bool.false_ne_true]
    have after : (s.setCall i x).settled = s.bars := by
      rw [Desk.settled, Desk.setCall, h.alone.any_set get active rfl, resolved', if_neg Bool.false_ne_true]
    rw [after]
    have follows := h.follows
    rw [before] at follows
    exact follows
  kept := h.kept

lemma Shelter.setSym {e : Nat} {st st' : SymState} (h : Shelter p s) (at_e : s.sym e = some st)
    (range : st'.range = st.range) : Shelter p (s.setSym e st') where
  alone := h.alone
  calls := fun i c get => (h.calls i c get).setSym at_e range
  sorted := h.sorted
  follows := h.follows.setSym at_e range
  kept := h.kept

lemma Shelter.note {happened : Prop} [Decidable happened] {what : Happened} (h : Shelter p s)
    (other : ∀ due sold live, what ≠ .returned due sold live) : Shelter p (s.note happened what) := by
  rw [Desk.note]
  split
  · refine ⟨h.alone, h.calls, h.sorted, h.follows, ?_⟩
    intro sold live mem
    rcases mem_cons.1 mem with eq | mem
    · exact absurd eq.symm (other true sold live)
    · exact h.kept sold live mem
  · exact h

lemma Shelter.finish {due sold : Bool} (h : Shelter p s) (get : s.calls[i]? = some c) (active : c ≠ .ended)
    (resolved : c.unresolved = false) (safe : due = true → sold = true ∨ s.sellLive = true) :
    Shelter p (s.finish i due sold) := by
  have next := h.setCall (x := .ended) get active resolved rfl trivial
  refine ⟨next.alone, next.calls, next.sorted, next.follows, ?_⟩
  intro sold' live mem
  rcases mem_cons.1 mem with eq | mem
  · obtain ⟨rfl, rfl, rfl⟩ := Happened.returned.inj eq
    exact safe rfl
  · exact h.kept sold' live mem

end

/-! ## Reading the position -/

section
variable {s : Desk} {i epoch : Nat} {bar : Bar} {lv : Levels} {st : SymState}

lemma close_of_due (fits : (Call.reading epoch bar lv).Fits p s.bars s.sym)
    (informed : s.Informed p (some (.reading epoch bar lv))) (due : s.due p bar = true) :
    inLong s.row = true ∧ (closeCutoff p ≤ bar.tod ∨ 0 < lv.stop ∧ bar.c ≤ lv.stop) := by
  obtain ⟨is_long, near⟩ := Bool.and_eq_true_iff.1 due
  refine ⟨is_long, ?_⟩
  rcases Nat.lt_or_ge bar.tod (closeCutoff p) with early | late
  · rcases Bool.or_eq_true_iff.1 near with late | stop
    · exact Or.inl (of_decide_eq_true late)
    · obtain ⟨positive, reached⟩ := of_decide_eq_true stop
      have known := fits (fun mode => (informed due).1 mode early) positive
      rw [known]
      exact Or.inr ⟨positive, reached⟩
  · exact Or.inl late

lemma Shelter.read (h : Shelter p s) (get : s.calls[i]? = some (.reading epoch bar lv)) (at_e : s.sym epoch = some st)
    (informed : s.Informed p (some (.reading epoch bar lv))) {happened : Prop} [Decidable happened] :
    Shelter p
      (((s.note happened (.broken bar.day)).setSym epoch (onPosition p (s.equity epoch) st bar lv s.row).2).decided
      i epoch bar (s.due p bar) (onPosition p (s.equity epoch) st bar lv s.row).1) := by
  have fits := h.calls i _ get
  have active : Call.reading epoch bar lv ≠ .ended := fun eq => (by cases eq)
  -- what is recorded of the reading, and what it writes, does not touch the range
  have noted : Shelter p (s.note happened (.broken bar.day)) := h.note fun _ _ _ eq => (by cases eq)
  have at_e' : (s.note happened (.broken bar.day)).sym epoch = some st := by
    rw [Desk.note]
    split <;> exact at_e
  have get' : ((s.note happened (.broken bar.day)).setSym epoch
      (onPosition p (s.equity epoch) st bar lv s.row).2).calls[i]? = some (.reading epoch bar lv) := by
    rw [Desk.note]
    split <;> exact get
  have live : ((s.note happened (.broken bar.day)).setSym epoch
      (onPosition p (s.equity epoch) st bar lv s.row).2).sellLive = s.sellLive := by
    rw [Desk.note]
    split <;> rfl
  have range : (onPosition p (s.equity epoch) st bar lv s.row).2.range = st.range := range_onPosition
  have next := noted.setSym at_e' range
  generalize (s.note happened (.broken bar.day)).setSym epoch (onPosition p (s.equity epoch) st bar lv s.row).2 = t at *
  by_cases due : s.due p bar = true
  · obtain ⟨is_long, close⟩ := close_of_due fits informed due
    rcases onPosition_due is_long close with ⟨done, flagged⟩ | ⟨reason, sells, sold⟩
    · rw [done]
      apply next.finish get' active rfl
      intro _
      refine Or.inr (live.trans ((informed due).2 ?_))
      rw [at_e]
      exact decide_eq_true flagged
    · rw [sold]
      have entered : Shelter p (t.note (OrderSide.sell = .buy) (.entered bar.day)) := next.note fun _ _ _ eq =>
          (by cases eq)
      apply entered.setCall (c := .reading epoch bar lv) get' active rfl rfl
      exact fun _ => sells
  · rw [Bool.not_eq_true] at due
    rw [due]
    cases (onPosition p (s.equity epoch) st bar lv s.row).1 with
    | done => exact next.finish get' active rfl fun eq => (by cases eq)
    | logInvalid => exact next.setCall get' active rfl rfl rfl
    | submit side qty reason =>
      have entered : Shelter p (t.note (side = .buy) (.entered bar.day)) := next.note fun _ _ _ eq => (by cases eq)
      have get'' : (t.note (side = .buy) (.entered bar.day)).calls[i]? = some (.reading epoch bar lv) := by
        rw [Desk.note]
        split <;> exact get'
      exact entered.setCall get'' active rfl rfl fun eq => (by cases eq)

end

/-! ## Resolving the levels -/

section
variable {bars rest : List (Nat × Bar)} {sym : Nat → Option SymState} {epoch day : Nat} {bar : Bar} {st : SymState}

lemma ownBars_cons {b : Nat × Bar} : ownBars p (b :: rest) epoch day =
    if b.1 = epoch ∧ b.2.day = day ∧ p.opening b.2 = true then b.2 :: ownBars p rest epoch day
    else ownBars p rest epoch day := by
  by_cases own : b.1 = epoch
  · by_cases opens : b.2.day = day ∧ p.opening b.2 = true
    · simp [ownBars, openingBars, own, opens]
    · rw [if_neg fun all => opens all.2]
      have no : ¬ (decide (b.2.day = day ∧ p.opening b.2 = true)) = true := by simpa using opens
      simp only [ownBars, openingBars, filter_cons, own, decide_true, if_true, map_cons, if_neg no]
  · simp [ownBars, openingBars, own]

lemma Ranges.cons_other {b : Nat × Bar} (h : Ranges p rest epoch day st)
    (other : ¬ (b.1 = epoch ∧ b.2.day = day ∧ p.opening b.2 = true)) : Ranges p (b :: rest) epoch day st := by
  have same : ownBars p (b :: rest) epoch day = ownBars p rest epoch day := ownBars_cons.trans (if_neg other)
  refine ⟨by rw [same]; exact h.low, by rw [same]; exact h.high, ?_⟩
  intro lv frozen
  obtain ⟨range, c, mem, past⟩ := h.frozen lv frozen
  exact ⟨range, c, mem_cons_of_mem _ mem, past⟩

lemma Sorted.tod_le {b c : Nat × Bar} (h : Sorted (b :: rest)) (mem : c ∈ rest) (same : c.2.day = b.2.day) :
    c.2.tod ≤ b.2.tod := by
  have := (pairwise_cons.1 h).1 c mem
  omega

lemma Ranges.resolve (h : Ranges p rest epoch bar.day st) (mode : p.levelMode = .openingRange)
    (sorted : Sorted ((epoch, bar) :: rest)) :
    Ranges p ((epoch, bar) :: rest) epoch bar.day (resolveLevels p bar st).2 ∧
      (SeenBy p ((epoch, bar) :: rest) epoch bar → 0 < dayStop p ((epoch, bar) :: rest) bar →
        (resolveLevels p bar st).1.stop = dayStop p ((epoch, bar) :: rest) bar) := by
  by_cases opens : p.opening bar = true
  · have own : ownBars p ((epoch, bar) :: rest) epoch bar.day = bar :: ownBars p rest epoch bar.day :=
      ownBars_cons.trans (if_pos ⟨rfl, rfl, opens⟩)
    have within : bar.tod < orEnd p := (of_decide_eq_true opens).2
    have resolved : resolveLevels p bar st = ({}, { st with
        orHigh := some ((st.orHigh.map (max · bar.h)).getD bar.h)
        orLow := some ((st.orLow.map (min · bar.l)).getD bar.l) }) := by
      simp only [resolveLevels, mode, opens, if_true]
    rw [resolved]
    refine ⟨⟨?_, ?_, ?_⟩, ?_⟩
    · rw [own, map_cons, min?_cons, ← h.low]
      cases st.orLow with
      | none => rfl
      | some low => exact congrArg some (min_comm low bar.l)
    · rw [own, map_cons, max?_cons, ← h.high]
      cases st.orHigh with
      | none => rfl
      | some high => exact congrArg some (max_comm high bar.h)
    · -- the levels cannot be frozen: a later bar of the day would have come before
      intro lv frozen
      obtain ⟨-, c, mem, same, past⟩ := h.frozen lv frozen
      exact absurd (past.trans (sorted.tod_le mem same)) (not_le.2 within)
    · intro _ positive
      have zero : dayStop p ((epoch, bar) :: rest) bar = 0 := by
        simp only [dayStop, mode]
        split
        · rw [if_neg fun past => not_le.2 within past.1]
        · rfl
      rw [zero] at positive
      exact absurd positive (lt_irrefl 0)
  · have own : ownBars p ((epoch, bar) :: rest) epoch bar.day = ownBars p rest epoch bar.day :=
      ownBars_cons.trans (if_neg fun all => opens all.2.2)
    have kept := h.cons_other (b := (epoch, bar)) fun all => opens all.2.2
    have resolved : ∃ dyn : Option Levels, resolveLevels p bar st = (dyn.getD {}, { st with dynLevels := dyn }) ∧
        (st.dynLevels ≠ none → dyn = st.dynLevels) ∧
        (st.dynLevels = none → ∀ lv, dyn = some lv →
          ∃ low high, st.orLow = some low ∧ st.orHigh = some high ∧ low < high ∧ lv = rangeLevels p low high) ∧
        (st.dynLevels = none → ∀ low high, st.orLow = some low → st.orHigh = some high → low < high →
          dyn = some (rangeLevels p low high)) := by
      simp only [resolveLevels, mode, if_neg opens]
      refine ⟨_, rfl, ?_, ?_, ?_⟩
      · intro known
        cases dyn : st.dynLevels with
        | none => exact absurd dyn known
        | some lv => rfl
      · intro none lv eq
        rw [none] at eq
        cases high : st.orHigh with
        | none => simp [high] at eq
        | some high' =>
          cases low : st.orLow with
          | none => simp [high, low] at eq
          | some low' =>
            simp only [high, low] at eq
            split at eq
            · rename_i lt
              exact ⟨low', high', rfl, rfl, lt, (Option.some.inj eq).symm⟩
            · cases eq
      · intro none low high at_low at_high lt
        simp [none, at_low, at_high, lt]
    obtain ⟨dyn, resolved, keeps, made, makes⟩ := resolved
    rw [resolved]
    constructor
    · refine ⟨kept.low, kept.high, ?_⟩
      intro lv eq
      obtain rfl : dyn = some lv := eq
      cases before : st.dynLevels with
      | some lv' =>
        have same := keeps (by rw [before]; simp)
        exact kept.frozen lv same.symm
      | none =>
        obtain ⟨low, high, at_low, at_high, lt, eq⟩ := made before lv rfl
        refine ⟨⟨low, high, at_low, at_high, lt, eq⟩, (epoch, bar), mem_cons_self, rfl, ?_⟩
        apply not_lt.1
        intro early
        -- a bar of the opening range came before, so this one is not before the open
        have some_bar : ownBars p rest epoch bar.day ≠ [] := by
          intro empty
          have := h.low
          rw [empty, at_low] at this
          cases this
        obtain ⟨c, mem⟩ := exists_mem_of_ne_nil _ some_bar
        obtain ⟨mem, is_own⟩ := mem_filter.1 mem
        obtain ⟨c', mem', rfl⟩ := mem_map.1 mem
        obtain ⟨same, opens'⟩ := of_decide_eq_true is_own
        have tod := sorted.tod_le (mem_of_mem_filter mem') same
        have from_open := (of_decide_eq_true opens').1
        exact opens (decide_eq_true ⟨from_open.trans tod, early⟩)
    · intro seen positive
      have all := ownBars_of_seenBy seen
      rw [own] at all
      simp only [dayStop, mode] at positive ⊢
      rw [← all, ← h.low, ← h.high] at positive ⊢
      cases low : st.orLow with
      | none => simp [low] at positive
      | some low' =>
        cases high : st.orHigh with
        | none => simp [low, high] at positive
        | some high' =>
          simp only [low, high] at positive ⊢
          split at positive
          · rename_i past
            rw [if_pos past]
            cases before : st.dynLevels with
            | none =>
              rw [makes before low' high' low high past.2]
              rfl
            | some lv =>
              obtain ⟨⟨low'', high'', at_low, at_high, -, eq⟩, -⟩ := h.frozen lv before
              obtain rfl := Option.some.inj (low.symm.trans at_low)
              obtain rfl := Option.some.inj (high.symm.trans at_high)
              rw [keeps (by rw [before]; simp), before]
              exact congrArg Levels.stop eq
          · exact absurd positive (lt_irrefl 0)

end

/-! ## Calls -/

section
variable {s t : Desk} {i epoch : Nat} {bar : Bar} {st : SymState}

lemma Shelter.resolve (h : Shelter p s) (get : s.calls[i]? = some (.equity epoch bar)) (at_e : s.sym epoch = some st) :
    Shelter p (s.resolve p i epoch bar st) := by
  obtain ⟨head, x, at_x, day⟩ := h.calls i _ get
  obtain rfl := Option.some.inj (at_e.symm.trans at_x)
  obtain ⟨rest, bars⟩ : ∃ rest, s.bars = (epoch, bar) :: rest := by
    cases bars : s.bars with
    | nil => simp [bars] at head
    | cons b rest => exact ⟨rest, by simpa [bars] using head⟩
  have active : Call.equity epoch bar ≠ .ended := fun eq => (by cases eq)
  have settled : s.settled = rest := by rw [Desk.settled, h.alone.any get active rfl, bars]; rfl
  have sorted := h.sorted
  rw [bars] at sorted
  -- whatever else the state keeps, its range is the one that was resolved
  have follows (st' : SymState) (range : st'.range = (resolveLevels p bar (st.updateVwap bar)).2.range) :
      Follows p s.bars s.bars s.epoch (Function.update s.sym epoch (some st')) := by
    have trade : (resolveLevels p bar (st.updateVwap bar)).2.tradeDay = some bar.day := by
      rw [← day, resolveLevels]
      split
      · rfl
      · split <;> rfl
    have trade' : st'.tradeDay = some bar.day := (congrArg Prod.fst range).trans trade
    constructor
    case later =>
      intro k lt
      rw [update_of_ne]
      · exact h.follows.later k lt
      · rintro rfl
        exact absurd (at_e.symm.trans (h.follows.later k lt)) (by simp)
    case fresh =>
      intro k none
      rw [update_apply] at none
      split at none
      · cases none
      · exact h.follows.fresh k none
    case day =>
      intro k y eq
      rw [update_apply] at eq
      split at eq
      · rename_i same
        subst same
        obtain rfl := Option.some.inj eq
        obtain ⟨d, trade_d, days⟩ := h.follows.day k st at_e
        obtain rfl := Option.some.inj (trade_d.symm.trans day)
        exact ⟨bar.day, trade', days⟩
      · exact h.follows.day k y eq
    case ranges =>
      intro mode k y d eq trade_y
      have ranges := h.follows.ranges mode
      rw [settled] at ranges
      rw [update_apply] at eq
      rw [bars]
      split at eq
      · rename_i same
        subst same
        obtain rfl := Option.some.inj eq
        obtain rfl := Option.some.inj (trade'.symm.trans trade_y)
        have before := ranges k st bar.day at_e day
        have before : Ranges p rest k bar.day (st.updateVwap bar) := ⟨before.low, before.high, before.frozen⟩
        have after := (before.resolve mode sorted).1
        obtain ⟨-, low, high, dyn⟩ : st'.tradeDay = _ ∧ st'.orLow = _ ∧ st'.orHigh = _ ∧ st'.dynLevels = _ := by
          simpa only [SymState.range, Prod.mk.injEq] using range
        exact ⟨low.trans after.low, high.trans after.high, by rw [dyn, low, high]; exact after.frozen⟩
      · rename_i other
        exact (ranges k y d eq trade_y).cons_other fun own => other own.1.symm
  have fits (sym : Nat → Option SymState) :
      (Call.reading epoch bar (resolveLevels p bar (st.updateVwap bar)).1).Fits p s.bars sym := by
    intro seen positive
    cases mode : p.levelMode with
    | fixed => simp only [resolveLevels, dayStop, mode]
    | openingRange =>
      have seen := seen mode
      rw [bars] at seen positive ⊢
      have ranges := h.follows.ranges mode
      rw [settled] at ranges
      have before := ranges epoch st bar.day at_e day
      have before : Ranges p rest epoch bar.day (st.updateVwap bar) := ⟨before.low, before.high, before.frozen⟩
      exact (before.resolve mode sorted).2 seen positive
  have next (st' : SymState) (range : st'.range = (resolveLevels p bar (st.updateVwap bar)).2.range) (c : Call)
      (resolved : c.unresolved = false)
      (c_fits : c.Fits p s.bars (Function.update s.sym epoch (some st'))) :
      Shelter p ((s.setSym epoch st').setCall i c) := by
    constructor
    case alone => exact h.alone.set get active
    case calls =>
      intro j d get_j
      rcases h.alone.others (x := c) get active d (mem_of_getElem? get_j) with rfl | rfl
      · exact c_fits
      · trivial
    case sorted => exact h.sorted
    case follows =>
      have after : ((s.setSym epoch st').setCall i c).settled = s.bars := by
        change (if (s.calls.set i c).any Call.unresolved = true then s.bars.tail else s.bars) = s.bars
        rw [h.alone.any_set get active rfl, resolved, if_neg Bool.false_ne_true]
      rw [after]
      exact follows st' range
    case kept => exact h.kept
  rw [Desk.resolve]
  dsimp only
  split
  · apply next
    · rfl
    · rfl
    · exact fits s.sym
  · apply next
    · rfl
    · rfl
    · exact fits s.sym

lemma Shelter.add (h : Shelter p s) (idle : ∀ c ∈ s.calls, c = .ended) (sorted : Sorted t.bars)
    (calls : t.calls = s.calls ++ [Call.equity epoch bar]) (fits : (Call.equity epoch bar).Fits p t.bars t.sym)
    (follows : Follows p t.bars s.bars t.epoch t.sym) (bars : t.bars = (epoch, bar) :: s.bars) (log : t.log = s.log) :
    Shelter p t := by
  have alone : Alone t.calls := by rw [calls]; exact Alone.add idle
  have last : t.calls[s.calls.length]? = some (.equity epoch bar) := by
    rw [calls, getElem?_append_right le_rfl, Nat.sub_self]
    rfl
  have active : Call.equity epoch bar ≠ .ended := fun eq => (by cases eq)
  constructor
  case alone => exact alone
  case calls =>
    intro j c get
    rcases alone.only last active c (mem_of_getElem? get) with rfl | rfl
    · exact fits
    · trivial
  case sorted => exact sorted
  case follows =>
    have settled : t.settled = s.bars := by rw [Desk.settled, alone.any last active rfl, bars]; rfl
    rw [settled]
    exact follows
  case kept =>
    intro sold live mem
    rw [log] at mem
    exact h.kept sold live mem

lemma Shelter.call (h : Shelter p s) (order : s.InOrder bar) (at_e : s.sym s.epoch = some st)
    (day : st.tradeDay = some bar.day) : Shelter p (s.call bar) := by
  have settled : s.settled = s.bars := Desk.settled_of_idle order.1
  have follows := h.follows
  rw [settled] at follows
  refine h.add order.1 (h.sorted.cons order.2) rfl ⟨rfl, st, at_e, day⟩ ?_ rfl rfl
  constructor
  case later => exact follows.later
  case fresh =>
    intro k none b mem
    rcases mem_cons.1 mem with rfl | mem
    · rintro rfl
      exact absurd (at_e.symm.trans none) (by simp)
    · exact follows.fresh k none b mem
  case day =>
    intro k x eq
    obtain ⟨d, trade, ⟨b, mem, own⟩, most⟩ := follows.day k x eq
    refine ⟨d, trade, ⟨b, mem_cons_of_mem _ mem, own⟩, ?_⟩
    intro c mem_c own_c
    rcases mem_cons.1 mem_c with rfl | mem_c
    · obtain rfl : s.epoch = k := own_c
      obtain rfl := Option.some.inj (at_e.symm.trans eq)
      exact (Option.some.inj (day.symm.trans trade)).le
    · exact most c mem_c own_c
  case ranges => exact follows.ranges

lemma Shelter.roll (h : Shelter p s) (order : s.InOrder bar) (new : ((s.sym s.epoch).getD {}).tradeDay ≠ some bar.day) :
    Shelter p ((s.call bar).disturb.setSym s.epoch (((s.sym s.epoch).getD {}).rollDay bar.day)) := by
  have settled : s.settled = s.bars := Desk.settled_of_idle order.1
  have follows := h.follows
  rw [settled] at follows
  have sorted : Sorted ((s.epoch, bar) :: s.bars) := h.sorted.cons order.2
  have at_most : ∀ b ∈ s.bars, b.2.day ≤ bar.day := by
    intro b mem
    have := (pairwise_cons.1 sorted).1 b mem
    dsimp only at this
    omega
  -- the instance has seen no bar of the new day
  have none_yet : ∀ b ∈ s.bars, b.1 = s.epoch → b.2.day ≠ bar.day := by
    intro b mem own same
    cases at_e : s.sym s.epoch with
    | none => exact follows.fresh s.epoch at_e b mem own
    | some st =>
      obtain ⟨d, trade, ⟨c, mem_c, -, day_c⟩, most⟩ := follows.day s.epoch st at_e
      have le := most b mem own
      have ge := at_most c mem_c
      apply new
      rw [at_e, Option.getD_some, trade]
      exact congrArg some (by omega)
  have fits : (Call.equity s.epoch bar).Fits p ((s.epoch, bar) :: s.bars)
      (Function.update s.sym s.epoch (some (((s.sym s.epoch).getD {}).rollDay bar.day))) :=
    ⟨rfl, _, update_self _ _ _, rfl⟩
  refine h.add order.1 sorted rfl fits ?_ rfl rfl
  constructor
  case later =>
    intro k lt
    refine (update_of_ne ?_ _ _).trans (follows.later k lt)
    rintro rfl
    exact absurd lt (lt_irrefl _)
  case fresh =>
    intro k none b mem
    have eq : Function.update s.sym s.epoch (some (((s.sym s.epoch).getD {}).rollDay bar.day)) k = .none := none
    rw [update_apply] at eq
    split at eq
    · cases eq
    · rename_i other
      rcases mem_cons.1 mem with rfl | mem
      · exact fun own => other own.symm
      · exact follows.fresh k eq b mem
  case day =>
    intro k x at_k
    have eq : Function.update s.sym s.epoch (some (((s.sym s.epoch).getD {}).rollDay bar.day)) k = some x := at_k
    rw [update_apply] at eq
    split at eq
    · rename_i same
      subst same
      obtain rfl := Option.some.inj eq
      refine ⟨bar.day, rfl, ⟨_, mem_cons_self, rfl, rfl⟩, ?_⟩
      intro b mem _
      rcases mem_cons.1 mem with rfl | mem
      · exact le_rfl
      · exact at_most b mem
    · rename_i other
      obtain ⟨d, trade, ⟨b, mem, own⟩, most⟩ := follows.day k x eq
      refine ⟨d, trade, ⟨b, mem_cons_of_mem _ mem, own⟩, ?_⟩
      intro c mem_c own_c
      rcases mem_cons.1 mem_c with rfl | mem_c
      · exact absurd own_c.symm other
      · exact most c mem_c own_c
  case ranges =>
    intro mode k x d at_k trade
    have eq : Function.update s.sym s.epoch (some (((s.sym s.epoch).getD {}).rollDay bar.day)) k = some x := at_k
    rw [update_apply] at eq
    split at eq
    · rename_i same
      subst same
      obtain rfl := Option.some.inj eq
      obtain rfl := Option.some.inj trade
      have empty : ownBars p s.bars s.epoch bar.day = [] := by
        apply filter_eq_nil_iff.2
        intro b mem own
        obtain ⟨c, mem_c, rfl⟩ := mem_map.1 mem
        obtain ⟨mem_c, own_c⟩ := mem_filter.1 mem_c
        exact none_yet c mem_c (of_decide_eq_true own_c) (of_decide_eq_true own).1
      refine ⟨?_, ?_, fun _ frozen => (by cases frozen)⟩ <;> rw [empty] <;> rfl
    · exact follows.ranges mode k x d eq trade

end

/-! ## Runs -/

section
variable {s t : Desk}

lemma Desk.setCall_ended {i : Nat} (ended : ∀ c ∈ s.calls[i]?, c = .ended) : s.setCall i .ended = s := by
  have same : s.calls.set i .ended = s.calls := by
    cases get : s.calls[i]? with
    | none => exact set_eq_of_length_le (List.getElem?_eq_none_iff.1 get)
    | some c =>
      obtain ⟨lt, eq⟩ := List.getElem?_eq_some_iff.1 get
      rw [← ended c get, ← eq, set_getElem_self]
  rw [Desk.setCall, same]

lemma Shelter.fail {i : Nat} (h : Shelter p s) (calm : ∀ c ∈ s.calls[i]?, ∀ epoch bar, c ≠ .equity epoch bar) :
    Shelter p (s.setCall i .ended) := by
  cases get : s.calls[i]? with
  | none => rwa [Desk.setCall_ended (by simp [get])]
  | some c =>
    by_cases active : c = .ended
    · rwa [Desk.setCall_ended (by simp [get, active])]
    · refine h.setCall (x := .ended) get active ?_ rfl trivial
      cases c with
      | equity epoch bar => exact absurd rfl (calm _ get epoch bar)
      | ended | emitting | reading | submitting | logging | explaining => rfl

lemma Shelter.step {l : RangeLabel} (h : Shelter p s) (calm : Sheltered p s l)
    (step : (rangeTrader p).step s l = some t) : Shelter p t := by
  cases l with
  | reinstantiate =>
    cases step
    refine ⟨h.alone, h.calls, h.sorted, ⟨?_, h.follows.fresh, h.follows.day, h.follows.ranges⟩, h.kept⟩
    exact fun e lt => h.follows.later e ((Nat.lt_succ_self _).trans lt)
  | «begin» bar =>
    simp only [rangeTrader] at step
    split at step
    · rename_i day
      cases step
      cases at_e : s.sym s.epoch with
      | none =>
        rw [at_e] at day
        cases day
      | some st =>
        rw [at_e, Option.getD_some] at day
        have next := h.call calm at_e day
        refine next.resolve ?_ at_e
        change (s.calls ++ [_])[s.calls.length]? = _
        rw [getElem?_append_right le_rfl, Nat.sub_self]
        rfl
    · rename_i new
      cases step
      exact h.roll calm new
  | equityRead call equity =>
    simp only [rangeTrader] at step
    split at step
    · rename_i epoch bar get
      split at step
      · cases step
      · rename_i st at_e
        cases step
        obtain ⟨equity', eq⟩ := @Desk.sizeBy_eq s epoch equity
        rw [eq]
        have sized : Shelter p { s with equity := equity' } := ⟨h.alone, h.calls, h.sorted, h.follows, h.kept⟩
        exact sized.resolve get at_e
    · cases step
  | emitted call =>
    simp only [rangeTrader] at step
    split at step
    · rename_i get
      cases step
      have fits := h.calls call _ get
      exact h.setCall get (fun eq => (by cases eq)) rfl rfl fits
    · cases step
  | read call =>
    simp only [rangeTrader] at step
    simp only [Sheltered] at calm
    split at step
    · rename_i get
      split at step
      · cases step
      · rename_i at_e
        cases step
        rw [get] at calm
        exact h.read get at_e calm
    · cases step
  | accept call =>
    simp only [rangeTrader] at step
    split at step
    · rename_i epoch bar side qty reason due get
      cases step
      have fits := h.calls call _ get
      have noted : Shelter p (s.note (side = .buy) (.accepted bar.day)) := h.note fun _ _ _ eq => (by cases eq)
      have get' : (s.note (side = .buy) (.accepted bar.day)).calls[call]? =
          some (.submitting epoch bar side qty reason due) := by
        rw [Desk.note]
        split <;> exact get
      have next := noted.setCall (x := .logging epoch bar reason (some s.orders.length) due) get'
        (fun eq => (by cases eq)) rfl rfl fits
      exact ⟨next.alone, next.calls, next.sorted, next.follows, next.kept⟩
    · cases step
  | reject call =>
    simp only [rangeTrader] at step
    split at step
    · rename_i get
      cases step
      have fits := h.calls call _ get
      exact h.setCall get (fun eq => (by cases eq)) rfl rfl fits
    · cases step
  | logged call =>
    simp only [rangeTrader] at step
    split at step
    · rename_i epoch bar reason accepted due get
      have fits := h.calls call _ get
      split at step
      · cases step
      · rename_i st at_e
        cases step
        have sold (eq : due = true) : decide (reason ≠ .rangeEntry) = true := decide_eq_true (fits eq)
        split
        · exact (h.setSym at_e range_accepted).finish get (fun eq => (by cases eq)) rfl fun eq => Or.inl (sold eq)
        · exact h.finish get (fun eq => (by cases eq)) rfl fun eq => Or.inl (sold eq)
    · rename_i due get
      cases step
      have fits : due = false := h.calls call _ get
      exact h.finish get (fun eq => (by cases eq)) rfl fun eq => (by rw [fits] at eq; cases eq)
    · cases step
  | fail call =>
    cases step
    exact h.fail calm
  | fill i x =>
    simp only [rangeTrader] at step
    split at step
    · split at step
      · cases step
        exact ⟨h.alone, h.calls, h.sorted, h.follows, h.kept⟩
      · cases step
    · cases step
  | onFill =>
    simp only [rangeTrader] at step
    cases step
    have quiet : Shelter p s.disturb := ⟨h.alone, h.calls, h.sorted, h.follows, h.kept⟩
    split
    · exact quiet
    · rename_i st at_e
      exact quiet.setSym at_e rfl
  | refreshEquity | die | showRow =>
    cases step
    exact ⟨h.alone, h.calls, h.sorted, h.follows, h.kept⟩

end

/-- A desk before the first bar, with some quantity held. -/
def opened (p : RangeParams) (held : ℚ) (row : Option PositionRow) : Desk :=
  { equity := fun _ => p.initialEquityEstimate, held, row }

lemma shelter_opened {held : ℚ} {row : Option PositionRow} : Shelter p (opened p held row) where
  alone := fun i _ _ _ get => by simp [opened] at get
  calls := fun i _ get => by simp [opened] at get
  sorted := List.Pairwise.nil
  follows := ⟨fun _ _ => rfl, fun _ _ _ mem => (by cases mem), fun _ _ eq => (by cases eq), fun _ _ _ _ eq =>
    (by cases eq)⟩
  kept := fun _ _ mem => (by cases mem)

/-- A call that reads a long position near the close or at the day's own stop returns with a SELL live or submitted,
as long as the bars come in order and the instance has seen the opening ones. -/
theorem range_position_protected (p : RangeParams) (held : ℚ) (row : Option PositionRow) (ls : List RangeLabel)
    (s : Desk) (run : (rangeTrader p).run (opened p held row) ls = some s)
    (calm : (rangeTrader p).Meets (Sheltered p) (opened p held row) ls) : Protected s :=
  (Machine.run_invariant (fun inv calm step => inv.step calm step) shelter_opened calm run : Shelter p s).kept

instance (s : Desk) (bar : Bar) : Decidable (s.InOrder bar) := inferInstanceAs (Decidable (_ ∧ _))

instance (bars : List (Nat × Bar)) (epoch : Nat) (bar : Bar) : Decidable (SeenBy p bars epoch bar) :=
  inferInstanceAs (Decidable (∀ b ∈ bars, b.2.day = bar.day → p.opening b.2 = true → b.1 = epoch))

instance (s : Desk) : ∀ c, Decidable (s.Informed p c)
  | some (.reading _ bar _) => inferInstanceAs (Decidable (s.due p bar = true → _ ∧ _))
  | some (.ended) | some (.equity _ _) | some (.emitting _ _ _) | some (.submitting _ _ _ _ _ _)
  | some (.logging _ _ _ _ _) | some (.explaining _) | none => isTrue trivial

instance (s : Desk) (call : Nat) : Decidable (∀ c ∈ s.calls[call]?, ∀ epoch bar, c ≠ .equity epoch bar) :=
  decidable_of_iff ((s.calls[call]?).all (fun c => !c.unresolved) = true) (by
    cases s.calls[call]? with
    | none => simp
    | some c => cases c <;> simp [Call.unresolved])

instance (s : Desk) : ∀ l, Decidable (Sheltered p s l)
  | .begin bar => inferInstanceAs (Decidable (s.InOrder bar))
  | .read call => inferInstanceAs (Decidable (s.Informed p s.calls[call]?))
  | .fail call => inferInstanceAs (Decidable (∀ c ∈ s.calls[call]?, ∀ epoch bar, c ≠ .equity epoch bar))
  | .reinstantiate | .equityRead _ _ | .emitted _ | .accept _ | .reject _ | .logged _ | .refreshEquity _ | .fill _ _
  | .die _ | .onFill | .showRow _ => isTrue trivial

def openingBar : Bar := ⟨1, 575 * minute, 110, 100, 105, 1⟩

def elevenAt (c : ℚ) : Bar := ⟨1, 660 * minute, c, c, c, 1⟩

def tenShares : Option PositionRow := some ⟨true, 10⟩

/-- The theorem, at a stop that is reached after a quiet opening range. -/
theorem range_position_protected_stop : ∃ s : Desk, s.log.head? = some (.returned true true true) ∧ Protected s := by
  obtain ⟨s, run⟩ := Option.isSome_iff_exists.1
    (show ((rangeTrader {}).run (opened {} 10 tenShares)
      [.begin openingBar, .equityRead 0 none, .read 0, .begin (elevenAt 99), .emitted 1, .read 1, .accept 1,
        .logged 1]).isSome = true by decide +kernel)
  exact ⟨s, Machine.observe (f := fun s : Desk => s.log.head?) run (by decide +kernel),
    range_position_protected {} 10 tenShares _ s run (by decide +kernel)⟩

/-- An instance that is made after the opening range knows no stop: the call returns without a SELL. -/
theorem not_range_position_protected :
    ¬ ∀ (p : RangeParams) (held : ℚ) (row : Option PositionRow) (ls : List RangeLabel) (s : Desk),
      (rangeTrader p).run (opened p held row) ls = some s → Protected s := by
  intro all
  obtain ⟨s, run⟩ := Option.isSome_iff_exists.1
    (show ((rangeTrader {}).run (opened {} 10 tenShares)
      [.begin openingBar, .equityRead 0 none, .read 0, .reinstantiate, .begin (elevenAt 99), .equityRead 1 none,
        .read 1]).isSome = true by decide +kernel)
  have last : s.log.head? = some (.returned true false false) :=
    Machine.observe (f := fun s : Desk => s.log.head?) run (by decide +kernel)
  have protected_ := all {} 10 tenShares _ s run false false (mem_of_mem_head? last)
  simp at protected_

end Workbench.Templates
