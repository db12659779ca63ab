import Mathlib.Algebra.Order.Floor.Ring
import Mathlib.Data.Rat.Floor
import Mathlib.Data.Set.Card
import Mathlib.Tactic

/-!
# The sampler's schedule

Model of `SlotGrid` and `iter_scheduled_slots` of `app/research/capture/collector.py`. Instants and readings of the
monotonic clock are rational seconds. What the outside decides is the time that passes before each call returns:
`Environment` gives it call by call, so that both clocks advance together, a sleep returns at its deadline or later,
and the work of a cycle takes as long as it takes. `iterScheduledSlots` lists what an exhausted iterator did.

One turn of the loop is one constructor of `Course`; the laws of a run are inductions over it.

Python → Lean naming: `SlotGrid.end` → `SlotGrid.stop`; `iter_scheduled_slots` → `iterScheduledSlots`, its body the
loop `SlotGrid.turns`; `on_slots_missed` → the `reported` of `Event.skipped`.
-/

namespace Workbench.Research.Sampler
open List Finset

/-! ## The grid -/

/-- Python `SlotStamp`. -/
structure SlotStamp where
  index : ℤ
  ts : ℚ
deriving DecidableEq

/-- Python `SlotGrid`; the bounds are aware, and so instants. -/
structure SlotGrid where
  start : ℚ
  stop : ℚ
  cadenceSeconds : ℤ
  cadence_pos : 0 < cadenceSeconds

namespace SlotGrid

variable (g : SlotGrid)

/-- Python `expected_cycles`. -/
def expectedCycles : ℤ := if g.stop - g.start ≤ 0 then 0 else ⌈(g.stop - g.start) / g.cadenceSeconds⌉

/-- Python `slot_ts`. -/
def slotTs (index : ℤ) : ℚ := g.start + index * g.cadenceSeconds

/-- Python `slot_index_at`. -/
def slotIndexAt (instant : ℚ) : ℤ := ⌊(instant - g.start) / g.cadenceSeconds⌋

/-- Python `contains`. -/
def contains (index : ℤ) : Prop := 0 ≤ index ∧ index < g.expectedCycles

instance {index : ℤ} : Decidable (g.contains index) := inferInstanceAs (Decidable (_ ∧ _))

/-- Python `stamp`. -/
def stamp (index : ℤ) : SlotStamp := ⟨index, g.slotTs index⟩

variable {g}

lemma cadence_cast_pos : (0 : ℚ) < g.cadenceSeconds := Int.cast_pos.2 g.cadence_pos

lemma lt_expectedCycles {k : ℤ} (nonneg : 0 ≤ k) : k < g.expectedCycles ↔ g.slotTs k < g.stop := by
  have pos : (0 : ℚ) < g.cadenceSeconds := cadence_cast_pos
  have nonneg' : (0 : ℚ) ≤ k := Int.cast_nonneg nonneg
  rw [expectedCycles, slotTs]
  split
  next empty =>
    have later : (0 : ℚ) ≤ k * g.cadenceSeconds := mul_nonneg nonneg' pos.le
    constructor
    · intro lt
      omega
    · intro lt
      linarith
  next =>
    rw [Int.lt_ceil, lt_div_iff₀ pos]
    constructor <;> intro lt <;> linarith

lemma ncard_slots : ({k : ℕ | g.slotTs k < g.stop} : Set ℕ).ncard = g.expectedCycles := by
  have nonneg : 0 ≤ g.expectedCycles := by
    rw [expectedCycles]
    split
    next => exact le_rfl
    next some => exact Int.ceil_nonneg (div_nonneg (by linarith) cadence_cast_pos.le)
  have initial : {k : ℕ | g.slotTs k < g.stop} = Set.Iio g.expectedCycles.toNat := by
    ext k
    have expected := lt_expectedCycles (g := g) (k := k) (by omega)
    simp only [Set.mem_ofPred_eq, Set.mem_Iio]
    rw [show g.slotTs k = g.slotTs (k : ℤ) by simp, ← expected]
    omega
  rw [initial, ← coe_Iio, Set.ncard_coe_finset, Nat.card_Iio]
  omega

end SlotGrid

/-! ## The clocks -/

/-- The outside of a run: where the two clocks stand at its start, and the time before each call returns. -/
structure Environment where
  wall : ℚ
  mono : ℚ
  wait : ℕ → ℚ
  wait_nonneg : ∀ n, 0 ≤ wait n

/-- A point of a run: the time since its start, and how many calls were made. -/
structure Moment where
  elapsed : ℚ := 0
  calls : ℕ := 0

namespace Environment

variable (e : Environment)

/-- A call returns, or the work of a cycle is done. -/
def pass (m : Moment) : Moment := ⟨m.elapsed + e.wait m.calls, m.calls + 1⟩

/-- `sleep(delay)` returns. -/
def sleep (delay : ℚ) (m : Moment) : Moment := ⟨m.elapsed + delay + e.wait m.calls, m.calls + 1⟩

/-- What `now()` reads. -/
def now (m : Moment) : ℚ := e.wall + m.elapsed

/-- What `monotonic()` reads. -/
def monotonic (m : Moment) : ℚ := e.mono + m.elapsed

variable {e}

lemma elapsed_le_pass {m : Moment} : m.elapsed ≤ (e.pass m).elapsed := by
  have nonneg := e.wait_nonneg m.calls
  rw [pass]
  linarith

end Environment

/-- The two anchors of a run. -/
structure Anchor where
  wall : ℚ
  mono : ℚ

/-- The offset from the monotonic anchor to slot 0. -/
def Anchor.offset0 (a : Anchor) (g : SlotGrid) : ℚ := g.start - a.wall

/-- Python `deadline`, the local function. -/
def Anchor.deadline (a : Anchor) (g : SlotGrid) (index : ℤ) : ℚ := a.mono + a.offset0 g + index * g.cadenceSeconds

/-- Python `anchor_wall` and `anchor_mono`: the wall clock is read first. -/
def Environment.anchor (e : Environment) : Anchor :=
  ⟨e.now (e.pass {}), e.monotonic (e.pass (e.pass {}))⟩

/-! ## The iterator -/

/-- What the iterator does: it yields a slot, the wall clock just read, or it jumps over slots `first ≤ k < next`, the
    monotonic clock just read; `reported` when there is an `on_slots_missed` to call. -/
inductive Event where
  | yielded (slot : SlotStamp) (wall : ℚ)
  | skipped (first next : ℤ) (mono : ℚ) (reported : Bool)
deriving DecidableEq

section Iterator

variable (g : SlotGrid) (maxCycles : ℤ) (callback : Bool) (e : Environment)

/-- `if delay > 0: sleep(delay)` -/
def await (delay : ℚ) (m : Moment) : Moment := if 0 < delay then e.sleep delay m else m

/-- The point of the close test of slot `index`: the wait for its deadline is over and the wall clock is read. -/
def closeTest (a : Anchor) (index : ℤ) (m : Moment) : Moment :=
  let asked := e.pass m
  e.pass (await e (a.deadline g index - e.monotonic asked) asked)

/-- Python `catch_up`. -/
def catchUp (a : Anchor) (following : ℤ) (m : Moment) : ℤ :=
  max following ⌈(e.monotonic m - a.mono - a.offset0 g) / g.cadenceSeconds⌉

/-- The `while` loop. -/
def SlotGrid.turns (a : Anchor) (index emitted : ℤ) (m : Moment) : List Event :=
  if g.contains index then
    let tested := closeTest g e a index m
    if g.stop ≤ e.now tested then []
    else
      -- the cycle's work, then the monotonic clock is read
      let worked := e.pass (e.pass tested)
      .yielded (g.stamp index) (e.now tested) ::
        if maxCycles ≠ 0 ∧ maxCycles ≤ emitted + 1 then []
        else if a.deadline g (index + 1) - e.monotonic worked < 0 then
          -- overran: the clock is read once more
          let late := e.pass worked
          .skipped (index + 1) (catchUp g e a (index + 1) late) (e.monotonic late) callback ::
            turns a (catchUp g e a (index + 1) late) (emitted + 1) late
        else turns a (index + 1) (emitted + 1) worked
  else []
termination_by (g.expectedCycles - index).toNat
decreasing_by
  · have contained : index < g.expectedCycles := (by assumption : g.contains index).2
    have ahead : index + 1 ≤ catchUp g e a (index + 1) (e.pass (e.pass (e.pass (closeTest g e a index m)))) :=
      le_max_left _ _
    omega
  · have contained : index < g.expectedCycles := (by assumption : g.contains index).2
    omega

/-- Python `iter_scheduled_slots`, exhausted. -/
def iterScheduledSlots : List Event :=
  g.turns maxCycles callback e e.anchor (max (g.slotIndexAt e.anchor.wall) 0) 0 (e.pass (e.pass {}))

end Iterator

def slots (events : List Event) : List ℤ :=
  events.filterMap fun
    | .yielded slot _ => some slot.index
    | .skipped .. => none

/-- The arguments of the calls of `on_slots_missed`. -/
def reports (events : List Event) : List (ℤ × ℤ) :=
  events.filterMap fun
    | .skipped first next _ true => some (first, next)
    | _ => none

def accounted (events : List Event) (k : ℤ) : ℕ :=
  (slots events).count k + (reports events).countP fun r => r.1 ≤ k ∧ k < r.2

/-! ## One turn of the loop -/

/-- The runs of the loop from slot `index` on, turn by turn. -/
inductive Course (g : SlotGrid) (callback : Bool) (a : Anchor) : ℤ → List Event → Prop
  | done {index : ℤ} : Course g callback a index []
  | onTime {index : ℤ} {wall : ℚ} {rest : List Event} (contained : g.contains index)
      (due : g.slotTs index ≤ wall) (isOpen : wall < g.stop) (next : Course g callback a (index + 1) rest) :
      Course g callback a index (.yielded (g.stamp index) wall :: rest)
  | overran {index next : ℤ} {wall mono : ℚ} {rest : List Event} (contained : g.contains index)
      (due : g.slotTs index ≤ wall) (isOpen : wall < g.stop) (ahead : index + 1 < next)
      (least : IsLeast {k : ℤ | mono ≤ a.deadline g k} next) (resumed : Course g callback a next rest) :
      Course g callback a index
        (.yielded (g.stamp index) wall :: .skipped (index + 1) next mono callback :: rest)

section Turns

variable {g : SlotGrid} {maxCycles : ℤ} {callback : Bool} {e : Environment} {a : Anchor}

lemma anchor_lag : e.anchor.wall - e.wall ≤ e.anchor.mono - e.mono := by
  have later : (e.pass {}).elapsed ≤ (e.pass (e.pass {})).elapsed := Environment.elapsed_le_pass
  simp only [Environment.anchor, Environment.now, Environment.monotonic]
  linarith

lemma deadline_le_closeTest (index : ℤ) (m : Moment) : a.deadline g index ≤ e.monotonic (closeTest g e a index m) := by
  have returned {m : Moment} : m.elapsed ≤ (e.pass m).elapsed := Environment.elapsed_le_pass
  rw [closeTest, await]
  split
  next =>
    have woken := e.wait_nonneg (e.pass m).calls
    have tested := @returned (e.sleep (a.deadline g index - e.monotonic (e.pass m)) (e.pass m))
    simp only [Environment.sleep, Environment.monotonic] at tested ⊢
    linarith
  next past =>
    have tested := @returned (e.pass m)
    simp only [Environment.monotonic] at past tested ⊢
    linarith

lemma slotTs_le_closeTest {index : ℤ} {m : Moment} (lag : a.wall - e.wall ≤ a.mono - e.mono) :
    g.slotTs index ≤ e.now (closeTest g e a index m) := by
  have reached := @deadline_le_closeTest g e a index m
  simp only [Anchor.deadline, Anchor.offset0, SlotGrid.slotTs, Environment.now, Environment.monotonic] at reached ⊢
  linarith

lemma le_deadline_iff {mono : ℚ} {k : ℤ} :
    mono ≤ a.deadline g k ↔ ⌈(mono - a.mono - a.offset0 g) / g.cadenceSeconds⌉ ≤ k := by
  rw [Int.ceil_le, div_le_iff₀ SlotGrid.cadence_cast_pos, Anchor.deadline]
  constructor <;> intro le <;> linarith

lemma catchUp_spec {following : ℤ} {m m' : Moment} (late : a.deadline g following - e.monotonic m < 0)
    (later : m.elapsed ≤ m'.elapsed) :
    following < catchUp g e a following m' ∧
      IsLeast {k : ℤ | e.monotonic m' ≤ a.deadline g k} (catchUp g e a following m') := by
  have past : a.deadline g following < e.monotonic m' := by
    simp only [Environment.monotonic] at late ⊢
    linarith
  have ahead : following < ⌈(e.monotonic m' - a.mono - a.offset0 g) / g.cadenceSeconds⌉ := by
    by_contra behind
    exact absurd (le_deadline_iff.2 (not_lt.1 behind)) (not_le.2 past)
  rw [catchUp, max_eq_right ahead.le]
  refine ⟨ahead, le_deadline_iff.2 le_rfl, ?_⟩
  intro k notPast
  exact le_deadline_iff.1 notPast

lemma turns_course (lag : a.wall - e.wall ≤ a.mono - e.mono) (index emitted : ℤ) (m : Moment) :
    Course g callback a index (g.turns maxCycles callback e a index emitted m) := by
  induction index, emitted, m using SlotGrid.turns.induct g e a with
  | case1 index emitted m contained tested closed =>
    rw [SlotGrid.turns, if_pos contained, if_pos closed]
    exact .done
  | case2 index emitted m contained tested openStill worked jumped next =>
    have due : g.slotTs index ≤ e.now tested := slotTs_le_closeTest lag
    rw [SlotGrid.turns, if_pos contained, if_neg openStill]
    show Course g callback a index (.yielded (g.stamp index) (e.now tested) :: ite _ _ (ite _ _ _))
    split
    next => exact .onTime contained due (not_le.1 openStill) .done
    next =>
      split
      next overran =>
        obtain ⟨ahead, least⟩ := catchUp_spec overran Environment.elapsed_le_pass
        exact .overran contained due (not_le.1 openStill) ahead least jumped
      next => exact .onTime contained due (not_le.1 openStill) next
  | case3 index emitted m outside =>
    rw [SlotGrid.turns, if_neg outside]
    exact .done

end Turns

/-! ## What holds along a course -/

section Course

variable {g : SlotGrid} {callback : Bool} {a : Anchor} {index : ℤ} {events : List Event}

@[simp] lemma slots_nil : slots [] = [] := rfl

@[simp] lemma slots_yielded {slot : SlotStamp} {wall : ℚ} {rest : List Event} :
    slots (.yielded slot wall :: rest) = slot.index :: slots rest := rfl

@[simp] lemma slots_skipped {first next : ℤ} {mono : ℚ} {reported : Bool} {rest : List Event} :
    slots (.skipped first next mono reported :: rest) = slots rest := rfl

namespace Course

lemma le_slot (course : Course g callback a index events) {k : ℤ} (mem : k ∈ slots events) : index ≤ k := by
  induction course with
  | done => simp at mem
  | onTime _ _ _ _ ih =>
    rcases mem_cons.1 mem with rfl | later
    · exact le_rfl
    · exact (Int.le_add_one le_rfl).trans (ih later)
  | overran _ _ _ ahead _ _ ih =>
    rcases mem_cons.1 mem with rfl | later
    · exact le_rfl
    · have past := ih later
      omega

lemma pairwise (course : Course g callback a index events) : (slots events).Pairwise (· < ·) := by
  induction course with
  | done => exact .nil
  | onTime _ _ _ next ih =>
    refine .cons ?_ ih
    intro k mem
    exact next.le_slot mem
  | overran _ _ _ ahead _ resumed ih =>
    refine .cons ?_ ih
    intro k mem
    have past := resumed.le_slot mem
    simp only [SlotGrid.stamp]
    omega

lemma yielded (course : Course g callback a index events) {slot : SlotStamp} {wall : ℚ}
    (mem : Event.yielded slot wall ∈ events) :
    slot = g.stamp slot.index ∧ g.contains slot.index ∧ slot.ts ≤ wall ∧ wall < g.stop := by
  induction course with
  | done => simp at mem
  | onTime contained due isOpen _ ih =>
    rcases mem_cons.1 mem with here | later
    · cases here
      exact ⟨rfl, contained, due, isOpen⟩
    · exact ih later
  | overran contained due isOpen _ _ _ ih =>
    rcases mem_cons.1 mem with here | later
    · cases here
      exact ⟨rfl, contained, due, isOpen⟩
    · rcases mem_cons.1 later with jump | later
      · cases jump
      · exact ih later

lemma resumes (course : Course g callback a index events) {before after : List Event} {first next : ℤ} {mono : ℚ}
    {reported : Bool} (split : events = before ++ .skipped first next mono reported :: after) :
    IsLeast {k : ℤ | mono ≤ a.deadline g k} next ∧
      (after = [] ∨ ∃ wall rest, after = .yielded (g.stamp next) wall :: rest) := by
  induction course generalizing before with
  | done => simp at split
  | onTime _ _ _ _ ih =>
    cases before with
    | nil => simp at split
    | cons _ before =>
      simp only [cons_append, List.cons.injEq] at split
      exact ih split.2
  | overran _ _ _ _ least resumed ih =>
    match before with
    | [] => simp at split
    | [_] =>
      simp only [cons_append, nil_append, List.cons.injEq, Event.skipped.injEq] at split
      obtain ⟨-, ⟨-, rfl, rfl, -⟩, rfl⟩ := split
      refine ⟨least, ?_⟩
      cases resumed with
      | done => exact .inl rfl
      | onTime => exact .inr ⟨_, _, rfl⟩
      | overran => exact .inr ⟨_, _, rfl⟩
    | _ :: _ :: before =>
      simp only [cons_append, List.cons.injEq] at split
      exact ih split.2.2

lemma accounted_eq (course : Course g true a index events) :
    ∃ stop, index ≤ stop ∧ (∀ k ∈ slots events, k < stop) ∧
      ∀ k, accounted events k = if index ≤ k ∧ k < stop then 1 else 0 := by
  induction course with
  | @done index =>
    refine ⟨index, le_rfl, by simp, ?_⟩
    intro k
    rw [if_neg (by omega)]
    rfl
  | @onTime index wall rest _ _ _ _ ih =>
    obtain ⟨stop, le, below, once⟩ := ih
    refine ⟨stop, by omega, ?_, ?_⟩
    · intro k mem
      rcases mem_cons.1 mem with here | later
      · simp only [SlotGrid.stamp] at here
        omega
      · exact below k later
    · intro k
      have rest_once := once k
      simp only [accounted, slots_yielded, count_cons, reports, filterMap_cons] at rest_once ⊢
      simp only [SlotGrid.stamp, beq_iff_eq]
      split_ifs at rest_once ⊢ <;> omega
  | @overran index next wall mono rest _ _ _ ahead _ _ ih =>
    obtain ⟨stop, le, below, once⟩ := ih
    refine ⟨stop, by omega, ?_, ?_⟩
    · intro k mem
      rcases mem_cons.1 mem with here | later
      · simp only [SlotGrid.stamp] at here
        omega
      · exact below k later
    · intro k
      have rest_once := once k
      simp only [accounted, slots_yielded, slots_skipped, count_cons, reports, filterMap_cons,
        countP_cons] at rest_once ⊢
      simp only [SlotGrid.stamp, beq_iff_eq, decide_eq_true_eq]
      split_ifs at rest_once ⊢ <;> omega

lemma accounted_once (course : Course g true a index events) {first last : ℤ} (firstMem : first ∈ slots events)
    (lastMem : last ∈ slots events) {k : ℤ} (fromFirst : first ≤ k) (upToLast : k ≤ last) : accounted events k = 1 := by
  obtain ⟨stop, -, below, once⟩ := course.accounted_eq
  have start := course.le_slot firstMem
  have finish := below last lastMem
  rw [once k, if_pos (by omega)]

lemma length_le (course : Course g callback a index events) : (slots events).length ≤ g.expectedCycles := by
  have contained : ∀ k ∈ slots events, g.contains k := by
    intro k mem
    obtain ⟨event, eventMem, eq⟩ := mem_filterMap.1 mem
    cases event with
    | yielded slot wall =>
      cases eq
      exact (course.yielded eventMem).2.1
    | skipped => simp at eq
  have nodup : (slots events).Nodup := course.pairwise.imp ne_of_lt
  have subset : (slots events).toFinset ⊆ Finset.Ico 0 g.expectedCycles := by
    intro k mem
    exact mem_Ico.2 (contained k (mem_toFinset.1 mem))
  have card := card_le_card subset
  rw [toFinset_card_of_nodup nodup, Int.card_Ico] at card
  cases cases_ : slots events with
  | nil =>
    have counted := SlotGrid.ncard_slots (g := g)
    simp only [length_nil]
    omega
  | cons k _ =>
    have some := contained k (by simp [cases_])
    have bounds : 0 ≤ k ∧ k < g.expectedCycles := some
    rw [cases_] at card
    omega

end Course

end Course

/-! ## The iterator -/

end Workbench.Research.Sampler
