import Workbench.Risk.PdtAnalyzer

/-!
# Day trades of the true position

`intervals` are the day trades of an account: from a fill that takes the position of a symbol off zero, since the
cutoff, to the fill of the same Eastern date that brings it back, the position folded over the whole history. The
analyzer starts each day of UTC−5 at zero, so what it counts is how often a position comes back to where that day
found it (`Returns`). A fill of a symbol that was flat when the day began, on a day of one Eastern date (`Steady`),
comes back if and only if it ends a day trade. So the two counts can differ only by the fills that are not steady. -/

namespace Workbench.Risk.Pdt
open Workbench.Lib Workbench.Market List

def position (symbol : String) (fills : List Fill) : ℚ := total (fills.filter (·.ticker = symbol))

/-- A day trade from the fill at `o` to the one at `c`: the position is zero before and after, and nowhere between. -/
def Interval (zone : Zone) (cutoff : ℤ) (fills : List Fill) (o c : ℕ) : Prop :=
  match fills[o]?, fills[c]? with
  | some f, some g =>
    o < c ∧ f.ticker = g.ticker ∧ cutoff ≤ f.filledAt ∧ zone.date f.filledAt = zone.date g.filledAt ∧
      position g.ticker (fills.take o) = 0 ∧ (∀ k ∈ Finset.Ioc o c, position g.ticker (fills.take k) ≠ 0) ∧
      position g.ticker (fills.take (c + 1)) = 0
  | _, _ => False

instance {zone : Zone} {cutoff : ℤ} {fills : List Fill} {o c : ℕ} : Decidable (Interval zone cutoff fills o c) := by
  unfold Interval
  split
  · infer_instance
  · infer_instance

/-- The day trades of an account since the cutoff. -/
def intervals (zone : Zone) (cutoff : ℤ) (fills : List Fill) : Finset (ℕ × ℕ) :=
  (Finset.range fills.length ×ˢ Finset.range fills.length).filter fun p => Interval zone cutoff fills p.1 p.2

def ends (zone : Zone) (cutoff : ℤ) (fills : List Fill) : Finset ℕ := (intervals zone cutoff fills).image (·.2)

/-- Whether a fill is since the cutoff and of the UTC−5 date of `f`. -/
def Together (cutoff : ℤ) (f e : Fill) : Prop :=
  cutoff ≤ e.filledAt ∧ utcToEasternDate e.filledAt = utcToEasternDate f.filledAt

instance {cutoff : ℤ} {f e : Fill} : Decidable (Together cutoff f e) := inferInstanceAs (Decidable (_ ∧ _))

/-- The position that the UTC−5 day of `f`, or the cutoff, found. -/
def carried (cutoff : ℤ) (past : List Fill) (f : Fill) : ℚ :=
  position f.ticker (past.filter fun e => ¬ Together cutoff f e)

/-- The fill at `c` brings its symbol back to the position that the day found. -/
def Returns (cutoff : ℤ) (fills : List Fill) (c : ℕ) : Prop :=
  match fills[c]? with
  | some f =>
    cutoff ≤ f.filledAt ∧ position f.ticker (fills.take c) ≠ carried cutoff (fills.take c) f ∧
      position f.ticker (fills.take (c + 1)) = carried cutoff (fills.take c) f
  | none => False

instance {cutoff : ℤ} {fills : List Fill} {c : ℕ} : Decidable (Returns cutoff fills c) := by
  unfold Returns
  split
  · infer_instance
  · infer_instance

/-- The fills that bring a symbol back to where the day found it. -/
def returns (cutoff : ℤ) (fills : List Fill) : Finset ℕ := (Finset.range fills.length).filter (Returns cutoff fills)

/-- What the analyzer takes for granted at the fill at `c`: its UTC−5 day, or the window, found the symbol flat, and the
fills of the symbol on that day are of one Eastern date. -/
def Steady (zone : Zone) (cutoff : ℤ) (fills : List Fill) (c : ℕ) : Prop :=
  match fills[c]? with
  | some f =>
    cutoff ≤ f.filledAt → carried cutoff (fills.take c) f = 0 ∧
      ∀ e ∈ fills.take c, Together cutoff f e → e.ticker = f.ticker → zone.date e.filledAt = zone.date f.filledAt
  | none => True

instance decidableSteady {zone : Zone} {cutoff : ℤ} {fills : List Fill} : DecidablePred (Steady zone cutoff fills) := by
  intro c
  unfold Steady
  split
  · infer_instance
  · infer_instance

/-- The status has the day trades there are, and the warning that goes with them. -/
def PdtStatus.Counts (zone : Zone) (cutoff : ℤ) (fills : List Fill) (status : PdtStatus) : Prop :=
  status.dayTradeCount = (intervals zone cutoff fills).card ∧
    (status.isAtRisk = true ↔ dayTradeThreshold ≤ (intervals zone cutoff fills).card ∧
      ∀ equity, status.accountEquity = some equity → equity < Pdt.equityThreshold)

variable {zone : Zone} {cutoff : ℤ} {fills past : List Fill} {f : Fill} {symbol : String} {o c : ℕ}

/-! ## What the analyzer counts -/

lemma position_concat : position symbol (past ++ [f]) = position symbol past + if f.ticker = symbol then f.signed
    else 0 := by
  rw [position, filter_append, position]
  by_cases same : f.ticker = symbol
  · rw [filter_cons_of_pos (by simpa using same), filter_nil, total_concat, if_pos same]
  · rw [filter_cons_of_neg (by simpa using same), filter_nil, append_nil, if_neg same, add_zero]

lemma position_eq_carried (cutoff : ℤ) : position f.ticker past =
    carried cutoff past f + total (sameDay (past.filter fun e => decide (cutoff ≤ e.filledAt)) f) := by
  induction past with
  | nil => exact (add_zero 0).symm
  | cons e past ih =>
    have split (l : List Fill) (p : Fill → Bool) : total ((e :: l).filter p) = (if p e then e.signed else 0) +
        total (l.filter p) := by
      by_cases holds : p e = true
      · rw [filter_cons_of_pos holds, if_pos holds]
        exact sum_cons
      · rw [filter_cons_of_neg holds, if_neg holds, zero_add]
    simp only [position, carried, sameDay, filter_filter] at ih ⊢
    rw [split, split, split, ih]
    by_cases name : e.ticker = f.ticker
    · by_cases since : cutoff ≤ e.filledAt
      · by_cases day : utcToEasternDate e.filledAt = utcToEasternDate f.filledAt
        · simp [Fill.key, Together, name, since, day]
          ring
        · simp [Fill.key, Together, name, since, day]
          ring
      · simp [Fill.key, Together, name, since]
        ring
    · simp [Fill.key, name]

lemma length_identifyDayTrades_since :
    (identifyDayTrades (fills.filter fun e => decide (cutoff ≤ e.filledAt))).length = (returns cutoff fills).card := by
  induction fills using List.reverseRecOn with
  | nil => rfl
  | append_singleton fills f ih =>
    have earlier {c : ℕ} (lt : c < fills.length) : Returns cutoff (fills ++ [f]) c ↔ Returns cutoff fills c := by
      rw [Returns, Returns, getElem?_append_left lt, take_append_of_le_length lt.le,
        take_append_of_le_length lt]
    have last : Returns cutoff (fills ++ [f]) fills.length ↔ cutoff ≤ f.filledAt ∧
        total (sameDay (fills.filter fun e => decide (cutoff ≤ e.filledAt)) f) ≠ 0 ∧
        total (sameDay (fills.filter fun e => decide (cutoff ≤ e.filledAt)) f ++ [f]) = 0 := by
      have whole : (fills ++ [f]).take (fills.length + 1) = fills ++ [f] := take_of_length_le (by simp)
      simp only [Returns, getElem?_concat_length, take_left', whole]
      rw [position_concat, if_pos rfl, position_eq_carried cutoff, total_concat, add_assoc, add_eq_left,
        ne_eq, add_eq_left]
    have next : returns cutoff (fills ++ [f]) =
        if Returns cutoff (fills ++ [f]) fills.length then insert fills.length (returns cutoff fills)
        else returns cutoff fills := by
      rw [returns, length_append, length_singleton, Finset.range_add_one, Finset.filter_insert, returns]
      congr 1
      · congr 1
        exact Finset.filter_congr fun c mem => earlier (Finset.mem_range.1 mem)
      · exact Finset.filter_congr fun c mem => earlier (Finset.mem_range.1 mem)
    have new : fills.length ∉ returns cutoff fills := fun mem => by
      simpa using (Finset.mem_filter.1 mem).1
    rw [next, filter_append]
    by_cases since : cutoff ≤ f.filledAt
    · rw [filter_cons_of_pos (by simpa using since), filter_nil, length_identifyDayTrades_concat, ih]
      by_cases back : Returns cutoff (fills ++ [f]) fills.length
      · rw [if_pos back, if_pos (last.1 back).2, Finset.card_insert_of_notMem new]
      · rw [if_neg back, if_neg fun both => back (last.2 ⟨since, both⟩), add_zero]
    · rw [filter_cons_of_neg (by simpa using since), filter_nil, append_nil, ih,
        if_neg fun back => since (last.1 back).1]

/-! ## The day trades there are -/

lemma Interval.unique {o' : ℕ} (first : Interval zone cutoff fills o c) (second : Interval zone cutoff fills o' c) :
    o = o' := by
  unfold Interval at first second
  cases at_c : fills[c]? with
  | none =>
    rw [at_c] at first
    split at first
    · rename_i none
      cases none
    · exact first.elim
  | some g =>
    rw [at_c] at first second
    cases at_o : fills[o]? with
    | none =>
      rw [at_o] at first
      exact first.elim
    | some f =>
      cases at_o' : fills[o']? with
      | none =>
        rw [at_o'] at second
        exact second.elim
      | some f' =>
        rw [at_o] at first
        rw [at_o'] at second
        obtain ⟨before, -, -, -, flat, away, -⟩ := first
        obtain ⟨before', -, -, -, flat', away', -⟩ := second
        rcases lt_trichotomy o o' with lt | eq | gt
        · exact absurd flat' (away o' (Finset.mem_Ioc.2 ⟨lt, before'.le⟩))
        · exact eq
        · exact absurd flat (away' o (Finset.mem_Ioc.2 ⟨gt, before.le⟩))

lemma card_intervals : (intervals zone cutoff fills).card = (ends zone cutoff fills).card := by
  rw [ends, Finset.card_image_of_injOn]
  rintro ⟨o, c⟩ mem ⟨o', c'⟩ mem' rfl
  exact Prod.ext (Interval.unique (Finset.mem_filter.1 mem).2 (Finset.mem_filter.1 mem').2) rfl

lemma mem_returns : c ∈ returns cutoff fills ↔ Returns cutoff fills c := by
  rw [returns, Finset.mem_filter, Finset.mem_range]
  refine ⟨fun both => both.2, fun back => ⟨?_, back⟩⟩
  by_contra out
  rw [Returns, getElem?_eq_none (not_lt.1 out)] at back
  exact back

/-- A day trade is of fills of the history, the one that closes it after the one that opens it. -/
lemma Interval.endpoints (interval : Interval zone cutoff fills o c) :
    ∃ f g, fills[o]? = some f ∧ fills[c]? = some g ∧ o < c := by
  unfold Interval at interval
  split at interval
  · exact ⟨_, _, ‹_›, ‹_›, interval.1⟩
  · exact interval.elim

lemma mem_ends : c ∈ ends zone cutoff fills ↔ ∃ o, Interval zone cutoff fills o c := by
  rw [ends, Finset.mem_image]
  constructor
  · rintro ⟨⟨o, _⟩, mem, rfl⟩
    exact ⟨o, (Finset.mem_filter.1 mem).2⟩
  · rintro ⟨o, interval⟩
    obtain ⟨_, _, at_o, at_c, -⟩ := interval.endpoints
    refine ⟨(o, c), Finset.mem_filter.2 ⟨Finset.mem_product.2 ⟨?_, ?_⟩, interval⟩, rfl⟩
    · exact Finset.mem_range.2 (List.getElem?_eq_some_iff.1 at_o).1
    · exact Finset.mem_range.2 (List.getElem?_eq_some_iff.1 at_c).1

/-! ## Days that start flat -/

/-- What was so at first and is not now was last so at some time before. -/
lemma exists_last {P : ℕ → Prop} [DecidablePred P] (first : P 0) (now : ¬ P c) :
    ∃ o < c, P o ∧ ∀ k ∈ Finset.Ioc o c, ¬ P k := by
  have last : P (Nat.findGreatest P c) := Nat.findGreatest_spec (Nat.zero_le c) first
  have other : Nat.findGreatest P c ≠ c := fun same => now (same ▸ last)
  refine ⟨Nat.findGreatest P c, lt_of_le_of_ne (Nat.findGreatest_le c) other, last, ?_⟩
  intro k mem
  obtain ⟨after, le⟩ := Finset.mem_Ioc.1 mem
  exact Nat.findGreatest_is_greatest after le

/-- What goes on once it begins leaves a beginning of the list. -/
lemma filter_not_eq_take {α : Type*} {p : α → Prop} [DecidablePred p] {l : List α}
    (goesOn : l.Pairwise fun a b => p a → p b) :
    ∃ m, l.filter (fun a => ¬ p a) = l.take m ∧ ∀ i a, l[i]? = some a → m ≤ i → p a := by
  induction l with
  | nil => exact ⟨0, rfl, fun i a at_ => by simp at at_⟩
  | cons a l ih =>
    obtain ⟨later, rest⟩ := pairwise_cons.1 goesOn
    by_cases begun : p a
    · have all : ∀ b ∈ a :: l, p b := by
        intro b mem
        rcases mem_cons.1 mem with rfl | mem
        · exact begun
        · exact later b mem begun
      refine ⟨0, ?_, fun i b at_ _ => all b (mem_of_getElem? at_)⟩
      rw [take_zero, filter_eq_nil_iff]
      intro b mem
      simpa using all b mem
    · obtain ⟨m, eq, from_⟩ := ih rest
      refine ⟨m + 1, ?_, ?_⟩
      · rw [filter_cons_of_pos (by simpa using begun), eq, take_succ_cons]
      · intro i b at_ le
        cases i with
        | zero => omega
        | succ i => exact from_ i b (by simpa using at_) (by omega)

lemma utcToEasternDate_mono {t t' : Instant} (le : t ≤ t') : utcToEasternDate t ≤ utcToEasternDate t' := by
  apply Int.ediv_le_ediv (by decide)
  have : (t : ℤ) ≤ t' := by exact_mod_cast le
  omega

lemma filledAt_le (ordered : fills.Pairwise (·.filledAt ≤ ·.filledAt)) {e : Fill} (at_o : fills[o]? = some e)
    (at_c : fills[c]? = some f) (lt : o < c) : e.filledAt ≤ f.filledAt := by
  obtain ⟨lt_o, rfl⟩ := List.getElem?_eq_some_iff.1 at_o
  obtain ⟨lt_c, rfl⟩ := List.getElem?_eq_some_iff.1 at_c
  exact pairwise_iff_getElem.1 ordered o c lt_o lt_c lt

/-- The fills before the one at `c` that are not of its day are the first of them. -/
lemma carried_eq_take (cutoff : ℤ) (ordered : fills.Pairwise (·.filledAt ≤ ·.filledAt)) (at_c : fills[c]? = some f) :
    ∃ m, carried cutoff (fills.take c) f = position f.ticker ((fills.take c).take m) ∧
      ∀ i e, i < c → fills[i]? = some e → m ≤ i → Together cutoff f e := by
  have goesOn : (fills.take c).Pairwise fun a b => Together cutoff f a → Together cutoff f b := by
    apply Pairwise.imp_of_mem _ (ordered.sublist (take_sublist c fills))
    intro a b _ mem le together
    obtain ⟨i, at_i⟩ := mem_iff_getElem?.1 mem
    have lt_i : i < c := by
      have lt_len := (List.getElem?_eq_some_iff.1 at_i).1
      rw [length_take] at lt_len
      omega
    rw [getElem?_take_of_lt lt_i] at at_i
    have upper : b.filledAt ≤ f.filledAt := filledAt_le ordered at_i at_c lt_i
    refine ⟨together.1.trans (by exact_mod_cast le), le_antisymm (utcToEasternDate_mono upper) ?_⟩
    rw [← together.2]
    exact utcToEasternDate_mono le
  obtain ⟨m, first, from_⟩ := filter_not_eq_take goesOn
  refine ⟨m, by rw [carried, first], fun i e lt at_i le => from_ i e ?_ le⟩
  rw [getElem?_take_of_lt lt, at_i]

lemma mem_ends_of_steady (ordered : fills.Pairwise (·.filledAt ≤ ·.filledAt)) (steady : Steady zone cutoff fills c)
    (back : Returns cutoff fills c) : ∃ o, Interval zone cutoff fills o c := by
  cases at_c : fills[c]? with
  | none =>
    rw [Returns, at_c] at back
    exact back.elim
  | some f =>
    rw [Steady, at_c] at steady
    rw [Returns, at_c] at back
    obtain ⟨since, away, back⟩ := back
    obtain ⟨flat, dates⟩ := steady since
    rw [flat] at away back
    obtain ⟨o, lt, zero, apart⟩ := exists_last (P := fun k => position f.ticker (fills.take k) = 0) rfl away
    have lt_c : c < fills.length := (List.getElem?_eq_some_iff.1 at_c).1
    obtain ⟨e, at_o⟩ : ∃ e, fills[o]? = some e := ⟨_, getElem?_eq_getElem (lt.trans lt_c)⟩
    -- the day found the symbol flat, so the last time it was flat is not before the day
    obtain ⟨m, found, from_⟩ := carried_eq_take cutoff ordered at_c
    rw [flat, take_take] at found
    have le_m : min m c ≤ o := by
      by_contra gt
      exact apart (min m c) (Finset.mem_Ioc.2 ⟨not_le.1 gt, min_le_right _ _⟩) found.symm
    have together : Together cutoff f e := from_ o e lt at_o (by omega)
    have opens : e.ticker = f.ticker := by
      by_contra other
      apply apart (o + 1) (Finset.mem_Ioc.2 ⟨Nat.lt_succ_self o, lt⟩)
      have next : fills.take (o + 1) = fills.take o ++ [e] := by
        rw [take_add_one, at_o]
        rfl
      rw [next, position_concat, if_neg other, add_zero]
      exact zero
    have before : e ∈ fills.take c := mem_of_getElem? ((getElem?_take_of_lt lt).trans at_o)
    refine ⟨o, ?_⟩
    rw [Interval, at_o, at_c]
    exact ⟨lt, opens, together.1, dates e before together opens, opens ▸ zero, apart, back⟩

lemma returns_of_steady (ordered : fills.Pairwise (·.filledAt ≤ ·.filledAt)) (steady : Steady zone cutoff fills c)
    (interval : Interval zone cutoff fills o c) : Returns cutoff fills c := by
  obtain ⟨e, f, at_o, at_c, lt⟩ := interval.endpoints
  rw [Interval, at_o, at_c] at interval
  rw [Steady, at_c] at steady
  obtain ⟨-, -, opened, -, -, apart, back⟩ := interval
  have since : cutoff ≤ f.filledAt := opened.trans (by exact_mod_cast filledAt_le ordered at_o at_c lt)
  rw [Returns, at_c]
  simp only [(steady since).1]
  exact ⟨since, apart c (Finset.mem_Ioc.2 ⟨lt, le_rfl⟩), back⟩

/-- A steady fill brings its symbol back if and only if it ends a day trade. -/
lemma mem_returns_iff (ordered : fills.Pairwise (·.filledAt ≤ ·.filledAt)) (steady : Steady zone cutoff fills c) :
    c ∈ returns cutoff fills ↔ c ∈ ends zone cutoff fills := by
  rw [mem_returns, mem_ends]
  constructor
  · exact mem_ends_of_steady ordered steady
  · rintro ⟨o, interval⟩
    exact returns_of_steady ordered steady interval

/-! ## The count -/

lemma card_eq_iff {s t : Finset ℕ} {P : ℕ → Prop} [DecidablePred P] (same : ∀ c, P c → (c ∈ s ↔ c ∈ t)) :
    s.card = t.card ↔ (s.filter fun c => ¬ P c).card = (t.filter fun c => ¬ P c).card := by
  have agree : s.filter P = t.filter P := by
    ext c
    simp only [Finset.mem_filter]
    exact and_congr_left (same c)
  rw [← Finset.card_filter_add_card_filter_not (s := s) P, ← Finset.card_filter_add_card_filter_not (s := t) P, agree,
    Nat.add_left_cancel_iff]

lemma counts_iff (accounts : ℕ → Option History) (registry : Option (ℕ → Option Adapter)) (asOf : Instant)
    {accountId : ℕ} {history : History} (found : accounts accountId = some history) :
    (∃ status, compute accounts registry asOf accountId = .ok status ∧
        status.Counts zone (businessDaysAgo windowBusinessDays asOf) history.fills) ↔
      (returns (businessDaysAgo windowBusinessDays asOf) history.fills).card =
        (ends zone (businessDaysAgo windowBusinessDays asOf) history.fills).card := by
  rw [compute, found, ← card_intervals, ← length_identifyDayTrades_since]
  constructor
  · rintro ⟨status, computed, count, -⟩
    obtain rfl := Except.ok.inj computed
    exact count
  · intro same
    refine ⟨_, rfl, same, ?_⟩
    rw [Bool.and_eq_true, decide_eq_true_iff, ← same]
    refine and_congr_right fun _ => ?_
    cases fetchEquity registry accountId with
    | none => simp
    | some equity => simp

/-- Where every fill is steady, the count and the warning are those of the day trades there are. In general they are
if and only if, of the fills that are not steady, as many bring their symbol back as end a day trade. -/
theorem day_trade_count_iff (zone : Zone) (accounts : ℕ → Option History) (registry : Option (ℕ → Option Adapter))
    (asOf : Instant) (accountId : ℕ) (history : History) (found : accounts accountId = some history) :
    let cutoff := businessDaysAgo windowBusinessDays asOf
    let right := ∃ status, compute accounts registry asOf accountId = .ok status ∧
        status.Counts zone cutoff history.fills
    ((∀ c < history.fills.length, Steady zone cutoff history.fills c) → right) ∧
      (right ↔ ((returns cutoff history.fills).filter fun c => ¬ Steady zone cutoff history.fills c).card =
        ((ends zone cutoff history.fills).filter fun c => ¬ Steady zone cutoff history.fills c).card) := by
  intro cutoff right
  have exact_ : right ↔ _ := (counts_iff accounts registry asOf found).trans
    (card_eq_iff fun c steady => mem_returns_iff history.ordered steady)
  refine ⟨fun steady => exact_.2 ?_, exact_⟩
  have none_ {s : Finset ℕ} (within : ∀ c ∈ s, c < history.fills.length) :
      s.filter (fun c => ¬ Steady zone cutoff history.fills c) = ∅ :=
    Finset.filter_eq_empty_iff.2 fun c mem not_ => not_ (steady c (within c mem))
  rw [none_, none_]
  · intro c mem
    obtain ⟨o, interval⟩ := mem_ends.1 mem
    obtain ⟨_, _, -, at_c, -⟩ := interval.endpoints
    exact (List.getElem?_eq_some_iff.1 at_c).1
  · intro c mem
    exact Finset.mem_range.1 (Finset.mem_filter.1 mem).1

def winter : Zone := ⟨fun _ => -300⟩

def friday (hours : ℕ) : Instant := (20000 * 24 + hours) * 60 * minute

/-- A short day trade of the Thursday, and one of the Friday closed by two fills. -/
def roundTrip : History where
  fills := [⟨friday 15 - 24 * 60 * minute, .sell, 5, "B"⟩, ⟨friday 16 - 24 * 60 * minute, .buy, 5, "B"⟩,
    ⟨friday 15, .buy, 10, "A"⟩, ⟨friday 16, .sell, 4, "A"⟩, ⟨friday 17, .sell, 6, "A"⟩]
  ordered := by decide

theorem day_trade_count_iff_roundTrip : ∃ status, compute (fun _ => some roundTrip) none (friday 20) 1 = .ok status ∧
    status.Counts winter (businessDaysAgo windowBusinessDays (friday 20)) roundTrip.fills :=
  (day_trade_count_iff winter (fun _ => some roundTrip) none (friday 20) 1 roundTrip rfl).1 (by decide +kernel)

def soldAndBoughtBack : History where
  fills := [⟨0, .buy, 10, "A"⟩, ⟨friday 15, .sell, 10, "A"⟩, ⟨friday 16, .buy, 10, "A"⟩]
  ordered := by decide

/-- Shares that were carried, sold and bought back are counted as a day trade. -/
theorem carried_position_counted :
    ((compute (fun _ => some soldAndBoughtBack) none (friday 20) 1).toOption.map (·.dayTradeCount)) = some 1 ∧
      (intervals winter (businessDaysAgo windowBusinessDays (friday 20)) soldAndBoughtBack.fills).card = 0 := by
  constructor <;> decide +kernel

end Workbench.Risk.Pdt
