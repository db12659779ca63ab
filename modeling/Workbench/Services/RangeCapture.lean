import Workbench.Services.RangeExecution

/-!
# How a history is cut into captures

The book of a day is what the published sets fold to from before the first of them. A capture folds from a seed that it
reads out of the signals, so its membership is a part of the book; the first capture of a day decides its rows, and a
capture that is repeated adds none. The rows do not depend on the cut if and only if no start of a window changes the
membership of a later day that has a bar.
-/

namespace Workbench.Services.RangeExecution
open Workbench List
variable {M : Finset String} {day dFrom dTo : ℤ} {r : Record} {windows : List (ℤ × ℤ)}

variable {E : Evidence} {P : ℤ → Finset String} {C X Y : Finset String} {s d today : ℤ} {k n : ℕ}

/-! ## The carry-forward rule -/

/-- The membership of the day `k` days after the start, folded from a seed. -/
def carry (P : ℤ → Finset String) (start : ℤ) (seed : Finset String) : ℕ → Finset String
  | 0 => membersForDay (P start) seed
  | k + 1 => carry P (start + 1) (membersForDay (P start) seed) k

/-- The book of a day, folded from a day before which nothing was published. -/
inductive Book (P : ℤ → Finset String) : ℤ → Finset String → Prop
  | first (day : ℤ) (silent : ∀ before < day, P before = ∅) : Book P day (membersForDay (P day) ∅)
  | next (day : ℤ) (book : Finset String) (known : Book P day book) :
      Book P (day + 1) (membersForDay (P (day + 1)) book)

lemma published_subset_members : X ⊆ membersForDay X C := by
  rw [membersForDay]
  split
  · rename_i empty
    rw [empty]
    exact Finset.empty_subset _
  · split
    · rename_i part
      exact part.2.subset
    · exact Finset.Subset.refl _

@[simp] lemma membersForDay_silent : membersForDay ∅ C = C := if_pos rfl

lemma membersForDay_mono (sub : X ⊆ Y) : membersForDay C X ⊆ membersForDay C Y := by
  by_cases silent : C = ∅
  · rw [silent, membersForDay_silent, membersForDay_silent]
    exact sub
  · rw [membersForDay, if_neg silent]
    split
    · rename_i part
      -- a strict subset of the smaller membership is one of the larger
      have nonempty : Y ≠ ∅ := fun empty => part.1 (Finset.subset_empty.1 (empty ▸ sub))
      rw [membersForDay, if_neg silent, if_pos ⟨nonempty, part.2.trans_subset sub⟩]
      exact sub
    · exact published_subset_members

lemma carry_succ : carry P s C (k + 1) = membersForDay (P (s + k + 1)) (carry P s C k) := by
  induction k generalizing s C with
  | zero =>
    have here : s + (0 : ℕ) + 1 = s + 1 := by push_cast; ring
    rw [here]
    rfl
  | succ k ih =>
    have here : s + 1 + (k : ℤ) + 1 = s + ((k + 1 : ℕ) : ℤ) + 1 := by push_cast; ring
    rw [carry, ih, here]
    rfl

lemma membershipFrom_eq {Q : ℤ → Finset String} (same : ∀ day, s ≤ day → day < s + n → Q day = P day) :
    membershipFrom Q C (days s n) = (List.range n).map fun k : ℕ => (s + k, carry P s C k) := by
  induction n generalizing s C with
  | zero => rfl
  | succ n ih =>
    have here : Q s = P s := same s le_rfl (by push_cast; omega)
    have tail (seed : Finset String) := ih (s := s + 1) (C := seed) fun day le lt =>
      same day (by omega) (by push_cast; omega)
    have carried : (if membersForDay (P s) C = ∅ then C else membersForDay (P s) C) = membersForDay (P s) C := by
      split
      · rename_i empty
        -- an empty membership carries nothing on
        rw [membersForDay] at empty ⊢
        grind
      · rfl
    rw [days, membershipFrom, here, carried, tail, range_succ_eq_map, map_cons, map_map]
    congr 1
    · simp [carry]
    · apply map_congr_left
      intro k _
      rw [Function.comp_apply, Prod.mk.injEq]
      constructor
      · push_cast
        ring
      · rfl

lemma carry_subset_book (book : Book P d M) (sub : C ⊆ M) : ∃ M', Book P (d + 1 + k) M' ∧ carry P (d + 1) C k ⊆ M' := by
  induction k with
  | zero =>
    refine ⟨_, ?_, membersForDay_mono sub⟩
    have here : d + 1 + ((0 : ℕ) : ℤ) = d + 1 := by push_cast; ring
    rw [here]
    exact .next d M book
  | succ k ih =>
    obtain ⟨M', book', sub'⟩ := ih
    have here : d + 1 + ((k + 1 : ℕ) : ℤ) = d + 1 + k + 1 := by push_cast; ring
    rw [here, carry_succ]
    exact ⟨_, .next _ _ book', membersForDay_mono sub'⟩

lemma Book.silent (book : Book P d M) (silent : ∀ day, d < day → day ≤ d + k → P day = ∅) : Book P (d + k) M := by
  induction k with
  | zero => simpa using book
  | succ k ih =>
    have before := ih fun day lt le => silent day lt (by push_cast; omega)
    have next := Book.next _ _ before
    rw [silent (d + k + 1) (by omega) (by push_cast; omega), membersForDay_silent] at next
    have here : d + ((k + 1 : ℕ) : ℤ) = d + k + 1 := by push_cast; ring
    rw [here]
    exact next

/-! ## The levels of a window -/

lemma mem_publishedOn {rows : List Published} {t : String} :
    t ∈ publishedOn rows day ↔ ∃ p ∈ rows, p.day = day ∧ p.ticker = t := by
  simp [publishedOn, and_assoc]

/-- What a day published, over the whole history. -/
def publishedDay (E : Evidence) (day : ℤ) : Finset String := publishedOn E.published day

lemma publishedOn_levels (from_ : dFrom ≤ day) (to_ : day ≤ dTo) :
    publishedOn (E.levels dFrom dTo) day = publishedDay E day := by
  ext t
  rw [publishedDay, mem_publishedOn, mem_publishedOn]
  constructor
  · intro ⟨p, mem, at_⟩
    exact ⟨p, (mem_filter.1 mem).1, at_⟩
  · intro ⟨p, mem, at_, named⟩
    exact ⟨p, mem_filter.2 ⟨mem, by simp [at_, from_, to_]⟩, at_, named⟩

lemma levelsOn_levels (from_ : dFrom ≤ day) (to_ : day ≤ dTo) {symbol : String} :
    levelsOn (E.levels dFrom dTo) day symbol = levelsOn E.published day symbol := by
  rw [levelsOn, levelsOn, Evidence.levels, find?_filter]
  congr 3
  funext p
  by_cases here : p.day = day
  · simp [here, from_, to_]
  · simp [here]

lemma published_ordered : E.published.Pairwise (·.day ≤ ·.day) := by
  refine E.ordered.filterMap _ ?_
  intro a b le p atA q atB
  have dayOf {s : Signal} {p : Published} (at_ : s.published E.strategy = some p) : p.day = s.day := by
    rw [Signal.published] at at_
    split at at_
    · obtain ⟨levels, -, rfl⟩ := Option.map_eq_some_iff.1 at_
      rfl
    · cases at_
  rw [dayOf atA, dayOf atB]
  exact Int.ediv_le_ediv (by norm_num) le

/-! ## The membership of a window -/

/-- The membership of a day in a capture that starts on another. -/
def members (E : Evidence) (start day : ℤ) : Finset String :=
  carry (publishedDay E) start (membershipBefore E start) (day - start).toNat

lemma membershipByDay_eq : membershipByDay E dFrom dTo =
    (List.range (dTo - dFrom + 1).toNat).map fun k : ℕ => (dFrom + k, members E dFrom (dFrom + k)) := by
  rw [membershipByDay, membershipFrom_eq (P := publishedDay E) fun day le lt => publishedOn_levels le (by omega)]
  apply map_congr_left
  intro k _
  rw [members, add_sub_cancel_left, Int.toNat_natCast]

lemma mem_membershipByDay :
    (day, M) ∈ membershipByDay E dFrom dTo ↔ dFrom ≤ day ∧ day ≤ dTo ∧ M = members E dFrom day := by
  rw [membershipByDay_eq, mem_map]
  constructor
  · intro ⟨k, lt, eq⟩
    cases eq
    have lt := mem_range.1 lt
    exact ⟨by omega, by omega, rfl⟩
  · intro ⟨from_, to_, eq⟩
    refine ⟨(day - dFrom).toNat, mem_range.2 (by omega), ?_⟩
    have here : dFrom + ((day - dFrom).toNat : ℤ) = day := by omega
    rw [here, eq]

lemma membershipBefore_cases (E : Evidence) (s : ℤ) : membershipBefore E s = ∅ ∨
    ∃ last ≤ s - 1, membershipBefore E s = publishedDay E last ∧
      ∀ day, last < day → day ≤ s - 1 → publishedDay E day = ∅ := by
  rw [membershipBefore]
  cases found : (E.levels (s - 30) (s - 1)).getLast? with
  | none => exact .inl rfl
  | some p =>
    obtain ⟨init, split_⟩ := getLast?_eq_some_iff.1 found
    have within : s - 30 ≤ p.day ∧ p.day ≤ s - 1 := by
      have mem : p ∈ E.levels (s - 30) (s - 1) := by rw [split_]; simp
      exact of_decide_eq_true (mem_filter.1 mem).2
    refine .inr ⟨p.day, within.2, publishedOn_levels within.1 within.2, fun day later le => ?_⟩
    rw [Finset.eq_empty_iff_forall_notMem]
    intro t mem
    obtain ⟨q, mem, at_, -⟩ := mem_publishedOn.1 mem
    have windowed : q ∈ E.levels (s - 30) (s - 1) := mem_filter.2 ⟨mem, by simp; omega⟩
    have ordered : (E.levels (s - 30) (s - 1)).Pairwise (·.day ≤ ·.day) := published_ordered.filter _
    rw [split_] at windowed ordered
    obtain ⟨-, -, before⟩ := pairwise_append.1 ordered
    obtain earlier | last := mem_append.1 windowed
    · have le := before q earlier p (mem_singleton_self p)
      omega
    · rw [mem_singleton.1 last] at at_
      omega

lemma Book.exists (E : Evidence) (d : ℤ) : ∃ M, Book (publishedDay E) d M := by
  obtain ⟨floor, silent⟩ : ∃ floor : ℤ, ∀ day < floor, publishedDay E day = ∅ := by
    obtain ⟨floor, below⟩ := (E.published.map (·.day)).toFinset.bddBelow
    refine ⟨floor, fun day lt => Finset.eq_empty_iff_forall_notMem.2 fun t mem => ?_⟩
    obtain ⟨p, mem, at_, -⟩ := mem_publishedOn.1 mem
    have le : floor ≤ p.day := below (by simpa using ⟨p, mem, rfl⟩)
    omega
  obtain before | after := lt_or_ge d floor
  · exact ⟨_, .first d fun day lt => silent day (lt.trans before)⟩
  · induction d, after using Int.leInduction with
    | base => exact ⟨_, .first floor silent⟩
    | succ d _ ih =>
      obtain ⟨M, book⟩ := ih
      exact ⟨_, book.next⟩

lemma Book.published (book : Book P d M) : P d ⊆ M := by
  cases book with
  | first => exact published_subset_members
  | next => exact published_subset_members

lemma members_subset_book (le : s ≤ d) : ∃ M, Book (publishedDay E) d M ∧ members E s d ⊆ M := by
  have seed : ∃ M, Book (publishedDay E) (s - 1) M ∧ membershipBefore E s ⊆ M := by
    obtain empty | ⟨last, before, eq, silent⟩ := membershipBefore_cases E s
    · obtain ⟨M, book⟩ := Book.exists E (s - 1)
      exact ⟨M, book, empty ▸ Finset.empty_subset M⟩
    · obtain ⟨M, book⟩ := Book.exists E last
      have kept := book.silent (k := (s - 1 - last).toNat) fun day lt le => silent day lt (by omega)
      have here : last + ((s - 1 - last).toNat : ℤ) = s - 1 := by omega
      rw [here] at kept
      exact ⟨M, kept, eq ▸ book.published⟩
  obtain ⟨M, book, sub⟩ := seed
  have folded := carry_subset_book (k := (d - s).toNat) book sub
  have start : s - 1 + 1 = s := by omega
  have here : s + ((d - s).toNat : ℤ) = d := by omega
  rw [start, here] at folded
  exact folded

/-! ## The rows of a capture -/

/-- The row that a symbol has on a day, if there is a bar. -/
def rowOn (E : Evidence) (day : ℤ) (symbol : String) : Option Record :=
  match E.bars, E.strategy with
  | some bars, some _ => row E.published bars day symbol
  | _, _ => none

lemma rowOn_keys {symbol : String} (at_ : rowOn E day symbol = some r) : r.etDate = day ∧ r.symbol = symbol := by
  rw [rowOn] at at_
  split at at_
  · obtain ⟨lh, -, rfl⟩ := Option.map_eq_some_iff.1 at_
    exact ⟨rfl, rfl⟩
  · cases at_

lemma mem_symbolsOn {table : List Record} {symbol : String} :
    symbol ∈ symbolsOn table day ↔ ∃ r ∈ table, r.etDate = day ∧ r.symbol = symbol := by
  simp [symbolsOn, and_assoc]

lemma mem_captured {table : List Record} {w : ℤ × ℤ} :
    r ∈ captured E today table w ↔ w.1 ≤ r.etDate ∧ r.etDate ≤ min w.2 (today - 1) ∧
      r.symbol ∈ members E w.1 r.etDate ∧ symbolsOn table r.etDate ⊆ members E w.1 r.etDate ∧
      r.symbol ∉ symbolsOn table r.etDate ∧ rowOn E r.etDate r.symbol = some r := by
  rw [captured, rowOn]
  cases E.bars with
  | none => simp
  | some bars =>
    cases E.strategy with
    | none => simp
    | some strategy =>
      dsimp only
      split
      · rename_i none
        constructor
        · intro mem
          cases mem
        · intro ⟨from_, to_, _⟩
          omega
      · rw [mem_flatMap]
        constructor
        · rintro ⟨⟨day, M⟩, mem, added⟩
          obtain ⟨from_, to_, rfl⟩ := mem_membershipByDay.1 mem
          rw [captureDay] at added
          split at added
          · cases added
          · rename_i takes
            rw [not_or, not_not, Finset.sdiff_eq_empty_iff_subset] at takes
            obtain ⟨symbol, mem, at_⟩ := mem_filterMap.1 added
            obtain ⟨member, new⟩ := Finset.mem_sdiff.1 ((Finset.mem_sort _).1 mem)
            obtain ⟨lh, bar, rfl⟩ := Option.map_eq_some_iff.1 at_
            refine ⟨from_, to_, member, takes.2, new, ?_⟩
            rw [row, bar, levelsOn_levels from_ to_]
            rfl
        · intro ⟨from_, to_, member, others, new, at_⟩
          refine ⟨(r.etDate, members E w.1 r.etDate), mem_membershipByDay.2 ⟨from_, to_, rfl⟩, ?_⟩
          have takes : ¬ (members E w.1 r.etDate = ∅ ∨ symbolsOn table r.etDate \ members E w.1 r.etDate ≠ ∅) := by
            rw [not_or, not_not, Finset.sdiff_eq_empty_iff_subset]
            exact ⟨Finset.ne_empty_of_mem member, others⟩
          rw [captureDay, if_neg takes]
          refine mem_filterMap.2 ⟨r.symbol, (Finset.mem_sort _).2 (Finset.mem_sdiff.2 ⟨member, new⟩), ?_⟩
          rw [← at_, row, row, levelsOn_levels from_ to_]

/-! ## Sequences of captures -/

/-- A day that a window covers, and that is closed. -/
def Covers (today : ℤ) (windows : List (ℤ × ℤ)) (day : ℤ) : Prop :=
  ∃ w ∈ windows, w.1 ≤ day ∧ day ≤ min w.2 (today - 1)

lemma captureAll_concat {w : ℤ × ℤ} : captureAll E today (windows ++ [w]) =
    captureAll E today windows ++ captured E today (captureAll E today windows) w := by
  rw [captureAll, foldl_concat]
  rfl

lemma mem_captureAll (mem : r ∈ captureAll E today windows) : rowOn E r.etDate r.symbol = some r ∧
      ∃ w ∈ windows, w.1 ≤ r.etDate ∧ r.etDate ≤ w.2 ∧ r.symbol ∈ members E w.1 r.etDate := by
  induction windows using List.reverseRecOn with
  | nil => cases mem
  | append_singleton windows w ih =>
    rw [captureAll_concat] at mem
    obtain old | new := mem_append.1 mem
    · obtain ⟨at_, w', mem', rest⟩ := ih old
      exact ⟨at_, w', mem_append_left _ mem', rest⟩
    · obtain ⟨from_, to_, member, -, -, at_⟩ := mem_captured.1 new
      exact ⟨at_, w, by simp, from_, to_.trans (min_le_left _ _), member⟩

lemma mem_captureAll_of_invariant {a c : ℤ} (within : ∀ w ∈ windows, ∀ day, w.1 ≤ day → day ≤ w.2 → a ≤ day ∧ day ≤ c)
    (invariant : ∀ s d, a ≤ s → s ≤ d → d ≤ c → ∀ symbol, (rowOn E d symbol).isSome = true →
      (symbol ∈ members E s d ↔ symbol ∈ members E a d)) :
    r ∈ captureAll E today windows ↔ Covers today windows r.etDate ∧ r.symbol ∈ members E a r.etDate ∧
      rowOn E r.etDate r.symbol = some r := by
  induction windows using List.reverseRecOn generalizing r with
  | nil =>
    constructor
    · intro mem
      cases mem
    · intro ⟨⟨w, mem, _⟩, _⟩
      cases mem
  | append_singleton windows w ih =>
    have before : ∀ {r}, r ∈ captureAll E today windows ↔ _ :=
      ih fun w' mem => within w' (mem_append_left _ mem)
    -- what starts with the window is what starts with the first day
    have same {day : ℤ} {symbol : String} {r : Record} (from_ : w.1 ≤ day) (to_ : day ≤ min w.2 (today - 1))
        (at_ : rowOn E day symbol = some r) : symbol ∈ members E w.1 day ↔ symbol ∈ members E a day := by
      have first := within w (by simp) w.1 le_rfl (by omega)
      have last := within w (by simp) day from_ (by omega)
      exact invariant w.1 day first.1 from_ last.2 symbol (by rw [at_]; rfl)
    rw [captureAll_concat, mem_append, mem_captured]
    constructor
    · intro mem
      obtain old | ⟨from_, to_, member, -, -, at_⟩ := mem
      · obtain ⟨⟨w', mem', covers⟩, rest⟩ := before.1 old
        exact ⟨⟨w', mem_append_left _ mem', covers⟩, rest⟩
      · exact ⟨⟨w, by simp, from_, to_⟩, (same from_ to_ at_).1 member, at_⟩
    · intro ⟨⟨w', mem', from_, to_⟩, member, at_⟩
      by_cases old : r ∈ captureAll E today windows
      · exact .inl old
      · obtain earlier | last := mem_append.1 mem'
        · exact .inl (before.2 ⟨⟨w', earlier, from_, to_⟩, member, at_⟩)
        · cases mem_singleton.1 last
          refine .inr ⟨from_, to_, (same from_ to_ at_).2 member, ?_, ?_, at_⟩
          · intro symbol there
            obtain ⟨r', mem_r', date, rfl⟩ := mem_symbolsOn.1 there
            obtain ⟨-, member', at'⟩ := before.1 mem_r'
            rw [date] at member' at'
            exact (same from_ to_ at').2 member'
          · intro there
            -- a row of the symbol on that day is the row itself
            obtain ⟨r', mem_r', date, named⟩ := mem_symbolsOn.1 there
            obtain ⟨-, -, at'⟩ := before.1 mem_r'
            rw [date, named, at_] at at'
            cases at'
            exact old mem_r'

lemma captured_again {w : ℤ × ℤ} (mem : w ∈ windows) : captured E today (captureAll E today windows) w = [] := by
  have grows (table : List Record) (later : List (ℤ × ℤ)) : table ⊆ later.foldl (captureWindow E today) table := by
    induction later generalizing table with
    | nil => exact List.Subset.refl table
    | cons w' later ih => exact List.Subset.trans (subset_append_left _ _) (ih _)
  have more {table table' : List Record} (sub : table ⊆ table') (day : ℤ) :
      symbolsOn table day ⊆ symbolsOn table' day := by
    intro symbol there
    obtain ⟨r, mem_r, keys⟩ := mem_symbolsOn.1 there
    exact mem_symbolsOn.2 ⟨r, sub mem_r, keys⟩
  obtain ⟨earlier, later, rfl⟩ := append_of_mem mem
  have all : captureAll E today (earlier ++ w :: later) = later.foldl (captureWindow E today)
      (captureAll E today earlier ++ captured E today (captureAll E today earlier) w) := by
    rw [captureAll, foldl_append]
    rfl
  rw [all, eq_nil_iff_forall_not_mem]
  intro r added
  obtain ⟨from_, to_, member, others, new, at_⟩ := mem_captured.1 added
  have first : symbolsOn (captureAll E today earlier ++ captured E today (captureAll E today earlier) w) r.etDate ⊆ _ :=
    more (grows _ later) r.etDate
  have start := more (subset_append_left (captureAll E today earlier)
    (captured E today (captureAll E today earlier) w)) r.etDate
  -- what is inserted now was inserted by the first of the two calls
  have once : r ∈ captured E today (captureAll E today earlier) w :=
    mem_captured.2 ⟨from_, to_, member, (start.trans first).trans others, fun there => new (first (start there)), at_⟩
  exact new (first (mem_symbolsOn.2 ⟨r, mem_append_right _ once, rfl, rfl⟩))

/-- The rows do not depend on the cut if and only if no start of a window changes the membership of a day with a bar;
repeated captures insert nothing; and every row names a symbol of the book of its day. -/
theorem capture_cut_iff (E : Evidence) (today a c : ℤ) (closed : c < today) :
    ((∀ windows : List (ℤ × ℤ), (∀ day, (∃ w ∈ windows, w.1 ≤ day ∧ day ≤ w.2) ↔ a ≤ day ∧ day ≤ c) →
        ∀ r, r ∈ captureAll E today windows ↔ r ∈ captureAll E today [(a, c)]) ↔
      ∀ s d, a ≤ s → s ≤ d → d ≤ c → ∀ symbol, (rowOn E d symbol).isSome = true →
        (symbol ∈ members E s d ↔ symbol ∈ members E a d)) ∧
    (∀ windows, ∀ w ∈ windows, captured E today (captureAll E today windows) w = []) ∧
    ∀ windows, ∀ r ∈ captureAll E today windows, ∃ book, Book (publishedDay E) r.etDate book ∧ r.symbol ∈ book := by
  refine ⟨⟨?_, ?_⟩, fun windows w mem => captured_again mem, ?_⟩
  · intro equal s d le_s le_d le_c symbol bar
    obtain ⟨r, at_⟩ := Option.isSome_iff_exists.1 bar
    obtain ⟨rfl, rfl⟩ := rowOn_keys at_
    -- the window is cut at the start
    have cut := equal [(a, s - 1), (s, c)] fun day => by
      constructor
      · intro ⟨w, mem, from_, to_⟩
        obtain rfl | ⟨rfl⟩ : w = (a, s - 1) ∨ w = (s, c) := by simpa using mem
        · exact ⟨from_, by dsimp only at to_; omega⟩
        · exact ⟨by dsimp only at from_; omega, to_⟩
      · intro ⟨from_, to_⟩
        obtain lt | le := lt_or_ge day s
        · exact ⟨(a, s - 1), by simp, from_, by dsimp only; omega⟩
        · exact ⟨(s, c), by simp, le, to_⟩
    have whole : r ∈ captureAll E today [(a, c)] ↔ r.symbol ∈ members E a r.etDate := by
      have one : captureAll E today [(a, c)] = captured E today [] (a, c) := rfl
      rw [one, mem_captured]
      constructor
      · exact fun added => added.2.2.1
      · exact fun member => ⟨by dsimp only; omega, by dsimp only; omega, member, by simp [symbolsOn],
          by simp [symbolsOn], at_⟩
    have parts : r ∈ captureAll E today [(a, s - 1), (s, c)] ↔ r.symbol ∈ members E s r.etDate := by
      have two : captureAll E today [(a, s - 1), (s, c)] = captured E today [] (a, s - 1) ++
          captured E today (captured E today [] (a, s - 1)) (s, c) := rfl
      have before : symbolsOn (captured E today [] (a, s - 1)) r.etDate = ∅ := by
        rw [Finset.eq_empty_iff_forall_notMem]
        intro symbol there
        obtain ⟨r', mem, date, -⟩ := mem_symbolsOn.1 there
        have le := (mem_captured.1 mem).2.1
        dsimp only at le
        omega
      rw [two, mem_append, mem_captured, mem_captured, before]
      constructor
      · intro added
        obtain ⟨-, le, -⟩ | added := added
        · dsimp only at le
          omega
        · exact added.2.2.1
      · exact fun member => .inr ⟨le_d, by dsimp only; omega, member, Finset.empty_subset _,
          Finset.notMem_empty _, at_⟩
    rw [← parts, ← whole]
    exact cut r
  · intro invariant windows cut r
    have covers : Covers today windows r.etDate ↔ Covers today [(a, c)] r.etDate := by
      have union := cut r.etDate
      simp only [Covers, mem_singleton, exists_eq_left, le_min_iff]
      constructor
      · intro ⟨w, mem, from_, to_⟩
        obtain ⟨from', to'⟩ := union.1 ⟨w, mem, from_, to_.1⟩
        exact ⟨from', to', to_.2⟩
      · intro ⟨from_, to_⟩
        obtain ⟨w, mem, from', to'⟩ := union.2 ⟨from_, to_.1⟩
        exact ⟨w, mem, from', to', to_.2⟩
    have whole : ∀ w ∈ [(a, c)], ∀ day, w.1 ≤ day → day ≤ w.2 → a ≤ day ∧ day ≤ c := by
      simpa using fun day from_ to_ => ⟨from_, to_⟩
    rw [mem_captureAll_of_invariant (fun w mem day from_ to_ => (cut day).1 ⟨w, mem, from_, to_⟩) invariant,
      mem_captureAll_of_invariant whole invariant, covers]
  · intro windows r mem
    obtain ⟨-, w, -, from_, -, member⟩ := mem_captureAll mem
    obtain ⟨book, known, sub⟩ := members_subset_book from_
    exact ⟨book, known, sub member⟩

def noon (day : ℤ) (ticker : String) : Signal := ⟨1, day * 86400000000 + 43200000000, ticker, some ⟨some 1, some 2⟩⟩

def oneDay : Evidence where
  signals := [noon 0 "A"]
  strategy := some 1
  bars := some fun symbol _ => if symbol = "A" then some (1, 2) else none
  ordered := by decide

theorem capture_cut_iff_oneDay : (2 : ℤ) < 10 ∧
    ∀ r, r ∈ captureAll oneDay 10 [(1, 2), (0, 1)] ↔ r ∈ captureAll oneDay 10 [(0, 2)] := by
  have closed : (2 : ℤ) < 10 := by norm_num
  refine ⟨closed, (capture_cut_iff oneDay 10 0 2 closed).1.2 ?_ _ ?_⟩
  · intro s d le_s le_d le_c symbol bar
    have isA : symbol = "A" := by
      by_contra other
      simp [rowOn, oneDay, row, other] at bar
    have first : 0 ≤ d := le_s.trans le_d
    have from_first : "A" ∈ members oneDay s d := by
      interval_cases d <;> interval_cases s <;> decide +kernel
    have from_start : "A" ∈ members oneDay 0 d := by
      interval_cases d <;> decide +kernel
    rw [isA]
    exact iff_of_true from_first from_start
  · intro day
    simp only [mem_cons, not_mem_nil, or_false, exists_eq_or_imp, exists_eq_left]
    omega

def twoNames : Evidence where
  signals := [noon 0 "A", noon 0 "B", noon 1 "A"]
  strategy := some 1
  bars := some fun _ _ => some (1, 2)
  ordered := by decide

/-- Cut before the silent day, the history loses the name that failed to publish. -/
theorem cut_loses_row : ⟨2, "B", none, none, 1, 2⟩ ∈ captureAll twoNames 10 [(0, 2)] ∧
    ⟨2, "B", none, none, 1, 2⟩ ∉ captureAll twoNames 10 [(0, 1), (2, 2)] := by
  constructor
  · have one : captureAll twoNames 10 [(0, 2)] = captured twoNames 10 [] (0, 2) := rfl
    rw [one, mem_captured]
    decide +kernel
  · intro mem
    obtain ⟨-, w, windowed, -, to_, member⟩ := mem_captureAll mem
    obtain rfl | rfl : w = (0, 1) ∨ w = (2, 2) := by simpa using windowed
    · norm_num at to_
    · exact absurd member (by decide +kernel)

end Workbench.Services.RangeExecution
