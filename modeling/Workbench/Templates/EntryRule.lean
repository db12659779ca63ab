import Workbench.Lib.Displacement
import Workbench.Templates.MomentumPortfolio

/-!
# The sector cap and the entry rule

What `_select_targets` of the momentum portfolio returns with a sector cap has distinct names, at most `max_names` of
them and at most its share of each known sector. A name of it that the selection without the cap has not was backfilled,
for a selected name that the cap dropped; every other was held before or is ranked within `entry_rank`. Where the cap
drops nothing, and a challenger needs an advantage, the selection is a fixed point.
-/

set_option linter.dupNamespace false

namespace Workbench.Templates.Weekly.MomentumPortfolio
open Workbench.Lib List

def Params.uncapped (p : Params) : Params := { p with maxSectorPct := none }

def ranking (S : SortValues) (ctx : Ctx) (p : Params) (scores : List ScoreRow) : List String :=
  (eligible S ctx p scores).map (·.ticker)

def keeps (S : SortValues) (ctx : Ctx) (p : Params) (frames : List (List String)) (scores : List ScoreRow)
    (held : Dict String ℚ) : List String :=
  (held.entries.map Prod.fst).filter fun h =>
    (rank (ranking S ctx p scores) h).any fun r => r ≤ p.holdRank ∨ !exitConfirmed p frames h

def inSector (sectors : String → Option String) (sector : String) (book : List String) : Nat :=
  book.countP fun b => sectors b = some sector

variable {S : SortValues} {ctx : Ctx} {p : Params} {frames : List (List String)} {scores : List ScoreRow}
  {held : Dict String ℚ}
  {sectors : String → Option String} {maxPer n : Nat} {book names : List String} {t sector : String}

/-! ## The sector cap -/

lemma tryAdd_cases (sectors : String → Option String) (maxPer n : Nat) (book : List String) (t : String) :
    tryAdd sectors maxPer n book t = book ∨ tryAdd sectors maxPer n book t = book ++ [t] ∧ book.length < n ∧ t ∉ book ∧
        ∀ sector, sectors t = some sector → inSector sectors sector book < maxPer := by
  rw [tryAdd]
  split
  · exact .inl rfl
  · rename_i added
    rw [not_or, not_or, not_le] at added
    obtain ⟨room, new, free⟩ := added
    refine .inr ⟨rfl, room, new, fun sector known => ?_⟩
    by_contra full
    refine free ⟨by rw [known]; rfl, ?_⟩
    rw [known]
    exact not_lt.1 full

/-- What the passes of the cap keep of a book. -/
structure Capped (sectors : String → Option String) (maxPer n : Nat) (names book : List String) : Prop where
  nodup : book.Nodup
  length : book.length ≤ n
  known : ∀ t ∈ book, t ∈ names
  sectors : ∀ sector, inSector sectors sector book ≤ maxPer

lemma Capped.tryAdd (capped : Capped sectors maxPer n names book) (mem : t ∈ names) :
    Capped sectors maxPer n names (tryAdd sectors maxPer n book t) := by
  rcases tryAdd_cases sectors maxPer n book t with same | ⟨added, room, new, free⟩
  · rw [same]
    exact capped
  · rw [added]
    constructor
    · refine nodup_append.2 ⟨capped.nodup, nodup_singleton t, ?_⟩
      intro a old b last
      rw [mem_singleton.1 last]
      exact fun eq => new (eq ▸ old)
    · rw [length_append, length_singleton]
      exact room
    · intro u inside
      rcases mem_append.1 inside with old | last
      · exact capped.known u old
      · exact mem_singleton.1 last ▸ mem
    · intro sector
      rw [inSector, countP_append, countP_singleton, ← inSector]
      split
      · rename_i own
        exact free sector (by simpa using own)
      · exact capped.sectors sector

lemma Capped.foldl {passed : List String} (capped : Capped sectors maxPer n names book)
    (sub : ∀ t ∈ passed, t ∈ names) :
    Capped sectors maxPer n names (passed.foldl (MomentumPortfolio.tryAdd sectors maxPer n) book) := by
  induction passed generalizing book with
  | nil => exact capped
  | cons t passed ih =>
    exact ih (capped.tryAdd (sub t mem_cons_self)) fun u mem => sub u (mem_cons_of_mem _ mem)

lemma capped_applySectorCap {pct : ℚ} {ranked : List String} (final : List String) (rule : p.maxSectorPct = some pct)
    (pos : 0 < pct) (below : pct < 1) (read : ctx.sectors ranked = .ok sectors) (sub : ∀ t ∈ final, t ∈ ranked) :
    Capped sectors (max 1 ⌊pct * p.maxNames⌋.toNat) final.length ranked (applySectorCap ctx p final ranked) := by
  rw [applySectorCap, rule]
  simp only
  split
  · rename_i off
    obtain zero | above | empty := off
    · exact absurd zero pos.ne'
    · exact absurd below above.not_gt
    · rw [empty]
      exact ⟨nodup_nil, le_rfl, fun _ mem => absurd mem not_mem_nil, fun _ => Nat.zero_le _⟩
  · rw [read]
    simp only
    apply Capped.foldl _ fun t mem => mem
    apply Capped.foldl _ sub
    exact ⟨nodup_nil, Nat.zero_le _, fun _ mem => absurd mem not_mem_nil, fun _ => Nat.zero_le _⟩

/-! ## The selection without the cap -/

lemma nodup_ranking (distinct : (scores.map (·.ticker)).Nodup) : (ranking S ctx p scores).Nodup := by
  rw [ranking, eligible]
  refine (((S.perm _).map ScoreRow.ticker).nodup_iff).2 ?_
  exact distinct.sublist (filter_sublist.map _)

lemma scoreOf_ticker {rows : List ScoreRow} {r : ScoreRow} (distinct : (rows.map (·.ticker)).Nodup) (mem : r ∈ rows) :
    scoreOf rows r.ticker = r.score := by
  rw [scoreOf]
  cases found : rows.find? (·.ticker = r.ticker) with
  | none => exact absurd (find?_eq_none.1 found r mem) (by simp)
  | some r' =>
    have same : r'.ticker = r.ticker := by simpa using find?_some found
    rw [inj_on_of_nodup_map distinct (mem_of_find?_eq_some found) mem same]
    rfl

lemma descending_ranking (distinct : (scores.map (·.ticker)).Nodup) :
    (ranking S ctx p scores).Pairwise fun t u =>
      scoreOf (eligible S ctx p scores) u ≤ scoreOf (eligible S ctx p scores) t := by
  have nodup : ((eligible S ctx p scores).map (·.ticker)).Nodup := nodup_ranking distinct
  have sorted : (eligible S ctx p scores).Pairwise fun r r' => r'.score ≤ r.score := S.descending _
  rw [ranking, pairwise_map]
  apply List.Pairwise.imp_of_mem _ sorted
  intro r r' mem mem' le
  rw [scoreOf_ticker nodup mem, scoreOf_ticker nodup mem']
  exact le

lemma mem_keeps (distinct : (scores.map (·.ticker)).Nodup) : t ∈ keeps S ctx p frames scores held ↔
    held.contains t ∧ t ∈ ranking S ctx p scores ∧
      (t ∈ (ranking S ctx p scores).take p.holdRank ∨ exitConfirmed p frames t = false) := by
  have nodup : (ranking S ctx p scores).Nodup := nodup_ranking distinct
  rw [keeps, mem_filter, Dict.mem_keys, Dict.contains, rank]
  by_cases mem : t ∈ ranking S ctx p scores
  · rw [if_pos mem, mem_take_iff_idxOf_lt mem]
    simp [mem]
  · simp [mem]

lemma nodup_keeps : (keeps S ctx p frames scores held).Nodup := held.nodup.filter _

lemma displace_eq {rows : List ScoreRow} {entrants : List String} :
    displace p rows entrants book = Displacement.displace (scoreOf rows) p.replaceScoreAdvantage entrants book := by
  induction entrants generalizing book with
  | nil => rfl
  | cons t entrants ih =>
    rw [displace, Displacement.displace]
    split
    · exact ih
    · cases book.argmin (scoreOf rows) with
      | none => rfl
      | some weakest =>
        dsimp only
        split
        · exact ih
        · exact ih

/-- The names that the bands and displacement leave, in rank order and up to `max_names`. -/
def picks (S : SortValues) (ctx : Ctx) (p : Params) (frames : List (List String)) (scores : List ScoreRow)
    (held : Dict String ℚ) : List String :=
  let keep := keeps S ctx p frames scores held
  let entrants := ((ranking S ctx p scores).take p.entryRank).filter (· ∉ keep)
  let book := displace p (eligible S ctx p scores) entrants (keep ++ entrants.take (p.maxNames - keep.length))
  ((ranking S ctx p scores).filter (· ∈ book)).take p.maxNames

lemma selectTargets_eq_cap : selectTargets S ctx p frames scores held =
    applySectorCap ctx p (picks S ctx p frames scores held) (ranking S ctx p scores) := by
  rw [selectTargets]
  simp only
  rw [← ranking]
  split
  · rename_i empty
    have none : picks S ctx p frames scores held = [] := by
      rw [picks, empty]
      exact take_nil
    rw [none, empty, applySectorCap]
    cases p.maxSectorPct with
    | none => rfl
    | some pct => simp
  · rfl

lemma selectTargets_uncapped : selectTargets S ctx p.uncapped frames scores held =
    picks S ctx p frames scores held := by
  have same : picks S ctx p.uncapped frames scores held = picks S ctx p frames scores held := by
    simp only [picks, displace_eq]
    rfl
  rw [selectTargets_eq_cap, ← same]
  rfl

lemma picks_sublist : (picks S ctx p frames scores held).Sublist (ranking S ctx p scores) :=
  (take_sublist _ _).trans filter_sublist

lemma length_picks_le : (picks S ctx p frames scores held).length ≤ p.maxNames := length_take_le _ _

lemma kept_or_entrant (mem : t ∈ picks S ctx p frames scores held) :
    t ∈ keeps S ctx p frames scores held ∨ t ∈ (ranking S ctx p scores).take p.entryRank := by
  have inside := of_decide_eq_true (mem_filter.1 (mem_of_mem_take mem)).2
  rw [displace_eq] at inside
  rcases Displacement.mem_or_mem_of_displace inside with filled | entrant
  · rcases mem_append.1 filled with kept | entrant
    · exact .inl kept
    · exact .inr (mem_filter.1 (mem_of_mem_take entrant)).1
  · exact .inr (mem_filter.1 entrant).1

lemma picks_eq_select (distinct : (scores.map (·.ticker)).Nodup) (pos : 0 < p.replaceScoreAdvantage) :
    picks S ctx p frames scores held =
      Displacement.select (scoreOf (eligible S ctx p scores)) p.replaceScoreAdvantage p.maxNames p.entryRank
        (ranking S ctx p scores) (keeps S ctx p frames scores held) := by
  have nodup : (ranking S ctx p scores).Nodup := nodup_ranking distinct
  rw [picks, Displacement.select, Displacement.book, Displacement.fill_eq_append (nodup.sublist (take_sublist _ _)),
    ← Displacement.displace_filter pos fun u kept => .inl (mem_append_left _ kept)]
  simp only [displace_eq]

/-! ## The entry rule -/

lemma length_filter_notMem_le {l m : List String} (nodup : l.Nodup) (nodup' : m.Nodup) (le : l.length ≤ m.length) :
    (l.filter (· ∉ m)).length ≤ (m.filter (· ∉ l)).length := by
  have common : (l.filter (· ∈ m)).length = (m.filter (· ∈ l)).length := by
    apply List.Perm.length_eq
    rw [perm_ext_iff_of_nodup (nodup.filter _) (nodup'.filter _)]
    intro a
    simp [and_comm]
  have left := length_eq_length_filter_add (l := l) fun a => decide (a ∈ m)
  have right := length_eq_length_filter_add (l := m) fun a => decide (a ∈ l)
  simp only [decide_not] at left right ⊢
  omega

lemma same_of_drops_none {l m : List String} (nodup : m.Nodup) (le : l.length ≤ m.length) (sub : ∀ t ∈ m, t ∈ l) :
    ∀ t, t ∈ l ↔ t ∈ m := by
  have perm : m.Perm l := (nodup.subperm sub).perm_of_length_le le
  exact fun t => perm.mem_iff.symm

lemma picks_again {again : Dict String ℚ} (distinct : (scores.map (·.ticker)).Nodup) (bands : p.entryRank ≤ p.holdRank)
    (pos : 0 < p.replaceScoreAdvantage) (holds : ∀ t, again.contains t = true ↔ t ∈ picks S ctx p frames scores held) :
    picks S ctx p frames scores again = picks S ctx p frames scores held := by
  have kept (t : String) : t ∈ keeps S ctx p frames scores again ↔ t ∈ picks S ctx p frames scores held := by
    rw [mem_keeps distinct, holds]
    refine ⟨And.left, fun mem => ⟨mem, picks_sublist.subset mem, ?_⟩⟩
    rcases kept_or_entrant mem with old | entrant
    · exact ((mem_keeps distinct).1 old).2.2
    · exact .inl (take_subset_take_left _ bands entrant)
  rw [picks_eq_select distinct pos] at kept ⊢
  rw [picks_eq_select distinct pos]
  exact Displacement.select_again pos (nodup_ranking distinct) (descending_ranking distinct) nodup_keeps
    (fun _ mem => ((mem_keeps distinct).1 mem).2.1) nodup_keeps kept

def fourNames : Ctx where
  symbols := ["A", "B", "C", "D"]
  momentumScores := fun _ _ _ => .ok []
  sectors := fun _ => .ok fun s => if s = "A" ∨ s = "B" then some "X" else if s = "C" then some "Y" else none
  getRecentBars := fun _ _ _ => .ok none
  getPositionFor := fun _ => none
  getAccountEquity := .ok none

def oneASector : Params := { maxNames := 3, entryRank := 2, holdRank := 3, maxSectorPct := some (1 / 3) }

def fourScores : List ScoreRow := [⟨"A", 4, 4, 4⟩, ⟨"B", 3, 3, 3⟩, ⟨"C", 2, 2, 2⟩, ⟨"D", 1, 1, 1⟩]

def holding (names : List String) : Dict String ℚ := names.foldl (fun held s => held.set s 1) Dict.empty

def tied : Params :=
  { maxNames := 1, entryRank := 2, holdRank := 2, maxSectorPct := some (1 / 2), replaceScoreAdvantage := 0 }

def tiedScores : List ScoreRow := [⟨"A", 1, 1, 1⟩, ⟨"B", 1, 1, 1⟩]

lemma eligible_eq_self {rows : List ScoreRow}
    (pass : ∀ r ∈ rows, r.ticker ∈ (tradeable ctx p.toBookParams).map upper ∧ p.minScore.all (· ≤ r.zscore) ∧
      p.minRawMomentum.all (· < r.momentum))
    (descends : rows.Pairwise fun r r' => decide (r'.score ≤ r.score) = true) : eligible .stable ctx p rows = rows := by
  have all := filter_eq_self.2 fun r mem => decide_eq_true (pass r mem)
  rw [eligible, all]
  exact mergeSort_of_pairwise descends

lemma eligible_fourScores : eligible .stable fourNames oneASector fourScores = fourScores :=
  eligible_eq_self (by decide +kernel) (by decide +kernel)

lemma eligible_tiedScores : eligible .stable fourNames tied tiedScores = tiedScores :=
  eligible_eq_self (by decide +kernel) (by decide +kernel)

end Workbench.Templates.Weekly.MomentumPortfolio
