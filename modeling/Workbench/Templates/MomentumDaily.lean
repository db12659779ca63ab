import Workbench.Lib.Displacement
import Workbench.Templates.WeeklyBook

/-!
# The selection of the daily momentum template

Model of the selection of `strategies_user/templates/momentum_daily.py`: the eligible names, best first, the holdings
that are kept, the entrants that fill the book, displacement, and the cap.

Python → Lean naming: `_prior_frames` → `frames`. How pandas orders equal scores is left to `SortValues`.
-/

set_option linter.dupNamespace false

namespace Workbench.Templates.MomentumDaily
open Workbench.Lib Workbench.Lib.Displacement List
open Weekly (ScoreRow SortValues)

/-- The `default_params` that selection reads. -/
structure Params where
  minScore : Option ℚ := some 0
  minRawMomentum : Option ℚ := some 0
  entryRank : Nat := 5
  holdRank : Nat := 10
  exitConfirmCloses : Int := 2
  replaceScoreAdvantage : ℚ := 30 / 100
  maxNames : Nat := 5
  marketFilterSymbol : String := "SPY"

/-- The tickers that a book may hold: the registered ones, but for the market proxy. -/
def allowed (symbols : List String) (p : Params) : List String :=
  (symbols.map upper).filter (· ≠ upper p.marketFilterSymbol)

/-- Python `_eligible`. -/
def eligible (S : SortValues) (symbols : List String) (p : Params) (scores : List ScoreRow) : List ScoreRow :=
  S.sort (scores.filter fun r => r.ticker ∈ allowed symbols p ∧ p.minScore.all (· ≤ r.zscore) ∧
    p.minRawMomentum.all (· < r.momentum))

/-- `{t: i + 1 for i, t in enumerate(order)}` -/
def ranks (order : List String) : Dict String Nat := (order.zipIdx 1).foldl (fun d e => d.set e.1 e.2) Dict.empty

/-- `eligible["score"].to_dict()` -/
def scoreDict (rows : List ScoreRow) : Dict String ℚ := rows.foldl (fun d r => d.set r.ticker r.score) Dict.empty

/-- Python `_exit_confirmed`: it fails closed. -/
def exitConfirmed (p : Params) (frames : List (Dict String Nat)) (ticker : String) : Bool :=
  if p.exitConfirmCloses ≤ 1 then true
  else if frames.isEmpty ∨ (frames.length : Int) < p.exitConfirmCloses - 1 then false
  else (frames.take (p.exitConfirmCloses - 1).toNat).all fun order => (order.get ticker).any (p.holdRank < ·)

/-- `score_of[t]`, for a name that has one. -/
def scoreAt (scoreOf : Dict String ℚ) (ticker : String) : ℚ := (scoreOf.get ticker).getD 0

/-- The weakest name of the book: the first of those with the least score. -/
def weakestOf (scoreOf : Dict String ℚ) (book : List String) : Option String :=
  (book.filter (scoreOf.contains ·)).argmin (scoreAt scoreOf)

/-- The second loop of `_select_targets`: a challenger takes the place of the weakest name if it is better by the
advantage. -/
def displaceWeakest (scoreOf : Dict String ℚ) (advantage : ℚ) : List String → List String → List String
  | [], book => book
  | t :: entrants, book =>
    if t ∈ book then displaceWeakest scoreOf advantage entrants book
    else match weakestOf scoreOf book with
      | none => book
      | some weakest =>
        if scoreAt scoreOf weakest + advantage ≤ scoreAt scoreOf t then
          displaceWeakest scoreOf advantage entrants (book.set (book.idxOf weakest) t)
        else displaceWeakest scoreOf advantage entrants book

/-- The holdings that are kept: those that are eligible, but for one whose exit is confirmed. -/
def kept (p : Params) (frames : List (Dict String Nat)) (pos : Dict String Nat) (held : List String) : List String :=
  held.filter fun h => (pos.get h).any fun r => r ≤ p.holdRank ∨ !exitConfirmed p frames h

/-- Python `_select_targets`. -/
def selectTargets (S : SortValues) (symbols : List String) (p : Params) (frames : List (Dict String Nat))
    (scores : List ScoreRow) (held : Dict String ℚ) : List String :=
  let rows := eligible S symbols p scores
  if rows.isEmpty then []
  else
    let ranked := rows.map (·.ticker)
    let keep := kept p frames (ranks ranked) (held.entries.map Prod.fst)
    let filled := fill p.maxNames (ranked.take p.entryRank) keep
    let book := displaceWeakest (scoreDict rows) p.replaceScoreAdvantage (ranked.take p.entryRank) filled
    (ranked.filter (· ∈ book)).take p.maxNames

/-! ## The ranks and the scores of distinct tickers -/

lemma get_ranks {order : List String} {t : String} (distinct : order.Nodup) :
    (ranks order).get t = if t ∈ order then some (order.idxOf t + 1) else none := by
  have keys : ((order.zipIdx 1).map Prod.fst).Nodup := by rwa [zipIdx_map_fst]
  rw [ranks, Dict.get_foldl_set keys, Dict.get_empty, Option.or_none]
  have find : ∀ n, ((order.zipIdx n).find? (·.1 = t)).map Prod.snd =
      if t ∈ order then some (order.idxOf t + n) else none := by
    clear keys distinct
    induction order with
    | nil => exact fun n => rfl
    | cons a order ih =>
      intro n
      rw [zipIdx_cons, find?_cons]
      by_cases eq : a = t
      · simp [eq]
      · simp only [eq, decide_false, ih, mem_cons, Ne.symm eq, false_or, idxOf_cons_ne _ eq]
        split
        · rw [Nat.succ_add_eq_add_succ]
        · rfl
  exact find 1

lemma ranked_within {order : List String} {t : String} {k : Nat} (distinct : order.Nodup) :
    (∃ r, (ranks order).get t = some r ∧ r ≤ k) ↔ t ∈ order.take k := by
  rw [get_ranks distinct]
  by_cases mem : t ∈ order
  · rw [if_pos mem, mem_take_iff_idxOf_lt mem]
    simp
  · simp only [mem, if_false, reduceCtorEq, false_and, exists_false, false_iff]
    exact fun first => mem (mem_of_mem_take first)

lemma scoreAt_ticker {rows : List ScoreRow} {r : ScoreRow} (distinct : (rows.map (·.ticker)).Nodup) (mem : r ∈ rows) :
    (scoreDict rows).contains r.ticker ∧ scoreAt (scoreDict rows) r.ticker = r.score := by
  have get : (scoreDict rows).get r.ticker = some r.score := Dict.get_foldl_set_of_mem distinct mem
  exact ⟨by rw [Dict.contains, get]; rfl, by rw [scoreAt, get]; rfl⟩

lemma weakestOf_eq {scoreOf : Dict String ℚ} {book : List String} (scored : ∀ b ∈ book, scoreOf.contains b) :
    weakestOf scoreOf book = book.argmin (scoreAt scoreOf) := by
  rw [weakestOf, filter_eq_self.2 scored]

lemma displaceWeakest_eq {scoreOf : Dict String ℚ} {advantage : ℚ} {entrants book : List String}
    (scored : ∀ b ∈ book, scoreOf.contains b) (entrantsScored : ∀ t ∈ entrants, scoreOf.contains t) :
    displaceWeakest scoreOf advantage entrants book = displace (scoreAt scoreOf) advantage entrants book := by
  induction entrants generalizing book with
  | nil => rfl
  | cons t entrants ih =>
    obtain ⟨first, rest⟩ := forall_mem_cons.1 entrantsScored
    rw [displaceWeakest, displace, weakestOf_eq scored]
    split
    · exact ih scored rest
    · cases book.argmin (scoreAt scoreOf) with
      | none => rfl
      | some weakest =>
        dsimp only
        split
        · apply ih _ rest
          intro b mem
          obtain old | new := mem_or_eq_of_mem_set mem
          · exact scored b old
          · exact new ▸ first
        · exact ih scored rest

/-! ## The ranking of a table -/

section Ranking
variable {S : SortValues} {symbols : List String} {p : Params} {frames : List (Dict String Nat)}
  {scores : List ScoreRow}

def ranking (S : SortValues) (symbols : List String) (p : Params) (scores : List ScoreRow) : List String :=
  (eligible S symbols p scores).map (·.ticker)

def scoreIn (S : SortValues) (symbols : List String) (p : Params) (scores : List ScoreRow) : String → ℚ :=
  scoreAt (scoreDict (eligible S symbols p scores))

lemma nodup_ranking (distinct : (scores.map (·.ticker)).Nodup) : (ranking S symbols p scores).Nodup := by
  have shuffled := (S.perm (scores.filter fun r => r.ticker ∈ allowed symbols p ∧ p.minScore.all (· ≤ r.zscore) ∧
    p.minRawMomentum.all (· < r.momentum))).map (·.ticker)
  exact shuffled.nodup_iff.2 (distinct.sublist (filter_sublist.map _))

lemma scoreIn_ticker {r : ScoreRow} (distinct : (scores.map (·.ticker)).Nodup)
    (mem : r ∈ eligible S symbols p scores) : scoreIn S symbols p scores r.ticker = r.score :=
  (scoreAt_ticker (nodup_ranking distinct) mem).2

lemma descending_ranking (distinct : (scores.map (·.ticker)).Nodup) :
    (ranking S symbols p scores).Pairwise fun t u => scoreIn S symbols p scores u ≤ scoreIn S symbols p scores t := by
  rw [ranking, pairwise_map]
  apply List.Pairwise.imp_of_mem _ (S.descending _)
  intro r r' mem mem' le
  rw [scoreIn_ticker distinct mem, scoreIn_ticker distinct mem']
  exact le

lemma scored_of_ranked (distinct : (scores.map (·.ticker)).Nodup) :
    ∀ t ∈ ranking S symbols p scores, (scoreDict (eligible S symbols p scores)).contains t := by
  intro t mem
  obtain ⟨r, row, rfl⟩ := mem_map.1 mem
  exact (scoreAt_ticker (nodup_ranking distinct) row).1

lemma mem_kept {held : List String} {h : String} (distinct : (scores.map (·.ticker)).Nodup) :
    h ∈ kept p frames (ranks (ranking S symbols p scores)) held ↔ h ∈ held ∧ h ∈ ranking S symbols p scores ∧
        (h ∈ (ranking S symbols p scores).take p.holdRank ∨ exitConfirmed p frames h = false) := by
  have nodup : (ranking S symbols p scores).Nodup := nodup_ranking distinct
  rw [kept, mem_filter, ← ranked_within nodup, get_ranks nodup]
  by_cases mem : h ∈ ranking S symbols p scores
  · simp [mem]
  · simp [mem]

def keeps (S : SortValues) (symbols : List String) (p : Params) (frames : List (Dict String Nat))
    (scores : List ScoreRow) (held : Dict String ℚ) : List String :=
  kept p frames (ranks (ranking S symbols p scores)) (held.entries.map Prod.fst)

lemma selectTargets_eq {held : Dict String ℚ} (distinct : (scores.map (·.ticker)).Nodup) :
    selectTargets S symbols p frames scores held =
      select (scoreIn S symbols p scores) p.replaceScoreAdvantage p.maxNames p.entryRank
        (ranking S symbols p scores) (keeps S symbols p frames scores held) := by
  have scored : ∀ t ∈ ranking S symbols p scores, (scoreDict (eligible S symbols p scores)).contains t :=
    scored_of_ranked distinct
  rw [selectTargets, select, book, scoreIn, ← displaceWeakest_eq]
  · cases rows : eligible S symbols p scores with
    | nil => simp [ranking, rows]
    | cons r rest =>
      rw [keeps, ranking, rows]
      rfl
  · intro b mem
    apply scored
    obtain old | entrant := mem_or_mem_of_fill mem
    · exact ((mem_kept distinct).1 old).2.1
    · exact mem_of_mem_take entrant
  · exact fun t entrant => scored t (mem_of_mem_take entrant)

end Ranking

end Workbench.Templates.MomentumDaily
