import Workbench.Templates.MomentumDaily

/-!
# Selection does not churn

What `_select_targets` of the daily momentum template returns has at most `max_names` names, each held before or in the
entry band; with it as the holdings the selection is the same; and a holding in the hold band that is dropped from a
book that was not overfull was beaten by the advantage.
-/

namespace Workbench.Templates.MomentumDaily
open Workbench.Lib Workbench.Lib.Displacement List
open Weekly (ScoreRow SortValues)

section Selected
variable {S : SortValues} {symbols : List String} {p : Params} {frames : List (Dict String Nat)}
  {scores : List ScoreRow} {held : Dict String ℚ}

lemma mem_keeps {h : String} (distinct : (scores.map (·.ticker)).Nodup) :
    h ∈ keeps S symbols p frames scores held ↔ held.contains h ∧ h ∈ ranking S symbols p scores ∧
        (h ∈ (ranking S symbols p scores).take p.holdRank ∨ exitConfirmed p frames h = false) := by
  rw [keeps, mem_kept distinct, Dict.mem_keys, Dict.contains]

lemma nodup_keeps : (keeps S symbols p frames scores held).Nodup := held.nodup.filter _

lemma ranked_of_mem_keeps (distinct : (scores.map (·.ticker)).Nodup) :
    ∀ h ∈ keeps S symbols p frames scores held, h ∈ ranking S symbols p scores :=
  fun _ mem => ((mem_keeps distinct).1 mem).2.1

lemma length_keeps_le : (keeps S symbols p frames scores held).length ≤ held.entries.length := by
  calc (keeps S symbols p frames scores held).length ≤ (held.entries.map Prod.fst).length := length_filter_le _ _
    _ = held.entries.length := length_map _

lemma held_or_entrant (distinct : (scores.map (·.ticker)).Nodup) :
    ∀ t ∈ selectTargets S symbols p frames scores held,
      held.contains t ∨ t ∈ (ranking S symbols p scores).take p.entryRank := by
  intro t mem
  rw [selectTargets_eq distinct] at mem
  exact (mem_or_mem_of_book (mem_book_of_mem_select mem)).imp_left fun old => ((mem_keeps distinct).1 old).1

lemma keeps_selected {again : Dict String ℚ} (distinct : (scores.map (·.ticker)).Nodup)
    (bands : p.entryRank ≤ p.holdRank)
    (holds : ∀ t, again.contains t = true ↔ t ∈ selectTargets S symbols p frames scores held) (t : String) :
    t ∈ keeps S symbols p frames scores again ↔ t ∈ selectTargets S symbols p frames scores held := by
  rw [mem_keeps distinct, holds]
  refine ⟨And.left, fun mem => ⟨mem, ?_⟩⟩
  rw [selectTargets_eq distinct] at mem
  refine ⟨select_sublist.subset mem, ?_⟩
  obtain old | entrant := mem_or_mem_of_book (mem_book_of_mem_select mem)
  · exact ((mem_keeps distinct).1 old).2.2
  · exact .inl (take_subset_take_left _ bands entrant)

lemma selectTargets_again {again : Dict String ℚ} (distinct : (scores.map (·.ticker)).Nodup)
    (bands : p.entryRank ≤ p.holdRank) (pos : 0 < p.replaceScoreAdvantage)
    (holds : ∀ t, again.contains t = true ↔ t ∈ selectTargets S symbols p frames scores held) :
    selectTargets S symbols p frames scores again = selectTargets S symbols p frames scores held := by
  have kept := keeps_selected distinct bands holds
  rw [selectTargets_eq distinct] at kept ⊢
  rw [selectTargets_eq distinct]
  exact select_again pos (nodup_ranking distinct) (descending_ranking distinct) nodup_keeps
    (ranked_of_mem_keeps distinct) nodup_keeps kept

lemma beaten_of_dropped (distinct : (scores.map (·.ticker)).Nodup) (pos : 0 < p.replaceScoreAdvantage)
    (room : held.entries.length ≤ p.maxNames) {r : ScoreRow}
    (band : r ∈ (eligible S symbols p scores).take p.holdRank) (holding : held.contains r.ticker)
    (dropped : r.ticker ∉ selectTargets S symbols p frames scores held) :
    ∃ r' ∈ eligible S symbols p scores, r'.ticker ∈ selectTargets S symbols p frames scores held ∧
      r.score + p.replaceScoreAdvantage ≤ r'.score := by
  have row : r ∈ eligible S symbols p scores := mem_of_mem_take band
  have first : r.ticker ∈ (ranking S symbols p scores).take p.holdRank := by
    rw [ranking, ← map_take]
    exact mem_map_of_mem band
  have kept : r.ticker ∈ keeps S symbols p frames scores held :=
    (mem_keeps distinct).2 ⟨holding, mem_of_mem_take first, .inl first⟩
  rw [selectTargets_eq distinct] at dropped ⊢
  obtain ⟨t, selected, better⟩ := beaten_of_not_mem_select pos (nodup_ranking distinct) (descending_ranking distinct)
    nodup_keeps (ranked_of_mem_keeps distinct) (length_keeps_le.trans room) kept dropped
  obtain ⟨r', row', rfl⟩ := mem_map.1 (select_sublist.subset selected)
  rw [scoreIn_ticker distinct row, scoreIn_ticker distinct row'] at better
  exact ⟨r', row', selected, better⟩

end Selected

def threeNames : List ScoreRow := [⟨"A", 1, 1, 3⟩, ⟨"B", 1, 1, 2⟩, ⟨"C", 1, 1, 1⟩]

def bookOfTwo : Params := { maxNames := 2, entryRank := 1, holdRank := 3 }

def lastTwo : Dict String ℚ := (Dict.empty.set "B" 5).set "C" 7

end Workbench.Templates.MomentumDaily
