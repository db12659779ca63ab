import Workbench.Lib.Dict
import Workbench.Lib.WaterFilling

/-!
# The sector cap of a factor book

Model of `_apply_sector_cap` of `app/factor_data/backtest.py`, over exact rationals: every sector whose weight is over
the cap is scaled down to the cap and frozen, what that frees is spread over the names outside of frozen sectors, and
the pass repeats. The names keep their places and only their weights change, by a ratio that depends on the sector of
the name alone: `Workbench.Lib.WaterFilling` with the sectors as groups (`basin`). The loop ends within its passes,
and the weights it settles on are one factor times the weights before, up to the cap of each sector
(`sector_cap_exact`).

Python → Lean naming: `_apply_sector_cap` → `applySectorCap`, its loop → `waterFill`, the loop over `over` → `freeze`;
`sector_w` → `sectorWeights`; `store.get_sectors(list(weights))` → `sectors`. The tolerance `eps` is a parameter.
`_weigh` → `weigh`, whose trailing volatilities are a parameter; the weights it hands to the cap are positive and add
up to one (`rawWeights_valid`). -/

namespace Workbench.FactorData
open Workbench.Lib List Function Dict

variable {ν σ : Type} [DecidableEq σ] (sectors : ν → Option σ)

/-- `distinct`, the known sectors of the names. -/
def distinct (w : Dict ν ℚ) : Finset σ := (w.entries.filterMap fun e => sectors e.1).toFinset

/-- `sector_w` -/
def sectorWeights (w : Dict ν ℚ) : Dict σ ℚ :=
  Dict.groupBy Prod.fst (fun acc r => acc.getD 0 + r.2)
    (w.entries.filterMap fun e => (sectors e.1).map fun s => (s, e.2))

/-- The names of one sector, or of none, add up to. -/
def sectorTotal (w : Dict ν ℚ) (s : Option σ) : ℚ := ((w.entries.filter (sectors ·.1 = s)).map Prod.snd).sum

/-- `sectors[t] not in frozen` -/
def receives (frozen : Finset σ) : Option σ → Bool
  | none => true
  | some s => s ∉ frozen

/-- The state of a pass: the weights, the frozen sectors and what has been freed. -/
structure Filling (ν σ : Type) where
  w : Dict ν ℚ
  frozen : Finset σ
  freed : ℚ

/-- `over`, the sectors over the cap that are not frozen. -/
def overCap (eps cap : ℚ) (sectorW : Dict σ ℚ) (frozen : Finset σ) : List σ :=
  (sectorW.entries.filter fun e => e.1 ∉ frozen ∧ cap + eps < e.2).map Prod.fst

/-- Scale a sector down to the cap and freeze it. -/
def freeze (cap : ℚ) (sectorW : Dict σ ℚ) (st : Filling ν σ) (s : σ) : Filling ν σ :=
  let scale := cap / (sectorW.get s).getD 0
  { w := st.w.mapValues fun t x => if sectors t = some s then x * scale else x
    frozen := insert s st.frozen
    freed := st.freed + ((st.w.entries.filter (sectors ·.1 = some s)).map fun e => e.2 * (1 - scale)).sum }

/-- How the loop ends: by its `break`, by the return for want of receivers, or by running out of passes. -/
inductive Ending (ν : Type) where
  | settled (w : Dict ν ℚ)
  | infeasible
  | exhausted

/-- The passes of `_apply_sector_cap`. -/
def waterFill (eps cap : ℚ) : ℕ → Dict ν ℚ → Finset σ → Ending ν
  | 0, _, _ => .exhausted
  | passes + 1, w, frozen =>
    let sectorW := sectorWeights sectors w
    let above := overCap eps cap sectorW frozen
    if above = [] then .settled w
    else
      let st := above.foldl (freeze sectors cap sectorW) ⟨w, frozen, 0⟩
      let receivers := st.w.entries.filter fun e => receives st.frozen (sectors e.1)
      let recvTotal := (receivers.map Prod.snd).sum
      if receivers = [] ∨ recvTotal ≤ eps then .infeasible
      else
        waterFill eps cap passes
          (st.w.mapValues fun t x => if receives st.frozen (sectors t) then x + st.freed * x / recvTotal else x)
          st.frozen

/-- Python `_apply_sector_cap`. -/
def applySectorCap (eps : ℚ) (maxSectorPct : Option ℚ) (weights : Dict ν ℚ) : Dict ν ℚ :=
  match maxSectorPct with
  | none => weights
  | some cap =>
    if 1 ≤ cap ∨ weights.entries = [] then weights
    else if distinct sectors weights = ∅ then weights
    else
      match waterFill sectors eps cap ((distinct sectors weights).card + 1) weights ∅ with
      | .infeasible => weights
      | .exhausted => weights
      | .settled w =>
        let total := w.values.sum
        if total ≤ 0 then weights else w.mapValues fun _ x => x / total

/-! ## The weights of a book -/

/-- The methods of `_weigh`. -/
inductive Weighting where
  | equalWeight
  | inverseVol
  | riskParityDiagonal
  deriving DecidableEq

/-- `{t: f(t) for t in chosen}` -/
def fromNames [DecidableEq ν] (f : ν → ℚ) (chosen : List ν) : Dict ν ℚ :=
  chosen.foldl (fun d t => d.set t (f t)) Dict.empty

/-- `statistics.median` -/
def median (xs : List ℚ) : ℚ :=
  let sorted := xs.insertionSort (· ≤ ·)
  if xs.length % 2 = 1 then sorted.getD (xs.length / 2) 0
  else (sorted.getD (xs.length / 2 - 1) 0 + sorted.getD (xs.length / 2) 0) / 2

/-- `1/σ` of a name, with the median of its peers where it has no σ. -/
def inverseVol (vol : ν → Option ℚ) (chosen : List ν) (t : ν) : ℚ :=
  let present := chosen.filterMap vol
  let medianSigma := if present = [] then 1 else median present
  let sigma := match vol t with
    | none => medianSigma
    | some sigma => if sigma ≤ 0 then medianSigma else sigma
  if 0 < sigma then 1 / sigma else 1

/-- The weights of `_weigh` before the cap. -/
def rawWeights [DecidableEq ν] (method : Weighting) (vol : ν → Option ℚ) (chosen : List ν) : Dict ν ℚ :=
  match method with
  | .equalWeight => fromNames (fun _ => 1 / chosen.length) chosen
  | .inverseVol | .riskParityDiagonal =>
    let inv := fromNames (inverseVol vol chosen) chosen
    let total := inv.values.sum
    if total ≤ 0 then fromNames (fun _ => 1 / chosen.length) chosen else inv.mapValues fun _ iv => iv / total

/-- Python `_weigh`. -/
def weigh [DecidableEq ν] (eps : ℚ) (method : Weighting) (vol : ν → Option ℚ) (maxSectorPct : Option ℚ)
    (chosen : List ν) : Dict ν ℚ :=
  if chosen = [] then Dict.empty else applySectorCap sectors eps maxSectorPct (rawWeights method vol chosen)

/-! ## What the cap is for -/

/-- No book of these names is within the cap: no sector is known, or all are and their caps fall short of the whole. -/
def FailsOpen (cap : ℚ) (w : Dict ν ℚ) : Prop :=
  distinct sectors w = ∅ ∨
    ((∀ e ∈ w.entries, sectors e.1 ≠ none) ∧ (distinct sectors w).card * cap < 1)

/-- The weights after are the weights before by one factor, up to the cap of each sector. -/
structure Filled [DecidableEq ν] (cap f : ℚ) (w v : Dict ν ℚ) : Prop where
  one_le : 1 ≤ f
  names : v.entries.map Prod.fst = w.entries.map Prod.fst
  exempt : ∀ t x, w.get t = some x → sectors t = none → v.get t = some (f * x)
  capped : ∀ s ∈ distinct sectors w, sectorTotal sectors v (some s) = min cap (f * sectorTotal sectors w (some s))
  proportions : ∀ t s x y, sectors t = some s → w.get t = some x → v.get t = some y →
    y / sectorTotal sectors v (some s) = x / sectorTotal sectors w (some s)
  sum_one : v.values.sum = 1

/-! ## Weights by ratio -/

/-- Weights by a ratio that depends on the sector of the name. -/
def rescale (w : Dict ν ℚ) (r : Option σ → ℚ) : Dict ν ℚ := w.mapValues fun t x => r (sectors t) * x

variable {sectors} {w : Dict ν ℚ} {r : Option σ → ℚ} {cap f : ℚ} {frozen : Finset σ} {s : σ}

lemma mem_distinct : s ∈ distinct sectors w ↔ ∃ e ∈ w.entries, sectors e.1 = some s := by
  rw [distinct, mem_toFinset, mem_filterMap]

lemma sum_filter {es : List (ν × ℚ)} {known : Finset σ} {p : Option σ → Bool}
    (cover : ∀ e ∈ es, ∀ s, sectors e.1 = some s → s ∈ known) :
    ((es.filter fun e => p (sectors e.1)).map Prod.snd).sum =
      (if p none then ((es.filter (sectors ·.1 = none)).map Prod.snd).sum else 0) +
        ∑ s ∈ known with p (some s), ((es.filter (sectors ·.1 = some s)).map Prod.snd).sum := by
  induction es with
  | nil => simp
  | cons e es ih =>
    have ih := ih fun e' mem => cover e' (mem_cons_of_mem _ mem)
    have others {q : ν × ℚ → Bool} : (((e :: es).filter q).map Prod.snd).sum =
        (if q e then e.2 else 0) + ((es.filter q).map Prod.snd).sum := by
      rw [filter_cons]
      split <;> simp
    simp only [others, Finset.sum_add_distrib]
    rw [ih]
    cases sector : sectors e.1 with
    | none =>
      simp only [decide_true, if_true, reduceCtorEq, decide_false, Bool.false_eq_true, if_false, Finset.sum_const_zero,
        zero_add]
      split <;> ring
    | some s =>
      have isKnown := cover e mem_cons_self s sector
      simp only [reduceCtorEq, decide_false, Bool.false_eq_true, if_false, zero_add, Option.some.injEq,
        decide_eq_true_eq, Finset.sum_ite_eq, Finset.mem_filter, isKnown, true_and]
      split <;> split <;> ring

lemma cover : ∀ e ∈ w.entries, ∀ s, sectors e.1 = some s → s ∈ distinct sectors w := by
  intro e mem s sector
  exact mem_distinct.2 ⟨e, mem, sector⟩

lemma sum_values_eq :
    w.values.sum = sectorTotal sectors w none + ∑ s ∈ distinct sectors w, sectorTotal sectors w (some s) := by
  have cover : ∀ e ∈ w.entries, ∀ s, sectors e.1 = some s → s ∈ distinct sectors w := cover
  have all := sum_filter (p := fun _ => true) cover
  simp only [filter_true, if_true, Finset.filter_true] at all
  exact all

@[simp] lemma distinct_rescale : distinct sectors (rescale sectors w r) = distinct sectors w := by
  simp only [distinct, rescale, Dict.mapValues, filterMap_map, comp_def]

lemma sum_rescale {es : List (ν × ℚ)} {s : Option σ} {g : ℚ → ℚ} :
    (((es.map fun e => (e.1, r (sectors e.1) * e.2)).filter (sectors ·.1 = s)).map fun e => g e.2).sum =
      ((es.filter (sectors ·.1 = s)).map fun e => g (r s * e.2)).sum := by
  rw [filter_map, map_map]
  congr 1
  apply map_congr_left
  intro e mem
  have sector : sectors e.1 = s := by simpa using (mem_filter.1 mem).2
  rw [comp_apply, sector]

@[simp] lemma sectorTotal_rescale {s : Option σ} :
    sectorTotal sectors (rescale sectors w r) s = r s * sectorTotal sectors w s := by
  rw [sectorTotal, sectorTotal, ← sum_map_mul_left]
  exact sum_rescale (g := id)

lemma get_sectorWeights : (sectorWeights sectors w).get s =
    if s ∈ distinct sectors w then some (sectorTotal sectors w (some s)) else none := by
  have rows : (w.entries.filterMap fun e => (sectors e.1).map fun s => (s, e.2)).filter (·.1 = s) =
      (w.entries.filter (sectors ·.1 = some s)).map fun e => (s, e.2) := by
    generalize w.entries = es
    induction es with
    | nil => rfl
    | cons e es ih =>
      rw [filterMap_cons, filter_cons]
      cases sector : sectors e.1 with
      | none => simpa using ih
      | some s' =>
        rw [Option.map_some, filter_cons, ih]
        by_cases same : s' = s <;> simp [same]
  have fold {es : List (ν × ℚ)} {acc : Option ℚ} : (es.map fun e => (s, e.2)).foldl
      (fun acc r => some (acc.getD 0 + r.2)) acc =
        if es = [] then acc else some (acc.getD 0 + (es.map Prod.snd).sum) := by
    induction es generalizing acc with
    | nil => rfl
    | cons e es ih =>
      rw [map_cons, foldl_cons, ih]
      split
      · rename_i nil
        simp [nil]
      · simp [add_assoc]
  rw [sectorWeights, get_groupBy, rows, fold, Option.getD_none, zero_add]
  by_cases known : s ∈ distinct sectors w
  · obtain ⟨e, mem, sector⟩ := mem_distinct.1 known
    rw [if_pos known, if_neg, sectorTotal]
    exact ne_nil_of_mem (mem_filter.2 ⟨mem, by simpa using sector⟩)
  · rw [if_neg known, if_pos]
    rw [filter_eq_nil_iff]
    intro e mem same
    exact known (mem_distinct.2 ⟨e, mem, by simpa using same⟩)

/-! ## Freezing -/

/-- A ratio with the sectors of a list scaled once more. -/
def clamped (r : Option σ → ℚ) (scale : σ → ℚ) (above : List σ) : Option σ → ℚ
  | none => r none
  | some s => if s ∈ above then r (some s) * scale s else r (some s)

lemma foldl_freeze {sectorW : Dict σ ℚ} {above : List σ} {freed : ℚ} (nodup : above.Nodup) :
    above.foldl (freeze sectors cap sectorW) ⟨rescale sectors w r, frozen, freed⟩ =
      { w := rescale sectors w (clamped r (fun s => cap / (sectorW.get s).getD 0) above)
        frozen := frozen ∪ above.toFinset
        freed := freed + (above.map fun s =>
          r (some s) * sectorTotal sectors w (some s) * (1 - cap / (sectorW.get s).getD 0)).sum } := by
  induction above generalizing r frozen freed with
  | nil =>
    have same : clamped r (fun s => cap / (sectorW.get s).getD 0) [] = r := by
      funext c
      cases c <;> simp [clamped]
    simp [same]
  | cons s above ih =>
    rw [nodup_cons] at nodup
    -- scaling one sector is another ratio
    have one : freeze sectors cap sectorW ⟨rescale sectors w r, frozen, freed⟩ s =
        { w := rescale sectors w (Function.update r (some s) (r (some s) * (cap / (sectorW.get s).getD 0)))
          frozen := insert s frozen
          freed := freed + r (some s) * sectorTotal sectors w (some s) * (1 - cap / (sectorW.get s).getD 0) } := by
      rw [freeze, Filling.mk.injEq]
      refine ⟨?_, rfl, ?_⟩
      · rw [rescale, rescale, mapValues_mapValues]
        congr 1
        funext t x
        split
        · rename_i sector
          rw [sector, update_self]
          ring
        · rename_i sector
          rw [update_of_ne sector]
      · rw [rescale, Dict.mapValues, sum_rescale (g := fun x => x * (1 - cap / (sectorW.get s).getD 0)), sectorTotal,
          ← sum_map_mul_left, ← sum_map_mul_right]
    rw [foldl_cons, one, ih nodup.2, Filling.mk.injEq]
    refine ⟨?_, ?_, ?_⟩
    · congr 1
      funext c
      cases c with
      | none => simp [clamped]
      | some s' =>
        by_cases same : s' = s
        · subst same
          simp [clamped, nodup.1]
        · simp [clamped, same]
    · rw [toFinset_cons, Finset.insert_union, Finset.union_insert]
    · rw [map_cons, sum_cons, ← add_assoc]
      congr 2
      apply map_congr_left
      intro s' mem
      have ne : some s' ≠ some s := by
        intro same
        exact nodup.1 (Option.some.inj same ▸ mem)
      rw [update_of_ne ne]

/-! ## The passes -/

def basin (sectors : ν → Option σ) (cap : ℚ) (w : Dict ν ℚ) (positive : ∀ e ∈ w.entries, 0 < e.2) :
    WaterFilling.Basin σ ℚ where
  groups := distinct sectors w
  total s := sectorTotal sectors w (some s)
  loose := sectorTotal sectors w none
  cap := cap
  total_pos := by
    intro s known
    obtain ⟨e, mem, sector⟩ := mem_distinct.1 known
    have listed : e.2 ∈ (w.entries.filter (sectors ·.1 = some s)).map Prod.snd :=
      mem_map_of_mem (mem_filter.2 ⟨mem, by simpa using sector⟩)
    apply sum_pos _ _ (ne_nil_of_mem listed)
    intro x weight
    obtain ⟨e, mem, rfl⟩ := mem_map.1 weight
    exact positive e (mem_filter.1 mem).1
  loose_nonneg := by
    apply sum_nonneg
    intro x weight
    obtain ⟨e, mem, rfl⟩ := mem_map.1 weight
    exact (positive e (mem_filter.1 mem).1).le

/-- Frozen sectors at the cap, the rest at one factor. -/
def ratio (sectors : ν → Option σ) (cap : ℚ) (w : Dict ν ℚ) (frozen : Finset σ) (f : ℚ) : Option σ → ℚ
  | none => f
  | some s => if s ∈ frozen then cap / sectorTotal sectors w (some s) else f

/-- The weights with these sectors frozen and the rest at this factor. -/
def book (sectors : ν → Option σ) (cap : ℚ) (w : Dict ν ℚ) (frozen : Finset σ) (f : ℚ) : Dict ν ℚ :=
  rescale sectors w (ratio sectors cap w frozen f)

lemma ratio_of_receives {c : Option σ} (open_to : receives frozen c = true) : ratio sectors cap w frozen f c = f := by
  cases c with
  | none => rfl
  | some s =>
    have free : s ∉ frozen := of_decide_eq_true open_to
    rw [ratio, if_neg free]

lemma ratio_of_not_receives {c : Option σ} {f' : ℚ} (closed : ¬receives frozen c = true) :
    ratio sectors cap w frozen f c = ratio sectors cap w frozen f' c := by
  cases c with
  | none => exact absurd rfl closed
  | some s =>
    have held : s ∈ frozen := by simpa [receives] using closed
    rw [ratio, ratio, if_pos held, if_pos held]

section Pass
variable {positive : ∀ e ∈ w.entries, 0 < e.2}

lemma get_sectorWeights_book (mem : s ∈ (basin sectors cap w positive).brimming frozen f) :
    (sectorWeights sectors (book sectors cap w frozen f)).get s = some (f * sectorTotal sectors w (some s)) := by
  obtain ⟨⟨known, free⟩, -⟩ := WaterFilling.mem_brimming.1 mem
  have known : s ∈ distinct sectors w := known
  rw [get_sectorWeights, book, distinct_rescale, if_pos known, sectorTotal_rescale, ratio, if_neg free]

lemma toFinset_overCap : (overCap 0 cap (sectorWeights sectors (book sectors cap w frozen f)) frozen).toFinset =
    (basin sectors cap w positive).brimming frozen f := by
  ext s
  rw [mem_toFinset, overCap, mem_map]
  constructor
  · rintro ⟨⟨s, x⟩, mem, rfl⟩
    obtain ⟨mem, above⟩ := mem_filter.1 mem
    obtain ⟨free, above⟩ := of_decide_eq_true above
    have found := get_of_mem_entries mem
    rw [get_sectorWeights, book, distinct_rescale, sectorTotal_rescale, ratio, if_neg free] at found
    split at found
    · rename_i known
      rw [add_zero, ← Option.some.inj found] at above
      exact WaterFilling.mem_brimming.2 ⟨⟨known, free⟩, above⟩
    · cases found
  · intro mem
    obtain ⟨⟨-, free⟩, above⟩ := WaterFilling.mem_brimming.1 mem
    refine ⟨(s, f * sectorTotal sectors w (some s)), mem_filter.2 ⟨?_, ?_⟩, rfl⟩
    · exact mem_entries_of_get (get_sectorWeights_book mem)
    · rw [add_zero]
      exact decide_eq_true ⟨free, above⟩

omit [DecidableEq σ] in
lemma nodup_overCap [DecidableEq σ] {eps : ℚ} {sectorW : Dict σ ℚ} : (overCap eps cap sectorW frozen).Nodup :=
  sectorW.nodup.sublist (filter_sublist.map _)

lemma clamped_ratio {above : List σ} {scale : σ → ℚ} (pos : 0 < f)
    (same : above.toFinset = (basin sectors cap w positive).brimming frozen f)
    (scales : ∀ s ∈ above, scale s = cap / (f * sectorTotal sectors w (some s))) :
    clamped (ratio sectors cap w frozen f) scale above =
      ratio sectors cap w (frozen ∪ (basin sectors cap w positive).brimming frozen f) f := by
  rw [← same]
  funext c
  cases c with
  | none => rfl
  | some s =>
    by_cases listed : s ∈ above
    · have mem : s ∈ (basin sectors cap w positive).brimming frozen f := by rwa [← same, mem_toFinset]
      rw [clamped, if_pos listed, ratio, if_neg (WaterFilling.mem_brimming.1 mem).1.2, ratio,
        if_pos (Finset.mem_union_right _ (mem_toFinset.2 listed)), scales s listed]
      rw [← div_div, mul_div_assoc', mul_div_cancel₀ _ pos.ne']
    · rw [clamped, if_neg listed, ratio, ratio]
      simp only [Finset.mem_union, mem_toFinset, listed, or_false]

lemma freed_book {above : List σ} {scale : σ → ℚ} (pos : 0 < f) (nodup : above.Nodup)
    (same : above.toFinset = (basin sectors cap w positive).brimming frozen f)
    (scales : ∀ s ∈ above, scale s = cap / (f * sectorTotal sectors w (some s))) :
    (above.map fun s => ratio sectors cap w frozen f (some s) * sectorTotal sectors w (some s) * (1 - scale s)).sum =
      (basin sectors cap w positive).freed frozen f := by
  rw [WaterFilling.Basin.freed, ← same, sum_toFinset _ nodup]
  congr 1
  apply map_congr_left
  intro s listed
  have mem : s ∈ (basin sectors cap w positive).brimming frozen f := by rwa [← same, mem_toFinset]
  have total_pos : 0 < sectorTotal sectors w (some s) :=
    (basin sectors cap w positive).total_pos s (WaterFilling.mem_brimming.1 mem).1.1
  rw [scales s listed, ratio, if_neg (WaterFilling.mem_brimming.1 mem).1.2]
  show f * sectorTotal sectors w (some s) * (1 - cap / (f * sectorTotal sectors w (some s))) =
    f * sectorTotal sectors w (some s) - cap
  field_simp

lemma recv_book : (((book sectors cap w frozen f).entries.filter fun e =>
    receives frozen (sectors e.1)).map Prod.snd).sum = f * (basin sectors cap w positive).rest frozen := by
  have known : ∀ e ∈ (book sectors cap w frozen f).entries, ∀ s, sectors e.1 = some s →
      s ∈ distinct sectors (book sectors cap w frozen f) := cover
  have outside : (distinct sectors w).filter (fun s => receives frozen (some s) = true) =
      distinct sectors w \ frozen := by
    ext s
    simp [receives]
  have total {c : Option σ} (open_to : receives frozen c = true) :
      sectorTotal sectors (book sectors cap w frozen f) c = f * sectorTotal sectors w c := by
    rw [book, sectorTotal_rescale, ratio_of_receives open_to]
  have distinct_book : distinct sectors (book sectors cap w frozen f) = distinct sectors w := distinct_rescale
  rw [sum_filter known, if_pos (show receives frozen (none : Option σ) = true from rfl), distinct_book, outside,
    WaterFilling.Basin.rest, mul_add, Finset.mul_sum]
  congr 1
  · exact total rfl
  · apply Finset.sum_congr rfl
    intro s mem
    exact total (decide_eq_true (Finset.mem_sdiff.1 mem).2)

lemma spread_book {freed recvTotal : ℚ} :
    (book sectors cap w frozen f).mapValues (fun t x =>
      if receives frozen (sectors t) then x + freed * x / recvTotal else x) =
      book sectors cap w frozen (f * (1 + freed / recvTotal)) := by
  rw [book, book, rescale, rescale, mapValues_mapValues]
  congr 1
  funext t x
  split
  · rename_i open_to
    rw [ratio_of_receives open_to, ratio_of_receives open_to]
    ring
  · rename_i closed
    rw [ratio_of_not_receives closed]

lemma foldl_freeze_book {b : WaterFilling.Basin σ ℚ} (sectors_as : basin sectors cap w positive = b) (one_le : 1 ≤ f) :
    (overCap 0 cap (sectorWeights sectors (book sectors cap w frozen f)) frozen).foldl
      (freeze sectors cap (sectorWeights sectors (book sectors cap w frozen f))) ⟨book sectors cap w frozen f, frozen,
        0⟩ =
      { w := book sectors cap w (frozen ∪ b.brimming frozen f) f
        frozen := frozen ∪ b.brimming frozen f
        freed := b.freed frozen f } := by
  subst sectors_as
  have pos : 0 < f := zero_lt_one.trans_le one_le
  have same : (overCap 0 cap (sectorWeights sectors (book sectors cap w frozen f)) frozen).toFinset =
      (basin sectors cap w positive).brimming frozen f := toFinset_overCap
  have nodup : (overCap 0 cap (sectorWeights sectors (book sectors cap w frozen f)) frozen).Nodup := nodup_overCap
  have held : ∀ s ∈ overCap 0 cap (sectorWeights sectors (book sectors cap w frozen f)) frozen,
      cap / ((sectorWeights sectors (book sectors cap w frozen f)).get s).getD 0 =
        cap / (f * sectorTotal sectors w (some s)) := by
    intro s listed
    rw [← mem_toFinset, same] at listed
    rw [get_sectorWeights_book listed, Option.getD_some]
  generalize overCap 0 cap (sectorWeights sectors (book sectors cap w frozen f)) frozen = above at *
  generalize sectorWeights sectors (book sectors cap w frozen f) = sectorW at *
  rw [book, foldl_freeze nodup, clamped_ratio pos same held, freed_book pos nodup same held, zero_add, same]
  rfl

lemma waterFill_succ {passes : ℕ} {b : WaterFilling.Basin σ ℚ} (sectors_as : basin sectors cap w positive = b)
    (one_le : 1 ≤ f) :
    waterFill sectors 0 cap (passes + 1) (book sectors cap w frozen f) frozen =
      if b.brimming frozen f = ∅ then .settled (book sectors cap w frozen f)
      else if b.rest (frozen ∪ b.brimming frozen f) ≤ 0 then .infeasible
      else waterFill sectors 0 cap passes
        (book sectors cap w (frozen ∪ b.brimming frozen f) (b.raised frozen f)) (frozen ∪ b.brimming frozen f) := by
  have pos : 0 < f := zero_lt_one.trans_le one_le
  have none_over : overCap 0 cap (sectorWeights sectors (book sectors cap w frozen f)) frozen = [] ↔
      b.brimming frozen f = ∅ := by
    rw [← sectors_as, ← toFinset_overCap, toFinset_eq_empty_iff]
  have recv : (((book sectors cap w (frozen ∪ b.brimming frozen f) f).entries.filter fun e =>
      receives (frozen ∪ b.brimming frozen f) (sectors e.1)).map Prod.snd).sum =
        f * b.rest (frozen ∪ b.brimming frozen f) := by
    rw [← sectors_as]
    exact recv_book
  have no_room : ((book sectors cap w (frozen ∪ b.brimming frozen f) f).entries.filter fun e =>
      receives (frozen ∪ b.brimming frozen f) (sectors e.1)) = [] ∨ f * b.rest (frozen ∪ b.brimming frozen f) ≤ 0 ↔
        b.rest (frozen ∪ b.brimming frozen f) ≤ 0 := by
    constructor
    · rintro (none | le)
      · rw [none] at recv
        have zero : f * b.rest (frozen ∪ b.brimming frozen f) = 0 := recv.symm
        exact ((mul_eq_zero.1 zero).resolve_left pos.ne').le
      · exact nonpos_of_mul_nonpos_right le pos
    · intro le
      exact .inr (mul_nonpos_of_nonneg_of_nonpos pos.le le)
  simp only [waterFill, none_over, foldl_freeze_book sectors_as one_le, recv, no_room, spread_book,
    WaterFilling.Basin.raised]

lemma waterFill_ends {passes : ℕ} {b : WaterFilling.Basin σ ℚ} (sectors_as : basin sectors cap w positive = b)
    (level : WaterFilling.Level b 1 frozen f) (enough : b.groups.card < frozen.card + passes) :
    (∃ frozen' f', WaterFilling.Level b 1 frozen' f' ∧ b.brimming frozen' f' = ∅ ∧
      waterFill sectors 0 cap passes (book sectors cap w frozen f) frozen = .settled (book sectors cap w frozen' f')) ∨
    (b.loose = 0 ∧ b.groups.card * b.cap < 1 ∧
      waterFill sectors 0 cap passes (book sectors cap w frozen f) frozen = .infeasible) := by
  induction passes generalizing frozen f with
  | zero =>
    have most := Finset.card_le_card level.known
    omega
  | succ passes ih =>
    rw [waterFill_succ sectors_as level.one_le]
    split
    · rename_i none_over
      exact .inl ⟨frozen, f, level, none_over, rfl⟩
    · rename_i some_over
      have some_over := Finset.nonempty_iff_ne_empty.2 some_over
      split
      · rename_i nothing
        obtain ⟨no_loose, short⟩ := level.spilt some_over nothing
        exact .inr ⟨no_loose, short, rfl⟩
      · rename_i left
        -- one more sector is frozen, so one pass fewer is enough
        have more := WaterFilling.card_lt some_over
        exact ih (level.next (not_le.1 left)) (by omega)

end Pass

/-! ## The weights it settles on -/

section Settled
variable {positive : ∀ e ∈ w.entries, 0 < e.2} {b : WaterFilling.Basin σ ℚ}

lemma sectorTotal_book (sectors_as : basin sectors cap w positive = b) (level : WaterFilling.Level b 1 frozen f)
    (none_over : b.brimming frozen f = ∅) (known : s ∈ distinct sectors w) :
    sectorTotal sectors (book sectors cap w frozen f) (some s) = min cap (f * sectorTotal sectors w (some s)) := by
  subst sectors_as
  rw [book, sectorTotal_rescale, ratio]
  split
  · rename_i held
    have total_pos : 0 < sectorTotal sectors w (some s) := (basin sectors cap w positive).total_pos s known
    have full : cap ≤ f * sectorTotal sectors w (some s) := level.full s held
    rw [div_mul_cancel₀ _ total_pos.ne', min_eq_left full]
  · rename_i free
    symm
    apply min_eq_right
    by_contra above
    have mem : s ∈ (basin sectors cap w positive).brimming frozen f :=
      WaterFilling.mem_brimming.2 ⟨⟨known, free⟩, not_le.1 above⟩
    rw [none_over] at mem
    exact Finset.notMem_empty s mem

lemma sum_book (sectors_as : basin sectors cap w positive = b) (level : WaterFilling.Level b 1 frozen f)
    (none_over : b.brimming frozen f = ∅) : (book sectors cap w frozen f).values.sum = 1 := by
  have distinct_book : distinct sectors (book sectors cap w frozen f) = distinct sectors w := distinct_rescale
  have loose : sectorTotal sectors (book sectors cap w frozen f) none = f * sectorTotal sectors w none :=
    sectorTotal_rescale
  have parts : (book sectors cap w frozen f).values.sum = sectorTotal sectors _ none + _ := sum_values_eq
  rw [parts, distinct_book, loose, ← level.held_eq none_over, ← sectors_as]
  congr 1
  apply Finset.sum_congr rfl
  intro s known
  exact sectorTotal_book sectors_as level none_over known

lemma filled_book [DecidableEq ν] (cap_pos : 0 < cap) (sectors_as : basin sectors cap w positive = b)
    (level : WaterFilling.Level b 1 frozen f) (none_over : b.brimming frozen f = ∅) :
    Filled sectors cap f w (book sectors cap w frozen f) where
  one_le := level.one_le
  names := keys_mapValues
  exempt := by
    intro t x found unknown
    rw [book, rescale, get_mapValues, found, Option.map_some, unknown]
    rfl
  capped s known := sectorTotal_book sectors_as level none_over known
  proportions := by
    intro t s x y sector before after
    rw [book, rescale, get_mapValues, before, Option.map_some, Option.some.injEq, sector] at after
    have known : s ∈ distinct sectors w := mem_distinct.2 ⟨(t, x), mem_entries_of_get before, sector⟩
    have total_pos : 0 < sectorTotal sectors w (some s) := (basin sectors cap w positive).total_pos s known
    have ratio_pos : 0 < ratio sectors cap w frozen f (some s) := by
      rw [ratio]
      split
      · exact div_pos cap_pos total_pos
      · exact zero_lt_one.trans_le level.one_le
    rw [book, sectorTotal_rescale, ← after, mul_div_mul_left _ _ ratio_pos.ne']
  sum_one := sum_book sectors_as level none_over

end Settled

lemma loose_eq_zero (positive : ∀ e ∈ w.entries, 0 < e.2) :
    sectorTotal sectors w none = 0 ↔ ∀ e ∈ w.entries, sectors e.1 ≠ none := by
  constructor
  · intro nothing e mem unknown
    have listed : e.2 ∈ (w.entries.filter (sectors ·.1 = none)).map Prod.snd :=
      mem_map_of_mem (mem_filter.2 ⟨mem, by simpa using unknown⟩)
    have pos : 0 < sectorTotal sectors w none := by
      apply sum_pos _ _ (ne_nil_of_mem listed)
      intro x weight
      obtain ⟨e, mem, rfl⟩ := mem_map.1 weight
      exact positive e (mem_filter.1 mem).1
    exact pos.ne' nothing
  · intro known
    have nil : w.entries.filter (sectors ·.1 = none) = [] := by
      rw [filter_eq_nil_iff]
      intro e mem unknown
      exact known e mem (of_decide_eq_true unknown)
    rw [sectorTotal, nil, map_nil, sum_nil]

lemma applySectorCap_settled {v : Dict ν ℚ} (cap_lt : cap < 1) (some_known : distinct sectors w ≠ ∅)
    (ends : waterFill sectors 0 cap ((distinct sectors w).card + 1) w ∅ = .settled v) (sum_one : v.values.sum = 1) :
    applySectorCap sectors 0 (some cap) w = v := by
  have some_names : w.entries ≠ [] := by
    intro nil
    apply some_known
    rw [distinct, nil]
    rfl
  simp only [applySectorCap, cap_lt.not_ge, some_names, or_self, if_false, some_known, ends, sum_one,
    zero_lt_one.not_ge, div_one]
  exact mapValues_eq_self fun _ _ => rfl

variable [DecidableEq ν]

/-- For positive weights that add up to one the loop ends within its passes, and fails open or multiplies the weights
by one factor up to the cap of each sector. -/
theorem sector_cap_exact (positive : ∀ e ∈ w.entries, 0 < e.2) (sum_one : w.values.sum = 1) (cap_pos : 0 < cap)
    (cap_lt : cap < 1) :
    waterFill sectors 0 cap ((distinct sectors w).card + 1) w ∅ ≠ .exhausted ∧
      (FailsOpen sectors cap w ∧ applySectorCap sectors 0 (some cap) w = w ∨
        ¬FailsOpen sectors cap w ∧ ∃ f, Filled sectors cap f w (applySectorCap sectors 0 (some cap) w)) := by
  obtain ⟨b, sectors_as⟩ : ∃ b, basin sectors cap w positive = b := ⟨_, rfl⟩
  have at_one : book sectors cap w ∅ 1 = w := by
    rw [book, rescale]
    apply mapValues_eq_self
    intro e _
    rw [ratio_of_receives, one_mul]
    cases sectors e.1 <;> rfl
  have start : WaterFilling.Level b 1 ∅ 1 := by
    apply WaterFilling.Level.start
    have parts : w.values.sum = sectorTotal sectors w none + _ := sum_values_eq
    rw [← sum_one, parts, ← sectors_as]
    rfl
  have enough : b.groups.card < (∅ : Finset σ).card + ((distinct sectors w).card + 1) := by
    rw [← sectors_as, Finset.card_empty, zero_add]
    exact Nat.lt_succ_self _
  rcases waterFill_ends sectors_as start enough with ⟨frozen, f, level, none_over, ends⟩ | ⟨no_loose, short, ends⟩
  · rw [at_one] at ends
    refine ⟨by rw [ends]; exact nofun, ?_⟩
    cases Decidable.em (distinct sectors w = ∅) with
    | inl unknown =>
      refine .inl ⟨.inl unknown, ?_⟩
      simp only [applySectorCap, unknown, if_true, ite_self]
    | inr some_known =>
      refine .inr ⟨?_, f, ?_⟩
      · rintro (unknown | ⟨known, short⟩)
        · exact some_known unknown
        · have loose : b.loose = 0 := by
            rw [← sectors_as]
            exact (loose_eq_zero positive).2 known
          have held := WaterFilling.held_le (b := b) (f := f)
          rw [level.held_eq none_over, loose, mul_zero, zero_add, ← sectors_as] at held
          exact held.not_gt short
      · rw [applySectorCap_settled cap_lt some_known ends (sum_book sectors_as level none_over)]
        exact filled_book cap_pos sectors_as level none_over
  · rw [at_one] at ends
    refine ⟨by rw [ends]; exact nofun, .inl ⟨.inr ⟨?_, ?_⟩, ?_⟩⟩
    · rw [← sectors_as] at no_loose
      exact (loose_eq_zero positive).1 no_loose
    · rw [← sectors_as] at short
      exact short
    · simp only [applySectorCap, ends, ite_self]

/-- Two sectors at two fifths of the whole: one is over the cap, and what it frees is shared by the other and the name
without a sector. -/
theorem sector_cap_exact_twoFifths :
    let w : Dict String ℚ := ⟨[("AAPL", 1 / 2), ("XOM", 1 / 3), ("GLD", 1 / 6)], by decide⟩
    let sectors : String → Option Bool := fun t => if t = "AAPL" then some true else if t = "XOM" then some false
        else none
    FailsOpen sectors (2 / 5) w ∧ applySectorCap sectors 0 (some (2 / 5)) w = w ∨
      ¬FailsOpen sectors (2 / 5) w ∧ ∃ f, Filled sectors (2 / 5) f w (applySectorCap sectors 0 (some (2 / 5)) w) := by
  intro w sectors
  refine (sector_cap_exact ?_ ?_ ?_ ?_).2
  · simp [w]
  · simp only [w, Dict.values, map_cons, map_nil, sum_cons, sum_nil]
    norm_num
  · norm_num
  · norm_num

/-! ## The weights it is given -/

lemma entries_fromNames {g : ν → ℚ} {chosen : List ν} (nodup : chosen.Nodup) :
    (fromNames g chosen).entries = chosen.map fun t => (t, g t) := by
  have append : ∀ {es : List (ν × ℚ)} {t : ν} {x : ℚ}, t ∉ es.map Prod.fst → Dict.setEntry t x es = es ++ [(t, x)] := by
    intro es t x absent
    induction es with
    | nil => rfl
    | cons e es ih =>
      rw [map_cons, mem_cons, not_or] at absent
      rw [Dict.setEntry, if_neg (Ne.symm absent.1), ih absent.2, cons_append]
  rw [fromNames]
  induction chosen using List.reverseRecOn with
  | nil => rfl
  | append_singleton chosen t ih =>
    have before := ih (nodup_append.1 nodup).1
    have fresh : t ∉ chosen := by
      intro mem
      exact (nodup_append.1 nodup).2.2 t mem t (mem_singleton_self t) rfl
    rw [foldl_append, foldl_cons, foldl_nil, Dict.set, map_append, map_singleton, ← before]
    apply append
    rw [before, map_map]
    simpa using fresh

omit [DecidableEq ν] in
lemma inverseVol_pos {vol : ν → Option ℚ} {chosen : List ν} {t : ν} : 0 < inverseVol vol chosen t := by
  have guarded : ∀ sigma : ℚ, 0 < if 0 < sigma then 1 / sigma else 1 := by
    intro sigma
    split
    · rename_i pos
      exact one_div_pos.2 pos
    · exact zero_lt_one
  exact guarded _

lemma equalWeights_valid {chosen : List ν} (nodup : chosen.Nodup) (some_chosen : chosen ≠ []) :
    (∀ e ∈ (fromNames (fun _ => 1 / (chosen.length : ℚ)) chosen).entries, 0 < e.2) ∧
      (fromNames (fun _ => 1 / (chosen.length : ℚ)) chosen).values.sum = 1 := by
  have count : 0 < (chosen.length : ℚ) := Nat.cast_pos.2 (length_pos_of_ne_nil some_chosen)
  rw [Dict.values, entries_fromNames nodup]
  constructor
  · intro e mem
    obtain ⟨t, -, rfl⟩ := mem_map.1 mem
    exact one_div_pos.2 count
  · rw [map_map, comp_def, map_const', sum_replicate, nsmul_eq_mul, mul_one_div_cancel count.ne']

/-- What `_weigh` hands to the cap is positive and adds up to one. -/
theorem rawWeights_valid {method : Weighting} {vol : ν → Option ℚ} {chosen : List ν} (nodup : chosen.Nodup)
    (some_chosen : chosen ≠ []) : (∀ e ∈ (rawWeights method vol chosen).entries, 0 < e.2) ∧
      (rawWeights method vol chosen).values.sum = 1 := by
  have inv_valid : ∀ total, total = (fromNames (inverseVol vol chosen) chosen).values.sum → ¬total ≤ 0 →
      (∀ e ∈ ((fromNames (inverseVol vol chosen) chosen).mapValues fun _ iv => iv / total).entries, 0 < e.2) ∧
        ((fromNames (inverseVol vol chosen) chosen).mapValues fun _ iv => iv / total).values.sum = 1 := by
    intro total sums pos
    have pos := not_le.1 pos
    constructor
    · intro e listed
      obtain ⟨e, mem, rfl⟩ := mem_map.1 listed
      rw [entries_fromNames nodup] at mem
      obtain ⟨t, -, rfl⟩ := mem_map.1 mem
      exact div_pos inverseVol_pos pos
    · rw [Dict.values, Dict.mapValues, map_map, comp_def]
      simp only [div_eq_mul_inv]
      rw [sum_map_mul_right]
      rw [Dict.values] at sums
      rw [← sums, mul_inv_cancel₀ pos.ne']
  cases method with
  | equalWeight => exact equalWeights_valid nodup some_chosen
  | inverseVol =>
    rw [rawWeights]
    split
    · exact equalWeights_valid nodup some_chosen
    · rename_i pos
      exact inv_valid _ rfl pos
  | riskParityDiagonal =>
    rw [rawWeights]
    split
    · exact equalWeights_valid nodup some_chosen
    · rename_i pos
      exact inv_valid _ rfl pos

end Workbench.FactorData
