import Mathlib.Algebra.Order.Field.Basic
import Mathlib.Algebra.BigOperators.Group.List.Basic
import Mathlib.Tactic

/-!
# Positions at average cost

A list of trades, oldest first, builds a position up and runs it down. `Holding` keeps the position with its average
cost: a trade on the side of the position moves the average towards its price, a trade against it leaves the average
alone, and one that takes the position through zero starts over at its own price. The average of an open position
lies between the prices of its run (`Trade.average_between`), the trades on its side since it last was flat or on the
other side.
-/

namespace Workbench.Lib

/-- A trade; the quantity is positive for a purchase and negative for a sale. -/
structure Trade (K : Type*) where
  qty : K
  price : K

/-- A position and its average cost, which means nothing while the position is flat. -/
structure Holding (K : Type*) where
  qty : K
  average : K

open Trade

section Sums
variable {K : Type*} [Field K] {ts : List (Trade K)} {t : Trade K}

def Trade.position (ts : List (Trade K)) : K := (ts.map (·.qty)).sum

/-- What the sales brought in less what the purchases cost. -/
def Trade.cashFlow (ts : List (Trade K)) : K := -(ts.map fun t => t.qty * t.price).sum

@[simp] lemma Trade.position_nil : position ([] : List (Trade K)) = 0 := rfl

@[simp] lemma Trade.position_concat : position (ts ++ [t]) = position ts + t.qty := by simp [position]

@[simp] lemma Trade.cashFlow_nil : cashFlow ([] : List (Trade K)) = 0 := by simp [cashFlow]

lemma Trade.cashFlow_append {us : List (Trade K)} : cashFlow (ts ++ us) = cashFlow ts + cashFlow us := by
  simp [cashFlow]
  ring

@[simp] lemma Trade.cashFlow_concat : cashFlow (ts ++ [t]) = cashFlow ts - t.qty * t.price := by
  simp [cashFlow]
  ring

end Sums

variable {K : Type*} [Field K] [LinearOrder K]

def Holding.add (h : Holding K) (t : Trade K) : Holding K where
  qty := h.qty + t.qty
  average :=
    if 0 ≤ h.qty * t.qty then (h.qty * h.average + t.qty * t.price) / (h.qty + t.qty)
    else if h.qty * (h.qty + t.qty) < 0 then t.price
    else h.average

def Trade.holding (ts : List (Trade K)) : Holding K := ts.foldl Holding.add ⟨0, 0⟩

/-- A trade of the current run: it is on the side of the position, and the position has been on that side since. -/
def Trade.InRun (ts : List (Trade K)) (t : Trade K) : Prop :=
  ∃ before after, ts = before ++ t :: after ∧ 0 < t.qty * position ts ∧
    ∀ p, p <+: after → 0 < position (before ++ t :: p) * position ts

section Trades
variable {ts : List (Trade K)} {h : Holding K} {t : Trade K}

@[simp] lemma Trade.holding_concat : holding (ts ++ [t]) = (holding ts).add t := by simp [holding]

@[simp] lemma Trade.qty_holding : (holding ts).qty = position ts := by
  induction ts using List.reverseRecOn with
  | nil => rfl
  | append_singleton ts t ih => rw [holding_concat, position_concat, Holding.add, ih]

lemma Holding.average_add_of_same (same : 0 ≤ h.qty * t.qty) :
    (h.add t).average = (h.qty * h.average + t.qty * t.price) / (h.qty + t.qty) := by
  simp only [Holding.add, if_pos same]

end Trades

variable [IsStrictOrderedRing K]

/-! ## What a trade does to the average -/

section Average
variable {h : Holding K} {t : Trade K}

lemma Holding.average_add_of_turn (turn : h.qty = 0 ∨ h.qty * (h.qty + t.qty) < 0) (open_ : h.qty + t.qty ≠ 0) :
    (h.add t).average = t.price := by
  obtain flat | cross := turn
  · rw [flat, zero_add] at open_
    simp [Holding.add, flat, open_]
  · have against : ¬ 0 ≤ h.qty * t.qty := by nlinarith [mul_self_nonneg h.qty]
    simp only [Holding.add, if_neg against, if_pos cross]

lemma Holding.average_add_of_reduce (open_ : 0 < h.qty * (h.qty + t.qty)) (against : h.qty * t.qty ≤ 0) :
    (h.add t).average = h.average := by
  have held : h.qty ≠ 0 := left_ne_zero_of_mul open_.ne'
  obtain none | some := eq_or_lt_of_le against
  · have nothing : t.qty = 0 := (mul_eq_zero.1 none).resolve_left held
    simp only [Holding.add, nothing, mul_zero, le_refl, if_true, zero_mul, add_zero]
    exact mul_div_cancel_left₀ _ held
  · simp only [Holding.add, if_neg some.not_ge, if_neg open_.le.not_gt]

lemma Holding.add_cases (open_ : h.qty + t.qty ≠ 0) :
    (h.qty = 0 ∨ h.qty * (h.qty + t.qty) < 0) ∨ 0 < h.qty * t.qty ∨
      (0 < h.qty * (h.qty + t.qty) ∧ h.qty * t.qty ≤ 0) := by
  by_cases flat : h.qty = 0
  · exact .inl (.inl flat)
  · obtain cross | stay := lt_or_gt_of_ne (mul_ne_zero flat open_)
    · exact .inl (.inr cross)
    · obtain against | same := le_or_gt (h.qty * t.qty) 0
      · exact .inr (.inr ⟨stay, against⟩)
      · exact .inr (.inl same)

end Average

/-! ## The run -/

section Run
variable {ts : List (Trade K)} {t u : Trade K}

lemma Trade.InRun.begin (turn : position ts * position (ts ++ [t]) ≤ 0) (open_ : position (ts ++ [t]) ≠ 0) :
    InRun (ts ++ [t]) t := by
  rw [position_concat] at turn open_
  have square : 0 < (position ts + t.qty) * (position ts + t.qty) := mul_self_pos.2 open_
  refine ⟨ts, [], rfl, ?_, ?_⟩
  · rw [position_concat]
    nlinarith
  · intro p isPrefix
    rw [List.prefix_nil.1 isPrefix, position_concat]
    exact square

lemma Trade.InRun.join (same : 0 < position ts * t.qty) : InRun (ts ++ [t]) t := by
  have side : 0 < t.qty * (position ts + t.qty) := by nlinarith [mul_self_nonneg t.qty]
  refine ⟨ts, [], rfl, ?_, ?_⟩
  · rwa [position_concat]
  · intro p isPrefix
    rw [List.prefix_nil.1 isPrefix, position_concat]
    nlinarith [mul_self_nonneg (position ts)]

lemma Trade.InRun.stay (run : InRun ts u) (stays : 0 < position ts * position (ts ++ [t])) : InRun (ts ++ [t]) u := by
  obtain ⟨before, after, rfl, side, since⟩ := run
  have open_ : position (before ++ u :: after ++ [t]) ≠ 0 := right_ne_zero_of_mul stays.ne'
  -- what is on the side of the old position is on the side of the new one
  have moved {x : K} (pos : 0 < x * position (before ++ u :: after)) :
      0 < x * position (before ++ u :: after ++ [t]) := by
    have product := mul_pos pos stays
    have square := mul_self_pos.2 (right_ne_zero_of_mul pos.ne')
    by_contra not
    nlinarith
  refine ⟨before, after ++ [t], by simp, moved side, fun p isPrefix => ?_⟩
  obtain whole | part := List.prefix_concat_iff.1 isPrefix
  · have eq : before ++ u :: p = before ++ u :: after ++ [t] := by
      rw [whole]
      simp
    rw [eq]
    exact mul_self_pos.2 open_
  · exact moved (since p part)

end Run

/-! ## The bounds -/

lemma mean_between {a b x y : K} (same : 0 < a * b) :
    min x y ≤ (a * x + b * y) / (a + b) ∧ (a * x + b * y) / (a + b) ≤ max x y := by
  obtain ⟨pos_a, pos_b⟩ | ⟨neg_a, neg_b⟩ := mul_pos_iff.1 same
  · have sum : 0 < a + b := add_pos pos_a pos_b
    rw [le_div_iff₀ sum, div_le_iff₀ sum]
    constructor
    · nlinarith [min_le_left x y, min_le_right x y]
    · nlinarith [le_max_left x y, le_max_right x y]
  · have sum : a + b < 0 := add_neg neg_a neg_b
    rw [le_div_iff_of_neg sum, div_le_iff_of_neg sum]
    constructor
    · nlinarith [min_le_left x y, min_le_right x y]
    · nlinarith [le_max_left x y, le_max_right x y]

/-- The average of an open position lies between the prices of its run. -/
theorem Trade.average_between (ts : List (Trade K)) (open_ : position ts ≠ 0) :
    (∃ t, InRun ts t ∧ t.price ≤ (holding ts).average) ∧ ∃ t, InRun ts t ∧ (holding ts).average ≤ t.price := by
  induction ts using List.reverseRecOn with
  | nil => exact absurd rfl open_
  | append_singleton ts t ih =>
    have sum : (holding ts).qty + t.qty ≠ 0 := by rwa [qty_holding, ← position_concat]
    rw [holding_concat]
    obtain turn | same | ⟨stays, against⟩ := Holding.add_cases sum
    · have run : InRun (ts ++ [t]) t := by
        apply InRun.begin _ open_
        rw [position_concat, ← qty_holding]
        obtain flat | cross := turn
        · rw [flat, zero_mul]
        · exact cross.le
      rw [Holding.average_add_of_turn turn sum]
      exact ⟨⟨t, run, le_rfl⟩, ⟨t, run, le_rfl⟩⟩
    · rw [Holding.average_add_of_same same.le]
      rw [qty_holding] at same ⊢
      have stays : 0 < position ts * position (ts ++ [t]) := by
        rw [position_concat]
        nlinarith [mul_self_nonneg (position ts)]
      obtain ⟨⟨lo, lo_run, lo_le⟩, ⟨hi, hi_run, le_hi⟩⟩ := ih (left_ne_zero_of_mul same.ne')
      have mean := mean_between (x := (holding ts).average) (y := t.price) same
      constructor
      · obtain le | le := min_le_iff.1 mean.1
        · exact ⟨lo, lo_run.stay stays, lo_le.trans le⟩
        · exact ⟨t, InRun.join same, le⟩
      · obtain le | le := le_max_iff.1 mean.2
        · exact ⟨hi, hi_run.stay stays, le.trans le_hi⟩
        · exact ⟨t, InRun.join same, le⟩
    · rw [Holding.average_add_of_reduce stays against]
      rw [qty_holding, ← position_concat] at stays
      obtain ⟨⟨lo, lo_run, lo_le⟩, ⟨hi, hi_run, le_hi⟩⟩ := ih (left_ne_zero_of_mul stays.ne')
      exact ⟨⟨lo, lo_run.stay stays, lo_le⟩, ⟨hi, hi_run.stay stays, le_hi⟩⟩

end Workbench.Lib
