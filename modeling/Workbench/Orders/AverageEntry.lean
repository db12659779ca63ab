import Workbench.Lib.AverageCost
import Workbench.Orders.Positions

/-!
# The average entry price

The loop of `PositionRecomputer.recompute` (`app/orders/positions.py`) keeps a position at average cost: its cost basis
is the size of the position times the average of `Workbench.Lib.AverageCost` (`foldCost_eq`). What is known of a fold
over fills with positive quantities and prices (`position_fold`) is read off that average.
-/

namespace Workbench.Orders
open Workbench.Lib Workbench.Risk List

/-- `fill.qty if order.side == OrderSide.BUY else -fill.qty`, at the price of the fill. -/
def signedTrade (side : OrderSide) (qty price : ℚ) : Trade ℚ := ⟨if side = .buy then qty else -qty, price⟩

/-- The trades of fills with the side of their orders. -/
def trades (rows : List (Fill × OrderSide)) : List (Trade ℚ) := rows.map fun r => signedTrade r.2 r.1.qty r.1.price

/-- The loop of `recompute`, on any sequence of fills. -/
def foldCost (rows : List (Fill × OrderSide)) : Cost := rows.foldl (fun cost r => cost.add r.2 r.1.qty r.1.price) {}

/-! ## The loop keeps an average cost -/

def Cost.of (h : Holding ℚ) : Cost := ⟨h.qty, |h.qty| * h.average⟩

section Step
variable {h : Holding ℚ} {side : OrderSide} {qty price : ℚ}

lemma Cost.add_of_flip (flip : h.qty * (h.qty + (signedTrade side qty price).qty) < 0) :
    (Cost.of h).add side qty price = Cost.of (h.add (signedTrade side qty price)) := by
  have signs := mul_neg_iff.1 flip
  have open_ : h.qty + (signedTrade side qty price).qty ≠ 0 := right_ne_zero_of_mul flip.ne
  rw [Cost.of, Cost.of, Holding.average_add_of_turn (.inr flip) open_]
  exact if_pos signs

lemma Cost.add_of_close (close : h.qty + (signedTrade side qty price).qty = 0) :
    (Cost.of h).add side qty price = Cost.of (h.add (signedTrade side qty price)) := by
  have stay : ¬ ((0 < h.qty ∧ h.qty + (signedTrade side qty price).qty < 0) ∨
      (h.qty < 0 ∧ 0 < h.qty + (signedTrade side qty price).qty)) := by
    rw [close]
    simp
  have flat : Cost.of (h.add (signedTrade side qty price)) = ⟨0, 0⟩ := by
    simp only [Cost.of, Holding.add, close, abs_zero, zero_mul]
  rw [flat]
  refine (if_neg stay).trans ((if_pos close).trans ?_)
  rw [Cost.mk.injEq]
  exact ⟨close, rfl⟩

lemma Cost.add_of_stay (stays : 0 ≤ h.qty * (h.qty + (signedTrade side qty price).qty))
    (open_ : h.qty + (signedTrade side qty price).qty ≠ 0) :
    (Cost.of h).add side qty price = Cost.of (h.add (signedTrade side qty price)) := by
  generalize trade : signedTrade side qty price = t at stays open_
  have signed : (if side = .buy then qty else -qty) = t.qty := by rw [← trade]; rfl
  have paid : price = t.price := by rw [← trade]; rfl
  have stay : ¬ ((0 < h.qty ∧ h.qty + t.qty < 0) ∨ (h.qty < 0 ∧ 0 < h.qty + t.qty)) := by
    rw [← mul_neg_iff]
    exact stays.not_gt
  simp only [Cost.add, Cost.of, signed, paid, if_neg stay, if_neg open_]
  obtain turn | same | ⟨kept, against⟩ := Holding.add_cases open_
  · have flat : h.qty = 0 := turn.resolve_right stays.not_gt
    rw [if_pos flat, Holding.average_add_of_turn turn open_]
    simp only [Holding.add, flat, zero_add]
  · have held : h.qty ≠ 0 := left_ne_zero_of_mul same.ne'
    have sum : |h.qty + t.qty| = |h.qty| + |t.qty| := by
      rw [abs_add_eq_add_abs_iff]
      obtain both | both := mul_pos_iff.1 same
      · exact .inl ⟨both.1.le, both.2.le⟩
      · exact .inr ⟨both.1.le, both.2.le⟩
    rw [if_neg held, if_pos (mul_pos_iff.1 same), Holding.average_add_of_same same.le]
    simp only [Holding.add, Cost.mk.injEq, true_and]
    -- the size and the sign of a quantity make the quantity
    obtain both | both := mul_pos_iff.1 same
    · rw [sum, abs_of_pos both.1, abs_of_pos both.2]
      have ne : h.qty + t.qty ≠ 0 := open_
      field_simp
    · rw [sum, abs_of_neg both.1, abs_of_neg both.2]
      have ne : h.qty + t.qty ≠ 0 := open_
      field_simp
      ring
  · have held : h.qty ≠ 0 := left_ne_zero_of_mul kept.ne'
    have reduces : ¬ ((0 < h.qty ∧ 0 < t.qty) ∨ (h.qty < 0 ∧ t.qty < 0)) := by
      rw [← mul_pos_iff]
      exact against.not_gt
    have size : |h.qty| ≠ 0 := abs_ne_zero.2 held
    have rest : |h.qty + t.qty| = |h.qty| - |t.qty| := by
      obtain ⟨long, left⟩ | ⟨short, left⟩ := mul_pos_iff.1 kept
      · have sell : t.qty ≤ 0 := by nlinarith
        rw [abs_of_pos long, abs_of_pos left, abs_of_nonpos sell]
        ring
      · have buy : 0 ≤ t.qty := by nlinarith
        rw [abs_of_neg short, abs_of_neg left, abs_of_nonneg buy]
        ring
    rw [if_neg held, if_neg reduces, Holding.average_add_of_reduce kept against]
    simp only [Holding.add, Cost.mk.injEq, true_and]
    rw [rest]
    field_simp

lemma Cost.add_of : (Cost.of h).add side qty price = Cost.of (h.add (signedTrade side qty price)) := by
  obtain flip | stays := lt_or_ge (h.qty * (h.qty + (signedTrade side qty price).qty)) 0
  · exact Cost.add_of_flip flip
  · by_cases close : h.qty + (signedTrade side qty price).qty = 0
    · exact Cost.add_of_close close
    · exact Cost.add_of_stay stays close

end Step

lemma Cost.foldl_add {α : Type*} (rows : List α) (side : α → OrderSide) (qty price : α → ℚ) :
    rows.foldl (fun cost r => cost.add (side r) (qty r) (price r)) {} =
      Cost.of (Trade.holding (rows.map fun r => signedTrade (side r) (qty r) (price r))) := by
  induction rows using List.reverseRecOn with
  | nil => simp [Cost.of]
  | append_singleton rows r ih =>
    rw [foldl_append, ih, map_append, map_singleton, Trade.holding_concat]
    exact Cost.add_of

section Fold
variable {rows : List (Fill × OrderSide)} {r : Fill × OrderSide}

@[simp] lemma trades_concat : trades (rows ++ [r]) = trades rows ++ [signedTrade r.2 r.1.qty r.1.price] := by
  simp [trades]

lemma foldCost_eq : foldCost rows = Cost.of (Trade.holding (trades rows)) :=
  Cost.foldl_add rows (fun r => r.2) (fun r => r.1.qty) (fun r => r.1.price)

lemma foldCost_qty : (foldCost rows).qty = Trade.position (trades rows) := by
  rw [foldCost_eq]
  exact Trade.qty_holding

lemma foldCost_average (open_ : (foldCost rows).qty ≠ 0) :
    (foldCost rows).basis / |(foldCost rows).qty| = (Trade.holding (trades rows)).average := by
  have size : |(foldCost rows).qty| ≠ 0 := abs_ne_zero.2 open_
  rw [foldCost_eq] at size ⊢
  exact mul_div_cancel_left₀ _ size

lemma average_pos (positive : ∀ r ∈ rows, 0 < r.1.qty ∧ 0 < r.1.price) (open_ : (foldCost rows).qty ≠ 0) :
    0 < (Trade.holding (trades rows)).average := by
  rw [foldCost_qty] at open_
  obtain ⟨⟨t, run, le⟩, -⟩ := Trade.average_between (trades rows) open_
  obtain ⟨before, after, eq, -⟩ := run
  have mem : t ∈ trades rows := by
    rw [eq]
    exact mem_append_right _ mem_cons_self
  obtain ⟨r, from_r, rfl⟩ := mem_map.1 mem
  exact (positive r from_r).2.trans_le le

end Fold

/-- The loop of `recompute` ends with the signed sum of the quantities and a cost basis that is zero exactly when
flat; the cost of a share lies between the prices since the position last was flat, and a partial exit leaves it. -/
theorem position_fold (rows : List (Fill × OrderSide)) (positive : ∀ r ∈ rows, 0 < r.1.qty ∧ 0 < r.1.price) :
    (foldCost rows).qty = (rows.map fun r => if r.2 = .buy then r.1.qty else -r.1.qty).sum ∧
    0 ≤ (foldCost rows).basis ∧ ((foldCost rows).basis = 0 ↔ (foldCost rows).qty = 0) ∧ ((foldCost rows).qty ≠ 0 →
      (∃ t, Trade.InRun (trades rows) t ∧ t.price ≤ (foldCost rows).basis / |(foldCost rows).qty|) ∧
      ∃ t, Trade.InRun (trades rows) t ∧ (foldCost rows).basis / |(foldCost rows).qty| ≤ t.price) ∧
    ∀ r : Fill × OrderSide, 0 < r.1.qty → 0 < r.1.price →
      (signedTrade r.2 r.1.qty r.1.price).qty * (foldCost rows).qty < 0 →
      0 < (foldCost (rows ++ [r])).qty * (foldCost rows).qty →
      (foldCost (rows ++ [r])).basis / |(foldCost (rows ++ [r])).qty| =
        (foldCost rows).basis / |(foldCost rows).qty| := by
  have basis : (foldCost rows).basis = |(foldCost rows).qty| * (Trade.holding (trades rows)).average := by
    rw [foldCost_eq]
    rfl
  refine ⟨?_, ?_, ?_, fun open_ => ?_, fun r _ _ against stays => ?_⟩
  · rw [foldCost_qty, Trade.position, trades, map_map]
    rfl
  · rw [basis]
    by_cases flat : (foldCost rows).qty = 0
    · rw [flat, abs_zero, zero_mul]
    · exact mul_nonneg (abs_nonneg _) (average_pos positive flat).le
  · rw [basis, mul_eq_zero, abs_eq_zero]
    refine or_iff_left_of_imp fun free => ?_
    by_contra open_
    exact (average_pos positive open_).ne' free
  · rw [foldCost_average open_]
    rw [foldCost_qty] at open_
    exact Trade.average_between (trades rows) open_
  · have open_ := right_ne_zero_of_mul stays.ne'
    have open' := left_ne_zero_of_mul stays.ne'
    rw [foldCost_average open_, foldCost_average open', trades_concat, Trade.holding_concat]
    rw [foldCost_qty] at against stays
    rw [foldCost_qty, trades_concat, Trade.position_concat, mul_comm] at stays
    rw [mul_comm] at against
    apply Holding.average_add_of_reduce
    · rwa [Trade.qty_holding]
    · rw [Trade.qty_holding]
      exact against.le

/-- A fill of `qty` shares at a price. -/
def fillAt (qty price : ℚ) : Fill where
  orderId := 0
  brokerFillId := none
  qty := qty
  price := price
  filledAt := 0

def boughtTwice : List (Fill × OrderSide) := [(fillAt 10 100, .buy), (fillAt 5 130, .buy), (fillAt 3 90, .sell)]

/-- The loop ends with 12 shares at 110. -/
theorem position_fold_boughtTwice :
    (foldCost boughtTwice).qty = 12 ∧ 0 ≤ (foldCost boughtTwice).basis ∧
      (foldCost boughtTwice).basis / |(foldCost boughtTwice).qty| = 110 ∧
      ∃ t, Trade.InRun (trades boughtTwice) t ∧ 110 ≤ t.price := by
  have positive : ∀ r ∈ boughtTwice, 0 < r.1.qty ∧ 0 < r.1.price := by decide +kernel
  obtain ⟨-, nonneg, -, between, -⟩ := position_fold boughtTwice positive
  have qty : (foldCost boughtTwice).qty = 12 := by decide +kernel
  have average : (foldCost boughtTwice).basis / |(foldCost boughtTwice).qty| = 110 := by decide +kernel
  obtain ⟨-, t, run, le⟩ := between (by rw [qty]; decide)
  exact ⟨qty, nonneg, average, t, run, average ▸ le⟩

end Workbench.Orders
