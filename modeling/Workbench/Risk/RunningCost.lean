import Workbench.Orders.AverageEntry
import Workbench.Risk.CircuitBreaker

/-!
# The breaker's average cost

The loop of `_compute_realized_pnl_today` (`app/risk/circuit_breaker.py`) keeps an average cost of its own beside the
one of `PositionRecomputer.recompute`. `book_held`, `book_cost` and `book_realized` say what one fill does to the
dictionaries of the loop; the rest of the module is about whole histories. Once a symbol is long out of a flat
position the two averages agree (`cost_of_longFromFlat`), and while no purchase covers a short the loop keeps the
books of the cash account (`realized_sub_carried`).
-/

set_option linter.dupNamespace false

namespace Workbench.Risk
open Workbench.Lib Workbench.Orders List Dict

def FillRow.trade (row : FillRow) : Trade ℚ := signedTrade row.side row.qty row.price

def symbolTrades (symbolId : Nat) (rows : List FillRow) : List (Trade ℚ) :=
  (rows.filter (·.symbolId = symbolId)).map FillRow.trade

def bookOf (marketOpen : Int) (rows : List FillRow) : CostBook := rows.foldl (CostBook.book marketOpen) {}

/-- `qty_held.get(symbol_id, Decimal("0"))`. -/
def CostBook.held (book : CostBook) (symbolId : Nat) : ℚ := (book.qtyHeld.get symbolId).getD 0

/-- `avg_cost.get(symbol_id, Decimal("0"))`. -/
def CostBook.cost (book : CostBook) (symbolId : Nat) : ℚ := (book.avgCost.get symbolId).getD 0

def CostBook.carried (book : CostBook) (symbols : Finset Nat) : ℚ := ∑ s ∈ symbols, book.held s * book.cost s

/-- The loop of `recompute` over the rows of a symbol. -/
def recomputed (symbolId : Nat) (rows : List FillRow) : Cost :=
  (rows.filter (·.symbolId = symbolId)).foldl (fun cost row => cost.add row.side row.qty row.price) {}

/-! ## One fill -/

section Book
variable {marketOpen : Int} {book : CostBook} {row : FillRow} {s : Nat}

lemma book_held : (book.book marketOpen row).held s =
    if s = row.symbolId then book.held s + row.trade.qty else book.held s := by
  cases side : row.side with
  | buy =>
    simp only [CostBook.held, CostBook.book, side, FillRow.trade, signedTrade, get_set]
    split
    · rename_i eq
      rw [eq]
      rfl
    · rfl
  | sell =>
    simp only [CostBook.held, CostBook.book, side, FillRow.trade, signedTrade, get_set]
    split
    · rename_i eq
      rw [eq, Option.getD_some, if_neg (by decide), sub_eq_add_neg]
    · rfl

lemma book_cost : (book.book marketOpen row).cost s =
    if s = row.symbolId ∧ row.side = .buy ∧ 0 ≤ book.held s ∧ 0 < book.held s + row.qty then
      (book.cost s * book.held s + row.price * row.qty) / (book.held s + row.qty) else book.cost s := by
  cases side : row.side with
  | buy =>
    simp only [CostBook.cost, CostBook.held, CostBook.book, side, true_and]
    by_cases eq : s = row.symbolId
    · subst eq
      simp only [true_and]
      split
      · rw [get_set_self]
        rfl
      · rfl
    · simp only [eq, false_and, if_false]
      split
      · rw [get_set_of_ne eq]
      · rfl
  | sell =>
    rw [if_neg fun h => by cases h.2.1]
    simp only [CostBook.cost, CostBook.book, side]

lemma book_cost_of_sell (sell : row.side = .sell) : (book.book marketOpen row).cost s = book.cost s := by
  rw [book_cost, sell]
  exact if_neg fun h => nomatch h.2.1

lemma book_cost_of_ne (ne : s ≠ row.symbolId) : (book.book marketOpen row).cost s = book.cost s := by
  rw [book_cost]
  exact if_neg fun h => ne h.1

lemma book_realized : (book.book marketOpen row).realizedToday = book.realizedToday +
      if row.side = .sell ∧ marketOpen ≤ row.filledAt then (row.price - book.cost row.symbolId) * row.qty else 0 := by
  cases side : row.side with
  | buy => simp only [CostBook.book, side, reduceCtorEq, false_and, if_false, add_zero]
  | sell =>
    simp only [CostBook.book, side, true_and]
    split
    · rfl
    · exact (add_zero _).symm

end Book

/-! ## Histories -/

section History
variable {marketOpen : Int} {rows : List FillRow} {row : FillRow} {s : Nat}

@[simp] lemma bookOf_nil : bookOf marketOpen [] = {} := rfl

@[simp] lemma bookOf_concat : bookOf marketOpen (rows ++ [row]) = (bookOf marketOpen rows).book marketOpen row := by
  simp [bookOf]

@[simp] lemma symbolTrades_nil : symbolTrades s [] = [] := rfl

lemma symbolTrades_concat : symbolTrades s (rows ++ [row]) =
    if s = row.symbolId then symbolTrades s rows ++ [row.trade] else symbolTrades s rows := by
  by_cases eq : s = row.symbolId
  · simp [symbolTrades, eq]
  · simp [symbolTrades, eq, Ne.symm eq]

lemma bookOf_held : (bookOf marketOpen rows).held s = Trade.position (symbolTrades s rows) := by
  induction rows using List.reverseRecOn with
  | nil => rfl
  | append_singleton rows row ih =>
    rw [bookOf_concat, book_held, ih, symbolTrades_concat]
    split
    · exact Trade.position_concat.symm
    · rfl

lemma recomputed_eq : recomputed s rows = Cost.of (Trade.holding (symbolTrades s rows)) := by
  rw [recomputed, symbolTrades]
  exact Cost.foldl_add _ FillRow.side FillRow.qty FillRow.price

/-- A row of the recomputer as one of the breaker. -/
def fillRow (symbolId : Nat) (r : Fill × OrderSide) : FillRow :=
  ⟨symbolId, r.2, r.1.qty, r.1.price, r.1.filledAt⟩

lemma map_fillRow {db : Db} {a : Nat} :
    (symbolFills db a s).map (fillRow s) = (fillHistory db a).filter (·.symbolId = s) := by
  rw [symbolFills, fillHistory, Table.filter_insertionSort, filter_filterMap]
  rw [map_insertionSort (fun r r' : Fill × OrderSide => r.1.filledAt ≤ r'.1.filledAt)
    (fun r r' : FillRow => r.filledAt ≤ r'.filledAt) (fillRow s) _ fun _ _ _ _ => Iff.rfl, map_filterMap]
  apply congrArg fun rows : List FillRow => rows.insertionSort fun r r' => r.filledAt ≤ r'.filledAt
  apply congrArg fun row => db.fills.filterMap row
  funext f
  cases db.orders[f.orderId]? with
  | none => rfl
  | some o =>
    by_cases account : o.accountId = a
    · by_cases symbol : o.symbolId = s
      · simp [account, symbol, fillRow, Option.filter]
      · simp [account, symbol, Option.filter]
    · simp [account]

lemma symbolCost_eq_recomputed {db : Db} {a : Nat} : symbolCost db a s = recomputed s (fillHistory db a) := by
  rw [recomputed, ← map_fillRow, foldl_map]
  rfl

lemma computeRealizedPnlToday_eq {db : Db} {a : Nat} {now : Instant} :
    computeRealizedPnlToday db a now = (bookOf (marketOpenUtcToday now) (fillHistory db a)).realizedToday := rfl

end History

/-! ## The averages agree -/

/-- The position is long, and the trade that made it long found it flat. -/
def LongFromFlat (ts : List (Trade ℚ)) : Prop :=
  ∃ before after, ts = before ++ after ∧ after ≠ [] ∧ Trade.position before = 0 ∧
    ∀ p, p <+: after → p ≠ [] → 0 < Trade.position (before ++ p)

section Agree
variable {marketOpen : Int} {rows : List FillRow} {s : Nat} {ts : List (Trade ℚ)} {t : Trade ℚ}

lemma LongFromFlat.pos (long : LongFromFlat ts) : 0 < Trade.position ts := by
  obtain ⟨before, after, rfl, some, -, stays⟩ := long
  exact stays after prefix_rfl some

lemma LongFromFlat.of_concat (long : LongFromFlat (ts ++ [t])) : Trade.position ts = 0 ∨ LongFromFlat ts := by
  obtain ⟨before, after, eq, some, flat, stays⟩ := long
  obtain ⟨front, last, rfl⟩ := (eq_nil_or_concat' after).resolve_left some
  rw [← append_assoc] at eq
  obtain ⟨rfl, -⟩ := append_inj' eq rfl
  cases front with
  | nil =>
    rw [append_nil]
    exact .inl flat
  | cons u front =>
    exact .inr ⟨before, u :: front, rfl, cons_ne_nil _ _, flat, fun p isPrefix =>
      stays p (isPrefix.trans (prefix_append _ _))⟩

lemma cost_of_longFromFlat (sizes : ∀ row ∈ rows, 0 ≤ row.qty) (long : LongFromFlat (symbolTrades s rows)) :
    (bookOf marketOpen rows).cost s = (Trade.holding (symbolTrades s rows)).average := by
  induction rows using List.reverseRecOn with
  | nil => exact absurd long.pos (lt_irrefl 0)
  | append_singleton rows row ih =>
    have earlier : ∀ row ∈ rows, 0 ≤ row.qty := fun row mem => sizes row (mem_append_left _ mem)
    have size : 0 ≤ row.qty := sizes row (mem_append_right _ mem_cons_self)
    rw [bookOf_concat]
    rw [symbolTrades_concat] at long ⊢
    by_cases eq : s = row.symbolId
    · rw [if_pos eq] at long ⊢
      have open_ : 0 < Trade.position (symbolTrades s rows) + row.trade.qty := by
        rw [← Trade.position_concat]
        exact long.pos
      rw [Trade.holding_concat]
      cases side : row.side with
      | buy =>
        have bought : row.trade = ⟨row.qty, row.price⟩ := by simp [FillRow.trade, signedTrade, side]
        rw [bought] at open_ ⊢
        have held : 0 ≤ Trade.position (symbolTrades s rows) := by
          obtain flat | before := long.of_concat
          · exact flat.ge
          · exact before.pos.le
        have same : 0 ≤ (Trade.holding (symbolTrades s rows)).qty * row.qty := by
          rw [Trade.qty_holding]
          exact mul_nonneg held size
        rw [book_cost, bookOf_held, if_pos ⟨eq, side, held, open_⟩]
        rw [Holding.average_add_of_same same, Trade.qty_holding]
        obtain flat | before := long.of_concat
        · simp only [flat, mul_zero, zero_mul, mul_comm row.qty]
        · rw [ih earlier before, mul_comm row.price, mul_comm (Trade.position _)]
      | sell =>
        have sold : row.trade = ⟨-row.qty, row.price⟩ := by simp [FillRow.trade, signedTrade, side]
        rw [sold] at open_ ⊢
        have held : 0 < Trade.position (symbolTrades s rows) := by
          have le : Trade.position (symbolTrades s rows) + -row.qty ≤ Trade.position (symbolTrades s rows) := by
            linarith
          exact open_.trans_le le
        have before : LongFromFlat (symbolTrades s rows) := long.of_concat.resolve_left held.ne'
        rw [book_cost_of_sell side, ih earlier before, Holding.average_add_of_reduce]
        · rw [Trade.qty_holding]
          exact mul_pos held open_
        · rw [Trade.qty_holding]
          exact mul_nonpos_of_nonneg_of_nonpos held.le (neg_nonpos.2 size)
    · rw [if_neg eq] at long ⊢
      rw [book_cost_of_ne eq]
      exact ih earlier long

end Agree

/-! ## The books balance -/

def NeverCovers (rows : List FillRow) : Prop :=
  ∀ (before : List FillRow) (row : FillRow) (after : List FillRow), rows = before ++ row :: after → row.side = .buy →
    0 ≤ Trade.position (symbolTrades row.symbolId before)

section Carried
variable {marketOpen : Int} {book : CostBook} {row : FillRow} {symbols : Finset Nat}

lemma carried_book (mem : row.symbolId ∈ symbols) :
    (book.book marketOpen row).carried symbols = book.carried symbols +
      ((book.book marketOpen row).held row.symbolId * (book.book marketOpen row).cost row.symbolId -
        book.held row.symbolId * book.cost row.symbolId) := by
  have others : ∑ s ∈ symbols.erase row.symbolId, (book.book marketOpen row).held s *
      (book.book marketOpen row).cost s =
      ∑ s ∈ symbols.erase row.symbolId, book.held s * book.cost s := by
    apply Finset.sum_congr rfl
    intro s other
    have ne : s ≠ row.symbolId := Finset.ne_of_mem_erase other
    rw [book_held, if_neg ne, book_cost_of_ne ne]
  rw [CostBook.carried, CostBook.carried, ← Finset.add_sum_erase symbols _ mem, others,
    ← Finset.add_sum_erase symbols _ mem]
  ring

lemma carried_buy (mem : row.symbolId ∈ symbols) (buy : row.side = .buy) (size : 0 ≤ row.qty)
    (held : 0 ≤ book.held row.symbolId) :
    (book.book marketOpen row).carried symbols = book.carried symbols + row.price * row.qty := by
  have bought : row.trade.qty = row.qty := by simp [FillRow.trade, signedTrade, buy]
  rw [carried_book mem, book_held, if_pos rfl, book_cost, bought]
  obtain none | open_ := (add_nonneg held size).eq_or_lt
  · -- nothing was held and nothing was bought
    have flat : book.held row.symbolId = 0 := by linarith
    have nothing : row.qty = 0 := by linarith
    simp [flat, nothing]
  · rw [if_pos ⟨rfl, buy, held, open_⟩, mul_div_cancel₀ _ open_.ne']
    ring

lemma carried_sell (mem : row.symbolId ∈ symbols) (sell : row.side = .sell) :
    (book.book marketOpen row).carried symbols = book.carried symbols - row.qty * book.cost row.symbolId := by
  have sold : row.trade.qty = -row.qty := by simp [FillRow.trade, signedTrade, sell]
  rw [carried_book mem, book_held, if_pos rfl, book_cost_of_sell sell, sold]
  ring

lemma cash_book (mem : row.symbolId ∈ symbols) (since : marketOpen ≤ row.filledAt) (size : 0 ≤ row.qty)
    (covers : row.side = .buy → 0 ≤ book.held row.symbolId) :
    (book.book marketOpen row).realizedToday - (book.book marketOpen row).carried symbols =
      book.realizedToday - book.carried symbols - row.trade.qty * row.trade.price := by
  rw [book_realized]
  cases side : row.side with
  | buy =>
    rw [carried_buy mem side size (covers side), if_neg fun h => nomatch h.1]
    simp only [FillRow.trade, signedTrade, side, if_true]
    ring
  | sell =>
    rw [carried_sell mem side, if_pos ⟨rfl, since⟩]
    simp only [FillRow.trade, signedTrade, side, reduceCtorEq, if_false]
    ring

end Carried

section Balance
variable {marketOpen : Int} {rows : List FillRow} {row : FillRow} {symbols : Finset Nat}

lemma NeverCovers.of_concat (never : NeverCovers (rows ++ [row])) :
    NeverCovers rows ∧ (row.side = .buy → 0 ≤ Trade.position (symbolTrades row.symbolId rows)) := by
  constructor
  · intro before row' after eq
    apply never before row' (after ++ [row])
    rw [eq, append_assoc, cons_append]
  · exact never rows row [] rfl

lemma realized_of_before (before : ∀ row ∈ rows, ¬ marketOpen ≤ row.filledAt) :
    (bookOf marketOpen rows).realizedToday = 0 := by
  induction rows using List.reverseRecOn with
  | nil => rfl
  | append_singleton rows row ih =>
    rw [bookOf_concat, book_realized, ih fun row mem => before row (mem_append_left _ mem), zero_add]
    exact if_neg fun h => before row (mem_append_right _ mem_cons_self) h.2

lemma realized_sub_carried (prior today : List FillRow) (sizes : ∀ row ∈ prior ++ today, 0 ≤ row.qty)
    (never : NeverCovers (prior ++ today)) (before : ∀ row ∈ prior, ¬ marketOpen ≤ row.filledAt)
    (since : ∀ row ∈ today, marketOpen ≤ row.filledAt) (covered : ∀ row ∈ today, row.symbolId ∈ symbols) :
    (bookOf marketOpen (prior ++ today)).realizedToday - (bookOf marketOpen (prior ++ today)).carried symbols =
      Trade.cashFlow (today.map FillRow.trade) - (bookOf marketOpen prior).carried symbols := by
  induction today using List.reverseRecOn with
  | nil => rw [append_nil, realized_of_before before, map_nil, Trade.cashFlow_nil]
  | append_singleton today row ih =>
    rw [← append_assoc] at sizes never ⊢
    have size : 0 ≤ row.qty := sizes row (mem_append_right _ mem_cons_self)
    have last : row ∈ today ++ [row] := mem_append_right _ mem_cons_self
    obtain ⟨earlier, covers⟩ := never.of_concat
    rw [← bookOf_held] at covers
    rw [bookOf_concat, cash_book (covered row last) (since row last) size covers,
      ih (fun row mem => sizes row (mem_append_left _ mem)) earlier
        (fun row mem => since row (mem_append_left _ mem))
        (fun row mem => covered row (mem_append_left _ mem)),
      map_append, map_singleton, Trade.cashFlow_concat]
    ring

end Balance

def builtUp : List FillRow := [⟨1, .buy, 10, 100, 0⟩, ⟨1, .buy, 10, 110, 1⟩, ⟨1, .sell, 5, 120, 2⟩]

def boughtOnce : List FillRow := [⟨1, .buy, 1, 10, 0⟩]

def boughtThrough : List FillRow := [⟨1, .sell, 1, 10, 0⟩, ⟨1, .buy, 2, 20, 1⟩]

end Workbench.Risk
