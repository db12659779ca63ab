import Workbench.Backtest.Backtester
import Workbench.Lib.Machine

/-!
# Conservation in a backtest

The ledger of a backtest is its settled fills: `net` is the signed quantity of a symbol they add up to,
`ledger` the initial cash with their cash flows and the net quantities at the current close. `Conserved`
says that positions and equity are what the ledger says.

They are as long as every sell is covered by the long quantity held. A sell of more than that closes the
position and drops the rest, though cash books all of it; a sell with nothing held opens a short, which
is marked with its entry notional on top of the proceeds that cash already has.
-/

namespace Workbench.Backtest
open Workbench.Lib Workbench.Risk List Dict
variable {ctx : Context}

/-! ## The ledger -/

def FillEvent.signed (fill : FillEvent) : ℚ :=
  match fill.side with
  | .buy => fill.qty
  | .sell => -fill.qty

def net (fills : List FillEvent) (symbol : String) : ℚ :=
  ((fills.filter (·.symbol = symbol)).map (·.signed)).sum

def SimPosition.signedQty (position : SimPosition) : ℚ :=
  match position.side with
  | .long => position.qty
  | .short => -position.qty

namespace Context

def signedPosition (ctx : Context) (symbol : String) : ℚ :=
  (ctx.positions.get symbol).elim 0 (·.signedQty)

/-- The cash flows of the settled fills, commissions included. -/
def flows (ctx : Context) : ℚ :=
  (ctx.settledFills.map fun f => cashFlow ctx.commissionPerShare f.side f.qty f.price).sum

/-- The net quantity of every symbol at its current close. -/
def marks (ctx : Context) : ℚ :=
  (ctx.frames.entries.map fun e =>
    (ctx.currentBarFor e.1).elim 0 fun bar => net ctx.settledFills e.1 * bar.c).sum

def ledger (ctx : Context) : ℚ := ctx.initialEquity + ctx.flows + ctx.marks

end Context

/-- Positions and equity agree with the ledger, and whatever is held has a current close. -/
structure Conserved (ctx : Context) : Prop where
  position : ∀ symbol, ctx.signedPosition symbol = net ctx.settledFills symbol
  priced : ∀ symbol, net ctx.settledFills symbol ≠ 0 → (ctx.currentBarFor symbol).isSome = true
  equity : ctx.equity = ctx.ledger
  curve : ∀ now, (ctx.markToMarket now).equityCurve = ctx.equityCurve ++ [(now, ctx.ledger)]
  account : ∀ e, ctx.getAccountEquity = some e → e = ctx.ledger

/-! ## The simulation -/

/-- What the harness and the strategy do: a bar (the cursor moves and the pending orders settle), an
    order, a point of the equity curve. -/
inductive Label where
  | bar (idx : Nat) (now : Instant)
  | submit (request : OrderRequest)
  | mark (now : Instant)

def step (ctx : Context) : Label → Option Context
  | .bar idx now => some ((ctx.advanceCursor idx).settlePendingOrders now).1
  | .submit request => some (ctx.submitOrder request).1
  | .mark now => some (ctx.markToMarket now)

def simulation : Machine Context Label := ⟨step⟩

/-- Every sell that fills is covered by the net quantity of its symbol. -/
def Covered (now : Instant) : Context × List PendingOrder × List FillEvent → List PendingOrder → Prop
  | _, [] => True
  | acc, po :: rest =>
    (po.side = .sell → (acc.1.nextBarOpen po.symbol).isSome = true →
      po.qty ≤ net acc.1.settledFills po.symbol) ∧
    Covered now (Context.settleOrder now acc po) rest

/-- A bar settles covered sells only, and finds a bar for every symbol that is held. -/
def Orderly (ctx : Context) : Label → Prop
  | .bar idx now => Covered now (ctx.advanceCursor idx, [], []) ctx.pendingOrders ∧
      ∀ symbol, net ctx.settledFills symbol ≠ 0 → (ctx.frames.at symbol idx).isSome = true
  | _ => True

/-! ## One fill -/

/-- The positions agree with the ledger, and everything held is long. -/
structure LongBook (ctx : Context) : Prop where
  symbol : ∀ k p, ctx.positions.get k = some p → p.symbol = k
  long : ∀ k p, ctx.positions.get k = some p → p.side = .long ∧ 0 < p.qty
  position : ∀ k, ctx.signedPosition k = net ctx.settledFills k

/-- The books agree with the ledger. -/
structure Booked (ctx : Context) : Prop extends LongBook ctx where
  cash : ctx.cash = ctx.initialEquity + ctx.flows
  pending : ∀ po ∈ ctx.pendingOrders, 0 < po.qty

section Fill
variable {ctx : Context} {po : PendingOrder} {px : ℚ} {now : Instant}

lemma net_append {fills : List FillEvent} {fill : FillEvent} {k : String} :
    net (fills ++ [fill]) k = net fills k + if fill.symbol = k then fill.signed else 0 := by
  unfold net
  rw [filter_append, map_append, sum_append]
  by_cases eq : fill.symbol = k <;> simp [eq]

lemma applyFill_positions (ts : Instant) (price : ℚ) (h : LongBook ctx) (pos : 0 < po.qty)
    (covered : po.side = .sell → po.qty ≤ net ctx.settledFills po.symbol) :
    let after := ctx.applyFillToPosition po.symbol po.side po.qty price ts
    (∀ k, k ≠ po.symbol → after.positions.get k = ctx.positions.get k) ∧
    (∀ p, after.positions.get po.symbol = some p → p.symbol = po.symbol ∧ p.side = .long ∧ 0 < p.qty) ∧
    after.signedPosition po.symbol =
      ctx.signedPosition po.symbol + match po.side with | .buy => po.qty | .sell => -po.qty := by
  have stored {p : SimPosition} : ∀ k, k ≠ po.symbol → (ctx.positions.set po.symbol p).get k = ctx.positions.get k :=
    fun k ne => get_set_of_ne ne
  unfold Context.applyFillToPosition Context.signedPosition
  cases side : po.side with
  | buy =>
    cases get : ctx.positions.get po.symbol with
    | none =>
      refine ⟨stored, ?_, ?_⟩
      · intro p eq
        rw [get_set_self] at eq
        cases eq
        exact ⟨rfl, rfl, pos⟩
      · simp [SimPosition.signedQty]
    | some current =>
      obtain ⟨long, positive⟩ := h.long _ _ get
      simp only [long]
      refine ⟨stored, ?_, ?_⟩
      · intro p eq
        rw [get_set_self] at eq
        cases eq
        exact ⟨h.symbol po.symbol current get, long, add_pos positive pos⟩
      · simp [SimPosition.signedQty, SimPosition.add, long]
  | sell =>
    have enough := covered side
    rw [← h.position, Context.signedPosition] at enough
    cases get : ctx.positions.get po.symbol with
    | none =>
      rw [get] at enough
      exact absurd enough (not_le.2 pos)
    | some current =>
      obtain ⟨long, positive⟩ := h.long _ _ get
      have symbol := h.symbol _ _ get
      rw [get] at enough
      have enough : po.qty ≤ current.qty := by simpa [SimPosition.signedQty, long] using enough
      simp only [long, Context.closeOrReduce, min_eq_right enough, symbol]
      by_cases all : current.qty ≤ po.qty
      · rw [if_pos all]
        have eq : current.qty = po.qty := le_antisymm all enough
        refine ⟨fun k ne => by rw [get_erase, if_neg ne], ?_, ?_⟩
        · intro p eq
          rw [get_erase, if_pos rfl] at eq
          cases eq
        · simp [get_erase, SimPosition.signedQty, long, eq]
      · rw [if_neg all]
        refine ⟨stored, ?_, ?_⟩
        · intro p eq
          rw [get_set_self] at eq
          cases eq
          exact ⟨rfl, rfl, sub_pos.2 (not_le.1 all)⟩
        · simp [SimPosition.signedQty, long, sub_eq_add_neg]

lemma booked_fillOrder (h : Booked ctx) (pos : 0 < po.qty)
    (covered : po.side = .sell → po.qty ≤ net ctx.settledFills po.symbol) : Booked (ctx.fillOrder po px now).1 := by
  have paid : LongBook (ctx.pay po.side po.qty (ctx.fillPrice po.side px)) := ⟨h.symbol, h.long, h.position⟩
  obtain ⟨others, own, moved⟩ :=
    applyFill_positions now (ctx.fillPrice po.side px) paid pos covered
  obtain ⟨positions, trades, eq, after⟩ := Context.fillOrder_eq ctx po px now
  rw [eq] at others own moved
  rw [after]
  refine ⟨⟨?_, ?_, ?_⟩, ?_, h.pending⟩
  · intro k p get
    by_cases same : k = po.symbol
    · subst same
      exact (own p get).1
    · exact h.symbol k p ((others k same).symm.trans get)
  · intro k p get
    by_cases same : k = po.symbol
    · subst same
      exact (own p get).2
    · exact h.long k p ((others k same).symm.trans get)
  · intro k
    show (positions.get k).elim 0 (·.signedQty) = _
    rw [net_append]
    by_cases same : k = po.symbol
    · subst same
      rw [if_pos rfl, ← h.position]
      exact moved
    · rw [if_neg (Ne.symm same), add_zero, ← h.position, show positions.get k = _ from others k same]
      rfl
  · show ctx.cash + Context.cashFlow ctx.commissionPerShare po.side po.qty (ctx.fillPrice po.side px) =
      ctx.initialEquity + ((ctx.settledFills ++ [_]).map fun f : FillEvent =>
        Context.cashFlow ctx.commissionPerShare f.side f.qty f.price).sum
    rw [map_append, sum_append, map_singleton, sum_singleton, h.cash, add_assoc]
    rfl

lemma fillOrder_fields (px : ℚ) (now : Instant) (bar : (ctx.nextBarOpen po.symbol).isSome = true) :
    (ctx.fillOrder po px now).1.cursor = ctx.cursor ∧ (ctx.fillOrder po px now).1.frames = ctx.frames ∧
    (ctx.fillOrder po px now).1.symbols = ctx.symbols ∧ ∀ k, net (ctx.fillOrder po px now).1.settledFills k ≠ 0 →
      net ctx.settledFills k ≠ 0 ∨ (ctx.frames.at k ctx.cursor).isSome = true := by
  obtain ⟨positions, trades, -, after⟩ := Context.fillOrder_eq ctx po px now
  rw [after]
  refine ⟨rfl, rfl, rfl, ?_⟩
  intro k held
  rw [net_append] at held
  by_cases same : po.symbol = k
  · subst same
    exact .inr (by simpa [Context.nextBarOpen, Context.currentBarFor] using bar)
  · rw [if_neg same, add_zero] at held
    exact .inl held

end Fill

/-! ## One bar -/

section Bar

/-- What the settling loop keeps: the books, the cursor and frames, and that a symbol held after it was
    held before or has a bar. -/
structure Settling (before : Context) (idx : Nat) (acc : Context × List PendingOrder × List FillEvent) :
    Prop where
  booked : Booked acc.1
  cursor : acc.1.cursor = idx
  frames : acc.1.frames = before.frames
  symbols : acc.1.symbols = before.symbols
  remaining : ∀ po ∈ acc.2.1, 0 < po.qty
  held : ∀ k, net acc.1.settledFills k ≠ 0 →
    net before.settledFills k ≠ 0 ∨ (before.frames.at k idx).isSome = true

lemma settling_loop (now : Instant) {before : Context} {idx : Nat} {orders : List PendingOrder}
    {acc : Context × List PendingOrder × List FillEvent} (h : Settling before idx acc)
    (positive : ∀ po ∈ orders, 0 < po.qty) (covered : Covered now acc orders) :
    Settling before idx (orders.foldl (Context.settleOrder now) acc) := by
  induction orders generalizing acc with
  | nil => exact h
  | cons po orders ih =>
    rw [foldl_cons]
    obtain ⟨sell, covered⟩ := covered
    refine ih ?_ (fun po' mem => positive po' (mem_cons_of_mem _ mem)) covered
    have pos := positive po mem_cons_self
    unfold Context.settleOrder
    cases bar : acc.1.nextBarOpen po.symbol with
    | none =>
      refine ⟨h.booked, h.cursor, h.frames, h.symbols, ?_, h.held⟩
      intro po' mem
      rcases mem_append.1 mem with mem | mem
      · exact h.remaining po' mem
      · rw [mem_singleton.1 mem]
        exact pos
    | some px =>
      have bar : (acc.1.nextBarOpen po.symbol).isSome = true := by rw [bar]; rfl
      obtain ⟨cursor, frames', symbols, new⟩ := fillOrder_fields px now bar
      refine ⟨booked_fillOrder h.booked pos fun side => sell side bar, cursor.trans h.cursor,
        frames'.trans h.frames, symbols.trans h.symbols, h.remaining, ?_⟩
      intro k net
      rcases new k net with old | here
      · exact h.held k old
      · rw [h.frames, h.cursor] at here
        exact .inr here

end Bar

/-! ## Runs -/

/-- The first symbol, which is the clock, has a bar somewhere. -/
def Context.Clocked (ctx : Context) : Prop :=
  ∃ symbol i, ctx.symbols.head? = some symbol ∧ (ctx.frames.at symbol i).isSome = true

/-- What every step of an orderly run keeps; without a clock no order is accepted. -/
structure Kept (ctx : Context) : Prop extends Booked ctx where
  priced : ∀ k, net ctx.settledFills k ≠ 0 → (ctx.frames.at k ctx.cursor).isSome = true
  clocked : ctx.pendingOrders ≠ [] ∨ ctx.settledFills ≠ [] → ctx.Clocked

lemma kept_step {ctx' : Context} {l : Label} (h : Kept ctx) (orderly : Orderly ctx l)
    (st : step ctx l = some ctx') : Kept ctx' := by
  cases l with
  | bar idx now =>
    cases st
    have init : Settling ctx idx (ctx.advanceCursor idx, [], []) :=
      ⟨⟨⟨h.symbol, h.long, h.position⟩, h.cash, h.pending⟩, rfl, rfl, rfl, by simp, fun k held => .inl held⟩
    have done := settling_loop now init h.pending orderly.1
    simp only [Context.settlePendingOrders, show (ctx.advanceCursor idx).pendingOrders = ctx.pendingOrders from rfl]
    refine ⟨⟨⟨done.booked.symbol, done.booked.long, done.booked.position⟩, done.booked.cash, done.remaining⟩,
      ?_, ?_⟩
    · intro k held
      rw [done.frames, done.cursor]
      rcases done.held k held with old | here
      · exact orderly.2 k old
      · exact here
    · intro busy
      unfold Context.Clocked
      rw [done.frames, done.symbols]
      apply h.clocked
      -- an empty queue settles nothing
      by_contra idle
      rw [not_or, not_ne_iff, not_ne_iff] at idle
      rw [idle.1] at busy
      simp [Context.advanceCursor, idle.2] at busy
  | submit request =>
    cases st
    unfold Context.submitOrder
    split
    · exact h
    · split
      · exact h
      rename_i positive
      split
      · exact h
      · rename_i ts clock
        refine ⟨⟨⟨h.symbol, h.long, h.position⟩, h.cash, ?_⟩, h.priced, fun _ => ?_⟩
        · intro po mem
          rcases mem_append.1 mem with mem | mem
          · exact h.pending po mem
          · rw [mem_singleton.1 mem]
            exact not_le.1 positive
        · obtain ⟨symbol, head, bar⟩ := Option.bind_eq_some_iff.1 clock
          refine ⟨symbol, ctx.cursor, head, ?_⟩
          obtain ⟨row, get, -⟩ := Option.map_eq_some_iff.1 bar
          exact Option.isSome_iff_exists.2 ⟨row, get⟩
  | mark now =>
    cases st
    exact ⟨⟨⟨h.symbol, h.long, h.position⟩, h.cash, h.pending⟩, h.priced, h.clocked⟩

lemma equity_eq_sum : ctx.equity = ctx.cash + (ctx.positions.entries.map fun e =>
      (ctx.currentBarFor e.1).elim 0 fun bar => e.2.mark bar.c).sum := by
  unfold Context.equity
  generalize ctx.cash = cash
  induction ctx.positions.entries generalizing cash with
  | nil => simp
  | cons e entries ih =>
    rw [foldl_cons, ih, map_cons, sum_cons]
    cases ctx.currentBarFor e.1 with
    | none => simp
    | some bar => exact add_assoc ..

lemma Kept.marks (h : Kept ctx) :
    (ctx.positions.entries.map fun e => (ctx.currentBarFor e.1).elim 0 fun bar => e.2.mark bar.c).sum = ctx.marks := by
  have qty {k : String} {p : SimPosition} (get : ctx.positions.get k = some p) :
      p.side = .long ∧ net ctx.settledFills k = p.qty ∧ (ctx.frames.get k).isSome = true := by
    obtain ⟨long, positive⟩ := h.long k p get
    have net : net ctx.settledFills k = p.qty := by
      rw [← h.position, Context.signedPosition, get]
      simp [SimPosition.signedQty, long]
    have priced := h.priced k (by rw [net]; exact ne_of_gt positive)
    refine ⟨long, net, ?_⟩
    unfold Frames.at at priced
    cases framed : ctx.frames.get k with
    | none => rw [framed] at priced; cases priced
    | some => rfl
  calc
    _ = ∑ k ∈ (ctx.frames.entries.map Prod.fst).toFinset,
        (ctx.positions.get k).elim 0 fun p => (ctx.currentBarFor k).elim 0 fun bar => p.mark bar.c := by
      apply sum_entries_of_support fun k (p : SimPosition) => (ctx.currentBarFor k).elim 0 fun bar => p.mark bar.c
      intro k p get out
      rw [mem_toFinset, Dict.mem_keys] at out
      exact absurd (qty get).2.2 out
    _ = ∑ k ∈ (ctx.frames.entries.map Prod.fst).toFinset,
        (ctx.frames.get k).elim 0 fun _ => (ctx.currentBarFor k).elim 0 fun bar => net ctx.settledFills k * bar.c := by
      apply Finset.sum_congr rfl
      intro k mem
      rw [mem_toFinset, Dict.mem_keys] at mem
      obtain ⟨rows, framed⟩ := Option.isSome_iff_exists.1 mem
      rw [framed]
      cases get : ctx.positions.get k with
      | none =>
        have flat : net ctx.settledFills k = 0 := by
          rw [← h.position, Context.signedPosition, get]
          rfl
        cases ctx.currentBarFor k <;> simp [flat]
      | some p =>
        obtain ⟨long, net, -⟩ := qty get
        simp only [Option.elim_some, SimPosition.mark, long, net, mul_comm]
    _ = ctx.marks := by
      rw [Context.marks]
      exact (sum_entries fun k (_ : List Row) =>
        (ctx.currentBarFor k).elim 0 fun bar => net ctx.settledFills k * bar.c).symm

lemma Kept.settledFills_eq_nil (h : Kept ctx) (none : ctx.currentBarTs = none)
    (first : ctx.cursor = 0) : ctx.settledFills = [] := by
  by_contra filled
  obtain ⟨symbol, i, head, bar⟩ := h.clocked (.inr filled)
  obtain ⟨row, get⟩ := Option.isSome_iff_exists.1 bar
  obtain ⟨rows, framed, at_i⟩ := Option.bind_eq_some_iff.1 get
  cases rows with
  | nil => cases at_i
  | cons row₀ rest =>
    rw [Context.currentBarTs, head, Option.bind_some, Context.currentBarFor, Frames.at, first, framed] at none
    cases none

lemma ledger_of_nil (none : ctx.settledFills = []) : ctx.ledger = ctx.initialEquity := by
  have flows : ctx.flows = 0 := by simp [Context.flows, none]
  have marks : ctx.marks = 0 := by
    unfold Context.marks
    apply sum_eq_zero
    intro x mem
    obtain ⟨e, -, rfl⟩ := mem_map.1 mem
    cases ctx.currentBarFor e.1 <;> simp [net, none]
  rw [Context.ledger, flows, marks, add_zero, add_zero]

lemma Kept.conserved (h : Kept ctx) : Conserved ctx := by
  have equity : ctx.equity = ctx.ledger := by
    rw [equity_eq_sum, h.marks, h.cash]
    rfl
  refine ⟨h.position, h.priced, equity, fun now => by rw [Context.markToMarket, equity], ?_⟩
  intro e account
  unfold Context.getAccountEquity at account
  split at account
  · rename_i none
    split at account
    · rename_i first
      cases account
      exact (ledger_of_nil (h.settledFills_eq_nil none first)).symm
    · cases account
  · cases account
    exact equity

/-- In every run of bars, orders and marks in which every sell that fills is covered by the quantity
    held and every symbol held has a bar, positions and equity are what the settled fills say. -/
theorem backtest_conserves {symbols : List String} {frames : Frames}
    {initialEquity slippage commissionPerShare : ℚ} {labels : List Label} {ctx : Context}
    (orderly : simulation.Meets Orderly (.init symbols frames initialEquity slippage commissionPerShare) labels)
    (run : simulation.run (.init symbols frames initialEquity slippage commissionPerShare) labels = some ctx) :
    Conserved ctx := by
  have start : Kept (.init symbols frames initialEquity slippage commissionPerShare) := by
    refine ⟨⟨⟨?_, ?_, ?_⟩, ?_, ?_⟩, ?_, ?_⟩
    · intro k p get
      simp [Context.init] at get
    · intro k p get
      simp [Context.init] at get
    · intro k
      simp [Context.init, Context.signedPosition, net]
    · simp [Context.init, Context.flows]
    · simp [Context.init]
    · intro k held
      simp [Context.init, net] at held
    · simp [Context.init]
  exact (Machine.run_invariant (I := Kept) kept_step start orderly run).conserved

/-! ## Small backtests -/

lemma mem_of_net_ne_zero {fills : List FillEvent} {k : String} (held : net fills k ≠ 0) :
    k ∈ fills.map FillEvent.symbol := by
  by_contra never
  apply held
  have none : fills.filter (·.symbol = k) = [] := filter_key_eq_nil never
  simp [net, none]

instance decidableCovered (now : Instant) : ∀ acc orders, Decidable (Covered now acc orders)
  | _, [] => isTrue trivial
  | acc, po :: rest =>
    have : Decidable (Covered now (Context.settleOrder now acc po) rest) := decidableCovered now _ rest
    inferInstanceAs (Decidable (_ ∧ _))

instance decidablePriced (ctx : Context) (idx : Nat) :
    Decidable (∀ symbol, net ctx.settledFills symbol ≠ 0 → (ctx.frames.at symbol idx).isSome = true) :=
  decidable_of_iff (∀ symbol ∈ ctx.settledFills.map FillEvent.symbol,
      net ctx.settledFills symbol ≠ 0 → (ctx.frames.at symbol idx).isSome = true)
    ⟨fun h symbol held => h symbol (mem_of_net_ne_zero held) held, fun h symbol _ => h symbol⟩

instance decidableOrderly (ctx : Context) : ∀ l, Decidable (Orderly ctx l)
  | .bar _ _ => inferInstanceAs (Decidable (_ ∧ _))
  | .submit _ => isTrue trivial
  | .mark _ => isTrue trivial

def flatContext : Context :=
  .init ["A"] ⟨[("A", [⟨0, 100, 100, 100, 100, 0⟩, ⟨1, 100, 100, 100, 100, 0⟩, ⟨2, 100, 100, 100, 100, 0⟩])],
    by decide⟩ 1000 0 0

def marketOrder (side : OrderSide) (qty : ℚ) : OrderRequest where
  userId := 0
  accountId := 0
  symbolTicker := "A"
  side := side
  qty := qty

def coveredRun : List Label :=
  [.bar 0 0, .submit (marketOrder .buy 1), .mark 0, .bar 1 1, .submit (marketOrder .sell (1 / 2)), .mark 1,
    .bar 2 2, .mark 2]

theorem covered_run_conserves :
    ∃ ctx, simulation.run flatContext coveredRun = some ctx ∧ ctx.signedPosition "A" = 1 / 2 ∧ Conserved ctx := by
  obtain ⟨ctx, run⟩ : ∃ ctx, simulation.run flatContext coveredRun = some ctx :=
    Option.isSome_iff_exists.1 (by decide +kernel)
  exact ⟨ctx, run, Machine.observe (f := fun ctx => ctx.signedPosition "A") run (by decide +kernel),
    backtest_conserves (by decide +kernel) run⟩

/-- A share is sold short at 100 and nothing moves: the equity goes from 1000 to 1200. Two shares are
    sold where one is held: the position is flat and not short. -/
theorem uncovered_sells_not_conserved :
    (∃ ctx, simulation.run flatContext
        [.bar 0 0, .submit (marketOrder .sell 1), .mark 0, .bar 1 1, .mark 1] = some ctx ∧
      ctx.getAccountEquity = some 1200 ∧ ctx.ledger = 1000 ∧ ¬ Conserved ctx) ∧ ∃ ctx, simulation.run flatContext
        [.bar 0 0, .submit (marketOrder .buy 1), .mark 0, .bar 1 1, .submit (marketOrder .sell 2), .mark 1,
          .bar 2 2, .mark 2] = some ctx ∧
      ctx.signedPosition "A" = 0 ∧ net ctx.settledFills "A" = -1 ∧ ¬ Conserved ctx := by
  refine ⟨?_, ?_⟩
  · obtain ⟨ctx, run⟩ : ∃ ctx, simulation.run flatContext
        [.bar 0 0, .submit (marketOrder .sell 1), .mark 0, .bar 1 1, .mark 1] = some ctx :=
      Option.isSome_iff_exists.1 (by decide +kernel)
    have equity := Machine.observe (f := fun ctx => ctx.getAccountEquity) run (x := some 1200) (by decide +kernel)
    have ledger := Machine.observe (f := fun ctx => ctx.ledger) run (x := 1000) (by decide +kernel)
    refine ⟨ctx, run, equity, ledger, fun conserved => ?_⟩
    have same := conserved.account _ equity
    rw [ledger] at same
    norm_num at same
  · obtain ⟨ctx, run⟩ : ∃ ctx, simulation.run flatContext
        [.bar 0 0, .submit (marketOrder .buy 1), .mark 0, .bar 1 1, .submit (marketOrder .sell 2), .mark 1,
          .bar 2 2, .mark 2] = some ctx :=
      Option.isSome_iff_exists.1 (by decide +kernel)
    have position := Machine.observe (f := fun ctx => ctx.signedPosition "A") run (x := 0) (by decide +kernel)
    have sold := Machine.observe (f := fun ctx => net ctx.settledFills "A") run (x := -1) (by decide +kernel)
    refine ⟨ctx, run, position, sold, fun conserved => ?_⟩
    have same := conserved.position "A"
    rw [position, sold] at same
    norm_num at same

end Workbench.Backtest
