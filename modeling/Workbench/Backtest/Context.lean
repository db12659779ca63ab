import Workbench.Risk.Types

/-!
# The backtest context

Model of `app/strategies/backtest_context.py`. `BacktestContext` is the simulated counterpart of the
context a strategy runs with: it serves bars up to a cursor, queues market orders, fills them at the
open of the bar the cursor has moved to, keeps cash and positions, and marks them at the close.

A frame is the list of rows of one symbol. One integer, `cursor`, indexes every frame; the first symbol
is the clock. Symbols are upper-cased where they enter, so the lookups by a symbol of the context or of a
queued order take it as it is. Prices are exact (`Decimal(str(x))`), `slippage` is `slippage_bps / 10000`.
-/

namespace Workbench.Backtest
open Workbench.Lib Workbench.Risk

/-- A row of a bar frame (`t`, `o`, `h`, `l`, `c`, `v`). -/
structure Row where
  t : Instant
  o : ℚ
  h : ℚ
  l : ℚ
  c : ℚ
  v : Nat
  deriving DecidableEq, Repr

/-- The frames by symbol (`bars_by_symbol`), in the order they were loaded. -/
abbrev Frames := Dict String (List Row)

/-- The side of a simulated position. -/
inductive PositionSide where
  | long
  | short
  deriving DecidableEq, Repr

/-- Python `_SimPosition`. -/
structure SimPosition where
  symbol : String
  qty : ℚ
  avgEntryPrice : ℚ
  entryTs : Instant
  side : PositionSide
  entryBarIndex : Nat
  deriving DecidableEq

/-- Python `_PendingOrder`; only market orders are queued. -/
structure PendingOrder where
  submitTs : Instant
  symbol : String
  side : OrderSide
  qty : ℚ
  orderId : Nat
  deriving DecidableEq

/-- Python `FillEvent`, as far as the backtest fills it in. -/
structure FillEvent where
  fillId : Nat
  orderId : Nat
  symbol : String
  side : OrderSide
  qty : ℚ
  price : ℚ
  filledAt : Instant
  deriving DecidableEq

/-- Python `_FakeOrderResult`. -/
structure FakeOrderResult where
  orderId : Int
  status : String
  rejectionReason : Option String
  deriving DecidableEq

/-- The `exit_reason` of a trade. -/
inductive ExitReason where
  | exitSignal
  | backtestEnd
  deriving DecidableEq, Repr

/-- Python `BacktestTrade`. -/
structure BacktestTrade where
  symbol : String
  side : PositionSide
  entryTs : Instant
  entryPrice : ℚ
  exitTs : Instant
  exitPrice : ℚ
  qty : ℚ
  pnl : ℚ
  durationSeconds : Int
  barCountHeld : Nat
  exitReason : ExitReason
  deriving DecidableEq

/-- Python `BacktestContext`. -/
structure Context where
  symbols : List String
  frames : Frames
  initialEquity : ℚ
  slippage : ℚ
  commissionPerShare : ℚ
  cursor : Nat := 0
  cash : ℚ := initialEquity
  positions : Dict String SimPosition := .empty
  pendingOrders : List PendingOrder := []
  trades : List BacktestTrade := []
  equityCurve : List (Instant × ℚ) := []
  settledFills : List FillEvent := []
  orderSeq : Nat := 0
  fillSeq : Nat := 0

def Frames.at (frames : Frames) (symbol : String) (i : Nat) : Option Row :=
  (frames.get symbol).bind (·[i]?)

/-- A fill on top of a position of the same side. -/
def SimPosition.add (position : SimPosition) (qty fillPrice : ℚ) : SimPosition :=
  let totalQty := position.qty + qty
  { position with
    qty := totalQty
    avgEntryPrice := (position.avgEntryPrice * position.qty + fillPrice * qty) / totalQty }

/-- What a position adds to the equity at a close. -/
def SimPosition.mark (position : SimPosition) (close : ℚ) : ℚ :=
  match position.side with
  | .long => close * position.qty
  | .short => (position.avgEntryPrice - close) * position.qty + position.avgEntryPrice * position.qty

namespace Context

/-- Python `__init__`. -/
def init (symbols : List String) (frames : Frames) (initialEquity slippage commissionPerShare : ℚ) : Context :=
  { symbols := symbols.map upper, frames, initialEquity, slippage, commissionPerShare }

/-- Python `_advance_cursor`. -/
def advanceCursor (ctx : Context) (idx : Nat) : Context := { ctx with cursor := idx }

/-- Python `_current_bar_for`. -/
def currentBarFor (ctx : Context) (symbol : String) : Option Row := ctx.frames.at symbol ctx.cursor

/-- Python `_next_bar_open`. -/
def nextBarOpen (ctx : Context) (symbol : String) : Option ℚ := (ctx.currentBarFor symbol).map (·.o)

/-- Python `_current_bar_ts`. -/
def currentBarTs (ctx : Context) : Option Instant :=
  ctx.symbols.head?.bind fun symbol => (ctx.currentBarFor symbol).map (·.t)

/-! ## Settling -/

/-- Python `_close_or_reduce`. -/
def closeOrReduce (ctx : Context) (position : SimPosition) (qty exitPrice : ℚ) (exitTs : Instant)
    (exitReason : ExitReason) : Context :=
  let closingQty := min position.qty qty
  let pnl := match position.side with
    | .long => (exitPrice - position.avgEntryPrice) * closingQty
    | .short => (position.avgEntryPrice - exitPrice) * closingQty
  { ctx with
    trades := ctx.trades ++ [{
      symbol := position.symbol
      side := position.side
      entryTs := position.entryTs
      entryPrice := position.avgEntryPrice
      exitTs := exitTs
      exitPrice := exitPrice
      qty := closingQty
      pnl := pnl
      durationSeconds := ((exitTs : Int) - position.entryTs).tdiv 1000000
      barCountHeld := ctx.cursor - position.entryBarIndex
      exitReason := exitReason }]
    positions :=
      if position.qty ≤ closingQty then ctx.positions.erase position.symbol
      else ctx.positions.set position.symbol { position with qty := position.qty - closingQty } }

/-- Python `_apply_fill_to_position`. -/
def applyFillToPosition (ctx : Context) (symbol : String) (side : OrderSide) (qty fillPrice : ℚ)
    (ts : Instant) : Context :=
  let opened (side : PositionSide) : Context :=
    { ctx with positions := ctx.positions.set symbol ⟨symbol, qty, fillPrice, ts, side, ctx.cursor⟩ }
  let added (current : SimPosition) : Context :=
    { ctx with positions := ctx.positions.set symbol (current.add qty fillPrice) }
  match side, ctx.positions.get symbol with
  | .buy, none => opened .long
  | .buy, some current =>
    match current.side with
    | .long => added current
    | .short => ctx.closeOrReduce current qty fillPrice ts .exitSignal
  | .sell, none => opened .short
  | .sell, some current =>
    match current.side with
    | .long => ctx.closeOrReduce current qty fillPrice ts .exitSignal
    | .short => added current

/-- The price of a fill: buys pay up, sells receive less. -/
def fillPrice (ctx : Context) (side : OrderSide) (openPx : ℚ) : ℚ :=
  match side with
  | .buy => openPx + openPx * ctx.slippage
  | .sell => openPx - openPx * ctx.slippage

def cashFlow (commissionPerShare : ℚ) (side : OrderSide) (qty price : ℚ) : ℚ :=
  match side with
  | .buy => -(price * qty + commissionPerShare * qty)
  | .sell => price * qty - commissionPerShare * qty

def pay (ctx : Context) (side : OrderSide) (qty price : ℚ) : Context :=
  { ctx with cash := ctx.cash + cashFlow ctx.commissionPerShare side qty price }

/-- One fill of the loop of `_settle_pending_orders`. -/
def fillOrder (ctx : Context) (po : PendingOrder) (openPx : ℚ) (now : Instant) : Context × FillEvent :=
  let price := ctx.fillPrice po.side openPx
  let held := (ctx.pay po.side po.qty price).applyFillToPosition po.symbol po.side po.qty price now
  let fill : FillEvent := ⟨held.fillSeq + 1, po.orderId, po.symbol, po.side, po.qty, price, now⟩
  ({ held with fillSeq := held.fillSeq + 1, settledFills := held.settledFills ++ [fill] }, fill)

/-- One order of the loop of `_settle_pending_orders`, which keeps what has no bar yet. -/
def settleOrder (now : Instant) (acc : Context × List PendingOrder × List FillEvent) (po : PendingOrder) :
    Context × List PendingOrder × List FillEvent :=
  match acc.1.nextBarOpen po.symbol with
  | none => (acc.1, acc.2.1 ++ [po], acc.2.2)
  | some openPx =>
    let (ctx, fill) := acc.1.fillOrder po openPx now
    (ctx, acc.2.1, acc.2.2 ++ [fill])

/-- Python `_settle_pending_orders`. -/
def settlePendingOrders (ctx : Context) (now : Instant) : Context × List FillEvent :=
  let acc := ctx.pendingOrders.foldl (settleOrder now) (ctx, [], [])
  ({ acc.1 with pendingOrders := acc.2.1 }, acc.2.2)

/-! ## Marking -/

/-- The equity of `_mark_to_market` and `get_account_equity`: cash, and every position that has a bar
    at the cursor. -/
def equity (ctx : Context) : ℚ :=
  ctx.positions.entries.foldl (fun equity e =>
    match ctx.currentBarFor e.1 with
    | none => equity
    | some bar => equity + e.2.mark bar.c) ctx.cash

/-- Python `_mark_to_market`. -/
def markToMarket (ctx : Context) (ts : Instant) : Context :=
  { ctx with equityCurve := ctx.equityCurve ++ [(ts, ctx.equity)] }

/-- Python `get_account_equity`. -/
def getAccountEquity (ctx : Context) : Option ℚ :=
  match ctx.currentBarTs with
  | none => if ctx.cursor = 0 then some ctx.initialEquity else none
  | some _ => some ctx.equity

/-! ## The strategy's calls -/

/-- Python `get_recent_bars`. -/
def getRecentBars (ctx : Context) (symbol : String) (n : Nat) : List Row :=
  match ctx.frames.get (upper symbol) with
  | none => []
  | some rows =>
    let endIdx := ctx.cursor + 1
    let startIdx := endIdx - n
    (rows.take endIdx).drop startIdx

/-- Python `submit_order`: only market orders of a positive quantity are queued, on a current bar. -/
def submitOrder (ctx : Context) (request : OrderRequest) : Context × FakeOrderResult :=
  let rejected (reason : String) : Context × FakeOrderResult := (ctx, ⟨-1, "rejected", some reason⟩)
  if request.type ≠ .market then rejected "non_market_orders_unsupported_in_backtest"
  else if request.qty ≤ 0 then rejected "invalid_qty"
  else match ctx.currentBarTs with
    | none => rejected "no_current_bar"
    | some now =>
      ({ ctx with
        orderSeq := ctx.orderSeq + 1
        pendingOrders := ctx.pendingOrders ++
          [⟨now, upper request.symbolTicker, request.side, request.qty, ctx.orderSeq + 1⟩] },
        ⟨ctx.orderSeq + 1, "submitted", none⟩)

/-! ## What a fill touches -/

lemma applyFill_fields (ctx : Context) (symbol : String) (side : OrderSide) (qty price : ℚ) (ts : Instant) :
    ∃ positions trades, ctx.applyFillToPosition symbol side qty price ts = { ctx with positions, trades } := by
  unfold applyFillToPosition
  cases side <;> cases ctx.positions.get symbol with
  | none => exact ⟨_, _, rfl⟩
  | some current => cases h : current.side <;> simp only [h] <;> exact ⟨_, _, rfl⟩

lemma fillOrder_eq (ctx : Context) (po : PendingOrder) (px : ℚ) (now : Instant) : ∃ positions trades,
    (ctx.pay po.side po.qty (ctx.fillPrice po.side px)).applyFillToPosition po.symbol po.side po.qty
        (ctx.fillPrice po.side px) now =
      { ctx.pay po.side po.qty (ctx.fillPrice po.side px) with positions, trades } ∧
    (ctx.fillOrder po px now).1 = { ctx.pay po.side po.qty (ctx.fillPrice po.side px) with
      positions, trades
      fillSeq := ctx.fillSeq + 1
      settledFills := ctx.settledFills ++ [⟨ctx.fillSeq + 1, po.orderId, po.symbol, po.side, po.qty,
        ctx.fillPrice po.side px, now⟩] } := by
  obtain ⟨positions, trades, eq⟩ := applyFill_fields (ctx.pay po.side po.qty (ctx.fillPrice po.side px))
    po.symbol po.side po.qty (ctx.fillPrice po.side px) now
  refine ⟨positions, trades, eq, ?_⟩
  simp only [fillOrder, eq]
  rfl

end Context

end Workbench.Backtest
