import Workbench.Backtest.Context

/-!
# The backtest harness

Model of `Backtester.run` (`app/strategies/backtester.py`). A strategy is any deterministic program: its
handlers are scripts of calls into the context, and what a script does next may depend on every answer it
was given. The harness moves the cursor over the rows of the first frame, settles, dispatches fills and
bars, and marks.

`inputs` records everything the strategy is given, in order. A handler that raises ends the run.
-/

namespace Workbench.Backtest
open Workbench.Lib Workbench.Risk

/-! ## Strategies -/

/-- What a strategy can ask its context. The other reads (`get_position_for`, `pending_buy_qty`,
    `open_orders`, `recent_fills`, `get_indicators`) are computed from these. -/
inductive Query where
  | recentBars (symbol : String) (n : Nat)
  | accountEquity
  | positions
  | pendingOrders
  | settledFills

def Query.Answer : Query → Type
  | .recentBars _ _ => List Row
  | .accountEquity => Option ℚ
  | .positions => List SimPosition
  | .pendingOrders => List PendingOrder
  | .settledFills => List FillEvent

/-- A handler of a strategy with memory `σ`. -/
inductive Script (σ : Type) where
  | done (memory : σ)
  | raise
  | ask (query : Query) (next : query.Answer → Script σ)
  | submit (request : OrderRequest) (next : FakeOrderResult → Script σ)

/-- Python `Bar`, less the timeframe. -/
structure Bar where
  symbol : String
  row : Row

/-- Python `Strategy`. -/
structure Strategy (σ : Type) where
  onInit : Script σ
  onFill : σ → FillEvent → Script σ
  onBar : σ → Bar → Script σ
  onShutdown : σ → Script σ

/-- Something the strategy is given. -/
inductive Input where
  | fill (fill : FillEvent)
  | bar (bar : Bar)
  | answer (query : Query) (answer : query.Answer)
  | result (result : FakeOrderResult)

def Context.answer (ctx : Context) : (query : Query) → query.Answer
  | .recentBars symbol n => ctx.getRecentBars symbol n
  | .accountEquity => ctx.getAccountEquity
  | .positions => ctx.positions.values
  | .pendingOrders => ctx.pendingOrders
  | .settledFills => ctx.settledFills

/-! ## The run -/

/-- A run in progress; `memory` is `none` once a handler has raised. -/
structure Sim (σ : Type) where
  ctx : Context
  inputs : List Input
  memory : Option σ

/-- Python `BacktestConfig`, as far as the loop reads it. -/
structure Config where
  start : Instant
  end_ : Instant
  initialEquity : ℚ
  slippage : ℚ
  commissionPerShare : ℚ

variable {σ : Type}

def Script.execute : Script σ → Context → List Input → Sim σ
  | .done memory, ctx, inputs => ⟨ctx, inputs, some memory⟩
  | .raise, ctx, inputs => ⟨ctx, inputs, none⟩
  | .ask query next, ctx, inputs =>
    (next (ctx.answer query)).execute ctx (inputs ++ [.answer query (ctx.answer query)])
  | .submit request next, ctx, inputs =>
    let (ctx, result) := ctx.submitOrder request
    (next result).execute ctx (inputs ++ [.result result])

namespace Sim

/-- Call a handler with an input, unless the run has ended. -/
def call (sim : Sim σ) (input : Input) (handler : σ → Script σ) : Sim σ :=
  match sim.memory with
  | none => sim
  | some memory => (handler memory).execute sim.ctx (sim.inputs ++ [input])

/-- Change the context, unless the run has ended. -/
def update (sim : Sim σ) (f : Context → Context) : Sim σ :=
  match sim.memory with
  | none => sim
  | some _ => { sim with ctx := f sim.ctx }

/-- The timestamp of the current bar, for the harness. -/
def now (config : Config) (sim : Sim σ) : Instant := sim.ctx.currentBarTs.getD config.start

/-- Settle the pending orders and dispatch the fills. -/
def dispatchFills (strategy : Strategy σ) (now : Instant) (sim : Sim σ) : Sim σ :=
  match sim.memory with
  | none => sim
  | some _ =>
    let (ctx, fills) := sim.ctx.settlePendingOrders now
    fills.foldl (fun sim fill => sim.call (.fill fill) (strategy.onFill · fill)) { sim with ctx }

/-- Dispatch the bar of a symbol, if it has one. -/
def dispatchBar (strategy : Strategy σ) (sim : Sim σ) (symbol : String) : Sim σ :=
  match sim.ctx.currentBarFor symbol with
  | none => sim
  | some row => sim.call (.bar ⟨symbol, row⟩) (strategy.onBar · ⟨symbol, row⟩)

def dispatchBars (strategy : Strategy σ) (sim : Sim σ) : Sim σ :=
  sim.ctx.symbols.foldl (dispatchBar strategy) sim

def iterate (strategy : Strategy σ) (config : Config) (sim : Sim σ) (idx : Nat) : Sim σ :=
  let sim := sim.update (·.advanceCursor idx)
  let now := sim.now config
  let sim := (sim.dispatchFills strategy now).dispatchBars strategy
  sim.update (·.markToMarket now)

end Sim

/-- The rows of the master symbol, the first that has any. -/
def Frames.master (frames : Frames) : List Row := frames.entries.head?.elim [] (·.2)

/-- Steps 3 and 4 of `run`: the context and `on_init`. -/
def Strategy.start (strategy : Strategy σ) (config : Config) (symbols : List String) (frames : Frames) :
    Sim σ :=
  strategy.onInit.execute
    (.init symbols frames config.initialEquity config.slippage config.commissionPerShare) []

/-- The run up to its first `n` bars. -/
def Strategy.runTo (strategy : Strategy σ) (config : Config) (symbols : List String) (frames : Frames)
    (n : Nat) : Sim σ :=
  (List.range n).foldl (Sim.iterate strategy config) (strategy.start config symbols frames)

/-- Step 1 of `run`: the frames of the symbols that have any bars. -/
def loadBars (getBars : String → List Row) (symbols : List String) : Frames :=
  symbols.foldl (fun frames symbol =>
    match getBars symbol with
    | [] => frames
    | rows => frames.set (upper symbol) rows) .empty

end Workbench.Backtest
