import Workbench.Backtest.Backtester

/-!
# Look-ahead in a backtest

The harness says what time it is by the rows of the master symbol, and reads every other frame at the same
index. `NoLookAhead` says that at every bar of the master what the strategy is given and what the equity is
marked at depend only on bars that are not later, and that an order is filled at the first bar that is.

It holds exactly when the frames are aligned: every symbol has an `i`-th bar for every `i`-th bar of the
master, after the master's previous bar and not after its `i`-th. Nothing aligns the frames that are loaded.
-/

namespace Workbench.Backtest
open Workbench.Lib Workbench.Risk List Dict

/-! ## Frames -/

namespace Frames

/-- The frames as `run` loads them, from series with strictly increasing timestamps. -/
structure Loaded (frames : Frames) : Prop where
  upper : ∀ k rows, frames.get k = some rows → upper k = k
  increasing : ∀ k rows, frames.get k = some rows → rows.Pairwise (·.t < ·.t)

def clock (frames : Frames) (i : Nat) : Option Instant := frames.master[i]?.map (·.t)

/-- The first bar of a symbol strictly after an instant. -/
def firstAfter (frames : Frames) (time : Instant) (k : String) : Option Row :=
  (frames.get k).bind (·.find? (time < ·.t))

/-- The bars that are not later than an instant. -/
def upTo (frames : Frames) (time : Instant) (k : String) : Option (List Row) :=
  (frames.get k).map (·.filter (·.t ≤ time))

/-- The same symbols, with the same bars up to an instant: later bars may be changed, added or dropped. -/
structure SameUpTo (time : Instant) (frames frames' : Frames) : Prop where
  loaded : frames'.Loaded
  keys : frames'.entries.map Prod.fst = frames.entries.map Prod.fst
  upTo : ∀ k, frames'.upTo time k = frames.upTo time k

/-- Every symbol has a bar in the interval of each bar of the master, at the same index. -/
def Aligned (frames : Frames) : Prop :=
  ∀ k rows, frames.get k = some rows → ∀ i time, frames.clock i = some time →
    ∃ row, rows[i]? = some row ∧ row.t ≤ time ∧
      ∀ j earlier, i = j + 1 → frames.clock j = some earlier → earlier < row.t

end Frames

def Context.withFrames (ctx : Context) (frames : Frames) : Context := { ctx with frames }

/-- At every bar of the master: the recent bars, the marks and the fills, and all that a strategy is given
    and the equity curve up to that bar. -/
structure NoLookAhead (frames : Frames) : Prop where
  bars : ∀ i time, frames.clock i = some time → ∀ frames', frames.SameUpTo time frames' →
    ∀ ctx : Context, ctx.cursor = i → ∀ symbol n,
      (ctx.withFrames frames').getRecentBars symbol n = (ctx.withFrames frames).getRecentBars symbol n
  mark : ∀ i time, frames.clock i = some time → ∀ frames', frames.SameUpTo time frames' →
    ∀ ctx : Context, ctx.cursor = i → (ctx.withFrames frames').equity = (ctx.withFrames frames).equity
  fill : ∀ i time next, frames.clock i = some time → frames.clock (i + 1) = some next →
    ∀ ctx : Context, ctx.cursor = i + 1 → ∀ symbol,
      (ctx.withFrames frames).currentBarFor symbol = frames.firstAfter time symbol
  run : ∀ i time, frames.clock i = some time → ∀ frames', frames.SameUpTo time frames' →
    ∀ (σ : Type) (strategy : Strategy σ) (config : Config) (symbols : List String),
      (strategy.runTo config symbols frames' (i + 1)).inputs = (strategy.runTo config symbols frames (i + 1)).inputs ∧
      (strategy.runTo config symbols frames' (i + 1)).ctx.equityCurve =
        (strategy.runTo config symbols frames (i + 1)).ctx.equityCurve

/-! ## Prefixes of increasing series -/

section Series
variable {rows rows' : List Row} {time : Instant}

lemma filter_isPrefix (time : Instant) (increasing : rows.Pairwise (·.t < ·.t)) :
    rows.filter (·.t ≤ time) <+: rows := by
  induction increasing with
  | nil => exact prefix_rfl
  | @cons row rows later _ ih =>
    by_cases le : row.t ≤ time
    · rw [filter_cons_of_pos (by simpa using le)]
      exact (prefix_cons_inj row).2 ih
    · have none : rows.filter (·.t ≤ time) = [] := by
        rw [filter_eq_nil_iff]
        intro row' mem
        simpa using lt_trans (not_le.1 le) (later row' mem)
      rw [filter_cons_of_neg (by simpa using le), none]
      exact nil_prefix

lemma le_of_getElem? (increasing : rows.Pairwise (·.t < ·.t)) {i : Nat} {row : Row} (get : rows[i]? = some row)
    (le : row.t ≤ time) : ∀ row' ∈ rows.take (i + 1), row'.t ≤ time := by
  intro row' mem
  obtain ⟨j, lt, eq⟩ := mem_iff_getElem.1 mem
  obtain ⟨bound, at_i⟩ := List.getElem?_eq_some_iff.1 get
  rw [getElem_take] at eq
  rw [length_take, Nat.lt_min] at lt
  rcases Nat.lt_or_ge j i with before | same
  · have earlier := pairwise_iff_getElem.1 increasing j i lt.2 bound before
    rw [eq, at_i] at earlier
    exact le_trans earlier.le le
  · obtain rfl : j = i := by omega
    rw [← eq, at_i]
    exact le

lemma lt_length_filter (increasing : rows.Pairwise (·.t < ·.t)) {i : Nat} {row : Row} (get : rows[i]? = some row)
    (le : row.t ≤ time) : i < (rows.filter (·.t ≤ time)).length := by
  obtain ⟨bound, -⟩ := List.getElem?_eq_some_iff.1 get
  have kept : (rows.take (i + 1)).filter (·.t ≤ time) = rows.take (i + 1) := by
    rw [filter_eq_self]
    simpa using le_of_getElem? increasing get le
  calc
    i < (rows.take (i + 1)).length := by rw [length_take]; omega
    _ = ((rows.take (i + 1)).filter (·.t ≤ time)).length := by rw [kept]
    _ ≤ _ := ((take_sublist _ _).filter _).length_le

lemma take_eq_of_filter_eq (increasing : rows.Pairwise (·.t < ·.t)) (increasing' : rows'.Pairwise (·.t < ·.t))
    (same : rows'.filter (·.t ≤ time) = rows.filter (·.t ≤ time)) {n : Nat}
    (enough : n ≤ (rows.filter (·.t ≤ time)).length) : rows'.take n = rows.take n := by
  obtain ⟨rest, eq⟩ := filter_isPrefix time increasing
  obtain ⟨rest', eq'⟩ := filter_isPrefix time increasing'
  rw [same] at eq'
  rw [← eq, ← eq', take_append_of_le_length enough, take_append_of_le_length enough]

end Series

/-! ## Reading up to a cursor -/

/-- Two families with the same first `n` rows of every symbol. -/
def Frames.SameRows (n : Nat) (frames frames' : Frames) : Prop :=
  ∀ k, (frames'.get k).map (·.take n) = (frames.get k).map (·.take n)

section Reading
variable {frames : Frames} {n : Nat} {ctx : Context}

lemma Frames.SameRows.at {frames' : Frames} (same : frames.SameRows n frames') {i : Nat} (lt : i < n) (k : String) :
    frames'.at k i = frames.at k i := by
  have eq := congrArg (Option.bind · (·[i]?)) (same k)
  simpa [Frames.at, Option.bind_map, Function.comp_def, getElem?_take_of_lt lt] using eq

variable (same : ctx.frames.SameRows n frames) (lt : ctx.cursor < n)
include same lt

lemma currentBarFor_withFrames (symbol : String) :
    (ctx.withFrames frames).currentBarFor symbol = ctx.currentBarFor symbol :=
  same.at lt symbol

lemma nextBarOpen_withFrames (symbol : String) :
    (ctx.withFrames frames).nextBarOpen symbol = ctx.nextBarOpen symbol := by
  unfold Context.nextBarOpen
  rw [currentBarFor_withFrames same lt]

lemma currentBarTs_withFrames : (ctx.withFrames frames).currentBarTs = ctx.currentBarTs := by
  unfold Context.currentBarTs
  simp only [currentBarFor_withFrames same lt]
  rfl

lemma equity_withFrames : (ctx.withFrames frames).equity = ctx.equity := by
  unfold Context.equity
  simp only [currentBarFor_withFrames same lt]
  rfl

lemma getAccountEquity_withFrames : (ctx.withFrames frames).getAccountEquity = ctx.getAccountEquity := by
  unfold Context.getAccountEquity
  rw [currentBarTs_withFrames same lt, equity_withFrames same lt]
  rfl

lemma getRecentBars_withFrames (symbol : String) (m : Nat) :
    (ctx.withFrames frames).getRecentBars symbol m = ctx.getRecentBars symbol m := by
  have shown (rows : List Row) : rows.take (ctx.cursor + 1) = (rows.take n).take (ctx.cursor + 1) := by
    rw [take_take, Nat.min_eq_left lt]
  have eq := same (upper symbol)
  simp only [Context.getRecentBars, Context.withFrames]
  cases get : ctx.frames.get (upper symbol) with
  | none =>
    rw [get, Option.map_none, Option.map_eq_none_iff] at eq
    rw [eq]
  | some rows =>
    rw [get, Option.map_some, Option.map_eq_some_iff] at eq
    obtain ⟨rows', get', eq⟩ := eq
    simp only [get', shown rows, shown rows', eq]

lemma answer_withFrames (query : Query) : (ctx.withFrames frames).answer query = ctx.answer query := by
  cases query with
  | recentBars symbol m => exact getRecentBars_withFrames same lt symbol m
  | accountEquity => exact getAccountEquity_withFrames same lt
  | positions | pendingOrders | settledFills => rfl

lemma submitOrder_withFrames (request : OrderRequest) :
    (ctx.withFrames frames).submitOrder request =
      ((ctx.submitOrder request).1.withFrames frames, (ctx.submitOrder request).2) := by
  unfold Context.submitOrder
  rw [currentBarTs_withFrames same lt]
  split
  · rfl
  split
  · rfl
  cases ctx.currentBarTs <;> rfl

end Reading

/-! ## Two runs -/

section Writing
variable {n : Nat}

/-- A context over the same frames, at the same cursor. -/
def Context.Keeps (ctx ctx' : Context) : Prop := ctx'.frames = ctx.frames ∧ ctx'.cursor = ctx.cursor

lemma keeps_submitOrder (ctx : Context) (request : OrderRequest) : ctx.Keeps (ctx.submitOrder request).1 := by
  unfold Context.submitOrder
  split
  · exact ⟨rfl, rfl⟩
  split
  · exact ⟨rfl, rfl⟩
  cases ctx.currentBarTs <;> exact ⟨rfl, rfl⟩

lemma keeps_fillOrder (ctx : Context) (po : PendingOrder) (px : ℚ) (now : Instant) : ctx.Keeps
    (ctx.fillOrder po px now).1 := by
  obtain ⟨positions, trades, -, after⟩ := ctx.fillOrder_eq po px now
  rw [after]
  exact ⟨rfl, rfl⟩

lemma applyFill_withFrames (ctx : Context) (frames : Frames) (symbol : String) (side : OrderSide) (qty price : ℚ)
    (ts : Instant) :
    (ctx.withFrames frames).applyFillToPosition symbol side qty price ts =
      (ctx.applyFillToPosition symbol side qty price ts).withFrames frames := by
  unfold Context.applyFillToPosition
  rw [show (ctx.withFrames frames).positions = ctx.positions from rfl]
  cases side <;> cases ctx.positions.get symbol with
  | none => rfl
  | some current => cases h : current.side <;> simp only [h] <;> rfl

lemma fillOrder_withFrames (ctx : Context) (frames : Frames) (po : PendingOrder) (px : ℚ) (now : Instant) :
    (ctx.withFrames frames).fillOrder po px now =
      ((ctx.fillOrder po px now).1.withFrames frames, (ctx.fillOrder po px now).2) := by
  have held := applyFill_withFrames (ctx.pay po.side po.qty (ctx.fillPrice po.side px)) frames
    po.symbol po.side po.qty (ctx.fillPrice po.side px) now
  have price : (ctx.withFrames frames).fillPrice po.side px = ctx.fillPrice po.side px := rfl
  have paid (price : ℚ) : (ctx.withFrames frames).pay po.side po.qty price =
    (ctx.pay po.side po.qty price).withFrames frames := rfl
  simp only [Context.fillOrder, price, paid, held]
  rfl

lemma settleLoop_withFrames {ctx : Context} {frames : Frames} (same : ctx.frames.SameRows n frames)
    (lt : ctx.cursor < n) (now : Instant) (orders : List PendingOrder) (acc : List PendingOrder × List FillEvent) :
    let done := orders.foldl (Context.settleOrder now) (ctx, acc)
    orders.foldl (Context.settleOrder now) (ctx.withFrames frames, acc) = (done.1.withFrames frames, done.2) ∧
    ctx.Keeps done.1 := by
  induction orders generalizing ctx acc with
  | nil => exact ⟨rfl, rfl, rfl⟩
  | cons po orders ih =>
    simp only [foldl_cons, Context.settleOrder, nextBarOpen_withFrames same lt]
    cases ctx.nextBarOpen po.symbol with
    | none => exact ih same lt _
    | some px =>
      obtain ⟨frames_eq, cursor_eq⟩ := keeps_fillOrder ctx po px now
      simp only [fillOrder_withFrames]
      obtain ⟨eq, keeps⟩ := ih (frames_eq ▸ same) (cursor_eq ▸ lt) (acc.1, acc.2 ++ [(ctx.fillOrder po px now).2])
      exact ⟨eq, keeps.1.trans frames_eq, keeps.2.trans cursor_eq⟩

lemma settle_withFrames {ctx : Context} {frames : Frames} (same : ctx.frames.SameRows n frames)
    (lt : ctx.cursor < n) (now : Instant) :
    (ctx.withFrames frames).settlePendingOrders now =
      ((ctx.settlePendingOrders now).1.withFrames frames, (ctx.settlePendingOrders now).2) ∧
    ctx.Keeps (ctx.settlePendingOrders now).1 := by
  obtain ⟨eq, keeps⟩ := settleLoop_withFrames same lt now ctx.pendingOrders ([], [])
  refine ⟨?_, keeps⟩
  unfold Context.settlePendingOrders
  rw [show (ctx.withFrames frames).pendingOrders = ctx.pendingOrders from rfl]
  simp only [eq]
  rfl

end Writing

section Twin
variable {σ : Type} {frames frames' : Frames} {n : Nat} {sim sim' : Sim σ}

/-- The same run over two families, before row `n` of either has been read. -/
structure Twin (n : Nat) (frames frames' : Frames) (sim sim' : Sim σ) : Prop where
  frames : sim.ctx.frames = frames
  cursor : sim.ctx.cursor < n
  twin : sim' = { sim with ctx := sim.ctx.withFrames frames' }

lemma Twin.foldl {α : Type} {f : Sim σ → α → Sim σ} {as : List α} (h : Twin n frames frames' sim sim')
    (step : ∀ a ∈ as, ∀ s s', Twin n frames frames' s s' → Twin n frames frames' (f s a) (f s' a)) :
    Twin n frames frames' (as.foldl f sim) (as.foldl f sim') := by
  induction as generalizing sim sim' with
  | nil => exact h
  | cons a as ih =>
    exact ih (step a mem_cons_self _ _ h) fun b mem => step b (mem_cons_of_mem _ mem)

lemma Twin.update {f : Context → Context} (h : Twin n frames frames' sim sim')
    (commutes : f (sim.ctx.withFrames frames') = (f sim.ctx).withFrames frames')
    (frames_eq : (f sim.ctx).frames = sim.ctx.frames) (lt : (f sim.ctx).cursor < n) :
    Twin n frames frames' (sim.update f) (sim'.update f) := by
  obtain ⟨eq, before, rfl⟩ := h
  unfold Sim.update
  cases memory : sim.memory with
  | none => exact ⟨eq, before, by simp [memory]⟩
  | some => exact ⟨frames_eq.trans eq, lt, by simp [commutes]⟩

variable (same : frames.SameRows n frames')
include same

lemma twin_execute {script : Script σ} {ctx : Context} {inputs : List Input} (eq : ctx.frames = frames)
    (lt : ctx.cursor < n) :
    Twin n frames frames' (script.execute ctx inputs) (script.execute (ctx.withFrames frames') inputs) := by
  induction script generalizing ctx inputs with
  | done memory => exact ⟨eq, lt, rfl⟩
  | raise => exact ⟨eq, lt, rfl⟩
  | ask query next ih =>
    unfold Script.execute
    rw [answer_withFrames (eq ▸ same) lt]
    exact ih _ eq lt
  | submit request next ih =>
    unfold Script.execute
    rw [submitOrder_withFrames (eq ▸ same) lt]
    obtain ⟨frames_eq, cursor_eq⟩ := keeps_submitOrder ctx request
    exact ih _ (frames_eq.trans eq) (lt_of_eq_of_lt cursor_eq lt)

lemma Twin.call (h : Twin n frames frames' sim sim') (input : Input) (handler : σ → Script σ) :
    Twin n frames frames' (sim.call input handler) (sim'.call input handler) := by
  obtain ⟨eq, lt, rfl⟩ := h
  unfold Sim.call
  cases memory : sim.memory with
  | none => exact ⟨eq, lt, by simp [memory]⟩
  | some => exact twin_execute same eq lt

lemma Twin.dispatchFills (strategy : Strategy σ) (now : Instant) (h : Twin n frames frames' sim sim') :
    Twin n frames frames' (sim.dispatchFills strategy now) (sim'.dispatchFills strategy now) := by
  obtain ⟨eq, lt, rfl⟩ := h
  subst eq
  unfold Sim.dispatchFills
  cases memory : sim.memory with
  | none => exact ⟨rfl, lt, by simp [memory]⟩
  | some =>
    obtain ⟨settle, frames_eq, cursor_eq⟩ := settle_withFrames same lt now
    simp only [settle]
    have start : Twin n sim.ctx.frames frames' { sim with ctx := (sim.ctx.settlePendingOrders now).1 }
        { sim with ctx := (sim.ctx.settlePendingOrders now).1.withFrames frames' } :=
      ⟨frames_eq, cursor_eq ▸ lt, rfl⟩
    rw [memory] at start
    exact start.foldl fun fill _ s s' h => h.call same _ _

lemma Twin.dispatchBar (strategy : Strategy σ) (symbol : String) (h : Twin n frames frames' sim sim') :
    Twin n frames frames' (sim.dispatchBar strategy symbol) (sim'.dispatchBar strategy symbol) := by
  have bar : sim'.ctx.currentBarFor symbol = sim.ctx.currentBarFor symbol := by
    rw [h.twin]
    exact currentBarFor_withFrames (h.frames ▸ same) h.cursor symbol
  unfold Sim.dispatchBar
  rw [bar]
  cases sim.ctx.currentBarFor symbol with
  | none => exact h
  | some row => exact h.call same _ _

lemma Twin.dispatchBars (strategy : Strategy σ) (h : Twin n frames frames' sim sim') :
    Twin n frames frames' (sim.dispatchBars strategy) (sim'.dispatchBars strategy) := by
  have symbols : sim'.ctx.symbols = sim.ctx.symbols := by rw [h.twin]; rfl
  unfold Sim.dispatchBars
  rw [symbols]
  exact h.foldl fun symbol _ s s' h => h.dispatchBar same strategy symbol

lemma Twin.iterate (strategy : Strategy σ) (config : Config) (h : Twin n frames frames' sim sim') {idx : Nat}
    (lt : idx < n) : Twin n frames frames' (sim.iterate strategy config idx) (sim'.iterate strategy config idx) := by
  have moved : Twin n frames frames' (sim.update (·.advanceCursor idx)) (sim'.update (·.advanceCursor idx)) :=
    h.update rfl rfl lt
  have now : (sim'.update (·.advanceCursor idx)).now config = (sim.update (·.advanceCursor idx)).now config := by
    unfold Sim.now
    rw [moved.twin]
    exact congrArg (Option.getD · config.start) (currentBarTs_withFrames (moved.frames ▸ same) moved.cursor)
  simp only [Sim.iterate, now]
  have dispatched := (moved.dispatchFills same strategy ((sim.update (·.advanceCursor idx)).now config)).dispatchBars
    same strategy
  refine dispatched.update ?_ rfl dispatched.cursor
  unfold Context.markToMarket
  rw [equity_withFrames (dispatched.frames ▸ same) dispatched.cursor]
  rfl

lemma twin_runTo (strategy : Strategy σ) (config : Config) (symbols : List String) {m : Nat} (le : m ≤ n)
    (pos : 0 < n) :
    Twin n frames frames' (strategy.runTo config symbols frames m) (strategy.runTo config symbols frames' m) := by
  have start : Twin n frames frames' (strategy.start config symbols frames) (strategy.start config symbols frames') :=
    twin_execute same rfl pos
  refine start.foldl fun idx mem s s' h => h.iterate same strategy config ?_
  exact lt_of_lt_of_le (mem_range.1 mem) le

end Twin

/-! ## Aligned frames -/

section Aligned
variable {frames frames' : Frames} {i : Nat} {time : Instant}

lemma sameRows_of_sameUpTo (loaded : frames.Loaded) (aligned : frames.Aligned) (clock : frames.clock i = some time)
    (same : frames.SameUpTo time frames') : frames.SameRows (i + 1) frames' := by
  intro k
  have upTo := same.upTo k
  unfold Frames.upTo at upTo
  cases get : frames.get k with
  | none =>
    rw [get, Option.map_none, Option.map_eq_none_iff] at upTo
    rw [upTo]
  | some rows =>
    rw [get, Option.map_some, Option.map_eq_some_iff] at upTo
    obtain ⟨rows', get', eq⟩ := upTo
    obtain ⟨row, at_i, le, -⟩ := aligned k rows get i time clock
    have increasing := loaded.increasing k rows get
    rw [get', Option.map_some, Option.map_some,
      take_eq_of_filter_eq increasing (same.loaded.increasing k rows' get') eq (lt_length_filter increasing at_i le)]

lemma at_succ_eq_firstAfter {next : Instant} (loaded : frames.Loaded) (aligned : frames.Aligned)
    (clock : frames.clock i = some time) (clock' : frames.clock (i + 1) = some next) (k : String) :
    frames.at k (i + 1) = frames.firstAfter time k := by
  unfold Frames.at Frames.firstAfter
  cases get : frames.get k with
  | none => rfl
  | some rows =>
    obtain ⟨row, at_i, le, -⟩ := aligned k rows get i time clock
    obtain ⟨row', at_succ, -, after⟩ := aligned k rows get (i + 1) next clock'
    rw [Option.bind_some, Option.bind_some, at_succ, eq_comm, find?_eq_some_iff_append]
    refine ⟨by simpa using after i time rfl clock, rows.take (i + 1), rows.drop (i + 2), ?_, ?_⟩
    · obtain ⟨bound, eq⟩ := List.getElem?_eq_some_iff.1 at_succ
      rw [← eq, getElem_cons_drop, take_append_drop]
    · intro row'' mem
      simpa using le_of_getElem? (loaded.increasing k rows get) at_i le row'' mem

lemma noLookAhead_of_aligned (loaded : frames.Loaded) (aligned : frames.Aligned) : NoLookAhead frames where
  bars i time clock frames' same ctx cursor symbol n := by
    have rows := sameRows_of_sameUpTo loaded aligned clock same
    have lt : (ctx.withFrames frames).cursor < i + 1 := lt_of_eq_of_lt cursor i.lt_succ_self
    exact getRecentBars_withFrames rows lt symbol n
  mark i time clock frames' same ctx cursor := by
    have rows := sameRows_of_sameUpTo loaded aligned clock same
    have lt : (ctx.withFrames frames).cursor < i + 1 := lt_of_eq_of_lt cursor i.lt_succ_self
    exact equity_withFrames rows lt
  fill i time next clock clock' ctx cursor symbol := by
    show frames.at symbol ctx.cursor = _
    rw [cursor]
    exact at_succ_eq_firstAfter loaded aligned clock clock' symbol
  run i time clock frames' same σ strategy config symbols := by
    have rows := sameRows_of_sameUpTo loaded aligned clock same
    have twin := twin_runTo rows strategy config symbols le_rfl i.succ_pos
    exact ⟨congrArg (·.inputs) twin.twin, congrArg (·.ctx.equityCurve) twin.twin⟩

/-- The frames with the series of one symbol cut at an instant and one later bar after it. -/
def Frames.forge (frames : Frames) (k : String) (rows : List Row) (time : Instant) (close : ℚ) : Frames :=
  frames.set k (rows.filter (·.t ≤ time) ++ [⟨time + 1, 0, 0, 0, close, 0⟩])

lemma sameUpTo_forge (loaded : frames.Loaded) {k : String} {rows : List Row} (get : frames.get k = some rows)
    (close : ℚ) : frames.SameUpTo time (frames.forge k rows time close) := by
  unfold Frames.forge
  have early (row : Row) (mem : row ∈ rows.filter (·.t ≤ time)) : row.t ≤ time := by
    simpa using (mem_filter.1 mem).2
  refine ⟨⟨?_, ?_⟩, keys_set (Dict.mem_keys.2 (get ▸ rfl)), ?_⟩
  · intro k' rows' get'
    rw [get_set] at get'
    split at get'
    · rename_i eq
      exact loaded.upper k' rows (eq ▸ get)
    · exact loaded.upper k' rows' get'
  · intro k' rows' get'
    rw [get_set] at get'
    split at get'
    · cases get'
      rw [pairwise_append]
      refine ⟨(loaded.increasing k rows get).filter _, pairwise_singleton _ _, ?_⟩
      intro row mem new isNew
      rw [mem_singleton.1 isNew]
      exact Nat.lt_succ_of_le (early row mem)
    · exact loaded.increasing k' rows' get'
  · intro k'
    unfold Frames.upTo
    rw [get_set]
    split
    · rename_i eq
      subst eq
      rw [get, Option.map_some, Option.map_some, filter_append, filter_filter]
      simp
    · rfl

lemma enough_of_noLookAhead (loaded : frames.Loaded) (ok : NoLookAhead frames) (clock : frames.clock i = some time)
    {k : String} {rows : List Row} (get : frames.get k = some rows) : i < (rows.filter (·.t ≤ time)).length := by
  by_contra few
  rw [not_lt] at few
  let shown := rows.filter (·.t ≤ time)
  let close := (rows[shown.length]?).elim 0 (·.c) + 1
  have forged := ok.bars i time clock _ (sameUpTo_forge loaded get close)
    ((Context.init [] frames 0 0 0).advanceCursor i) rfl k (i + 1)
  -- the forged bar is shown at the index where the series has another bar or none
  have eq := congrArg (·[shown.length]?) forged
  simp only [Context.getRecentBars, Context.withFrames, Context.advanceCursor, loaded.upper k rows get, Frames.forge,
    get_set_self, get, Nat.sub_self, drop_zero] at eq
  rw [getElem?_take_of_lt (Nat.lt_succ_of_le few), getElem?_take_of_lt (Nat.lt_succ_of_le few),
    getElem?_concat_length] at eq
  have closes : close = (rows[shown.length]?).elim 0 (·.c) := by rw [← eq]; rfl
  exact absurd closes (by simp [close])

lemma aligned_of_noLookAhead (loaded : frames.Loaded) (ok : NoLookAhead frames) : frames.Aligned := by
  intro k rows get i time clock
  have enough := enough_of_noLookAhead loaded ok clock get
  obtain ⟨row, get_i⟩ : ∃ row, (rows.filter (·.t ≤ time))[i]? = some row := ⟨_, getElem?_eq_getElem enough⟩
  have early : row.t ≤ time := by simpa using (mem_filter.1 (mem_of_getElem? get_i)).2
  obtain ⟨rest, eq⟩ := filter_isPrefix time (loaded.increasing k rows get)
  have at_i : rows[i]? = some row := by
    rw [← get_i, ← getElem?_append_left enough, eq]
  refine ⟨row, at_i, early, ?_⟩
  rintro j earlier rfl clock'
  have next := ok.fill j earlier time clock' clock ((Context.init [] frames 0 0 0).advanceCursor (j + 1)) rfl k
  simp only [Context.currentBarFor, Context.withFrames, Context.advanceCursor, Frames.at, Frames.firstAfter, get,
    Option.bind_some, at_i] at next
  simpa using find?_some next.symm

end Aligned

/-! ## The harness -/

lemma loaded_loadBars {getBars : String → List Row} (increasing : ∀ symbol, (getBars symbol).Pairwise (·.t < ·.t))
    (symbols : List String) : (loadBars getBars symbols).Loaded := by
  unfold loadBars
  have start : Frames.Loaded Dict.empty := ⟨by simp, by simp⟩
  revert start
  generalize (Dict.empty : Frames) = frames
  intro start
  induction symbols generalizing frames with
  | nil => exact start
  | cons symbol symbols ih =>
    rw [foldl_cons]
    apply ih
    cases rows : getBars symbol with
    | nil => exact start
    | cons row rest =>
      refine ⟨?_, ?_⟩
      · intro k rows' get
        rw [get_set] at get
        split at get
        · rename_i eq
          rw [eq, upper_upper]
        · exact start.upper k rows' get
      · intro k rows' get
        rw [get_set] at get
        split at get
        · cases get
          exact rows ▸ increasing symbol
        · exact start.increasing k rows' get

/-- For every family of series with strictly increasing timestamps, the backtest is without look-ahead
    exactly when the series are aligned. -/
theorem no_look_ahead_iff_aligned {getBars : String → List Row}
    (increasing : ∀ symbol, (getBars symbol).Pairwise (·.t < ·.t)) (symbols : List String) :
    NoLookAhead (loadBars getBars symbols) ↔ (loadBars getBars symbols).Aligned := by
  have loaded := loaded_loadBars increasing symbols
  exact ⟨aligned_of_noLookAhead loaded, noLookAhead_of_aligned loaded⟩

lemma aligned_of_same_timestamps {frames : Frames} (loaded : frames.Loaded)
    (same : ∀ k rows, frames.get k = some rows → rows.map (·.t) = frames.master.map (·.t)) : frames.Aligned := by
  intro k rows get i time clock
  have row_of {i : Nat} {time : Instant} (clock : frames.clock i = some time) :
      ∃ row, rows[i]? = some row ∧ row.t = time := by
    unfold Frames.clock at clock
    rwa [← getElem?_map, ← same k rows get, getElem?_map, Option.map_eq_some_iff] at clock
  obtain ⟨row, at_i, eq⟩ := row_of clock
  refine ⟨row, at_i, eq.le, ?_⟩
  rintro j earlier rfl clock'
  obtain ⟨row', at_j, eq'⟩ := row_of clock'
  obtain ⟨bound, get_i⟩ := List.getElem?_eq_some_iff.1 at_i
  obtain ⟨bound', get_j⟩ := List.getElem?_eq_some_iff.1 at_j
  rw [← eq', ← get_i, ← get_j]
  exact pairwise_iff_getElem.1 (loaded.increasing k rows get) j (j + 1) bound' bound j.lt_succ_self

def barAt (t : Instant) : Row := ⟨t, 100, 100, 100, 100, 0⟩

/-- `A` from 0 on, and `B` from `start` on. -/
def twoSeries (start : Instant) (symbol : String) : List Row :=
  if symbol = "A" then [barAt 0, barAt 1, barAt 2]
  else if symbol = "B" then [barAt start, barAt (start + 1), barAt (start + 2)]
  else []

lemma increasing_twoSeries (start : Instant) (symbol : String) : (twoSeries start symbol).Pairwise (·.t < ·.t) := by
  unfold twoSeries
  split_ifs <;> simp [barAt]

theorem same_calendar_no_look_ahead : NoLookAhead (loadBars (twoSeries 0) ["A", "B"]) := by
  apply (no_look_ahead_iff_aligned (increasing_twoSeries 0) ["A", "B"]).2
  apply aligned_of_same_timestamps (loaded_loadBars (increasing_twoSeries 0) ["A", "B"])
  intro k rows get
  have each : ∀ rows ∈ (loadBars (twoSeries 0) ["A", "B"]).values,
      rows.map (·.t) = (loadBars (twoSeries 0) ["A", "B"]).master.map (·.t) := by decide +kernel
  exact each rows (mem_values_of_get get)

/-- `B` was listed a bar later than `A`: at the first bar of `A` its bar of tomorrow is shown. -/
theorem late_listing_read_ahead :
    (∀ symbol, (twoSeries 1 symbol).Pairwise (·.t < ·.t)) ∧ (loadBars (twoSeries 1) ["A", "B"]).clock 0 = some 0 ∧
    (Context.init ["A", "B"] (loadBars (twoSeries 1) ["A", "B"]) 1000 0 0).getRecentBars "B" 1 = [barAt 1] ∧
    ¬ NoLookAhead (loadBars (twoSeries 1) ["A", "B"]) := by
  have clock : (loadBars (twoSeries 1) ["A", "B"]).clock 0 = some 0 := by decide +kernel
  refine ⟨increasing_twoSeries 1, clock, by decide +kernel, fun ok => ?_⟩
  have loaded := loaded_loadBars (increasing_twoSeries 1) ["A", "B"]
  obtain ⟨row, first, early, -⟩ := aligned_of_noLookAhead loaded ok "B" [barAt 1, barAt 2, barAt 3]
    (by decide +kernel) 0 0 clock
  cases first
  exact absurd early (by decide)

end Workbench.Backtest
