import Workbench.Orders.Positions
import Workbench.Orders.Terminal

/-!
# Rebalancing

Model of what a rebalance reads (`get_position_for` and `pending_buy_qty` of `app/strategies/context.py`), of
`_apply_targets` of `strategies_user/templates/momentum_daily.py`, and of the system it runs in: the order
system, the recomputer and the position sync, each of which reads first and commits later. Any number of
rebalances are under way at once.

The account has one strategy, every order of it comes from a rebalance, and nothing is sold. The broker does
not execute more than was ordered, and what it reports as positions is what it has executed.
-/

namespace Workbench.Rebalance
open Workbench.Lib Workbench.Risk Workbench.Orders

/-- A strategy: its account, the tickers of its universe, and the target quantity of each. -/
structure Setting where
  userId : Nat := 1
  accountId : Nat
  symbols : List String
  marketSymbol : String := "SPY"
  target : String → ℚ

/-- The tickers that it holds; the market filter is not one of them. -/
def Setting.tickers (σ : Setting) : List String := σ.symbols.filter (· ≠ σ.marketSymbol)

/-! ## What a rebalance reads -/

/-- Python `get_position_for`. -/
def getPositionFor (σ : Setting) (db : Db) (ticker : String) : Option Position :=
  (symbolIdByTicker db ticker).bind fun i => db.positions.get (σ.accountId, i)

def held (σ : Setting) (db : Db) (ticker : String) : ℚ :=
  max (((getPositionFor σ db ticker).map (·.qty)).getD 0) 0

/-- A BUY of the account; all of them are the strategy's. -/
def Setting.buys (σ : Setting) (order : Order) : Bool := order.accountId = σ.accountId ∧ order.side = .buy

/-- Python `pending_buy_qty`, of one ticker. -/
def pendingBuyQty (σ : Setting) (db : Db) (ticker : String) : ℚ :=
  if ticker ∈ σ.symbols then
    Table.total (fun o : Order =>
      if σ.buys o ∧ o.status.terminal = false ∧ db.ticker o = some ticker then o.qty else 0) db.orders
  else 0

/-! ## What it orders -/

/-- The close of a target, if there is one. -/
structure Quote where
  symbol : String
  price : Option ℚ

/-- How a rebalance sizes its targets. -/
structure Sizing where
  perName : ℚ
  minTrade : ℚ
  fractional : Bool := true

/-- An order it is about to submit. -/
structure Leg where
  symbol : String
  side : OrderSide
  qty : ℚ

/-- `quantize(Decimal("0.000001"))`, half to even. -/
def quantizeQty (x : ℚ) : ℚ :=
  let floor := ⌊x * 1000000⌋
  let rest := x * 1000000 - floor
  (if rest < 1 / 2 ∨ rest = 1 / 2 ∧ floor % 2 = 0 then floor else floor + 1 : ℤ) / 1000000

def Sizing.targetQty (z : Sizing) (price : ℚ) : ℚ :=
  if z.fractional then quantizeQty (z.perName / price) else ⌊z.perName / price⌋

/-- The holdings a rebalance has read: tickers with a long quantity. -/
abbrev Holdings := List (String × ℚ)

def Sizing.leg (z : Sizing) (holdings : Holdings) (pending : String → ℚ) (q : Quote) : Option Leg :=
  match q.price with
  | none => none
  | some price =>
    if price ≤ 0 then none
    else
      let cur := (holdings.lookup q.symbol).getD 0
      let delta := z.targetQty price - cur
      if delta = 0 then none
      else if 0 < cur ∧ |delta| * price < z.perName * z.minTrade then none
      else if delta < 0 then some ⟨q.symbol, .sell, -delta⟩
      else
        let buyQty := delta - pending q.symbol
        if 0 < buyQty then some ⟨q.symbol, .buy, buyQty⟩ else none

def exits (holdings : Holdings) (targets : List String) : List Leg :=
  (holdings.filter (·.1 ∉ targets)).map fun h => ⟨h.1, .sell, h.2⟩

/-- Python `_apply_targets`: what it submits, exits and trims before entries. -/
def applyTargets (z : Sizing) (holdings : Holdings) (pending : String → ℚ) (quotes : List Quote) : List Leg :=
  let legs := quotes.filterMap (z.leg holdings pending)
  exits holdings (quotes.map (·.symbol)) ++ legs.filter (·.side = .sell) ++ legs.filter (·.side = .buy)

/-! ## Runs -/

/-- Where a rebalance stands. -/
inductive Task where
  | idle
  | holding (todo : List String) (holdings : Holdings)
  | submitting (legs : List Leg)

/-- The order system, and what recomputes, syncs and rebalances have read. -/
structure State where
  desk : Orders.State
  recomputes : List (Nat × Cost) := []
  reports : List (List ReportedPosition) := []
  tasks : Nat → Task := fun _ => .idle

/-- What was executed at the broker for an order. -/
def executed (broker : Dict String BrokerOrder) (o : Nat) : ℚ :=
  Table.total (fun b : BrokerOrder => if b.order = o then b.cumQty else 0) broker.values

def overBuys (σ : Setting) (db : Db) (ticker : String) (w : Order → Nat → ℚ) : ℚ :=
  Table.total (fun x : Order × Nat => if σ.buys x.1 ∧ db.ticker x.1 = some ticker then w x.1 x.2 else 0)
    db.orders.zipIdx

/-- The long quantity the strategy has really been filled. -/
def bought (σ : Setting) (d : Orders.State) (ticker : String) : ℚ :=
  overBuys σ d.db ticker fun _ o => executed d.broker o

/-- What `get_positions` reports. -/
def report (σ : Setting) (d : Orders.State) : List ReportedPosition :=
  (d.db.symbols.filter fun x => bought σ d x.ticker ≠ 0).map fun x =>
    { symbol := x.ticker, qty := bought σ d x.ticker }

/-- The commit of `recompute`, with the cost it has computed. -/
def writeCost (db : Db) (accountId symbolId : Nat) (cost : Cost) : Db :=
  let key := (accountId, symbolId)
  { db with
    positions :=
      if cost.qty = 0 then db.positions.erase key
      else
        let row := (db.positions.get key).getD { qty := 0 }
        db.positions.set key { row with
          qty := cost.qty, avgEntryPrice := cost.basis / |cost.qty|, costBasis := cost.basis } }

def Setting.request (σ : Setting) (leg : Leg) : OrderRequest where
  userId := σ.userId
  accountId := σ.accountId
  symbolTicker := leg.symbol
  side := leg.side
  qty := leg.qty
  sourceType := .strategy

/-- A step of the order system, of the recomputer, of the sync, or of a rebalance. -/
inductive Label where
  | desk (l : Orders.Label)
  | recomputeRead (symbolId : Nat)
  | recomputeWrite (i : Nat)
  | syncRead
  | syncWrite (i : Nat)
  | start (p : Nat)
  | hold (p : Nat)
  | net (p : Nat) (z : Sizing) (quotes : List Quote)
  | submit (p q : Nat) (outcome : RiskOutcome) (now : Instant)
  | skip (p : Nat)
  | finish (p : Nat)

/-- What the order system may do by itself: orders come from rebalances, and the broker does not execute more
    than was ordered. -/
def allowed (d : Orders.State) : Orders.Label → Bool
  | .persist .. => false
  | .execute bid _ qty _ _ =>
    (d.broker.get bid).all fun b => (d.db.orders[b.order]?).all fun o => executed d.broker b.order + qty ≤ o.qty
  | _ => true

/-- The quotes are of distinct tickers, and size them at their targets. -/
def sized (σ : Setting) (z : Sizing) (quotes : List Quote) : Bool :=
  (quotes.map (·.symbol)).Nodup ∧ quotes.all fun q =>
    q.symbol ∈ σ.tickers ∧ q.price.all fun price => price ≤ 0 ∨ z.targetQty price = σ.target q.symbol

namespace State

def move (s : State) (p : Nat) (t : Task) : State := { s with tasks := Function.update s.tasks p t }

def setDb (s : State) (db : Db) : State := { s with desk := s.desk.setDb db }

end State

def Holdings.note (holdings : Holdings) (ticker : String) (qty : ℚ) : Holdings :=
  if 0 < qty then Dict.setEntry ticker qty holdings else holdings

def step (σ : Setting) (s : State) : Label → Option State
  | .desk l =>
    if allowed s.desk l then (Orders.system.step s.desk l).map fun d => { s with desk := d } else none
  | .recomputeRead i =>
    some { s with recomputes := s.recomputes ++ [(i, symbolCost s.desk.db σ.accountId i)] }
  | .recomputeWrite j =>
    match s.recomputes[j]? with
    | some (i, cost) =>
      some { s.setDb (writeCost s.desk.db σ.accountId i cost) with recomputes := s.recomputes.eraseIdx j }
    | none => none
  | .syncRead => some { s with reports := s.reports ++ [report σ s.desk] }
  | .syncWrite j =>
    match s.reports[j]? with
    | some reported =>
      some { s.setDb (syncAccount s.desk.db σ.accountId reported) with reports := s.reports.eraseIdx j }
    | none => none
  | .start p =>
    match s.tasks p with
    | .idle => some (s.move p (.holding σ.tickers []))
    | _ => none
  | .hold p =>
    match s.tasks p with
    | .holding (ticker :: todo) holdings =>
      some (s.move p (.holding todo (Holdings.note holdings ticker (held σ s.desk.db ticker))))
    | _ => none
  | .net p z quotes =>
    match s.tasks p with
    | .holding [] holdings =>
      let legs := applyTargets z holdings (pendingBuyQty σ s.desk.db) quotes
      if sized σ z quotes ∧ legs.all (·.side = .buy) then some (s.move p (.submitting legs)) else none
    | _ => none
  | .submit p q outcome now =>
    match s.tasks p with
    | .submitting (leg :: legs) =>
      if resolveSymbolId s.desk.db (σ.request leg) outcome = symbolIdByTicker s.desk.db leg.symbol then
        (Orders.system.step s.desk (.persist q (σ.request leg) outcome now)).map fun d =>
          { s with desk := d }.move p (.submitting legs)
      else none
    | _ => none
  | .skip p =>
    match s.tasks p with
    | .submitting (_ :: legs) => some (s.move p (.submitting legs))
    | _ => none
  | .finish p =>
    match s.tasks p with
    | .submitting [] => some (s.move p .idle)
    | _ => none

def system (σ : Setting) : Machine State Label := ⟨step σ⟩

/-- Nothing ordered and nothing under way. -/
structure Fresh (σ : Setting) (s : State) : Prop where
  desk : Orders.Fresh s.desk
  recomputes : s.recomputes = []
  reports : s.reports = []
  tasks : ∀ p, s.tasks p = .idle
  unique : (s.desk.db.symbols.map (·.ticker)).Nodup
  target : ∀ t ∈ σ.tickers, 0 ≤ σ.target t

/-! ## The property -/

def remainder (σ : Setting) (d : Orders.State) (ticker : String) : ℚ :=
  overBuys σ d.db ticker fun order o => if order.status.terminal then 0 else order.qty - executed d.broker o

def committedQty (σ : Setting) (s : State) (ticker : String) : ℚ :=
  bought σ s.desk ticker + remainder σ s.desk ticker

def seenQty (σ : Setting) (s : State) (ticker : String) : ℚ :=
  held σ s.desk.db ticker + pendingBuyQty σ s.desk.db ticker

def Visible (σ : Setting) (s : State) : Prop := ∀ t ∈ σ.symbols, committedQty σ s t ≤ seenQty σ s t

/-- What was filled and what is in flight stays within the target. -/
def Within (σ : Setting) (s : State) : Prop := ∀ t ∈ σ.tickers, committedQty σ s t ≤ σ.target t

/-! ## The condition -/

/-- What was executed for the orders that are terminal. -/
def ended (σ : Setting) (d : Orders.State) (ticker : String) : ℚ :=
  overBuys σ d.db ticker fun order o => if order.status.terminal then executed d.broker o else 0

def reportedQty (reported : List ReportedPosition) (ticker : String) : ℚ :=
  max (((reported.find? (·.symbol = ticker)).map (·.qty)).getD 0) 0

/-- A quantity of a ticker is counted: in its position row, in every row that a recompute or a sync under way is
    about to write, and in every holding that a rebalance has read and not yet netted. -/
structure Counts (σ : Setting) (s : State) (ticker : String) (qty : ℚ) : Prop where
  row : qty ≤ held σ s.desk.db ticker
  recomputes : ∀ x ∈ s.recomputes, symbolIdByTicker s.desk.db ticker = some x.1 → qty ≤ max x.2.qty 0
  reports : ∀ reported ∈ s.reports, qty ≤ reportedQty reported ticker
  holdings : ∀ p todo holdings, s.tasks p = .holding todo holdings → ticker ∈ σ.tickers → ticker ∉ todo →
    qty ≤ (holdings.lookup ticker).getD 0

/-- The status write of a label changes whether the order is over. -/
def Turns (d : Orders.State) (l : Orders.Label) (o : Nat) (isOver : Bool) : Prop :=
  ∃ g current, statusWrite d l = some (o, g) ∧ statusOf d.db o = some current ∧
    current.terminal = !isOver ∧ (g current).terminal = isOver

def bookedQty (σ : Setting) (db : Db) (symbolId : Nat) : ℚ :=
  Table.total (fun x : Fill × OrderSide => if x.2 = .buy then x.1.qty else -x.1.qty)
    (symbolFills db σ.accountId symbolId)

/-- An order is over only when its executed shares, beside those of the orders over before, are counted; it is
    over for good, at the broker too; a recompute finds the executed shares of orders that are over in the
    books; and a rebalance nets while no other one is submitting. -/
def Counted (σ : Setting) (s : State) : Label → Prop
  | .desk l =>
    (∀ o order t, s.desk.db.orders[o]? = some order → s.desk.db.ticker order = some t → Turns s.desk l o true →
      Counts σ s t (ended σ s.desk t + executed s.desk.broker o)) ∧
    (∀ o, ¬ Turns s.desk l o false) ∧
    ∀ bid id qty price isPartial b order, l = .execute bid id qty price isPartial →
      s.desk.broker.get bid = some b → s.desk.db.orders[b.order]? = some order → order.status.terminal = false
  | .recomputeRead i => ∀ t, symbolIdByTicker s.desk.db t = some i → ended σ s.desk t ≤ bookedQty σ s.desk.db i
  | .net _ _ _ => ∀ p leg legs, s.tasks p ≠ .submitting (leg :: legs)
  | _ => True

end Workbench.Rebalance
