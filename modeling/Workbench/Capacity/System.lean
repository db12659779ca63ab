import Workbench.Lib.Machine
import Workbench.Orders.Router

/-!
# The capacity system

The processes that share one reducible position: any number of sessions that decide, place and settle
reserved sells against one database and one broker. Every label is one commit, one read phase or one
broker event, so a run of `system` is an interleaving of them.

A session that decides first reads (`decideRead` keeps the whole world it saw) and later writes
(`decideWrite` classifies against that old world, but claims against the current database). A granted
session persists its order, links the reservation to it and submits it, as
`OrderRouter._submit_inner` does. A settling session reads the rows it is going to settle
(`settleRead`) and later writes them (`settleWrite`).

The broker fills and cancels live orders on its own, `ingest` books a local fill row and `orderWrite`
is any write to an order's status or broker id. There are no other sells and no buys: every broker
order comes from a reservation.
-/

namespace Workbench.Capacity
open Workbench.Lib Workbench.Risk Workbench.Orders

/-- A sell at the broker. -/
structure BrokerOrder where
  id : String
  accountId : Nat
  symbol : String
  qty : ℚ
  filled : ℚ := 0
  live : Bool := true

/-- The broker: what each account is long, and the orders it accepted, under the local order each
    was submitted for (its `client_order_id`). -/
structure Broker where
  listed : Nat → List String
  long : Nat → String → ℚ
  orders : Dict Nat BrokerOrder := .empty

/-- What a broker read carries besides positions and orders. -/
structure Quote where
  cash : ℚ := 0
  equity : ℚ := 0
  buyingPower : ℚ := 0
  price : String → ℚ
  stamps : String → List String := fun _ => []

/-- `get_positions`: the listed symbols with a position. -/
def Broker.positions (b : Broker) (account : Nat) (q : Quote) : List BrokerPosition :=
  ((b.listed account).filter (b.long account · ≠ 0)).map fun sym =>
    { symbol := sym, qty := b.long account sym, currentPrice := q.price sym }

/-- `list_orders(status="open", limit=500)`. -/
def Broker.openOrders (b : Broker) (account : Nat) (q : Quote) : List BrokerOpenOrder :=
  (((b.orders.values.filter fun o => o.accountId = account ∧ o.live).map fun o =>
    { id := o.id, symbol := o.symbol, side := .sell, qty := o.qty, filledQty := o.filled,
      stamps := q.stamps o.id }).take 500)

/-- The broker's answer to the three reads of a snapshot. -/
def Broker.read (b : Broker) (account : Nat) (q : Quote) : BrokerRead where
  cash := q.cash
  equity := q.equity
  buyingPower := q.buyingPower
  positions := b.positions account q
  orders := b.openOrders account q

/-- The shared database and the broker. -/
structure World where
  db : Db
  broker : Broker

/-- The three settling calls. -/
inductive SettleCall where
  | release (reservationId : Option Nat) (reason : String)
  | settle (orderId : Nat) (filled : Bool) (reason : String)
  | reap (now : Instant) (olderThanSeconds : Nat)

def SettleCall.read (db : Db) : SettleCall → List SettleItem
  | release i reason => releaseReservation db i reason
  | settle o filled reason => settleReservationForOrder db o filled reason
  | reap now older => reapOrphanedReservations db now older

/-- Where a session stands. -/
inductive Session where
  | idle
  | deciding (account : Nat) (action : ProposedAction) (view : World) (quote : Option Quote)
  | approved (account : Nat) (action : ProposedAction) (reservation : Nat)
  | persisted (account : Nat) (action : ProposedAction) (reservation order : Nat)
  | linked (account : Nat) (action : ProposedAction) (reservation order : Nat)
  | settling (items : List SettleItem)

/-- The world and every session. -/
structure State where
  world : World
  sessions : Nat → Session := fun _ => .idle

namespace State

def move (s : State) (p : Nat) (c : Session) : State :=
  { s with sessions := Function.update s.sessions p c }

def setDb (s : State) (db : Db) : State := { s with world := { s.world with db := db } }

def setBroker (s : State) (b : Broker) : State := { s with world := { s.world with broker := b } }

@[simp] lemma setDb_world {s : State} {db : Db} : (s.setDb db).world = ⟨db, s.world.broker⟩ := rfl

@[simp] lemma setBroker_world {s : State} {b : Broker} : (s.setBroker b).world = ⟨s.world.db, b⟩ := rfl

end State

/-- One move of a session, of the broker or of the fill ingestion. -/
inductive Label where
  | decideRead (p account : Nat) (action : ProposedAction) (quote : Option Quote)
  | decideWrite (p : Nat) (args : DecideArgs) (now : Instant)
  | persist (p symbolId userId : Nat) (now : Instant)
  | link (p : Nat)
  | submit (p : Nat) (brokerOrderId : String)
  | abandon (p : Nat)
  | brokerFill (o : Nat) (qty : ℚ)
  | brokerCancel (o : Nat)
  | ingest (fill : Fill)
  | orderWrite (o : Nat) (status : OrderStatus) (brokerOrderId : Option String) (now : Instant)
  | settleRead (p : Nat) (call : SettleCall)
  | settleWrite (p : Nat)

/-- The snapshot a deciding session classifies. -/
def viewSnapshot (view : World) (account : Nat) (quote : Option Quote) : AccountSnapshot :=
  decisionSnapshot view.db account (quote.map (view.broker.read account))

/-- The order `_persist_initial_order` inserts for an approved sell. -/
def newOrder (account : Nat) (action : ProposedAction) (symbolId userId : Nat) (now : Instant) :
    Order where
  userId := userId
  accountId := account
  symbolId := symbolId
  side := .sell
  qty := action.qty.getD 0
  createdAt := now
  updatedAt := now

def Broker.accept (b : Broker) (o : Nat) (order : BrokerOrder) : Broker :=
  { b with orders := b.orders.set o order }

/-- The broker executes `qty` of an order. -/
def Broker.fill (b : Broker) (o : Nat) (order : BrokerOrder) (qty : ℚ) : Broker where
  listed := b.listed
  long a sym :=
    if (a, sym) = (order.accountId, order.symbol) then b.long a sym - qty else b.long a sym
  orders := b.orders.set o { order with
    filled := order.filled + qty, live := order.filled + qty < order.qty }

def Broker.cancel (b : Broker) (o : Nat) (order : BrokerOrder) : Broker :=
  { b with orders := b.orders.set o { order with live := false } }

def afterDecision (account : Nat) (action : ProposedAction) : Option Nat → Session
  | some r => .approved account action r
  | none => .idle

def step (s : State) : Label → Option State
  | .decideRead p account action quote =>
    match s.sessions p with
    | .idle =>
      -- callers put a quantity on a submission only
      if action.action = .orderSubmit ∨ action.qty = none then
        some (s.move p (.deciding account action s.world quote))
      else none
    | _ => none
  | .decideWrite p args now =>
    match s.sessions p with
    | .deciding account action view quote =>
      let (db, out) :=
        decideWrite s.world.db account (viewSnapshot view account quote) action args now
      some ((s.setDb db).move p (afterDecision account action out.reservationId))
    | _ => none
  | .persist p symbolId userId now =>
    match s.sessions p with
    | .approved account action r =>
      let db := s.world.db
      some ((s.setDb { db with
        orders := db.orders ++ [newOrder account action symbolId userId now] }).move p
          (.persisted account action r db.orders.length))
    | _ => none
  | .link p =>
    match s.sessions p with
    | .persisted account action r o =>
      some ((s.setDb (linkReservation s.world.db r o)).move p (.linked account action r o))
    | _ => none
  | .submit p brokerOrderId =>
    match s.sessions p with
    | .linked account action _ o =>
      some ((s.setBroker (s.world.broker.accept o
        ⟨brokerOrderId, account, upper action.symbol, action.qty.getD 0, 0, true⟩)).move p .idle)
    | _ => none
  | .abandon p => some (s.move p .idle)
  | .brokerFill o qty =>
    match s.world.broker.orders.get o with
    | some b =>
      if b.live ∧ 0 < qty ∧ b.filled + qty ≤ b.qty then
        some (s.setBroker (s.world.broker.fill o b qty))
      else none
    | none => none
  | .brokerCancel o =>
    match s.world.broker.orders.get o with
    | some b => some (s.setBroker (s.world.broker.cancel o b))
    | none => none
  | .ingest fill =>
    let db := s.world.db
    some (s.setDb { db with fills := db.fills ++ [fill] })
  | .orderWrite o status brokerOrderId now =>
    let db := s.world.db
    some (s.setDb { db with orders := Table.amend o (fun order =>
      { order with status, brokerOrderId, updatedAt := now }) db.orders })
  | .settleRead p call =>
    match s.sessions p with
    | .idle => some (s.move p (.settling (call.read s.world.db)))
    | _ => none
  | .settleWrite p =>
    match s.sessions p with
    | .settling items => some ((s.setDb (settleWrite s.world.db items)).move p .idle)
    | _ => none

def system : Machine State Label := ⟨step⟩

/-! ## Inversion -/

/-- What one step can do, one constructor a label. -/
inductive Step (s : State) : Label → State → Prop where
  | decideRead {p account action quote} :
    s.sessions p = .idle → (action.action = .orderSubmit ∨ action.qty = none) →
    Step s (.decideRead p account action quote) (s.move p (.deciding account action s.world quote))
  | decideWrite {p args now account action view quote} :
    s.sessions p = .deciding account action view quote →
    Step s (.decideWrite p args now)
      ((s.setDb (decideWrite s.world.db account (viewSnapshot view account quote) action args now).1).move
        p (afterDecision account action
          ((grantedQty s.world.db account (viewSnapshot view account quote) action).map
            fun _ => s.world.db.reservations.length)))
  | persist {p symbolId userId now account action r} :
    s.sessions p = .approved account action r →
    Step s (.persist p symbolId userId now)
      ((s.setDb { s.world.db with
        orders := s.world.db.orders ++ [newOrder account action symbolId userId now] }).move p
          (.persisted account action r s.world.db.orders.length))
  | link {p account action r o} :
    s.sessions p = .persisted account action r o →
    Step s (.link p)
      ((s.setDb (linkReservation s.world.db r o)).move p (.linked account action r o))
  | submit {p bid account action r o} :
    s.sessions p = .linked account action r o →
    Step s (.submit p bid)
      ((s.setBroker (s.world.broker.accept o
        ⟨bid, account, upper action.symbol, action.qty.getD 0, 0, true⟩)).move p .idle)
  | abandon {p} : Step s (.abandon p) (s.move p .idle)
  | brokerFill {o b qty} :
    s.world.broker.orders.get o = some b → b.live = true → 0 < qty → b.filled + qty ≤ b.qty →
    Step s (.brokerFill o qty) (s.setBroker (s.world.broker.fill o b qty))
  | brokerCancel {o b} :
    s.world.broker.orders.get o = some b →
    Step s (.brokerCancel o) (s.setBroker (s.world.broker.cancel o b))
  | ingest {fill} :
    Step s (.ingest fill) (s.setDb { s.world.db with fills := s.world.db.fills ++ [fill] })
  | orderWrite {o status bid now} :
    Step s (.orderWrite o status bid now)
      (s.setDb { s.world.db with orders := Table.amend o (fun order =>
        { order with status, brokerOrderId := bid, updatedAt := now }) s.world.db.orders })
  | settleRead {p call} :
    s.sessions p = .idle →
    Step s (.settleRead p call) (s.move p (.settling (call.read s.world.db)))
  | settleWrite {p items} :
    s.sessions p = .settling items →
    Step s (.settleWrite p) ((s.setDb (settleWrite s.world.db items)).move p .idle)

lemma Step.of_step {s t : State} {l : Label} (st : system.step s l = some t) : Step s l t := by
  simp only [system] at st
  cases l with
  | abandon p => cases st; exact .abandon
  | brokerCancel o =>
    simp only [step] at st
    split at st <;> cases st
    rename_i b get; exact .brokerCancel get
  | ingest fill => cases st; exact .ingest
  | orderWrite o status bid now => cases st; exact .orderWrite
  | brokerFill o qty =>
    simp only [step] at st
    split at st
    · rename_i b get
      split at st
      · rename_i h; cases st; exact .brokerFill get h.1 h.2.1 h.2.2
      · cases st
    · cases st
  | decideRead p account action quote =>
    simp only [step] at st
    split at st
    · rename_i idle
      split at st
      · rename_i h; cases st; exact .decideRead idle h
      · cases st
    · cases st
  | decideWrite p args now =>
    simp only [step] at st
    split at st
    · rename_i account action view quote at_
      cases st
      rw [decideWrite_reservationId]
      exact .decideWrite at_
    · cases st
  | persist p symbolId userId now =>
    simp only [step] at st
    split at st <;> cases st
    rename_i h; exact .persist h
  | link p =>
    simp only [step] at st
    split at st <;> cases st
    rename_i h; exact .link h
  | submit p bid =>
    simp only [step] at st
    split at st <;> cases st
    rename_i h; exact .submit h
  | settleRead p call =>
    simp only [step] at st
    split at st <;> cases st
    rename_i h; exact .settleRead h
  | settleWrite p =>
    simp only [step] at st
    split at st <;> cases st
    rename_i h; exact .settleWrite h

end Workbench.Capacity
