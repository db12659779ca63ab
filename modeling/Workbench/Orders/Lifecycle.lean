import Workbench.Orders.Router

/-!
# The trade-update consumer

Model of `app/orders/lifecycle.py`. `TradeUpdateConsumer._handle` reads the order of an event and, for
a fill, looks for a row with its execution id (`handle`); what is left to write is a `Pending`, and
`Pending.write` is its one commit. A write that made the order terminal is followed by
`settle_reservation_for_order` in transactions of its own (`Pending.settles`).

`_handle_fill` asks the database for the sum of the fills after `session.add`, so the pending row is
flushed and counted in the sum, and then adds its quantity once more (`allFillsQty`).
-/

namespace Workbench.Orders
open Workbench.Lib Workbench.Risk

/-- The keys of Python `_ALPACA_TERMINAL_MAP`. -/
inductive TerminalEvent where
  | canceled
  | expired
  | rejected
  | replaced
  deriving DecidableEq, Repr

/-- Python `_ALPACA_TERMINAL_MAP`. -/
def TerminalEvent.status : TerminalEvent → OrderStatus
  | .canceled => .canceled
  | .expired => .expired
  | .rejected => .rejected
  | .replaced => .replaced

/-- A `fill` or `partial_fill` event, with its numbers decoded. -/
structure FillEvent where
  executionId : Option FillId
  qty : ℚ
  price : ℚ
  isPartial : Bool
  timestamp : Option Instant := none

/-- What the consumer does with an event. -/
inductive Event where
  | fill (event : FillEvent)
  | terminal (event : TerminalEvent)
  | informational

/-- A trade update. -/
structure Payload where
  brokerOrderId : String
  event : Event

/-- The order a trade update is about: the first row with its broker id. -/
def findOrder (db : Db) (brokerOrderId : String) : Option Nat :=
  if brokerOrderId = "" then none
  else db.orders.findIdx? fun o => o.brokerOrderId = some brokerOrderId

/-- Whether a fill with this id was booked, `existing is not None`. -/
def alreadyBooked (db : Db) (executionId : Option FillId) : Bool :=
  executionId.isSome && db.fills.any fun f => f.brokerFillId == executionId

/-- An event that passed every check, with the order as it was loaded. -/
inductive Pending where
  | fill (o : Nat) (loaded : Order) (event : FillEvent)
  | terminal (o : Nat) (loaded : Order) (event : TerminalEvent)

/-- The reads of Python `TradeUpdateConsumer._handle`; `none` when the event is dropped. -/
def handle (db : Db) (payload : Payload) : Option Pending :=
  match findOrder db payload.brokerOrderId with
  | none => none
  | some o =>
    match db.orders[o]? with
    | none => none
    | some loaded =>
      match payload.event with
      | .fill event =>
        if alreadyBooked db event.executionId then none
        else if event.qty ≤ 0 ∨ event.price ≤ 0 then none
        else some (.fill o loaded event)
      | .terminal event => if loaded.status.terminal then none else some (.terminal o loaded event)
      | .informational => none

def newFill (o : Nat) (event : FillEvent) (now : Instant) : Fill where
  orderId := o
  brokerFillId := event.executionId
  qty := event.qty
  price := event.price
  filledAt := event.timestamp.getD now

def insertFill (db : Db) (fill : Fill) : Db := { db with fills := db.fills ++ [fill] }

/-- The `all_fills_qty` of `_handle_fill`: the flushed sum and the new quantity. -/
def allFillsQty (db : Db) (o : Nat) (event : FillEvent) (now : Instant) : ℚ :=
  (insertFill db (newFill o event now)).filledQty o + event.qty

def filledStatus (db : Db) (o : Nat) (loaded : Order) (event : FillEvent) (now : Instant) :
    OrderStatus :=
  if event.isPartial ∨ allFillsQty db o event now < loaded.qty then .partiallyFilled else .filled

def Pending.status (db : Db) (now : Instant) : Pending → OrderStatus
  | .fill o loaded event => filledStatus db o loaded event now
  | .terminal _ _ event => event.status

def Pending.order : Pending → Nat
  | .fill o _ _ | .terminal o _ _ => o

def Pending.loaded : Pending → Order
  | .fill _ loaded _ | .terminal _ loaded _ => loaded

/-- The commit of `_handle_fill` or `_handle_terminal`. -/
def Pending.write (db : Db) (now : Instant) (x : Pending) : Db :=
  let db' := match x with
    | .fill o _ event => insertFill db (newFill o event now)
    | .terminal _ _ _ => db
  amendOrder db' x.order fun order =>
    { flushStatus x.loaded.status (x.status db now) order with updatedAt := now }

/-- The reservation call that follows the commit: consumed on a complete fill, released otherwise. -/
def Pending.settles (db : Db) (now : Instant) (x : Pending) : Option Bool :=
  match x with
  | .fill .. => if x.status db now = .filled then some true else none
  | .terminal .. => some false

end Workbench.Orders
