import Workbench.Risk.DecisionService
import Workbench.Risk.Types

/-!
# The order router

Model of the database writes of `OrderRouter` (`app/orders/router.py`): `_persist_initial_order` with
its back-link, the two writes of `_submit_inner` that follow the risk verdict, the write after the
broker accepted, `_mark_broker_rejected`, and the local branch of `cancel`. Each is one commit.

A status write goes through `flushStatus`: the ORM writes the column only when the new value differs
from the one the session loaded, whatever the row holds by then.
-/

namespace Workbench.Orders
open Workbench.Lib Workbench.Risk

/-- What the ORM flushes of a status: nothing when it equals the loaded one. -/
def flushStatus (loaded new : OrderStatus) (order : Order) : Order :=
  if new = loaded then order else { order with status := new }

def resolveSymbolId (db : Db) (req : OrderRequest) (outcome : RiskOutcome) : Option Nat :=
  outcome.resolvedSymbolId.or (db.symbols.findIdx? fun s => s.ticker = req.symbolTicker)

/-- The row Python `_persist_initial_order` inserts. -/
def initialOrder (req : OrderRequest) (outcome : RiskOutcome) (symbolId : Nat) (now : Instant) :
    Order where
  userId := req.userId
  accountId := req.accountId
  symbolId := symbolId
  side := req.side
  qty := req.qty
  estimatedNotional := outcome.estimatedNotional
  createdAt := now
  updatedAt := now

/-- Insert an order row; its id is the old length of the table. -/
def insertOrder (db : Db) (order : Order) : Db := { db with orders := db.orders ++ [order] }

/-- The back-link of a reservation to its order, `if res.order_id is None`. -/
def linkReservation (db : Db) (reservation order : Nat) : Db :=
  { db with
    reservations := Table.amend reservation
      (fun r => if r.orderId = none then { r with orderId := some order } else r) db.reservations }

def amendOrder (db : Db) (o : Nat) (f : Order → Order) : Db :=
  { db with orders := Table.amend o f db.orders }

/-- The write after the verdict: `PENDING_SUBMIT` when the outcome passed, `REJECTED` otherwise. -/
def writeVerdict (db : Db) (o : Nat) (passed : Bool) (now : Instant) : Db :=
  amendOrder db o fun order =>
    { order with status := if passed then .pendingSubmit else .rejected, updatedAt := now }

/-- The write after the broker accepted: the broker id becomes visible, the status `SUBMITTED`. -/
def writeSubmitted (db : Db) (o : Nat) (brokerOrderId : String) (now : Instant) : Db :=
  amendOrder db o fun order =>
    { order with brokerOrderId := some brokerOrderId, status := .submitted, updatedAt := now }

/-- The write of Python `_mark_broker_rejected`. -/
def markBrokerRejected (db : Db) (o : Nat) (now : Instant) : Db :=
  amendOrder db o fun order => { order with status := .rejected, updatedAt := now }

/-- The local branch of Python `OrderRouter.cancel`, for an order loaded without a broker id. -/
def cancelLocal (db : Db) (o : Nat) (loaded : Order) (now : Instant) : Db :=
  amendOrder db o fun order =>
    { flushStatus loaded.status .canceled order with updatedAt := now }

/-- `if not order.broker_order_id`. -/
def neverReachedBroker (order : Order) : Bool := order.brokerOrderId = none ∨ order.brokerOrderId = some ""

end Workbench.Orders
