import Workbench.Lib.Machine
import Workbench.Orders.Settlement

/-!
# The order system

The writers of an order and the broker they follow: `OrderRouter._submit_inner` and
`OrderRouter.cancel`, the trade-update consumer, and the REST settlement that feeds the same consumer.
Every label is one commit, one read phase or one broker event; a task holds what its coroutine
remembers between two of them, and a run of `system` is an interleaving.

The broker accepts, executes and ends orders on its own. Its stream may deliver an execution or an end
any number of times and in any order (`deliverFill`, `deliverEnd` take any that happened), and a report
is its cumulative quantity at that moment (`report`). `delivered` records which executions the stream
has handed to the consumer.
-/

namespace Workbench.Orders
open Workbench.Lib Workbench.Risk List Option

/-- One execution at the broker; `cumQty` is the cumulative quantity with it. -/
structure Execution where
  id : String
  qty : ℚ
  price : ℚ
  isPartial : Bool
  cumQty : ℚ
  deriving DecidableEq

/-- How an order ended at the broker. -/
inductive Ending where
  | filled
  | ended (event : TerminalEvent)
  deriving DecidableEq, Repr

/-- An order at the broker, with the local order its `client_order_id` names. -/
structure BrokerOrder where
  order : Nat
  executions : List Execution := []
  ending : Option Ending := none
  deriving DecidableEq

def BrokerOrder.cumQty (b : BrokerOrder) : ℚ := Table.total (·.qty) b.executions

def BrokerOrder.status (b : BrokerOrder) : BrokerStatus :=
  match b.ending with
  | some .filled => .filled
  | some (.ended event) => .ended event
  | none => if b.executions.isEmpty then .working else .partiallyFilled

/-- What a coroutine remembers between two commits. -/
inductive Task where
  | idle
  | persisted (o : Nat) (reservation : Option Nat) (passed : Bool)
  | linked (o : Nat) (passed : Bool)
  | pending (o : Nat)
  | accepted (o : Nat) (brokerOrderId : String)
  | refused (o : Nat)
  | cancelling (o : Nat) (loaded : Order)
  | reported (o : Nat) (brokerOrderId : String) (report : BrokerReport)
  | handling (queue : List Payload)
  | writing (event : Pending) (rest : List Payload)
  | settle (o : Nat) (filled : Bool) (reason : String) (rest : List Payload)
  | settling (o : Nat) (items : List SettleItem) (rest : List Payload)

def Task.isIdle : Task → Bool
  | .idle => true
  | _ => false

/-- The database, the broker, the tasks, and the executions delivered so far. -/
structure State where
  db : Db
  broker : Dict String BrokerOrder := .empty
  tasks : Nat → Task := fun _ => .idle
  delivered : List String := []

namespace State

def move (s : State) (p : Nat) (t : Task) : State := { s with tasks := Function.update s.tasks p t }

def setDb (s : State) (db : Db) : State := { s with db := db }

def setOrder (s : State) (bid : String) (b : BrokerOrder) : State :=
  { s with broker := s.broker.set bid b }

end State

/-- One move of a task or of the broker. -/
inductive Label where
  | reserve (row : RiskReservation)
  | persist (p : Nat) (req : OrderRequest) (outcome : RiskOutcome) (now : Instant)
  | link (p : Nat)
  | verdict (p : Nat) (now : Instant)
  | accept (p : Nat) (brokerOrderId : String)
  | refuse (p : Nat)
  | submitted (p : Nat) (now : Instant)
  | rejected (p : Nat) (now : Instant)
  | transient (p : Nat)
  | cancelRead (p o : Nat)
  | cancelWrite (p : Nat) (now : Instant)
  | execute (brokerOrderId id : String) (qty price : ℚ) (isPartial : Bool)
  | endOrder (brokerOrderId : String) (event : TerminalEvent)
  | deliverFill (p : Nat) (brokerOrderId id : String)
  | deliverEnd (p : Nat) (brokerOrderId : String)
  | report (p o : Nat) (avgPrice : ℚ)
  | resolve (p : Nat) (reads : Reads)
  | load (p : Nat)
  | write (p : Nat) (now : Instant)
  | settleRead (p : Nat)
  | settleWrite (p : Nat)

def Label.task : Label → Option Nat
  | .reserve _ | .execute .. | .endOrder .. => none
  | .persist p _ _ _ | .link p | .verdict p _ | .accept p _ | .refuse p | .submitted p _
  | .rejected p _ | .transient p | .cancelRead p _ | .cancelWrite p _ | .deliverFill p _ _
  | .deliverEnd p _ | .report p _ _ | .resolve p _ | .load p | .write p _ | .settleRead p
  | .settleWrite p => some p

def resume : List Payload → Task
  | [] => .idle
  | queue => .handling queue

def Execution.event (e : Execution) : FillEvent where
  executionId := some (.execution e.id)
  qty := e.qty
  price := e.price
  isPartial := e.isPartial

/-- The trade update that carries an execution. -/
def fillPayload (bid : String) (e : Execution) : Payload := ⟨bid, .fill e.event⟩

def BrokerOrder.execute (b : BrokerOrder) (id : String) (qty price : ℚ) (isPartial : Bool) :
    BrokerOrder :=
  { b with
    executions := b.executions ++ [⟨id, qty, price, isPartial, b.cumQty + qty⟩]
    ending := if isPartial then none else some .filled }

def executionIdUsed (broker : Dict String BrokerOrder) (id : String) : Bool :=
  broker.values.any fun b => b.executions.any (·.id == id)

def settleReason (x : Pending) : String :=
  match x with
  | .fill .. => "ORDER_FILLED"
  | .terminal _ _ .canceled => "ORDER_CANCELED"
  | .terminal _ _ .expired => "ORDER_EXPIRED"
  | .terminal _ _ .rejected => "ORDER_REJECTED"
  | .terminal _ _ .replaced => "ORDER_REPLACED"

def afterWrite (x : Pending) (settles : Option Bool) (rest : List Payload) : Task :=
  match settles with
  | some filled => .settle x.order filled (settleReason x) rest
  | none => resume rest

def step (s : State) : Label → Option State
  | .reserve row =>
    if row.state = .held ∧ row.orderId = none then
      some (s.setDb { s.db with reservations := s.db.reservations ++ [row] })
    else none
  | .persist p req outcome now =>
    match s.tasks p, resolveSymbolId s.db req outcome with
    | .idle, some symbolId =>
      some ((s.setDb (insertOrder s.db (initialOrder req outcome symbolId now))).move p
        (.persisted s.db.orders.length outcome.reservationId outcome.passed))
    | _, _ => none
  | .link p =>
    match s.tasks p with
    | .persisted o (some r) passed =>
      some ((s.setDb (linkReservation s.db r o)).move p (.linked o passed))
    | .persisted o none passed => some (s.move p (.linked o passed))
    | _ => none
  | .verdict p now =>
    match s.tasks p with
    | .linked o passed =>
      some ((s.setDb (writeVerdict s.db o passed now)).move p (if passed then .pending o else .idle))
    | _ => none
  | .accept p bid =>
    match s.tasks p, s.broker.get bid with
    | .pending o, none =>
      if bid = "" then none else some ((s.setOrder bid { order := o }).move p (.accepted o bid))
    | _, _ => none
  | .refuse p =>
    match s.tasks p with
    | .pending o => some (s.move p (.refused o))
    | _ => none
  | .submitted p now =>
    match s.tasks p with
    | .accepted o bid => some ((s.setDb (writeSubmitted s.db o bid now)).move p .idle)
    | _ => none
  | .rejected p now =>
    match s.tasks p with
    | .refused o =>
      some ((s.setDb (markBrokerRejected s.db o now)).move p
        (.settle o false "ORDER_REJECTED_BY_BROKER" []))
    | _ => none
  | .transient p =>
    match s.tasks p with
    | .pending _ => some (s.move p .idle)
    | _ => none
  | .cancelRead p o =>
    match s.tasks p, s.db.orders[o]? with
    | .idle, some loaded =>
      if neverReachedBroker loaded then some (s.move p (.cancelling o loaded)) else some s
    | _, _ => none
  | .cancelWrite p now =>
    match s.tasks p with
    | .cancelling o loaded =>
      some ((s.setDb (cancelLocal s.db o loaded now)).move p
        (.settle o false "ORDER_CANCELED_LOCAL" []))
    | _ => none
  | .execute bid id qty price isPartial =>
    match s.broker.get bid with
    | some b =>
      if b.ending = none ∧ 0 < qty ∧ 0 < price ∧ executionIdUsed s.broker id = false then
        some (s.setOrder bid (b.execute id qty price isPartial))
      else none
    | none => none
  | .endOrder bid event =>
    match s.broker.get bid with
    | some b =>
      if b.ending = none then some (s.setOrder bid { b with ending := some (.ended event) }) else none
    | none => none
  | .deliverFill p bid id =>
    match s.tasks p, (s.broker.get bid).bind fun b => b.executions.find? (·.id == id) with
    | .idle, some e =>
      some ({ s with delivered := s.delivered ++ [id] }.move p (.handling [fillPayload bid e]))
    | _, _ => none
  | .deliverEnd p bid =>
    match s.tasks p, (s.broker.get bid).bind (·.ending) with
    | .idle, some (.ended event) => some (s.move p (.handling [⟨bid, .terminal event⟩]))
    | _, _ => none
  | .report p o avgPrice =>
    match s.tasks p, (s.db.orders[o]?).bind (·.brokerOrderId) with
    | .idle, some bid =>
      match s.broker.get bid with
      | some b => some (s.move p (.reported o bid ⟨b.status, b.cumQty, avgPrice⟩))
      | none => none
    | _, _ => none
  | .resolve p reads =>
    match s.tasks p with
    | .reported o bid r =>
      match resolveBrokerOutcome reads s.db o bid r with
      | .ok queue => some (s.move p (resume queue))
      | .error _ => some (s.move p .idle)
    | _ => none
  | .load p =>
    match s.tasks p with
    | .handling (x :: rest) =>
      match handle s.db x with
      | some event => some (s.move p (.writing event rest))
      | none => some (s.move p (resume rest))
    | _ => none
  | .write p now =>
    match s.tasks p with
    | .writing x rest =>
      some ((s.setDb (x.write s.db now)).move p (afterWrite x (x.settles s.db now) rest))
    | _ => none
  | .settleRead p =>
    match s.tasks p with
    | .settle o filled reason rest =>
      some (s.move p (.settling o (settleReservationForOrder s.db o filled reason) rest))
    | _ => none
  | .settleWrite p =>
    match s.tasks p with
    | .settling _ items rest => some ((s.setDb (settleWrite s.db items)).move p (resume rest))
    | _ => none

def system : Machine State Label := ⟨step⟩

/-- No order yet: empty tables, an empty broker, and nothing in progress. -/
structure Fresh (s : State) : Prop where
  orders : s.db.orders = []
  fills : s.db.fills = []
  reservations : s.db.reservations = []
  broker : s.broker = .empty
  tasks : ∀ p, s.tasks p = .idle
  delivered : s.delivered = []

/-! ## Inversion -/

namespace State

variable {s : State} {p q : Nat} {task : Task} {db : Db} {bid : String} {b : BrokerOrder}

@[simp] lemma move_db : (s.move p task).db = s.db := rfl
@[simp] lemma move_broker : (s.move p task).broker = s.broker := rfl
@[simp] lemma move_delivered : (s.move p task).delivered = s.delivered := rfl
@[simp] lemma setDb_db : (s.setDb db).db = db := rfl
@[simp] lemma setDb_broker : (s.setDb db).broker = s.broker := rfl
@[simp] lemma setDb_tasks : (s.setDb db).tasks = s.tasks := rfl
@[simp] lemma setDb_delivered : (s.setDb db).delivered = s.delivered := rfl
@[simp] lemma setOrder_db : (s.setOrder bid b).db = s.db := rfl
@[simp] lemma setOrder_broker : (s.setOrder bid b).broker = s.broker.set bid b := rfl
@[simp] lemma setOrder_tasks : (s.setOrder bid b).tasks = s.tasks := rfl
@[simp] lemma setOrder_delivered : (s.setOrder bid b).delivered = s.delivered := rfl

@[simp] lemma move_tasks_self : (s.move p task).tasks p = task := by simp [move]

lemma move_tasks_of_ne (ne : q ≠ p) : (s.move p task).tasks q = s.tasks q := by simp [move, ne]

end State

/-- What one step can do: one constructor a label, two where the label only moves its task. -/
inductive Step (s : State) : Label → State → Prop where
  | reserve {row} :
    row.state = .held → row.orderId = none →
    Step s (.reserve row) (s.setDb { s.db with reservations := s.db.reservations ++ [row] })
  | persist {p req outcome now symbolId} :
    s.tasks p = .idle → resolveSymbolId s.db req outcome = some symbolId →
    Step s (.persist p req outcome now)
      ((s.setDb (insertOrder s.db (initialOrder req outcome symbolId now))).move p
        (.persisted s.db.orders.length outcome.reservationId outcome.passed))
  | link {p o r passed} :
    s.tasks p = .persisted o (some r) passed →
    Step s (.link p) ((s.setDb (linkReservation s.db r o)).move p (.linked o passed))
  | linkNone {p o passed} :
    s.tasks p = .persisted o none passed → Step s (.link p) (s.move p (.linked o passed))
  | verdict {p now o passed} :
    s.tasks p = .linked o passed →
    Step s (.verdict p now)
      ((s.setDb (writeVerdict s.db o passed now)).move p (if passed then .pending o else .idle))
  | accept {p bid o} :
    s.tasks p = .pending o → s.broker.get bid = none → bid ≠ "" →
    Step s (.accept p bid) ((s.setOrder bid { order := o }).move p (.accepted o bid))
  | refuse {p o} : s.tasks p = .pending o → Step s (.refuse p) (s.move p (.refused o))
  | submitted {p now o bid} :
    s.tasks p = .accepted o bid →
    Step s (.submitted p now) ((s.setDb (writeSubmitted s.db o bid now)).move p .idle)
  | rejected {p now o} :
    s.tasks p = .refused o →
    Step s (.rejected p now)
      ((s.setDb (markBrokerRejected s.db o now)).move p
        (.settle o false "ORDER_REJECTED_BY_BROKER" []))
  | transient {p o} : s.tasks p = .pending o → Step s (.transient p) (s.move p .idle)
  | cancelRead {p o loaded} :
    s.tasks p = .idle → s.db.orders[o]? = some loaded → neverReachedBroker loaded = true →
    Step s (.cancelRead p o) (s.move p (.cancelling o loaded))
  | cancelSent {p o} : Step s (.cancelRead p o) s
  | cancelWrite {p now o loaded} :
    s.tasks p = .cancelling o loaded →
    Step s (.cancelWrite p now)
      ((s.setDb (cancelLocal s.db o loaded now)).move p (.settle o false "ORDER_CANCELED_LOCAL" []))
  | execute {bid id qty price isPartial b} :
    s.broker.get bid = some b → b.ending = none → 0 < qty → 0 < price →
    executionIdUsed s.broker id = false →
    Step s (.execute bid id qty price isPartial) (s.setOrder bid (b.execute id qty price isPartial))
  | endOrder {bid event b} :
    s.broker.get bid = some b → b.ending = none →
    Step s (.endOrder bid event) (s.setOrder bid { b with ending := some (.ended event) })
  | deliverFill {p bid id b e} :
    s.tasks p = .idle → s.broker.get bid = some b → e ∈ b.executions → e.id = id →
    Step s (.deliverFill p bid id)
      ({ s with delivered := s.delivered ++ [id] }.move p (.handling [fillPayload bid e]))
  | deliverEnd {p bid b event} :
    s.tasks p = .idle → s.broker.get bid = some b → b.ending = some (.ended event) →
    Step s (.deliverEnd p bid) (s.move p (.handling [⟨bid, .terminal event⟩]))
  | report {p o avgPrice order bid b} :
    s.tasks p = .idle → s.db.orders[o]? = some order → order.brokerOrderId = some bid →
    s.broker.get bid = some b →
    Step s (.report p o avgPrice) (s.move p (.reported o bid ⟨b.status, b.cumQty, avgPrice⟩))
  | resolve {p reads o bid r queue} :
    s.tasks p = .reported o bid r → resolveBrokerOutcome reads s.db o bid r = .ok queue →
    Step s (.resolve p reads) (s.move p (resume queue))
  | resolveError {p reads o bid r} :
    s.tasks p = .reported o bid r → Step s (.resolve p reads) (s.move p .idle)
  | load {p x rest event} :
    s.tasks p = .handling (x :: rest) → handle s.db x = some event →
    Step s (.load p) (s.move p (.writing event rest))
  | drop {p x rest} :
    s.tasks p = .handling (x :: rest) → handle s.db x = none →
    Step s (.load p) (s.move p (resume rest))
  | write {p now x rest} :
    s.tasks p = .writing x rest →
    Step s (.write p now)
      ((s.setDb (x.write s.db now)).move p (afterWrite x (x.settles s.db now) rest))
  | settleRead {p o filled reason rest} :
    s.tasks p = .settle o filled reason rest →
    Step s (.settleRead p)
      (s.move p (.settling o (settleReservationForOrder s.db o filled reason) rest))
  | settleWrite {p o items rest} :
    s.tasks p = .settling o items rest →
    Step s (.settleWrite p) ((s.setDb (settleWrite s.db items)).move p (resume rest))

lemma Step.of_step {s t : State} {l : Label} (st : system.step s l = some t) : Step s l t := by
  simp only [system] at st
  cases l with
  | reserve row =>
    simp only [step] at st
    split at st
    · rename_i h; cases st; exact .reserve h.1 h.2
    · cases st
  | persist p req outcome now =>
    simp only [step] at st
    split at st <;> cases st
    rename_i idle sym; exact .persist idle sym
  | link p =>
    simp only [step] at st
    split at st <;> cases st
    · rename_i h; exact .link h
    · rename_i h; exact .linkNone h
  | verdict p now =>
    simp only [step] at st
    split at st <;> cases st
    rename_i h; exact .verdict h
  | accept p bid =>
    simp only [step] at st
    split at st
    · rename_i h none
      split at st
      · cases st
      · rename_i ne; cases st; exact .accept h none ne
    · cases st
  | refuse p =>
    simp only [step] at st
    split at st <;> cases st
    rename_i h; exact .refuse h
  | submitted p now =>
    simp only [step] at st
    split at st <;> cases st
    rename_i h; exact .submitted h
  | rejected p now =>
    simp only [step] at st
    split at st <;> cases st
    rename_i h; exact .rejected h
  | transient p =>
    simp only [step] at st
    split at st <;> cases st
    rename_i h; exact .transient h
  | cancelRead p o =>
    simp only [step] at st
    split at st
    · rename_i idle get
      split at st
      · rename_i never; cases st; exact .cancelRead idle get never
      · cases st; exact .cancelSent
    · cases st
  | cancelWrite p now =>
    simp only [step] at st
    split at st <;> cases st
    rename_i h; exact .cancelWrite h
  | execute bid id qty price isPartial =>
    simp only [step] at st
    split at st
    · rename_i b get
      split at st
      · rename_i h; cases st; exact .execute get h.1 h.2.1 h.2.2.1 h.2.2.2
      · cases st
    · cases st
  | endOrder bid event =>
    simp only [step] at st
    split at st
    · rename_i b get
      split at st
      · rename_i h; cases st; exact .endOrder get h
      · cases st
    · cases st
  | deliverFill p bid id =>
    simp only [step] at st
    split at st <;> cases st
    rename_i idle found
    obtain ⟨b, get, found⟩ := bind_eq_some_iff.1 found
    exact .deliverFill idle get (mem_of_find?_eq_some found)
      (by simpa using find?_some found)
  | deliverEnd p bid =>
    simp only [step] at st
    split at st <;> cases st
    rename_i idle found
    obtain ⟨b, get, ended⟩ := bind_eq_some_iff.1 found
    exact .deliverEnd idle get ended
  | report p o avgPrice =>
    simp only [step] at st
    split at st
    · rename_i idle found
      obtain ⟨order, row, has⟩ := bind_eq_some_iff.1 found
      split at st <;> cases st
      rename_i get; exact .report idle row has get
    · cases st
  | resolve p reads =>
    simp only [step] at st
    split at st
    · rename_i h
      split at st <;> cases st
      · rename_i ok; exact .resolve h ok
      · exact .resolveError h
    · cases st
  | load p =>
    simp only [step] at st
    split at st
    · rename_i h
      split at st <;> cases st
      · rename_i some; exact .load h some
      · rename_i none; exact .drop h none
    · cases st
  | write p now =>
    simp only [step] at st
    split at st <;> cases st
    rename_i h; exact .write h
  | settleRead p =>
    simp only [step] at st
    split at st <;> cases st
    rename_i h; exact .settleRead h
  | settleWrite p =>
    simp only [step] at st
    split at st <;> cases st
    rename_i h; exact .settleWrite h

lemma Step.tasks_of_ne {s t : State} {l : Label} {q : Nat} (st : Step s l t)
    (ne : l.task ≠ some q) : t.tasks q = s.tasks q := by
  cases st with
  | reserve | cancelSent | execute | endOrder => rfl
  | _ =>
    refine State.move_tasks_of_ne ?_
    rintro rfl
    exact ne rfl

lemma tasks_of_run {s t : State} {ls : List Label} {q : Nat} (run : system.run s ls = some t)
    (ne : ∀ l ∈ ls, l.task ≠ some q) : t.tasks q = s.tasks q := by
  induction ls generalizing s with
  | nil => cases run; rfl
  | cons l ls ih =>
    obtain ⟨u, st, run⟩ := Machine.run_cons.1 run
    rw [ih run fun l' m => ne l' (mem_cons_of_mem _ m)]
    exact (Step.of_step st).tasks_of_ne (ne l mem_cons_self)

lemma idle_of_run {s t : State} {ls : List Label} {n : Nat} (idle : ∀ p, s.tasks p = .idle)
    (run : system.run s ls = some t) (named : ∀ l ∈ ls, ∀ p ∈ l.task, p < n)
    (ends : (system.run s ls).map (fun t => decide (∀ p < n, (t.tasks p).isIdle)) = some true)
    (p : Nat) : t.tasks p = .idle := by
  by_cases lt : p < n
  · have all := Machine.observe run ends
    have idle := of_decide_eq_true all p lt
    cases eq : t.tasks p with
    | idle => rfl
    | _ => rw [eq] at idle; cases idle
  · rw [tasks_of_run run fun l m eq => lt (named l m p eq)]
    exact idle p

def newDesk : State where
  db := { symbols := [⟨"AAPL", true⟩] }

lemma fresh_newDesk : Fresh newDesk := ⟨rfl, rfl, rfl, rfl, fun _ => rfl, rfl⟩

/-- An order for `qty` shares. -/
def orderOf (qty : ℚ) : OrderRequest where
  userId := 1
  accountId := 1
  symbolTicker := "AAPL"
  side := .sell
  qty := qty

def passWith (reservation : Option Nat) : RiskOutcome where
  decision := .pass
  reasonCodes := []
  resolvedSymbolId := some 0
  reservationId := reservation

def toBroker (reservation : Option Nat) : List Label :=
  [.persist 0 (orderOf 10) (passWith reservation) 0, .link 0, .verdict 0 0, .accept 0 "B1"]

end Workbench.Orders
