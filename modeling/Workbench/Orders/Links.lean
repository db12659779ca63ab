import Workbench.Orders.System

/-!
# Order rows and broker orders

Which order row belongs to which broker order, in every reachable state. The router is the only one who
writes a broker id, once, on a row that has none, so a row with a broker id names one broker order and
that order names the row (`Links.row`, `Links.inj`), and everything the consumer is about to book comes
from an execution of that order or from a report of its cumulative quantity (`FillOrigin`).

A report is a cut through the executions: those up to its cumulative quantity add up to it
(`BrokerOrder.Cut`). Later executions lie beyond every earlier cut, which is why a stale report is still
one (`Later.cut`).
-/

set_option linter.dupNamespace false

namespace Workbench.Orders
open Workbench.Lib Workbench.Risk List Function Dict Table
variable {b : BrokerOrder}

/-! ## Executions -/

/-- The executions up to `c` add up to `c`. -/
structure BrokerOrder.Cut (b : BrokerOrder) (c : ℚ) : Prop where
  le : c ≤ b.cumQty
  sum : Table.total (fun e : Execution => if e.cumQty ≤ c then e.qty else 0) b.executions = c

/-- A later version of a broker order. -/
structure Later (b b' : BrokerOrder) : Prop where
  order : b'.order = b.order
  mem : ∀ e ∈ b.executions, e ∈ b'.executions
  cut : ∀ c, b.Cut c → b'.Cut c

lemma Later.refl (b : BrokerOrder) : Later b b := ⟨rfl, fun _ m => m, fun _ c => c⟩

/-- What the broker promises about its executions. -/
structure Book (broker : Dict String BrokerOrder) : Prop where
  named : ∀ {bid b}, broker.get bid = some b → bid ≠ ""
  pos : ∀ {bid b e}, broker.get bid = some b → e ∈ b.executions → 0 < e.qty ∧ 0 < e.price
  upto : ∀ {bid b e}, broker.get bid = some b → e ∈ b.executions → e.cumQty ≤ b.cumQty
  nodup : ∀ {bid b}, broker.get bid = some b → (b.executions.map (·.id)).Nodup
  ids : ∀ {bid bid' b b' e e'}, broker.get bid = some b → broker.get bid' = some b' →
    e ∈ b.executions → e' ∈ b'.executions → e.id = e'.id → bid = bid'

lemma later_execute {id : String} {qty price : ℚ} {isPartial : Bool}
    (pos : 0 < qty) : Later b (b.execute id qty price isPartial) where
  order := rfl
  mem e m := mem_append_left _ m
  cut c cut := by
    have le := cut.le
    refine ⟨?_, ?_⟩
    · rw [BrokerOrder.cumQty, BrokerOrder.execute, total_insert]
      rw [BrokerOrder.cumQty] at le
      linarith
    · -- the new execution ends above the old total, hence above the cut
      rw [BrokerOrder.execute, total_insert, cut.sum]
      rw [if_neg (not_le.2 (by linarith)), add_zero]

lemma Book.cut {broker : Dict String BrokerOrder} {bid : String}
    (book : Book broker) (get : broker.get bid = some b) : b.Cut b.cumQty where
  le := le_rfl
  sum := by
    rw [BrokerOrder.cumQty]
    refine total_congr fun e m => ?_
    rw [if_pos (by simpa [BrokerOrder.cumQty] using book.upto get m)]

lemma id_ne_of_unused {broker : Dict String BrokerOrder} {id bid : String}
    {e : Execution} (unused : executionIdUsed broker id = false) (get : broker.get bid = some b)
    (m : e ∈ b.executions) : e.id ≠ id := by
  intro eq
  have used : executionIdUsed broker id = true := by
    rw [executionIdUsed, any_eq_true]
    refine ⟨b, mem_values_of_get get, ?_⟩
    rw [any_eq_true]
    exact ⟨e, m, by simp [eq]⟩
  rw [unused] at used
  cases used

lemma Book.empty : Book .empty where
  named get := by cases get
  pos get := by cases get
  upto get := by cases get
  nodup get := by cases get
  ids get := by cases get

section Set

variable {broker : Dict String BrokerOrder} {bid : String} {b : BrokerOrder}

lemma Book.set (book : Book broker) (named : bid ≠ "")
    (pos : ∀ e ∈ b.executions, 0 < e.qty ∧ 0 < e.price) (upto : ∀ e ∈ b.executions, e.cumQty ≤ b.cumQty)
    (nodup : (b.executions.map (·.id)).Nodup)
    (ids : ∀ {bid' b' e e'}, broker.get bid' = some b' → e ∈ b.executions → e' ∈ b'.executions →
      e.id = e'.id → bid = bid') : Book (broker.set bid b) where
  named {bid' b'} get := by
    rw [get_set] at get
    split at get
    · rename_i eq; rw [eq]; exact named
    · exact book.named get
  pos {bid' b' e} get m := by
    rw [get_set] at get
    split at get
    · cases get; exact pos e m
    · exact book.pos get m
  upto {bid' b' e} get m := by
    rw [get_set] at get
    split at get
    · cases get; exact upto e m
    · exact book.upto get m
  nodup {bid' b'} get := by
    rw [get_set] at get
    split at get
    · cases get; exact nodup
    · exact book.nodup get
  ids {bid₁ bid₂ b₁ b₂ e e'} get get' m m' eq := by
    rw [get_set] at get get'
    split at get <;> split at get'
    · rename_i eq₁ eq₂; rw [eq₁, eq₂]
    · rename_i eq₁ _; cases get; rw [eq₁]; exact ids get' m m' eq
    · rename_i _ eq₂; cases get'; rw [eq₂]; exact (ids get m' m eq.symm).symm
    · exact book.ids get get' m m' eq

lemma Book.execute {id : String} {qty price : ℚ} {isPartial : Bool} (book : Book broker)
    (get : broker.get bid = some b) (qpos : 0 < qty) (ppos : 0 < price) (unused : executionIdUsed broker id = false) :
    Book (broker.set bid (b.execute id qty price isPartial)) := by
  have cum : (b.execute id qty price isPartial).cumQty = b.cumQty + qty := by
    simp [BrokerOrder.cumQty, BrokerOrder.execute]
  refine book.set (book.named get) ?_ ?_ ?_ ?_
  · intro e m
    rcases mem_append.1 m with old | new
    · exact book.pos get old
    · cases mem_singleton.1 new; exact ⟨qpos, ppos⟩
  · intro e m
    rw [cum]
    rcases mem_append.1 m with old | new
    · have le := book.upto get old; linarith
    · cases mem_singleton.1 new; exact le_rfl
  · rw [BrokerOrder.execute, map_append, nodup_append]
    refine ⟨book.nodup get, by simp, ?_⟩
    intro x mx y my
    obtain ⟨e, m, rfl⟩ := mem_map.1 mx
    cases mem_singleton.1 my
    exact id_ne_of_unused unused get m
  · intro bid' b' e e' get' m m' eq
    rcases mem_append.1 m with old | new
    · exact book.ids get get' old m' eq
    · cases mem_singleton.1 new
      exact absurd eq.symm (id_ne_of_unused unused get' m')

lemma Book.endOrder {ending : Option Ending} (book : Book broker) (get : broker.get bid = some b) :
    Book (broker.set bid { b with ending }) :=
  book.set (book.named get) (fun _ m => book.pos get m) (fun _ m => @Book.upto _ book bid b _ get m)
    (@Book.nodup _ book bid b get) fun get' m m' eq => book.ids get get' m m' eq

lemma Book.accept {o : Nat} (book : Book broker) (named : bid ≠ "") : Book (broker.set bid { order := o }) :=
  book.set named (fun _ m => by cases m) (fun _ m => by cases m) nodup_nil
    fun _ m => by cases m

end Set

/-! ## Broker ids -/

def brokerIds (db : Db) (o : Nat) : Option (Option String) := db.orders[o]?.map (·.brokerOrderId)

section BrokerIds

variable {db : Db} {o o' : Nat} {bid : String} {now : Instant}

lemma brokerIds_amendOrder {f : Order → Order} (keep : ∀ order, (f order).brokerOrderId = order.brokerOrderId) :
    brokerIds (amendOrder db o f) = brokerIds db := by
  funext j
  rw [brokerIds, amendOrder, getElem?_amend]
  split
  · rw [Option.map_map, brokerIds]
    congr 1
    funext order
    exact keep order
  · rfl

lemma flushStatus_brokerOrderId {loaded new : OrderStatus} {order : Order} :
    (flushStatus loaded new order).brokerOrderId = order.brokerOrderId := by
  unfold flushStatus; split <;> rfl

@[simp] lemma brokerIds_writeVerdict {passed : Bool} : brokerIds (writeVerdict db o passed now) = brokerIds db :=
  brokerIds_amendOrder fun _ => rfl

@[simp] lemma brokerIds_markBrokerRejected : brokerIds (markBrokerRejected db o now) = brokerIds db :=
  brokerIds_amendOrder fun _ => rfl

@[simp] lemma brokerIds_cancelLocal {loaded : Order} : brokerIds (cancelLocal db o loaded now) = brokerIds db :=
  brokerIds_amendOrder fun _ => flushStatus_brokerOrderId

@[simp] lemma brokerIds_write {x : Pending} : brokerIds (x.write db now) = brokerIds db := by
  cases x with
  | fill o loaded event => exact brokerIds_amendOrder fun _ => flushStatus_brokerOrderId
  | terminal o loaded event => exact brokerIds_amendOrder fun _ => flushStatus_brokerOrderId

@[simp] lemma brokerIds_settleWrite {items : List SettleItem} : brokerIds (settleWrite db items) = brokerIds db := by
  funext j; rw [brokerIds, settleWrite_orders, brokerIds]

lemma brokerIds_insertOrder {order : Order} : brokerIds (insertOrder db order) =
    Function.update (brokerIds db) db.orders.length (some order.brokerOrderId) := by
  funext j
  rw [brokerIds, insertOrder, update_apply]
  split
  · rename_i eq; subst eq; simp
  · rename_i ne
    rw [getElem?_append]
    split
    · rfl
    · rename_i ge
      rw [getElem?_eq_none (by simp; omega), brokerIds, getElem?_eq_none (by omega)]

lemma brokerIds_length : brokerIds db db.orders.length = none := by
  simp [brokerIds]

lemma brokerIds_writeSubmitted {x : Option String} (at_ : brokerIds db o = some x) :
    brokerIds (writeSubmitted db o bid now) = Function.update (brokerIds db) o (some (some bid)) := by
  funext j
  rw [brokerIds, writeSubmitted, amendOrder, getElem?_amend, update_apply]
  by_cases eq : j = o
  · subst eq
    obtain ⟨order, get, -⟩ := Option.map_eq_some_iff.1 at_
    rw [if_pos rfl, if_pos rfl, get]
    rfl
  · rw [if_neg (Ne.symm eq), if_neg eq]
    rfl

lemma findOrder_eq_none (named : bid ≠ "") : findOrder db bid = none ↔ ∀ o, brokerIds db o ≠ some (some bid) := by
  rw [findOrder, if_neg named, findIdx?_eq_none_iff]
  constructor
  · intro none o has
    obtain ⟨order, get, eq⟩ := Option.map_eq_some_iff.1 has
    have := none order (mem_of_getElem? get)
    simp [eq] at this
  · intro none order m
    obtain ⟨o, get⟩ := mem_iff_getElem?.1 m
    have := none o
    rw [brokerIds, get] at this
    simpa using this

lemma brokerIds_of_findOrder (found : findOrder db bid = some o) : brokerIds db o = some (some bid) := by
  rw [findOrder] at found
  split at found
  · cases found
  · obtain ⟨lt, p, -⟩ := findIdx?_eq_some_iff_getElem.1 found
    rw [brokerIds, getElem?_eq_getElem lt]
    simpa using p

end BrokerIds

/-! ## What the tasks know -/

/-- Where a fill event of broker order `b` came from: its stream, or a report of its quantity. -/
inductive FillOrigin (b : BrokerOrder) (bid : String) : FillEvent → Prop where
  | stream {e} : e ∈ b.executions → FillOrigin b bid e.event
  | settle {event c} :
    event.executionId = some (.settle bid c) → b.Cut c → FillOrigin b bid event

lemma FillOrigin.mono {b' : BrokerOrder} {bid : String} {event : FillEvent} (later : Later b b')
    (h : FillOrigin b bid event) : FillOrigin b' bid event := by
  cases h with
  | stream m => exact .stream (later.mem _ m)
  | settle eq cut => exact .settle eq (later.cut _ cut)

/-- A trade update about an order the broker has. -/
def Payload.Sound (broker : Dict String BrokerOrder) (x : Payload) : Prop :=
  ∃ b, broker.get x.brokerOrderId = some b ∧
    ∀ event, x.event = .fill event → FillOrigin b x.brokerOrderId event

/-- An event that is about to be written to the row that carries its broker id. -/
def Pending.Sound (ids : Nat → Option (Option String)) (broker : Dict String BrokerOrder)
    (x : Pending) : Prop :=
  ∃ bid b, ids x.order = some (some bid) ∧ broker.get bid = some b ∧
    ∀ o loaded event, x = .fill o loaded event → 0 < event.qty ∧ FillOrigin b bid event

/-- The trade updates a task has yet to handle. -/
def Task.queue : Task → List Payload
  | .handling queue => queue
  | .writing _ rest | .settle _ _ _ rest | .settling _ _ rest => rest
  | _ => []

/-- What a task remembers is true of the broker. -/
structure Task.Sound (ids : Nat → Option (Option String)) (broker : Dict String BrokerOrder)
    (task : Task) : Prop where
  queue : ∀ x ∈ task.queue, x.Sound broker
  writing : ∀ x rest, task = .writing x rest → x.Sound ids broker
  reported : ∀ o bid r, task = .reported o bid r →
    ∃ b, broker.get bid = some b ∧ b.Cut r.filledQty

/-- The order a task is submitting, before the broker has it. -/
def Task.unsent : Task → Option Nat
  | .persisted o _ _ | .linked o _ | .pending o | .refused o => some o
  | _ => none

def Task.submitting : Task → Option Nat
  | .accepted o _ => some o
  | task => task.unsent

@[simp] lemma submitting_resume {rest : List Payload} : (resume rest).submitting = none := by
  cases rest <;> rfl

@[simp] lemma submitting_afterWrite {x : Pending} {settles : Option Bool} {rest : List Payload} :
    (afterWrite x settles rest).submitting = none := by
  cases settles with
  | none => exact submitting_resume
  | some filled => rfl

/-- Which order row belongs to which broker order. -/
structure Links (ids : Nat → Option (Option String)) (broker : Dict String BrokerOrder)
    (tasks : Nat → Task) : Prop where
  sound : ∀ p, (tasks p).Sound ids broker
  sole : ∀ {p q o}, (tasks p).submitting = some o → (tasks q).submitting = some o → p = q
  unsent : ∀ {p o}, (tasks p).unsent = some o →
    ids o = some none ∧ ∀ bid b, broker.get bid = some b → b.order ≠ o
  sent : ∀ {p o bid}, tasks p = .accepted o bid →
    ids o = some none ∧ ∃ b, broker.get bid = some b ∧ b.order = o
  row : ∀ {o bid}, ids o = some (some bid) → ∃ b, broker.get bid = some b ∧ b.order = o
  known : ∀ {bid b}, broker.get bid = some b → ids b.order ≠ none
  inj : ∀ {bid bid' b b'}, broker.get bid = some b → broker.get bid' = some b' →
    b.order = b'.order → bid = bid'

/-- The links of a state, and the broker's promises. -/
structure State.Linked (s : State) : Prop where
  links : Links (brokerIds s.db) s.broker s.tasks
  book : Book s.broker

/-! ## One step -/

/-- Broker ids stay on their rows and broker orders only grow. -/
structure Grown (ids ids' : Nat → Option (Option String)) (broker broker' : Dict String BrokerOrder) :
    Prop where
  ids : ∀ {o bid}, ids o = some (some bid) → ids' o = some (some bid)
  broker : ∀ {bid b}, broker.get bid = some b → ∃ b', broker'.get bid = some b' ∧ Later b b'

section Preserve

variable {ids ids' : Nat → Option (Option String)} {broker broker' : Dict String BrokerOrder}
variable {tasks : Nat → Task} {p o : Nat} {task : Task} {bid : String} {b b' : BrokerOrder}

lemma Grown.of_broker (get : broker.get bid = some b) (later : Later b b') :
    Grown ids ids broker (broker.set bid b') where
  ids h := h
  broker {bid' b''} get' := by
    by_cases eq : bid' = bid
    · subst eq
      rw [get] at get'
      cases get'
      exact ⟨b', get_set_self, later⟩
    · exact ⟨b'', by rw [get_set_of_ne eq]; exact get', .refl _⟩

lemma Task.Sound.mono (grown : Grown ids ids' broker broker') (h : task.Sound ids broker) :
    task.Sound ids' broker' where
  queue x m := by
    obtain ⟨b, get, origin⟩ := h.queue x m
    obtain ⟨b', get', later⟩ := grown.broker get
    exact ⟨b', get', fun event eq => (origin event eq).mono later⟩
  writing x rest eq := by
    obtain ⟨bid, b, has, get, origin⟩ := h.writing x rest eq
    obtain ⟨b', get', later⟩ := grown.broker get
    refine ⟨bid, b', grown.ids has, get', fun o loaded event eq => ?_⟩
    obtain ⟨pos, origin⟩ := origin o loaded event eq
    exact ⟨pos, origin.mono later⟩
  reported o bid r eq := by
    obtain ⟨b, get, cut⟩ := h.reported o bid r eq
    obtain ⟨b', get', later⟩ := grown.broker get
    exact ⟨b', get', later.cut _ cut⟩

lemma Task.Sound.idle : Task.Sound ids broker .idle := ⟨by simp [Task.queue], by simp, by simp⟩

lemma Task.Sound.accepted : Task.Sound ids broker (.accepted o bid) :=
  ⟨by simp [Task.queue], by simp, by simp⟩

lemma Task.unsent_of_submitting_ne {task : Task} (h : task.submitting = some o)
    (ne : ∀ bid, task ≠ .accepted o bid) : task.unsent = some o := by
  cases task with
  | accepted o' bid => cases h; exact absurd rfl (ne bid)
  | _ => exact h

lemma Task.submitting_of_unsent {task : Task} (h : task.unsent = some o) : task.submitting = some o := by
  cases task with
  | accepted o' bid => cases h
  | _ => exact h

lemma Links.move (links : Links ids broker tasks) (sound : task.Sound ids broker)
    (same : ∀ o, task.submitting = some o → task.unsent = some o ∧ (tasks p).unsent = some o) :
    Links ids broker (Function.update tasks p task) := by
  have was : ∀ {q o}, (Function.update tasks p task q).submitting = some o →
      (tasks q).submitting = some o := by
    intro q o h
    by_cases eq : q = p
    · subst eq
      rw [update_self] at h
      exact Task.submitting_of_unsent (same o h).2
    · rwa [update_of_ne eq] at h
  refine { links with sound := ?_, sole := ?_, unsent := ?_, sent := ?_ }
  · intro q
    by_cases eq : q = p
    · subst eq; rw [update_self]; exact sound
    · rw [update_of_ne eq]; exact links.sound q
  · intro q q' o h h'
    exact links.sole (was h) (was h')
  · intro q o h
    by_cases eq : q = p
    · subst eq
      rw [update_self] at h
      exact links.unsent (same o (Task.submitting_of_unsent h)).2
    · rw [update_of_ne eq] at h
      exact links.unsent h
  · intro q o bid h
    by_cases eq : q = p
    · subst eq
      rw [update_self] at h
      have h' := (same o (by rw [h]; rfl)).1
      rw [h] at h'
      cases h'
    · rw [update_of_ne eq] at h
      exact links.sent h

lemma Links.park (links : Links ids broker tasks) (sound : task.Sound ids broker)
    (no : task.submitting = none) : Links ids broker (Function.update tasks p task) :=
  links.move sound fun o h => by rw [no] at h; cases h

lemma Links.persist {n : Nat} (links : Links ids broker tasks) (new : ids n = none)
    (unsent : task.unsent = some n) (sound : ∀ ids, task.Sound ids broker) :
    Links (Function.update ids n (some none)) broker (Function.update tasks p task) := by
  have keep : ∀ {o x}, ids o = some x → Function.update ids n (some none) o = some x := by
    intro o x has
    have ne : o ≠ n := by rintro rfl; rw [new] at has; cases has
    rw [update_of_ne ne, has]
  have submits : task.submitting = some n := Task.submitting_of_unsent unsent
  have fresh : ∀ {q}, (tasks q).submitting ≠ some n := by
    intro q h
    cases eq : tasks q with
    | accepted o bid =>
      rw [eq] at h
      cases h
      have has := (links.sent eq).1
      rw [new] at has
      cases has
    | _ =>
      have un := Task.unsent_of_submitting_ne h (by simp [eq])
      have has := (links.unsent un).1
      rw [new] at has
      cases has
  refine { links with sound := ?_, sole := ?_, unsent := ?_, sent := ?_, row := ?_, known := ?_ }
  · intro q
    by_cases eq : q = p
    · subst eq; rw [update_self]; exact sound _
    · rw [update_of_ne eq]
      exact (links.sound q).mono ⟨fun has => keep has, fun get => ⟨_, get, .refl _⟩⟩
  · intro q q' o h h'
    by_cases eq : q = p <;> by_cases eq' : q' = p
    · rw [eq, eq']
    · subst eq
      rw [update_self, submits] at h
      rw [update_of_ne eq', ← h] at h'
      exact absurd h' fresh
    · subst eq'
      rw [update_self, submits] at h'
      rw [update_of_ne eq, ← h'] at h
      exact absurd h fresh
    · rw [update_of_ne eq] at h
      rw [update_of_ne eq'] at h'
      exact links.sole h h'
  · intro q o h
    by_cases eq : q = p
    · subst eq
      rw [update_self, unsent] at h
      cases h
      refine ⟨update_self .., fun bid b get eq => links.known get ?_⟩
      rw [eq, new]
    · rw [update_of_ne eq] at h
      exact ⟨keep (links.unsent h).1, (links.unsent h).2⟩
  · intro q o bid h
    by_cases eq : q = p
    · subst eq
      rw [update_self] at h
      rw [h] at unsent
      cases unsent
    · rw [update_of_ne eq] at h
      exact ⟨keep (links.sent h).1, (links.sent h).2⟩
  · intro o bid has
    by_cases eq : o = n
    · subst eq; rw [update_self] at has; cases has
    · rw [update_of_ne eq] at has; exact links.row has
  · intro bid b get
    obtain ⟨x, has⟩ := Option.ne_none_iff_exists'.1 (links.known get)
    rw [keep has]
    exact Option.some_ne_none x

lemma Links.accept (links : Links ids broker tasks) (at_ : tasks p = .pending o) (none : broker.get bid = none) :
    Links ids (broker.set bid { order := o }) (Function.update tasks p (.accepted o bid)) := by
  have mine : (tasks p).unsent = some o := by rw [at_]; rfl
  obtain ⟨row, free⟩ := links.unsent mine
  have keep : ∀ {bid' b}, broker.get bid' = some b →
      (broker.set bid { order := o }).get bid' = some b := by
    intro bid' b get
    have ne : bid' ≠ bid := by rintro rfl; rw [none] at get; cases get
    rw [get_set_of_ne ne, get]
  have alone : ∀ {q o'}, q ≠ p → (tasks q).submitting = some o' → o' ≠ o := by
    rintro q o' ne h rfl
    exact ne (links.sole h (Task.submitting_of_unsent mine))
  refine { sound := ?_, sole := ?_, unsent := ?_, sent := ?_, row := ?_, known := ?_, inj := ?_ }
  · intro q
    by_cases eq : q = p
    · subst eq
      rw [update_self]
      exact .accepted
    · rw [update_of_ne eq]
      exact (links.sound q).mono ⟨id, fun get => ⟨_, keep get, .refl _⟩⟩
  · intro q q' o' h h'
    by_cases eq : q = p <;> by_cases eq' : q' = p
    · rw [eq, eq']
    · subst eq
      rw [update_self] at h
      cases h
      rw [update_of_ne eq'] at h'
      exact absurd rfl (alone eq' h')
    · subst eq'
      rw [update_self] at h'
      cases h'
      rw [update_of_ne eq] at h
      exact absurd rfl (alone eq h)
    · rw [update_of_ne eq] at h
      rw [update_of_ne eq'] at h'
      exact links.sole h h'
  · intro q o' h
    by_cases eq : q = p
    · subst eq; rw [update_self] at h; cases h
    · rw [update_of_ne eq] at h
      refine ⟨(links.unsent h).1, fun bid' b get => ?_⟩
      rw [get_set] at get
      split at get
      · cases get; exact (alone eq (Task.submitting_of_unsent h)).symm
      · exact (links.unsent h).2 bid' b get
  · intro q o' bid' h
    by_cases eq : q = p
    · subst eq
      rw [update_self] at h
      cases h
      exact ⟨row, _, get_set_self, rfl⟩
    · rw [update_of_ne eq] at h
      obtain ⟨has, b, get, eq⟩ := links.sent h
      exact ⟨has, b, keep get, eq⟩
  · intro o' bid' has
    obtain ⟨b, get, eq⟩ := links.row has
    exact ⟨b, keep get, eq⟩
  · intro bid' b get
    rw [get_set] at get
    split at get
    · cases get; rw [row]; exact Option.some_ne_none _
    · exact links.known get
  · intro bid₁ bid₂ b₁ b₂ get₁ get₂ eq
    rw [get_set] at get₁ get₂
    split at get₁ <;> split at get₂
    · rename_i eq₁ eq₂; rw [eq₁, eq₂]
    · cases get₁; exact absurd eq.symm (free _ _ get₂)
    · cases get₂; exact absurd eq (free _ _ get₁)
    · exact links.inj get₁ get₂ eq

lemma Links.submitted (links : Links ids broker tasks) (at_ : tasks p = .accepted o bid) :
    Links (Function.update ids o (some (some bid))) broker (Function.update tasks p .idle) := by
  obtain ⟨row, mine⟩ := links.sent at_
  have keep : ∀ {o' x}, o' ≠ o → ids o' = some x →
      Function.update ids o (some (some bid)) o' = some x := by
    intro o' x ne has
    rw [update_of_ne ne, has]
  have other : ∀ {q o'}, q ≠ p → (tasks q).submitting = some o' → o' ≠ o := by
    rintro q o' ne h rfl
    exact ne (links.sole h (by rw [at_]; rfl))
  refine { links with sound := ?_, sole := ?_, unsent := ?_, sent := ?_, row := ?_, known := ?_ }
  · intro q
    by_cases eq : q = p
    · subst eq
      rw [update_self]
      exact .idle
    · rw [update_of_ne eq]
      refine (links.sound q).mono ⟨fun {o' bid'} has => ?_, fun get => ⟨_, get, .refl _⟩⟩
      refine keep ?_ has
      rintro rfl
      rw [row] at has
      cases has
  · intro q q' o' h h'
    by_cases eq : q = p
    · subst eq; rw [update_self] at h; cases h
    · by_cases eq' : q' = p
      · subst eq'; rw [update_self] at h'; cases h'
      · rw [update_of_ne eq] at h
        rw [update_of_ne eq'] at h'
        exact links.sole h h'
  · intro q o' h
    by_cases eq : q = p
    · subst eq; rw [update_self] at h; cases h
    · rw [update_of_ne eq] at h
      exact ⟨keep (other eq (Task.submitting_of_unsent h)) (links.unsent h).1, (links.unsent h).2⟩
  · intro q o' bid' h
    by_cases eq : q = p
    · subst eq; rw [update_self] at h; cases h
    · rw [update_of_ne eq] at h
      exact ⟨keep (other eq (by rw [h]; rfl)) (links.sent h).1, (links.sent h).2⟩
  · intro o' bid' has
    by_cases eq : o' = o
    · subst eq
      rw [update_self] at has
      cases has
      exact mine
    · rw [update_of_ne eq] at has
      exact links.row has
  · intro bid' b get
    by_cases eq : b.order = o
    · rw [eq, update_self]; exact Option.some_ne_none _
    · rw [update_of_ne eq]; exact links.known get

lemma Links.set (links : Links ids broker tasks) (get : broker.get bid = some b)
    (later : Later b b') : Links ids (broker.set bid b') tasks := by
  have grown : Grown ids ids broker (broker.set bid b') := .of_broker get later
  have back : ∀ {bid' b''}, (broker.set bid b').get bid' = some b'' →
      ∃ b₀, broker.get bid' = some b₀ ∧ b''.order = b₀.order := by
    intro bid' b'' get'
    rw [get_set] at get'
    split at get'
    · rename_i eq; subst eq; cases get'; exact ⟨b, get, later.order⟩
    · exact ⟨b'', get', rfl⟩
  refine { links with sound := ?_, unsent := ?_, sent := ?_, row := ?_, known := ?_, inj := ?_ }
  · exact fun q => (links.sound q).mono grown
  · intro q o h
    refine ⟨(links.unsent h).1, fun bid' b'' get' => ?_⟩
    obtain ⟨b₀, get₀, eq⟩ := back get'
    rw [eq]
    exact (links.unsent h).2 _ _ get₀
  · intro q o bid' h
    obtain ⟨has, b₀, get₀, eq⟩ := links.sent h
    obtain ⟨b₁, get₁, later₁⟩ := grown.broker get₀
    exact ⟨has, b₁, get₁, later₁.order.trans eq⟩
  · intro o bid' has
    obtain ⟨b₀, get₀, eq⟩ := links.row has
    obtain ⟨b₁, get₁, later₁⟩ := grown.broker get₀
    exact ⟨b₁, get₁, later₁.order.trans eq⟩
  · intro bid' b'' get'
    obtain ⟨b₀, get₀, eq⟩ := back get'
    rw [eq]
    exact links.known get₀
  · intro bid₁ bid₂ b₁ b₂ get₁ get₂ eq
    obtain ⟨c₁, got₁, eq₁⟩ := back get₁
    obtain ⟨c₂, got₂, eq₂⟩ := back get₂
    exact links.inj got₁ got₂ (by rw [← eq₁, ← eq₂, eq])

end Preserve

section Events

variable {ids : Nat → Option (Option String)} {broker : Dict String BrokerOrder} {db : Db}
variable {bid : String} {b : BrokerOrder} {o : Nat} {rest : List Payload} {x : Payload}

lemma Task.Sound.resume (queue : ∀ x ∈ rest, x.Sound broker) : (Orders.resume rest).Sound ids broker := by
  cases rest with
  | nil => exact .idle
  | cons x rest => exact ⟨queue, by simp [Orders.resume], by simp [Orders.resume]⟩

lemma Task.Sound.afterWrite {event : Pending} {settles : Option Bool}
    (queue : ∀ x ∈ rest, x.Sound broker) : (Orders.afterWrite event settles rest).Sound ids broker := by
  cases settles with
  | none => exact .resume queue
  | some filled => exact ⟨queue, by simp [Orders.afterWrite], by simp [Orders.afterWrite]⟩

lemma sound_of_resolve {reads : Reads} {report : BrokerReport} {queue : List Payload}
    (ok : resolveBrokerOutcome reads db o bid report = .ok queue) (get : broker.get bid = some b)
    (cut : b.Cut report.filledQty) : ∀ x ∈ queue, x.Sound broker := by
  have fill : ∀ increment, ∀ x ∈ settleFill bid report increment, x.Sound broker := by
    rintro ⟨delta, price⟩ x m
    cases price with
    | none => cases m
    | some price =>
      rw [settleFill] at m
      split at m
      · cases mem_singleton.1 m
        refine ⟨b, get, fun event eq => ?_⟩
        cases eq
        exact .settle rfl cut
      · cases m
  have terminal : ∀ x ∈ settleTerminal bid report, x.Sound broker := by
    intro x m
    rw [settleTerminal] at m
    split at m
    · cases mem_singleton.1 m
      exact ⟨b, get, by simp⟩
    · cases m
  rw [resolveBrokerOutcome] at ok
  split at ok
  · cases ok; exact fun _ m => by cases m
  · split at ok
    · cases ok
    · rename_i increment _
      cases ok
      intro x m
      exact (mem_append.1 m).elim (fill increment x) (terminal x)

lemma handle_cases {event : Pending} (h : handle db x = some event) :
    ∃ o loaded, findOrder db x.brokerOrderId = some o ∧ db.orders[o]? = some loaded ∧
      ((∃ fill, x.event = .fill fill ∧ alreadyBooked db fill.executionId = false ∧ 0 < fill.qty ∧
          event = .fill o loaded fill) ∨ ∃ ended, x.event = .terminal ended ∧ loaded.status.terminal = false ∧
          event = .terminal o loaded ended) := by
  rw [handle] at h
  split at h
  · cases h
  · rename_i o found
    split at h
    · cases h
    · rename_i loaded get
      refine ⟨o, loaded, found, get, ?_⟩
      split at h
      · rename_i fill eq
        split at h
        · cases h
        · rename_i new
          split at h
          · cases h
          · rename_i pos
            cases h
            rw [not_or, not_le] at pos
            exact .inl ⟨fill, eq, by simpa using new, pos.1, rfl⟩
      · rename_i ended eq
        split at h
        · cases h
        · rename_i open_
          cases h
          exact .inr ⟨ended, eq, by simpa using open_, rfl⟩
      · cases h

lemma sound_of_handle {event : Pending} (h : handle db x = some event) (sound : x.Sound broker) :
    event.Sound (brokerIds db) broker := by
  obtain ⟨b, get, origin⟩ := sound
  obtain ⟨o, loaded, found, -, ⟨fill, eq, -, pos, rfl⟩ | ⟨ended, -, -, rfl⟩⟩ := handle_cases h
  · refine ⟨_, b, brokerIds_of_findOrder found, get, fun o' loaded' fill' eq' => ?_⟩
    cases eq'
    exact ⟨pos, origin fill eq⟩
  · exact ⟨_, b, brokerIds_of_findOrder found, get, by simp⟩

end Events

section Step

variable {s t : State} {l : Label}

lemma Step.links (st : Step s l t) (inv : s.Linked) : Links (brokerIds t.db) t.broker t.tasks := by
  have links := inv.links
  have queue : ∀ {p x}, x ∈ (s.tasks p).queue → x.Sound s.broker := fun m => (links.sound _).queue _ m
  cases st with
  | reserve | cancelSent => exact links
  | persist idle sym =>
    simp only [State.move_db, State.setDb_db, brokerIds_insertOrder]
    refine links.persist brokerIds_length rfl ?_
    exact fun ids => ⟨by simp [Task.queue], by simp, by simp⟩
  | link at_ | linkNone at_ =>
    refine links.move ⟨by simp [Task.queue], by simp, by simp⟩ fun o h => ⟨h, ?_⟩
    rw [at_]; exact h
  | @verdict p now o passed at_ =>
    simp only [State.move_db, State.setDb_db, brokerIds_writeVerdict]
    cases passed with
    | true =>
      refine links.move ⟨by simp [Task.queue], by simp, by simp⟩ fun o h => ⟨h, ?_⟩
      rw [at_]; exact h
    | false => exact links.park .idle rfl
  | accept at_ none named => exact links.accept at_ none
  | refuse at_ =>
    refine links.move ⟨by simp [Task.queue], by simp, by simp⟩ fun o h => ⟨h, ?_⟩
    rw [at_]; exact h
  | submitted at_ =>
    simp only [State.move_db, State.setDb_db]
    rw [brokerIds_writeSubmitted (links.sent at_).1]
    exact links.submitted at_
  | rejected at_ =>
    simp only [State.move_db, State.setDb_db, brokerIds_markBrokerRejected]
    exact links.park ⟨by simp [Task.queue], by simp, by simp⟩ rfl
  | transient at_ => exact links.park .idle rfl
  | cancelRead idle get never => exact links.park ⟨by simp [Task.queue], by simp, by simp⟩ rfl
  | cancelWrite at_ =>
    simp only [State.move_db, State.setDb_db, brokerIds_cancelLocal]
    exact links.park ⟨by simp [Task.queue], by simp, by simp⟩ rfl
  | execute get open_ qpos ppos unused => exact links.set get (later_execute qpos)
  | endOrder get open_ => exact links.set get ⟨rfl, fun _ m => m, fun _ cut => ⟨cut.le, cut.sum⟩⟩
  | @deliverFill p bid id b e idle get m eq =>
    refine links.park ⟨fun x mx => ?_, by simp, by simp⟩ rfl
    cases mem_singleton.1 mx
    refine ⟨b, get, fun event eq => ?_⟩
    cases eq
    exact .stream m
  | @deliverEnd p bid b event idle get ended =>
    refine links.park ⟨fun x mx => ?_, by simp, by simp⟩ rfl
    cases mem_singleton.1 mx
    exact ⟨b, get, by simp⟩
  | @report p o avgPrice order bid b idle row has get =>
    refine links.park ⟨by simp [Task.queue], by simp, fun o' bid' r eq => ?_⟩ rfl
    cases eq
    exact ⟨b, get, inv.book.cut get⟩
  | @resolve p reads o bid r queue at_ ok =>
    obtain ⟨b, get, cut⟩ := (links.sound p).reported o bid r at_
    exact links.park (.resume (sound_of_resolve ok get cut)) submitting_resume
  | resolveError at_ => exact links.park .idle rfl
  | @load p x rest event at_ some =>
    refine links.park ⟨fun y m => queue (p := p) (by rw [at_]; exact mem_cons_of_mem _ m),
      fun y rest' eq => ?_, by simp⟩ rfl
    cases eq
    exact sound_of_handle some (queue (p := p) (by rw [at_]; exact mem_cons_self))
  | @drop p x rest at_ none =>
    refine links.park (.resume fun y m => queue (p := p) ?_) submitting_resume
    rw [at_]; exact mem_cons_of_mem _ m
  | @write p now x rest at_ =>
    simp only [State.move_db, State.setDb_db, brokerIds_write]
    exact links.park (.afterWrite fun y m => queue (p := p) (by rw [at_]; exact m))
      submitting_afterWrite
  | @settleRead p o filled reason rest at_ =>
    refine links.park ⟨fun y m => queue (p := p) ?_, by simp, by simp⟩ rfl
    rw [at_]; exact m
  | @settleWrite p o items rest at_ =>
    simp only [State.move_db, State.setDb_db, brokerIds_settleWrite]
    exact links.park (.resume fun y m => queue (p := p) (by rw [at_]; exact m)) submitting_resume

lemma Step.book (st : Step s l t) (book : Book s.broker) : Book t.broker := by
  cases st with
  | accept at_ none named => exact book.accept named
  | execute get open_ qpos ppos unused => exact book.execute get qpos ppos unused
  | endOrder get open_ => exact book.endOrder get
  | _ => exact book

lemma State.Linked.of_fresh (fresh : Fresh s) : s.Linked := by
  have none : ∀ {bid}, s.broker.get bid = none := by intro bid; rw [fresh.broker]; rfl
  refine ⟨?_, by rw [fresh.broker]; exact .empty⟩
  constructor
  · intro p; rw [fresh.tasks]; exact .idle
  · intro p q o h; rw [fresh.tasks] at h; cases h
  · intro p o h; rw [fresh.tasks] at h; cases h
  · intro p o bid h; rw [fresh.tasks] at h; cases h
  · intro o bid has; rw [brokerIds, fresh.orders] at has; cases has
  · intro bid b get; rw [none] at get; cases get
  · intro bid bid' b b' get; rw [none] at get; cases get

lemma State.Linked.step (inv : s.Linked) (st : Step s l t) : t.Linked := ⟨st.links inv, st.book inv.book⟩

end Step

end Workbench.Orders
