import Workbench.Orders.Links

/-!
# Fills and the submit race

The consumer finds an order by its broker id and drops what it does not find, while the router commits
the id only after the broker call returned. A fill delivered in between is gone
(`early_fill_is_dropped`).

`Findable` is the condition the consumer misses: when it looks for the order of a fill, some row carries
its broker id. In every run that meets it each delivered execution is booked on its order as soon as no
task has it in hand (`delivered_fill_is_booked`). `TracedFill` says where a fill row can come from.
-/

namespace Workbench.Orders
open Workbench.Lib Workbench.Risk List
variable {s t : State} {l : Label} {bid : String} {e : Execution} {b : BrokerOrder}

/-! ## Where the fills come from -/

/-- A fill row is an execution of its order, or the increment up to a reported quantity of it. -/
def TracedFill (broker : Dict String BrokerOrder) (f : Fill) : Prop :=
  ∃ bid b, broker.get bid = some b ∧ f.orderId = b.order ∧
    ((∃ e ∈ b.executions, f.brokerFillId = some (.execution e.id) ∧ f.qty = e.qty) ∨
      ∃ c, f.brokerFillId = some (.settle bid c) ∧ b.Cut c)

section Step

variable {s t : State} {l : Label}

lemma Step.fills (st : Step s l t) : t.db.fills = s.db.fills ∨
    ∃ p now o loaded event rest, l = .write p now ∧ s.tasks p = .writing (.fill o loaded event) rest ∧
      t.db.fills = s.db.fills ++ [newFill o event now] := by
  cases st with
  | @write p now x rest at_ =>
    cases x with
    | fill o loaded event => exact .inr ⟨p, now, o, loaded, event, rest, rfl, at_, rfl⟩
    | terminal o loaded event => exact .inl rfl
  | settleWrite at_ => exact .inl settleWrite_fills
  | _ => exact .inl rfl

lemma Step.delivered (st : Step s l t) : t.delivered = s.delivered ∨
    ∃ p bid b e, l = .deliverFill p bid e.id ∧ s.broker.get bid = some b ∧ e ∈ b.executions ∧
      t.delivered = s.delivered ++ [e.id] ∧ t.tasks p = .handling [fillPayload bid e] := by
  cases st with
  | @deliverFill p bid id b e idle get m eq =>
    subst eq
    exact .inr ⟨p, bid, b, e, rfl, get, m, rfl, State.move_tasks_self⟩
  | _ => exact .inl rfl

lemma Step.grown (st : Step s l t) (inv : s.Linked) : Grown (brokerIds s.db) (brokerIds t.db) s.broker t.broker := by
  have same : ∀ {db'}, brokerIds db' = brokerIds s.db →
      Grown (brokerIds s.db) (brokerIds db') s.broker s.broker := by
    intro db' eq
    rw [eq]
    exact ⟨id, fun get => ⟨_, get, .refl _⟩⟩
  cases st with
  | persist idle sym =>
    simp only [State.move_db, State.setDb_db, brokerIds_insertOrder]
    refine ⟨fun {o bid} has => ?_, fun get => ⟨_, get, .refl _⟩⟩
    rw [Function.update_of_ne, has]
    rintro rfl
    rw [brokerIds_length] at has
    cases has
  | @accept p bid o at_ none named =>
    refine ⟨id, fun {bid' b} get => ⟨b, ?_, .refl b⟩⟩
    have ne : bid' ≠ bid := by rintro rfl; rw [none] at get; cases get
    simpa [Dict.get_set_of_ne ne] using get
  | @submitted p now o bid at_ =>
    have row := (inv.links.sent at_).1
    simp only [State.move_db, State.setDb_db, brokerIds_writeSubmitted row]
    refine ⟨fun {o' bid'} has => ?_, fun get => ⟨_, get, .refl _⟩⟩
    rw [Function.update_of_ne, has]
    rintro rfl
    rw [row] at has
    cases has
  | execute get open_ qpos ppos unused => exact .of_broker get (later_execute qpos)
  | endOrder get open_ => exact .of_broker get ⟨rfl, fun _ m => m, fun _ cut => ⟨cut.le, cut.sum⟩⟩
  | verdict => exact same brokerIds_writeVerdict
  | rejected => exact same brokerIds_markBrokerRejected
  | cancelWrite => exact same brokerIds_cancelLocal
  | write => exact same brokerIds_write
  | settleWrite => exact same brokerIds_settleWrite
  | _ => exact same rfl

end Step

lemma TracedFill.mono {ids ids' : Nat → Option (Option String)} {broker broker' : Dict String BrokerOrder}
    {f : Fill} (grown : Grown ids ids' broker broker') (h : TracedFill broker f) : TracedFill broker' f := by
  obtain ⟨bid, b, get, order, from_⟩ := h
  obtain ⟨b', get', later⟩ := grown.broker get
  refine ⟨bid, b', get', order.trans later.order.symm, ?_⟩
  rcases from_ with ⟨e, m, eq⟩ | ⟨c, eq, cut⟩
  · exact .inl ⟨e, later.mem e m, eq⟩
  · exact .inr ⟨c, eq, later.cut c cut⟩

section Writing

variable {s : State} {p o : Nat} {loaded : Order} {event : FillEvent} {rest : List Payload}

lemma State.Linked.pending (inv : s.Linked) (at_ : s.tasks p = .writing (.fill o loaded event) rest) :
    ∃ bid b, s.broker.get bid = some b ∧ b.order = o ∧ 0 < event.qty ∧ FillOrigin b bid event := by
  obtain ⟨bid, b, has, get, origin⟩ := (inv.links.sound p).writing _ _ at_
  obtain ⟨b', get', order⟩ := inv.links.row has
  rw [get] at get'
  cases get'
  obtain ⟨pos, origin⟩ := origin _ _ _ rfl
  exact ⟨bid, b, get, order, pos, origin⟩

lemma traced_newFill {now : Instant} (inv : s.Linked) (at_ : s.tasks p = .writing (.fill o loaded event) rest) :
    TracedFill s.broker (newFill o event now) := by
  obtain ⟨bid, b, get, rfl, -, origin⟩ := inv.pending at_
  refine ⟨bid, b, get, rfl, ?_⟩
  cases origin with
  | stream m => exact .inl ⟨_, m, rfl, rfl⟩
  | settle eq cut => exact .inr ⟨_, eq, cut⟩

end Writing

def State.Traced (s : State) : Prop := ∀ f ∈ s.db.fills, TracedFill s.broker f

lemma State.Traced.step (traced : s.Traced) (inv : s.Linked) (st : Step s l t) : t.Traced := by
  intro f m
  refine TracedFill.mono (st.grown inv) ?_
  rcases st.fills with same | ⟨p, now, o, loaded, event, rest, -, at_, new⟩
  · rw [same] at m
    exact traced f m
  · rw [new, mem_append, mem_singleton] at m
    rcases m with old | rfl
    · exact traced f old
    · exact traced_newFill inv at_

/-! ## In hand -/

/-- The task still has the event of an execution to handle or to write. -/
def Task.Holds (bid : String) (e : Execution) (task : Task) : Prop :=
  fillPayload bid e ∈ task.queue ∨ ∃ o loaded rest, task = .writing (.fill o loaded e.event) rest

lemma queue_resume {rest : List Payload} : (resume rest).queue = rest := by
  cases rest <;> rfl

lemma queue_afterWrite {x : Pending} {settles : Option Bool} {rest : List Payload} :
    (afterWrite x settles rest).queue = rest := by
  cases settles with
  | none => exact queue_resume
  | some filled => rfl

lemma Step.holds {q : Nat} (st : Step s l t) (h : (s.tasks q).Holds bid e) : (t.tasks q).Holds bid e ∨
      (∃ rest, l = .load q ∧ s.tasks q = .handling (fillPayload bid e :: rest) ∧
        handle s.db (fillPayload bid e) = none) ∨
      ∃ now o loaded rest, l = .write q now ∧ s.tasks q = .writing (.fill o loaded e.event) rest := by
  have moved : ∀ {p : Nat} {s' : State} {task : Task}, s'.tasks = s.tasks →
      (q = p → task.Holds bid e) → ((s'.move p task).tasks q).Holds bid e := by
    intro p s' task same self
    by_cases eq : q = p
    · subst eq; rw [State.move_tasks_self]; exact self rfl
    · rw [State.move_tasks_of_ne eq, same]; exact h
  -- a task that handles no trade update holds nothing
  have quiet : ∀ {p : Nat}, q = p → (s.tasks p).queue = [] → (∀ x rest, s.tasks p ≠ .writing x rest) →
      ∀ {task : Task}, task.Holds bid e := by
    rintro p rfl empty no task
    rcases h with m | ⟨o, loaded, rest, eq⟩
    · rw [empty] at m; cases m
    · exact absurd eq (no _ _)
  cases st with
  | reserve | cancelSent | execute | endOrder => exact .inl h
  | persist at_ | link at_ | linkNone at_ | verdict at_ | accept at_ | refuse at_ | submitted at_
  | rejected at_ | transient at_ | cancelRead at_ | cancelWrite at_ | deliverFill at_ | deliverEnd at_
  | report at_ | resolve at_ | resolveError at_ =>
    exact .inl (moved rfl fun eq => quiet eq (by rw [at_]; rfl) (by simp [at_]))
  | @load p x rest event at_ found =>
    refine .inl (moved rfl ?_)
    rintro rfl
    rcases h with m | ⟨o, loaded, rest', eq⟩
    · rw [at_] at m
      rcases mem_cons.1 m with rfl | m
      · obtain ⟨o, loaded, -, -, ⟨fill, eq, -, -, rfl⟩ | ⟨ended, eq, -⟩⟩ := handle_cases found
        · cases eq; exact .inr ⟨o, loaded, rest, rfl⟩
        · cases eq
      · exact .inl m
    · rw [at_] at eq; cases eq
  | @drop p x rest at_ none =>
    by_cases head : q = p ∧ x = fillPayload bid e
    · obtain ⟨rfl, rfl⟩ := head
      exact .inr (.inl ⟨rest, rfl, at_, none⟩)
    · refine .inl (moved rfl ?_)
      rintro rfl
      rcases h with m | ⟨o, loaded, rest', eq⟩
      · rw [at_] at m
        rcases mem_cons.1 m with rfl | m
        · exact absurd ⟨rfl, rfl⟩ head
        · exact .inl (by rw [queue_resume]; exact m)
      · rw [at_] at eq; cases eq
  | @write p now x rest at_ =>
    by_cases mine : q = p ∧ ∃ o loaded, x = .fill o loaded e.event
    · obtain ⟨rfl, o, loaded, rfl⟩ := mine
      exact .inr (.inr ⟨now, o, loaded, rest, rfl, at_⟩)
    · refine .inl (moved rfl ?_)
      rintro rfl
      rcases h with m | ⟨o, loaded, rest', eq⟩
      · exact .inl (by rw [queue_afterWrite]; simpa [at_, Task.queue] using m)
      · rw [at_] at eq; cases eq; exact absurd ⟨rfl, o, loaded, rfl⟩ mine
  | @settleRead p o filled reason rest at_ =>
    refine .inl (moved rfl ?_)
    rintro rfl
    rcases h with m | ⟨o, loaded, rest', eq⟩
    · exact .inl (by simpa [at_, Task.queue] using m)
    · rw [at_] at eq; cases eq
  | @settleWrite p o items rest at_ =>
    refine .inl (moved rfl ?_)
    rintro rfl
    rcases h with m | ⟨o, loaded, rest', eq⟩
    · exact .inl (by rw [queue_resume]; simpa [at_, Task.queue] using m)
    · rw [at_] at eq; cases eq

/-! ## No fill is lost -/

def BookedRow (db : Db) (o : Nat) (e : Execution) : Prop :=
  ∃ f ∈ db.fills, f.orderId = o ∧ f.brokerFillId = some (.execution e.id) ∧ f.qty = e.qty

/-- Some order row carries the broker id of a trade update. -/
def Visible (db : Db) (x : Payload) : Prop :=
  ∃ order ∈ db.orders, order.brokerOrderId = some x.brokerOrderId

instance (db : Db) (x : Payload) : Decidable (Visible db x) :=
  inferInstanceAs (Decidable (∃ order ∈ db.orders, order.brokerOrderId = some x.brokerOrderId))

/-- The fill a task is about to look an order up for. -/
def Task.nextFill : Task → Option Payload
  | .handling (⟨bid, .fill event⟩ :: _) => some ⟨bid, .fill event⟩
  | _ => none

/-- The consumer looks for the order of a fill only once its broker id is committed. -/
def Findable (s : State) : Label → Prop
  | .load p => ∀ x ∈ (s.tasks p).nextFill, Visible s.db x
  | _ => True

instance (s : State) : (l : Label) → Decidable (Findable s l)
  | .load p => inferInstanceAs (Decidable (∀ x ∈ (s.tasks p).nextFill, Visible s.db x))
  | .reserve _ | .execute .. | .endOrder .. | .persist .. | .link _ | .verdict .. | .accept ..
  | .refuse _ | .submitted .. | .rejected .. | .transient _ | .cancelRead .. | .cancelWrite ..
  | .deliverFill .. | .deliverEnd .. | .report .. | .resolve .. | .write .. | .settleRead _
  | .settleWrite _ => isTrue trivial

lemma Book.same {broker : Dict String BrokerOrder} {bid' : String} {b' : BrokerOrder}
    {e' : Execution} (book : Book broker) (get : broker.get bid = some b)
    (get' : broker.get bid' = some b') (m : e ∈ b.executions) (m' : e' ∈ b'.executions)
    (eq : e.id = e'.id) : bid = bid' ∧ b = b' ∧ e = e' := by
  have key := book.ids get get' m m' eq
  subst key
  rw [get] at get'
  cases get'
  exact ⟨rfl, rfl, inj_on_of_nodup_map (book.nodup get) m m' eq⟩

/-- Each delivered execution has its row or is in some task's hands. -/
structure Kept (s : State) : Prop where
  known : ∀ id ∈ s.delivered, ∃ bid b e, s.broker.get bid = some b ∧ e ∈ b.executions ∧ e.id = id
  kept : ∀ {bid b e}, s.broker.get bid = some b → e ∈ b.executions → e.id ∈ s.delivered →
    BookedRow s.db b.order e ∨ ∃ p, (s.tasks p).Holds bid e

lemma alreadyBooked_of_dropped {db : Db}
    (none : handle db (fillPayload bid e) = none) (visible : Visible db (fillPayload bid e))
    (named : bid ≠ "") (pos : 0 < e.qty ∧ 0 < e.price) : alreadyBooked db (some (.execution e.id)) = true := by
  cases found : findOrder db bid with
  | none =>
    obtain ⟨order, m, has⟩ := visible
    obtain ⟨o, get⟩ := mem_iff_getElem?.1 m
    have no := (findOrder_eq_none named).1 found o
    rw [brokerIds, get, Option.map_some, has] at no
    exact absurd rfl no
  | some o =>
    obtain ⟨loaded, get, -⟩ := Option.map_eq_some_iff.1 (brokerIds_of_findOrder found)
    simp only [handle, fillPayload, Execution.event, found, get] at none
    split at none
    · assumption
    · rw [if_neg (by rw [not_or, not_le, not_le]; exact pos)] at none
      cases none

lemma bookedRow_of_alreadyBooked
    (inv : s.Linked) (traced : s.Traced) (get : s.broker.get bid = some b) (m : e ∈ b.executions)
    (booked : alreadyBooked s.db (some (.execution e.id)) = true) : BookedRow s.db b.order e := by
  rw [alreadyBooked, Option.isSome_some, Bool.true_and, any_eq_true] at booked
  obtain ⟨f, mf, eq⟩ := booked
  have eq : f.brokerFillId = some (.execution e.id) := by simpa using eq
  obtain ⟨bid', b', get', order, ⟨e', m', eq', qty⟩ | ⟨c, eq', -⟩⟩ := traced f mf
  · rw [eq'] at eq
    obtain ⟨rfl, rfl, rfl⟩ := inv.book.same get' get m' m (by simpa using eq)
    exact ⟨f, mf, order, eq', qty⟩
  · rw [eq] at eq'
    cases eq'

lemma State.Linked.pending_stream {p o : Nat} {loaded : Order} {rest : List Payload} (inv : s.Linked)
    (at_ : s.tasks p = .writing (.fill o loaded e.event) rest) (get : s.broker.get bid = some b)
    (m : e ∈ b.executions) : o = b.order := by
  obtain ⟨bid', b', get', order, -, origin⟩ := inv.pending at_
  generalize eq : e.event = event at origin
  cases origin with
  | @stream e' m' =>
    have id : e.id = e'.id := by simpa [Execution.event] using congrArg FillEvent.executionId eq
    obtain ⟨rfl, rfl, -⟩ := inv.book.same get get' m m' id
    exact order.symm
  | settle eq' cut => rw [← eq] at eq'; cases eq'

lemma BookedRow.step {o : Nat} (st : Step s l t) (row : BookedRow s.db o e) : BookedRow t.db o e := by
  obtain ⟨f, m, row⟩ := row
  refine ⟨f, ?_, row⟩
  rcases st.fills with same | ⟨p, now, o, loaded, event, rest, -, -, new⟩
  · rw [same]; exact m
  · rw [new]; exact mem_append_left _ m

lemma Step.keeps {p : Nat} (st : Step s l t) (inv : s.Linked) (traced : s.Traced) (findable : Findable s l)
    (get : s.broker.get bid = some b) (m : e ∈ b.executions) (h : (s.tasks p).Holds bid e) :
    BookedRow t.db b.order e ∨ ∃ q, (t.tasks q).Holds bid e := by
  rcases st.holds h with h | ⟨rest, rfl, at_, none⟩ | ⟨now, o, loaded, rest, rfl, at_⟩
  · exact .inr ⟨p, h⟩
  · have visible : Visible s.db (fillPayload bid e) := findable _ (by rw [at_]; rfl)
    have booked := alreadyBooked_of_dropped none visible (inv.book.named get) (inv.book.pos get m)
    exact .inl ((bookedRow_of_alreadyBooked inv traced get m booked).step st)
  · have order := inv.pending_stream at_ get m
    cases st with
    | write at_' =>
      rw [at_] at at_'
      cases at_'
      exact .inl ⟨newFill o e.event now, mem_append_right _ mem_cons_self, order, rfl, rfl⟩

lemma Kept.step (kept : Kept s) (inv : s.Linked) (traced : s.Traced)
    (findable : Findable s l) (st : Step s l t) : Kept t := by
  have grown := st.grown inv
  have book := st.book inv.book
  have known : ∀ {bid b e}, s.broker.get bid = some b → e ∈ b.executions →
      ∃ bid' b' e', t.broker.get bid' = some b' ∧ e' ∈ b'.executions ∧ e'.id = e.id := by
    intro bid b e get m
    obtain ⟨b', get', later⟩ := grown.broker get
    exact ⟨bid, b', e, get', later.mem e m, rfl⟩
  -- an execution delivered before the step was one of the broker's before the step
  have old : ∀ {bid b e}, t.broker.get bid = some b → e ∈ b.executions → e.id ∈ s.delivered →
      BookedRow t.db b.order e ∨ ∃ p, (t.tasks p).Holds bid e := by
    intro bid b e get m del
    obtain ⟨bid₀, b₀, e₀, get₀, m₀, eq⟩ := kept.known e.id del
    obtain ⟨b₁, get₁, later⟩ := grown.broker get₀
    obtain ⟨rfl, rfl, rfl⟩ := book.same get₁ get (later.mem e₀ m₀) m eq
    rw [later.order]
    rcases kept.kept get₀ m₀ del with row | ⟨p, h⟩
    · exact .inl (row.step st)
    · exact st.keeps inv traced findable get₀ m₀ h
  rcases st.delivered with same | ⟨p, bid, b, e, -, get, m, more, at_⟩
  · refine ⟨fun id del => ?_, fun get m del => old get m (same ▸ del)⟩
    rw [same] at del
    obtain ⟨bid, b, e, get, m, rfl⟩ := kept.known id del
    exact known get m
  · refine ⟨fun id del => ?_, fun {bid' b' e'} get' m' del => ?_⟩
    · rw [more, mem_append, mem_singleton] at del
      rcases del with del | rfl
      · obtain ⟨bid, b, e, get, m, rfl⟩ := kept.known id del
        exact known get m
      · exact known get m
    · rw [more, mem_append, mem_singleton] at del
      rcases del with del | eq
      · exact old get' m' del
      · obtain ⟨b₁, get₁, later⟩ := grown.broker get
        obtain ⟨rfl, rfl, rfl⟩ := book.same get' get₁ m' (later.mem e m) eq
        exact .inr ⟨p, .inl (by rw [at_]; exact mem_cons_self)⟩

/-- What holds of every run the consumer finds its orders in. -/
structure Unlost (s : State) : Prop where
  linked : s.Linked
  traced : s.Traced
  kept : Kept s

lemma Unlost.of_fresh (fresh : Fresh s) : Unlost s where
  linked := .of_fresh fresh
  traced f m := by rw [fresh.fills] at m; cases m
  kept := by
    refine ⟨fun id del => ?_, fun get m del => ?_⟩ <;>
    · rw [fresh.delivered] at del
      cases del

lemma Unlost.step (inv : Unlost s) (findable : Findable s l) (st : system.step s l = some t) : Unlost t :=
  have st := Step.of_step st
  ⟨inv.linked.step st, inv.traced.step inv.linked st, inv.kept.step inv.linked inv.traced findable st⟩

/-- In every run where the consumer looks for the order of a fill only after its broker id was
    committed, a delivered execution that no task has in hand any more is booked on its order. -/
theorem delivered_fill_is_booked {s t : State} {ls : List Label} {bid : String} {b : BrokerOrder}
    {e : Execution} (fresh : Fresh s) (meets : system.Meets Findable s ls)
    (run : system.run s ls = some t) (get : t.broker.get bid = some b) (m : e ∈ b.executions)
    (delivered : e.id ∈ t.delivered) (handled : ∀ p, ¬ (t.tasks p).Holds bid e) : BookedRow t.db b.order e := by
  have inv : Unlost t := Machine.run_invariant Unlost.step (.of_fresh fresh) meets run
  rcases inv.kept.kept get m delivered with row | ⟨p, h⟩
  · exact row
  · exact absurd h (handled p)

def earlyFill : List Label :=
  toBroker none ++ [Label.execute "B1" "E1" 10 50 false, .deliverFill 1 "B1" "E1", .load 1, .submitted 0 1]

def timelyFill : List Label :=
  toBroker none ++ [Label.execute "B1" "E1" 10 50 false, .deliverFill 1 "B1" "E1", .submitted 0 1, .load 1,
    .write 1 2, .settleRead 1, .settleWrite 1]

def firstFill : Execution := ⟨"E1", 10, 50, false, 10⟩

/-- The early fill is gone: the order is at the broker, delivered and handled, and has no row. -/
theorem early_fill_is_dropped : ∃ t, system.run newDesk earlyFill = some t ∧
    t.broker.get "B1" = some ⟨0, [firstFill], some .filled⟩ ∧ firstFill.id ∈ t.delivered ∧
    (∀ p, t.tasks p = .idle) ∧ ¬ BookedRow t.db 0 firstFill := by
  obtain ⟨t, run⟩ : ∃ t, system.run newDesk earlyFill = some t :=
    Option.isSome_iff_exists.1 (by decide +kernel)
  refine ⟨t, run, Machine.observe (f := (·.broker.get "B1")) run (by decide +kernel), ?_, ?_, ?_⟩
  · rw [Machine.observe (f := (·.delivered)) (x := ["E1"]) run (by decide +kernel)]
    decide
  · exact idle_of_run (n := 2) (fun _ => rfl) run (by decide) (by decide +kernel)
  · rintro ⟨f, m, -⟩
    have none := Machine.observe (f := (·.db.fills.length)) (x := 0) run (by decide +kernel)
    rw [length_eq_zero_iff] at none
    rw [none] at m
    cases m

/-- Looked up in time, the same fill is booked. -/
theorem timely_fill_is_booked : ∃ t, system.run newDesk timelyFill = some t ∧ BookedRow t.db 0 firstFill := by
  obtain ⟨t, run⟩ : ∃ t, system.run newDesk timelyFill = some t :=
    Option.isSome_iff_exists.1 (by decide +kernel)
  have get : t.broker.get "B1" = some ⟨0, [firstFill], some .filled⟩ :=
    Machine.observe (f := (·.broker.get "B1")) run (by decide +kernel)
  have delivered : firstFill.id ∈ t.delivered := by
    rw [Machine.observe (f := (·.delivered)) (x := ["E1"]) run (by decide +kernel)]
    decide
  have idle : ∀ p, t.tasks p = .idle :=
    idle_of_run (n := 2) (fun _ => rfl) run (by decide) (by decide +kernel)
  refine ⟨t, run, delivered_fill_is_booked fresh_newDesk ?_ run get mem_cons_self delivered ?_⟩
  · decide +kernel
  · intro p
    rw [idle]
    simp [Task.Holds, Task.queue]

end Workbench.Orders
