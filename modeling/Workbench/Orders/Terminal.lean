import Workbench.Orders.Links

/-!
# Terminal statuses

A terminal status is meant to be final, and a reservation to leave HELD only with its order. Of the
five writers of a status only the terminal-event handler looks at the status, and at the copy it loaded:
the router's writes, the local cancel and the fill handler overwrite whatever the row holds. A local
cancel between the broker's acceptance and the router's second commit releases the reservation, and the
commit then brings the order back to SUBMITTED, live at the broker (`cancel_race_revives_order`).

`Unclobbered` is the condition the writes miss: the router's writes do not land on a locally cancelled
order, and a cancel, a fill or a terminal event does not land on an order that ended otherwise. In every
run that meets it terminal statuses are final and an order without its reservation is terminal
(`terminal_is_final`).
-/

set_option linter.dupNamespace false

namespace Workbench.Orders
open Workbench.Lib Workbench.Risk List Function Option Table Machine
variable {s : State} {db : Db}

/-! ## Statuses -/

def statusOf (db : Db) (o : Nat) : Option OrderStatus := db.orders[o]?.map (·.status)

def rewrite (statuses : Nat → Option OrderStatus) (o : Nat) (g : OrderStatus → OrderStatus) (o' : Nat) :
    Option OrderStatus :=
  if o' = o then (statuses o').map g else statuses o'

/-- What a flush leaves of a status, when `new` was computed from a loaded copy. -/
def flushed (loaded new current : OrderStatus) : OrderStatus := if new = loaded then current else new

section Status

variable {db : Db} {o : Nat} {now : Instant}

lemma statusOf_amendOrder {f : Order → Order} {g : OrderStatus → OrderStatus}
    (status : ∀ order, (f order).status = g order.status) :
    statusOf (amendOrder db o f) = rewrite (statusOf db) o g := by
  funext o'
  rw [statusOf, amendOrder, getElem?_amend, rewrite]
  by_cases eq : o' = o
  · subst eq
    rw [if_pos rfl, if_pos rfl, statusOf, Option.map_map, Option.map_map]
    congr 1
    funext order
    exact status order
  · rw [if_neg (Ne.symm eq), if_neg eq, statusOf]

lemma flushStatus_status {loaded new : OrderStatus} {order : Order} :
    (flushStatus loaded new order).status = flushed loaded new order.status := by
  rw [flushStatus, flushed]; split <;> rfl

lemma statusOf_insertOrder {order : Order} : statusOf (insertOrder db order) =
    Function.update (statusOf db) db.orders.length (some order.status) := by
  funext j
  rw [statusOf, insertOrder, update_apply]
  split
  · rename_i eq; subst eq; simp
  · rename_i ne
    rw [getElem?_append]
    split
    · rfl
    · rename_i ge
      rw [getElem?_eq_none (by simp; omega), statusOf, getElem?_eq_none (by omega)]

@[simp] lemma statusOf_settleWrite {items : List SettleItem} : statusOf (settleWrite db items) = statusOf db := by
  funext j; rw [statusOf, settleWrite_orders, statusOf]

lemma statusOf_write {x : Pending} : statusOf (x.write db now) =
    rewrite (statusOf db) x.order (flushed x.loaded.status (x.status db now)) := by
  cases x with
  | fill o loaded event => exact statusOf_amendOrder fun _ => flushStatus_status
  | terminal o loaded event => exact statusOf_amendOrder fun _ => flushStatus_status

lemma statusOf_isSome {x : Option String} (has : brokerIds db o = some x) :
    ∃ current, statusOf db o = some current := by
  obtain ⟨order, get, -⟩ := map_eq_some_iff.1 has
  exact ⟨order.status, by rw [statusOf, get]; rfl⟩

end Status

/-- The status write of a label: the row, and what becomes of its status. -/
def statusWrite (s : State) : Label → Option (Nat × (OrderStatus → OrderStatus))
  | .verdict p _ =>
    match s.tasks p with
    | .linked o passed => some (o, fun _ => if passed then .pendingSubmit else .rejected)
    | _ => none
  | .submitted p _ =>
    match s.tasks p with
    | .accepted o _ => some (o, fun _ => .submitted)
    | _ => none
  | .rejected p _ =>
    match s.tasks p with
    | .refused o => some (o, fun _ => .rejected)
    | _ => none
  | .cancelWrite p _ =>
    match s.tasks p with
    | .cancelling o loaded => some (o, flushed loaded.status .canceled)
    | _ => none
  | .write p now =>
    match s.tasks p with
    | .writing x _ => some (x.order, flushed x.loaded.status (x.status s.db now))
    | _ => none
  | _ => none

lemma Step.statuses {t : State} {l : Label} (st : Step s l t) : statusOf t.db = statusOf s.db ∨
    (∃ p req outcome now, l = .persist p req outcome now ∧
      statusOf t.db = Function.update (statusOf s.db) s.db.orders.length (some .pendingRisk)) ∨
    ∃ o g, statusWrite s l = some (o, g) ∧ statusOf t.db = rewrite (statusOf s.db) o g := by
  cases st with
  | persist idle sym => exact .inr (.inl ⟨_, _, _, _, rfl, statusOf_insertOrder⟩)
  | @verdict p now o passed at_ =>
    refine .inr (.inr ⟨o, fun _ => if passed then .pendingSubmit else .rejected, ?_, ?_⟩)
    · simp only [statusWrite, at_]
    · exact statusOf_amendOrder fun _ => rfl
  | @submitted p now o bid at_ =>
    refine .inr (.inr ⟨o, fun _ => .submitted, ?_, ?_⟩)
    · simp only [statusWrite, at_]
    · exact statusOf_amendOrder fun _ => rfl
  | @rejected p now o at_ =>
    refine .inr (.inr ⟨o, fun _ => .rejected, ?_, ?_⟩)
    · simp only [statusWrite, at_]
    · exact statusOf_amendOrder fun _ => rfl
  | @cancelWrite p now o loaded at_ =>
    refine .inr (.inr ⟨o, flushed loaded.status .canceled, ?_, ?_⟩)
    · simp only [statusWrite, at_]
    · exact statusOf_amendOrder fun _ => flushStatus_status
  | @write p now x rest at_ =>
    refine .inr (.inr ⟨x.order, flushed x.loaded.status (x.status s.db now), ?_, statusOf_write⟩)
    simp only [statusWrite, at_]
  | settleWrite at_ => exact .inl statusOf_settleWrite
  | _ => exact .inl rfl

/-! ## The condition on a status write -/

/-- The event writes the status the row has: a complete fill on a filled order, or the same end. -/
def Pending.repeats (db : Db) (now : Instant) (current : OrderStatus) : Pending → Prop
  | .fill o loaded event =>
    current = .filled ∧ event.isPartial = false ∧ loaded.qty ≤ allFillsQty db o event now
  | .terminal _ _ event => current = event.status

instance (db : Db) (now : Instant) (current : OrderStatus) :
    (x : Pending) → Decidable (x.repeats db now current)
  | .fill o loaded event => inferInstanceAs (Decidable (current = .filled ∧
      event.isPartial = false ∧ loaded.qty ≤ allFillsQty db o event now))
  | .terminal _ _ event => inferInstanceAs (Decidable (current = event.status))

/-- The order a task is about to cancel locally. -/
def Task.cancels : Task → Option Nat
  | .cancelling o _ => some o
  | _ => none

def Task.event : Task → Option Pending
  | .writing x _ => some x
  | _ => none

/-- The router does not write over a local cancel, and nobody else over another terminal status. -/
def Unclobbered (s : State) : Label → Prop
  | .verdict p _ | .submitted p _ | .rejected p _ =>
    ∀ o ∈ (s.tasks p).submitting, statusOf s.db o ≠ some .canceled
  | .cancelWrite p _ => ∀ o ∈ (s.tasks p).cancels, ∀ current ∈ statusOf s.db o,
    current.terminal = false ∨ current = .canceled
  | .write p now => ∀ x ∈ (s.tasks p).event, ∀ current ∈ statusOf s.db x.order,
    current.terminal = false ∨ x.repeats s.db now current
  | _ => True

instance (s : State) : (l : Label) → Decidable (Unclobbered s l)
  | .verdict p _ | .submitted p _ | .rejected p _ =>
    inferInstanceAs (Decidable (∀ o ∈ (s.tasks p).submitting, statusOf s.db o ≠ some .canceled))
  | .cancelWrite p _ => inferInstanceAs (Decidable (∀ o ∈ (s.tasks p).cancels,
      ∀ current ∈ statusOf s.db o, current.terminal = false ∨ current = .canceled))
  | .write p now => inferInstanceAs (Decidable (∀ x ∈ (s.tasks p).event,
      ∀ current ∈ statusOf s.db x.order, current.terminal = false ∨ x.repeats s.db now current))
  | .reserve _ | .execute .. | .endOrder .. | .persist .. | .link _ | .accept .. | .refuse _
  | .transient _ | .cancelRead .. | .deliverFill .. | .deliverEnd .. | .report .. | .resolve ..
  | .load _ | .settleRead _ | .settleWrite _ => isTrue trivial

/-! ## The invariant -/

/-- The row a task loaded before it writes a status. -/
def Task.copy : Task → Option (Nat × Order)
  | .cancelling o loaded => some (o, loaded)
  | .writing x _ => some (x.order, x.loaded)
  | _ => none

/-- The order whose reservation a task is settling. -/
def Task.settles : Task → Option Nat
  | .settle o _ _ _ | .settling o _ _ => some o
  | _ => none

@[simp] lemma copy_resume {rest : List Payload} : (resume rest).copy = none := by
  cases rest <;> rfl

@[simp] lemma copy_afterWrite {x : Pending} {settles : Option Bool} {rest : List Payload} :
    (afterWrite x settles rest).copy = none := by
  cases settles with
  | none => exact copy_resume
  | some filled => rfl

@[simp] lemma settles_resume {rest : List Payload} : (resume rest).settles = none := by
  cases rest <;> rfl

def Ended (db : Db) (o : Nat) : Prop := ∃ current, statusOf db o = some current ∧ current.terminal = true

/-- Orders are open while they are submitted, and have ended when their reservation leaves HELD. -/
structure Final (s : State) : Prop where
  submitting : ∀ {p o current}, (s.tasks p).submitting = some o → statusOf s.db o = some current →
    current = .pendingRisk ∨ current = .pendingSubmit ∨ current = .canceled
  copy : ∀ {p o order}, (s.tasks p).copy = some (o, order) → ∃ current,
    statusOf s.db o = some current ∧ (order.status.terminal = true → current = order.status)
  settles : ∀ {p o}, (s.tasks p).settles = some o → Ended s.db o
  items : ∀ {p o items rest}, s.tasks p = .settling o items rest → ∀ it ∈ items,
    ∃ r, s.db.reservations[it.id]? = some r ∧ r.orderId = some o
  released : ∀ r ∈ s.db.reservations, r.state ≠ .held → ∃ o, r.orderId = some o ∧ Ended s.db o

lemma Final.of_fresh (fresh : Fresh s) : Final s := by
  constructor
  · intro p o current h; rw [fresh.tasks] at h; cases h
  · intro p o order h; rw [fresh.tasks] at h; cases h
  · intro p o h; rw [fresh.tasks] at h; cases h
  · intro p o items rest h; rw [fresh.tasks] at h; cases h
  · intro r m; rw [fresh.reservations] at m; cases m

section Absorb

variable {s t : State} {l : Label} {o : Nat} {current : OrderStatus}

lemma flushed_self {loaded : OrderStatus} : flushed loaded current current = current := by
  rw [flushed]; split <;> rfl

lemma Pending.status_of_repeats {x : Pending} {db : Db} {now : Instant}
    (rep : x.repeats db now current) : x.status db now = current := by
  cases x with
  | fill o loaded event =>
    obtain ⟨rfl, complete, enough⟩ := rep
    rw [Pending.status, filledStatus, if_neg]
    rw [complete, not_or]
    exact ⟨by decide, not_lt.2 enough⟩
  | terminal o loaded event => exact rep.symm

lemma Final.open_of_submitting {p : Nat} (final : Final s) (h : (s.tasks p).submitting = some o)
    (has : statusOf s.db o = some current) (uncancelled : statusOf s.db o ≠ some .canceled) :
    current.terminal = false := by
  rcases final.submitting h has with rfl | rfl | rfl
  · rfl
  · rfl
  · exact absurd has uncancelled

lemma statusWrite_keeps {g : OrderStatus → OrderStatus} (final : Final s) (c : Unclobbered s l)
    (write : statusWrite s l = some (o, g)) (has : statusOf s.db o = some current)
    (term : current.terminal = true) : g current = current := by
  cases l with
  | verdict p now | submitted p now | rejected p now =>
    simp only [statusWrite] at write
    split at write <;> cases write
    rename_i at_
    have sub : (s.tasks p).submitting = some o := by rw [at_]; rfl
    have no := final.open_of_submitting sub has (c o sub)
    rw [term] at no
    cases no
  | cancelWrite p now =>
    simp only [statusWrite] at write
    split at write <;> cases write
    rename_i at_
    rcases c o (by rw [at_]; rfl) current has with no | rfl
    · rw [term] at no; cases no
    · exact flushed_self
  | write p now =>
    simp only [statusWrite] at write
    split at write <;> cases write
    rename_i x rest at_
    rcases c x (by rw [at_]; rfl) current has with no | rep
    · rw [term] at no; cases no
    · rw [Pending.status_of_repeats rep]; exact flushed_self
  | _ => cases write

lemma Step.absorbs (st : Step s l t) (final : Final s) (c : Unclobbered s l)
    (has : statusOf s.db o = some current) (term : current.terminal = true) : statusOf t.db o = some current := by
  rcases st.statuses with same | ⟨p, req, outcome, now, -, new⟩ | ⟨o', g, write, new⟩
  · rw [same, has]
  · rw [new, update_of_ne, has]
    rintro rfl
    simp [statusOf] at has
  · rw [new, rewrite]
    split
    · rename_i eq
      subst eq
      rw [has, map_some, statusWrite_keeps final c write has term]
    · exact has

lemma Step.ended (st : Step s l t) (final : Final s) (c : Unclobbered s l) (h : Ended s.db o) : Ended t.db o := by
  obtain ⟨current, has, term⟩ := h
  exact ⟨current, st.absorbs final c has term, term⟩

lemma Step.statusOf_isSome (st : Step s l t) (has : statusOf s.db o = some current) :
    ∃ current', statusOf t.db o = some current' := by
  rcases st.statuses with same | ⟨p, req, outcome, now, -, new⟩ | ⟨o', g, write, new⟩
  · exact ⟨current, by rw [same, has]⟩
  · refine ⟨current, ?_⟩
    rw [new, update_of_ne, has]
    rintro rfl
    simp [statusOf] at has
  · rw [new, rewrite, has]
    split
    · exact ⟨_, rfl⟩
    · exact ⟨_, rfl⟩

end Absorb

/-! ## Reservations -/

lemma settleWrite_row {items : List SettleItem} {i : Nat} {r : RiskReservation}
    (get : db.reservations[i]? = some r) : ∃ r', (settleWrite db items).reservations[i]? = some r' ∧
      r'.orderId = r.orderId ∧ (r'.state = r.state ∨ ∃ it ∈ items, it.id = i) := by
  induction items generalizing db r with
  | nil => exact ⟨r, get, rfl, .inl rfl⟩
  | cons it items ih =>
    have first : ∃ r', (settleItem db it).reservations[i]? = some r' ∧ r'.orderId = r.orderId ∧
        (r'.state = r.state ∨ it.id = i) := by
      rw [settleItem_reservations, getElem?_amend, get]
      split
      · rename_i eq; exact ⟨_, rfl, rfl, .inr eq⟩
      · exact ⟨r, rfl, rfl, .inl rfl⟩
    obtain ⟨r₁, get₁, order₁, state₁⟩ := first
    obtain ⟨r₂, get₂, order₂, state₂⟩ := ih get₁
    refine ⟨r₂, get₂, order₂.trans order₁, ?_⟩
    rcases state₂ with eq₂ | ⟨x, m, eq⟩
    · rcases state₁ with eq₁ | eq
      · exact .inl (eq₂.trans eq₁)
      · exact .inr ⟨it, mem_cons_self, eq⟩
    · exact .inr ⟨x, mem_cons_of_mem _ m, eq⟩

lemma settleWrite_length {items : List SettleItem} :
    (settleWrite db items).reservations.length = db.reservations.length := by
  induction items generalizing db with
  | nil => rfl
  | cons it items ih =>
    refine ih.trans ?_
    rw [settleItem_reservations, length_amend]

lemma settleReservation_linked {o : Nat} {filled : Bool} {reason : String} :
    ∀ it ∈ settleReservationForOrder db o filled reason,
      ∃ r, db.reservations[it.id]? = some r ∧ r.orderId = some o := by
  intro it m
  rw [settleReservationForOrder] at m
  split at m
  · cases m
  · rename_i i found
    split at m
    · cases m
    · rename_i row get
      cases mem_singleton.1 m
      obtain ⟨lt, p, -⟩ := findIdx?_eq_some_iff_getElem.1 found
      refine ⟨row, get, ?_⟩
      rw [getElem?_eq_getElem lt] at get
      cases get
      simpa using (of_decide_eq_true p).1

@[simp] lemma reservations_write {x : Pending} {now : Instant} : (x.write db now).reservations = db.reservations := by
  cases x <;> rfl

lemma Step.reservation {t : State} {l : Label} {i o : Nat} {r : RiskReservation} (st : Step s l t)
    (get : s.db.reservations[i]? = some r) (order : r.orderId = some o) :
    ∃ r', t.db.reservations[i]? = some r' ∧ r'.orderId = some o := by
  cases st with
  | reserve held none =>
    refine ⟨r, ?_, order⟩
    rw [State.setDb_db, getElem?_append_left (List.getElem?_eq_some_iff.1 get).1, get]
  | link at_ =>
    simp only [State.move_db, State.setDb_db, linkReservation, getElem?_amend, get]
    split
    · exact ⟨r, by simp [order], order⟩
    · exact ⟨r, rfl, order⟩
  | settleWrite at_ =>
    obtain ⟨r', get', order', -⟩ := settleWrite_row get
    exact ⟨r', get', order'.trans order⟩
  | write at_ => exact ⟨r, by simpa using get, order⟩
  | _ => exact ⟨r, get, order⟩

/-! ## One step -/

section Step
variable {q o : Nat} {s t : State} {l : Label}

lemma Step.submitting (st : Step s l t) (h : (t.tasks q).submitting = some o) : (s.tasks q).submitting = some o ∨
      (o = s.db.orders.length ∧ ∃ req outcome now, l = .persist q req outcome now) := by
  by_cases named : l.task = some q
  · cases st with
    | reserve | cancelSent | execute | endOrder => exact .inl h
    | persist idle sym =>
      cases named
      rw [State.move_tasks_self] at h
      cases h
      exact .inr ⟨rfl, _, _, _, rfl⟩
    | link at_ | linkNone at_ | accept at_ | refuse at_ =>
      cases named
      rw [State.move_tasks_self] at h
      rw [at_]
      exact .inl h
    | @verdict p now o' passed at_ =>
      cases named
      rw [State.move_tasks_self] at h
      rw [at_]
      cases passed with
      | true => exact .inl h
      | false => cases h
    | resolve at_ | drop at_ | settleWrite at_ | write at_ =>
      cases named
      rw [State.move_tasks_self] at h
      simp at h
    | _ =>
      cases named
      rw [State.move_tasks_self] at h
      simp [Task.submitting, Task.unsent] at h
  · rw [st.tasks_of_ne named] at h
    exact .inl h

lemma Step.submission_write {g : OrderStatus → OrderStatus} (st : Step s l t)
    (inv : s.Linked) (was : (s.tasks q).submitting = some o) (still : (t.tasks q).submitting = some o)
    (write : statusWrite s l = some (o, g)) :
    (g = fun _ => .pendingSubmit) ∨ ∃ loaded, g = flushed loaded .canceled := by
  have row : brokerIds s.db o = some none := by
    cases eq : s.tasks q with
    | accepted o' bid => rw [eq] at was; cases was; exact (inv.links.sent eq).1
    | _ => exact (inv.links.unsent (Task.unsent_of_submitting_ne was (by simp [eq]))).1
  have own : ∀ {p}, (s.tasks p).submitting = some o → p = q := fun h => inv.links.sole h was
  cases st with
  | @verdict p now o' passed at_ =>
    simp only [statusWrite, at_] at write
    cases write
    have eq := own (p := p) (by rw [at_]; rfl)
    subst eq
    rw [State.move_tasks_self] at still
    cases passed with
    | true => exact .inl rfl
    | false => cases still
  | @submitted p now o' bid at_ =>
    simp only [statusWrite, at_] at write
    cases write
    have eq := own (p := p) (by rw [at_]; rfl)
    subst eq
    rw [State.move_tasks_self] at still
    cases still
  | @rejected p now o' at_ =>
    simp only [statusWrite, at_] at write
    cases write
    have eq := own (p := p) (by rw [at_]; rfl)
    subst eq
    rw [State.move_tasks_self] at still
    simp [Task.submitting, Task.unsent] at still
  | cancelWrite at_ =>
    simp only [statusWrite, at_] at write
    cases write
    exact .inr ⟨_, rfl⟩
  | write at_ =>
    -- the consumer writes to rows with a broker id
    simp only [statusWrite, at_] at write
    cases write
    obtain ⟨bid, b, has, -⟩ := (inv.links.sound _).writing _ _ at_
    rw [row] at has
    cases has
  | _ => cases write

lemma Final.submitting_step {current : OrderStatus} (final : Final s) (inv : s.Linked)
    (st : Step s l t) (h : (t.tasks q).submitting = some o) (has : statusOf t.db o = some current) :
    current = .pendingRisk ∨ current = .pendingSubmit ∨ current = .canceled := by
  have new : statusOf s.db s.db.orders.length = none := by simp [statusOf]
  rcases st.submitting h with was | ⟨rfl, req, outcome, now, rfl⟩
  · rcases st.statuses with same | ⟨p, req, outcome, now, rfl, eq⟩ | ⟨o', g, write, eq⟩
    · rw [same] at has
      exact final.submitting was has
    · by_cases last : o = s.db.orders.length
      · subst last
        rw [eq, update_self] at has
        cases has
        exact .inl rfl
      · rw [eq, update_of_ne last] at has
        exact final.submitting was has
    · rw [eq, rewrite] at has
      split at has
      · rename_i own
        subst own
        obtain ⟨old, has', rfl⟩ := map_eq_some_iff.1 has
        rcases st.submission_write inv was h write with rfl | ⟨loaded, rfl⟩
        · exact .inr (.inl rfl)
        · rw [flushed]
          split
          · exact final.submitting was has'
          · exact .inr (.inr rfl)
      · exact final.submitting was has
  · rcases st.statuses with same | ⟨p, req', outcome', now', -, eq⟩ | ⟨o', g, write, -⟩
    · rw [same, new] at has
      cases has
    · rw [eq, update_self] at has
      cases has
      exact .inl rfl
    · cases write

lemma Step.copy {order : Order} (st : Step s l t) (h : (t.tasks q).copy = some (o, order)) :
    (s.tasks q).copy = some (o, order) ∨ (s.db.orders[o]? = some order ∧ statusOf t.db = statusOf s.db) := by
  by_cases named : l.task = some q
  · cases st with
    | reserve | cancelSent | execute | endOrder => exact .inl h
    | cancelRead idle get never =>
      cases named
      rw [State.move_tasks_self] at h
      cases h
      exact .inr ⟨get, rfl⟩
    | load at_ found =>
      cases named
      rw [State.move_tasks_self] at h
      cases h
      obtain ⟨o, loaded, -, get, ⟨fill, -, -, -, rfl⟩ | ⟨ended, -, -, rfl⟩⟩ := handle_cases found
      · exact .inr ⟨get, rfl⟩
      · exact .inr ⟨get, rfl⟩
    | @verdict p now o' passed at_ =>
      cases named
      rw [State.move_tasks_self] at h
      cases passed <;> cases h
    | resolve at_ | drop at_ | settleWrite at_ | write at_ =>
      cases named
      rw [State.move_tasks_self] at h
      simp at h
    | _ =>
      cases named
      rw [State.move_tasks_self] at h
      simp [Task.copy] at h
  · rw [st.tasks_of_ne named] at h
    exact .inl h

lemma Final.copy_step {order : Order} (final : Final s) (c : Unclobbered s l)
    (st : Step s l t) (h : (t.tasks q).copy = some (o, order)) : ∃ current,
      statusOf t.db o = some current ∧ (order.status.terminal = true → current = order.status) := by
  rcases st.copy h with was | ⟨get, same⟩
  · obtain ⟨old, has, eq⟩ := final.copy was
    obtain ⟨current, has'⟩ := st.statusOf_isSome has
    refine ⟨current, has', fun term => ?_⟩
    have kept := st.absorbs final c has (by rw [eq term]; exact term)
    rw [has'] at kept
    cases kept
    exact eq term
  · refine ⟨order.status, ?_, fun _ => rfl⟩
    rw [same, statusOf, get]
    rfl

lemma ended_of_flush {db db' : Db} {loaded new : OrderStatus} (term : new.terminal = true)
    (copy : ∃ current, statusOf db o = some current ∧ (loaded.terminal = true → current = loaded))
    (eq : statusOf db' = rewrite (statusOf db) o (flushed loaded new)) : Ended db' o := by
  obtain ⟨current, has, same⟩ := copy
  refine ⟨flushed loaded new current, ?_, ?_⟩
  · rw [eq, rewrite, if_pos rfl, has, map_some]
  · rw [flushed]
    split
    · rename_i skip
      subst skip
      rw [same term]
      exact term
    · exact term

lemma TerminalEvent.terminal_status (event : TerminalEvent) : event.status.terminal = true := by
  cases event <;> rfl

lemma Pending.terminal_of_settles {x : Pending} {db : Db} {now : Instant} {filled : Bool}
    (settles : x.settles db now = some filled) : (x.status db now).terminal = true := by
  cases x with
  | fill o loaded event =>
    simp only [Pending.settles] at settles
    split at settles
    · rename_i eq; rw [eq]; rfl
    · cases settles
  | terminal o loaded event => exact event.terminal_status

lemma Final.settles_step (final : Final s) (inv : s.Linked) (c : Unclobbered s l)
    (st : Step s l t) (h : (t.tasks q).settles = some o) : Ended t.db o := by
  by_cases named : l.task = some q
  · cases id st with
    | reserve | cancelSent | execute | endOrder => exact st.ended final c (final.settles h)
    | @rejected p now o' at_ =>
      cases named
      rw [State.move_tasks_self] at h
      obtain rfl : o' = o := by simpa [Task.settles] using h
      obtain ⟨current, has⟩ :=
        statusOf_isSome (inv.links.unsent (p := q) (o := o') (by rw [at_]; rfl)).1
      have eq : statusOf (markBrokerRejected s.db o' now) =
          rewrite (statusOf s.db) o' fun _ => .rejected := statusOf_amendOrder fun _ => rfl
      refine ⟨.rejected, ?_, rfl⟩
      rw [State.move_db, State.setDb_db, eq, rewrite, if_pos rfl, has, map_some]
    | @cancelWrite p now o' loaded at_ =>
      cases named
      rw [State.move_tasks_self] at h
      obtain rfl : o' = o := by simpa [Task.settles] using h
      have term : OrderStatus.canceled.terminal = true := rfl
      refine ended_of_flush term (final.copy (p := q) (by rw [at_]; rfl)) ?_
      exact statusOf_amendOrder fun _ => flushStatus_status
    | @write p now x rest at_ =>
      cases named
      rw [State.move_tasks_self] at h
      cases settles : x.settles s.db now with
      | none => simp [afterWrite, settles] at h
      | some filled =>
        obtain rfl : x.order = o := by simpa [afterWrite, settles, Task.settles] using h
        exact ended_of_flush (Pending.terminal_of_settles settles)
          (final.copy (p := q) (by rw [at_]; rfl)) statusOf_write
    | @settleRead p o' filled reason rest at_ =>
      cases named
      rw [State.move_tasks_self] at h
      refine st.ended final c (final.settles (p := q) ?_)
      rw [at_]
      exact h
    | @verdict p now o' passed at_ =>
      cases named
      rw [State.move_tasks_self] at h
      cases passed <;> cases h
    | resolve at_ | drop at_ | settleWrite at_ =>
      cases named
      rw [State.move_tasks_self] at h
      simp at h
    | _ =>
      cases named
      rw [State.move_tasks_self] at h
      simp [Task.settles] at h
  · rw [st.tasks_of_ne named] at h
    exact st.ended final c (final.settles h)

lemma Final.items_step {items : List SettleItem} {rest : List Payload} (final : Final s)
    (st : Step s l t) (h : t.tasks q = .settling o items rest) :
    ∀ it ∈ items, ∃ r, t.db.reservations[it.id]? = some r ∧ r.orderId = some o := by
  intro it m
  have old : ∀ {p rest'}, s.tasks p = .settling o items rest' →
      ∃ r, t.db.reservations[it.id]? = some r ∧ r.orderId = some o := by
    intro p rest' at_
    obtain ⟨r, get, order⟩ := final.items at_ it m
    exact st.reservation get order
  by_cases named : l.task = some q
  · cases id st with
    | reserve | cancelSent | execute | endOrder => exact old h
    | settleRead at_ =>
      cases named
      rw [State.move_tasks_self] at h
      cases h
      exact settleReservation_linked it m
    | @verdict p now o' passed at_ =>
      cases named
      rw [State.move_tasks_self] at h
      cases passed <;> cases h
    | resolve at_ | drop at_ | settleWrite at_ =>
      cases named
      rw [State.move_tasks_self, resume.eq_def] at h
      split at h <;> cases h
    | @write p now x rest' at_ =>
      cases named
      rw [State.move_tasks_self] at h
      cases settles : x.settles s.db now <;> rw [settles] at h
      · rw [afterWrite, resume.eq_def] at h
        split at h <;> cases h
      · cases h
    | _ =>
      cases named
      rw [State.move_tasks_self] at h
      cases h
  · rw [st.tasks_of_ne named] at h
    exact old h

lemma Final.released_step {r : RiskReservation} (final : Final s) (c : Unclobbered s l)
    (st : Step s l t) (m : r ∈ t.db.reservations) (left : r.state ≠ .held) :
    ∃ o, r.orderId = some o ∧ Ended t.db o := by
  have old : r ∈ s.db.reservations → ∃ o, r.orderId = some o ∧ Ended t.db o := by
    intro m
    obtain ⟨o, order, ended⟩ := final.released r m left
    exact ⟨o, order, st.ended final c ended⟩
  cases id st with
  | reserve held none =>
    rcases mem_append.1 m with m | m
    · exact old m
    · cases mem_singleton.1 m
      exact absurd held left
  | link at_ =>
    obtain ⟨i, get⟩ := mem_iff_getElem?.1 m
    simp only [State.move_db, State.setDb_db, linkReservation, getElem?_amend] at get
    split at get
    · obtain ⟨r₀, get₀, eq⟩ := map_eq_some_iff.1 get
      split at eq
      · -- an unlinked row is HELD, and linking keeps its state
        rename_i unlinked
        subst eq
        obtain ⟨o, order, -⟩ := final.released r₀ (mem_of_getElem? get₀) left
        rw [unlinked] at order
        cases order
      · subst eq
        exact old (mem_of_getElem? get₀)
    · exact old (mem_of_getElem? get)
  | @settleWrite p o items rest at_ =>
    obtain ⟨i, get⟩ := mem_iff_getElem?.1 m
    have lt : i < s.db.reservations.length := by
      rw [← @settleWrite_length s.db items]
      exact (List.getElem?_eq_some_iff.1 get).1
    obtain ⟨r', get', order, state⟩ := @settleWrite_row s.db items i _ (getElem?_eq_getElem lt)
    rw [show (settleWrite s.db items).reservations[i]? = some r from get] at get'
    cases get'
    rw [order]
    rcases state with eq | ⟨it, mit, rfl⟩
    · obtain ⟨o', order', ended⟩ := final.released _ (getElem_mem lt) (by rw [← eq]; exact left)
      exact ⟨o', order', st.ended final c ended⟩
    · obtain ⟨r₀, get₀, order₀⟩ := final.items at_ it mit
      rw [getElem?_eq_getElem lt] at get₀
      cases get₀
      exact ⟨o, order₀, st.ended final c (final.settles (p := p) (by rw [at_]; rfl))⟩
  | write at_ => exact old (by simpa using m)
  | _ => exact old m

lemma Final.step (final : Final s) (inv : s.Linked) (c : Unclobbered s l) (st : Step s l t) : Final t where
  submitting h has := final.submitting_step inv st h has
  copy h := final.copy_step c st h
  settles h := final.settles_step inv c st h
  items h := final.items_step st h
  released _ m left := final.released_step c st m left

end Step

/-! ## Every run -/

/-- What holds of every run without clobbered statuses. -/
structure Settled (s : State) : Prop where
  linked : s.Linked
  final : Final s

lemma Settled.step {t : State} {l : Label} (inv : Settled s) (c : Unclobbered s l)
    (st : system.step s l = some t) : Settled t :=
  have st := Step.of_step st
  ⟨inv.linked.step st, inv.final.step inv.linked c st⟩

/-- In every run whose writes do not land on an order that ended otherwise, a terminal status never changes, and an
order that holds nothing is not live at the broker under another. -/
theorem terminal_is_final {s t u : State} {ls ls' : List Label} (fresh : Fresh s)
    (meets : system.Meets Unclobbered s (ls ++ ls')) (run : system.run s ls = some t)
    (run' : system.run t ls' = some u) :
    (∀ o current, statusOf t.db o = some current → current.terminal = true → statusOf u.db o = some current) ∧
    ∀ r ∈ t.db.reservations, ∀ o, r.orderId = some o → r.state ≠ .held →
      ∀ bid b, u.broker.get bid = some b → b.order = o → b.ending = none → Ended u.db o := by
  obtain ⟨meets, meets'⟩ := meets.append run
  have inv : Settled t :=
    run_invariant Settled.step ⟨.of_fresh fresh, .of_fresh fresh⟩ meets run
  have kept : ∀ o current, statusOf t.db o = some current → current.terminal = true →
      statusOf u.db o = some current :=
    run_relation
      (R := fun s t : State => ∀ o current, statusOf s.db o = some current →
        current.terminal = true → statusOf t.db o = some current)
      (fun _ _ _ has _ => has)
      (fun h h' o current has term => h' o current (h o current has term) term) Settled.step
      (fun inv c st _ _ has term => (Step.of_step st).absorbs inv.final c has term) inv meets' run'
  refine ⟨kept, fun r m o order left bid b get eq live => ?_⟩
  obtain ⟨o', order', current, has, term⟩ := inv.final.released r m left
  rw [order] at order'
  cases order'
  exact ⟨current, kept o current has term, term⟩

def heldTen : RiskReservation where
  accountId := 1
  symbol := "AAPL"
  qty := 10
  positionQtyAtReservation := some 10
  createdAt := 0

def cancelDuringSubmit : List Label :=
  .reserve heldTen :: toBroker (some 0) ++
    [Label.cancelRead 1 0, .cancelWrite 1 1, .settleRead 1, .settleWrite 1]

/-- The router then commits SUBMITTED over CANCELED, and the order is live without a reservation. -/
theorem cancel_race_revives_order : ∃ t u, system.run newDesk cancelDuringSubmit = some t ∧
    system.run t [.submitted 0 2] = some u ∧ statusOf t.db 0 = some .canceled ∧ statusOf u.db 0 = some .submitted ∧
    t.db.reservations.map (fun r => (r.orderId, r.state)) = [(some 0, .released)] ∧
    u.broker.get "B1" = some { order := 0 } := by
  obtain ⟨u, both⟩ : ∃ u, system.run newDesk (cancelDuringSubmit ++ [.submitted 0 2]) = some u :=
    isSome_iff_exists.1 (by decide +kernel)
  obtain ⟨t, run, run'⟩ := run_append.1 both
  have canceled : statusOf t.db 0 = some .canceled :=
    Machine.observe (f := (statusOf ·.db 0)) run (by decide +kernel)
  have submitted : statusOf u.db 0 = some .submitted :=
    Machine.observe (f := (statusOf ·.db 0)) both (by decide +kernel)
  have released : t.db.reservations.map (fun r => (r.orderId, r.state)) = [(some 0, .released)] :=
    Machine.observe (f := (·.db.reservations.map fun r => (r.orderId, r.state))) run (by decide +kernel)
  have live : u.broker.get "B1" = some { order := 0 } :=
    Machine.observe (f := (·.broker.get "B1")) both (by decide +kernel)
  exact ⟨t, u, run, run', canceled, submitted, released, live⟩

def fillAndSettle : List Label :=
  .reserve heldTen :: toBroker (some 0) ++
    [Label.submitted 0 1, .execute "B1" "E1" 10 50 false, .deliverFill 1 "B1" "E1", .load 1, .write 1 2,
      .settleRead 1, .settleWrite 1]

/-- A second delivery and a cancel request leave it FILLED. -/
theorem filled_order_stays_filled : ∃ t u, system.run newDesk fillAndSettle = some t ∧
    system.run t [.deliverFill 1 "B1" "E1", .load 1, .cancelRead 2 0] = some u ∧
    statusOf t.db 0 = some .filled ∧ statusOf u.db 0 = some .filled := by
  obtain ⟨u, both⟩ : ∃ u, system.run newDesk
      (fillAndSettle ++ [.deliverFill 1 "B1" "E1", .load 1, .cancelRead 2 0]) = some u :=
    isSome_iff_exists.1 (by decide +kernel)
  obtain ⟨t, run, run'⟩ := run_append.1 both
  have filled : statusOf t.db 0 = some .filled :=
    Machine.observe (f := (statusOf ·.db 0)) run (by decide +kernel)
  refine ⟨t, u, run, run', filled, ?_⟩
  exact (terminal_is_final fresh_newDesk (by decide +kernel) run run').1 0 .filled filled rfl

end Workbench.Orders
