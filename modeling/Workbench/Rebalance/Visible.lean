import Workbench.Rebalance.System

/-!
# Every bought share is visible

A share leaves `pending_buy_qty` with the commit that makes its order FILLED and enters the position row with
the recompute that follows, so between the two commits neither counts it, and a rebalance at that moment buys
it again (`filled_basket_bought_twice`).

`Counts` is what is needed for `Counted`: the executed shares of the orders that are over are in the position
row, and in every copy of it that is still going to be written or netted. With it, what a rebalance reads
covers what was filled and what is in flight, and the target is never exceeded (`bought_shares_visible`).
-/

set_option linter.dupNamespace false

namespace Workbench.Rebalance
open Workbench.Lib Workbench.Risk Workbench.Orders List Function Dict Table Bool

/-! ## Sums over the orders -/

section Sums
variable {σ : Setting} {db db' : Db} {t : String} {w w' : Order → Nat → ℚ}
variable {order : Order}

lemma overBuys_add : overBuys σ db t w + overBuys σ db t w' = overBuys σ db t fun order o => w order o +
    w' order o := by
  unfold overBuys
  rw [← total_add]
  apply total_congr
  intro x _
  split
  · rfl
  · exact add_zero 0

lemma overBuys_congr (eq : ∀ o order, db.orders[o]? = some order → w order o = w' order o) :
    overBuys σ db t w = overBuys σ db t w' := by
  apply total_congr
  intro x mem
  rw [eq x.2 x.1 (mem_zipIdx_iff_getElem?.1 mem)]

lemma overBuys_le (le : ∀ o order, db.orders[o]? = some order → db.ticker order = some t → w order o ≤ w' order o) :
    overBuys σ db t w ≤ overBuys σ db t w' := by
  apply total_le_total
  intro x mem
  split
  · rename_i buys
    exact le x.2 x.1 (mem_zipIdx_iff_getElem?.1 mem) buys.2
  · exact le_rfl

lemma overBuys_of_orders (orders : db'.orders = db.orders) (symbols : db'.symbols = db.symbols) :
    overBuys σ db' t w = overBuys σ db t w := by
  unfold overBuys Db.ticker
  rw [orders, symbols]

lemma overBuys_insert (orders : db'.orders = db.orders ++ [order])
    (symbols : db'.symbols = db.symbols) : overBuys σ db' t w =
      overBuys σ db t w + if σ.buys order ∧ db.ticker order = some t then w order db.orders.length else 0 := by
  unfold overBuys Db.ticker
  rw [orders, symbols, zipIdx_append, total_append, zipIdx_singleton, total_cons,
    total_nil, Nat.zero_add, add_zero]

/-- An order row after a write that keeps what the sums look at, its status apart. -/
structure Restated (order order' : Order) : Prop where
  account : order'.accountId = order.accountId
  symbol : order'.symbolId = order.symbolId
  side : order'.side = order.side
  qty : order'.qty = order.qty

lemma Restated.buys {order' : Order} (h : Restated order order') : σ.buys order' = σ.buys order := by
  rw [Setting.buys, Setting.buys, h.account, h.side]

lemma Restated.ticker {order' : Order} (h : Restated order order') (symbols : db'.symbols = db.symbols) :
    db'.ticker order' = db.ticker order := by
  rw [Db.ticker, Db.ticker, symbols, h.symbol]

lemma overBuys_amend {o : Nat} {f : Order → Order} (get : db.orders[o]? = some order)
    (restated : ∀ order, Restated order (f order)) (orders : db'.orders = Table.amend o f db.orders)
    (symbols : db'.symbols = db.symbols) : overBuys σ db' t w = overBuys σ db t w +
      if σ.buys order ∧ db.ticker order = some t then w (f order) o - w order o else 0 := by
  have numbered : db.orders.zipIdx[o]? = some (order, o) := by
    rw [getElem?_zipIdx, get, Option.map_some, Nat.zero_add]
  unfold overBuys
  simp only [orders, zipIdx_amend]
  have same (x : Order × Nat) : (if σ.buys (f x.1) ∧ db'.ticker (f x.1) = some t then w (f x.1) x.2 else 0) =
      if σ.buys x.1 ∧ db.ticker x.1 = some t then w (f x.1) x.2 else 0 := by
    rw [(restated x.1).buys, (restated x.1).ticker symbols]
  have weights : Table.total (fun x : Order × Nat =>
      if σ.buys x.1 ∧ db'.ticker x.1 = some t then w x.1 x.2 else 0) db.orders.zipIdx =
      Table.total (fun x : Order × Nat => if σ.buys x.1 ∧ db.ticker x.1 = some t then w x.1 x.2 else 0)
        db.orders.zipIdx := by
    unfold Db.ticker
    rw [symbols]
  rw [total_amend numbered, weights]
  have ticker : db'.ticker order = db.ticker order := by rw [Db.ticker, Db.ticker, symbols]
  rw [show (if σ.buys (f order) ∧ db'.ticker (f order) = some t then w (f order) o else 0) = _ from same (order, o),
    ticker]
  split <;> ring

end Sums

/-! ## What is visible -/

section Visible
variable {σ : Setting} {d : Orders.State} {t : String}

/-- What was executed for orders that are over, and the quantity of those that are live. -/
def exposure (σ : Setting) (d : Orders.State) (t : String) : ℚ :=
  overBuys σ d.db t fun order o => if order.status.terminal then executed d.broker o else order.qty

lemma bought_add_remainder : bought σ d t + remainder σ d t = exposure σ d t := by
  unfold bought remainder exposure
  rw [overBuys_add]
  apply overBuys_congr
  intro o order _
  split <;> ring

lemma ended_add_pending (mem : t ∈ σ.symbols) : ended σ d t + pendingBuyQty σ d.db t = exposure σ d t := by
  have pending : pendingBuyQty σ d.db t =
      overBuys σ d.db t fun order _ => if order.status.terminal then 0 else order.qty := by
    unfold pendingBuyQty overBuys
    rw [if_pos mem, ← total_zipIdx]
    apply total_congr
    intro x _
    cases status : x.1.status.terminal <;> simp [status]
  unfold ended exposure
  rw [pending, overBuys_add]
  apply overBuys_congr
  intro o order _
  split <;> ring

end Visible

/-! ## What the order system changes -/

section Desk
variable {d d' : Orders.State} {l : Orders.Label}

lemma settleWrite_tables {db : Db} {items : List SettleItem} :
    (settleWrite db items).positions = db.positions ∧ (settleWrite db items).symbols = db.symbols := by
  induction items generalizing db with
  | nil => exact ⟨rfl, rfl⟩
  | cons item items ih =>
    have kept : (settleItem db item).positions = db.positions ∧ (settleItem db item).symbols = db.symbols := by
      rw [settleItem_frame]
      exact ⟨rfl, rfl⟩
    exact ⟨ih.1.trans kept.1, ih.2.trans kept.2⟩

lemma desk_tables (st : Orders.Step d l d') : d'.db.positions = d.db.positions ∧ d'.db.symbols = d.db.symbols := by
  cases st with
  | @write p now x rest at_ => cases x <;> exact ⟨rfl, rfl⟩
  | settleWrite at_ => exact settleWrite_tables
  | _ => exact ⟨rfl, rfl⟩

lemma restated_flushStatus {loaded new : OrderStatus} {order : Order} {now : Instant} :
    Restated order { flushStatus loaded new order with updatedAt := now } := by
  unfold flushStatus
  split <;> exact ⟨rfl, rfl, rfl, rfl⟩

lemma desk_orders (st : Orders.Step d l d') (old : ∀ p req outcome now, l ≠ .persist p req outcome now) :
    d'.db.orders = d.db.orders ∨ ∃ o f g, statusWrite d l = some (o, g) ∧ (∀ order, Restated order (f order)) ∧
      (∀ order, (f order).status = g order.status) ∧ d'.db.orders = Table.amend o f d.db.orders := by
  cases st with
  | persist => exact absurd rfl (old _ _ _ _)
  | @verdict p now o passed at_ =>
    refine .inr ⟨o, fun order =>
        { order with status := if passed then .pendingSubmit else .rejected, updatedAt := now },
      fun _ => if passed then .pendingSubmit else .rejected, ?_, fun _ => ⟨rfl, rfl, rfl, rfl⟩, fun _ => rfl, rfl⟩
    simp only [statusWrite, at_]
  | @submitted p now o bid at_ =>
    refine .inr ⟨o, fun order => { order with brokerOrderId := some bid, status := .submitted, updatedAt := now },
      fun _ => .submitted, ?_, fun _ => ⟨rfl, rfl, rfl, rfl⟩, fun _ => rfl, rfl⟩
    simp only [statusWrite, at_]
  | @rejected p now o at_ =>
    refine .inr ⟨o, fun order => { order with status := .rejected, updatedAt := now }, fun _ => .rejected, ?_,
      fun _ => ⟨rfl, rfl, rfl, rfl⟩, fun _ => rfl, rfl⟩
    simp only [statusWrite, at_]
  | @cancelWrite p now o loaded at_ =>
    refine .inr ⟨o, fun order => { flushStatus loaded.status .canceled order with updatedAt := now },
      flushed loaded.status .canceled, ?_, fun _ => restated_flushStatus,
      fun _ => flushStatus_status, rfl⟩
    simp only [statusWrite, at_]
  | @write p now x rest at_ =>
    refine .inr ⟨x.order, fun order => { flushStatus x.loaded.status (x.status d.db now) order with updatedAt := now },
      flushed x.loaded.status (x.status d.db now), ?_, fun _ => restated_flushStatus,
      fun _ => flushStatus_status, ?_⟩
    · simp only [statusWrite, at_]
    · cases x <;> rfl
  | settleWrite at_ => exact .inl settleWrite_orders
  | _ => exact .inl rfl

lemma executed_set {broker : Dict String BrokerOrder} {bid : String} {b : BrokerOrder} {o : Nat} :
    executed (broker.set bid b) o = executed broker o -
      ((broker.get bid).map fun b => if b.order = o then b.cumQty else 0).getD 0 +
      if b.order = o then b.cumQty else 0 :=
  total_set

lemma desk_executed (st : Orders.Step d l d') :
    (∀ o, executed d'.broker o = executed d.broker o) ∨
    ∃ bid id qty price isPartial b, l = .execute bid id qty price isPartial ∧ d.broker.get bid = some b ∧
      d'.db = d.db ∧ ∀ o, executed d'.broker o = executed d.broker o + if b.order = o then qty else 0 := by
  cases st with
  | @accept p bid o at_ free named =>
    refine .inl fun o' => ?_
    show executed (d.broker.set bid { order := o }) o' = _
    rw [executed_set, free]
    simp [BrokerOrder.cumQty]
  | @execute bid id qty price isPartial b get open_ qpos ppos unused =>
    refine .inr ⟨bid, id, qty, price, isPartial, b, rfl, get, rfl, fun o => ?_⟩
    show executed (d.broker.set bid (b.execute id qty price isPartial)) o = _
    rw [executed_set, get, Option.map_some, Option.getD_some]
    have order : (b.execute id qty price isPartial).order = b.order := rfl
    have cum : (b.execute id qty price isPartial).cumQty = b.cumQty + qty := by
      simp [BrokerOrder.cumQty, BrokerOrder.execute]
    rw [order, cum]
    split <;> ring
  | @endOrder bid event b get open_ =>
    refine .inl fun o => ?_
    show executed (d.broker.set bid { b with ending := _ }) o = _
    rw [executed_set, get, Option.map_some, Option.getD_some]
    exact sub_add_cancel _ _
  | _ => exact .inl fun _ => rfl

lemma executed_of_unknown {o : Nat} (linked : d.Linked) (unknown : brokerIds d.db o = none) :
    executed d.broker o = 0 := by
  have zero : executed d.broker o = Table.total (fun _ : BrokerOrder => 0) d.broker.values := by
    apply total_congr
    intro b mem
    obtain ⟨bid, get⟩ := mem_values.1 mem
    rw [if_neg]
    rintro rfl
    exact linked.links.known get unknown
  rw [zero]
  simp [Table.total]

end Desk

/-! ## The invariant -/

/-- The executed shares of an order that is over, and what else counts of a live one. -/
def weight (d : Orders.State) (c : Order → ℚ) (order : Order) (o : Nat) : ℚ :=
  if order.status.terminal then executed d.broker o else c order

section Weights
variable {σ : Setting} {d d' : Orders.State} {l : Orders.Label} {t : String} {c : Order → ℚ}

lemma ended_eq : ended σ d t = overBuys σ d.db t (weight d fun _ => 0) := rfl

lemma exposure_eq : exposure σ d t = overBuys σ d.db t (weight d (·.qty)) := rfl

lemma desk_weights (st : Orders.Step d l d') (old : ∀ p req outcome now, l ≠ .persist p req outcome now)
    (final : ∀ o, ¬ Turns d l o false)
    (live : ∀ bid id qty price isPartial b order, l = .execute bid id qty price isPartial →
      d.broker.get bid = some b → d.db.orders[b.order]? = some order → order.status.terminal = false)
    (keeps : ∀ {order order'}, Restated order order' → c order' = c order) :
    overBuys σ d'.db t (weight d' c) = overBuys σ d.db t (weight d c) ∨
    ∃ o order, d.db.orders[o]? = some order ∧ d.db.ticker order = some t ∧ Turns d l o true ∧
      overBuys σ d'.db t (weight d' c) = overBuys σ d.db t (weight d c) + (executed d.broker o - c order) := by
  rcases desk_executed st with same | ⟨bid, id, qty, price, isPartial, b, rfl, get, db, more⟩
  · have weights : weight d' c = weight d c := by
      funext order o
      rw [weight, weight, same]
    rw [weights]
    rcases desk_orders st old with orders | ⟨o, f, g, write, restated, status, orders⟩
    · exact .inl (overBuys_of_orders orders (desk_tables st).2)
    cases get : d.db.orders[o]? with
    | none =>
      refine .inl (overBuys_of_orders ?_ (desk_tables st).2)
      rw [orders]
      apply ext_getElem?
      intro j
      rw [getElem?_amend]
      split
      · rename_i eq
        rw [← eq, get, Option.map_none]
      · rfl
    | some order =>
      rw [overBuys_amend get restated orders (desk_tables st).2]
      have current : statusOf d.db o = some order.status := by rw [statusOf, get, Option.map_some]
      cases before : order.status.terminal with
      | true =>
        -- what is over stays over
        have after : (f order).status.terminal = true := by
          rw [status]
          by_contra live
          exact final o ⟨g, _, write, current, before, eq_false_iff.2 live⟩
        left
        rw [weight, weight, before, after]
        simp
      | false =>
        cases after : (f order).status.terminal with
        | true =>
          split
          · rename_i buys
            refine .inr ⟨o, order, get, buys.2, ⟨g, _, write, current, before, ?_⟩, ?_⟩
            · rw [← status]
              exact after
            · rw [weight, weight, before, after]
              simp
          · exact .inl (add_zero _)
        | false =>
          left
          rw [weight, weight, before, after, keeps (restated order)]
          simp
  · left
    rw [db]
    apply overBuys_congr
    intro o order row
    rw [weight, weight, more]
    split
    · rename_i isOver
      rw [if_neg, add_zero]
      rintro rfl
      rw [live _ _ _ _ _ b order rfl get row] at isOver
      cases isOver
    · rfl

end Weights

/-- The invariant of the system. -/
structure Inv (σ : Setting) (s : State) : Prop where
  linked : s.desk.Linked
  unique : (s.desk.db.symbols.map (·.ticker)).Nodup
  capped : ∀ o order, s.desk.db.orders[o]? = some order → executed s.desk.broker o ≤ order.qty
  counts : ∀ t, Counts σ s t (ended σ s.desk t)
  within : ∀ t ∈ σ.tickers, exposure σ s.desk t ≤ σ.target t
  legs : ∀ p legs, s.tasks p = .submitting legs → (legs.map (·.symbol)).Nodup ∧
    ∀ leg ∈ legs, leg.symbol ∈ σ.tickers ∧ leg.side = .buy ∧ 0 < leg.qty ∧
      exposure σ s.desk leg.symbol + leg.qty ≤ σ.target leg.symbol
  sole : ∀ p q a as b bs, s.tasks p = .submitting (a :: as) → s.tasks q = .submitting (b :: bs) → p = q
  noted : ∀ p todo holdings, s.tasks p = .holding todo holdings → ∀ t q, holdings.lookup t = some q → 0 < q
  distinct : ∀ reported ∈ s.reports, (reported.map (·.symbol)).Nodup

section Steps
variable {σ : Setting} {s : State} {t : String} {x y : ℚ}
variable {db : Db} {p i : Nat} {holdings : Holdings} {z : Sizing} {pending : String → ℚ} {leg : Leg}
   {quotes : List Quote}

lemma held_congr {db' : Db} (positions : db'.positions = db.positions) (symbols : db'.symbols = db.symbols) :
    held σ db' t = held σ db t := by
  unfold held getPositionFor symbolIdByTicker
  rw [positions, symbols]

lemma Counts.desk {d : Orders.State} (h : Counts σ s t x) (positions : d.db.positions = s.desk.db.positions)
    (symbols : d.db.symbols = s.desk.db.symbols) : Counts σ { s with desk := d } t x where
  row := by
    show x ≤ held σ d.db t
    rw [held_congr positions symbols]
    exact h.row
  recomputes c mem key := by
    refine h.recomputes c mem ?_
    have key : symbolIdByTicker d.db t = some c.1 := key
    rw [symbolIdByTicker, symbols] at key
    exact key
  reports := h.reports
  holdings := h.holdings

lemma Inv.desk (h : Inv σ s) {d : Orders.State} {l : Orders.Label} (ok : allowed s.desk l = true)
    (counted : Counted σ s (.desk l)) (st : Orders.Step s.desk l d) : Inv σ { s with desk := d } := by
  obtain ⟨ends, final, live⟩ := counted
  have old : ∀ p req outcome now, l ≠ .persist p req outcome now := by
    rintro p req outcome now rfl
    cases ok
  obtain ⟨positions, symbols⟩ := desk_tables st
  have exposed (t : String) : exposure σ d t ≤ exposure σ s.desk t := by
    rcases desk_weights (t := t) (c := (·.qty)) st old final live Restated.qty with same | ⟨o, order, get, -, -, eq⟩
    · exact same.le
    · have cap := h.capped o order get
      rw [exposure_eq, eq, exposure_eq]
      linarith
  refine ⟨h.linked.step st, ?_, ?_, ?_, ?_, ?_, h.sole, h.noted, h.distinct⟩
  · show (d.db.symbols.map (·.ticker)).Nodup
    rw [symbols]
    exact h.unique
  · intro o order row
    have row : d.db.orders[o]? = some order := row
    show executed d.broker o ≤ order.qty
    rcases desk_executed st with same | ⟨bid, id, qty, price, isPartial, b, rfl, get, db, more⟩
    · rw [same]
      rcases desk_orders st old with orders | ⟨o', f, g, -, restated, -, orders⟩
      · rw [orders] at row
        exact h.capped o order row
      · rw [orders, getElem?_amend] at row
        split at row
        · obtain ⟨before, found, rfl⟩ := Option.map_eq_some_iff.1 row
          rw [(restated before).qty]
          exact h.capped o before found
        · exact h.capped o order row
    · rw [db] at row
      rw [more]
      split
      · rename_i eq
        subst eq
        simpa [allowed, get, row] using ok
      · rw [add_zero]
        exact h.capped o order row
  · intro t
    refine Counts.desk ?_ positions symbols
    rcases desk_weights (t := t) (c := fun _ => 0) st old final live (fun _ => rfl) with
      same | ⟨o, order, get, ticker, turns, eq⟩
    · rw [ended_eq, same]
      exact h.counts t
    · rw [ended_eq, eq, sub_zero]
      exact ends o order t get ticker turns
  · intro t mem
    exact (exposed t).trans (h.within t mem)
  · intro p legs at_
    obtain ⟨nodup, each⟩ := h.legs p legs at_
    refine ⟨nodup, fun leg mem => ?_⟩
    obtain ⟨ticker, side, pos, room⟩ := each leg mem
    have le := exposed leg.symbol
    exact ⟨ticker, side, pos, by show exposure σ d _ + _ ≤ _; linarith⟩

lemma task_move {q : Nat} {task task' : Task} (at_ : (s.move p task).tasks q = task') :
    q = p ∧ task' = task ∨ q ≠ p ∧ s.tasks q = task' := by
  by_cases eq : q = p
  · subst eq
    exact .inl ⟨rfl, by rw [← at_]; exact update_self ..⟩
  · exact .inr ⟨eq, by rw [← at_]; exact (update_of_ne eq ..).symm⟩

lemma Inv.move (h : Inv σ s) {task : Task}
    (counts : ∀ todo holdings, task = .holding todo holdings → ∀ t ∈ σ.tickers, t ∉ todo →
      ended σ s.desk t ≤ (holdings.lookup t).getD 0)
    (noted : ∀ todo holdings, task = .holding todo holdings → ∀ t q, holdings.lookup t = some q → 0 < q)
    (fits : ∀ legs, task = .submitting legs → (legs.map (·.symbol)).Nodup ∧
      ∀ leg ∈ legs, leg.symbol ∈ σ.tickers ∧ leg.side = .buy ∧ 0 < leg.qty ∧
        exposure σ s.desk leg.symbol + leg.qty ≤ σ.target leg.symbol)
    (alone : ∀ leg legs, task = .submitting (leg :: legs) → ∀ q ≠ p, ∀ b bs, s.tasks q ≠ .submitting (b :: bs)) :
    Inv σ (s.move p task) := by
  refine ⟨h.linked, h.unique, h.capped, ?_, h.within, ?_, ?_, ?_, h.distinct⟩
  · intro t
    have old := h.counts t
    refine ⟨old.row, old.recomputes, old.reports, ?_⟩
    intro q todo holdings at_ mem done
    rcases task_move at_ with ⟨-, eq⟩ | ⟨-, at_⟩
    · exact counts todo holdings eq.symm t mem done
    · exact old.holdings q todo holdings at_ mem done
  · intro q legs at_
    rcases task_move at_ with ⟨-, eq⟩ | ⟨-, at_⟩
    · exact fits legs eq.symm
    · exact h.legs q legs at_
  · intro q q' a as b bs at_ at_'
    rcases task_move at_ with ⟨rfl, eq⟩ | ⟨ne, old⟩ <;> rcases task_move at_' with ⟨rfl, eq'⟩ | ⟨ne', old'⟩
    · rfl
    · exact absurd old' (alone a as eq.symm q' ne' b bs)
    · exact absurd old (alone b bs eq'.symm q ne a as)
    · exact h.sole q q' a as b bs old old'
  · intro q todo holdings at_
    rcases task_move at_ with ⟨-, eq⟩ | ⟨-, at_⟩
    · exact noted todo holdings eq.symm
    · exact h.noted q todo holdings at_

lemma Inv.hold (h : Inv σ s) {ticker : String} {todo : List String}
    (at_ : s.tasks p = .holding (ticker :: todo) holdings) :
    Inv σ (s.move p (.holding todo (Holdings.note holdings ticker (held σ s.desk.db ticker)))) := by
  refine h.move ?_ ?_ nofun nofun
  · intro todo' holdings' eq t mem done
    cases eq
    have row := (h.counts t).row
    unfold Holdings.note
    by_cases same : t = ticker
    · subst same
      split
      · rw [lookup_setEntry_self]
        exact row
      · rename_i flat
        refine (row.trans (not_lt.1 flat)).trans ?_
        cases found : holdings.lookup t with
        | none => exact le_rfl
        | some q => exact (h.noted p _ _ at_ t q found).le
    · have before := (h.counts t).holdings p _ _ at_ mem (not_mem_cons_of_ne_of_not_mem same done)
      split
      · rw [lookup_setEntry_of_ne same]
        exact before
      · exact before
  · intro todo' holdings' eq t q found
    cases eq
    unfold Holdings.note at found
    split at found
    · rename_i long
      by_cases same : t = ticker
      · subst same
        rw [lookup_setEntry_self] at found
        cases found
        exact long
      · rw [lookup_setEntry_of_ne same] at found
        exact h.noted p _ _ at_ t q found
    · exact h.noted p _ _ at_ t q found

/-! ### Netting -/

lemma leg_symbol {q : Quote} (eq : z.leg holdings pending q = some leg) : leg.symbol = q.symbol := by
  unfold Sizing.leg at eq
  split at eq
  · cases eq
  split at eq
  · cases eq
  dsimp only at eq
  split at eq
  · cases eq
  split at eq
  · cases eq
  split at eq
  · cases eq
    rfl
  split at eq
  · cases eq
    rfl
  · cases eq

lemma leg_buy {q : Quote} (eq : z.leg holdings pending q = some leg) (buy : leg.side = .buy) : 0 < leg.qty ∧
    ∃ price, q.price = some price ∧ ¬ price ≤ 0 ∧
      leg.qty = z.targetQty price - (holdings.lookup q.symbol).getD 0 - pending q.symbol := by
  unfold Sizing.leg at eq
  split at eq
  · cases eq
  rename_i price quoted
  split at eq
  · cases eq
  rename_i positive
  dsimp only at eq
  split at eq
  · cases eq
  split at eq
  · cases eq
  split at eq
  · cases eq
    cases buy
  split at eq
  · rename_i more
    cases eq
    exact ⟨more, price, quoted, positive, rfl⟩
  · cases eq

lemma mem_applyTargets (mem : leg ∈ applyTargets z holdings pending quotes) (buy : leg.side = .buy) :
    ∃ q ∈ quotes, z.leg holdings pending q = some leg := by
  unfold applyTargets at mem
  rcases mem_append.1 mem with mem | mem
  · rcases mem_append.1 mem with mem | mem
    · obtain ⟨e, -, rfl⟩ := mem_map.1 mem
      cases buy
    · exact mem_filterMap.1 (mem_of_mem_filter mem)
  · exact mem_filterMap.1 (mem_of_mem_filter mem)

lemma filterMap_leg_sublist :
    ((quotes.filterMap (z.leg holdings pending)).map (·.symbol)).Sublist (quotes.map (·.symbol)) := by
  induction quotes with
  | nil => exact List.Sublist.slnil
  | cons q quotes ih =>
    cases eq : z.leg holdings pending q with
    | none =>
      rw [filterMap_cons_none eq]
      exact ih.cons _
    | some leg =>
      rw [filterMap_cons_some eq, map_cons, map_cons, leg_symbol eq]
      exact ih.cons_cons _

lemma nodup_applyTargets (nodup : (quotes.map (·.symbol)).Nodup)
    (buys : ∀ leg ∈ applyTargets z holdings pending quotes, leg.side = .buy) :
    ((applyTargets z holdings pending quotes).map (·.symbol)).Nodup := by
  have noExits : exits holdings (quotes.map (·.symbol)) = [] := by
    rw [eq_nil_iff_forall_not_mem]
    intro leg mem
    have buy := buys leg (mem_append_left _ (mem_append_left _ mem))
    obtain ⟨e, -, rfl⟩ := mem_map.1 mem
    cases buy
  have noTrims : (quotes.filterMap (z.leg holdings pending)).filter (·.side = .sell) = [] := by
    rw [eq_nil_iff_forall_not_mem]
    intro leg mem
    have buy := buys leg (mem_append_left _ (mem_append_right _ mem))
    have sell := (mem_filter.1 mem).2
    rw [buy] at sell
    cases sell
  unfold applyTargets
  dsimp only
  rw [noExits, noTrims]
  refine List.Nodup.sublist ?_ nodup
  exact (filter_sublist.map _).trans filterMap_leg_sublist

lemma Inv.net (h : Inv σ s) (at_ : s.tasks p = .holding [] holdings) (sized : sized σ z quotes = true)
    (buys : ∀ leg ∈ applyTargets z holdings (pendingBuyQty σ s.desk.db) quotes, leg.side = .buy)
    (free : ∀ q leg legs, s.tasks q ≠ .submitting (leg :: legs)) :
    Inv σ (s.move p (.submitting (applyTargets z holdings (pendingBuyQty σ s.desk.db) quotes))) := by
  simp only [Rebalance.sized, decide_and, and_eq_true, decide_eq_true_eq, all_eq_true] at sized
  obtain ⟨nodup, each⟩ := sized
  refine h.move nofun nofun ?_ fun _ _ _ q _ b bs => free q b bs
  intro legs eq
  cases eq
  refine ⟨nodup_applyTargets nodup buys, ?_⟩
  intro leg mem
  obtain ⟨q, quoted, planned⟩ := mem_applyTargets mem (buys leg mem)
  obtain ⟨pos, price, atPrice, positive, qty⟩ := leg_buy planned (buys leg mem)
  obtain ⟨ticker, target⟩ := each q quoted
  rw [atPrice, Option.all_some, decide_eq_true_eq] at target
  have target := target.resolve_left positive
  rw [leg_symbol planned]
  refine ⟨ticker, buys leg mem, pos, ?_⟩
  -- the holdings it has read still count every executed share of the orders that are over
  have counted := (h.counts q.symbol).holdings p [] holdings at_ ticker not_mem_nil
  have exposed := ended_add_pending (σ := σ) (d := s.desk) (mem_of_mem_filter ticker)
  rw [← exposed, qty, target]
  linarith

/-! ### Submitting -/

lemma ticker_of_symbolId {ticker : String} (found : symbolIdByTicker db ticker = some i) :
    (db.symbols[i]?).map (·.ticker) = some ticker := by
  obtain ⟨lt, named, -⟩ := findIdx?_eq_some_iff_getElem.1 found
  rw [getElem?_eq_getElem lt, Option.map_some]
  exact congrArg some (by simpa using named)

lemma Inv.submit (h : Inv σ s) {q : Nat} {legs : List Leg} {outcome : RiskOutcome} {now : Instant}
    {d : Orders.State} (at_ : s.tasks p = .submitting (leg :: legs))
    (resolved : resolveSymbolId s.desk.db (σ.request leg) outcome = symbolIdByTicker s.desk.db leg.symbol)
    (st : Orders.Step s.desk (.persist q (σ.request leg) outcome now) d) :
    Inv σ ({ s with desk := d }.move p (.submitting legs)) := by
  have linked := h.linked.step st
  obtain ⟨nodup, each⟩ := h.legs p _ at_
  obtain ⟨ticker, side, pos, room⟩ := each leg mem_cons_self
  cases st with
  | @persist _ _ _ _ symbolId idle sym =>
  generalize row : initialOrder (σ.request leg) outcome symbolId now = order at linked
  rw [resolved] at sym
  have named : s.desk.db.ticker order = some leg.symbol := by
    rw [Db.ticker, ← row]
    exact ticker_of_symbolId sym
  have buys : σ.buys order = true := by
    rw [← row]
    simpa [Setting.buys, initialOrder, Setting.request] using side
  have live : order.status.terminal = false := by rw [← row]; rfl
  have qty : order.qty = leg.qty := by rw [← row]; rfl
  have sum (c : Order → ℚ) (t : String) : overBuys σ (insertOrder s.desk.db order) t (weight s.desk c) =
      overBuys σ s.desk.db t (weight s.desk c) + if leg.symbol = t then c order else 0 := by
    have inserted := @overBuys_insert σ s.desk.db (insertOrder s.desk.db order) t (weight s.desk c) order rfl rfl
    rw [inserted, named, weight, live]
    simp [buys]
  have exposed (t : String) : exposure σ ((s.desk.setDb (insertOrder s.desk.db order)).move q
      (.persisted s.desk.db.orders.length outcome.reservationId outcome.passed)) t =
      exposure σ s.desk t + if leg.symbol = t then leg.qty else 0 := by
    rw [exposure_eq, exposure_eq, ← qty]
    exact sum (·.qty) t
  have started : Inv σ { s with
      desk := (s.desk.setDb (insertOrder s.desk.db order)).move q
        (.persisted s.desk.db.orders.length outcome.reservationId outcome.passed)
      tasks := Function.update s.tasks p (.submitting legs) } := by
    refine ⟨linked, h.unique, ?_, ?_, ?_, ?_, ?_, ?_, h.distinct⟩
    · intro o order' get
      have get : (s.desk.db.orders ++ [order])[o]? = some order' := get
      show executed s.desk.broker o ≤ order'.qty
      rcases Nat.lt_trichotomy o s.desk.db.orders.length with lt | rfl | gt
      · rw [getElem?_append_left lt] at get
        exact h.capped o order' get
      · rw [getElem?_concat_length] at get
        cases get
        rw [executed_of_unknown h.linked brokerIds_length, qty]
        exact pos.le
      · rw [getElem?_eq_none (by simp; omega)] at get
        cases get
    · intro t
      have same : ended σ ((s.desk.setDb (insertOrder s.desk.db order)).move q
          (.persisted s.desk.db.orders.length outcome.reservationId outcome.passed)) t = ended σ s.desk t := by
        rw [ended_eq, ended_eq]
        exact (sum (fun _ => 0) t).trans (by rw [ite_self, add_zero])
      have old := h.counts t
      rw [same]
      refine ⟨old.row, old.recomputes, old.reports, ?_⟩
      intro p' todo holdings at_'
      rcases task_move (s := s) at_' with ⟨-, eq⟩ | ⟨-, before⟩
      · cases eq
      · exact old.holdings p' todo holdings before
    · intro t mem
      rw [exposed]
      split
      · rename_i eq
        rw [← eq]
        exact room
      · rw [add_zero]
        exact h.within t mem
    · intro p' legs' at_'
      rcases task_move (s := s) at_' with ⟨rfl, eq⟩ | ⟨ne, before⟩
      · cases eq
        rw [map_cons, nodup_cons] at nodup
        refine ⟨nodup.2, fun leg' mem => ?_⟩
        have ne : leg.symbol ≠ leg'.symbol := by
          intro eq
          apply nodup.1
          rw [eq]
          exact mem_map_of_mem mem
        rw [exposed, if_neg ne, add_zero]
        exact each leg' (mem_cons_of_mem _ mem)
      · cases legs' with
        | nil => exact ⟨nodup_nil, nofun⟩
        | cons leg' legs' => exact absurd (h.sole p' p _ _ _ _ before at_) ne
    · intro p' q' a as b bs at_' at_''
      rcases task_move (s := s) at_' with ⟨rfl, eq⟩ | ⟨ne, before⟩ <;>
        rcases task_move (s := s) at_'' with ⟨rfl, eq'⟩ | ⟨ne', before'⟩
      · rfl
      · exact absurd (h.sole q' p' _ _ _ _ before' at_) ne'
      · exact absurd (h.sole p' q' _ _ _ _ before at_) ne
      · exact h.sole p' q' _ _ _ _ before before'
    · intro p' todo holdings at_'
      rcases task_move (s := s) at_' with ⟨-, eq⟩ | ⟨-, before⟩
      · cases eq
      · exact h.noted p' todo holdings before
  subst row
  exact started

/-! ### Recomputing -/

lemma cost_qty {rows : List (Fill × OrderSide)} {cost : Cost} :
    (rows.foldl (fun cost r => cost.add r.2 r.1.qty r.1.price) cost).qty =
      cost.qty + Table.total (fun x : Fill × OrderSide => if x.2 = .buy then x.1.qty else -x.1.qty) rows := by
  induction rows generalizing cost with
  | nil => rw [foldl_nil, total_nil, add_zero]
  | cons r rows ih =>
    have one : (cost.add r.2 r.1.qty r.1.price).qty = cost.qty + if r.2 = .buy then r.1.qty else -r.1.qty := by
      simp only [Cost.add]
      split_ifs <;> rfl
    rw [foldl_cons, ih, one, total_cons, add_assoc]

lemma symbolCost_qty : (symbolCost db σ.accountId i).qty = bookedQty σ db i := by
  unfold symbolCost bookedQty
  rw [cost_qty]
  exact zero_add _

lemma held_writeCost {cost : Cost} : held σ (writeCost db σ.accountId i cost) t =
    if symbolIdByTicker db t = some i then max cost.qty 0 else held σ db t := by
  have row (j : Nat) : ((writeCost db σ.accountId i cost).positions.get (σ.accountId, j)).map (·.qty) =
      if j = i then (if cost.qty = 0 then none else some cost.qty)
      else (db.positions.get (σ.accountId, j)).map (·.qty) := by
    unfold writeCost
    dsimp only
    by_cases flat : cost.qty = 0
    · rw [if_pos flat, if_pos flat, get_erase]
      by_cases eq : j = i
      · simp [eq]
      · simp [eq]
    · rw [if_neg flat, if_neg flat, get_set]
      by_cases eq : j = i
      · simp [eq]
      · simp [eq]
  unfold held getPositionFor
  have ids : symbolIdByTicker (writeCost db σ.accountId i cost) t = symbolIdByTicker db t := rfl
  rw [ids]
  cases found : symbolIdByTicker db t with
  | none => simp
  | some j =>
    rw [Option.bind_some, Option.bind_some, row]
    by_cases eq : j = i
    · subst eq
      by_cases flat : cost.qty = 0
      · simp [flat]
      · simp [flat]
    · simp [eq]

lemma Inv.recomputeWrite (h : Inv σ s) {j : Nat} {cost : Cost} (get : s.recomputes[j]? = some (i, cost)) :
    Inv σ { s.setDb (writeCost s.desk.db σ.accountId i cost) with recomputes := s.recomputes.eraseIdx j } := by
  have linked : (s.desk.setDb (writeCost s.desk.db σ.accountId i cost)).Linked := ⟨h.linked.links, h.linked.book⟩
  refine ⟨linked, h.unique, h.capped, ?_, h.within, h.legs, h.sole, h.noted, h.distinct⟩
  intro t
  have old := h.counts t
  refine ⟨?_, fun x mem => old.recomputes x (mem_of_mem_eraseIdx mem), old.reports, old.holdings⟩
  show ended σ s.desk t ≤ held σ (writeCost s.desk.db σ.accountId i cost) t
  rw [held_writeCost]
  split
  · rename_i found
    exact old.recomputes (i, cost) (mem_of_getElem? get) found
  · exact old.row

/-! ### Syncing -/

lemma executed_nonneg (linked : s.desk.Linked) (o : Nat) : 0 ≤ executed s.desk.broker o := by
  apply total_nonneg
  intro b mem
  obtain ⟨bid, get⟩ := mem_values.1 mem
  split
  · exact total_nonneg fun e me => (linked.book.pos get me).1.le
  · exact le_rfl

lemma ended_le_bought (linked : s.desk.Linked) : ended σ s.desk t ≤ bought σ s.desk t := by
  apply overBuys_le
  intro o order _ _
  split
  · exact le_rfl
  · exact executed_nonneg linked o

lemma bought_of_unlisted (none : ∀ x ∈ s.desk.db.symbols, x.ticker ≠ t) : bought σ s.desk t = 0 := by
  have zero : bought σ s.desk t = Table.total (fun _ : Order × Nat => 0) s.desk.db.orders.zipIdx := by
    apply total_congr
    intro x _
    rw [if_neg]
    rintro ⟨-, named⟩
    obtain ⟨symbol, get, eq⟩ := Option.map_eq_some_iff.1 named
    exact none symbol (mem_of_getElem? get) eq
  rw [zero]
  simp [Table.total]

lemma ended_le_report (linked : s.desk.Linked) : ended σ s.desk t ≤ reportedQty (report σ s.desk) t := by
  have le := ended_le_bought (σ := σ) (t := t) linked
  by_cases zero : bought σ s.desk t = 0
  · rw [zero] at le
    exact le.trans (le_max_right _ _)
  · have listed : ∃ x ∈ s.desk.db.symbols, x.ticker = t := by
      by_contra unlisted
      exact zero (bought_of_unlisted fun x mem eq => unlisted ⟨x, mem, eq⟩)
    obtain ⟨x, mem, rfl⟩ := listed
    cases found : (report σ s.desk).find? (·.symbol = x.ticker) with
    | none =>
      have absent := find?_eq_none.1 found
        { symbol := x.ticker, qty := bought σ s.desk x.ticker }
        (mem_map.2 ⟨x, mem_filter.2 ⟨mem, by simpa using zero⟩, rfl⟩)
      simp at absent
    | some r =>
      have symbol : r.symbol = x.ticker := by simpa using find?_some found
      obtain ⟨y, -, rfl⟩ := mem_map.1 (mem_of_find?_eq_some found)
      have symbol : y.ticker = x.ticker := symbol
      rw [reportedQty, found, Option.map_some, Option.getD_some]
      dsimp only
      rw [symbol]
      exact le.trans (le_max_left _ _)

lemma Inv.syncRead (h : Inv σ s) : Inv σ { s with reports := s.reports ++ [report σ s.desk] } := by
  refine ⟨h.linked, h.unique, h.capped, ?_, h.within, h.legs, h.sole, h.noted, ?_⟩
  · intro t
    have old := h.counts t
    refine ⟨old.row, old.recomputes, ?_, old.holdings⟩
    intro reported mem
    rcases mem_append.1 mem with mem | mem
    · exact old.reports reported mem
    · rw [mem_singleton.1 mem]
      exact ended_le_report h.linked
  · intro reported mem
    rcases mem_append.1 mem with mem | mem
    · exact h.distinct reported mem
    · rw [mem_singleton.1 mem]
      unfold report
      rw [map_map]
      exact List.Nodup.sublist (filter_sublist.map _) h.unique

lemma held_sync {reported : List ReportedPosition}
    (distinct : (reported.map (·.symbol)).Nodup) (found : symbolIdByTicker db t = some i) :
    held σ (syncAccount db σ.accountId reported) t = reportedQty reported t := by
  have byTicker {p : ReportedPosition} (eq : symbolIdByTicker db p.symbol = some i) : p.symbol = t := by
    have named := ticker_of_symbolId eq
    rw [ticker_of_symbolId found] at named
    exact (Option.some.inj named).symm
  unfold held getPositionFor reportedQty
  have ids : symbolIdByTicker (syncAccount db σ.accountId reported) t = symbolIdByTicker db t := rfl
  rw [ids, found, Option.bind_some]
  unfold syncAccount
  dsimp only
  generalize listed : reported.filterMap (fun p => (symbolIdByTicker db p.symbol).map (·, p)) = resolved
  have mem_resolved {x : Nat × ReportedPosition} :
      x ∈ resolved ↔ x.2 ∈ reported ∧ symbolIdByTicker db x.2.symbol = some x.1 := by
    rw [← listed, mem_filterMap]
    constructor
    · rintro ⟨p, mem, eq⟩
      obtain ⟨j, id, rfl⟩ := Option.map_eq_some_iff.1 eq
      exact ⟨mem, id⟩
    · rintro ⟨mem, id⟩
      exact ⟨x.2, mem, by rw [id]; rfl⟩
  have keys : (resolved.map fun x => (σ.accountId, x.1)).Nodup := by
    have ids : resolved.map Prod.fst = (reported.map (·.symbol)).filterMap (symbolIdByTicker db) := by
      rw [← listed, map_filterMap, filterMap_map]
      apply filterMap_congr
      intro p _
      show ((symbolIdByTicker db p.symbol).map (·, p)).map Prod.fst = symbolIdByTicker db p.symbol
      rw [Option.map_map]
      exact Option.map_id_apply
    have nodup : (resolved.map Prod.fst).Nodup := by
      rw [ids]
      refine distinct.filterMap ?_
      intro a b j ha hb
      have named := ticker_of_symbolId ha
      rw [ticker_of_symbolId hb] at named
      exact (Option.some.inj named).symm
    have mapped := nodup.map fun (j k : Nat) (eq : (σ.accountId, j) = (σ.accountId, k)) => (Prod.mk.inj eq).2
    rw [map_map] at mapped
    exact mapped
  rw [get_mapMaybe, get_foldl_set keys]
  cases search : reported.find? (·.symbol = t) with
  | none =>
    have unseen : i ∉ resolved.map Prod.fst := by
      intro mem
      obtain ⟨x, listed, rfl⟩ := mem_map.1 mem
      obtain ⟨reports, id⟩ := mem_resolved.1 listed
      simpa using find?_eq_none.1 search x.2 reports (by simpa using byTicker id)
    rw [Option.bind_congr (g := fun _ => Option.none) fun row _ => if_pos ⟨rfl, unseen⟩]
    simp
  | some p =>
    have symbol : p.symbol = t := by simpa using find?_some search
    have mem : (i, p) ∈ resolved := mem_resolved.2 ⟨mem_of_find?_eq_some search, by rw [symbol, found]⟩
    have seen : i ∈ resolved.map Prod.fst := mem_map.2 ⟨_, mem, rfl⟩
    have hit : resolved.find? (fun x => (σ.accountId, x.1) = (σ.accountId, i)) = some (i, p) := by
      cases look : resolved.find? (fun x => (σ.accountId, x.1) = (σ.accountId, i)) with
      | none =>
        have := find?_eq_none.1 look _ mem
        simp at this
      | some x =>
        have id : x.1 = i := by simpa using find?_some look
        obtain ⟨reports, same⟩ := mem_resolved.1 (mem_of_find?_eq_some look)
        rw [id] at same
        have twin : x.2 = p := inj_on_of_nodup_map distinct reports (mem_of_find?_eq_some search)
          ((byTicker same).trans symbol.symm)
        rw [← id, ← twin]
    rw [hit, Option.map_some, Option.some_or, Option.bind_some, if_neg fun stale => stale.2 seen]
    rfl

lemma Inv.syncWrite (h : Inv σ s) {j : Nat} {reported : List ReportedPosition} (get : s.reports[j]? = some reported) :
    Inv σ { s.setDb (syncAccount s.desk.db σ.accountId reported) with reports := s.reports.eraseIdx j } := by
  have linked : (s.desk.setDb (syncAccount s.desk.db σ.accountId reported)).Linked :=
    ⟨h.linked.links, h.linked.book⟩
  refine ⟨linked, h.unique, h.capped, ?_, h.within, h.legs, h.sole, h.noted,
    fun r mem => h.distinct r (mem_of_mem_eraseIdx mem)⟩
  intro t
  have old := h.counts t
  refine ⟨?_, old.recomputes, fun r mem => old.reports r (mem_of_mem_eraseIdx mem), old.holdings⟩
  show ended σ s.desk t ≤ held σ (syncAccount s.desk.db σ.accountId reported) t
  have mem := mem_of_getElem? get
  cases found : symbolIdByTicker s.desk.db t with
  | none =>
    have row := old.row
    unfold held getPositionFor at row ⊢
    have ids : symbolIdByTicker (syncAccount s.desk.db σ.accountId reported) t = symbolIdByTicker s.desk.db t := rfl
    rw [ids, found]
    rw [found] at row
    exact row
  | some i =>
    rw [held_sync (h.distinct reported mem) found]
    exact old.reports reported mem

/-! ### One step -/

lemma Inv.step {l : Label} {s' : State} (h : Inv σ s) (counted : Counted σ s l)
    (st : (system σ).step s l = some s') : Inv σ s' := by
  have st : Rebalance.step σ s l = some s' := st
  cases l with
  | desk l =>
    simp only [Rebalance.step] at st
    split at st
    · rename_i ok
      obtain ⟨d, moved, rfl⟩ := Option.map_eq_some_iff.1 st
      exact h.desk ok counted (Orders.Step.of_step moved)
    · cases st
  | recomputeRead i =>
    cases st
    refine ⟨h.linked, h.unique, h.capped, ?_, h.within, h.legs, h.sole, h.noted, h.distinct⟩
    intro t
    have old := h.counts t
    refine ⟨old.row, ?_, old.reports, old.holdings⟩
    intro x mem found
    rcases mem_append.1 mem with mem | mem
    · exact old.recomputes x mem found
    · rw [mem_singleton.1 mem] at found ⊢
      dsimp only
      rw [symbolCost_qty]
      exact (counted t found).trans (le_max_left _ _)
  | recomputeWrite j =>
    simp only [Rebalance.step] at st
    split at st
    · rename_i i cost get
      cases st
      exact h.recomputeWrite get
    · cases st
  | syncRead =>
    cases st
    exact h.syncRead
  | syncWrite j =>
    simp only [Rebalance.step] at st
    split at st
    · rename_i reported get
      cases st
      exact h.syncWrite get
    · cases st
  | start p =>
    simp only [Rebalance.step] at st
    split at st
    · cases st
      refine h.move ?_ ?_ nofun nofun
      · intro todo holdings eq t mem done
        cases eq
        exact absurd mem done
      · intro todo holdings eq t q found
        cases eq
        cases found
    · cases st
  | hold p =>
    simp only [Rebalance.step] at st
    split at st
    · rename_i ticker todo holdings at_
      cases st
      exact h.hold at_
    · cases st
  | net p z quotes =>
    simp only [Rebalance.step] at st
    split at st
    · rename_i holdings at_
      split at st
      · rename_i ok
        cases st
        exact h.net at_ ok.1 (fun leg mem => by simpa using all_eq_true.1 ok.2 leg mem) counted
      · cases st
    · cases st
  | submit p q outcome now =>
    simp only [Rebalance.step] at st
    split at st
    · rename_i leg legs at_
      split at st
      · rename_i resolved
        obtain ⟨d, moved, rfl⟩ := Option.map_eq_some_iff.1 st
        exact h.submit at_ resolved (Orders.Step.of_step moved)
      · cases st
    · cases st
  | skip p =>
    simp only [Rebalance.step] at st
    split at st
    · rename_i leg legs at_
      cases st
      obtain ⟨nodup, each⟩ := h.legs p _ at_
      refine h.move nofun nofun ?_ ?_
      · intro legs' eq
        cases eq
        rw [map_cons, nodup_cons] at nodup
        exact ⟨nodup.2, fun leg' mem => each leg' (mem_cons_of_mem _ mem)⟩
      · intro _ _ _ q ne b bs at_'
        exact ne (h.sole q p _ _ _ _ at_' at_)
    · cases st
  | finish p =>
    simp only [Rebalance.step] at st
    split at st
    · cases st
      exact h.move nofun nofun nofun nofun
    · cases st

lemma Inv.of_fresh (fresh : Fresh σ s) : Inv σ s := by
  have orders := fresh.desk.orders
  have none {t : String} {w : Order → Nat → ℚ} : overBuys σ s.desk.db t w = 0 := by
    rw [overBuys, orders]
    rfl
  refine ⟨State.Linked.of_fresh fresh.desk, fresh.unique, ?_, ?_, ?_, ?_, ?_, ?_, ?_⟩
  · intro o order get
    rw [orders] at get
    cases get
  · intro t
    have zero : ended σ s.desk t = 0 := none
    rw [zero]
    refine ⟨le_max_right _ _, ?_, ?_, ?_⟩
    · rw [fresh.recomputes]
      exact nofun
    · rw [fresh.reports]
      exact nofun
    · intro p todo holdings at_
      rw [fresh.tasks] at at_
      cases at_
  · intro t mem
    have zero : exposure σ s.desk t = 0 := none
    rw [zero]
    exact fresh.target t mem
  · intro p legs at_
    rw [fresh.tasks] at at_
    cases at_
  · intro p q a as b bs at_
    rw [fresh.tasks] at at_
    cases at_
  · intro p todo holdings at_
    rw [fresh.tasks] at at_
    cases at_
  · rw [fresh.reports]
    exact nofun

end Steps

/-- In every run whose steps count the executed shares of what is over, every bought share is visible, and what
    was filled and what is in flight stays within the target. -/
theorem bought_shares_visible {σ : Setting} {s s' : State} {labels : List Label} (fresh : Fresh σ s)
    (counted : (system σ).Meets (Counted σ) s labels) (run : (system σ).run s labels = some s') :
    Visible σ s' ∧ Within σ s' := by
  have start : Inv σ s := Inv.of_fresh fresh
  have inv : Inv σ s' := Machine.run_invariant Inv.step start counted run
  constructor
  · intro t mem
    have row := (inv.counts t).row
    rw [committedQty, seenQty, bought_add_remainder, ← ended_add_pending mem]
    linarith
  · intro t mem
    rw [committedQty, bought_add_remainder]
    exact inv.within t mem

/-! ## Runs with one rebalance -/

section Solo
variable {σ : Setting} {s s' : State} {l : Label} {t : String} {x : ℚ}

def Solo (s : State) : Prop := ∀ p ≠ 0, s.tasks p = .idle

def Label.rebalance : Label → Option Nat
  | .start p | .hold p | .net p _ _ | .submit p _ _ _ | .skip p | .finish p => some p
  | _ => none

/-- `Counts`, computed. -/
def soloCounts (σ : Setting) (s : State) (t : String) (x : ℚ) : Bool :=
  x ≤ held σ s.desk.db t &&
  (s.recomputes.all fun c => symbolIdByTicker s.desk.db t ≠ some c.1 || x ≤ max c.2.qty 0) &&
  (s.reports.all fun reported => x ≤ reportedQty reported t) &&
  match s.tasks 0 with
  | .holding todo holdings => t ∈ todo || x ≤ (holdings.lookup t).getD 0
  | _ => true

/-- `Counted`, computed. -/
def soloCounted (σ : Setting) (s : State) (l : Label) : Bool :=
  (l.rebalance.all (· = 0)) &&
  match l with
  | .desk l =>
    (match statusWrite s.desk l with
    | none => true
    | some (o, g) => (s.desk.db.orders[o]?).all fun order =>
      if order.status.terminal then (g order.status).terminal
      else !(g order.status).terminal || (s.desk.db.ticker order).all fun t =>
        soloCounts σ s t (ended σ s.desk t + executed s.desk.broker o)) &&
    match l with
    | .execute bid _ _ _ _ =>
      (s.desk.broker.get bid).all fun b => (s.desk.db.orders[b.order]?).all fun order => !order.status.terminal
    | _ => true
  | .recomputeRead i =>
    (s.desk.db.symbols[i]?).all fun symbol => ended σ s.desk symbol.ticker ≤ bookedQty σ s.desk.db i
  | .net _ _ _ => match s.tasks 0 with
    | .submitting (_ :: _) => false
    | _ => true
  | _ => true

lemma Solo.counts (solo : Solo s) (h : soloCounts σ s t x = true) : Counts σ s t x := by
  simp only [soloCounts, and_eq_true, decide_eq_true_eq, all_eq_true, or_eq_true] at h
  obtain ⟨⟨⟨row, recomputes⟩, reports⟩, holding⟩ := h
  refine ⟨row, ?_, reports, ?_⟩
  · intro c mem found
    exact (recomputes c mem).resolve_left fun ne => ne found
  · intro p todo holdings at_ _ done
    by_cases eq : p = 0
    · subst eq
      rw [at_] at holding
      simpa [done] using holding
    · rw [solo p eq] at at_
      cases at_

lemma Solo.step (solo : Solo s) (h : soloCounted σ s l = true) (st : (system σ).step s l = some s') : Solo s' := by
  have own : ∀ p, l.rebalance = some p → p = 0 := by
    intro p eq
    simp only [soloCounted, and_eq_true] at h
    simpa [eq] using h.1
  have kept {s : State} {task : Task} (solo : Solo s) : Solo (s.move 0 task) :=
    fun q ne => (update_of_ne ne ..).trans (solo q ne)
  have st : Rebalance.step σ s l = some s' := st
  cases l with
  | desk l =>
    simp only [Rebalance.step] at st
    split at st
    · obtain ⟨d, -, rfl⟩ := Option.map_eq_some_iff.1 st
      exact solo
    · cases st
  | recomputeRead | syncRead =>
    cases st
    exact solo
  | recomputeWrite | syncWrite =>
    simp only [Rebalance.step] at st
    split at st <;> cases st
    exact solo
  | start p | hold p | skip p | finish p =>
    cases own p rfl
    simp only [Rebalance.step] at st
    split at st <;> cases st
    exact kept solo
  | net p z quotes =>
    cases own p rfl
    simp only [Rebalance.step] at st
    split at st
    · split at st <;> cases st
      exact kept solo
    · cases st
  | submit p q outcome now =>
    cases own p rfl
    simp only [Rebalance.step] at st
    split at st
    · split at st
      · obtain ⟨d, -, rfl⟩ := Option.map_eq_some_iff.1 st
        exact kept (s := { s with desk := d }) solo
      · cases st
    · cases st

lemma Solo.counted (solo : Solo s) (h : soloCounted σ s l = true) : Counted σ s l := by
  simp only [soloCounted, and_eq_true] at h
  have h := h.2
  cases l with
  | desk l =>
    simp only [and_eq_true] at h
    obtain ⟨writes, live⟩ := h
    refine ⟨?_, ?_, ?_⟩
    · rintro o order t get ticker ⟨g, current, write, status, before, after⟩
      rw [statusOf, get] at status
      cases status
      rw [write] at writes
      simp only [get, Option.all_some, before, after, ticker] at writes
      exact solo.counts (by simpa using writes)
    · rintro o ⟨g, current, write, status, before, after⟩
      obtain ⟨order, get, rfl⟩ := Option.map_eq_some_iff.1 status
      rw [write] at writes
      simp [get, before, after] at writes
    · rintro bid id qty price isPartial b order rfl get row
      simpa [get, row] using live
  | recomputeRead i =>
    intro t found
    obtain ⟨symbol, get, rfl⟩ := Option.map_eq_some_iff.1 (ticker_of_symbolId found)
    simpa [get] using h
  | net p z quotes =>
    intro q leg legs at_
    by_cases eq : q = 0
    · subst eq
      rw [at_] at h
      cases h
    · rw [solo q eq] at at_
      cases at_
  | _ => trivial

end Solo

def tenShares : Setting where
  accountId := 1
  symbols := ["AAPL", "SPY"]
  target := fun _ => 10

def newBook : State := { desk := newDesk }

lemma fresh_newBook : Fresh tenShares newBook := by
  refine ⟨fresh_newDesk, rfl, rfl, fun _ => rfl, ?_, fun _ _ => ?_⟩
  · decide
  · show (0 : ℚ) ≤ 10
    norm_num

/-- Rebalance 0 reads its holdings, nets them, and submits what it has planned through task `q`. -/
def rebalance (q : Nat) : List Label :=
  [.start 0, .hold 0, .net 0 ⟨1000, 3 / 100, true⟩ [⟨"AAPL", some 100⟩], .submit 0 q (passWith none) 0, .finish 0]

def executedAtBroker : List Label :=
  [.desk (.link 0), .desk (.verdict 0 0), .desk (.accept 0 "B1"), .desk (.submitted 0 0),
    .desk (.execute "B1" "E1" 10 100 false)]

def filled : List Label := [.desk (.deliverFill 1 "B1" "E1"), .desk (.load 1), .desk (.write 1 0)]

/-- The sync has brought the position in before the fill is committed: the shares are visible throughout. -/
theorem synced_fill_visible : ∃ s, (system tenShares).run newBook
      (rebalance 0 ++ executedAtBroker ++ [.syncRead, .syncWrite 0] ++ filled ++
        [.recomputeRead 0, .recomputeWrite 0]) =
        some s ∧ Visible tenShares s ∧ Within tenShares s ∧ held tenShares s.desk.db "AAPL" = 10 := by
  obtain ⟨s, run⟩ := Option.isSome_iff_exists.1 (show ((system tenShares).run newBook
    (rebalance 0 ++ executedAtBroker ++ [.syncRead, .syncWrite 0] ++ filled ++
      [.recomputeRead 0, .recomputeWrite 0])).isSome = true by decide +kernel)
  have solo : Solo newBook := fun _ _ => rfl
  have counted : (system tenShares).Meets (Counted tenShares) newBook
      (rebalance 0 ++ executedAtBroker ++ [.syncRead, .syncWrite 0] ++ filled ++
        [.recomputeRead 0, .recomputeWrite 0]) :=
    Machine.Meets.of_invariant (D := fun s l => soloCounted tenShares s l = true) Solo.step Solo.counted solo
      (by decide +kernel)
  obtain ⟨visible, within⟩ := bought_shares_visible fresh_newBook counted run
  have ten := Machine.observe (f := fun s => held tenShares s.desk.db "AAPL") (x := 10) run (by decide +kernel)
  exact ⟨s, run, visible, within, ten⟩

/-- Between the commit of the fill and the recompute neither table counts the shares, and a rebalance at that
    moment buys them again. -/
theorem filled_basket_bought_twice : ∃ s s', (system tenShares).run newBook
      (rebalance 0 ++ executedAtBroker ++ filled) = some s ∧ ¬ Visible tenShares s ∧
    (system tenShares).run s (rebalance 2) = some s' ∧ ¬ Within tenShares s' := by
  obtain ⟨s, run⟩ := Option.isSome_iff_exists.1 (show ((system tenShares).run newBook
    (rebalance 0 ++ executedAtBroker ++ filled)).isSome = true by decide +kernel)
  obtain ⟨s', run'⟩ := Option.isSome_iff_exists.1 (show ((system tenShares).run newBook
    (rebalance 0 ++ executedAtBroker ++ filled ++ rebalance 2)).isSome = true by decide +kernel)
  obtain ⟨u, eq, again⟩ := Machine.run_append.1 run'
  rw [run] at eq
  cases eq
  refine ⟨s, s', run, ?_, again, ?_⟩
  · intro visible
    have seen := visible "AAPL" (by decide)
    have unseen := Machine.observe (f := fun s => seenQty tenShares s "AAPL") (x := 0) run (by decide +kernel)
    have ten := Machine.observe (f := fun s => committedQty tenShares s "AAPL") (x := 10) run (by decide +kernel)
    rw [unseen, ten] at seen
    norm_num at seen
  · intro within
    have inside : committedQty tenShares s' "AAPL" ≤ 10 := within "AAPL" (by decide)
    have doubled := Machine.observe (f := fun s => committedQty tenShares s "AAPL") (x := 20) run' (by decide +kernel)
    rw [doubled] at inside
    norm_num at inside

end Workbench.Rebalance
