import Workbench.Orders.SubmitRace

/-!
# Booking every execution once

Two writers book the fills of an order: the stream, one row an execution under its id, and the REST
settlement, one row for all that was missing up to the reported quantity, under a synthetic id. Each
checks for its own id only. A stream delivery after a settlement that already contained it books it
again (`late_delivery_double_books`), and so does a settlement whose increment was computed before a
stream row was inserted.

`covered` says that an execution is in the books, by its own row or by a settlement beyond it.
`ClearWrite` is the condition the writes miss: a stream row is inserted only for an uncovered execution,
and a settlement row only when the increment still closes the gap to its report. In every run that
meets it the booked quantity is the sum of the covered executions (`Balanced`).
-/

namespace Workbench.Orders
open Workbench.Lib Workbench.Risk List Dict Table
variable {s t : State}

/-! ## Coverage -/

/-- The fill id accounts for execution `e` of broker order `bid`. -/
def covers (bid : String) (e : Execution) : FillId → Bool
  | .execution id => id = e.id
  | .settle bid' c => bid' = bid ∧ e.cumQty ≤ c

def covered (db : Db) (bid : String) (e : Execution) : Bool :=
  db.fills.any fun f => f.brokerFillId.any (covers bid e)

def coveredQty (db : Db) (bid : String) (b : BrokerOrder) : ℚ :=
  Table.total (fun e => if covered db bid e then e.qty else 0) b.executions

section Coverage

variable {db db' : Db} {bid : String} {b : BrokerOrder} {e : Execution} {f : Fill}

lemma covered_iff : covered db bid e = true ↔
    ∃ f ∈ db.fills, ∃ id, f.brokerFillId = some id ∧ covers bid e id = true := by
  simp only [covered, any_eq_true, Option.any_eq_true]

lemma covered_of_fills (eq : db'.fills = db.fills) : covered db' bid e = covered db bid e := by
  rw [covered, covered, eq]

lemma covered_insert (eq : db'.fills = db.fills ++ [f]) :
    covered db' bid e = (covered db bid e || f.brokerFillId.any (covers bid e)) := by
  rw [covered, eq, any_append, covered]
  simp

lemma filledQty_newFill {o o' : Nat} {event : FillEvent} {now : Instant}
    (eq : db'.fills = db.fills ++ [newFill o event now]) :
    db'.filledQty o' = db.filledQty o' + if o = o' then event.qty else 0 := by
  rw [Db.filledQty, eq, total_insert, Db.filledQty]
  rfl

end Coverage

/-! ## The condition on a booking write -/

/-- The broker id of an order row, when it has one. -/
def rowBrokerId (db : Db) (o : Nat) : Option String := (brokerIds db o).join

/-- The execution with this id is not in the books yet. -/
def ClearStream (s : State) (o : Nat) (id : String) : Prop :=
  ∀ bid ∈ rowBrokerId s.db o, ∀ b ∈ s.broker.get bid, ∀ e ∈ b.executions, e.id = id →
    covered s.db bid e = false

/-- The increment still closes the gap to the report, and the stream is not ahead of the report. -/
def ClearSettle (s : State) (o : Nat) (bid : String) (c qty : ℚ) : Prop :=
  s.db.filledQty o + qty = c ∧ ∀ b ∈ s.broker.get bid, ∀ e ∈ b.executions,
    alreadyBooked s.db (some (.execution e.id)) = true → e.cumQty ≤ c

/-- A fill row is inserted for what is not in the books. -/
def ClearFill (s : State) (o : Nat) (event : FillEvent) : Prop :=
  match event.executionId with
  | some (.execution id) => ClearStream s o id
  | some (.settle bid c) => ClearSettle s o bid c event.qty
  | none => True

def Task.fill : Task → Option (Nat × FillEvent)
  | .writing (.fill o _ event) _ => some (o, event)
  | _ => none

/-- A consumer commits a fill only for what is not in the books. -/
def ClearWrite (s : State) : Label → Prop
  | .write p _ => ∀ x ∈ (s.tasks p).fill, ClearFill s x.1 x.2
  | _ => True

/-- Orders are found and fills are booked for what is missing. -/
def BooksOnce (s : State) (l : Label) : Prop := Findable s l ∧ ClearWrite s l

instance (s : State) (o : Nat) (id : String) : Decidable (ClearStream s o id) :=
  inferInstanceAs (Decidable (∀ bid ∈ rowBrokerId s.db o, ∀ b ∈ s.broker.get bid,
    ∀ e ∈ b.executions, e.id = id → covered s.db bid e = false))

instance (s : State) (o : Nat) (bid : String) (c qty : ℚ) : Decidable (ClearSettle s o bid c qty) :=
  inferInstanceAs (Decidable (s.db.filledQty o + qty = c ∧ ∀ b ∈ s.broker.get bid,
    ∀ e ∈ b.executions, alreadyBooked s.db (some (.execution e.id)) = true → e.cumQty ≤ c))

instance (s : State) (o : Nat) (event : FillEvent) : Decidable (ClearFill s o event) :=
  match h : event.executionId with
  | some (.execution id) => decidable_of_iff (ClearStream s o id) (by rw [ClearFill, h])
  | some (.settle bid c) => decidable_of_iff (ClearSettle s o bid c event.qty) (by rw [ClearFill, h])
  | none => decidable_of_iff True (by rw [ClearFill, h])

instance (s : State) : (l : Label) → Decidable (ClearWrite s l)
  | .write p _ => inferInstanceAs (Decidable (∀ x ∈ (s.tasks p).fill, ClearFill s x.1 x.2))
  | .reserve _ | .execute .. | .endOrder .. | .persist .. | .link _ | .verdict .. | .accept ..
  | .refuse _ | .submitted .. | .rejected .. | .transient _ | .cancelRead .. | .cancelWrite ..
  | .deliverFill .. | .deliverEnd .. | .report .. | .resolve .. | .load _ | .settleRead _
  | .settleWrite _ => isTrue trivial

instance (s : State) (l : Label) : Decidable (BooksOnce s l) :=
  inferInstanceAs (Decidable (Findable s l ∧ ClearWrite s l))

/-! ## One step -/

/-- The booked quantity of an order is that of its covered executions. -/
structure Balanced (s : State) : Prop where
  booked : ∀ {bid b}, s.broker.get bid = some b → s.db.filledQty b.order = coveredQty s.db bid b
  absent : ∀ {o}, (∀ bid b, s.broker.get bid = some b → b.order ≠ o) → s.db.filledQty o = 0

section Writes

variable {s t : State} {o : Nat} {event : FillEvent} {now : Instant} {bid : String} {b : BrokerOrder}

lemma covers_other {bid' : String} {b' : BrokerOrder} (book : Book s.broker)
    (get : s.broker.get bid = some b) (get' : s.broker.get bid' = some b')
    (origin : FillOrigin b bid event) (ne : bid' ≠ bid) :
    ∀ e ∈ b'.executions, event.executionId.any (covers bid' e) = false := by
  intro e m
  cases origin with
  | @stream e₀ m₀ =>
    have id : e₀.id ≠ e.id := fun eq => ne (book.same get get' m₀ m eq).1.symm
    simpa [Execution.event, covers] using id
  | settle eq cut => simp [eq, covers, ne.symm]

lemma coveredQty_stream {db db' : Db} {e₀ : Execution} (nodup : (b.executions.map (·.id)).Nodup)
    (m₀ : e₀ ∈ b.executions) (clear : covered db bid e₀ = false)
    (fills : db'.fills = db.fills ++ [newFill o e₀.event now]) :
    coveredQty db' bid b = coveredQty db bid b + e₀.qty := by
  have one : Table.total (fun e => if e.id = e₀.id then e.qty else 0) b.executions = e₀.qty :=
    @total_of_key _ _ _ Execution.qty Execution.id _ _ nodup m₀
  rw [coveredQty, coveredQty, ← one, ← total_add]
  refine total_congr fun e m => ?_
  rw [covered_insert fills]
  by_cases eq : e.id = e₀.id
  · have same : e = e₀ := inj_on_of_nodup_map nodup m m₀ eq
    subst same
    simp [clear, newFill, Execution.event, covers]
  · simp [newFill, Execution.event, covers, Ne.symm eq, eq]

lemma settled_le {db : Db} {c c' : ℚ} (pos : ∀ e ∈ b.executions, 0 < e.qty) (cut : b.Cut c')
    (booked : coveredQty db bid b < c) (row : ∃ f ∈ db.fills, f.brokerFillId = some (.settle bid c')) : c' ≤ c := by
  obtain ⟨f, mf, eq⟩ := row
  have le : c' ≤ coveredQty db bid b := by
    rw [← cut.sum, coveredQty]
    refine total_le_total fun e m => ?_
    split
    · rename_i le
      rw [if_pos (covered_iff.2 ⟨f, mf, _, eq, by simp [covers, le]⟩)]
    · split
      · exact (pos e m).le
      · exact le_rfl
  linarith

lemma coveredQty_settle {db db' : Db} {f : Fill} {c : ℚ} (pos : ∀ e ∈ b.executions, 0 < e.qty)
    (cut : b.Cut c) (booked : coveredQty db bid b < c)
    (cuts : ∀ f ∈ db.fills, ∀ c', f.brokerFillId = some (.settle bid c') → b.Cut c')
    (own : ∀ e ∈ b.executions, alreadyBooked db (some (.execution e.id)) = true → e.cumQty ≤ c)
    (fills : db'.fills = db.fills ++ [f]) (id : f.brokerFillId = some (.settle bid c)) : coveredQty db' bid b = c := by
  have before : ∀ e ∈ b.executions, covered db bid e = true → e.cumQty ≤ c := by
    intro e m cov
    obtain ⟨f', mf, id', eq, cov⟩ := covered_iff.1 cov
    cases id' with
    | execution x =>
      have x_eq : x = e.id := by simpa [covers] using cov
      refine own e m ?_
      rw [alreadyBooked, Option.isSome_some, Bool.true_and, any_eq_true]
      exact ⟨f', mf, by simp [eq, x_eq]⟩
    | settle bid' c' =>
      obtain ⟨rfl, le⟩ : bid' = bid ∧ e.cumQty ≤ c' := by simpa [covers] using cov
      exact le.trans (settled_le pos (cuts f' mf c' eq) booked ⟨f', mf, eq⟩)
  calc coveredQty db' bid b
      = Table.total (fun e : Execution => if e.cumQty ≤ c then e.qty else 0) b.executions := by
        refine total_congr fun e m => ?_
        rw [covered_insert fills, id]
        by_cases le : e.cumQty ≤ c
        · simp [covers, le]
        · have no : covered db bid e = false := by
            simpa using fun cov => le (before e m cov)
          simp [covers, le, no]
    _ = c := cut.sum

end Writes

lemma Balanced.congr (bal : Balanced s) (fills : t.db.fills = s.db.fills)
    (broker : t.broker = s.broker) : Balanced t := by
  have qty : ∀ o, t.db.filledQty o = s.db.filledQty o := by
    intro o; rw [Db.filledQty, fills, Db.filledQty]
  refine ⟨fun {bid b} get => ?_, fun {o} no => ?_⟩
  · rw [broker] at get
    rw [qty, bal.booked get, coveredQty, coveredQty]
    exact total_congr fun e m => by rw [covered_of_fills fills]
  · rw [broker] at no
    rw [qty, bal.absent no]

lemma Balanced.write {p o : Nat} {loaded : Order} {event : FillEvent} {now : Instant}
    {rest : List Payload} (bal : Balanced s) (inv : s.Linked) (traced : s.Traced)
    (at_ : s.tasks p = .writing (.fill o loaded event) rest) (clear : ClearFill s o event)
    (fills : t.db.fills = s.db.fills ++ [newFill o event now]) (broker : t.broker = s.broker) : Balanced t := by
  obtain ⟨bid, b, get, rfl, pos, origin⟩ := inv.pending at_
  refine ⟨fun {bid' b'} get' => ?_, fun {o'} no => ?_⟩
  · rw [broker] at get'
    rw [filledQty_newFill fills, bal.booked get']
    by_cases eq : bid' = bid
    · subst eq
      rw [get] at get'
      cases get'
      rw [if_pos rfl]
      have qpos : ∀ e ∈ b.executions, 0 < e.qty := fun e m => (inv.book.pos get m).1
      cases origin with
      | @stream e m =>
        have has : rowBrokerId s.db b.order = some bid' := by
          obtain ⟨bid₁, b₁, has, get₁, -⟩ := (inv.links.sound p).writing _ _ at_
          obtain ⟨b₂, get₂, order⟩ := inv.links.row has
          rw [rowBrokerId, show brokerIds s.db b.order = some (some bid₁) from has,
            inv.links.inj get get₂ order.symm]
          rfl
        exact (coveredQty_stream (inv.book.nodup get) m (clear bid' has b get e m rfl) fills).symm
      | @settle event c id cut =>
        have clear : ClearSettle s b.order bid' c event.qty := by
          simpa only [ClearFill, id] using clear
        have gap : coveredQty s.db bid' b + event.qty = c := by rw [← bal.booked get]; exact clear.1
        have cuts : ∀ f ∈ s.db.fills, ∀ c', f.brokerFillId = some (.settle bid' c') → b.Cut c' := by
          intro f mf c' eq
          obtain ⟨bid₁, b₁, get₁, -, ⟨e, -, eq', -⟩ | ⟨c₁, eq', cut⟩⟩ := traced f mf
          · rw [eq] at eq'; cases eq'
          · rw [eq] at eq'
            cases eq'
            rw [get] at get₁
            cases get₁
            exact cut
        rw [coveredQty_settle qpos cut (by linarith) cuts (clear.2 b get) fills id]
        exact gap
    · have order : b.order ≠ b'.order := fun h => eq (inv.links.inj get get' h).symm
      rw [if_neg order, add_zero, coveredQty, coveredQty]
      refine total_congr fun e m => ?_
      rw [covered_insert fills, newFill, covers_other inv.book get get' origin eq e m, Bool.or_false]
  · rw [broker] at no
    rw [filledQty_newFill fills, bal.absent no, if_neg (no bid b get), add_zero]

lemma Balanced.step {l : Label} (bal : Balanced s) (inv : s.Linked) (traced : s.Traced)
    (clear : ClearWrite s l) (st : Step s l t) : Balanced t := by
  cases st with
  | @write p now x rest at_ =>
    cases x with
    | fill o loaded event =>
      exact bal.write inv traced at_ (clear (o, event) (by rw [at_]; rfl)) rfl rfl
    | terminal o loaded event => exact bal.congr rfl rfl
  | @accept p bid o at_ none named =>
    have free := (inv.links.unsent (p := p) (o := o) (by rw [at_]; rfl)).2
    refine ⟨fun {bid' b'} get => ?_, fun {o'} no => ?_⟩
    · simp only [State.move_broker, State.setOrder_broker, get_set] at get
      split at get
      · cases get
        exact bal.absent free
      · exact bal.booked get
    · refine bal.absent fun bid' b' get => no bid' b' ?_
      have ne : bid' ≠ bid := by rintro rfl; rw [none] at get; cases get
      simpa [get_set_of_ne ne] using get
  | @execute bid id qty price isPartial b get open_ qpos ppos unused =>
    refine ⟨fun {bid' b'} get' => ?_, fun {o'} no => ?_⟩
    · rw [State.setOrder_broker, get_set] at get'
      split at get'
      · rename_i eq
        subst eq
        cases get'
        -- the new execution is in nobody's books
        have new : covered s.db bid' ⟨id, qty, price, isPartial, b.cumQty + qty⟩ = false := by
          rw [Bool.eq_false_iff]
          intro cov
          obtain ⟨f, mf, x, eq, cov⟩ := covered_iff.1 cov
          obtain ⟨bid₁, b₁, get₁, -, ⟨e, m, eq', -⟩ | ⟨c, eq', cut⟩⟩ := traced f mf
          · rw [eq] at eq'
            cases eq'
            exact id_ne_of_unused unused get₁ m (by simpa [covers] using cov)
          · rw [eq] at eq'
            cases eq'
            obtain ⟨rfl, le⟩ : bid₁ = bid' ∧ b.cumQty + qty ≤ c := by simpa [covers] using cov
            rw [get] at get₁
            cases get₁
            have := cut.le
            linarith
        have total := bal.booked get
        rw [coveredQty] at total ⊢
        rw [BrokerOrder.execute, total_insert]
        rw [State.setOrder_db, new]
        simpa using total
      · exact bal.booked get'
    · refine bal.absent fun bid' b' get' => ?_
      have grown : Grown (brokerIds s.db) (brokerIds s.db) s.broker
          (s.broker.set bid (b.execute id qty price isPartial)) := .of_broker get (later_execute qpos)
      obtain ⟨b₁, get₁, later⟩ := grown.broker get'
      rw [← later.order]
      exact no bid' b₁ get₁
  | @endOrder bid event b get open_ =>
    refine ⟨fun {bid' b'} get' => ?_, fun {o'} no => ?_⟩
    · rw [State.setOrder_broker, get_set] at get'
      split at get'
      · rename_i eq; subst eq; cases get'; exact @Balanced.booked _ bal bid' b get
      · exact bal.booked get'
    · refine bal.absent fun bid' b' get' => ?_
      by_cases eq : bid' = bid
      · subst eq
        rw [get] at get'
        cases get'
        exact no bid' { b with ending := some (.ended event) } get_set_self
      · exact no bid' b' (by rw [State.setOrder_broker, get_set_of_ne eq]; exact get')
  | settleWrite at_ => exact bal.congr settleWrite_fills rfl
  | _ => exact bal.congr rfl rfl

/-! ## Every run -/

/-- What holds of every run that books each execution once. -/
structure Booked (s : State) : Prop where
  unlost : Unlost s
  balanced : Balanced s

lemma Booked.of_fresh (fresh : Fresh s) : Booked s where
  unlost := .of_fresh fresh
  balanced := by
    refine ⟨fun {bid b} get => ?_, fun {o} no => ?_⟩
    · rw [fresh.broker] at get
      cases get
    · rw [Db.filledQty, fresh.fills, total_nil]

lemma Booked.step {l : Label} (inv : Booked s) (once : BooksOnce s l) (st : system.step s l = some t) : Booked t :=
  ⟨inv.unlost.step once.1 st,
    inv.balanced.step inv.unlost.linked inv.unlost.traced once.2 (Step.of_step st)⟩

lemma coveredQty_le {bid : String} {b : BrokerOrder} (book : Book s.broker)
    (get : s.broker.get bid = some b) : coveredQty s.db bid b ≤ b.cumQty := by
  refine total_le_total fun e m => ?_
  split
  · exact le_rfl
  · exact (book.pos get m).1.le

lemma coveredQty_eq {bid : String} {b : BrokerOrder}
    (rows : ∀ e ∈ b.executions, BookedRow s.db b.order e) : coveredQty s.db bid b = b.cumQty := by
  refine total_congr fun e m => ?_
  obtain ⟨f, mf, -, id, -⟩ := rows e m
  rw [if_pos (covered_iff.2 ⟨f, mf, _, id, by simp [covers]⟩)]

/-- In every run whose bookings are of what was missing, the booked quantity never exceeds what the broker filled, and
equals it once every execution was handled. -/
theorem filledQty_matches_broker {s t : State} {ls : List Label} (fresh : Fresh s)
    (meets : system.Meets BooksOnce s ls) (run : system.run s ls = some t) :
    (∀ bid b, t.broker.get bid = some b → t.db.filledQty b.order ≤ b.cumQty ∧
      ((∀ e ∈ b.executions, e.id ∈ t.delivered ∧ ∀ p, ¬ (t.tasks p).Holds bid e) → t.db.filledQty b.order = b.cumQty)) ∧
      ∀ o, (∀ bid b, t.broker.get bid = some b → b.order ≠ o) → t.db.filledQty o = 0 := by
  have inv : Booked t := Machine.run_invariant Booked.step (.of_fresh fresh) meets run
  refine ⟨fun bid b get => ?_, fun o no => inv.balanced.absent no⟩
  rw [inv.balanced.booked get]
  refine ⟨coveredQty_le inv.unlost.linked.book get, fun all => coveredQty_eq fun e m => ?_⟩
  obtain ⟨delivered, handled⟩ := all e m
  rcases inv.unlost.kept.kept get m delivered with row | ⟨p, h⟩
  · exact row
  · exact absurd h (handled p)

def lateDelivery : List Label :=
  toBroker none ++ [Label.submitted 0 1, .execute "B1" "E1" 10 50 false, .report 1 0 50, .resolve 1 .tiesUp, .load 1,
    .write 1 2, .settleRead 1, .settleWrite 1, .deliverFill 1 "B1" "E1", .load 1, .write 1 3]

/-- The late delivery is booked on top of the settlement. -/
theorem late_delivery_double_books : ∃ t b, system.run newDesk lateDelivery = some t ∧
    t.broker.get "B1" = some b ∧ b.order = 0 ∧ b.cumQty = 10 ∧ t.db.filledQty 0 = 20 := by
  obtain ⟨t, run⟩ : ∃ t, system.run newDesk lateDelivery = some t :=
    Option.isSome_iff_exists.1 (by decide +kernel)
  have get : t.broker.get "B1" = some ⟨0, [⟨"E1", 10, 50, false, 10⟩], some .filled⟩ :=
    Machine.observe (f := (·.broker.get "B1")) run (by decide +kernel)
  have twice : t.db.filledQty 0 = 20 :=
    Machine.observe (f := (·.db.filledQty 0)) run (by decide +kernel)
  exact ⟨t, _, run, get, rfl, by decide +kernel, twice⟩

def timelyDeliveries : List Label :=
  toBroker none ++ [Label.submitted 0 1, .execute "B1" "E1" 6 50 true, .deliverFill 1 "B1" "E1", .load 1,
    .write 1 2, .report 2 0 50, .resolve 2 .tiesUp, .execute "B1" "E2" 4 50 false, .deliverFill 1 "B1" "E2",
    .load 1, .write 1 3, .settleRead 1, .settleWrite 1]

/-- There the books agree with the broker. -/
theorem timely_deliveries_match : ∃ t, system.run newDesk timelyDeliveries = some t ∧ t.db.filledQty 0 = 10 := by
  obtain ⟨t, run⟩ : ∃ t, system.run newDesk timelyDeliveries = some t :=
    Option.isSome_iff_exists.1 (by decide +kernel)
  have get : t.broker.get "B1" =
      some ⟨0, [⟨"E1", 6, 50, true, 6⟩, ⟨"E2", 4, 50, false, 10⟩], some .filled⟩ :=
    Machine.observe (f := (·.broker.get "B1")) run (by decide +kernel)
  have delivered : t.delivered = ["E1", "E2"] :=
    Machine.observe (f := (·.delivered)) run (by decide +kernel)
  have idle : ∀ p, t.tasks p = .idle :=
    idle_of_run (n := 3) (fun _ => rfl) run (by decide) (by decide +kernel)
  have books := filledQty_matches_broker fresh_newDesk (by decide +kernel) run
  refine ⟨t, run, ((books.1 _ _ get).2 fun e m => ⟨?_, fun p => ?_⟩).trans (by decide +kernel)⟩
  · rw [delivered]
    rcases mem_pair.1 m with rfl | rfl <;> decide
  · rw [idle]
    simp [Task.Holds, Task.queue]

end Workbench.Orders
