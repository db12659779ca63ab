import Mathlib.Data.Rat.Defs
import Mathlib.Data.List.Pairwise
import Mathlib.Logic.Function.Basic
import Workbench.Lib.Machine
import Workbench.Market.Session

/-!
# The session baseline

Model of `app/risk/loss_control/session_baseline.py`: any number of `SessionBaselineShadow.capture` calls, one
label for each statement they execute, with the orders and the fills of the accounts between them. The broker
keeps all orders of an account, the ones of the application and the ones placed elsewhere; a listing shows the
newest of them up to the limit of `AlpacaAdapter.list_orders`.
-/

namespace Workbench.LossControl.Baseline
open Lib Market List Function Machine

/-! ## Orders -/

/-- A time stamp of a listed order. -/
inductive Stamp where
  | absent
  | datetime (aware : Bool) (t : Instant)
  | text (parsed : Option (Bool × Instant))
  | other
deriving DecidableEq

/-- What a stamp says; a naive one says nothing. -/
def Stamp.usable : Stamp → Option Instant
  | .datetime true t => some t
  | .text (some (true, t)) => some t
  | _ => none

/-- A listed order, as the adapter gives it. -/
structure ListedOrder where
  submittedAt : Stamp := .absent
  createdAt : Stamp := .absent
  updatedAt : Stamp := .absent
deriving DecidableEq

/-- Python `_broker_order_instant`. -/
def brokerOrderInstant (order : ListedOrder) : Option Instant :=
  [order.submittedAt, order.createdAt, order.updatedAt].findSome? Stamp.usable

/-- The loop over the listed orders: whether there was activity, and `none` when it cannot be told. -/
def brokerActivity (opens : Instant) : List ListedOrder → Option Bool
  | [] => some false
  | order :: orders =>
    match brokerOrderInstant order with
    | none => none
    | some t => if opens ≤ t then some true else brokerActivity opens orders

/-- An order at the broker. -/
structure BrokerOrder where
  placedAt : Instant
  fills : List Instant := []
deriving DecidableEq

/-- The limit of `list_orders`. -/
def listLimit : Nat := 100

/-- The stamps of an order are not before it was placed. -/
def renders (order : BrokerOrder) (listed : ListedOrder) : Bool :=
  [listed.submittedAt, listed.createdAt, listed.updatedAt].all fun stamp => stamp.usable.all (order.placedAt ≤ ·)

def shows : List BrokerOrder → List ListedOrder → Bool
  | [], [] => true
  | order :: orders, listed :: rest => renders order listed && shows orders rest
  | _, _ => false

/-! ## Captures -/

/-- The trading calendar, and the local times of New York as instants. -/
structure MarketSession where
  zone : Zone
  calendar : Calendar
  combine : Int → Int → Instant

/-- The `regular_open` of `MarketSession.classify`. -/
def MarketSession.regularOpen (market : MarketSession) (now : Instant) : Option Instant :=
  (market.calendar (market.zone.date now)).map fun sched => market.combine (market.zone.date now) sched.opens

/-- Python `resolve_session_date`. -/
def MarketSession.resolveSessionDate (market : MarketSession) (now : Instant) : Option Int :=
  (market.regularOpen now).map market.zone.date

/-- The outcomes of a capture. -/
inductive Outcome where
  | captured | reused | skippedNonTrading | missingAfterActivity | indeterminate
deriving DecidableEq, Repr

/-- Python `ShadowResult`. -/
structure ShadowResult where
  outcome : Outcome
  accountId : Nat
  marketSessionDate : Option Int
  baselineEquity : Option ℚ := none
  activityDetected : Bool := false
deriving DecidableEq

/-- A row of `risk_session_baselines`. -/
structure RiskSessionBaseline where
  accountId : Nat
  marketSessionDate : Int
  baselineEquity : ℚ
  capturedAt : Instant
deriving DecidableEq

/-- The arguments of a capture on a trading day, with its session. -/
structure Capture where
  accountId : Nat
  reconciledEquity : ℚ
  now : Instant
  date : Int
  opens : Instant
deriving DecidableEq

/-- Where a capture stands; `clear` has seen no activity, and holds the fills there were since the open. -/
inductive Phase where
  | idle
  | started (c : Capture)
  | absent (c : Capture)
  | ordersQuiet (c : Capture)
  | localQuiet (c : Capture)
  | clear (c : Capture) (fills : List Instant)
  | written (c : Capture) (outcome : Outcome)
  | emitting (c : Capture) (result : ShadowResult)

/-- The clock, the local tables, the broker, and the captures. `baselines` keeps beside each row the fills
    there were since the open at the check of its writer, and `returned` what the captures returned. -/
structure State where
  now : Instant := 0
  orders : List (Nat × Instant) := []
  fills : List (Nat × Instant) := []
  broker : Nat → List BrokerOrder := fun _ => []
  baselines : List (RiskSessionBaseline × List Instant) := []
  outcomes : List (Nat × Int × Outcome) := []
  phases : Nat → Phase := fun _ => .idle
  returned : List (Capture × ShadowResult) := []

def State.move (s : State) (p : Nat) (phase : Phase) : State := { s with phases := Function.update s.phases p phase }

/-- The fills of an account since an instant, at the broker and in the table. -/
def fillsSince (s : State) (a : Nat) (opens : Instant) : List Instant :=
  ((s.broker a).flatMap (·.fills) ++ (s.fills.filter (·.1 = a)).map (·.2)).filter (opens ≤ ·)

/-- Python `_existing_baseline`. -/
def existingBaseline (s : State) (a : Nat) (date : Int) : Option RiskSessionBaseline :=
  (s.baselines.map (·.1)).find? fun row => row.accountId = a ∧ row.marketSessionDate = date

/-- What an order and its fills do: the newest order of an account comes first. -/
inductive Label where
  | tick (now : Instant)
  | createOrder (a : Nat)
  | placeOrder (a : Nat)
  | fillOrder (a i : Nat)
  | recordFill (a : Nat) (filledAt : Instant)
  | capture (p a : Nat) (equity : ℚ) (now : Instant)
  | findExisting (p : Nat)
  | countOrders (p : Nat)
  | countFills (p : Nat)
  | listOrders (p : Nat) (answer : Option (List ListedOrder))
  | insert (p : Nat)
  | readBack (p : Nat)
  | persist (p : Nat)
  | crash (p : Nat)

/-- The result of a capture that found activity, or could not tell. -/
def Capture.failClosed (c : Capture) (outcome : Outcome) : ShadowResult where
  outcome := outcome
  accountId := c.accountId
  marketSessionDate := some c.date
  activityDetected := true

/-- The result of a capture that has a baseline. -/
def Capture.established (c : Capture) (outcome : Outcome) (equity : Option ℚ) : ShadowResult where
  outcome := outcome
  accountId := c.accountId
  marketSessionDate := some c.date
  baselineEquity := equity

/-- One statement of a capture, or one event of the world; `numeric` is what the `Numeric(20, 4)` column gives back. -/
def step (market : MarketSession) (numeric : ℚ → ℚ) (s : State) : Label → Option State
  | .tick now => if s.now ≤ now then some { s with now := now } else none
  | .createOrder a => some { s with orders := s.orders ++ [(a, s.now)] }
  | .placeOrder a => some { s with broker := Function.update s.broker a (⟨s.now, []⟩ :: s.broker a) }
  | .fillOrder a i =>
    match (s.broker a)[i]? with
    | none => none
    | some order => some { s with
        broker := Function.update s.broker a ((s.broker a).set i { order with fills := order.fills ++ [s.now] }) }
  | .recordFill a filledAt => some { s with fills := s.fills ++ [(a, filledAt)] }
  | .capture p a equity now =>
    match s.phases p with
    | .idle =>
      match market.regularOpen now, market.resolveSessionDate now with
      | some opens, some date => some (s.move p (.started ⟨a, equity, now, date, opens⟩))
      -- there is no session to baseline
      | _, _ => some s
    | _ => none
  | .findExisting p =>
    match s.phases p with
    | .started c =>
      match existingBaseline s c.accountId c.date with
      | some row => some (s.move p (.emitting c (c.established .reused (some (numeric row.baselineEquity)))))
      | none => some (s.move p (.absent c))
    | _ => none
  | .countOrders p =>
    match s.phases p with
    | .absent c =>
      if s.orders.any fun o => o.1 = c.accountId ∧ c.opens ≤ o.2 then
        some (s.move p (.emitting c (c.failClosed .missingAfterActivity)))
      else some (s.move p (.ordersQuiet c))
    | _ => none
  | .countFills p =>
    match s.phases p with
    | .ordersQuiet c =>
      if s.fills.any fun f => f.1 = c.accountId ∧ c.opens ≤ f.2 then
        some (s.move p (.emitting c (c.failClosed .missingAfterActivity)))
      else some (s.move p (.localQuiet c))
    | _ => none
  | .listOrders p answer =>
    match s.phases p with
    | .localQuiet c =>
      match answer with
      | none => some (s.move p (.emitting c (c.failClosed .indeterminate)))
      | some listed =>
        if !shows ((s.broker c.accountId).take listLimit) listed then none
        else match brokerActivity c.opens listed with
          | none => some (s.move p (.emitting c (c.failClosed .indeterminate)))
          | some true => some (s.move p (.emitting c (c.failClosed .missingAfterActivity)))
          | some false => some (s.move p (.clear c (fillsSince s c.accountId c.opens)))
    | _ => none
  | .insert p =>
    match s.phases p with
    | .clear c fills =>
      -- `ON CONFLICT DO NOTHING`, then the commit
      match existingBaseline s c.accountId c.date with
      | some _ => some (s.move p (.written c .reused))
      | none => some { s.move p (.written c .captured) with
          baselines := s.baselines ++ [(⟨c.accountId, c.date, c.reconciledEquity, c.now⟩, fills)] }
    | _ => none
  | .readBack p =>
    match s.phases p with
    | .written c outcome => some (s.move p (.emitting c (c.established outcome
        ((existingBaseline s c.accountId c.date).map fun row => numeric row.baselineEquity))))
    | _ => none
  | .persist p =>
    match s.phases p with
    | .emitting c result => some { s.move p .idle with
        outcomes := s.outcomes.filter (fun o => ¬(o.1 = c.accountId ∧ o.2.1 = c.date)) ++
          [(c.accountId, c.date, result.outcome)]
        returned := s.returned ++ [(c, result)] }
    | _ => none
  | .crash p => some (s.move p .idle)

def captures (market : MarketSession) (numeric : ℚ → ℚ) : Machine State Label := ⟨step market numeric⟩

/-! ## One row, which stays -/

def RiskSessionBaseline.For (row : RiskSessionBaseline) (c : Capture) : Prop :=
  row.accountId = c.accountId ∧ row.marketSessionDate = c.date

/-- The capture has a row, with its own equity when it wrote it. -/
def Holds (s : State) (c : Capture) (outcome : Outcome) (row : RiskSessionBaseline) : Prop :=
  row ∈ s.baselines.map (·.1) ∧ row.For c ∧ (outcome = .captured → row.baselineEquity = c.reconciledEquity)

/-- A result with a baseline gives the equity of the row. -/
def Reported (numeric : ℚ → ℚ) (s : State) (c : Capture) (result : ShadowResult) : Prop :=
  result.accountId = c.accountId ∧ result.marketSessionDate = some c.date ∧
    (result.outcome = .captured ∨ result.outcome = .reused →
      ∃ row, Holds s c result.outcome row ∧ result.baselineEquity = some (numeric row.baselineEquity))

def Unique (s : State) : Prop :=
  (s.baselines.map (·.1)).Pairwise fun x y => ¬(x.accountId = y.accountId ∧ x.marketSessionDate = y.marketSessionDate)

def Stands (numeric : ℚ → ℚ) (s : State) : Phase → Prop
  | .written c outcome => (outcome = .captured ∨ outcome = .reused) ∧ ∃ row, Holds s c outcome row
  | .emitting c result => Reported numeric s c result
  | _ => True

/-- The rows are unique, and what was returned is theirs. -/
structure Kept (numeric : ℚ → ℚ) (s : State) : Prop where
  unique : Unique s
  stands : ∀ p, Stands numeric s (s.phases p)
  returned : ∀ r ∈ s.returned, Reported numeric s r.1 r.2

section Kept
variable {row : RiskSessionBaseline} {c : Capture} {market : MarketSession} {numeric : ℚ → ℚ} {s t : State}

lemma existingBaseline_some {a : Nat} {date : Int} (found : existingBaseline s a date = some row) :
    row ∈ s.baselines.map (·.1) ∧ row.accountId = a ∧ row.marketSessionDate = date := by
  have key := find?_some found
  exact ⟨mem_of_find?_eq_some found, by simpa using key⟩

lemma existingBaseline_none {a : Nat} {date : Int} (missing : existingBaseline s a date = none)
    (mem : row ∈ s.baselines.map (·.1)) : ¬(row.accountId = a ∧ row.marketSessionDate = date) := by
  have key := find?_eq_none.1 missing row mem
  simpa using key

lemma Unique.existingBaseline (unique : Unique s)
    (mem : row ∈ s.baselines.map (·.1)) (ours : row.For c) : existingBaseline s c.accountId c.date = some row := by
  cases found : Baseline.existingBaseline s c.accountId c.date with
  | none => exact absurd ours (existingBaseline_none found mem)
  | some other =>
    obtain ⟨mem', key⟩ := existingBaseline_some found
    by_contra ne
    have symm : Std.Symm fun x y : RiskSessionBaseline =>
        ¬(x.accountId = y.accountId ∧ x.marketSessionDate = y.marketSessionDate) :=
      ⟨fun _ _ h e => h ⟨e.1.symm, e.2.symm⟩⟩
    have apart := List.Pairwise.forall unique mem' mem fun eq => ne (congrArg some eq)
    exact apart ⟨key.1.trans ours.1.symm, key.2.trans ours.2.symm⟩

lemma Holds.mono {outcome : Outcome} (h : Holds s c outcome row)
    (grows : s.baselines <+: t.baselines) : Holds t c outcome row :=
  ⟨(grows.map _).subset h.1, h.2⟩

lemma Reported.mono {result : ShadowResult} (h : Reported numeric s c result)
    (grows : s.baselines <+: t.baselines) : Reported numeric t c result := by
  refine ⟨h.1, h.2.1, fun established => ?_⟩
  obtain ⟨row, holds, equity⟩ := h.2.2 established
  exact ⟨row, holds.mono grows, equity⟩

lemma Stands.mono {phase : Phase} (h : Stands numeric s phase) (grows : s.baselines <+: t.baselines) :
    Stands numeric t phase := by
  cases phase with
  | written c outcome =>
    obtain ⟨made, row, holds⟩ := h
    exact ⟨made, row, holds.mono grows⟩
  | emitting c result => exact Reported.mono h grows
  | idle | started | absent | ordersQuiet | localQuiet | clear => trivial

lemma Kept.moved (h : Kept numeric s) (grows : s.baselines <+: t.baselines) (unique : Unique t) {p : Nat}
    {phase : Phase} (phases : t.phases = Function.update s.phases p phase) (stands : Stands numeric t phase)
    (returned : ∀ r ∈ t.returned, r ∈ s.returned ∨ Reported numeric t r.1 r.2) : Kept numeric t := by
  refine ⟨unique, ?_, ?_⟩
  · intro q
    rw [phases]
    by_cases same : q = p
    · rw [same, update_self]
      exact stands
    · rw [update_of_ne same]
      exact (h.stands q).mono grows
  · intro r mem
    obtain old | new := returned r mem
    · exact (h.returned r old).mono grows
    · exact new

lemma Kept.move (h : Kept numeric s) {p : Nat} {phase : Phase} (stands : Stands numeric s phase) :
    Kept numeric (s.move p phase) :=
  h.moved prefix_rfl h.unique rfl stands fun _ => .inl

lemma Kept.world (h : Kept numeric s) (baselines : t.baselines = s.baselines) (phases : t.phases = s.phases)
    (returned : t.returned = s.returned) : Kept numeric t := by
  have grows : s.baselines <+: t.baselines := by rw [baselines]
  refine ⟨?_, ?_, ?_⟩
  · rw [Unique, baselines]
    exact h.unique
  · intro p
    rw [phases]
    exact (h.stands p).mono grows
  · intro r mem
    rw [returned] at mem
    exact (h.returned r mem).mono grows

lemma reported_failClosed {outcome : Outcome} (fails : outcome ≠ .captured ∧ outcome ≠ .reused) :
    Reported numeric s c (c.failClosed outcome) :=
  ⟨rfl, rfl, fun established => by
    obtain eq | eq := established
    · exact absurd eq fails.1
    · exact absurd eq fails.2⟩

theorem Kept.step {l : Label} (h : Kept numeric s) (st : (captures market numeric).step s l = some t) :
    Kept numeric t := by
  simp only [captures] at st
  cases l with
  | tick now =>
    simp only [Baseline.step] at st
    split at st
    · cases st
      exact h.world rfl rfl rfl
    · cases st
  | createOrder a | placeOrder a | recordFill a filledAt =>
    cases st
    exact h.world rfl rfl rfl
  | fillOrder a i =>
    simp only [Baseline.step] at st
    split at st
    · cases st
    · cases st
      exact h.world rfl rfl rfl
  | capture p a equity now =>
    simp only [Baseline.step] at st
    split at st
    · split at st
      · cases st
        exact h.move trivial
      · cases st
        exact h
    · cases st
  | findExisting p =>
    simp only [Baseline.step] at st
    split at st
    · rename_i c _
      split at st
      · rename_i row found
        cases st
        obtain ⟨mem, key⟩ := existingBaseline_some found
        refine h.move ⟨rfl, rfl, fun _ => ⟨row, ⟨mem, key, nofun⟩, rfl⟩⟩
      · cases st
        exact h.move trivial
    · cases st
  | countOrders p | countFills p =>
    simp only [Baseline.step] at st
    split at st
    · split at st
      · cases st
        exact h.move (reported_failClosed (by decide))
      · cases st
        exact h.move trivial
    · cases st
  | listOrders p answer =>
    simp only [Baseline.step] at st
    split at st
    · split at st
      · cases st
        exact h.move (reported_failClosed (by decide))
      · split at st
        · cases st
        · split at st
          · cases st
            exact h.move (reported_failClosed (by decide))
          · cases st
            exact h.move (reported_failClosed (by decide))
          · cases st
            exact h.move trivial
    · cases st
  | insert p =>
    simp only [Baseline.step] at st
    split at st
    · rename_i c fills _
      split at st
      · rename_i row found
        cases st
        obtain ⟨mem, key⟩ := existingBaseline_some found
        exact h.move ⟨.inr rfl, row, mem, key, nofun⟩
      · rename_i missing
        cases st
        refine h.moved (prefix_append _ _) ?_ rfl ⟨.inl rfl, ⟨c.accountId, c.date, c.reconciledEquity, c.now⟩, ?_⟩
          fun _ => .inl
        · simp only [Unique, map_append]
          refine pairwise_append.2 ⟨h.unique, pairwise_singleton _ _, ?_⟩
          intro x mem y eq
          rw [mem_singleton.1 eq]
          exact existingBaseline_none missing mem
        · exact ⟨by simp, ⟨rfl, rfl⟩, fun _ => rfl⟩
    · cases st
  | readBack p =>
    simp only [Baseline.step] at st
    split at st
    · rename_i c outcome at_
      cases st
      have stands := h.stands p
      rw [at_] at stands
      obtain ⟨made, row, holds⟩ := stands
      refine h.move ⟨rfl, rfl, fun _ => ⟨row, holds, ?_⟩⟩
      simp only [Capture.established, h.unique.existingBaseline holds.1 holds.2.1, Option.map_some]
    · cases st
  | persist p =>
    simp only [Baseline.step] at st
    split at st
    · rename_i c result at_
      cases st
      have stands := h.stands p
      rw [at_] at stands
      refine @Kept.moved numeric s _ h prefix_rfl h.unique p .idle rfl trivial ?_
      intro r mem
      obtain old | new := mem_append.1 mem
      · exact .inl old
      · rw [mem_singleton.1 new]
        exact .inr stands
    · cases st
  | crash p =>
    cases st
    exact h.move trivial

end Kept

lemma baselines_step {market : MarketSession} {numeric : ℚ → ℚ} {s t : State} {l : Label}
    (st : (captures market numeric).step s l = some t) : s.baselines <+: t.baselines := by
  simp only [captures] at st
  cases l with
  | tick | createOrder | placeOrder | recordFill | fillOrder | capture | findExisting | countOrders | countFills
  | listOrders | readBack | persist | crash =>
    simp only [step] at st
    grind [State.move]
  | insert p =>
    simp only [step] at st
    split at st
    · split at st
      · cases st
        exact prefix_rfl
      · cases st
        exact prefix_append _ _
    · cases st

/-! ## No row after a fill -/

/-- When a capture that has seen no activity reads the orders of the broker after a fill since the open, an
    order was placed since the open, or a listed one has no usable stamp. -/
def Careful (s : State) : Label → Prop
  | .listOrders p (some listed) =>
    match s.phases p with
    | .localQuiet c => fillsSince s c.accountId c.opens ≠ [] →
      (∃ order ∈ s.broker c.accountId, c.opens ≤ order.placedAt) ∨ ∃ order ∈ listed, brokerOrderInstant order = none
    | _ => True
  | _ => True

instance (s : State) : (l : Label) → Decidable (Careful s l)
  | .listOrders p (some listed) => match eq : s.phases p with
    | .localQuiet c => decidable_of_iff (fillsSince s c.accountId c.opens ≠ [] →
        (∃ order ∈ s.broker c.accountId, c.opens ≤ order.placedAt) ∨ ∃ order ∈ listed, brokerOrderInstant order = none)
        (by simp [Careful, eq])
    | .idle | .started _ | .absent _ | .ordersQuiet _ | .clear _ _ | .written _ _ | .emitting _ _ =>
      isTrue (by simp [Careful, eq])
  | .listOrders _ none | .tick _ | .createOrder _ | .placeOrder _ | .fillOrder _ _ | .recordFill _ _ | .capture _ _ _ _
  | .findExisting _ | .countOrders _ | .countFills _ | .insert _ | .readBack _ | .persist _ | .crash _ => isTrue trivial

/-- No row was written after a fill since its open. -/
def Preceding (s : State) : Prop := ∀ row ∈ s.baselines, row.2 = []

/-- The broker keeps the newest order first, and no capture is to write a row after a fill. -/
structure Quiet (s : State) : Prop where
  newest : ∀ a, (s.broker a).Pairwise fun x y => y.placedAt ≤ x.placedAt
  past : ∀ a, ∀ order ∈ s.broker a, order.placedAt ≤ s.now
  clear : ∀ p c fills, s.phases p = .clear c fills → fills = []
  preceding : Preceding s

lemma brokerActivity_false {opens : Instant} {listed : List ListedOrder}
    (none_ : brokerActivity opens listed = some false)
    {order : ListedOrder} (mem : order ∈ listed) : ∃ t, brokerOrderInstant order = some t ∧ t < opens := by
  induction listed with
  | nil => cases mem
  | cons first rest ih =>
    simp only [brokerActivity] at none_
    split at none_
    · cases none_
    · rename_i t stamped
      split at none_
      · cases none_
      · rename_i before
        obtain _ | ⟨_, mem⟩ := mem
        · exact ⟨t, stamped, lt_of_not_ge before⟩
        · exact ih none_ mem

lemma renders_instant {order : BrokerOrder} {listed : ListedOrder} {t : Instant} (shown : renders order listed = true)
    (stamped : brokerOrderInstant listed = some t) : order.placedAt ≤ t := by
  simp only [brokerOrderInstant] at stamped
  obtain ⟨stamp, mem, usable⟩ := exists_of_findSome?_eq_some stamped
  simp only [renders, all_eq_true] at shown
  have least := shown stamp mem
  rw [usable] at least
  simpa using least

lemma Quiet.no_order {s : State} (h : Quiet s) {a : Nat} {opens : Instant} {listed : List ListedOrder}
    (shown : shows ((s.broker a).take listLimit) listed = true) (none_ : brokerActivity opens listed = some false)
    {order : BrokerOrder} (mem : order ∈ s.broker a) : order.placedAt < opens := by
  have newest := h.newest a
  cases orders : s.broker a with
  | nil =>
    rw [orders] at mem
    cases mem
  | cons first rest =>
    rw [orders] at newest mem shown
    have least : order.placedAt ≤ first.placedAt := by
      obtain _ | ⟨_, mem⟩ := mem
      · exact le_rfl
      · exact rel_of_pairwise_cons newest mem
    cases listed with
    | nil => cases shown
    | cons head tail =>
      obtain ⟨first', -⟩ := Bool.and_eq_true _ _ |>.mp shown
      obtain ⟨t, stamped, before⟩ := brokerActivity_false none_ mem_cons_self
      exact (least.trans (renders_instant first' stamped)).trans_lt before

section Quiet

variable {market : MarketSession} {numeric : ℚ → ℚ} {s t : State}

lemma Quiet.move (h : Quiet s) {p : Nat} {phase : Phase} (clear : ∀ c fills, phase = .clear c fills → fills = []) :
    Quiet (s.move p phase) := by
  refine ⟨h.newest, h.past, ?_, h.preceding⟩
  intro q c fills at_
  have phases : (s.move p phase).phases q = Function.update s.phases p phase q := rfl
  rw [phases] at at_
  by_cases same : q = p
  · rw [same, update_self] at at_
    exact clear c fills at_
  · rw [update_of_ne same] at at_
    exact h.clear q c fills at_

lemma Quiet.placed (h : Quiet s) {a : Nat} :
    Quiet { s with broker := Function.update s.broker a (⟨s.now, []⟩ :: s.broker a) } := by
  refine ⟨?_, ?_, h.clear, h.preceding⟩
  · intro b
    by_cases same : b = a
    · subst same
      dsimp only
      rw [update_self]
      exact pairwise_cons.2 ⟨h.past b, h.newest b⟩
    · dsimp only
      rw [update_of_ne same]
      exact h.newest b
  · intro b order mem
    by_cases same : b = a
    · subst same
      dsimp only at mem
      rw [update_self] at mem
      obtain _ | ⟨_, mem⟩ := mem
      · exact le_rfl
      · exact h.past b order mem
    · dsimp only at mem
      rw [update_of_ne same] at mem
      exact h.past b order mem

lemma map_placedAt_set {orders : List BrokerOrder} {i : Nat} {order : BrokerOrder} {fills : List Instant}
    (found : orders[i]? = some order) : (orders.set i { order with fills := fills }).map (·.placedAt) =
      orders.map (·.placedAt) := by
  induction orders generalizing i with
  | nil => rfl
  | cons first rest ih =>
    cases i with
    | zero =>
      cases found
      rfl
    | succ i => exact congrArg (first.placedAt :: ·) (ih found)

lemma Quiet.filled (h : Quiet s) {a i : Nat} {order : BrokerOrder} {fills : List Instant}
    (found : (s.broker a)[i]? = some order) :
    Quiet { s with broker := Function.update s.broker a ((s.broker a).set i { order with fills := fills }) } := by
  have placed (b : Nat) : (Function.update s.broker a ((s.broker a).set i { order with fills := fills }) b).map
      (·.placedAt) =
      (s.broker b).map (·.placedAt) := by
    by_cases same : b = a
    · rw [same, update_self]
      exact map_placedAt_set found
    · rw [update_of_ne same]
  refine ⟨?_, ?_, h.clear, h.preceding⟩
  · intro b
    have newest : ((s.broker b).map (·.placedAt)).Pairwise (· ≥ ·) := pairwise_map.2 (h.newest b)
    rw [← placed b] at newest
    exact pairwise_map.1 newest
  · intro b other mem
    have mem' : other.placedAt ∈ (s.broker b).map (·.placedAt) := by
      rw [← placed b]
      exact mem_map_of_mem mem
    obtain ⟨old, mem, eq⟩ := mem_map.1 mem'
    rw [← eq]
    exact h.past b old mem

theorem Quiet.step {l : Label} (h : Quiet s) (careful : Careful s l)
    (st : (captures market numeric).step s l = some t) : Quiet t := by
  simp only [captures] at st
  cases l with
  | tick now =>
    simp only [Baseline.step] at st
    split at st
    · rename_i later
      cases st
      exact ⟨h.newest, fun a order mem => (h.past a order mem).trans later, h.clear, h.preceding⟩
    · cases st
  | createOrder a | recordFill a filledAt =>
    cases st
    exact ⟨h.newest, h.past, h.clear, h.preceding⟩
  | placeOrder a =>
    cases st
    exact h.placed
  | fillOrder a i =>
    simp only [Baseline.step] at st
    split at st
    · cases st
    · rename_i order found
      cases st
      exact h.filled found
  | capture p a equity now =>
    simp only [Baseline.step] at st
    split at st
    · split at st
      · cases st
        exact h.move nofun
      · cases st
        exact h
    · cases st
  | findExisting p | countOrders p | countFills p =>
    simp only [Baseline.step] at st
    split at st
    · split at st
      · cases st
        exact h.move nofun
      · cases st
        exact h.move nofun
    · cases st
  | listOrders p answer =>
    simp only [Baseline.step] at st
    split at st
    · rename_i c at_
      split at st
      · cases st
        exact h.move nofun
      · rename_i listed
        split at st
        · cases st
        · rename_i shown
          split at st
          · cases st
            exact h.move nofun
          · cases st
            exact h.move nofun
          · rename_i none_
            cases st
            apply h.move
            intro c' fills eq
            cases eq
            by_contra filled
            simp only [Careful, at_] at careful
            -- the activity that the condition promises would be in the listing
            obtain ⟨order, mem, since⟩ | ⟨order, mem, unstamped⟩ := careful filled
            · exact absurd since (not_le_of_gt (h.no_order (by simpa using shown) none_ mem))
            · obtain ⟨t, stamped, -⟩ := brokerActivity_false none_ mem
              rw [unstamped] at stamped
              cases stamped
    · cases st
  | insert p =>
    simp only [Baseline.step] at st
    split at st
    · rename_i c fills at_
      split at st
      · cases st
        exact h.move nofun
      · cases st
        have moved : Quiet (s.move p (.written c .captured)) := h.move nofun
        refine ⟨moved.newest, moved.past, moved.clear, ?_⟩
        intro row mem
        obtain old | new := mem_append.1 mem
        · exact h.preceding row old
        · rw [mem_singleton.1 new]
          exact h.clear p c fills at_
    · cases st
  | readBack p =>
    simp only [Baseline.step] at st
    split at st
    · cases st
      exact h.move nofun
    · cases st
  | persist p =>
    simp only [Baseline.step] at st
    split at st
    · cases st
      have moved : Quiet (s.move p .idle) := h.move nofun
      exact ⟨moved.newest, moved.past, moved.clear, moved.preceding⟩
    · cases st
  | crash p =>
    cases st
    exact h.move nofun

end Quiet

/-- An account has at most one row for a session, which stays and has the equity its writer was given; and where
listings show some activity after a fill, no row was written after one. -/
theorem session_baseline_kept {market : MarketSession} {numeric : ℚ → ℚ} {labels labels' : List Label} {s t : State}
    (run : (captures market numeric).run {} labels = some s) (rest : (captures market numeric).run s labels' = some t) :
    Unique t ∧ s.baselines <+: t.baselines ∧ (∀ r ∈ t.returned, Reported numeric t r.1 r.2) ∧
      ((captures market numeric).Meets Careful {} (labels ++ labels') → Preceding t) := by
  have whole : (captures market numeric).run {} (labels ++ labels') = some t := run_append.2 ⟨s, run, rest⟩
  have start : Kept numeric {} := ⟨.nil, fun _ => trivial, fun _ mem => absurd mem not_mem_nil⟩
  have kept : Kept numeric t := run_invariant (fun h _ st => Kept.step h st) start meets_true whole
  have grows : s.baselines <+: t.baselines :=
    run_relation (M := captures market numeric) (I := fun _ => True) (R := fun s t => s.baselines <+: t.baselines)
      (fun _ => prefix_rfl) List.IsPrefix.trans (fun _ _ _ => trivial) (fun _ _ st => baselines_step st) trivial
      meets_true rest
  refine ⟨kept.unique, grows, kept.returned, ?_⟩
  intro met
  have start : Quiet {} := ⟨fun _ => .nil, fun _ _ mem => absurd mem not_mem_nil, nofun, fun _ mem =>
      absurd mem not_mem_nil⟩
  exact (run_invariant Quiet.step start met whole).preceding

def summer : MarketSession where
  zone := ⟨fun _ => -240⟩
  calendar := fun _ => some ⟨timeOfDay 9 30, timeOfDay 16 0⟩
  combine date time := ((date * dayMinutes + 240) * minute + time).toNat

def clock (hours minutes : Nat) : Instant := (hours * 60 + minutes + 240) * minute

def raceLabels : List Label :=
  [.tick (clock 8 0), .placeOrder 1, .tick (clock 9 31),
   .capture 0 1 100000 (clock 9 31), .capture 1 1 100250 (clock 9 31), .findExisting 0, .findExisting 1,
   .countOrders 0, .countFills 0, .countOrders 1, .countFills 1,
   .listOrders 0 (some [{ submittedAt := .text (some (true, clock 8 0)) }]),
   .listOrders 1 (some [{ submittedAt := .text (some (true, clock 8 0)) }]), .insert 1, .insert 0, .readBack 0,
     .persist 0]

def laterLabels : List Label :=
  [.readBack 1, .persist 1, .tick (clock 10 0), .placeOrder 1, .fillOrder 1 0, .capture 2 1 99000 (clock 10 0),
   .findExisting 2, .persist 2]

theorem race_kept : ∃ s t, (captures summer id).run {} raceLabels = some s ∧ (captures summer id).run s laterLabels =
    some t ∧ Unique t ∧ s.baselines <+: t.baselines ∧ (∀ r ∈ t.returned, Reported id t r.1 r.2) ∧ Preceding t ∧
    t.returned.map (fun r => (r.2.outcome, r.2.baselineEquity)) =
      [(.reused, some 100250), (.captured, some 100250), (.reused, some 100250)] := by
  obtain ⟨t, whole⟩ := Option.isSome_iff_exists.1
    (show ((captures summer id).run {} (raceLabels ++ laterLabels)).isSome = true by decide +kernel)
  obtain ⟨s, run, rest⟩ := run_append.1 whole
  obtain ⟨unique, grows, returned, preceding⟩ := session_baseline_kept run rest
  refine ⟨s, t, run, rest, unique, grows, returned, preceding (by decide +kernel), ?_⟩
  exact Machine.observe (t := t) (f := fun s => s.returned.map fun r => (r.2.outcome, r.2.baselineEquity))
    (x := [(.reused, some 100250), (.captured, some 100250), (.reused, some 100250)]) whole (by decide +kernel)

def restingLabels : List Label :=
  [.tick (clock 9 0), .placeOrder 1, .tick (clock 9 31), .fillOrder 1 0, .tick (clock 9 35),
   .capture 0 1 99500 (clock 9 35), .findExisting 0, .countOrders 0, .countFills 0,
   .listOrders 0 (some [{ submittedAt := .text (some (true, clock 9 0)) }]), .insert 0, .readBack 0, .persist 0]

theorem resting_not_preceding : ∃ t, (captures summer id).run {} restingLabels = some t ∧ ¬Preceding t := by
  obtain ⟨t, run⟩ := Option.isSome_iff_exists.1
    (show ((captures summer id).run {} restingLabels).isSome = true by decide +kernel)
  refine ⟨t, run, ?_⟩
  intro preceding
  have written : t.baselines.map (·.2) = [[clock 9 31]] :=
    Machine.observe (t := t) (f := fun s => s.baselines.map (·.2)) run (by decide +kernel)
  have none_ : ∀ fills ∈ t.baselines.map (·.2), fills = [] := by
    intro fills mem
    obtain ⟨row, mem', rfl⟩ := mem_map.1 mem
    exact preceding row mem'
  rw [written] at none_
  exact absurd (none_ _ mem_cons_self) (cons_ne_nil _ _)

end Workbench.LossControl.Baseline
