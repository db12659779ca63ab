import Workbench.Lib.Machine
import Workbench.Risk.Passed
import Workbench.Orders.Positions

/-!
# The exposure system

The processes that move the exposure of one long-only account under a gross cap: BUY requests are
evaluated and, in a later transaction, persisted and submitted; the broker executes what it accepted;
fills are ingested and positions recomputed; sync passes read the broker and write its positions. Each
label is one commit, one broker event or one broker read, so a run of `system` is an interleaving.

Prices are constant. An order is valued at its estimated notional, which for anything but a limit order
is its quantity at the constant price; a limit order executes only when its limit admits that price.
The account is long-only and there are no sells.
-/

namespace Workbench.Exposure
open Workbench.Lib Workbench.Risk Workbench.Orders

/-- An account, its gross cap and the price of each symbol row. -/
structure Setting where
  accountId : Nat
  cap : ℚ
  price : Nat → ℚ
  capPos : 0 < cap
  pricePos : ∀ i, 0 < price i

/-- The broker's side of the account: the quantity held of each symbol, and for each order what is
    still open and what was executed. -/
structure Broker where
  held : Nat → ℚ
  remaining : Nat → ℚ := fun _ => 0
  executed : Nat → ℚ := fun _ => 0

/-- A request that passed and is not persisted yet. -/
structure PassedRequest where
  req : OrderRequest
  outcome : RiskOutcome

/-- The database, the broker, the passed requests in flight and the reports sync passes have read. -/
structure State where
  db : Db
  broker : Broker
  passed : List PassedRequest := []
  reports : List (List ReportedPosition) := []

/-- One commit, broker event or broker read. -/
inductive Label where
  | evaluate (env : Env) (req : OrderRequest) (tradingMode brokerMode : AccountMode)
  | persist (i : Nat) (now : Instant)
  | verdict (order : Nat) (now : Instant)
  | submitted (order : Nat) (brokerOrderId : String) (now : Instant)
  | execute (order : Nat) (qty : ℚ)
  | deliver (payload : Payload) (now : Instant)
  | recompute (symbolId : Nat)
  | syncRead
  | syncWrite (i : Nat)

/-- A BUY of the account under the cap, priced: a limit order at its limit, any other at the constant
    price. -/
def admissible (σ : Setting) (db : Db) (env : Env) (req : OrderRequest) (brokerMode : AccountMode) :
    Bool :=
  req.accountId = σ.accountId && req.side = .buy &&
    (loadGlobalLimits db req.userId brokerMode).all (·.maxGrossExposure = some σ.cap) &&
    (needsLimit req.type ||
      (db.symbols.findIdx? fun s => s.ticker = req.symbolTicker ∧ s.active).all fun i =>
        referencePrice env req = some (σ.price i))

def Setting.buys (σ : Setting) (order : Order) : Bool :=
  order.accountId = σ.accountId ∧ order.side = .buy

/-- What `get_positions` reports. -/
def report (σ : Setting) (s : State) : List ReportedPosition :=
  (s.db.symbols.zipIdx.filter fun x => s.broker.held x.2 ≠ 0).map fun x =>
    { symbol := x.1.ticker, qty := s.broker.held x.2, marketValue := σ.price x.2 * s.broker.held x.2 }

/-- The broker executes `qty` of an order. -/
def Broker.execute (b : Broker) (o symbolId : Nat) (qty : ℚ) : Broker where
  held := Function.update b.held symbolId (b.held symbolId + qty)
  remaining := Function.update b.remaining o (b.remaining o - qty)
  executed := Function.update b.executed o (b.executed o + qty)

/-- The broker may execute `qty` of the order now. -/
def executable (σ : Setting) (b : Broker) (o : Nat) (order : Order) (qty : ℚ) : Prop :=
  σ.buys order = true ∧ 0 < qty ∧ qty ≤ b.remaining o ∧
    σ.price order.symbolId * order.qty ≤ order.estimatedNotional.getD 0

instance {σ : Setting} {b : Broker} {o : Nat} {order : Order} {qty : ℚ} :
    Decidable (executable σ b o order qty) :=
  inferInstanceAs (Decidable (_ ∧ _))

def step (σ : Setting) (s : State) : Label → Option State
  | .evaluate env req tradingMode brokerMode =>
    if admissible σ s.db env req brokerMode then
      let (db, outcome) := evaluate env s.db req tradingMode brokerMode
      some { s with db, passed := if outcome.passed then s.passed ++ [⟨req, outcome⟩] else s.passed }
    else none
  | .persist i now =>
    match s.passed[i]? with
    | none => none
    | some x =>
      match resolveSymbolId s.db x.req x.outcome with
      | none => none
      | some symbolId =>
        some { s with
          db := insertOrder s.db (initialOrder x.req x.outcome symbolId now)
          broker := { s.broker with
            remaining := Function.update s.broker.remaining s.db.orders.length x.req.qty }
          passed := s.passed.eraseIdx i }
  | .verdict o now => some { s with db := writeVerdict s.db o true now }
  | .submitted o brokerOrderId now => some { s with db := writeSubmitted s.db o brokerOrderId now }
  | .execute o qty =>
    match s.db.orders[o]? with
    | none => none
    | some order =>
      if executable σ s.broker o order qty then
        some { s with broker := s.broker.execute o order.symbolId qty }
      else none
  | .deliver payload now =>
    some { s with db := ((handle s.db payload).map (Pending.write s.db now)).getD s.db }
  | .recompute symbolId => some { s with db := Orders.recompute s.db σ.accountId symbolId }
  | .syncRead => some { s with reports := s.reports ++ [report σ s] }
  | .syncWrite i =>
    match s.reports[i]? with
    | none => none
    | some reported =>
      some { s with
        db := syncAccount s.db σ.accountId reported
        reports := s.reports.eraseIdx i }

def system (σ : Setting) : Machine State Label := ⟨step σ⟩

/-! ## Exposure -/

/-- The total market value of what the broker holds for the account. -/
def marketValue (σ : Setting) (s : State) : ℚ :=
  Table.total (fun i => σ.price i * s.broker.held i) (List.range s.db.symbols.length)

def unfilled (σ : Setting) (b : Broker) (x : Order × Nat) : ℚ :=
  if σ.buys x.1 then x.1.estimatedNotional.getD 0 * (b.remaining x.2 / x.1.qty) else 0

/-- The market value of the positions and the unfilled notional of every BUY that passed. -/
def exposure (σ : Setting) (s : State) : ℚ :=
  marketValue σ s + Table.total (unfilled σ s.broker) s.db.orders.zipIdx +
    Table.total (fun x : PassedRequest => x.outcome.estimatedNotional.getD 0) s.passed

/-! ## The condition -/

/-- A BUY of the account that step 8 still counts as in flight. -/
def Setting.pending (σ : Setting) (order : Order) : Bool :=
  σ.buys order && !order.status.terminal

/-- What was executed of a symbol's BUYs that are still in flight locally, at the constant price. -/
def executedPending (σ : Setting) (s : State) (symbolId : Nat) : ℚ :=
  Table.total (fun x : Order × Nat =>
    if σ.pending x.1 ∧ x.1.symbolId = symbolId then σ.price symbolId * s.broker.executed x.2 else 0)
    s.db.orders.zipIdx

def storedValue (σ : Setting) (s : State) (symbolId : Nat) : ℚ :=
  ((s.db.positions.get (σ.accountId, symbolId)).map fun p => |p.marketValue|).getD 0

/-- The database has caught up with the account: no passed BUY waits for its insert, the stored market
    value of each symbol covers what is held of it beyond the executions of BUYs in flight, and no BUY
    that is over locally is still open at the broker. -/
structure CaughtUp (σ : Setting) (s : State) : Prop where
  inserted : s.passed = []
  valued : ∀ i < s.db.symbols.length,
    σ.price i * s.broker.held i ≤ storedValue σ s i + executedPending σ s i
  closed : ∀ x ∈ s.db.orders.zipIdx, σ.buys x.1 = true → x.1.status.terminal = true →
    s.broker.remaining x.2 = 0

instance {σ : Setting} {s : State} : Decidable (CaughtUp σ s) :=
  decidable_of_iff (s.passed.isEmpty = true ∧
      (∀ i < s.db.symbols.length,
        σ.price i * s.broker.held i ≤ storedValue σ s i + executedPending σ s i) ∧
      ∀ x ∈ s.db.orders.zipIdx, σ.buys x.1 = true → x.1.status.terminal = true →
        s.broker.remaining x.2 = 0)
    ⟨fun h => ⟨List.isEmpty_iff.1 h.1, h.2.1, h.2.2⟩,
      fun h => ⟨List.isEmpty_iff.2 h.1, h.2, h.3⟩⟩

/-- Every evaluation meets a database that has caught up. -/
def Timely (σ : Setting) (s : State) : Label → Prop
  | .evaluate .. => CaughtUp σ s
  | _ => True

instance {σ : Setting} {s : State} : ∀ {l : Label}, Decidable (Timely σ s l)
  | .evaluate .. => inferInstanceAs (Decidable (CaughtUp σ s))
  | .persist .. | .verdict .. | .submitted .. | .execute .. | .deliver .. | .recompute _ | .syncRead
  | .syncWrite _ => isTrue trivial

end Workbench.Exposure
