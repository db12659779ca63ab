import Workbench.Risk.LossControl.DailyLoss

/-!
# The circuit breaker

Model of `CircuitBreakerService` (`app/risk/circuit_breaker.py`): the account-scoped breaker, its
daily P&L, and the two paths that trip it, `check` (an order is attempted) and `evaluate` (the
periodic monitor, `monitor` here).

`check` and `evaluate` read the same things in the same order; `breakerReading` is that reading, and
the two differ in what they make of it. The HALT that a trip puts on the account's strategies, the
audit row and the bus event are not part of this model.
-/

namespace Workbench.Risk
open Workbench.Lib Workbench.Risk.LossControl

/-- Python `_market_open_utc_today`: 14:30 UTC today, or yesterday's when that is still to come. -/
def marketOpenUtcToday (now : Instant) : Int :=
  let day : Nat := 86400000000
  let opened : Nat := now / day * day + 52200000000
  if now < opened then (opened : Int) - day else opened

/-- Python `_get_active_limits`. -/
def getActiveLimits (db : Db) (account : Account) : Option RiskLimits :=
  db.riskLimits.find? fun l =>
    l.userId = account.userId ∧ l.brokerMode = account.mode ∧ l.scopeType = .global

/-! ## Profit and loss -/

/-- One row of the realized-P&L query: a fill joined to its order. -/
structure FillRow where
  symbolId : Nat
  side : OrderSide
  qty : ℚ
  price : ℚ
  filledAt : Instant

/-- The fills of an account, oldest first; equal instants keep the order of the fill ids. -/
def fillHistory (db : Db) (accountId : Nat) : List FillRow :=
  let rows := db.fills.filterMap fun f =>
    (db.orders[f.orderId]?).bind fun o =>
      if o.accountId = accountId then some ⟨o.symbolId, o.side, f.qty, f.price, f.filledAt⟩ else none
  rows.insertionSort fun r r' => r.filledAt ≤ r'.filledAt

/-- The running average cost and quantity of each symbol, and what the sells of today realized. -/
structure CostBook where
  avgCost : Dict Nat ℚ := .empty
  qtyHeld : Dict Nat ℚ := .empty
  realizedToday : ℚ := 0

def CostBook.book (marketOpen : Int) (book : CostBook) (row : FillRow) : CostBook :=
  let held := (book.qtyHeld.get row.symbolId).getD 0
  match row.side with
  | .buy =>
    let newHeld := held + row.qty
    let avgCost :=
      -- a buy that covers a short leaves the cost basis alone
      if 0 ≤ held ∧ 0 < newHeld then
        let prior := (book.avgCost.get row.symbolId).getD 0
        book.avgCost.set row.symbolId ((prior * held + row.price * row.qty) / newHeld)
      else book.avgCost
    { book with avgCost, qtyHeld := book.qtyHeld.set row.symbolId newHeld }
  | .sell =>
    let cost := (book.avgCost.get row.symbolId).getD 0
    { book with
      qtyHeld := book.qtyHeld.set row.symbolId (held - row.qty)
      realizedToday :=
        if marketOpen ≤ row.filledAt then book.realizedToday + (row.price - cost) * row.qty
        else book.realizedToday }

/-- Python `_compute_realized_pnl_today`. -/
def computeRealizedPnlToday (db : Db) (accountId : Nat) (now : Instant) : ℚ :=
  ((fillHistory db accountId).foldl (CostBook.book (marketOpenUtcToday now)) {}).realizedToday

/-- Python `_compute_unrealized_pnl`. -/
def computeUnrealizedPnl (db : Db) (accountId : Nat) : ℚ :=
  Table.total (fun e : (Nat × Nat) × Position => if e.1.1 = accountId then e.2.unrealizedPl else 0)
    db.positions.entries

/-- Python `_compute_daily_pnl`: today's P&L, and the Model A observation when one governs. -/
def computeDailyPnl (settings : Settings) (clock : Clock) (db : Db) (accountId : Nat)
    (cumulative : Cumulative) : Option ℚ × Option DailyLossObservation :=
  let state := db.accountStates.get accountId
  let currentEquity := state.map (·.equity)
  match observeModelADailyLoss db accountId currentEquity clock.sessionDate with
  | some modelA => (if modelA.status = .available then modelA.dailyPnl else none, some modelA)
  | none =>
    if settings.sessionBaselineEnforcementEnabled then
      let basis := selectDailyLossBasis db accountId currentEquity (state.map (·.lastEquity))
        (some cumulative) clock.sessionDate
      (some (basis.dayChange.getD (cumulative.realized + cumulative.unrealized)), none)
    else match state with
      | some s =>
        if 0 < s.lastEquity then (some (s.equity - s.lastEquity), none)
        else (some (cumulative.realized + cumulative.unrealized), none)
      | none => (some (cumulative.realized + cumulative.unrealized), none)

/-! ## Tripping and checking -/

/-- What the breaker finds for an account. -/
inductive BreakerReading where
  | missing
  | tripped
  | unlimited
  | basisUnavailable (status : ObservationStatus)
  | healthy
  | breached
  deriving DecidableEq, Repr

/-- The reads that `check` and `evaluate` of the source share. -/
def breakerReading (settings : Settings) (clock : Clock) (db : Db) (accountId : Nat) :
    BreakerReading :=
  match db.accounts.get accountId with
  | none => .missing
  | some account =>
    if account.circuitBreakerTrippedAt.isSome then .tripped
    else match (getActiveLimits db account).bind (·.maxDailyLoss) with
      | none => .unlimited
      | some maxLoss =>
        let cumulative : Cumulative :=
          ⟨computeRealizedPnlToday db accountId clock.now, computeUnrealizedPnl db accountId⟩
        let (dailyPnl, modelA) := computeDailyPnl settings clock db accountId cumulative
        match modelA.filter (·.status ≠ .available) with
        | some modelA => .basisUnavailable modelA.status
        | none => if dailyPnl.any (· ≤ -maxLoss) then .breached else .healthy

/-- Python `CircuitBreakerService.trip`. -/
def trip (db : Db) (accountId : Nat) (now : Instant) : Db :=
  match db.accounts.get accountId with
  | none => db
  | some account =>
    if account.circuitBreakerTrippedAt.isSome then db
    else { db with
      accounts := db.accounts.set accountId { account with circuitBreakerTrippedAt := some now } }

/-- Python `CircuitBreakerError`. -/
structure CircuitBreakerError where
  tripRecorded : Bool := true
  deriving DecidableEq, Repr

/-- What `check` raises for a reading. -/
def BreakerReading.error : BreakerReading → Option CircuitBreakerError
  | .missing | .tripped | .breached => some {}
  | .basisUnavailable status =>
    if mapSurfaceAction status .newRisk = .reject then some { tripRecorded := false } else none
  | .unlimited | .healthy => none

/-- Python `CircuitBreakerService.check`: the database it leaves and the error it raises. -/
def check (settings : Settings) (clock : Clock) (db : Db) (accountId : Nat) :
    Db × Option CircuitBreakerError :=
  let reading := breakerReading settings clock db accountId
  (if reading = .breached then trip db accountId clock.now else db, reading.error)

/-- Why a reset is refused. -/
inductive ResetError where
  | accountNotFound
  | notOwner
  | confirmationMismatch
  deriving DecidableEq, Repr

/-- Python `CircuitBreakerService.reset`. -/
def reset (db : Db) (accountId userId : Nat) (confirmationText : String) : Except ResetError Db :=
  match db.accounts.get accountId with
  | none => .error .accountNotFound
  | some account =>
    if account.userId ≠ userId then .error .notOwner
    else if some confirmationText ≠ account.label then .error .confirmationMismatch
    else .ok { db with
      accounts := db.accounts.set accountId { account with circuitBreakerTrippedAt := none } }

/-! ## What the breaker touches -/

section Frame

variable {settings : Settings} {clock : Clock} {db : Db} {a : Nat}

lemma trip_frame {now : Instant} : ∃ accounts, trip db a now = { db with accounts := accounts } := by
  unfold trip
  split
  · exact ⟨db.accounts, rfl⟩
  · split
    · exact ⟨db.accounts, rfl⟩
    · exact ⟨_, rfl⟩

lemma check_frame : ∃ accounts, (check settings clock db a).1 = { db with accounts := accounts } := by
  unfold check
  dsimp only
  split
  · exact trip_frame
  · exact ⟨db.accounts, rfl⟩

end Frame

end Workbench.Risk
