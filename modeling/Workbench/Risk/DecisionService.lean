import Workbench.Risk.AccountSnapshot

/-!
# The decision service

Model of `app/risk/decision_service.py`. `RiskDecisionService.decide` has two phases, and they are
two definitions: `decisionSnapshot` is everything it reads (the HELD reservations, the broker, the
local fills), `decideWrite` is its write transaction (`_refresh_capacity`, `_claim_capacity`, the
reservation and the ledger row, one commit). `decide` is the two run back to back.

The three ways a reservation leaves HELD split the same way: a read that selects rows
(`releaseReservation`, `settleReservationForOrder`, `reapOrphanedReservations` each return the
`SettleItem`s they are about to write) and `settleWrite`, which writes them and returns their
capacity in one commit. Nothing in the write looks at the state column again.

Python → Lean naming: `_refresh_capacity` / `_claim_capacity` / `_return_capacity` → `refreshCapacity` /
`claimCapacity` / `returnCapacity`.
-/

namespace Workbench.Risk
open Workbench.Lib List Dict Table
variable {db : Db}

/-! ## What a decision reads -/

def heldRows (db : Db) (accountId : Nat) : List RiskReservation :=
  db.reservations.filter fun r => r.accountId = accountId ∧ r.state = .held

/-- Python `_reserved_by_symbol`. -/
def reservedBySymbol (db : Db) (accountId : Nat) : Dict String ℚ :=
  Dict.groupBy (·.symbol) (fun total r => total.getD 0 + r.qty) (heldRows db accountId)

/-- One row of the absorption query: a HELD reservation with an anchor, joined to its fills. -/
structure AbsorptionRow where
  key : String
  qty : ℚ
  anchor : ℚ
  filled : ℚ

/-- The absorption row of a reservation; one without an anchor contributes nothing. -/
def absorptionRow (db : Db) (r : RiskReservation) : Option AbsorptionRow :=
  r.positionQtyAtReservation.map fun anchor =>
    ⟨upper r.symbol, r.qty, anchor, (r.orderId.map db.filledQty).getD 0⟩

/-- The fills of a reservation, capped at its own quantity. -/
def AbsorptionRow.capped (r : AbsorptionRow) : ℚ := min r.qty (max 0 r.filled)

/-- Python `_absorbed_reserved_fill_by_symbol`. -/
def absorbedReservedFillBySymbol (snap : AccountSnapshot) (db : Db) (accountId : Nat) :
    Dict String ℚ :=
  let rows := (heldRows db accountId).filterMap (absorptionRow db)
  let fills := Dict.groupBy (·.key) (fun total r => total.getD 0 + r.capped) rows
  let reserved := Dict.groupBy (·.key) (fun total r => total.getD 0 + r.qty) rows
  let anchors := Dict.groupBy (·.key) (fun least r => (least.map (min · r.anchor)).getD r.anchor) rows
  fills.mapMaybe fun key filledTotal =>
    let current := snap.positionQty key
    let observedReduction := max 0 ((anchors.get key).getD 0 - current)
    let absorbed := min (min filledTotal observedReduction) ((reserved.get key).getD 0)
    if 0 < absorbed then some absorbed else none

/-- The snapshot `decide` classifies: one broker read against one state of the database. -/
def decisionSnapshot (db : Db) (accountId : Nat) (read : Option BrokerRead) : AccountSnapshot :=
  let snap := fetchSnapshot db accountId read (reservedBySymbol db accountId)
  { snap with absorbedReservedFillQty := absorbedReservedFillBySymbol snap db accountId }

/-! ## The capacity row -/

/-- Python `_refresh_capacity`. -/
def refreshCapacity (db : Db) (accountId : Nat) (symbol : String) (snap : AccountSnapshot) : Db :=
  let capacity := claimableReducibleQuantity snap symbol
  let version := snap.stateHash
  { db with
    capacity := db.capacity.set (accountId, symbol) <|
      match db.capacity.get (accountId, symbol) with
      | some row => { row with reducibleCapacityQty := capacity, snapshotVersion := version }
      | none => ⟨version, capacity, 0, 0⟩ }

/-- Python `_claim_capacity`: the new database and capacity version, `none` when refused. -/
def claimCapacity (db : Db) (accountId : Nat) (symbol : String) (qty : ℚ)
    (expectedVersion : StateHash) : Option (Db × Nat) :=
  match db.capacity.get (accountId, symbol) with
  | none => none
  | some row =>
    if row.snapshotVersion = expectedVersion ∧ row.reservedQty + qty ≤ row.reducibleCapacityQty then
      let row' := { row with
        reservedQty := row.reservedQty + qty, stateVersion := row.stateVersion + 1 }
      some ({ db with capacity := db.capacity.set (accountId, symbol) row' }, row'.stateVersion)
    else none

/-- Python `_return_capacity`. -/
def returnCapacity (db : Db) (accountId : Nat) (symbol : String) (qty : ℚ) : Db :=
  match db.capacity.get (accountId, symbol) with
  | none => db
  | some row =>
    { db with
      capacity := db.capacity.set (accountId, symbol) { row with
        reservedQty := max (row.reservedQty - qty) 0, stateVersion := row.stateVersion + 1 } }

/-! ## The write transaction of a decision -/

/-- Python `_deny_for_capacity`. -/
def denyForCapacity (result : RiskEffectDecision) : RiskEffectDecision :=
  { result with
    riskEffect := .riskIncreasing
    decision := .reject
    reasons := result.reasons ++ [.exceedsReducibleCapacity] }

/-- What a caller of `decide` supplies for the ledger row. -/
structure DecideArgs where
  lockState : LockState := .unlocked
  lockReason : Option String := none
  dailyPnl : Option ℚ := none

/-- What `decide` returns: the decision, the ledger id and the reservation id. -/
structure DecideResult where
  result : RiskEffectDecision
  ledgerId : Nat
  reservationId : Option Nat

def writeLedger (db : Db) (accountId : Nat) (action : ProposedAction) (args : DecideArgs)
    (result : RiskEffectDecision) (version : Option Nat) : Db :=
  { db with ledger := db.ledger ++
    [⟨accountId, action, args.lockState, args.lockReason, args.dailyPnl, result, version⟩] }

/-- The reservation a granted claim inserts, linked to the ledger row that follows it. -/
def newReservation (db : Db) (accountId : Nat) (symbol : String) (qty : ℚ) (snap : AccountSnapshot)
    (now : Instant) : RiskReservation where
  accountId := accountId
  symbol := symbol
  qty := qty
  decisionId := some db.ledger.length
  positionQtyAtReservation := (snap.positions.get symbol).map (·.qty)
  createdAt := now

/-- The write transaction of `decide`. -/
def decideWrite (db : Db) (accountId : Nat) (snap : AccountSnapshot) (action : ProposedAction)
    (args : DecideArgs) (now : Instant) : Db × DecideResult :=
  let symbol := upper action.symbol
  let result := classify snap action
  match result.isVerifiedReduction, action.qty with
  | true, some qty =>
    let db := refreshCapacity db accountId symbol snap
    match claimCapacity db accountId symbol qty snap.stateHash with
    | none =>
      let denied := denyForCapacity result
      (writeLedger db accountId action args denied none, ⟨denied, db.ledger.length, none⟩)
    | some (db, version) =>
      let reserved := { db with
        reservations := db.reservations ++ [newReservation db accountId symbol qty snap now] }
      (writeLedger reserved accountId action args result (some version),
        ⟨result, db.ledger.length, some db.reservations.length⟩)
  | _, _ => (writeLedger db accountId action args result none, ⟨result, db.ledger.length, none⟩)

/-- Python `RiskDecisionService.decide`, its reads and its write back to back. -/
def decide (db : Db) (accountId : Nat) (read : Option BrokerRead) (action : ProposedAction)
    (args : DecideArgs) (now : Instant) : Db × DecideResult :=
  decideWrite db accountId (decisionSnapshot db accountId read) action args now

/-- Python `permits_while_locked`. -/
def permitsWhileLocked (result : RiskEffectDecision) : Bool :=
  result.riskEffect = .riskReducing ∧ result.decision = .allow

/-! ## Leaving HELD -/

/-- A reservation row as a settler loaded it, with the state and reason it is about to write. -/
structure SettleItem where
  id : Nat
  row : RiskReservation
  state : ReservationState
  reason : String

/-- The read of Python `release_reservation`. -/
def releaseReservation (db : Db) (reservationId : Option Nat) (reason : String) : List SettleItem :=
  match reservationId with
  | none => []
  | some i =>
    match db.reservations[i]? with
    | none => []
    | some row =>
      if row.state ≠ .held then [] else [⟨i, row, .released, (reason.take 64).toString⟩]

/-- The read of Python `settle_reservation_for_order`: the first HELD reservation of the order. -/
def settleReservationForOrder (db : Db) (orderId : Nat) (filled : Bool) (reason : String) :
    List SettleItem :=
  match db.reservations.findIdx? fun r => r.orderId = some orderId ∧ r.state = .held with
  | none => []
  | some i =>
    match db.reservations[i]? with
    | none => []
    | some row => [⟨i, row, if filled then .consumed else .released, (reason.take 64).toString⟩]

/-- Why `reap_orphaned_reservations` releases a HELD reservation, `none` when it keeps it. -/
def reapReason (db : Db) (cutoff : Int) (r : RiskReservation) : Option String :=
  match r.orderId with
  | none => if (r.createdAt : Int) < cutoff then some "REAP_NO_ORDER" else none
  | some o =>
    match db.orders[o]? with
    | none => some "REAP_ORDER_MISSING"
    | some order => if order.status.terminal then some "REAP_ORDER_TERMINAL" else none

/-- The read of Python `reap_orphaned_reservations`. -/
def reapOrphanedReservations (db : Db) (now : Instant) (olderThanSeconds : Nat := 300) :
    List SettleItem :=
  let cutoff : Int := now - olderThanSeconds * 1000000
  (db.reservations.zipIdx.filter (·.1.state = .held)).filterMap fun (row, i) =>
    (reapReason db cutoff row).map fun reason => ⟨i, row, .released, reason⟩

/-- Write one settled reservation and return its capacity. -/
def settleItem (db : Db) (item : SettleItem) : Db :=
  let written := { db with
    reservations := Table.amend item.id
      (fun r => { r with state := item.state, releaseReason := some item.reason }) db.reservations }
  returnCapacity written item.row.accountId item.row.symbol item.row.qty

def settleWrite (db : Db) (items : List SettleItem) : Db := items.foldl settleItem db

lemma settleItem_reservations {it : SettleItem} : (settleItem db it).reservations = Table.amend it.id
      (fun r => { r with state := it.state, releaseReason := some it.reason }) db.reservations := by
  unfold settleItem returnCapacity
  dsimp only
  split <;> rfl

lemma settleItem_frame {it : SettleItem} : settleItem db it = { db with
      reservations := (settleItem db it).reservations, capacity := (settleItem db it).capacity } := by
  unfold settleItem returnCapacity
  dsimp only
  split <;> rfl

@[simp] lemma settleWrite_orders {items : List SettleItem} : (settleWrite db items).orders = db.orders := by
  induction items generalizing db with
  | nil => rfl
  | cons it items ih =>
    refine ih.trans ?_
    rw [settleItem_frame]

@[simp] lemma settleWrite_fills {items : List SettleItem} : (settleWrite db items).fills = db.fills := by
  induction items generalizing db with
  | nil => rfl
  | cons it items ih =>
    refine ih.trans ?_
    rw [settleItem_frame]

/-! ## What the absorption credits -/

section Absorption

variable {snap : AccountSnapshot} {db : Db} {a : Nat} {sym : String}

def absorptionRowsOf (db : Db) (accountId : Nat) (sym : String) : List AbsorptionRow :=
  ((heldRows db accountId).filterMap (absorptionRow db)).filter (·.key = sym)

/-- The smallest anchor of some absorption rows. -/
def leastAnchor (rows : List AbsorptionRow) : Option ℚ := (rows.map (·.anchor)).min?

/-- The credit of a symbol whose smallest anchor is known: the fills, the movement of the position and
    the reserved quantity, whichever is least. -/
def credit (snap : AccountSnapshot) (sym : String) (rows : List AbsorptionRow) (anchor : ℚ) : ℚ :=
  min (min (Table.total (·.capped) rows) (max 0 (anchor - snap.positionQty sym)))
    (Table.total (·.qty) rows)

lemma absorbed_get : ((absorbedReservedFillBySymbol snap db a).get sym).getD 0 =
    ((leastAnchor (absorptionRowsOf db a sym)).map
      fun anchor => max 0 (credit snap sym (absorptionRowsOf db a sym) anchor)).getD 0 := by
  rw [absorbedReservedFillBySymbol, get_mapMaybe]
  simp only [get_groupBy, getD_foldl_sum, foldl_least]
  rw [← absorptionRowsOf, leastAnchor]
  cases rows : absorptionRowsOf db a sym with
  | nil => rfl
  | cons r rest =>
    obtain ⟨total, e⟩ : ∃ x, (r :: rest).foldl
        (fun o r => some (o.getD 0 + AbsorptionRow.capped r)) none = some x := by
      induction rest using List.reverseRecOn with
      | nil => exact ⟨_, rfl⟩
      | append_singleton rest r' _ => rw [← cons_append, foldl_append]; exact ⟨_, rfl⟩
    have sum := @getD_foldl_sum _ AbsorptionRow.capped (r :: rest)
    rw [e, Option.getD_some] at sum
    rw [e, Option.bind_some, sum, map_cons, min?_cons', Option.map_some, Option.getD_some,
      Option.getD_some]
    simp only [credit]
    split
    · rename_i pos; rw [max_eq_right pos.le, Option.getD_some]
    · rename_i neg; rw [max_eq_left (not_lt.1 neg), Option.getD_none]

end Absorption

/-! ## What the operations do to the accumulator -/

section Accumulator

variable {db : Db} {a a' : Nat} {sym sym' : String} {q : ℚ} {snap : AccountSnapshot}
variable {action : ProposedAction} {args : DecideArgs} {now : Instant}

lemma reservedBySymbol_get : ((reservedBySymbol db a).get sym).getD 0 = db.heldQty a sym := by
  rw [reservedBySymbol, get_groupBy, getD_foldl_sum, heldRows, filter_filter,
    total_filter]
  refine total_congr fun r _ => ?_
  simp only [RiskReservation.heldFor, Bool.decide_and, Bool.and_eq_true, decide_eq_true_eq]
  grind

@[simp] lemma refreshCapacity_reservedQty :
    (refreshCapacity db a sym snap).reservedQty a' sym' = db.reservedQty a' sym' := by
  simp only [Db.reservedQty, refreshCapacity, get_set]
  split
  · rename_i eq
    obtain ⟨rfl, rfl⟩ := Prod.mk.inj eq
    cases db.capacity.get (a', sym') <;> rfl
  · rfl

@[simp] lemma writeLedger_reservedQty {result : RiskEffectDecision} {version : Option Nat} :
    (writeLedger db a action args result version).reservedQty a' sym = db.reservedQty a' sym :=
  rfl

lemma claimCapacity_refreshCapacity :
    (∃ db' v, claimCapacity (refreshCapacity db a sym snap) a sym q snap.stateHash = some (db', v)) ↔
      db.reservedQty a sym + q ≤ claimableReducibleQuantity snap sym := by
  simp only [claimCapacity, refreshCapacity, get_set_self, Db.reservedQty]
  cases db.capacity.get (a, sym) with
  | none => simp only [Option.map_none, Option.getD_none]; split <;> simp_all
  | some row => simp only [Option.map_some, Option.getD_some]; split <;> simp_all

lemma claimCapacity_reservedQty {db' : Db} {v : Nat} {hash : StateHash}
    (e : claimCapacity db a sym q hash = some (db', v)) :
    db'.reservedQty a' sym' = db.reservedQty a' sym' + if (a', sym') = (a, sym) then q else 0 := by
  unfold claimCapacity at e
  split at e
  · cases e
  · rename_i row get
    split at e
    · cases e
      simp only [Db.reservedQty, get_set]
      split
      · rename_i eq
        rw [eq, get]
        rfl
      · simp
    · cases e

lemma claimCapacity_frame {db' : Db} {v : Nat} {hash : StateHash}
    (e : claimCapacity (refreshCapacity db a sym snap) a sym q hash = some (db', v)) :
    db' = { db with capacity := db'.capacity } := by
  unfold claimCapacity at e
  split at e
  · cases e
  · split at e <;> cases e
    rfl

lemma returnCapacity_reservedQty (nonneg : 0 ≤ q) :
    (returnCapacity db a sym q).reservedQty a' sym' = if (a', sym') = (a, sym) then max (db.reservedQty a sym - q) 0
      else db.reservedQty a' sym' := by
  unfold returnCapacity
  split
  · rename_i get
    split
    · rename_i eq
      rw [(Prod.mk.inj eq).1, (Prod.mk.inj eq).2]
      simp only [Db.reservedQty, get, Option.map_none, Option.getD_none]
      rw [max_eq_right]
      linarith
    · rfl
  · rename_i row get
    simp only [Db.reservedQty, get_set, get]
    split <;> rfl

end Accumulator

/-! ## What a decision writes -/

section Decide

variable {db : Db} {a a' : Nat} {sym : String} {snap : AccountSnapshot}
variable {action : ProposedAction} {args : DecideArgs} {now : Instant}

/-- The quantity a decision reserves: the classifier verified the reduction and the guard passed. -/
def grantedQty (db : Db) (accountId : Nat) (snap : AccountSnapshot) (action : ProposedAction) :
    Option ℚ :=
  action.qty.filter fun q =>
    (classify snap action).isVerifiedReduction ∧
      db.reservedQty accountId (upper action.symbol) + q ≤
        claimableReducibleQuantity snap (upper action.symbol)

lemma decideWrite_cases (db : Db) (a : Nat) (snap : AccountSnapshot) (action : ProposedAction)
    (args : DecideArgs) (now : Instant) :
    (∃ q db' v, grantedQty db a snap action = some q ∧
      claimCapacity (refreshCapacity db a (upper action.symbol) snap) a (upper action.symbol) q
        snap.stateHash = some (db', v) ∧ decideWrite db a snap action args now =
        (writeLedger { db' with
            reservations := db'.reservations ++
              [newReservation db' a (upper action.symbol) q snap now] }
          a action args (classify snap action) (some v),
        ⟨classify snap action, db'.ledger.length, some db'.reservations.length⟩)) ∨
    (grantedQty db a snap action = none ∧ ∃ db' result,
      (db' = db ∨ db' = refreshCapacity db a (upper action.symbol) snap) ∧
      decideWrite db a snap action args now =
        (writeLedger db' a action args result none, ⟨result, db'.ledger.length, none⟩)) := by
  simp only [decideWrite, grantedQty]
  cases vr : (classify snap action).isVerifiedReduction with
  | false =>
    right
    refine ⟨by simp, db, classify snap action, .inl rfl, rfl⟩
  | true =>
    cases action.qty with
    | none => exact .inr ⟨rfl, db, classify snap action, .inl rfl, rfl⟩
    | some q =>
      have guard := @claimCapacity_refreshCapacity db a (upper action.symbol) q snap
      cases claim : claimCapacity (refreshCapacity db a (upper action.symbol) snap) a
          (upper action.symbol) q snap.stateHash with
      | none =>
        right
        have refused := fun h => (guard.2 h)
        simp only [claim, reduceCtorEq, exists_const, exists_false, imp_false] at refused
        refine ⟨by simpa using not_le.1 refused, _, denyForCapacity (classify snap action), .inr rfl, ?_⟩
        simp only [claim]
      | some granted =>
        obtain ⟨db', v⟩ := granted
        have passed := guard.1 ⟨db', v, claim⟩
        exact .inl ⟨q, db', v, by simp [passed], claim, by simp only [claim]⟩

lemma decideWrite_frame : ∃ c r l, (decideWrite db a snap action args now).1 =
    { db with capacity := c, reservations := r, ledger := l } := by
  rcases decideWrite_cases db a snap action args now with ⟨q, db', v, -, claim, e⟩ | ⟨-, db', result, rfl | rfl, e⟩
  · rw [claimCapacity_frame claim] at e
    exact ⟨_, _, _, by rw [e]; rfl⟩
  · exact ⟨_, _, _, by rw [e]; rfl⟩
  · exact ⟨_, _, _, by rw [e]; rfl⟩

lemma decideWrite_reservations : (decideWrite db a snap action args now).1.reservations =
    db.reservations ++ ((grantedQty db a snap action).map
      (newReservation db a (upper action.symbol) · snap now)).toList := by
  rcases decideWrite_cases db a snap action args now with ⟨q, db', v, g, claim, e⟩ | ⟨g, db', result, rfl | rfl, e⟩
  · rw [claimCapacity_frame claim] at e
    rw [e, g]
    rfl
  · simp [e, g, writeLedger]
  · simp [e, g, writeLedger, refreshCapacity]

lemma decideWrite_reservationId : (decideWrite db a snap action args now).2.reservationId =
    (grantedQty db a snap action).map fun _ => db.reservations.length := by
  rcases decideWrite_cases db a snap action args now with
    ⟨q, db', v, g, claim, e⟩ | ⟨g, db', result, -, e⟩
  · rw [claimCapacity_frame claim] at e
    rw [e, g]
    rfl
  · rw [e, g]
    rfl

lemma decideWrite_permits {q : ℚ} (qty : action.qty = some q) :
    permitsWhileLocked (decideWrite db a snap action args now).2.result = (grantedQty db a snap action).isSome := by
  simp only [decideWrite, grantedQty, qty]
  cases vr : (classify snap action).isVerifiedReduction with
  | false => simpa using (show permitsWhileLocked (classify snap action) = false from vr)
  | true =>
    have guard := @claimCapacity_refreshCapacity db a (upper action.symbol) q snap
    cases claim : claimCapacity (refreshCapacity db a (upper action.symbol) snap) a
        (upper action.symbol) q snap.stateHash with
    | none =>
      have refused := fun h => (guard.2 h)
      simp only [claim, reduceCtorEq, exists_const, exists_false, imp_false] at refused
      simp [claim, permitsWhileLocked, denyForCapacity, Option.filter_some, refused]
    | some granted =>
      have passed := guard.1 ⟨granted.1, granted.2, claim⟩
      simpa [claim, Option.filter_some, passed] using
        (show permitsWhileLocked (classify snap action) = true from vr)

lemma decideWrite_reservedQty : (decideWrite db a snap action args now).1.reservedQty a' sym = db.reservedQty a' sym +
      if (a', sym) = (a, upper action.symbol) then (grantedQty db a snap action).getD 0 else 0 := by
  rcases decideWrite_cases db a snap action args now with ⟨q, db', v, g, claim, e⟩ | ⟨g, db', result, rfl | rfl, e⟩
  · have moved := @claimCapacity_reservedQty _ a a' _ sym _ _ _ _ claim
    rw [refreshCapacity_reservedQty] at moved
    rw [e, g]
    exact moved
  · simp [e, g]
  · simp [e, g]

end Decide

end Workbench.Risk
