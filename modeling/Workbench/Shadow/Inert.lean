import Workbench.Shadow.Alike

/-!
# SHADOW against OFF

One history of an account under loss-control mode SHADOW and under OFF: order requests are evaluated,
and between them orders are persisted and moved on, reservations linked and settled, fills delivered,
breakers reset and the broker's positions and account states synced. `system mode` runs such a history
and keeps the outcomes `RiskEngine.evaluate` returned.

The gate of SHADOW puts an order to the decision service when the persisted state depends on the
reduction verdict and no lock asked before, and a verified reduction then claims capacity that OFF
leaves free. `shadow_is_inert` is the law for the histories in which it does not.
-/

namespace Workbench.Shadow
open Workbench.Lib Workbench.Risk Workbench.Risk.LossControl Workbench.Orders List Table

/-- What happens to an account. -/
inductive Event where
  | request (env : Env) (req : OrderRequest) (tradingMode brokerMode : AccountMode)
  | persist (order : Order)
  | link (reservation order : Nat)
  | amend (order : Nat) (rewrite : Order → Order)
  | deliver (payload : Payload) (now : Instant)
  | settle (call : Capacity.SettleCall)
  | reset (accountId userId : Nat) (confirmationText : String)
  | sync (positions : Dict (Nat × Nat) Position) (accountStates : Dict Nat AccountState)

/-- The database and the outcomes returned so far. -/
structure State where
  db : Db
  outcomes : List RiskOutcome := []

def write (db : Db) : Event → Db
  | .request .. => db
  | .persist order => insertOrder db order
  | .link reservation order => linkReservation db reservation order
  | .amend order rewrite => amendOrder db order rewrite
  | .deliver payload now => ((handle db payload).map (Pending.write db now)).getD db
  | .settle call => settleWrite db (call.read db)
  | .reset accountId userId text => (reset db accountId userId text).toOption.getD db
  | .sync positions accountStates => { db with positions, accountStates }

def step (mode : LossControlMode) (s : State) : Event → Option State
  | .request env req tradingMode brokerMode =>
    let (db, outcome) := evaluate (withMode mode env) s.db req tradingMode brokerMode
    some ⟨db, s.outcomes ++ [outcome]⟩
  | event => some { s with db := write s.db event }

/-- The histories of an account under a loss-control mode. -/
def system (mode : LossControlMode) : Machine State Event := ⟨step mode⟩

/-! ## Settling -/

variable {db db' : Db}

/-- A settled row without the ledger row its reservation points to. -/
def bare (item : SettleItem) : SettleItem := { item with row := unlogged item.row }

lemma read_bare {call : Capacity.SettleCall} :
    (call.read db).map bare =
      call.read { db with reservations := db.reservations.map unlogged } := by
  cases call with
  | release i reason =>
    cases i with
    | none => rfl
    | some i =>
      simp only [Capacity.SettleCall.read, releaseReservation, getElem?_map]
      cases db.reservations[i]? with
      | none => rfl
      | some row =>
        show List.map bare (if row.state ≠ .held then _ else _) = if row.state ≠ .held then _ else _
        split <;> rfl
  | settle o filled reason =>
    have found : (db.reservations.map unlogged).findIdx?
        (fun r => r.orderId = some o ∧ r.state = .held) =
        db.reservations.findIdx? fun r => r.orderId = some o ∧ r.state = .held := by
      rw [findIdx?_map]
      rfl
    simp only [Capacity.SettleCall.read, settleReservationForOrder]
    rw [found]
    cases db.reservations.findIdx? fun r => r.orderId = some o ∧ r.state = .held with
    | none => rfl
    | some i =>
      dsimp only
      rw [getElem?_map]
      cases db.reservations[i]? <;> rfl
  | reap now older =>
    simp only [Capacity.SettleCall.read, reapOrphanedReservations]
    rw [zipIdx_map, filter_map, filterMap_map, map_filterMap]
    congr 1
    funext x
    show Option.map bare (Option.map _ _) = Option.map _ _
    rw [Option.map_map]
    rfl

lemma settleItem_alike {item item' : SettleItem} (h : Alike db db') (same : bare item' = bare item) :
    Alike (settleItem db item) (settleItem db' item') := by
  obtain ⟨_, _, _, reservations, rows, rfl⟩ := h
  have blind {it : SettleItem} {d : Db} : settleItem d (bare it) = settleItem d it := rfl
  rw [← @blind item, ← @blind item', same]
  unfold settleItem returnCapacity
  dsimp only
  generalize settled : (fun r : RiskReservation =>
    { r with state := (bare item).state, releaseReason := some (bare item).reason }) = f
  have comm (r : RiskReservation) : unlogged (f r) = f (unlogged r) := by
    rw [← settled]
    rfl
  have amended : (Table.amend (bare item).id f reservations).map unlogged =
      (Table.amend (bare item).id f db.reservations).map unlogged := by
    rw [map_amend comm, map_amend comm, rows]
  split
  · exact ⟨_, _, _, _, amended, rfl⟩
  · exact ⟨_, _, _, _, amended, rfl⟩

lemma settleWrite_alike {items items' : List SettleItem} (h : Alike db db') (same : items'.map bare = items.map bare) :
    Alike (settleWrite db items) (settleWrite db' items') := by
  induction items generalizing db db' items' with
  | nil =>
    cases map_eq_nil_iff.1 same
    exact h
  | cons item items ih =>
    obtain ⟨item', items', rfl, head, tail⟩ := map_eq_cons_iff.1 same
    show Alike (settleWrite (settleItem db item) items) (settleWrite (settleItem db' item') items')
    exact ih (settleItem_alike h head) tail

lemma settle_alike {call : Capacity.SettleCall} (h : Alike db db') :
    Alike (settleWrite db (call.read db)) (settleWrite db' (call.read db')) := by
  apply settleWrite_alike h
  obtain ⟨_, _, _, _, same, rfl⟩ := h
  rw [read_bare, read_bare]
  dsimp only
  rw [same]
  cases call <;> rfl

/-! ## The two runs -/

lemma write_alike {event : Event} (h : Alike db db') : Alike (write db event) (write db' event) := by
  cases event with
  | settle call => exact settle_alike h
  | link reservation order =>
    obtain ⟨_, _, _, reservations, same, rfl⟩ := h
    dsimp only [write, linkReservation]
    refine ⟨_, _, _, _, ?_, rfl⟩
    generalize linked : (fun r : RiskReservation =>
      if r.orderId = none then { r with orderId := some order } else r) = f
    have comm (r : RiskReservation) : unlogged (f r) = f (unlogged r) := by
      rw [← linked]
      show unlogged (if r.orderId = none then _ else _) = if r.orderId = none then _ else _
      split <;> rfl
    rw [map_amend comm, map_amend comm, same]
  | reset accountId userId text =>
    obtain ⟨_, _, _, _, same, rfl⟩ := h
    dsimp only [write, Risk.reset]
    split
    · exact ⟨_, _, _, _, same, rfl⟩
    · split
      · exact ⟨_, _, _, _, same, rfl⟩
      · split
        · exact ⟨_, _, _, _, same, rfl⟩
        · exact ⟨_, _, _, _, same, rfl⟩
  | deliver payload now =>
    have read : handle db' payload = handle db payload := by
      obtain ⟨_, _, _, _, _, rfl⟩ := h
      rfl
    dsimp only [write]
    rw [read]
    cases handle db payload with
    | none => exact h
    | some pending =>
      obtain ⟨_, _, _, _, same, rfl⟩ := h
      cases pending with
      | fill o loaded event => exact ⟨_, _, _, _, same, rfl⟩
      | terminal o loaded event => exact ⟨_, _, _, _, same, rfl⟩
  | request env req tradingMode brokerMode => exact h
  | persist order => obtain ⟨_, _, _, _, same, rfl⟩ := h; exact ⟨_, _, _, _, same, rfl⟩
  | amend order rewrite => obtain ⟨_, _, _, _, same, rfl⟩ := h; exact ⟨_, _, _, _, same, rfl⟩
  | sync positions accountStates =>
    obtain ⟨_, _, _, _, same, rfl⟩ := h
    exact ⟨_, _, _, _, same, rfl⟩

/-- The gate of SHADOW claims no capacity for this event. -/
def Quiet (s : State) : Event → Prop
  | .request env req tradingMode brokerMode =>
    gateClaims (withMode .shadow env) s.db req tradingMode brokerMode = false
  | _ => True

instance {s : State} : ∀ {event : Event}, Decidable (Quiet s event)
  | .request .. => inferInstanceAs (Decidable (_ = _))
  | .persist _ | .link .. | .amend .. | .deliver .. | .settle _ | .reset .. | .sync .. => isTrue trivial

/-- A run of SHADOW and a run of OFF that have not parted. -/
structure Twins (s t : State) : Prop where
  alike : Alike t.db s.db
  outcomes : s.outcomes = t.outcomes

lemma Twins.step {s s' t : State} {event : Event} (h : Twins s t) (quiet : Quiet s event)
    (st : (system .shadow).step s event = some s') : ∃ t', (system .off).step t event = some t' ∧ Twins s' t' := by
  cases event with
  | request env req tradingMode brokerMode =>
    obtain ⟨same, alike⟩ := evaluate_alike h.alike quiet
    cases st
    refine ⟨_, rfl, alike, ?_⟩
    show s.outcomes ++ [(evaluate (withMode .shadow env) s.db req tradingMode brokerMode).2] =
      t.outcomes ++ [(evaluate (withMode .off env) t.db req tradingMode brokerMode).2]
    rw [same, h.outcomes]
  | _ => cases st; exact ⟨_, rfl, write_alike h.alike, h.outcomes⟩

/-- Without a claim of its gate, SHADOW returns what OFF returns, and holds what OFF holds. -/
theorem shadow_is_inert {db : Db} {events : List Event} {s : State}
    (quiet : (system .shadow).Meets Quiet ⟨db, []⟩ events) (run : (system .shadow).run ⟨db, []⟩ events = some s) :
    ∃ t, (system .off).run ⟨db, []⟩ events = some t ∧ s.outcomes = t.outcomes ∧ s.db.capacity = t.db.capacity ∧
      s.db.reservations.map unlogged = t.db.reservations.map unlogged ∧
      ∀ a, (heldRows s.db a).map unlogged = (heldRows t.db a).map unlogged := by
  obtain ⟨t, run', twins⟩ := Machine.run_lockstep (R := Twins) Twins.step ⟨.refl, rfl⟩ quiet run
  refine ⟨t, run', twins.outcomes, twins.alike.capacity, ?_, fun a => twins.alike.heldRows⟩
  obtain ⟨_, _, _, _, same, e⟩ := twins.alike
  rw [e]
  exact same

def heldBackDb : Db where
  accounts := Dict.empty.set 1 ⟨1, .paper, none, none⟩
  symbols := [⟨"AAPL", true⟩]
  riskLimits := [
    { userId := 1, scopeType := .global, brokerMode := .paper, maxDailyLoss := some 1000 }]
  accountStates := Dict.empty.set 1 ⟨50000, 50000, 0⟩
  positions := Dict.empty.set (1, 0) { qty := 100, marketValue := 18000 }
  lossControl := Dict.empty.set 1 ⟨.reductionOnlyDailyLoss, 1, 1⟩

def heldBackEnv : Env where
  clock := ⟨1783954830000000, some "2026-07-13"⟩
  registry := some (Dict.empty.set 1 ⟨7⟩)
  reads := fun _ _ => some
    { equity := 50000, positions := [{ symbol := "AAPL", qty := 100, currentPrice := 180 }] }

/-- A market sell of `qty` AAPL. -/
def sell (qty : ℚ) : Event :=
  .request heldBackEnv { userId := 1, accountId := 1, symbolTicker := "AAPL", side := .sell, qty := qty }
    .paper .paper

def dayOfLoss : Event :=
  .sync (Dict.empty.set (1, 0) { qty := 100, marketValue := 18000 })
    (Dict.empty.set 1 ⟨48000, 50000, -2000⟩)

/-- In a loss both modes ask the classifier at step 9, so the gate of SHADOW adds nothing. -/
theorem sell_in_loss_same_in_both_modes :
    ∃ s t, (system .shadow).run ⟨heldBackDb, []⟩ [dayOfLoss, sell 60] = some s ∧
      (system .off).run ⟨heldBackDb, []⟩ [dayOfLoss, sell 60] = some t ∧
      s.outcomes = t.outcomes ∧ s.db.capacity = t.db.capacity := by
  have quiet : (system .shadow).Meets Quiet ⟨heldBackDb, []⟩ [dayOfLoss, sell 60] := by decide +kernel
  obtain ⟨s, run⟩ : ∃ s, (system .shadow).run ⟨heldBackDb, []⟩ [dayOfLoss, sell 60] = some s := ⟨_, rfl⟩
  obtain ⟨t, run', outcomes, capacity, -⟩ := shadow_is_inert quiet run
  exact ⟨s, t, run, run', outcomes, capacity⟩

/-- The gate of SHADOW reserves 60 of the 100 for a sell that no lock restricts. The broker turns that
    order down, and the next sell of 60, in a loss, is refused where OFF lets it pass. -/
theorem shadow_claim_refuses_later_sell :
    ((system .off).run ⟨heldBackDb, []⟩ [sell 60, dayOfLoss, sell 60]).map
        (fun s => s.outcomes.map (·.decision)) = some [.pass, .pass] ∧
      ((system .shadow).run ⟨heldBackDb, []⟩ [sell 60, dayOfLoss, sell 60]).map
        (fun s => s.outcomes.map (·.decision)) = some [.pass, .reject] ∧
      ((system .off).run ⟨heldBackDb, []⟩ [sell 60]).map (fun s => (heldRows s.db 1).length) = some 0 ∧
      ((system .shadow).run ⟨heldBackDb, []⟩ [sell 60]).map (fun s => (heldRows s.db 1).length) = some 1 := by
  refine ⟨?_, ?_, ?_, ?_⟩ <;> decide +kernel

end Workbench.Shadow
