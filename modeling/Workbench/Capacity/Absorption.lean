import Workbench.Capacity.Accumulator

/-!
# Absorption and in-flight forgiveness

A `Situation` is what one decision meets for one symbol, whatever history led there: the local tables,
the positions the broker reports, the open orders of the HELD reservations, the open orders nothing
reserved, and the two truths a read does not show, the long and what was executed of each reservation.

`Approves q` is the code's verdict, the refresh and the conditional claim run on the snapshot of that
situation. `approves_safe_iff` says exactly when every approval leaves the true long enough for the
unfilled remainders of the HELD reservations, the uncovered open sells and the new sell: the aggregate
cannot tell a reservation that is not at the broker from an open sell of somebody else, so it forgives
the one against the other, and it cannot tell whose fill moved the position.

The quantities are named as the derivation uses them: `reported` and `long`; `reserved = unfilled +
executed`; `unfilled = working + waiting` (with and without an open order at the broker); `uncovered`;
and `recorded`, the local fills the absorption counts.
-/

namespace Workbench.Capacity
open Workbench.Lib Workbench.Risk Workbench.Orders List Option Table

/-- The tables, the broker's answer and the truth behind it, for one symbol of one account. -/
structure Situation where
  db : Db
  account : Nat
  symbol : String
  positions : List BrokerPosition
  long : ℚ
  executedOf : Nat → ℚ
  workingOf : Nat → Bool
  external : List BrokerOpenOrder
  balanced : Balanced db
  canonical : upper symbol = symbol
  rows : ∀ r ∈ db.reservations, upper r.symbol = r.symbol
  bounds : ∀ r ∈ db.reservations, ∀ o ∈ r.orderId, 0 ≤ executedOf o ∧ executedOf o ≤ r.qty

namespace Situation

variable (x : Situation)

def held : List RiskReservation := (heldRows x.db x.account).filter (·.symbol = x.symbol)

/-- What was executed of a reservation; nothing before it has an order. -/
def executedPart (r : RiskReservation) : ℚ := (r.orderId.map x.executedOf).getD 0

/-- Whether the order of a reservation is open at the broker. -/
def isWorking (r : RiskReservation) : Bool := (r.orderId.map x.workingOf).getD false

/-- The open order of a reservation, as the broker lists it. -/
def workingOrder (r : RiskReservation) : BrokerOpenOrder where
  id := ((r.orderId.bind (x.db.orders[·]?)).bind (·.brokerOrderId)).getD ""
  symbol := r.symbol
  side := .sell
  qty := r.qty
  filledQty := x.executedPart r

/-- What the broker answers: the reported positions and every open order. -/
def read : BrokerRead where
  positions := x.positions
  orders := (x.held.filter x.isWorking).map x.workingOrder ++ x.external

def snap : AccountSnapshot := decisionSnapshot x.db x.account (some x.read)

/-- The refresh and the claim approve a sell of `q`. -/
def Approves (q : ℚ) : Prop :=
  ∃ db v, claimCapacity (refreshCapacity x.db x.account x.symbol x.snap) x.account x.symbol q
    x.snap.stateHash = some (db, v)

def reported : ℚ := x.snap.positionQty x.symbol

def reserved : ℚ := Table.total (·.qty) x.held

/-- What was executed of the HELD reservations. -/
def executed : ℚ := Table.total x.executedPart x.held

/-- The unfilled remainder of the HELD reservations. -/
def unfilled : ℚ := Table.total (fun r => r.qty - x.executedPart r) x.held

/-- The unfilled remainder of those with an open order at the broker. -/
def working : ℚ := Table.total (fun r => if x.isWorking r then r.qty - x.executedPart r else 0) x.held

/-- The unfilled remainder of those without one. -/
def waiting : ℚ := Table.total (fun r => if x.isWorking r then 0 else r.qty - x.executedPart r) x.held

def isSell (o : BrokerOpenOrder) : Bool := upper o.symbol = x.symbol ∧ o.side = .sell

/-- The remaining quantity of the open sells no reservation covers. -/
def uncovered : ℚ :=
  Table.total (fun o => if x.isSell o then max 0 (o.qty - o.filledQty) else 0) x.external

/-- The local fills of the anchored HELD reservations, each capped at its quantity. -/
def recorded : ℚ :=
  Table.total (fun r => if r.positionQtyAtReservation.isSome then
    min r.qty (max 0 ((r.orderId.map x.db.filledQty).getD 0)) else 0) x.held

/-- The approval of `q` leaves the true long enough for everything promised. -/
def Safe (q : ℚ) : Prop := 0 ≤ x.long - x.unfilled - x.uncovered - q

def HasRoom : Prop :=
  0 < x.reported ∧ x.working + x.uncovered < x.reported ∧
    (x.reserved < x.reported ∨ x.reserved < x.reported + x.recorded ∧
      ∀ r ∈ x.held, ∀ anchor ∈ r.positionQtyAtReservation, x.reserved < anchor)

/-- What the true long, the executions and the reported position leave for a credit. -/
def room : ℚ := x.long + x.executed - x.reported - x.uncovered

/-- The true long covers the reported one and the reservations that are not at the broker, or it
    covers the credit: the recorded fills, or the fall of the position below some anchor. -/
def Covered : Prop :=
  x.reported + x.waiting ≤ x.long ∨
    0 ≤ x.room ∧ (x.recorded ≤ x.room ∨
      ∃ r ∈ x.held, ∃ anchor ∈ r.positionQtyAtReservation, anchor - x.reported ≤ x.room)

/-- The fills credited back to the reservations. -/
def credited : ℚ := (x.snap.absorbedReservedFillQty.get x.symbol).getD 0

/-! ## The quantities -/

variable {x}

lemma mem_held {r : RiskReservation} : r ∈ x.held ↔
    r ∈ x.db.reservations ∧ r.accountId = x.account ∧ r.state = .held ∧ r.symbol = x.symbol := by
  simp only [held, heldRows, mem_filter, decide_eq_true_eq]
  tauto

lemma executedPart_bounds {r : RiskReservation} (m : r ∈ x.held) : 0 ≤ x.executedPart r ∧ x.executedPart r ≤ r.qty := by
  have row := (mem_held.1 m).1
  unfold executedPart
  cases e : r.orderId with
  | none => exact ⟨le_rfl, x.balanced.pos r row⟩
  | some o => exact x.bounds r row o e

lemma heldQty_eq_reserved : x.db.heldQty x.account x.symbol = x.reserved := by
  rw [reserved, held, heldRows, total_filter, total_filter]
  refine total_congr fun r _ => ?_
  simp only [RiskReservation.heldFor, decide_eq_true_eq]
  grind

lemma reserved_eq : x.reserved = x.unfilled + x.executed := by
  rw [reserved, unfilled, executed, ← total_add]
  exact total_congr fun r _ => by ring

lemma unfilled_eq : x.unfilled = x.working + x.waiting := by
  rw [unfilled, working, waiting, ← total_add]
  refine total_congr fun r _ => ?_
  split <;> ring

lemma inFlight_eq (long : 0 < x.reported) : inFlight x.snap x.symbol = x.working + x.uncovered := by
  have orders : x.snap.openOrders =
      x.read.orders.map (snapshotOpenOrder x.db (snapshotPositions x.read)) := rfl
  have reduces : ∀ o, (upper (snapshotOpenOrder x.db (snapshotPositions x.read) o).symbol ==
      upper x.symbol && (snapshotOpenOrder x.db (snapshotPositions x.read) o).side == .sell &&
      (snapshotOpenOrder x.db (snapshotPositions x.read) o).reducesPosition) = x.isSell o := by
    intro o
    have held : 0 < ((snapshotPositions x.read).get x.symbol |>.map (·.qty)).getD 0 := long
    by_cases sym : upper o.symbol = x.symbol
    · cases side : o.side with
      | sell => simp [snapshotOpenOrder, isSell, x.canonical, sym, side, held]
      | buy => simp [snapshotOpenOrder, isSell, sym, side]
    · simp [snapshotOpenOrder, isSell, x.canonical, sym]
  have all : inFlight x.snap x.symbol =
      Table.total (fun o => if x.isSell o then max 0 (o.qty - o.filledQty) else 0) x.read.orders := by
    rw [inFlight, orders, ← Table.total, total_filter, total_map]
    exact total_congr fun o _ => by rw [reduces]; rfl
  rw [all, read, total_append, total_map, total_filter, working, uncovered]
  congr 1
  refine total_congr fun r m => ?_
  obtain ⟨-, -, -, sym⟩ := mem_held.1 m
  have sell : x.isSell (x.workingOrder r) = true := by
    simp [isSell, workingOrder, sym, x.canonical]
  have le := (executedPart_bounds m).2
  rw [sell]
  split
  · exact max_eq_right (by simp only [workingOrder]; linarith)
  · rfl

/-! ## The credit -/

lemma mem_absorptionRows {y : AbsorptionRow} :
    y ∈ absorptionRowsOf x.db x.account x.symbol ↔ ∃ r ∈ x.held, absorptionRow x.db r = some y := by
  simp only [absorptionRowsOf, mem_filter, mem_filterMap, decide_eq_true_eq, held]
  constructor
  · rintro ⟨⟨r, m, e⟩, key⟩
    refine ⟨r, ⟨m, ?_⟩, e⟩
    obtain ⟨anchor, -, rfl⟩ := map_eq_some_iff.1 e
    have row := (mem_filter.1 m).1
    rw [← x.rows r row]
    exact key
  · rintro ⟨r, ⟨m, sym⟩, e⟩
    refine ⟨⟨r, m, e⟩, ?_⟩
    obtain ⟨anchor, -, rfl⟩ := map_eq_some_iff.1 e
    exact (x.rows r (mem_filter.1 m).1).trans sym

lemma total_capped : Table.total (·.capped) (absorptionRowsOf x.db x.account x.symbol) = x.recorded := by
  rw [absorptionRowsOf, total_filter, total_filterMap, recorded, held,
    total_filter]
  refine total_congr fun r m => ?_
  have canon := x.rows r (mem_filter.1 m).1
  unfold absorptionRow
  cases r.positionQtyAtReservation with
  | none => simp
  | some anchor => simp [canon, AbsorptionRow.capped]

lemma recorded_nonneg : 0 ≤ x.recorded := by
  refine total_nonneg fun r m => ?_
  have pos := x.balanced.pos r (mem_held.1 m).1
  split
  · exact le_min pos (le_max_left _ _)
  · exact le_rfl

lemma credited_le_iff {c : ℚ} : x.credited ≤ c ↔ 0 ≤ c ∧ (x.recorded ≤ c ∨
    ∃ r ∈ x.held, ∃ anchor ∈ r.positionQtyAtReservation, anchor - x.reported ≤ c) := by
  have get : x.credited = _ := @absorbed_get
    (fetchSnapshot x.db x.account (some x.read) (reservedBySymbol x.db x.account))
    x.db x.account x.symbol
  have anchors : ∀ c, (∃ r ∈ x.held, ∃ anchor ∈ r.positionQtyAtReservation, anchor ≤ c) ↔
      ∃ y ∈ absorptionRowsOf x.db x.account x.symbol, y.anchor ≤ c := by
    intro c
    constructor
    · rintro ⟨r, m, anchor, e, le⟩
      exact ⟨_, mem_absorptionRows.2 ⟨r, m, by rw [absorptionRow, e]; rfl⟩, le⟩
    · rintro ⟨y, m, le⟩
      obtain ⟨r, mr, e⟩ := mem_absorptionRows.1 m
      obtain ⟨anchor, ea, rfl⟩ := map_eq_some_iff.1 e
      exact ⟨r, mr, anchor, ea, le⟩
  have fills := @total_capped x
  have least_iff : (∃ r ∈ x.held, ∃ anchor ∈ r.positionQtyAtReservation, anchor - x.reported ≤ c) ↔
      ∃ y ∈ absorptionRowsOf x.db x.account x.symbol, y.anchor - x.reported ≤ c := by
    simpa only [sub_le_iff_le_add] using anchors (c + x.reported)
  rw [get, least_iff, leastAnchor]
  have qty : Table.total (·.capped) (absorptionRowsOf x.db x.account x.symbol) ≤
      Table.total (·.qty) (absorptionRowsOf x.db x.account x.symbol) :=
    total_le_total fun y _ => min_le_left _ _
  cases e : ((absorptionRowsOf x.db x.account x.symbol).map (·.anchor)).min? with
  | none =>
    have empty : absorptionRowsOf x.db x.account x.symbol = [] := by
      simpa [min?_eq_none_iff] using e
    rw [empty, total_nil] at fills
    simp [empty, ← fills]
  | some least =>
    obtain ⟨mem, le⟩ := min?_eq_some_iff.1 e
    obtain ⟨y, my, rfl⟩ := mem_map.1 mem
    have some_iff : (∃ y ∈ absorptionRowsOf x.db x.account x.symbol, y.anchor - x.reported ≤ c) ↔
        y.anchor - x.reported ≤ c := by
      constructor
      · rintro ⟨z, mz, hz⟩
        have := le z.anchor (mem_map_of_mem mz)
        linarith
      · exact fun h => ⟨y, my, h⟩
    rw [some_iff, map_some, getD_some, credit, min_eq_left (le_trans (min_le_left _ _) qty),
      fills, max_le_iff, min_le_iff, max_le_iff]
    have same : (fetchSnapshot x.db x.account (some x.read)
      (reservedBySymbol x.db x.account)).positionQty x.symbol = x.reported := rfl
    rw [same]
    tauto

lemma credited_le_reserved : x.credited ≤ x.reserved := by
  rw [credited_le_iff]
  have le : x.recorded ≤ x.reserved := by
    refine total_le_total fun r m => ?_
    split
    · exact min_le_left _ _
    · exact x.balanced.pos r (mem_held.1 m).1
  exact ⟨recorded_nonneg.trans le, .inl le⟩

/-! ## The approval -/

lemma approves_iff {q : ℚ} (pos : 0 < q) : x.Approves q ↔ 0 < x.reported ∧ x.reserved + q ≤ x.reported + x.credited -
      max 0 (x.uncovered - x.waiting - x.executed + x.credited) := by
  have nonneg : 0 ≤ x.reserved :=
    total_nonneg fun r m => x.balanced.pos r (mem_held.1 m).1
  rw [Approves, claimCapacity_refreshCapacity, x.balanced.eq, heldQty_eq_reserved]
  have reserved_get : (x.snap.reservedReducingQty.get x.symbol).getD 0 = x.reserved := by
    rw [← heldQty_eq_reserved, ← reservedBySymbol_get]
    rfl
  unfold claimableReducibleQuantity
  dsimp only
  rw [x.canonical, reserved_get, ← reported, ← credited]
  split
  · rename_i flat
    constructor
    · intro h; linarith
    · intro h; linarith [h.1]
  · rename_i long
    have long := not_le.1 long
    rw [inFlight_eq long, max_eq_right (sub_nonneg.2 credited_le_reserved)]
    have pending : x.working + x.uncovered - (x.reserved - x.credited) =
        x.uncovered - x.waiting - x.executed + x.credited := by
      rw [reserved_eq, unfilled_eq]; ring
    rw [pending, le_max_iff]
    constructor
    · rintro (h | h)
      · linarith
      · exact ⟨long, h⟩
    · exact fun h => .inr h.2

def most (x : Situation) : ℚ :=
  x.reported + x.credited - max 0 (x.uncovered - x.waiting - x.executed + x.credited) - x.reserved

lemma hasRoom_iff : x.HasRoom ↔ 0 < x.reported ∧ 0 < x.most := by
  have below : x.reserved - x.reported < x.credited ↔ x.reserved < x.reported ∨
      x.reserved < x.reported + x.recorded ∧
        ∀ r ∈ x.held, ∀ anchor ∈ r.positionQtyAtReservation, x.reserved < anchor := by
    rw [← not_le, credited_le_iff]
    push Not
    constructor
    · intro h
      by_cases lt : x.reserved < x.reported
      · exact .inl lt
      · obtain ⟨h1, h2⟩ := h (by linarith)
        exact .inr ⟨by linarith, fun r m anchor e => by linarith [h2 r m anchor e]⟩
    · rintro (h | ⟨h1, h2⟩) le
      · linarith
      · exact ⟨by linarith, fun r m anchor e => by linarith [h2 r m anchor e]⟩
  have split : 0 < x.most ↔ x.reserved - x.reported < x.credited ∧
      x.working + x.uncovered < x.reported := by
    have eq1 := @reserved_eq x
    have eq2 := @unfilled_eq x
    rw [most, sub_sub, sub_pos, add_comm (max _ _), ← lt_sub_iff_add_lt', max_lt_iff]
    constructor
    · rintro ⟨h1, h2⟩; exact ⟨by linarith, by linarith⟩
    · rintro ⟨h1, h2⟩; exact ⟨by linarith, by linarith⟩
  rw [HasRoom, split, below]
  tauto

lemma covered_iff : x.Covered ↔ x.Safe x.most := by
  have eq := @reserved_eq x
  rw [Covered, ← credited_le_iff, Safe, most, room]
  rcases le_total 0 (x.uncovered - x.waiting - x.executed + x.credited) with h | h
  · rw [max_eq_right h]
    constructor
    · rintro (h' | h') <;> linarith
    · intro h'; left; linarith
  · rw [max_eq_left h]
    constructor
    · rintro (h' | h') <;> linarith
    · intro h'; right; linarith

end Situation

/-- Every approval is safe exactly when nothing can be approved or the true long covers what the
    reported position and the credit stand for. -/
theorem approves_safe_iff (x : Situation) : (∀ q, 0 < q → x.Approves q → x.Safe q) ↔ (x.HasRoom → x.Covered) := by
  rw [Situation.hasRoom_iff, Situation.covered_iff]
  constructor
  · rintro h ⟨long, most⟩
    refine h x.most most ((Situation.approves_iff most).2 ⟨long, ?_⟩)
    rw [Situation.most]
    linarith
  · intro h q pos app
    obtain ⟨long, le⟩ := (Situation.approves_iff pos).1 app
    have within : q ≤ x.most := by rw [Situation.most]; linarith
    have safe := h ⟨long, by linarith⟩
    unfold Situation.Safe at safe ⊢
    linarith

def hiddenDb : Db where
  reservations := [⟨1, "AAPL", 100, none, none, some 200, .held, 0, none⟩]
  capacity := Dict.empty.set (1, "AAPL") ⟨⟨1, none, [], [], 0, [], []⟩, 200, 100, 1⟩

lemma hiddenDb_balanced : Balanced hiddenDb := by
  refine ⟨by simp [hiddenDb], ?_⟩
  intro a sym
  simp only [hiddenDb, Db.reservedQty, Db.heldQty, Dict.get_set, total_cons, total_nil,
    RiskReservation.heldFor, Prod.mk.injEq]
  by_cases key : a = 1 ∧ sym = "AAPL"
  · obtain ⟨rfl, rfl⟩ := key
    simp
  · rw [if_neg key, if_neg (fun h => key ⟨h.1.symm, h.2.1.symm⟩)]
    simp

lemma hiddenDb_rows : ∀ r ∈ hiddenDb.reservations, upper r.symbol = r.symbol := by
  intro r m
  rw [mem_singleton.1 m]
  decide +kernel

lemma hiddenDb_unlinked (f : Nat → ℚ) : ∀ r ∈ hiddenDb.reservations, ∀ o ∈ r.orderId, 0 ≤ f o ∧ f o ≤ r.qty := by
  intro r m o link
  rw [mem_singleton.1 m] at link
  cases link

lemma upper_aapl : upper "AAPL" = "AAPL" := by decide +kernel

def hiddenSell : Situation where
  db := hiddenDb
  account := 1
  symbol := "AAPL"
  positions := [{ symbol := "AAPL", qty := 200, currentPrice := 50 }]
  long := 200
  executedOf _ := 0
  workingOf _ := false
  external := [{ id := "x-1", symbol := "AAPL", side := .sell, qty := 100, filledQty := 0 }]
  balanced := hiddenDb_balanced
  canonical := upper_aapl
  rows := hiddenDb_rows
  bounds := hiddenDb_unlinked fun _ => 0

/-- The unsubmitted reservation hides the open sell: 100 more are approved, 300 in all. -/
theorem hiddenSell_oversells : hiddenSell.Approves 100 ∧ ¬hiddenSell.Safe 100 := by
  refine ⟨?_, by unfold Situation.Safe; decide +kernel⟩
  obtain ⟨⟨db, v⟩, e⟩ := isSome_iff_exists.1 (show (claimCapacity (refreshCapacity hiddenSell.db
    1 "AAPL" hiddenSell.snap) 1 "AAPL" 100 hiddenSell.snap.stateHash).isSome = true by decide +kernel)
  exact ⟨db, v, e⟩

end Workbench.Capacity
