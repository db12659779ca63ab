import Workbench.Orders.Lifecycle

/-!
# Position rows

Model of the two writers of the `positions` table. `PositionRecomputer.recompute`
(`app/orders/positions.py`) aggregates the fills of an account and a symbol after every fill; it owns
the quantity and the cost, inserts a market value of zero and never updates one.
`PositionSyncService._sync_account` (`app/services/position_sync.py`) copies the positions the broker
reports, market values included, and deletes the rows the broker no longer reports.
-/

namespace Workbench.Orders
open Workbench.Lib Workbench.Risk

/-! ## The recomputer -/

/-- The running quantity and cost basis of the loop of `recompute`. -/
structure Cost where
  qty : ℚ := 0
  basis : ℚ := 0

def Cost.add (cost : Cost) (side : OrderSide) (qty price : ℚ) : Cost :=
  let signed := if side = .buy then qty else -qty
  let newQty := cost.qty + signed
  -- a flip through zero starts over with the remainder
  if (0 < cost.qty ∧ newQty < 0) ∨ (cost.qty < 0 ∧ 0 < newQty) then ⟨newQty, |newQty| * price⟩
  else if newQty = 0 then ⟨newQty, 0⟩
  else if cost.qty = 0 then ⟨newQty, |signed| * price⟩
  else if (0 < cost.qty ∧ 0 < signed) ∨ (cost.qty < 0 ∧ signed < 0) then
    ⟨newQty, cost.basis + |signed| * price⟩
  else ⟨newQty, cost.basis - |signed| * (cost.basis / |cost.qty|)⟩

/-- The fills of an account and a symbol with the side of their orders, oldest first. -/
def symbolFills (db : Db) (accountId symbolId : Nat) : List (Fill × OrderSide) :=
  let rows := db.fills.filterMap fun f =>
    (db.orders[f.orderId]?).bind fun o =>
      if o.accountId = accountId ∧ o.symbolId = symbolId then some (f, o.side) else none
  rows.insertionSort fun r r' => r.1.filledAt ≤ r'.1.filledAt

/-- What the loop of `recompute` ends with. -/
def symbolCost (db : Db) (accountId symbolId : Nat) : Cost :=
  (symbolFills db accountId symbolId).foldl (fun cost r => cost.add r.2 r.1.qty r.1.price) {}

/-- Python `PositionRecomputer.recompute`. -/
def recompute (db : Db) (accountId symbolId : Nat) : Db :=
  let cost := symbolCost db accountId symbolId
  let key := (accountId, symbolId)
  { db with
    positions :=
      if cost.qty = 0 then db.positions.erase key
      else
        -- a new row has no market value, an old one keeps the one it has
        let row := (db.positions.get key).getD { qty := 0 }
        db.positions.set key { row with
          qty := cost.qty, avgEntryPrice := cost.basis / |cost.qty|, costBasis := cost.basis } }

/-! ## The sync -/

/-- A position as the broker reports it, normalized. -/
structure ReportedPosition where
  symbol : String
  qty : ℚ
  avgEntryPrice : ℚ := 0
  marketValue : ℚ := 0
  costBasis : ℚ := 0
  unrealizedPl : ℚ := 0

/-- The row the sync writes for a reported position. -/
def ReportedPosition.row (p : ReportedPosition) : Position :=
  ⟨p.qty, p.avgEntryPrice, p.marketValue, p.costBasis, p.unrealizedPl⟩

/-- The symbol row of a ticker; tickers are unique. -/
def symbolIdByTicker (db : Db) (ticker : String) : Option Nat :=
  db.symbols.findIdx? fun s => s.ticker = ticker

/-- The write of Python `PositionSyncService._sync_account`; a ticker without a symbol row is
    skipped. -/
def syncAccount (db : Db) (accountId : Nat) (reported : List ReportedPosition) : Db :=
  let resolved := reported.filterMap fun p => (symbolIdByTicker db p.symbol).map (·, p)
  let written := resolved.foldl (fun rows x => rows.set (accountId, x.1) x.2.row) db.positions
  { db with
    positions := written.mapMaybe fun key row =>
      if key.1 = accountId ∧ key.2 ∉ resolved.map Prod.fst then none else some row }

end Workbench.Orders
