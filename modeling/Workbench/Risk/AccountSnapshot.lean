import Workbench.Db.Models
import Workbench.Lib.DateOrder

/-!
# Fetching a snapshot

Model of `app/risk/account_snapshot.py`: `fetch_snapshot` turns one live broker read and the local
fills and orders into an `AccountSnapshot`, or into an incomplete one when the broker read raised.

A broker read is `BrokerRead`, what `get_account`, `get_positions` and `list_orders` return with the
numeric fields already decoded (`_dec` maps an absent or malformed field to zero); `none` is a read
that raised, or an adapter that is not there. Broker timestamps stay the strings the broker sent;
local instants are rendered by `renderInstant` (`str` of a stored `datetime`), because the source
compares the two as strings.
-/

namespace Workbench.Risk
open Workbench.Lib List

/-- One position of `adapter.get_positions()`. -/
structure BrokerPosition where
  symbol : String
  qty : ℚ
  short : Bool := false
  currentPrice : ℚ
  marketValue : ℚ := 0

/-- One order of `adapter.list_orders(status="open")`; `stamps` are the timestamps it carries. -/
structure BrokerOpenOrder where
  id : String
  symbol : String
  side : OrderSide
  qty : ℚ
  filledQty : ℚ
  stamps : List String := []

/-- What the broker answered to the three reads of one snapshot. -/
structure BrokerRead where
  cash : ℚ := 0
  equity : ℚ := 0
  buyingPower : ℚ := 0
  positions : List BrokerPosition := []
  orders : List BrokerOpenOrder := []

private def pad2 (n : Nat) : String := if n < 10 then "0" ++ toString n else toString n

/-- The proleptic Gregorian date of a day counted from 1970-01-01. -/
def civil (day : Nat) : Nat × Nat × Nat := DateTime.ofOrdinal (day + 719163)

/-- `str` of a stored naive UTC `datetime`: `YYYY-MM-DD HH:MM:SS[.ffffff]`. -/
def renderInstant (t : Instant) : String :=
  let (y, m, d) := civil (t / 86400000000)
  let s := t / 1000000 % 86400
  let micros := t % 1000000
  let date := toString y ++ "-" ++ pad2 m ++ "-" ++ pad2 d
  let time := pad2 (s / 3600) ++ ":" ++ pad2 (s / 60 % 60) ++ ":" ++ pad2 (s % 60)
  let fraction := if micros = 0 then "" else "." ++ ((toString (1000000 + micros)).drop 1).toString
  date ++ " " ++ time ++ fraction

/-- The last instant of a `datetime` lies before this one, the start of the year 10000. -/
def endOfTime : Instant := 2932897 * 86400000000

lemma civil_eq {day : Nat} : civil day = DateTime.ofOrdinal (day + 719163) := rfl

private lemma toList_pad2 {n : Nat} (lt : n < 10 ^ 2) : (pad2 n).toList = DateTime.pad 2 n := by
  unfold pad2
  split
  · rename_i small
    rw [String.toList_append, Nat.toString_eq_repr, Nat.toList_repr, Nat.toDigits_of_lt_base small, DateTime.pad_succ,
      DateTime.pad_succ, Nat.div_eq_of_lt small, Nat.mod_eq_of_lt small]
    rfl
  · rename_i large
    rw [Nat.toString_eq_repr, Nat.toList_repr]
    exact DateTime.toDigits_eq_pad (not_lt.1 large) lt

lemma civil_fields {t : Instant} (before : t < endOfTime) :
    1000 ≤ (civil (t / 86400000000)).1 ∧ (civil (t / 86400000000)).1 < 10 ^ 4 ∧
      (civil (t / 86400000000)).2.1 < 10 ^ 2 ∧ (civil (t / 86400000000)).2.2 < 10 ^ 2 := by
  have day : t / 86400000000 < 2932897 := (Nat.div_lt_iff_lt_mul (by decide)).2 before
  rw [civil_eq]
  exact DateTime.ofOrdinal_fields (Nat.le_add_left _ _) (Nat.add_le_add_right (Nat.le_of_lt_succ day) 719163)

lemma renderInstant_date {t : Instant} (before : t < endOfTime) :
    ∃ rest, (renderInstant t).toList = DateTime.datePart (civil (t / 86400000000)) ++ ' ' :: rest := by
  obtain ⟨low, high, month, day⟩ := civil_fields before
  have parts : ∃ time fraction, renderInstant t = toString (civil (t / 86400000000)).1 ++ "-" ++
      pad2 (civil (t / 86400000000)).2.1 ++ "-" ++ pad2 (civil (t / 86400000000)).2.2 ++ " " ++ time ++ fraction :=
    ⟨_, _, rfl⟩
  obtain ⟨time, fraction, eq⟩ := parts
  refine ⟨time.toList ++ fraction.toList, ?_⟩
  simp only [eq, String.toList_append, toList_pad2 month, toList_pad2 day, Nat.toString_eq_repr, Nat.toList_repr,
    DateTime.toDigits_eq_pad low high, DateTime.datePart]
  simp

def maxString (stamps : List String) : Option String :=
  stamps.foldl (fun best s => match best with
    | none => some s
    | some b => some (if b < s then s else b)) none

/-- Python `_event_time`: the newest stamp of a broker order, empty when it has none. -/
def eventTime (o : BrokerOpenOrder) : String := (maxString (o.stamps.filter (· ≠ ""))).getD ""

/-- Python `_fill_is_known_locally`. -/
def fillIsKnownLocally (db : Db) (brokerOrderId : String) : Bool :=
  brokerOrderId ≠ "" && db.fills.any fun f =>
    match db.orders[f.orderId]? with
    | some o => o.brokerOrderId == some brokerOrderId
    | none => false

/-- Python `_observed_cursor`. -/
def observedCursor (db : Db) (accountId : Nat) : Option String :=
  let newestFill := (db.fills.filterMap fun f =>
    (db.orders[f.orderId]?).bind fun o => if o.accountId = accountId then some f.filledAt else none).max?
  let newestOrder := (db.orders.filterMap fun o =>
    if o.accountId = accountId ∧ o.status.terminal = false then some o.updatedAt else none).max?
  maxString ([newestFill, newestOrder].filterMap (·.map renderInstant))

/-- Python `_observed_inflight_by_symbol`. -/
def observedInflightBySymbol (db : Db) (accountId : Nat) : Dict String String :=
  let inflight (o : Order) : Bool := o.accountId = accountId ∧ o.status.terminal = false
  let fills := db.fills.filterMap fun f =>
    (db.orders[f.orderId]?).bind fun o =>
      if inflight o then (db.ticker o).map (·, f.filledAt) else none
  let orders := db.orders.filterMap fun o =>
    if inflight o then (db.ticker o).map (·, o.updatedAt) else none
  (fills ++ orders).foldl (fun out (ticker, stamp) =>
    let key := upper ticker
    let val := renderInstant stamp
    match out.get key with
    | none => out.set key val
    | some old => if old < val then out.set key val else out) .empty

def signedQty (p : BrokerPosition) : ℚ := if p.short ∧ 0 < p.qty then -p.qty else p.qty

def markPrice (p : BrokerPosition) : ℚ :=
  if p.currentPrice ≠ 0 then p.currentPrice
  else if signedQty p ≠ 0 then |p.marketValue| / |signedQty p| else 0

/-- The `positions` dictionary of a snapshot: a later row of the same ticker overwrites. -/
def snapshotPositions (read : BrokerRead) : Dict String SnapshotPosition :=
  (read.positions.filter (upper ·.symbol ≠ "")).foldl
    (fun d p => d.set (upper p.symbol) ⟨upper p.symbol, signedQty p, markPrice p⟩) .empty

/-- One `SnapshotOpenOrder` of the loop over the broker's open orders. -/
def snapshotOpenOrder (db : Db) (positions : Dict String SnapshotPosition) (o : BrokerOpenOrder) :
    SnapshotOpenOrder :=
  let sym := upper o.symbol
  let heldQty : ℚ := ((positions.get sym).map (·.qty)).getD 0
  { orderId := o.id
    symbol := sym
    side := o.side
    remainingQty := max 0 (o.qty - o.filledQty)
    reducesPosition := (o.side = .sell ∧ 0 < heldQty) ∨ (o.side = .buy ∧ heldQty < 0)
    hasUnresolvedPartialFill := 0 < o.filledQty ∧ fillIsKnownLocally db o.id = false }

/-- Python `fetch_snapshot`. -/
def fetchSnapshot (db : Db) (accountId : Nat) (read : Option BrokerRead)
    (reservedReducingQty : Dict String ℚ := .empty) : AccountSnapshot :=
  match read with
  | none =>
    { accountId, positions := .empty, openOrders := [], cash := 0, equity := 0, brokerCursor := none,
      complete := false }
  | some r =>
    let positions := snapshotPositions r
    let cursor := (maxString (r.orders.map eventTime)).getD ""
    { accountId
      positions
      openOrders := r.orders.map (snapshotOpenOrder db positions)
      cash := r.cash
      equity := r.equity
      brokerCursor := if cursor = "" then none else some cursor
      observedCursor := observedCursor db accountId
      observedInflightBySymbol := observedInflightBySymbol db accountId
      complete := true
      reservedReducingQty }

lemma snapshotPositions_get {read : BrokerRead} {P : String → ℚ → Prop}
    (rows : ∀ p ∈ read.positions, P (upper p.symbol) (signedQty p)) {k : String}
    {x : SnapshotPosition} (e : (snapshotPositions read).get k = some x) : P k x.qty := by
  unfold snapshotPositions at e
  have rows' : ∀ p ∈ read.positions.filter (upper ·.symbol ≠ ""), P (upper p.symbol) (signedQty p) :=
    fun p m => rows p (mem_filter.1 m).1
  generalize read.positions.filter (upper ·.symbol ≠ "") = ps at e rows'
  induction ps using List.reverseRecOn with
  | nil => simp at e
  | append_singleton ps p ih =>
    rw [foldl_append, foldl_cons, foldl_nil, Dict.get_set] at e
    split at e
    · rename_i eq
      cases e
      rw [eq]
      exact rows' p (by simp)
    · exact ih e fun q m => rows' q (mem_append_left _ m)

end Workbench.Risk
