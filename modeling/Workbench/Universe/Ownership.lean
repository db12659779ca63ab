import Mathlib.Data.List.Sort
import Mathlib.Data.Rat.Defs
import Workbench.Lib.Dict
import Workbench.Market.Session

/-!
# Strategy-owned holdings

Model of `app/universe/strategy_ownership.py` and `app/universe/owned_holdings.py` over the identity table of
`app/factor_data/store.py`: the filled BUYs of an account are grouped by the security their ticker denotes on the
date of their first fill, and a position is a holding of a strategy when the security that its ticker denotes
at the frontier of the table was bought by that strategy alone.
-/

set_option linter.dupNamespace false

namespace Workbench.Universe
open Lib Market

/-! ## Identities -/

/-- A row of `tickers`. -/
structure TickerRow where
  ticker : String
  permaticker : Option String
  firstpricedate : Option Int
  lastpricedate : Option Int
deriving DecidableEq

/-- Python `identity_coverage_date`. -/
def identityCoverageDate (table : List TickerRow) : Option Int :=
  ((table.filter (·.permaticker.isSome)).filterMap (·.lastpricedate)).max?

/-- Python `permaticker_asof`. -/
def permatickerAsof (table : List TickerRow) (ticker : String) (asOf : Int) : Option String :=
  match table.filter fun row => upper row.ticker = upper ticker with
  | [⟨_, some permaticker, some first, some last⟩] =>
    if permaticker ≠ "" ∧ first ≤ asOf ∧ asOf ≤ last then some permaticker else none
  | _ => none

/-! ## Acquisitions -/

/-- A row of `orders` with the ticker of its symbol and the instants of its fills. -/
structure OrderRow where
  id : Nat
  accountId : Nat
  side : OrderSide
  sourceType : OrderSourceType
  sourceId : Option String
  createdAt : Instant
  ticker : String
  fills : List Instant
deriving DecidableEq

def sourceValue : OrderSourceType → String
  | .manual => "manual"
  | .strategy => "strategy"
  | .agentStrategy => "agent_strategy"
  | .agentProposal => "agent_proposal"
  | .pine => "pine"

/-- Python `_Acquisition`. -/
structure Acquisition where
  orderId : Nat
  sourceType : OrderSourceType
  source : String
  createdAt : Instant
  acquiredOn : Int
  ticker : String
deriving DecidableEq

/-- Python `market_date`. -/
def marketDate (zone : Zone) (t : Instant) : Int := zone.date t

def sourceText (sourceType : OrderSourceType) (sourceId : String) : String := sourceValue sourceType ++ ":" ++ sourceId

def FilledBuy (account : Nat) (order : OrderRow) : Prop :=
  order.accountId = account ∧ order.side = .buy ∧ order.fills ≠ []

instance (account : Nat) (order : OrderRow) : Decidable (FilledBuy account order) := inferInstanceAs (Decidable (_ ∧ _))

/-- The acquisition of an order, at its earliest fill. -/
def acquisitionOf (zone : Zone) (order : OrderRow) : Acquisition where
  orderId := order.id
  sourceType := order.sourceType
  source := sourceText order.sourceType (order.sourceId.getD "")
  createdAt := order.createdAt
  acquiredOn := marketDate zone (order.fills.min?.getD order.createdAt)
  ticker := upper order.ticker

/-- Python `_acquisitions`. -/
def acquisitions (zone : Zone) (orders : List OrderRow) (account : Nat) : List Acquisition :=
  (orders.filter fun order => FilledBuy account order).map (acquisitionOf zone)

/-! ## Ownership -/

/-- Python `OwnershipStatus`. -/
inductive OwnershipStatus where
  | owned | ambiguous | unclaimed
deriving DecidableEq, Repr

/-- Python `AmbiguityReason`. -/
inductive AmbiguityReason where
  | competingStrategyAcquisition | nonStrategyAcquisition | identityUnresolved
deriving DecidableEq, Repr

def AmbiguityReason.value : AmbiguityReason → String
  | .competingStrategyAcquisition => "competing_strategy_acquisition"
  | .nonStrategyAcquisition => "non_strategy_acquisition"
  | .identityUnresolved => "identity_unresolved"

/-- Python `OwnedSecurity`. -/
structure OwnedSecurity where
  securityId : Option String
  tickers : List String
  status : OwnershipStatus
  reason : Option AmbiguityReason
  acquisitionOrderIds : List Nat
  acquiringSources : List String
  firstAcquiredAt : Option Instant
  lastAcquiredAt : Option Instant
deriving DecidableEq

def acquiredBefore (a b : Acquisition) : Prop := a.createdAt < b.createdAt ∨ a.createdAt = b.createdAt ∧ a.orderId ≤
    b.orderId

instance : DecidableRel acquiredBefore := fun _ _ => inferInstanceAs (Decidable (_ ∨ _))

/-- Python `_classify`. -/
def classify (resolved : Bool) (key : String) (acqs : List Acquisition) (mine : String) : OwnedSecurity :=
  let ours := acqs.filter (·.source = mine)
  let build (securityId : Option String) (status : OwnershipStatus) (reason : Option AmbiguityReason) : OwnedSecurity :=
    { securityId, status, reason
      tickers := (acqs.map (·.ticker)).dedup.insertionSort (· ≤ ·)
      acquisitionOrderIds := (ours.insertionSort acquiredBefore).map (·.orderId)
      acquiringSources := (acqs.map (·.source)).dedup.insertionSort (· ≤ ·)
      firstAcquiredAt := (ours.map (·.createdAt)).min?
      lastAcquiredAt := (ours.map (·.createdAt)).max? }
  let competing := acqs.any fun a => a.source ≠ mine ∧ a.sourceType = .strategy
  let nonStrategy := acqs.any fun a => a.sourceType ≠ .strategy
  if ours = [] then build (if resolved then some key else none) .unclaimed none
  else if !resolved then build none .ambiguous (some .identityUnresolved)
  else if competing || nonStrategy then
    build (some key) .ambiguous (some (if competing then .competingStrategyAcquisition else .nonStrategyAcquisition))
  else build (some key) .owned none

def identityKey (table : List TickerRow) (a : Acquisition) : Bool × String :=
  match permatickerAsof table a.ticker a.acquiredOn with
  | some id => (true, id)
  | none => (false, "\x00unresolved:" ++ a.ticker)

def securityBefore (a b : OwnedSecurity) : Prop :=
  a.tickers < b.tickers ∨ a.tickers = b.tickers ∧ a.securityId.getD "" ≤ b.securityId.getD ""

instance : DecidableRel securityBefore := fun _ _ => inferInstanceAs (Decidable (_ ∨ _))

def byIdentity (table : List TickerRow) (acqs : List Acquisition) : Dict (Bool × String) (List Acquisition) :=
  Dict.groupBy (identityKey table) (fun group a => group.getD [] ++ [a]) acqs

def strategySource (strategy : Nat) : String := sourceText .strategy (toString strategy)

/-- Python `StrategyOwnedSecurityResolver.resolve`. -/
def resolveOwned (zone : Zone) (table : List TickerRow) (orders : List OrderRow) (account strategy : Nat) :
    List OwnedSecurity :=
  ((byIdentity table (acquisitions zone orders account)).entries.map fun e =>
    classify e.1.1 e.1.2 e.2 (strategySource strategy)).insertionSort securityBefore

/-! ## Holdings -/

/-- A row of `positions` with the ticker of its symbol. -/
structure PositionRow where
  accountId : Nat
  ticker : String
  qty : ℚ
deriving DecidableEq

/-- Python `HoldingExclusionReason`. -/
inductive HoldingExclusionReason where
  | ownershipAmbiguous | ownershipUnclaimed | ownershipEvidenceMissing
deriving DecidableEq, Repr

/-- Python `OwnedHolding`. -/
structure OwnedHolding where
  ticker : String
  securityId : String
deriving DecidableEq

/-- Python `ExcludedHolding`. -/
structure ExcludedHolding where
  ticker : String
  reason : HoldingExclusionReason
  detail : Option String := none
  securityId : Option String := none
deriving DecidableEq

/-- Python `OwnedHoldings`. -/
structure OwnedHoldings where
  holdings : List OwnedHolding
  excluded : List ExcludedHolding
deriving DecidableEq

/-- The tables that a resolution reads. -/
structure Books where
  zone : Zone
  table : List TickerRow
  orders : List OrderRow
  positions : List PositionRow

/-- Python `_held_tickers`, sorted. -/
def heldTickers (positions : List PositionRow) (account : Nat) : List String :=
  ((positions.filter fun p => p.accountId = account ∧ 0 < p.qty).map fun p => upper p.ticker).dedup.insertionSort
    (· ≤ ·)

/-- The lookup in `{s.security_id: s for s in securities if s.security_id}`. -/
def securityOf (securities : List OwnedSecurity) (identity : String) : Option OwnedSecurity :=
  (securities.filter fun s => s.securityId = some identity ∧ identity ≠ "").getLast?

def holdingOf (securities : List OwnedSecurity) (ticker : String) (identity : Option String) :
    OwnedHolding ⊕ ExcludedHolding :=
  match identity with
  | none => .inr { ticker, reason := .ownershipAmbiguous, detail := some "identity_unresolved" }
  | some identity =>
    match securityOf securities identity with
    | none => .inr { ticker, reason := .ownershipEvidenceMissing }
    | some security =>
      match security.status with
      | .owned => .inl ⟨ticker, identity⟩
      | .ambiguous =>
        .inr { ticker, reason := .ownershipAmbiguous, detail := security.reason.map (·.value),
               securityId := security.securityId }
      | .unclaimed => .inr { ticker, reason := .ownershipUnclaimed, securityId := security.securityId }

/-- Python `StrategyOwnedHoldingsProvider.resolve`, at the frontier of the table. -/
def resolveHoldings (books : Books) (account strategy : Nat) : OwnedHoldings :=
  let held := heldTickers books.positions account
  match identityCoverageDate books.table with
  | none => ⟨[], held.map fun ticker => { ticker, reason := .ownershipAmbiguous, detail := some "identity_unresolved" }⟩
  | some frontier =>
    let securities := resolveOwned books.zone books.table books.orders account strategy
    let sorted := held.map fun ticker => holdingOf securities ticker (permatickerAsof books.table ticker frontier)
    ⟨sorted.filterMap (·.getLeft?), sorted.filterMap (·.getRight?)⟩

end Workbench.Universe
