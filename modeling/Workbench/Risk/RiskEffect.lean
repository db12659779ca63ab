import Workbench.Db.Enums
import Workbench.Lib.Dict

/-!
# The risk-effect classifier

Model of `app/risk/risk_effect.py`: the causally complete `AccountSnapshot`, the reducible-capacity
arithmetic (`claimable_reducible_quantity`, `available_reducible_quantity`) and the pure classifier
`classify` with its cancellation branch.

Python → Lean naming: `state_hash` → `AccountSnapshot.stateHash`; `is_causally_complete` →
`AccountSnapshot.isCausallyComplete` (which returns the reason of a refusal, `none` when complete);
`_inflight_disagreement` → `inflightDisagreement`; the closure `_out` of `classify` is `emit`.

`state_hash` is SHA-256 over a canonical JSON payload. The model keeps the payload itself as the
digest, that is it takes the hash to be injective on payloads. `sorted` compares whole tuples in the
source; the leading components (dictionary keys, broker order ids) are distinct, so the sort key here
is the leading component.
-/

namespace Workbench.Risk
open Workbench.Lib
variable {snap : AccountSnapshot}

/-- Python `ActionType`. -/
inductive ActionType where
  | orderSubmit
  | orderCancel
  | orderReplace
  deriving DecidableEq, Repr

/-- Python `RiskEffect`. -/
inductive RiskEffect where
  | riskReducing
  | riskIncreasing
  | riskNeutral
  | indeterminate
  deriving DecidableEq, Repr

/-- Python `Decision`. -/
inductive Decision where
  | allow
  | reject
  | failClosed
  deriving DecidableEq, Repr

/-- Python `RiskEffectReason`. -/
inductive RiskEffectReason where
  | verifiedReduction
  | increasesInstrumentExposure
  | crossesZero
  | increasesGrossExposure
  | increasesLeverage
  | opensNewPosition
  | exceedsReducibleQuantity
  | exceedsReducibleCapacity
  | shortNotSupportedV1
  | noPosition
  | nonPositiveQuantity
  | cancelRemovesProtectiveReduction
  | cancelRemovesRiskIncreasingOrder
  | snapshotStale
  | snapshotIncomplete
  | unresolvedPartialFill
  | unknownAction
  | noPrice
  deriving DecidableEq, Repr

/-- Python `SnapshotPosition`; `qty` is signed. -/
structure SnapshotPosition where
  symbol : String
  qty : ℚ
  price : ℚ
  deriving DecidableEq, Repr

/-- Python `SnapshotOpenOrder`. -/
structure SnapshotOpenOrder where
  orderId : String
  symbol : String
  side : OrderSide
  remainingQty : ℚ
  reducesPosition : Bool
  hasUnresolvedPartialFill : Bool := false
  deriving DecidableEq, Repr

/-- The payload `state_hash` digests, standing for the digest. -/
structure StateHash where
  accountId : Nat
  cursor : Option String
  positions : List (String × ℚ × ℚ)
  openOrders : List (String × String × OrderSide × ℚ)
  cash : ℚ
  reserved : List (String × ℚ)
  absorbedReservedFill : List (String × ℚ)
  deriving DecidableEq, Repr

/-- Python `AccountSnapshot`. -/
structure AccountSnapshot where
  accountId : Nat
  positions : Dict String SnapshotPosition
  openOrders : List SnapshotOpenOrder
  cash : ℚ
  equity : ℚ
  brokerCursor : Option String
  observedCursor : Option String := none
  observedInflightBySymbol : Dict String String := .empty
  complete : Bool := true
  reservedReducingQty : Dict String ℚ := .empty
  absorbedReservedFillQty : Dict String ℚ := .empty
  deriving DecidableEq, Repr

/-- Python `ProposedAction`. -/
structure ProposedAction where
  action : ActionType
  symbol : String
  side : Option OrderSide := none
  qty : Option ℚ := none
  price : Option ℚ := none
  targetOrderId : Option String := none
  deriving DecidableEq, Repr

/-- Python `RiskEffectDecision`. -/
structure RiskEffectDecision where
  riskEffect : RiskEffect
  decision : Decision
  reasons : List RiskEffectReason
  policyVersion : String
  beforeStateHash : StateHash
  projectedAfterStateHash : Option StateHash
  positionQtyBefore : ℚ
  positionQtyAfter : Option ℚ
  grossExposureBefore : ℚ
  grossExposureAfter : Option ℚ
  availableReducibleQty : Option ℚ
  deriving DecidableEq, Repr

/-- Python `RISK_POLICY_VERSION`. -/
def riskPolicyVersion : String := "0042.1"

/-- Python `RiskEffectDecision.is_verified_reduction`. -/
def RiskEffectDecision.isVerifiedReduction (d : RiskEffectDecision) : Bool :=
  d.riskEffect = .riskReducing ∧ d.decision = .allow

namespace AccountSnapshot

/-- The signed quantity held in a symbol, zero when there is no position. -/
def positionQty (snap : AccountSnapshot) (sym : String) : ℚ :=
  ((snap.positions.get sym).map (·.qty)).getD 0

/-- Python `AccountSnapshot.gross_exposure`. -/
def grossExposure (snap : AccountSnapshot) : ℚ :=
  (snap.positions.values.map fun p => |p.qty| * p.price).sum

/-- Python `AccountSnapshot.state_hash`. -/
def stateHash (snap : AccountSnapshot) : StateHash where
  accountId := snap.accountId
  cursor := snap.brokerCursor
  positions := (snap.positions.values.map fun p => (p.symbol, p.qty, p.price)).mergeSort
    fun p q => decide (p.1 ≤ q.1)
  openOrders := (snap.openOrders.map fun o => (o.orderId, o.symbol, o.side, o.remainingQty)).mergeSort
    fun o o' => decide (o.1 ≤ o'.1)
  cash := snap.cash
  reserved := snap.reservedReducingQty.entries.mergeSort fun e e' => decide (e.1 ≤ e'.1)
  absorbedReservedFill := snap.absorbedReservedFillQty.entries.mergeSort
    fun e e' => decide (e.1 ≤ e'.1)

/-- Python `AccountSnapshot._inflight_disagreement`. -/
def inflightDisagreement (snap : AccountSnapshot) (reducingCandidate : Option String) : Bool :=
  if snap.observedInflightBySymbol.entries.isEmpty then false
  else match reducingCandidate with
    | none => true
    | some sym => snap.observedInflightBySymbol.contains (upper sym)

/-- Python `AccountSnapshot.is_causally_complete`: `none` when complete, else the reason it is not. -/
def isCausallyComplete (snap : AccountSnapshot) (reducingCandidate : Option String) :
    Option RiskEffectReason :=
  if !snap.complete then some .snapshotIncomplete
  else
    let refused : Option RiskEffectReason :=
      match snap.brokerCursor with
      | none =>
        if !snap.openOrders.isEmpty then some .snapshotIncomplete
        else if snap.inflightDisagreement reducingCandidate then some .snapshotStale
        else none
      | some cursor =>
        match snap.observedCursor with
        | some observed => if cursor < observed then some .snapshotStale else none
        | none => none
    match refused with
    | some why => some why
    | none =>
      if snap.openOrders.any (·.hasUnresolvedPartialFill) then some .unresolvedPartialFill else none

end AccountSnapshot

/-! ## Reducible capacity -/

/-- The broker-open reducing sells of a symbol, `in_flight` of `claimable_reducible_quantity`. -/
def inFlight (snap : AccountSnapshot) (symbol : String) : ℚ :=
  ((snap.openOrders.filter fun o =>
    upper o.symbol == upper symbol && o.side == .sell && o.reducesPosition).map (·.remainingQty)).sum

/-- Python `claimable_reducible_quantity`. -/
def claimableReducibleQuantity (snap : AccountSnapshot) (symbol : String) : ℚ :=
  let current := snap.positionQty (upper symbol)
  if current ≤ 0 then 0
  else
    let reservedTotal := (snap.reservedReducingQty.get (upper symbol)).getD 0
    let reservedFilled := (snap.absorbedReservedFillQty.get (upper symbol)).getD 0
    let reservedPending := max 0 (reservedTotal - reservedFilled)
    let unreservedInFlight := max 0 (inFlight snap symbol - reservedPending)
    max 0 (current + reservedFilled - unreservedInFlight)

/-- Python `available_reducible_quantity`. -/
def availableReducibleQuantity (snap : AccountSnapshot) (symbol : String) : ℚ :=
  let reserved := (snap.reservedReducingQty.get (upper symbol)).getD 0
  max 0 (claimableReducibleQuantity snap symbol - reserved)

lemma claimable_le {sym : String} : claimableReducibleQuantity snap sym ≤
      max 0 (snap.positionQty (upper sym) + (snap.absorbedReservedFillQty.get (upper sym)).getD 0) := by
  unfold claimableReducibleQuantity
  dsimp only
  split
  · exact le_max_left _ _
  · refine max_le_max le_rfl ?_
    have := le_max_left 0 (inFlight snap sym - max 0 ((snap.reservedReducingQty.get (upper sym)).getD 0 -
      (snap.absorbedReservedFillQty.get (upper sym)).getD 0))
    linarith

/-! ## The classifier -/

/-- Python `_reducing_candidate_symbol`. -/
def reducingCandidateSymbol (snap : AccountSnapshot) (action : ProposedAction) : Option String :=
  if action.action ≠ .orderSubmit then none
  else match action.side, action.qty with
    | some side, some qty =>
      if qty ≤ 0 then none
      else match snap.positions.get (upper action.symbol) with
        | none => none
        | some held =>
          if held.qty = 0 then none
          else if 0 < held.qty ∧ side = .sell ∧ qty ≤ held.qty then some (upper action.symbol)
          else if held.qty < 0 ∧ side = .buy ∧ qty ≤ -held.qty then some (upper action.symbol)
          else none
    | _, _ => none

/-- A price Python reads as true: present and not zero. -/
def truthy (price : Option ℚ) : Option ℚ := price.filter (· ≠ 0)

/-- Python `_out`, the closure through which `classify` builds every result. -/
def emit (snap : AccountSnapshot) (action : ProposedAction) (effect : RiskEffect)
    (decision : Decision) (reasons : List RiskEffectReason) (qtyAfter grossAfter reducible : Option ℚ)
    (afterHash : Option StateHash) : RiskEffectDecision where
  riskEffect := effect
  decision := decision
  reasons := reasons
  policyVersion := riskPolicyVersion
  beforeStateHash := snap.stateHash
  projectedAfterStateHash := afterHash
  positionQtyBefore := snap.positionQty (upper action.symbol)
  positionQtyAfter := qtyAfter
  grossExposureBefore := snap.grossExposure
  grossExposureAfter := grossAfter
  availableReducibleQty := reducible

/-- The projected state of a permitted sell, whose hash is recorded. -/
def afterSnapshot (snap : AccountSnapshot) (sym : String) (qty price qtyAfter : ℚ) :
    AccountSnapshot where
  accountId := snap.accountId
  positions :=
    if qtyAfter = 0 then snap.positions.erase sym
    else snap.positions.set sym ⟨sym, qtyAfter, price⟩
  openOrders := snap.openOrders
  cash := snap.cash + qty * price
  equity := snap.equity
  brokerCursor := snap.brokerCursor
  observedCursor := snap.observedCursor
  reservedReducingQty := snap.reservedReducingQty

/-- Python `_classify_cancel`. -/
def classifyCancel (snap : AccountSnapshot) (action : ProposedAction) : RiskEffectDecision :=
  match snap.openOrders.find? (fun o => some o.orderId == action.targetOrderId) with
  | none => emit snap action .indeterminate .failClosed [.snapshotIncomplete] none none none none
  | some target =>
    if target.hasUnresolvedPartialFill then
      emit snap action .indeterminate .failClosed [.unresolvedPartialFill] none none none none
    else if target.reducesPosition then
      emit snap action .riskIncreasing .reject [.cancelRemovesProtectiveReduction] none none none none
    else
      emit snap action .riskReducing .allow [.cancelRemovesRiskIncreasingOrder] none none none none

/-- The `ORDER_SUBMIT` branch of `classify`, for a positive quantity. -/
def classifySubmit (snap : AccountSnapshot) (action : ProposedAction) (qty : ℚ) :
    RiskEffectDecision :=
  let sym := upper action.symbol
  let pos := snap.positions.get sym
  let qtyBefore := snap.positionQty sym
  let grossBefore := snap.grossExposure
  let price := (truthy action.price).orElse fun _ => pos.map (·.price)
  let grossUp := (truthy price).map fun p => grossBefore + qty * p
  if action.side = some .buy then
    if qtyBefore < 0 then
      emit snap action .riskReducing .reject [.shortNotSupportedV1] none none none none
    else
      emit snap action .riskIncreasing .reject
        [if qtyBefore = 0 then .opensNewPosition else .increasesInstrumentExposure]
        (some (qtyBefore + qty)) grossUp none none
  else if qtyBefore ≤ 0 then
    emit snap action .riskIncreasing .reject
      [if qtyBefore = 0 then .noPosition else .increasesInstrumentExposure]
      (some (qtyBefore - qty)) grossUp none none
  else
    let qtyAfter := qtyBefore - qty
    if qtyAfter < 0 then
      emit snap action .riskIncreasing .reject [.crossesZero] (some qtyAfter) none none none
    else
      let reducible := availableReducibleQuantity snap sym
      if reducible < qty then
        emit snap action .indeterminate .failClosed [.exceedsReducibleQuantity]
          (some qtyAfter) none (some reducible) none
      else match price with
        | none =>
          emit snap action .indeterminate .failClosed [.noPrice]
            (some qtyAfter) none (some reducible) none
        | some p =>
          if p ≤ 0 then
            emit snap action .indeterminate .failClosed [.noPrice]
              (some qtyAfter) none (some reducible) none
          else
            let grossAfter := grossBefore - qty * p
            if grossBefore ≤ grossAfter then
              emit snap action .riskIncreasing .reject [.increasesGrossExposure]
                (some qtyAfter) (some grossAfter) (some reducible) none
            else
              emit snap action .riskReducing .allow [.verifiedReduction]
                (some qtyAfter) (some grossAfter) (some reducible)
                (some (afterSnapshot snap sym qty p qtyAfter).stateHash)

/-- Python `classify`. -/
def classify (snap : AccountSnapshot) (action : ProposedAction) : RiskEffectDecision :=
  match snap.isCausallyComplete (reducingCandidateSymbol snap action) with
  | some why => emit snap action .indeterminate .failClosed [why] none none none none
  | none =>
    match action.action with
    | .orderCancel => classifyCancel snap action
    | .orderReplace =>
      emit snap action .indeterminate .failClosed [.unknownAction] none none none none
    | .orderSubmit =>
      match action.qty with
      | none => emit snap action .indeterminate .failClosed [.nonPositiveQuantity] none none none none
      | some qty =>
        if qty ≤ 0 then
          emit snap action .indeterminate .failClosed [.nonPositiveQuantity] none none none none
        else classifySubmit snap action qty

/-! ## What a verified reduction is -/

/-- What the classifier has checked when it verifies a submission of `q`. -/
structure VerifiedSubmit (snap : AccountSnapshot) (action : ProposedAction) (q : ℚ) : Prop where
  complete : snap.complete = true
  pos : 0 < q
  notBuy : action.side ≠ some .buy
  long : 0 < snap.positionQty (upper action.symbol)
  within : q ≤ snap.positionQty (upper action.symbol)
  available : q ≤ availableReducibleQuantity snap (upper action.symbol)

lemma classifySubmit_verified {action : ProposedAction} {q : ℚ}
    (v : (classifySubmit snap action q).isVerifiedReduction = true) :
    action.side ≠ some .buy ∧ 0 < snap.positionQty (upper action.symbol) ∧ q ≤ snap.positionQty (upper action.symbol) ∧
      q ≤ availableReducibleQuantity snap (upper action.symbol) := by
  simp only [classifySubmit] at v
  split at v
  · split at v <;> simp [RiskEffectDecision.isVerifiedReduction, emit] at v
  · rename_i notBuy
    split at v
    · simp [RiskEffectDecision.isVerifiedReduction, emit] at v
    · rename_i long
      split at v
      · simp [RiskEffectDecision.isVerifiedReduction, emit] at v
      · rename_i within
        split at v
        · simp [RiskEffectDecision.isVerifiedReduction, emit] at v
        · rename_i available
          exact ⟨notBuy, not_le.1 long, by linarith, not_lt.1 available⟩

lemma classify_verified_submit {action : ProposedAction} {q : ℚ}
    (submit : action.action = .orderSubmit) (qty : action.qty = some q)
    (v : (classify snap action).isVerifiedReduction = true) : VerifiedSubmit snap action q := by
  simp only [classify, submit, qty] at v
  split at v
  · simp [RiskEffectDecision.isVerifiedReduction, emit] at v
  · rename_i complete
    split at v
    · simp [RiskEffectDecision.isVerifiedReduction, emit] at v
    · rename_i pos
      obtain ⟨notBuy, long, within, available⟩ := classifySubmit_verified v
      refine ⟨?_, not_le.1 pos, notBuy, long, within, available⟩
      cases c : snap.complete with
      | true => rfl
      | false => simp [AccountSnapshot.isCausallyComplete, c] at complete

lemma classifySubmit_flat {action : ProposedAction} {q : ℚ} (flat : snap.positionQty (upper action.symbol) = 0) :
    (classifySubmit snap action q).decision = .reject := by
  unfold classifySubmit
  dsimp only
  split
  · rw [if_neg (by rw [flat]; exact lt_irrefl 0)]
    rfl
  · rw [if_pos flat.le]
    rfl

end Workbench.Risk
