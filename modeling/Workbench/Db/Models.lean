import Workbench.Lib.Table
import Workbench.Risk.RiskEffect

/-!
# Database rows

Model of the tables under `app/db/models/` that the risk engine, the decision service and the order
path read and write. Rows carry the columns those modules use.

Append-only tables (orders, fills, reservations, ledger rows, control events) are lists whose primary
key is the position; tables with a unique business key and rewritten or deleted rows (accounts,
account states, positions, capacity rows, loss-control states) are dictionaries on that key.

A `Fill.broker_fill_id` is either the broker's execution id or the synthetic
`settle-<broker order>-<cumulative quantity>` of a REST settlement; the two spellings never collide,
so they are two constructors of `FillId`.
-/

namespace Workbench
open Workbench.Lib Workbench.Risk

/-- Python `Account`. -/
structure Account where
  userId : Nat
  mode : AccountMode
  label : Option String := none
  circuitBreakerTrippedAt : Option Instant := none

/-- Python `Symbol`. -/
structure Symbol where
  ticker : String
  active : Bool

/-- Python `RiskLimits`; an absent symbol list and an empty one both read as false. -/
structure RiskLimits where
  userId : Nat
  scopeType : RiskScopeType
  brokerMode : AccountMode
  maxPositionQty : Option ℚ := none
  maxPositionNotional : Option ℚ := none
  maxGrossExposure : Option ℚ := none
  maxDailyLoss : Option ℚ := none
  maxOrdersPerMinute : Option Nat := none
  maxOrdersPerDay : Option Nat := none
  allowShort : Bool := false
  allowedSymbols : List String := []
  deniedSymbols : List String := []

/-- Python `AccountState`. -/
structure AccountState where
  equity : ℚ
  lastEquity : ℚ
  dayChange : ℚ

/-- Python `Position`, under its unique key (account, symbol). -/
structure Position where
  qty : ℚ
  avgEntryPrice : ℚ := 0
  marketValue : ℚ := 0
  costBasis : ℚ := 0
  unrealizedPl : ℚ := 0

/-- Python `Order`. -/
structure Order where
  userId : Nat
  accountId : Nat
  symbolId : Nat
  brokerOrderId : Option String := none
  side : OrderSide
  qty : ℚ
  estimatedNotional : Option ℚ := none
  status : OrderStatus := .pendingRisk
  createdAt : Instant
  updatedAt : Instant

/-- A `Fill.broker_fill_id`. -/
inductive FillId where
  | execution (id : String)
  | settle (brokerOrderId : String) (cumQty : ℚ)
  deriving DecidableEq, Repr

/-- Python `Fill`. -/
structure Fill where
  orderId : Nat
  brokerFillId : Option FillId
  qty : ℚ
  price : ℚ
  filledAt : Instant

/-- The states of a `RiskReservation`. -/
inductive ReservationState where
  | held
  | consumed
  | released
  deriving DecidableEq, Repr

/-- Python `RiskReservation`. -/
structure RiskReservation where
  accountId : Nat
  symbol : String
  qty : ℚ
  orderId : Option Nat := none
  decisionId : Option Nat := none
  positionQtyAtReservation : Option ℚ
  state : ReservationState := .held
  createdAt : Instant
  releaseReason : Option String := none

/-- Python `RiskCapacityState`, under its unique key (account, symbol). -/
structure RiskCapacityState where
  snapshotVersion : StateHash
  reducibleCapacityQty : ℚ
  reservedQty : ℚ
  stateVersion : Nat

/-- Why an account is in restricted mode (`app/risk/lock_state.py`). -/
inductive LockState where
  | unlocked
  | dailyLoss
  | breaker
  deriving DecidableEq, Repr

/-- Python `RiskDecision` (`app/db/models/risk_decision.py`): one row of the append-only ledger. -/
structure LedgerRow where
  accountId : Nat
  action : ProposedAction
  lockState : LockState
  lockReason : Option String
  dailyPnl : Option ℚ
  result : RiskEffectDecision
  capacityStateVersion : Option Nat

/-- Python `RiskCheck`. -/
structure RiskCheck where
  decision : RiskVerdict
  reasonCodes : List ReasonCode

/-- The six loss-control states (`app/risk/loss_control/constants.py`). -/
inductive LossState where
  | normal
  | reductionOnlyDailyLoss
  | reductionOnlyBreaker
  | integrityStop
  | recoveryPreflight
  | recoveryCooldown
  deriving DecidableEq, Repr

/-- Python `RiskLossControlState`, one row an account. -/
structure RiskLossControlState where
  state : LossState
  stateVersion : Nat
  lastSequenceNo : Nat
  deriving DecidableEq, Repr

/-- The triggers of `app/risk/loss_control/state_machine.py`. -/
inductive LossTrigger where
  | dailyLossBreach
  | breakerTrip
  | integrityViolation
  | recoveryRequest
  | preflightPass
  | preflightFail
  | cooldownComplete
  | healthRegressed
  deriving DecidableEq, Repr

/-- The control an applied transition is recorded under. -/
inductive ControlType where
  | dailyLoss
  | circuitBreaker
  | integrity
  | recovery
  deriving DecidableEq, Repr

/-- The trip causes of `app/risk/loss_control/constants.py`; `unlisted` is any other text. -/
inductive TripCause where
  | realizedAndMarkToMarketLoss
  | lossVelocity
  | brokerStateUncertain
  | positionReconciliationFailed
  | sessionBaselineMissing
  | sessionBaselineMismatch
  | staleMarketData
  | orderStateUncertain
  | controlConfigurationInvalid
  | reductionNotVerifiable
  | operatorEmergency
  | unknown
  | unlisted (text : String)
  deriving DecidableEq, Repr

/-- How well a trip cause is established. -/
inductive TripEvidenceStatus where
  | confirmed
  | suspected
  | artifactConfirmed
  | unresolved
  deriving DecidableEq, Repr

/-- Python `TransitionContext`: what is recorded on an event besides its transition. -/
structure TransitionContext where
  sessionDate : Option String := none
  tripCause : Option TripCause := none
  tripEvidenceStatus : Option TripEvidenceStatus := none
  deriving DecidableEq, Repr

/-- Python `RiskControlEvent`: one applied transition of the loss-control state. -/
structure RiskControlEvent where
  accountId : Nat
  sequenceNo : Nat
  controlType : ControlType
  fromState : LossState
  toState : LossState
  requestedTransition : LossTrigger
  createdAt : Instant
  context : TransitionContext := {}
  deriving DecidableEq, Repr

/-- The twelve checks of a recovery preflight, in the order of `PREFLIGHT_CHECK_REGISTRY`. -/
inductive CheckName where
  | stateKnownAndRecoverable
  | recoveryOriginProven
  | brokerReachable
  | brokerAccountActive
  | positionsReconcile
  | openOrdersReconcile
  | reservationsReconcile
  | sessionBaselineValid
  | dailyLossRecomputed
  | tripCauseClassified
  | controlStateConsistent
  | noUnresolvedIntegrityCondition
  deriving DecidableEq, Repr

/-- The status of one check, and the aggregate verdict of all. -/
inductive CheckStatus where
  | pass
  | fail
  | incomplete
  deriving DecidableEq, Repr

/-- Python `RiskRecoveryPreflightCheck`, without its evidence. -/
structure CheckResult where
  name : CheckName
  status : CheckStatus
  deriving DecidableEq, Repr

/-- The actor types of the recovery authority matrix. -/
inductive ActorType where
  | owner
  | riskOperator
  | system
  deriving DecidableEq, Repr

/-- The lifecycle status of a recovery preflight. -/
inductive PreflightStatus where
  | requested
  | running
  | passed
  | failed
  | incomplete
  | authorizationRequired
  | commitFailed
  deriving DecidableEq, Repr

/-- Python `RiskRecoveryPreflight`, with the rows of its last check run. -/
structure RiskRecoveryPreflight where
  accountId : Nat
  idempotencyKey : String
  expectedStateVersion : Nat
  requestedByActorType : ActorType
  requestedByActorId : Nat
  originState : Option LossState
  requestEventId : Option Nat := none
  tripCause : Option TripCause := none
  aggregateVerdict : Option CheckStatus := none
  authorizedByActorType : Option ActorType := none
  authorizedByActorId : Option Nat := none
  status : PreflightStatus := .requested
  transitionEventId : Option Nat := none
  checks : List CheckResult := []
  deriving DecidableEq, Repr

/-- Python `RiskSessionBaseline`. -/
structure RiskSessionBaseline where
  accountId : Nat
  marketSessionDate : String
  active : Bool
  baselineEquity : ℚ

/-- The fields of a Start A authorization that its body hash covers. -/
structure StartABody where
  startAId : String
  freezeId : String
  freezeBodySha256 : String
  brokerAccountId : String
  workbenchAccountId : Nat
  configurationDigest : String
  imageDigest : String
  commitSha : String
  authorizedSessionDate : String
  designVersion : String
  applicableDailyLossLimit : ℚ
  effective : Bool
  deriving DecidableEq

/-- Python `RiskCanaryStartAAuthorization`; the sealed hash is kept as the body it was taken of. -/
structure StartAAuthorization where
  body : StartABody
  sealedBody : StartABody

/-- Python `RiskCanarySessionBaseline`. -/
structure CanaryBaseline where
  accountId : Nat
  marketSessionDate : String
  designVersion : String
  freezeId : String
  startAId : String
  configurationDigest : String
  active : Bool
  sessionOpenSource : Bool
  freezeBodySha256 : String
  imageDigest : String
  commitSha : String
  brokerAccountId : String
  evidenceComplete : Bool
  baselineEquity : ℚ

/-- The database. -/
structure Db where
  halted : Bool := false
  accounts : Dict Nat Account := .empty
  symbols : List Symbol := []
  riskLimits : List RiskLimits := []
  accountStates : Dict Nat AccountState := .empty
  positions : Dict (Nat × Nat) Position := .empty
  orders : List Order := []
  fills : List Fill := []
  reservations : List RiskReservation := []
  capacity : Dict (Nat × String) RiskCapacityState := .empty
  ledger : List LedgerRow := []
  riskChecks : List RiskCheck := []
  lossControl : Dict Nat RiskLossControlState := .empty
  controlEvents : List RiskControlEvent := []
  preflights : List RiskRecoveryPreflight := []
  sessionBaselines : List RiskSessionBaseline := []
  startA : List StartAAuthorization := []
  canaryBaselines : List CanaryBaseline := []

namespace Db

/-- `SUM(fills.qty)` of one order. -/
def filledQty (db : Db) (orderId : Nat) : ℚ :=
  Table.total (fun f : Fill => if f.orderId = orderId then f.qty else 0) db.fills

/-- The ticker an order's `symbol_id` names. -/
def ticker (db : Db) (o : Order) : Option String := (db.symbols[o.symbolId]?).map (·.ticker)

end Db

/-- The quantity a reservation holds of the capacity of `(account, symbol)`. -/
def RiskReservation.heldFor (account : Nat) (symbol : String) (r : RiskReservation) : ℚ :=
  if r.accountId = account ∧ r.symbol = symbol ∧ r.state = .held then r.qty else 0

/-- `SUM(qty)` over the HELD reservations of `(account, symbol)`. -/
def Db.heldQty (db : Db) (account : Nat) (symbol : String) : ℚ :=
  Table.total (RiskReservation.heldFor account symbol) db.reservations

/-- The accumulator of `(account, symbol)`, zero when there is no capacity row. -/
def Db.reservedQty (db : Db) (account : Nat) (symbol : String) : ℚ :=
  ((db.capacity.get (account, symbol)).map (·.reservedQty)).getD 0

end Workbench
