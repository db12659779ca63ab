import Mathlib.Tactic
import Mathlib.Algebra.Order.Ring.Rat

/-!
# Trading-domain enums

Model of `app/db/enums.py`, of `AccountMode` (`app/db/models/account.py`), `LossControlMode`
(`app/config.py`), `MarketSessionType` (`app/market/session.py`) and `ReasonCode`
(`app/risk/reason_codes.py`). Every `StrEnum` is an inductive type; a frozen set of members is a
Boolean function on it (`OrderStatus.terminal`, `StrategyStatus.runnable`).

Amounts (`Decimal`) are exact rationals, instants are microseconds since the epoch, and `upper` is
`str.upper` on tickers.
-/

namespace Workbench

/-- A point in time, in microseconds since the epoch. -/
abbrev Instant := Nat

/-- Python `str.upper`, on ASCII tickers. -/
def upper (s : String) : String := s.toUpper

private lemma char_toUpper_toUpper (c : Char) : c.toUpper.toUpper = c.toUpper := by
  unfold Char.toUpper
  split
  · rename_i low
    split
    · rename_i low'
      exfalso
      have h1 := low.1
      have h2 := low.2
      have h3 := low'.1
      simp only [UInt32.le_iff_toNat_le, UInt32.toNat_add] at h1 h2 h3
      simp only [show ('a'.val).toNat = 97 from rfl, show ('z'.val).toNat = 122 from rfl,
        show ('A'.val - 'a'.val).toNat = 4294967264 from rfl] at h1 h2 h3
      omega
    · rfl
  · rfl

@[simp] lemma upper_upper (s : String) : upper (upper s) = upper s := by
  unfold upper String.toUpper
  rw [String.map_map]
  congr 1
  funext c
  exact char_toUpper_toUpper c

/-- Python `OrderSide`. -/
inductive OrderSide where
  | buy
  | sell
  deriving DecidableEq, Repr

/-- Python `OrderType`. -/
inductive OrderType where
  | market
  | limit
  | stop
  | stopLimit
  deriving DecidableEq, Repr

/-- Python `OrderStatus`. -/
inductive OrderStatus where
  | pendingRisk
  | pendingSubmit
  | submitted
  | partiallyFilled
  | filled
  | canceled
  | expired
  | rejected
  | replaced
  deriving DecidableEq, Repr

/-- Membership in Python `TERMINAL_ORDER_STATUSES`. -/
def OrderStatus.terminal : OrderStatus → Bool
  | .filled | .canceled | .expired | .rejected | .replaced => true
  | _ => false

/-- Python `OrderSourceType`. -/
inductive OrderSourceType where
  | manual
  | strategy
  | agentStrategy
  | agentProposal
  | pine
  deriving DecidableEq, Repr

/-- Python `RiskDecision` (`app/db/enums.py`): the outcome of one risk evaluation. -/
inductive RiskVerdict where
  | pass
  | reject
  deriving DecidableEq, Repr

/-- Python `RiskScopeType`. -/
inductive RiskScopeType where
  | global
  | account
  | strategy
  | agentSession
  deriving DecidableEq, Repr

/-- Python `AccountMode`. -/
inductive AccountMode where
  | paper
  | live
  deriving DecidableEq, Repr

/-- Python `LossControlMode`. -/
inductive LossControlMode where
  | off
  | shadow
  | enforce
  deriving DecidableEq, Repr

/-- Python `MarketSessionType` (`app/market/session.py`). -/
inductive MarketSessionType where
  | regular
  | preMarket
  | afterHours
  | closed
  deriving DecidableEq, Repr

/-- Python `SessionInfo.dispatchable`. -/
def MarketSessionType.dispatchable (session : MarketSessionType) (allowExtended : Bool) : Bool :=
  match session with
  | .regular => true
  | .preMarket | .afterHours => allowExtended
  | .closed => false

/-- Python `StrategyType`. -/
inductive StrategyType where
  | python
  | pine
  | agent
  deriving DecidableEq, Repr

/-- Python `StrategyStatus`. -/
inductive StrategyStatus where
  | idle
  | backtest
  | paper
  | pendingLive
  | live
  | halted
  | error
  | paperVariant
  deriving DecidableEq, Repr

/-- Membership in Python `ACTIVE_STRATEGY_STATUSES`. -/
def StrategyStatus.active : StrategyStatus → Bool
  | .paper | .live => true
  | _ => false

/-- Membership in Python `ENGINE_RUNNABLE_STATUSES`. -/
def StrategyStatus.runnable (status : StrategyStatus) : Bool :=
  status.active || status = .paperVariant

/-- The `ReasonCode`s a `RiskEngine.evaluate` outcome can carry. -/
inductive ReasonCode where
  | ok
  | modeMismatch
  | symbolDenied
  | shortNotAllowed
  | positionCapQty
  | positionCapNotional
  | positionCapUnpriced
  | grossExposure
  | haltReached
  | rateLimit
  | invalidInput
  | noLimitsConfigured
  | circuitBreaker
  | lossControlStop
  | maxOrdersPerDay
  | insufficientBuyingPower
  | marketSessionClosed
  deriving DecidableEq, Repr

end Workbench
