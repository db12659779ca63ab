import Workbench.Db.Models

/-!
# Requests and outcomes

Model of `app/risk/types.py`: the caller's `OrderRequest` and the engine's `RiskOutcome`. `Settings`
holds the two settings of `app/config.py` that the risk code reads, `Clock` the two readings it takes
of the time.
-/

namespace Workbench.Risk

/-- The settings (`app/config.py`) the risk code reads. -/
structure Settings where
  lossControlMode : LossControlMode := .off
  sessionBaselineEnforcementEnabled : Bool := false

/-- `datetime.now(UTC)`, and the ET trading date `resolve_session_date` gives it. -/
structure Clock where
  now : Instant
  sessionDate : Option String := none

/-- Python `OrderRequest`. -/
structure OrderRequest where
  userId : Nat
  accountId : Nat
  symbolTicker : String
  side : OrderSide
  qty : ℚ
  type : OrderType := .market
  limitPrice : Option ℚ := none
  stopPrice : Option ℚ := none
  extendedHours : Bool := false
  sourceType : OrderSourceType := .manual
  referencePrice : Option ℚ := none

/-- Python `RiskOutcome`. -/
structure RiskOutcome where
  decision : RiskVerdict
  reasonCodes : List ReasonCode
  riskCheckId : Option Nat := none
  resolvedSymbolId : Option Nat := none
  estimatedNotional : Option ℚ := none
  reservationId : Option Nat := none
  deriving DecidableEq

/-- Python `RiskOutcome.passed`. -/
def RiskOutcome.passed (outcome : RiskOutcome) : Bool := outcome.decision = .pass

end Workbench.Risk
