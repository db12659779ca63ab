import Workbench.Db.Models

/-!
# The lock state

Model of `app/risk/lock_state.py`: whether an account is in restricted mode, and why, as the
cancellation path asks it.
-/

namespace Workbench.Risk

/-- What `current_lock_state` returns. -/
structure CurrentLock where
  lockState : LockState
  lockReason : Option String
  dailyPnl : Option ℚ

/-- Python `current_lock_state`; the breaker is checked first. -/
def currentLockState (db : Db) (accountId userId : Nat) (brokerMode : AccountMode) : CurrentLock :=
  match db.accounts.get accountId with
  | none => ⟨.unlocked, none, none⟩
  | some account =>
    let dailyPnl := (db.accountStates.get accountId).map (·.dayChange)
    if account.circuitBreakerTrippedAt.isSome then
      ⟨.breaker, some "circuit_breaker_tripped", dailyPnl⟩
    else
      let limits := db.riskLimits.find? fun l =>
        l.userId = userId ∧ l.brokerMode = brokerMode ∧ l.scopeType = .global
      match limits.bind (·.maxDailyLoss), dailyPnl with
      | some maxLoss, some pnl =>
        if pnl ≤ -maxLoss then ⟨.dailyLoss, some "daily_loss_exceeded", some pnl⟩
        else ⟨.unlocked, none, some pnl⟩
      | _, _ => ⟨.unlocked, none, dailyPnl⟩

end Workbench.Risk
