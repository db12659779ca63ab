import Workbench.Risk.LockState
import Workbench.Risk.Course

/-!
# Two definitions of locked

The cancellation path asks `current_lock_state` whether an account is locked; a submission is locked
when step 9 or step 13 of the engine puts it to the verified-reduction test. `current_lock_state`
compares the stored day change with the cap. Step 9 compares the figure of the daily-loss basis, step
13 a figure of its own, and both lock the account when a Model A basis governs and is not available.

`lock_definitions_agree_iff` says on exactly which states of an account the two definitions agree.
-/

namespace Workbench.Risk
open Workbench.Lib Workbench.Brokers Workbench.Risk.LossControl Option

variable {env : Env} {db : Db} {a userId : Nat} {req : OrderRequest} {brokerMode : AccountMode}
variable {ctx : Applicable} {account : Account}

/-- Step 9 or step 13 puts a submission on the account to the verified-reduction test. -/
def engineLocks (env : Env) (db : Db) (accountId userId : Nat) (brokerMode : AccountMode) : Bool :=
  ((loadGlobalLimits db userId brokerMode).any fun limits =>
      dailyLossReading env db accountId limits ≠ .clear) ||
    (breakerError env db accountId).isSome

/-- `current_lock_state` reports a lock. -/
def cancelLocks (db : Db) (accountId userId : Nat) (brokerMode : AccountMode) : Bool :=
  (currentLockState db accountId userId brokerMode).lockState ≠ .unlocked

/-- A submission that every other gate lets through is put to the test, or stopped on the way to it,
    exactly when the engine locks the account. -/
lemma course_unasked_iff (limits : loadGlobalLimits db req.userId brokerMode = some ctx.limits)
    (gates : orderGates env db req ctx = none) (throttled : throttleGates env db req brokerMode ctx.limits = none) :
    course env db req brokerMode ctx = .unasked ↔ engineLocks env db req.accountId req.userId brokerMode = false := by
  unfold course engineLocks
  simp only [gates, throttled, limits, isSome_none, Bool.false_eq_true, if_false,
    any_some, Bool.or_eq_false_iff, decide_eq_false_iff_not, not_not]
  cases reading : dailyLossReading env db req.accountId ctx.limits with
  | basisUnavailable status => simp
  | breached x =>
    dsimp only
    split <;> simp
  | clear =>
    dsimp only
    cases error : breakerError env db req.accountId with
    | none => simp
    | some error =>
      dsimp only
      split <;> simp

/-! ## The figures -/

/-- A day's figure is at or below the cap on losses. -/
def breaches (cap : Option ℚ) (pnl : ℚ) : Bool := cap.any (pnl ≤ -·)

/-- The cap on the daily loss that step 9 and `current_lock_state` read. -/
def userCap (db : Db) (userId : Nat) (brokerMode : AccountMode) : Option ℚ :=
  (loadGlobalLimits db userId brokerMode).bind (·.maxDailyLoss)

/-- The cap on the daily loss that the breaker reads. -/
def accountCap (db : Db) (account : Account) : Option ℚ :=
  (getActiveLimits db account).bind (·.maxDailyLoss)

/-- The cumulative figure the breaker falls back on. -/
def cumulativePnl (env : Env) (db : Db) (accountId : Nat) : Cumulative :=
  ⟨computeRealizedPnlToday db accountId env.clock.now, computeUnrealizedPnl db accountId⟩

/-- The figure of step 13 without Model A, by the flag: the session baseline first when it is on, then
    the change of equity over a positive last equity, then the cumulative figure. -/
def breakerFigure (env : Env) (db : Db) (accountId : Nat) : ℚ :=
  let state := db.accountStates.get accountId
  let cumulative := cumulativePnl env db accountId
  let basis :=
    if env.settings.sessionBaselineEnforcementEnabled then
      selectDailyLossBasis db accountId (state.map (·.equity)) (state.map (·.lastEquity))
        (some cumulative) env.clock.sessionDate
    else legacyBasis (state.map (·.equity)) (state.map (·.lastEquity)) (some cumulative)
  basis.dayChange.getD (cumulative.realized + cumulative.unrealized)

/-- The stored day change breaches the cap of the user. -/
def dayChangeBreaches (db : Db) (accountId userId : Nat) (brokerMode : AccountMode) : Bool :=
  (db.accountStates.get accountId).any fun s => breaches (userCap db userId brokerMode) s.dayChange

/-- The figure of step 9 with the session baseline on and without Model A breaches the cap of the
    user; there is none without an account state. -/
def baselineBreaches (env : Env) (db : Db) (accountId userId : Nat) (brokerMode : AccountMode) : Bool :=
  (db.accountStates.get accountId).any fun s =>
    (selectDailyLossBasis db accountId (some s.equity) (some s.lastEquity) none
      env.clock.sessionDate).dayChange.any (breaches (userCap db userId brokerMode))

/-- The states of an untripped account on which the two definitions agree. -/
def figuresAgree (env : Env) (db : Db) (accountId userId : Nat) (brokerMode : AccountMode)
    (account : Account) : Prop :=
  let state := db.accountStates.get accountId
  let stored := dayChangeBreaches db accountId userId brokerMode
  let cap := userCap db userId brokerMode
  let cap' := accountCap db account
  match observeModelADailyLoss db accountId (state.map (·.equity)) env.clock.sessionDate with
  | some ⟨.available, _, _, some pnl⟩ => stored = (breaches cap pnl || breaches cap' pnl)
  | some _ => (state.isSome && cap.isSome || cap'.isSome) = true → stored = true
  | none =>
    if env.settings.sessionBaselineEnforcementEnabled then
      stored = (baselineBreaches env db accountId userId brokerMode ||
        breaches cap' (breakerFigure env db accountId))
    else breaches cap' (breakerFigure env db accountId) = true → stored = true

/-- The condition: the breaker is tripped, or the figures agree. -/
def LocksAgree (env : Env) (db : Db) (accountId userId : Nat) (brokerMode : AccountMode)
    (account : Account) : Prop :=
  account.circuitBreakerTrippedAt.isSome = true ∨ figuresAgree env db accountId userId brokerMode account

/-! ## What each definition compares -/

lemma cancelLocks_eq (get : db.accounts.get a = some account) :
    cancelLocks db a userId brokerMode =
      (account.circuitBreakerTrippedAt.isSome || dayChangeBreaches db a userId brokerMode) := by
  have same : (db.riskLimits.find? fun l =>
      l.userId = userId ∧ l.brokerMode = brokerMode ∧ l.scopeType = .global) =
      loadGlobalLimits db userId brokerMode := by
    unfold loadGlobalLimits
    congr 1
    funext l
    grind
  unfold cancelLocks currentLockState dayChangeBreaches userCap
  rw [get, same, Bool.eq_iff_iff, decide_eq_true_eq, Bool.or_eq_true]
  dsimp only
  by_cases tripped : account.circuitBreakerTrippedAt.isSome = true
  · rw [if_pos tripped]
    simp [tripped]
  · rw [if_neg tripped]
    cases (loadGlobalLimits db userId brokerMode).bind (·.maxDailyLoss) with
    | none => cases db.accountStates.get a <;> simp [breaches, tripped]
    | some cap =>
      cases db.accountStates.get a with
      | none => simp [tripped]
      | some s =>
        dsimp only [map_some]
        split
        · rename_i breached
          simp [breaches, breached]
        · rename_i within
          simp [breaches, within, tripped]

/-- Whether a Model A observation locks an account under `cap`. -/
def observationLocks (cap : Option ℚ) (obs : DailyLossObservation) : Bool :=
  if obs.status = .available then obs.dailyPnl.any (breaches cap) else cap.isSome

lemma reading_ne_clear {cap : ℚ} {figure : Option ℚ} {modelA : Option DailyLossObservation} :
    (match modelA.filter (·.status ≠ .available) with
      | some obs => DailyLossReading.basisUnavailable obs.status
      | none =>
        match figure.filter (· ≤ -cap) with
        | some x => .breached x
        | none => .clear) ≠ .clear ↔
      modelA.any (·.status ≠ .available) = true ∨ figure.any (breaches (some cap)) = true := by
  have compared : (match figure.filter (· ≤ -cap) with
      | some x => DailyLossReading.breached x
      | none => .clear) ≠ .clear ↔ figure.any (breaches (some cap)) = true := by
    cases figure with
    | none => simp
    | some x =>
      by_cases le : x ≤ -cap
      · simp [Option.filter, breaches, le]
      · simp [Option.filter, breaches, le]
  cases modelA with
  | none => simpa using compared
  | some obs =>
    by_cases available : obs.status = .available
    · simpa [Option.filter, available] using compared
    · simp [Option.filter, available]

/-- What the daily-loss rule finds of an account, against a cap. -/
def dailyLossLocks (env : Env) (db : Db) (a : Nat) (cap : Option ℚ) : Bool :=
  (db.accountStates.get a).any fun s =>
    match observeModelADailyLoss db a (some s.equity) env.clock.sessionDate with
    | some obs => observationLocks cap obs
    | none =>
      if env.settings.sessionBaselineEnforcementEnabled then
        (selectDailyLossBasis db a (some s.equity) (some s.lastEquity) none
          env.clock.sessionDate).dayChange.any (breaches cap)
      else breaches cap s.dayChange

lemma dailyLossLocks_none : dailyLossLocks env db a none = false := by
  have never : breaches none = fun _ => false := rfl
  unfold dailyLossLocks
  cases db.accountStates.get a with
  | none => rfl
  | some s =>
    dsimp only [any_some]
    cases observeModelADailyLoss db a (some s.equity) env.clock.sessionDate <;> simp [observationLocks, never]

lemma dailyLossReading_locks {limits : RiskLimits} :
    dailyLossReading env db a limits ≠ .clear ↔ dailyLossLocks env db a limits.maxDailyLoss = true := by
  unfold dailyLossReading
  cases limits.maxDailyLoss with
  | none => simp [dailyLossLocks_none]
  | some cap =>
    refine reading_ne_clear.trans ?_
    unfold dailyLossLocks
    cases db.accountStates.get a with
    | none => simp
    | some s =>
      dsimp only [any_some]
      cases observeModelADailyLoss db a (some s.equity) env.clock.sessionDate with
      | none => cases env.settings.sessionBaselineEnforcementEnabled <;> simp
      | some obs =>
        by_cases available : obs.status = .available
        · simp [observationLocks, available]
        · simp [observationLocks, available]

lemma breakerError_locks (get : db.accounts.get a = some account) (untripped : account.circuitBreakerTrippedAt = none) :
    (breakerError env db a).isSome =
      match observeModelADailyLoss db a ((db.accountStates.get a).map (·.equity))
        env.clock.sessionDate with
      | some obs => observationLocks (accountCap db account) obs
      | none => breaches (accountCap db account) (breakerFigure env db a) := by
  unfold breakerError breakerReading accountCap
  rw [get]
  dsimp only
  rw [untripped, if_neg (by simp)]
  cases (getActiveLimits db account).bind (·.maxDailyLoss) with
  | none =>
    have never : breaches none = fun _ => false := rfl
    cases observeModelADailyLoss db a ((db.accountStates.get a).map (·.equity))
      env.clock.sessionDate <;> simp [BreakerReading.error, observationLocks, never]
  | some cap =>
    have figure : computeDailyPnl env.settings env.clock db a (cumulativePnl env db a) =
        match observeModelADailyLoss db a ((db.accountStates.get a).map (·.equity))
          env.clock.sessionDate with
        | some obs => (if obs.status = .available then obs.dailyPnl else none, some obs)
        | none => (some (breakerFigure env db a), none) := by
      unfold computeDailyPnl breakerFigure legacyBasis
      dsimp only
      cases observeModelADailyLoss db a ((db.accountStates.get a).map (·.equity))
        env.clock.sessionDate with
      | some obs => rfl
      | none =>
        dsimp only
        cases env.settings.sessionBaselineEnforcementEnabled with
        | true => rfl
        | false =>
          cases db.accountStates.get a with
          | none => rfl
          | some s =>
            dsimp only [map_some]
            rw [if_neg Bool.false_ne_true, if_neg Bool.false_ne_true]
            split <;> rfl
    rw [cumulativePnl] at figure
    dsimp only
    rw [figure]
    cases observeModelADailyLoss db a ((db.accountStates.get a).map (·.equity))
      env.clock.sessionDate with
    | none =>
      by_cases le : breakerFigure env db a ≤ -cap
      · simp [BreakerReading.error, breaches, le]
      · simp [BreakerReading.error, breaches, le]
    | some obs =>
      by_cases available : obs.status = .available
      · cases pnl : obs.dailyPnl with
        | none => simp [BreakerReading.error, observationLocks, available, pnl, Option.filter]
        | some x =>
          by_cases le : x ≤ -cap
          · simp [BreakerReading.error, observationLocks, breaches, available, pnl, le, Option.filter]
          · simp [BreakerReading.error, observationLocks, breaches, available, pnl, le, Option.filter]
      · simp [BreakerReading.error, observationLocks, available, Option.filter,
          mapSurfaceAction_newRisk available]

lemma dailyLoss_locks : ((loadGlobalLimits db userId brokerMode).any fun limits =>
    dailyLossReading env db a limits ≠ .clear) = dailyLossLocks env db a (userCap db userId brokerMode) := by
  unfold userCap
  cases loadGlobalLimits db userId brokerMode with
  | none => exact dailyLossLocks_none.symm
  | some limits =>
    rw [Bool.eq_iff_iff, any_some, decide_eq_true_eq]
    exact dailyLossReading_locks

/-- The two definitions of locked agree on an account exactly when its breaker is tripped or the
    figures they compare fall on the same side of their caps. -/
theorem lock_definitions_agree_iff (get : db.accounts.get a = some account) :
    cancelLocks db a userId brokerMode = engineLocks env db a userId brokerMode ↔
      LocksAgree env db a userId brokerMode account := by
  unfold engineLocks LocksAgree
  rw [cancelLocks_eq get]
  cases tripped : account.circuitBreakerTrippedAt with
  | some at_ =>
    have locked : (breakerError env db a).isSome = true := by
      simp [breakerError, breakerReading, get, tripped, BreakerReading.error]
    simp [locked]
  | none =>
    rw [dailyLoss_locks, breakerError_locks get tripped]
    simp only [isSome_none, Bool.false_or, Bool.false_eq_true, false_or]
    unfold dailyLossLocks figuresAgree dayChangeBreaches baselineBreaches
    dsimp only
    cases db.accountStates.get a with
    | none =>
      simp only [map_none, any_none, isSome_none, Bool.false_and, Bool.false_or]
      cases observed : observeModelADailyLoss db a none env.clock.sessionDate with
      | none =>
        cases env.settings.sessionBaselineEnforcementEnabled <;>
          cases breaches (accountCap db account) (breakerFigure env db a) <;> simp
      | some obs =>
        rcases observeModelADailyLoss_available observed with ⟨-, -, some_⟩ | unavailable
        · cases some_
        · obtain ⟨status, reason, equity, pnl⟩ := obs
          cases status with
          | available => exact absurd rfl unavailable
          | _ => cases accountCap db account <;> simp [observationLocks]
    | some s =>
      simp only [map_some, any_some, isSome_some, Bool.true_and]
      cases observed : observeModelADailyLoss db a (some s.equity) env.clock.sessionDate with
      | none =>
        cases env.settings.sessionBaselineEnforcementEnabled <;>
          cases breaches (accountCap db account) (breakerFigure env db a) <;> simp
      | some obs =>
        obtain ⟨status, reason, equity, pnl⟩ := obs
        rcases observeModelADailyLoss_available observed with ⟨rfl, measured, -⟩ | unavailable
        · cases pnl with
          | none => cases measured
          | some pnl => simp [observationLocks]
        · cases status with
          | available => exact absurd rfl unavailable
          | _ =>
            have capped : breaches (userCap db userId brokerMode) s.dayChange = true →
                (userCap db userId brokerMode).isSome = true := by
              cases userCap db userId brokerMode <;> simp [breaches]
            simp only [observationLocks]
            grind

/-- An account under a daily-loss cap of 1000 that opened the session at 50000, closed the one before
    at 48000 and stands at `equity`. -/
def openedAtFiftyThousand (equity : ℚ) : Db where
  accounts := Dict.empty.set 1 ⟨1, .paper, none, none⟩
  riskLimits := [
    { userId := 1, scopeType := .global, brokerMode := .paper, maxDailyLoss := some 1000 }]
  accountStates := Dict.empty.set 1 ⟨equity, 48000, equity - 48000⟩
  sessionBaselines := [⟨1, "2026-07-13", true, 50000⟩]

def baselineEnv : Env where
  settings := { sessionBaselineEnforcementEnabled := true }
  clock := ⟨1783954830000000, some "2026-07-13"⟩

/-- At 46500 the account has lost 3500 on the session and 1500 on the day, and both definitions lock
    it. -/
theorem both_definitions_lock :
    cancelLocks (openedAtFiftyThousand 46500) 1 1 .paper =
        engineLocks baselineEnv (openedAtFiftyThousand 46500) 1 1 .paper ∧
      cancelLocks (openedAtFiftyThousand 46500) 1 1 .paper = true := by
  have agree : LocksAgree baselineEnv (openedAtFiftyThousand 46500) 1 1 .paper
      ⟨1, .paper, none, none⟩ := by
    refine .inr ?_
    show dayChangeBreaches (openedAtFiftyThousand 46500) 1 1 .paper = _
    decide +kernel
  exact ⟨(lock_definitions_agree_iff rfl).2 agree, by decide +kernel⟩

/-- At 48500 it has lost 1500 on the session but gained 500 on the day: submissions are held to
    verified reductions, cancellations are not. -/
theorem baseline_loss_locks_submissions_only :
    engineLocks baselineEnv (openedAtFiftyThousand 48500) 1 1 .paper = true ∧
      cancelLocks (openedAtFiftyThousand 48500) 1 1 .paper = false := by
  constructor <;> decide +kernel

end Workbench.Risk
