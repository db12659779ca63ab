import Workbench.Orders.Cancellation
import Workbench.Risk.Locked
import Workbench.Risk.Passed

/-!
# What reaches the broker

Model of the three calls of `OrderRouter` (`app/orders/router.py`) that end in a mutating method of an
adapter: `submit` (from the risk engine on; what comes before it only refuses a request or rounds its
quantity down), `cancel` and `replace`. Each returns the database as it stands when the call ends or
comes to the adapter, and the mutation it then invokes.

`broker_mutation_gated_iff` says on exactly which databases a mutation of a locked account has a
permitting decision in the ledger behind it.
-/

set_option linter.dupNamespace false

namespace Workbench.Orders
open Workbench.Lib Workbench.Risk Workbench.Brokers Workbench.Risk.LossControl List Option

/-- A call of a mutating method of an adapter. -/
inductive Mutation where
  | submitOrder (adapter : Adapter) (req : OrderRequest)
  | cancelOrder (adapter : Adapter) (brokerOrderId : String)
  | replaceOrder (adapter : Adapter) (brokerOrderId : String) (newQty newLimitPrice : Option ℚ)

/-- The calls of the router that may mutate an order at the broker. -/
inductive Call where
  | submit (req : OrderRequest)
  | cancel (order : Nat)
  | replace (order : Nat) (newQty newLimitPrice : Option ℚ)

/-- The broker mode of an account, `paper` when its row is missing. -/
def brokerModeOf (db : Db) (accountId : Nat) : AccountMode :=
  ((db.accounts.get accountId).map (·.mode)).getD .paper

/-- The trading mode of the adapter an account trades through. -/
def OrderRouter.tradingMode (router : OrderRouter) (isPaper : Adapter → Bool) (db : Db)
    (accountId : Nat) : AccountMode :=
  if isPaper (router.resolveAdapter db accountId) then .paper else .live

/-- Persist a passed order, link its reservation and mark it PENDING_SUBMIT. -/
def persistPassed (db : Db) (req : OrderRequest) (outcome : RiskOutcome) (symbolId : Nat)
    (now : Instant) : Db :=
  let o := db.orders.length
  let inserted := insertOrder db (initialOrder req outcome symbolId now)
  let linked := (outcome.reservationId.map (linkReservation inserted · o)).getD inserted
  writeVerdict linked o true now

/-- Python `OrderRouter.submit`, from the risk engine to the broker. -/
def OrderRouter.submit (router : OrderRouter) (isPaper : Adapter → Bool) (env : Env) (db : Db)
    (req : OrderRequest) : Db × Option Mutation :=
  let (db', outcome) := evaluate env db req (router.tradingMode isPaper db req.accountId)
    (brokerModeOf db req.accountId)
  if outcome.passed then
    match resolveSymbolId db' req outcome with
    | none => (db', none)
    | some symbolId =>
      (persistPassed db' req outcome symbolId env.clock.now,
        some (.submitOrder (router.resolveAdapter db req.accountId) req))
  else (db', none)

/-- Python `OrderRouter.cancel`. -/
def OrderRouter.cancel (router : OrderRouter) (env : Env) (db : Db) (o : Nat) : Db × Option Mutation :=
  match db.orders[o]? with
  | none => (db, none)
  | some order =>
    let (db', gate) := gateCancellation router env.reads db order env.clock.now
    if gate.rejection.isSome then (db', none)
    else if neverReachedBroker order then
      let canceled := cancelLocal db' o order env.clock.now
      (settleWrite canceled (settleReservationForOrder canceled o false "ORDER_CANCELED_LOCAL"), none)
    else (db', some (.cancelOrder (router.resolveAdapter db order.accountId)
      (order.brokerOrderId.getD "")))

/-- Python `OrderRouter.replace`. -/
def OrderRouter.replace (router : OrderRouter) (db : Db) (o : Nat) (newQty newLimitPrice : Option ℚ) :
    Db × Option Mutation :=
  match db.orders[o]? with
  | none => (db, none)
  | some order =>
    if neverReachedBroker order then (db, none)
    else (db, some (.replaceOrder (router.resolveAdapter db order.accountId)
      (order.brokerOrderId.getD "") newQty newLimitPrice))

def OrderRouter.invoke (router : OrderRouter) (isPaper : Adapter → Bool) (env : Env) (db : Db) :
    Call → Db × Option Mutation
  | .submit req => router.submit isPaper env db req
  | .cancel o => router.cancel env db o
  | .replace o newQty newLimitPrice => router.replace db o newQty newLimitPrice

/-! ## Locked and gated -/

/-- An account that `current_lock_state` or steps 9 and 13 of the engine treat as locked. -/
def locked (env : Env) (db : Db) (accountId userId : Nat) : Bool :=
  cancelLocks db accountId userId (brokerModeOf db accountId) ||
    engineLocks env db accountId userId (brokerModeOf db accountId)

/-- A ledger row that permits an action of an account. -/
def Permits (accountId : Nat) (on : ProposedAction → Prop) (row : LedgerRow) : Prop :=
  row.accountId = accountId ∧ on row.action ∧ permitsWhileLocked row.result = true

/-- Something between `db` and `db'` logged a permitting decision. -/
def Permitted (db db' : Db) (accountId : Nat) (on : ProposedAction → Prop) : Prop :=
  ∃ row ∈ db'.ledger.drop db.ledger.length, Permits accountId on row

/-- A mutation of a locked account comes after a decision on that action that permits it. -/
def Gated (router : OrderRouter) (isPaper : Adapter → Bool) (env : Env) (db : Db) (call : Call) :
    Prop :=
  let result := router.invoke isPaper env db call
  result.2.isSome = true →
    match call with
    | .submit req => locked env db req.accountId req.userId = true →
        Permitted db result.1 req.accountId (· = submission req)
    | .cancel o => ∀ order, db.orders[o]? = some order →
        locked env db order.accountId order.userId = true →
          Permitted db result.1 order.accountId (· = cancellation db order)
    | .replace o _ _ => ∀ order, db.orders[o]? = some order →
        locked env db order.accountId order.userId = true →
          Permitted db result.1 order.accountId (·.action = .orderReplace)

/-! ## When a mutation is gated -/

variable {router : OrderRouter} {isPaper : Adapter → Bool} {env : Env} {db db' : Db}
variable {req : OrderRequest} {ev ev' : Evaluation} {args : DecideArgs} {ctx : Applicable}
variable {tradingMode brokerMode : AccountMode} {order : Order} {o : Nat} {call : Call}

/-- A submission passes without a permitting decision: no lock of the engine asks for one, the other
    gates let it on, and the loss-control gate does not refuse it, with the classifier against it or
    not asked at all. -/
def slips (env : Env) (db : Db) (req : OrderRequest) (tradingMode brokerMode : AccountMode) : Bool :=
  match preprocess env db req tradingMode brokerMode with
  | .error _ => false
  | .ok ctx =>
    (orderGates env db req ctx).isNone && (throttleGates env db req brokerMode ctx.limits).isNone &&
      !engineLocks env db req.accountId req.userId brokerMode &&
      if gateConsults env req.accountId ⟨db, {}⟩ then
        !grants env db req && !gateDenies env (lossState db req.accountId) (some false)
      else !gateDenies env (lossState db req.accountId) none

/-- The databases on which a call is gated: a submission on an account that `current_lock_state` locks
    does not slip through, a cancellation at the broker is on an account that `current_lock_state` locks
    whenever the engine does, and a replacement at the broker is on an account that is not locked. -/
def GatedWhen (router : OrderRouter) (isPaper : Adapter → Bool) (env : Env) (db : Db) : Call → Prop
  | .submit req =>
    cancelLocks db req.accountId req.userId (brokerModeOf db req.accountId) = true →
      slips env db req (router.tradingMode isPaper db req.accountId)
        (brokerModeOf db req.accountId) = false
  | .cancel o => ∀ order, db.orders[o]? = some order → neverReachedBroker order = false →
      engineLocks env db order.accountId order.userId (brokerModeOf db order.accountId) = true →
        cancelLocks db order.accountId order.userId (brokerModeOf db order.accountId) = true
  | .replace o _ _ => ∀ order, db.orders[o]? = some order → neverReachedBroker order = false →
      locked env db order.accountId order.userId = false

/-! ## The ledger of an evaluation -/

/-- The ledger has grown by the decisions of an evaluation, and one of them permits the submission
    exactly when the cache says so. -/
def Logged (req : OrderRequest) (db : Db) (ev : Evaluation) : Prop :=
  ∃ rows, ev.db.ledger = db.ledger ++ rows ∧
    (ev.cache.result = some true ↔ ∃ row ∈ rows, Permits req.accountId (· = submission req) row)

lemma Logged.init : Logged req db ⟨db, {}⟩ := ⟨[], by simp, by simp⟩

lemma Logged.flagged (h : Logged req db ev) (cache : ev'.cache = ev.cache)
    (flagged : Flagged ev.db ev'.db) : Logged req db ev' := by
  obtain ⟨_, _, _, e⟩ := flagged
  obtain ⟨rows, grown, permits⟩ := h
  refine ⟨rows, ?_, by rw [cache, permits]⟩
  rw [e]
  exact grown

lemma Logged.permitsVerifiedReduction (h : Logged req db ev) :
    Logged req db (permitsVerifiedReduction env req args ev).1 := by
  unfold Risk.permitsVerifiedReduction
  cases result : ev.cache.result with
  | some _ => exact h
  | none =>
    obtain ⟨rows, grown, permits⟩ := h
    have none_yet : ¬∃ row ∈ rows, Permits req.accountId (· = submission req) row := by
      rw [← permits, result]
      simp
    cases env.registry with
    | none => exact ⟨rows, grown, by simpa using none_yet⟩
    | some registry =>
      obtain ⟨row, ⟨account, action⟩, same, logged⟩ := @decide_ledger ev.db req.accountId
        (classifierRead env registry req.userId) (submission req) args env.clock.now
      refine ⟨rows ++ [row], ?_, ?_⟩
      · dsimp only
        rw [logged, grown, append_assoc]
      · dsimp only [ReductionCache.keep]
        rw [← same, some.injEq]
        constructor
        · intro permitted
          exact ⟨row, by simp, account, action, permitted⟩
        · rintro ⟨row', mem, permitted⟩
          rcases mem_append.1 mem with old | new
          · exact absurd ⟨row', old, permitted⟩ none_yet
          · rw [← mem_singleton.1 new]
            exact permitted.2.2

lemma Logged.dailyLossGate (h : Logged req db ev) {limits : RiskLimits} :
    Logged req db (dailyLossGate env req limits ev).1 := by
  by_cases clear : dailyLossReading env ev.db req.accountId limits = .clear
  · rw [dailyLossGate_clear clear]
    exact h
  · obtain ⟨ev', args, reason, ⟨cache, flagged, -⟩, ⟨e, -⟩ | ⟨e, -⟩⟩ := dailyLossGate_locked clear
    · rw [e]
      exact h.flagged cache flagged
    · rw [e]
      exact (h.flagged cache flagged).permitsVerifiedReduction

lemma Logged.breakerGate (h : Logged req db ev) : Logged req db (breakerGate env req ev).1 := by
  cases error : breakerError env ev.db req.accountId with
  | none =>
    rw [breakerGate_clear error]
    exact h
  | some error' =>
    obtain ⟨ev', args, reason, ⟨cache, flagged, -⟩, ⟨e, -⟩ | ⟨e, -⟩⟩ := breakerGate_locked error
    · rw [e]
      exact h.flagged cache flagged
    · rw [e]
      exact (h.flagged cache flagged).permitsVerifiedReduction

lemma Logged.runGates (h : Logged req db ev) : Logged req db (runGates env req brokerMode ctx ev).1 := by
  unfold Risk.runGates
  cases orderGates env ev.db req ctx with
  | some reason => exact h
  | none =>
    have kept := @Logged.dailyLossGate env db req ev h ctx.limits
    dsimp only
    generalize Risk.dailyLossGate env req ctx.limits ev = r at kept ⊢
    obtain ⟨ev', gate⟩ := r
    cases gate with
    | stop => exact kept
    | refuse reason => exact kept
    | next =>
      dsimp only
      cases throttleGates env ev'.db req brokerMode ctx.limits with
      | some reason => exact kept
      | none => exact kept.breakerGate

lemma Logged.consulted (h : Logged req db ev) : Logged req db (consulted env req ev) := by
  unfold Risk.consulted
  split
  · exact h.permitsVerifiedReduction
  · exact h

lemma Logged.permitted (h : Logged req db ev) (same : db'.ledger = ev.db.ledger) :
    Permitted db db' req.accountId (· = submission req) ↔ ev.cache.result = some true := by
  obtain ⟨rows, grown, permits⟩ := h
  rw [Permitted, same, grown, drop_left, permits]

lemma runGates_next (fresh : ev.cache.result = none) (next : (runGates env req brokerMode ctx ev).2 = .next) :
    (runGates env req brokerMode ctx ev).1.cache.result ≠ some false := by
  have tested {args : DecideArgs} {reason : ReasonCode} {ev : Evaluation}
      (next : (reductionOnly env req args reason ev).2 = .next) :
      (reductionOnly env req args reason ev).1.cache.result = some true := by
    unfold reductionOnly at next ⊢
    have answer : (permitsVerifiedReduction env req args ev).1.cache.result =
        some (permitsVerifiedReduction env req args ev).2 := by
      unfold permitsVerifiedReduction
      split
      · assumption
      · split <;> rfl
    generalize permitsVerifiedReduction env req args ev = r at next answer ⊢
    obtain ⟨ev', permitted⟩ := r
    cases permitted with
    | true => exact answer
    | false => cases next
  unfold runGates at next ⊢
  cases gates : orderGates env ev.db req ctx with
  | some reason =>
    rw [gates] at next
    cases next
  | none =>
    rw [gates] at next
    have first : (dailyLossGate env req ctx.limits ev).2 = .next →
        (dailyLossGate env req ctx.limits ev).1.cache.result ≠ some false := by
      intro next
      by_cases clear : dailyLossReading env ev.db req.accountId ctx.limits = .clear
      · rw [dailyLossGate_clear clear, fresh]
        simp
      · obtain ⟨ev', args, reason, -, ⟨e, -⟩ | ⟨e, -⟩⟩ := dailyLossGate_locked clear
        · rw [e] at next
          cases next
        · rw [e] at next ⊢
          rw [tested next]
          simp
    dsimp only at next ⊢
    generalize dailyLossGate env req ctx.limits ev = r at first next ⊢
    obtain ⟨ev', gate⟩ := r
    cases gate with
    | stop => cases next
    | refuse reason => cases next
    | next =>
      dsimp only at next ⊢
      cases throttled : throttleGates env ev'.db req brokerMode ctx.limits with
      | some reason =>
        rw [throttled] at next
        cases next
      | none =>
        rw [throttled] at next
        dsimp only at next ⊢
        cases error : breakerError env ev'.db req.accountId with
        | none =>
          rw [breakerGate_clear error]
          exact first rfl
        | some error' =>
          obtain ⟨ev'', args, reason, -, ⟨e, -⟩ | ⟨e, -⟩⟩ := breakerGate_locked error
          · rw [e] at next
            cases next
          · rw [e] at next ⊢
            rw [tested next]
            simp

/-- What an evaluation comes to once preprocessing let the order on: it passes when the gates do and
    the loss-control gate does not deny it, and the cache then says whether a decision permits it. -/
lemma evaluate_spec (pre : preprocess env db req tradingMode brokerMode = .ok ctx) :
    let gates := runGates env req brokerMode ctx ⟨db, {}⟩
    let final := consulted env req gates.1
    ((evaluate env db req tradingMode brokerMode).2.passed = true ↔ gates.2 = .next ∧
        gateDenies env (lossState final.db req.accountId) final.cache.result = false) ∧
      (gates.2 = .next → (Permitted db (evaluate env db req tradingMode brokerMode).1 req.accountId
        (· = submission req) ↔ final.cache.result = some true)) := by
  have logged : Logged req db (consulted env req (runGates env req brokerMode ctx ⟨db, {}⟩).1) :=
    Logged.init.runGates.consulted
  unfold evaluate
  rw [pre]
  dsimp only
  generalize runGates env req brokerMode ctx ⟨db, {}⟩ = r at logged ⊢
  obtain ⟨ev, gate⟩ := r
  cases gate with
  | stop => exact ⟨by simp [conclude_not_next (show Gate.stop ≠ .next by simp)], by simp⟩
  | refuse reason =>
    exact ⟨by simp [conclude_not_next (show Gate.refuse reason ≠ .next by simp)], by simp⟩
  | next =>
    dsimp only [conclude]
    rw [finalizeWithLossControl_eq]
    refine ⟨?_, fun _ => logged.permitted rfl⟩
    cases gateDenies env (lossState (consulted env req ev).db req.accountId)
      (consulted env req ev).cache.result with
    | true => simp [persistAndReturn, RiskOutcome.passed]
    | false => simp [persistAndReturn, RiskOutcome.passed, passage]

lemma consulted_unasked : if gateConsults env req.accountId ⟨db, {}⟩ then
      (consulted env req ⟨db, {}⟩).cache.result = some (grants env db req) ∧
        lossState (consulted env req ⟨db, {}⟩).db = lossState db else consulted env req ⟨db, {}⟩ = ⟨db, {}⟩ := by
  unfold consulted
  cases gateConsults env req.accountId ⟨db, {}⟩ with
  | true =>
    obtain ⟨classified, -, -, kept⟩ :=
      @permitsVerifiedReduction_fresh env req gateArgs ⟨db, {}⟩ rfl
    exact ⟨classified.result, kept⟩
  | false => rfl

lemma slips_iff : slips env db req tradingMode brokerMode = true ↔
    (evaluate env db req tradingMode brokerMode).2.passed = true ∧
      ¬Permitted db (evaluate env db req tradingMode brokerMode).1 req.accountId (· = submission req) := by
  unfold slips
  cases pre : preprocess env db req tradingMode brokerMode with
  | error reason =>
    have refused : (evaluate env db req tradingMode brokerMode).2.passed = false := by
      unfold evaluate
      rw [pre]
      rfl
    simp [refused]
  | ok ctx =>
    obtain ⟨passes, permits⟩ := evaluate_spec pre
    obtain ⟨-, -, limits⟩ := preprocess_ok pre
    -- an order that no gate is against is not asked about exactly when the engine has no lock
    have unasked (gates : orderGates env db req ctx = none)
        (throttled : throttleGates env db req brokerMode ctx.limits = none) :=
      course_unasked_iff limits gates throttled
    dsimp only
    simp only [Bool.and_eq_true, isNone_iff_eq_none, Bool.not_eq_true']
    cases way : course env db req brokerMode ctx with
    | stopped =>
      obtain ⟨ev, stopped, -⟩ := runGates_stopped way
      rw [passes, stopped]
      constructor
      · rintro ⟨⟨⟨gates, throttled⟩, free⟩, -⟩
        rw [(unasked gates throttled).2 free] at way
        cases way
      · rintro ⟨⟨next, -⟩, -⟩
        cases next
    | asked =>
      have classified := (runGates_asked way).1
      constructor
      · rintro ⟨⟨⟨gates, throttled⟩, free⟩, -⟩
        rw [(unasked gates throttled).2 free] at way
        cases way
      · rintro ⟨passed, unpermitted⟩
        obtain ⟨next, -⟩ := passes.1 passed
        have open_ := @runGates_next env req ⟨db, {}⟩ ctx brokerMode rfl next
        rw [classified.result] at open_
        have granted : grants env db req = true := by simpa using open_
        refine absurd ((permits next).2 ?_) unpermitted
        rw [consulted_of_result classified.result, classified.result, granted]
    | unasked =>
      obtain ⟨gate, -, run, lets⟩ := runGates_unasked way
      rw [run] at passes permits
      dsimp only at passes permits
      have asked := @consulted_unasked env db req
      rw [passes]
      -- what the gate finds in the cache is what `slips` compares
      have found : (if gateConsults env req.accountId ⟨db, {}⟩ then
            !grants env db req && !gateDenies env (lossState db req.accountId) (some false)
          else !gateDenies env (lossState db req.accountId) none) = true ↔
          gateDenies env (lossState (consulted env req ⟨db, {}⟩).db req.accountId)
              (consulted env req ⟨db, {}⟩).cache.result = false ∧
            ¬(consulted env req ⟨db, {}⟩).cache.result = some true := by
        cases consults : gateConsults env req.accountId ⟨db, {}⟩ with
        | true =>
          rw [consults] at asked
          obtain ⟨result, kept⟩ := asked
          rw [result, kept]
          cases grants env db req <;> simp
        | false =>
          rw [consults] at asked
          have same : consulted env req ⟨db, {}⟩ = ⟨db, {}⟩ := asked
          rw [same]
          simp
      rw [found]
      constructor
      · rintro ⟨⟨⟨gates, throttled⟩, -⟩, open_, unpermitted⟩
        have next := lets.2 ⟨gates, throttled⟩
        rw [permits next]
        exact ⟨⟨next, open_⟩, unpermitted⟩
      · rintro ⟨⟨next, open_⟩, unpermitted⟩
        rw [permits next] at unpermitted
        obtain ⟨gates, throttled⟩ := lets.1 next
        exact ⟨⟨⟨gates, throttled⟩, (unasked gates throttled).1 way⟩, open_, unpermitted⟩

/-! ## The three calls -/

lemma submit_spec : ((router.submit isPaper env db req).2.isSome = true ↔
      (evaluate env db req (router.tradingMode isPaper db req.accountId)
        (brokerModeOf db req.accountId)).2.passed = true) ∧ (router.submit isPaper env db req).1.ledger =
      (evaluate env db req (router.tradingMode isPaper db req.accountId) (brokerModeOf db req.accountId)).1.ledger := by
  have passed := @evaluate_passed env db req (router.tradingMode isPaper db req.accountId)
    (brokerModeOf db req.accountId)
  unfold OrderRouter.submit
  generalize evaluate env db req (router.tradingMode isPaper db req.accountId)
    (brokerModeOf db req.accountId) = r at passed ⊢
  obtain ⟨db', outcome⟩ := r
  dsimp only at passed ⊢
  cases pass : outcome.passed with
  | false => exact ⟨by simp, rfl⟩
  | true =>
    obtain ⟨ctx, -, -, symbol, -⟩ := passed pass
    have resolved : resolveSymbolId db' req outcome = some ctx.symbolId := by
      rw [resolveSymbolId, symbol]
      rfl
    rw [if_pos rfl, resolved]
    refine ⟨by simp, ?_⟩
    dsimp only [persistPassed]
    cases outcome.reservationId <;> rfl

/-- A submission is gated exactly when it does not slip through on an account that `current_lock_state`
    locks: a lock of the engine always asks for a decision. -/
lemma submit_gated_iff : Gated router isPaper env db (.submit req) ↔ GatedWhen router isPaper env db (.submit req) := by
  obtain ⟨reaches, ledger⟩ := @submit_spec router isPaper env db req
  have slip := @slips_iff env db req (router.tradingMode isPaper db req.accountId)
    (brokerModeOf db req.accountId)
  have free : slips env db req (router.tradingMode isPaper db req.accountId)
      (brokerModeOf db req.accountId) = true →
      engineLocks env db req.accountId req.userId (brokerModeOf db req.accountId) = false := by
    unfold slips
    cases preprocess env db req (router.tradingMode isPaper db req.accountId)
      (brokerModeOf db req.accountId) with
    | error reason => simp
    | ok ctx => simp +contextual
  have permitted : Permitted db (router.submit isPaper env db req).1 req.accountId
      (· = submission req) ↔ Permitted db (evaluate env db req
        (router.tradingMode isPaper db req.accountId) (brokerModeOf db req.accountId)).1
        req.accountId (· = submission req) := by
    rw [Permitted, Permitted, ledger]
  show (((router.submit isPaper env db req).2.isSome = true → locked env db req.accountId req.userId = true →
    Permitted db (router.submit isPaper env db req).1 req.accountId (· = submission req)) ↔ _)
  rw [reaches, permitted]
  unfold locked GatedWhen
  rw [Bool.or_eq_true]
  grind

/-- The gate of a cancellation does nothing on an account that is not locked, and lets one on a locked
    account through only with a permitting decision in the ledger. -/
lemma gateCancellation_spec {now : Instant} :
    (cancelLocks db order.accountId order.userId (brokerModeOf db order.accountId) = false →
      gateCancellation router env.reads db order now = (db, .unlocked)) ∧
    (cancelLocks db order.accountId order.userId (brokerModeOf db order.accountId) = true →
      (gateCancellation router env.reads db order now).2.rejection = none →
        Permitted db (gateCancellation router env.reads db order now).1 order.accountId
          (· = cancellation db order)) := by
  unfold gateCancellation cancelLocks brokerModeOf
  cases found : db.accounts.get order.accountId with
  | none => simp [currentLockState, found]
  | some account =>
    simp only [map_some, getD_some, decide_eq_false_iff_not, decide_eq_true_eq, not_not]
    refine ⟨fun unlocked => if_pos unlocked, fun locks open_ => ?_⟩
    rw [if_neg locks] at open_ ⊢
    cases registry : router.registry with
    | none =>
      rw [registry] at open_
      cases open_
    | some registry' =>
      rw [registry] at open_
      dsimp only at open_ ⊢
      obtain ⟨row, ⟨account', action⟩, result, logged⟩ := @decide_ledger db order.accountId
        (decisionRead env.reads (registry'.get order.userId)) (cancellation db order)
        ⟨(currentLockState db order.accountId order.userId account.mode).lockState,
          (currentLockState db order.accountId order.userId account.mode).lockReason,
          (currentLockState db order.accountId order.userId account.mode).dailyPnl⟩ now
      have permits : permitsWhileLocked row.result = true := by
        rw [result]
        by_contra refused
        simp only [CancelGate.rejection] at open_
        rw [if_neg refused] at open_
        cases open_
      rw [Permitted, logged, drop_left]
      exact ⟨row, mem_singleton_self row, account', action, permits⟩

lemma cancel_gated_iff : Gated router isPaper env db (.cancel o) ↔ GatedWhen router isPaper env db (.cancel o) := by
  show (((router.cancel env db o).2.isSome = true → ∀ order, db.orders[o]? = some order →
    locked env db order.accountId order.userId = true →
      Permitted db (router.cancel env db o).1 order.accountId (· = cancellation db order)) ↔
    ∀ order, db.orders[o]? = some order → _)
  unfold OrderRouter.cancel
  cases row : db.orders[o]? with
  | none => simp
  | some order =>
    obtain ⟨passes, permits⟩ := @gateCancellation_spec router env db order env.clock.now
    simp only [some.injEq, forall_eq']
    unfold locked
    cases reached : neverReachedBroker order with
    | true =>
      simp only [if_true]
      split <;> simp
    | false =>
      cases locks : cancelLocks db order.accountId order.userId (brokerModeOf db order.accountId) with
      | true =>
        simp only [Bool.true_or, implies_true, iff_true, forall_const]
        cases gate : (gateCancellation router env.reads db order env.clock.now).2.rejection with
        | some reasons => simp
        | none => simpa [gate] using permits locks gate
      | false =>
        rw [passes locks]
        have empty : ¬Permitted db db order.accountId (· = cancellation db order) := by
          simp [Permitted]
        simp [CancelGate.rejection, empty]

lemma replace_gated_iff {newQty newLimitPrice : Option ℚ} :
    Gated router isPaper env db (.replace o newQty newLimitPrice) ↔
      GatedWhen router isPaper env db (.replace o newQty newLimitPrice) := by
  show (((router.replace db o newQty newLimitPrice).2.isSome = true → ∀ order,
    db.orders[o]? = some order → locked env db order.accountId order.userId = true →
      Permitted db (router.replace db o newQty newLimitPrice).1 order.accountId
        (·.action = .orderReplace)) ↔ ∀ order, db.orders[o]? = some order → _)
  unfold OrderRouter.replace
  cases row : db.orders[o]? with
  | none => simp
  | some order =>
    have empty : ¬Permitted db db order.accountId (·.action = .orderReplace) := by
      simp [Permitted]
    cases reached : neverReachedBroker order with
    | true => simp [reached]
    | false => simp [reached, empty]

/-- A mutation of a locked account that reaches the broker has a permitting decision in the ledger
    behind it exactly on the databases of `GatedWhen`. -/
theorem broker_mutation_gated_iff : Gated router isPaper env db call ↔ GatedWhen router isPaper env db call := by
  cases call with
  | submit req => exact submit_gated_iff
  | cancel o => exact cancel_gated_iff
  | replace o newQty newLimitPrice => exact replace_gated_iff

def trippedWithLiveOrder : Db where
  accounts := Dict.empty.set 1 ⟨1, .paper, none, some 1783950000000000⟩
  symbols := [⟨"AAPL", true⟩]
  orders := [
    { userId := 1, accountId := 1, symbolId := 0, brokerOrderId := some "live-1", side := .buy, qty := 10,
      status := .submitted, createdAt := 0, updatedAt := 0 }]

/-- The account is locked by every definition, and a replacement that raises the order to a hundred
    shares reaches the broker with nothing in the ledger. -/
theorem replace_raises_qty_while_locked :
    locked baselineEnv trippedWithLiveOrder 1 1 = true ∧
      (OrderRouter.replace ⟨⟨0⟩, none⟩ trippedWithLiveOrder 0 (some 100) none).2.isSome = true ∧
      ¬Gated ⟨⟨0⟩, none⟩ (fun _ => true) baselineEnv trippedWithLiveOrder (.replace 0 (some 100) none) := by
  have locks : locked baselineEnv trippedWithLiveOrder 1 1 = true := by decide +kernel
  have reaches : (OrderRouter.replace ⟨⟨0⟩, none⟩ trippedWithLiveOrder 0 (some 100) none).2.isSome =
      true := by decide +kernel
  refine ⟨locks, reaches, fun gated => ?_⟩
  obtain ⟨row, mem, -⟩ := gated reaches _ rfl locks
  cases mem

end Workbench.Orders
