import Workbench.Risk.Engine

/-!
# The course of an evaluation

Which step of `RiskEngine.evaluate` puts an order to the reduction classifier, read off the state
before the call. A lock (step 9 or step 13) may ask, an ENFORCE trigger that cannot be written may
stop the order before it does, or the gates may end without asking; only in the last case can the
loss-control gate still ask on its own.

`grants` is the classifier's answer, also read off the state before the call: tripping the breaker and
driving the loss-control state machine touch nothing the classifier reads.
-/

set_option linter.dupNamespace false

namespace Workbench.Risk
open Workbench.Lib Workbench.Brokers Workbench.Risk.LossControl Option

variable {env : Env} {db db' db'' : Db} {req : OrderRequest} {args : DecideArgs}
variable {ev ev' : Evaluation} {brokerMode : AccountMode} {ctx : Applicable}

/-! ## What locks, triggers and decisions touch -/

/-- `db'` is `db` up to the breaker flags and the loss-control tables. -/
def Flagged (db db' : Db) : Prop :=
  ∃ accounts rows events,
    db' = { db with accounts := accounts, lossControl := rows, controlEvents := events }

/-- `db'` is `db` up to the tables no lock reads: those of loss control and of the decision service. -/
def Apart (db db' : Db) : Prop :=
  ∃ rows events capacity reservations ledger,
    db' = { db with
      lossControl := rows, controlEvents := events, capacity := capacity,
      reservations := reservations, ledger := ledger }

lemma Flagged.refl : Flagged db db := ⟨db.accounts, db.lossControl, db.controlEvents, rfl⟩

lemma Flagged.trans (h : Flagged db db') (h' : Flagged db' db'') : Flagged db db'' := by
  obtain ⟨_, _, _, rfl⟩ := h
  obtain ⟨_, _, _, rfl⟩ := h'
  exact ⟨_, _, _, rfl⟩

lemma Flagged.trip {a : Nat} {now : Instant} : Flagged db (trip db a now) := by
  obtain ⟨accounts, e⟩ := @trip_frame db a now
  exact ⟨accounts, db.lossControl, db.controlEvents, e⟩

lemma Flagged.check {settings : Settings} {clock : Clock} {a : Nat} : Flagged db (check settings clock db a).1 := by
  obtain ⟨accounts, e⟩ := @check_frame settings clock db a
  exact ⟨accounts, db.lossControl, db.controlEvents, e⟩

lemma Apart.refl : Apart db db := ⟨_, _, _, _, _, rfl⟩

lemma Apart.trans (h : Apart db db') (h' : Apart db' db'') : Apart db db'' := by
  obtain ⟨_, _, _, _, _, rfl⟩ := h
  obtain ⟨_, _, _, _, _, rfl⟩ := h'
  exact ⟨_, _, _, _, _, rfl⟩

/-- ENFORCE fails the order closed when this trigger cannot be written. -/
def failsClosed (env : Env) (trigger : LossTrigger) : Bool :=
  env.settings.lossControlMode = .enforce && env.triggerFails trigger

/-- The state a fired trigger leaves, `state` itself when nothing was written. -/
def fired (env : Env) (trigger : LossTrigger) (state : Option LossState) : Option LossState :=
  if env.settings.lossControlMode = .off ∨ env.triggerFails trigger then state
  else some (stateAfter state trigger)

/-- What firing a trigger does: the cache stays, only loss-control tables are written, and the state
    of the account moves. -/
structure Fires (env : Env) (a : Nat) (trigger : LossTrigger) (ev ev' : Evaluation) : Prop where
  cache : ev'.cache = ev.cache
  flagged : Flagged ev.db ev'.db
  apart : Apart ev.db ev'.db
  state : lossState ev'.db a = fired env trigger (lossState ev.db a)

lemma triggerAndGuard_spec {a : Nat} {trigger : LossTrigger} :
    (triggerAndGuard env a trigger ev).2 = failsClosed env trigger ∧
      Fires env a trigger ev (triggerAndGuard env a trigger ev).1 := by
  unfold triggerAndGuard failsClosed
  split
  · rename_i off
    exact ⟨by simp [off], rfl, .refl, .refl, by simp [fired, off]⟩
  · rename_i on
    split
    · rename_i fails
      exact ⟨by simp [fails], rfl, .refl, .refl, by simp [fired, fails]⟩
    · rename_i works
      obtain ⟨rows, events, e⟩ := @requestTransition_frame ev.db a trigger env.clock.now
      refine ⟨by simp [works], rfl, ⟨ev.db.accounts, rows, events, e⟩, ⟨rows, events, _, _, _, e⟩, ?_⟩
      simp [fired, on, works, lossState_requestTransition]

/-! ## The classifier -/

/-- The classifier verifies the order as a reduction and its claim on the capacity is granted. -/
def grants (env : Env) (db : Db) (req : OrderRequest) : Bool :=
  env.registry.any fun registry =>
    (grantedQty db req.accountId
      (decisionSnapshot db req.accountId (classifierRead env registry req.userId))
      (submission req)).isSome

lemma grants_flagged (h : Flagged db db') : grants env db' req = grants env db req := by
  obtain ⟨_, _, _, rfl⟩ := h
  rfl

/-- An evaluation whose order has been classified, against the database it started from. -/
structure Classified (env : Env) (req : OrderRequest) (db : Db) (ev : Evaluation) : Prop where
  result : ev.cache.result = some (grants env db req)
  reservationId :
    ev.cache.reservationId = if grants env db req then some db.reservations.length else none
  created : ∃ rows : List RiskReservation, rows.length = (grants env db req).toNat ∧
    (∀ r ∈ rows, r.state = .held) ∧ ev.db.reservations = db.reservations ++ rows

lemma permitsVerifiedReduction_fresh (fresh : ev.cache = {}) :
    Classified env req ev.db (permitsVerifiedReduction env req args ev).1 ∧
      (permitsVerifiedReduction env req args ev).2 = grants env ev.db req ∧
      Apart ev.db (permitsVerifiedReduction env req args ev).1.db ∧
      lossState (permitsVerifiedReduction env req args ev).1.db = lossState ev.db := by
  obtain ⟨db, cache⟩ := ev
  cases fresh
  unfold permitsVerifiedReduction
  cases reg : env.registry with
  | none =>
    have no : grants env db req = false := by simp [grants, reg]
    refine ⟨⟨?_, ?_, [], ?_, ?_, ?_⟩, no.symm, .refl, rfl⟩ <;> simp [no]
  | some registry =>
    have permits : permitsWhileLocked (decide db req.accountId
        (classifierRead env registry req.userId) (submission req) args env.clock.now).2.result =
        grants env db req := by
      rw [grants, reg]
      exact decideWrite_permits rfl
    have id := @decideWrite_reservationId db req.accountId
      (decisionSnapshot db req.accountId (classifierRead env registry req.userId)) (submission req)
      args env.clock.now
    have rows := @decideWrite_reservations db req.accountId
      (decisionSnapshot db req.accountId (classifierRead env registry req.userId)) (submission req)
      args env.clock.now
    have yes : grants env db req = (grantedQty db req.accountId
        (decisionSnapshot db req.accountId (classifierRead env registry req.userId))
        (submission req)).isSome := by rw [grants, reg]; rfl
    obtain ⟨c, r, l, frame⟩ := @decideWrite_frame db req.accountId
      (decisionSnapshot db req.accountId (classifierRead env registry req.userId)) (submission req)
      args env.clock.now
    dsimp only
    refine ⟨⟨congrArg some permits, ?_, _, ?_, ?_, rows⟩, permits, ⟨_, _, c, r, l, frame⟩, ?_⟩
    · dsimp only [ReductionCache.keep]
      rw [permits]
      split
      · rename_i granted
        rw [decide, id]
        rw [yes, isSome_iff_exists] at granted
        obtain ⟨q, granted⟩ := granted
        rw [granted]
        rfl
      · rfl
    · rw [yes]
      cases grantedQty db req.accountId
        (decisionSnapshot db req.accountId (classifierRead env registry req.userId))
        (submission req) <;> rfl
    · intro r m
      obtain ⟨q, -, rfl⟩ := map_eq_some_iff.1 (mem_toList.1 m)
      rfl
    · funext a
      rw [decide, frame]
      rfl

lemma permitsVerifiedReduction_cached {b : Bool} (e : ev.cache.result = some b) :
    permitsVerifiedReduction env req args ev = (ev, b) := by
  unfold permitsVerifiedReduction
  rw [e]

/-! ## The two locks -/

def breakerError (env : Env) (db : Db) (accountId : Nat) : Option CircuitBreakerError :=
  (breakerReading env.settings env.clock db accountId).error

/-- The database step 13 reads, as far as locks read it: step 9 has tripped a breached account. -/
def afterDailyLoss (env : Env) (db : Db) (req : OrderRequest) (limits : RiskLimits) : Db :=
  match dailyLossReading env db req.accountId limits with
  | .breached _ => trip db req.accountId env.clock.now
  | _ => db

/-- The loss-control state after the trigger of step 9. -/
def stateAfterDailyLoss (env : Env) (db : Db) (req : OrderRequest) (limits : RiskLimits) :
    Option LossState :=
  match dailyLossReading env db req.accountId limits with
  | .breached _ => fired env .dailyLossBreach (lossState db req.accountId)
  | _ => lossState db req.accountId

/-- The loss-control state after the trigger of step 13, which fires on a recorded trip. -/
def stateAfterBreaker (env : Env) (error : Option CircuitBreakerError) (state : Option LossState) :
    Option LossState :=
  if error.any (·.tripRecorded) then fired env .breakerTrip state else state

/-- Step 13 stops the order: its trip is recorded and ENFORCE cannot write the transition. -/
def breakerStops (env : Env) (error : Option CircuitBreakerError) : Bool :=
  error.any (·.tripRecorded) && failsClosed env .breakerTrip

lemma breakerError_apart (h : Apart db db') {a : Nat} : breakerError env db' a = breakerError env db a := by
  obtain ⟨_, _, _, _, _, rfl⟩ := h
  rfl

lemma throttleGates_flagged (h : Flagged db db') {mode : AccountMode} {limits : RiskLimits} :
    throttleGates env db' req mode limits = throttleGates env db req mode limits := by
  obtain ⟨_, _, _, rfl⟩ := h
  rfl

lemma throttleGates_apart (h : Apart db db') {mode : AccountMode} {limits : RiskLimits} :
    throttleGates env db' req mode limits = throttleGates env db req mode limits := by
  obtain ⟨_, _, _, _, _, rfl⟩ := h
  rfl

lemma dailyLossGate_clear {limits : RiskLimits} (clear : dailyLossReading env ev.db req.accountId limits = .clear) :
    dailyLossGate env req limits ev = (ev, .next) := by
  unfold dailyLossGate
  rw [clear]

lemma dailyLossReading_rejects {a : Nat} {limits : RiskLimits} {status : ObservationStatus}
    (e : dailyLossReading env db a limits = .basisUnavailable status) : mapSurfaceAction status .newRisk = .reject := by
  apply mapSurfaceAction_newRisk
  unfold dailyLossReading at e
  generalize dailyLossDayChange env db a = r at e
  obtain ⟨dayChange, modelA⟩ := r
  split at e
  · cases e
  · dsimp only at e
    split at e
    · rename_i modelA some
      cases e
      simpa using (mem_filter_iff.1 some).2
    · split at e <;> cases e

/-- Step 9 of a locked order: it stops, or it asks the classifier on a database that differs from the
    first only by the trip and the trigger. -/
lemma dailyLossGate_locked {limits : RiskLimits} (locked : dailyLossReading env ev.db req.accountId limits ≠ .clear) :
    ∃ ev' args reason, (ev'.cache = ev.cache ∧ Flagged ev.db ev'.db ∧
        Apart (afterDailyLoss env ev.db req limits) ev'.db ∧
        lossState ev'.db req.accountId = stateAfterDailyLoss env ev.db req limits) ∧
      (dailyLossGate env req limits ev = (ev', .stop) ∧
          (∃ x, dailyLossReading env ev.db req.accountId limits = .breached x) ∧
          failsClosed env .dailyLossBreach = true ∨
        dailyLossGate env req limits ev = reductionOnly env req args reason ev' ∧
          ((∃ x, dailyLossReading env ev.db req.accountId limits = .breached x) →
            failsClosed env .dailyLossBreach = false)) := by
  unfold dailyLossGate afterDailyLoss stateAfterDailyLoss
  cases reading : dailyLossReading env ev.db req.accountId limits with
  | clear => exact absurd reading locked
  | basisUnavailable status =>
    have rejects := dailyLossReading_rejects reading
    exact ⟨ev, _, _, ⟨rfl, .refl, .refl, rfl⟩, .inr ⟨if_pos rejects, by simp⟩⟩
  | breached x =>
    have spec := @triggerAndGuard_spec env ⟨trip ev.db req.accountId env.clock.now, ev.cache⟩
      req.accountId .dailyLossBreach
    have same : lossState (trip ev.db req.accountId env.clock.now) = lossState ev.db := by
      obtain ⟨accounts, e⟩ := @trip_frame ev.db req.accountId env.clock.now
      rw [e]
      rfl
    dsimp only
    generalize triggerAndGuard env req.accountId .dailyLossBreach
      ⟨trip ev.db req.accountId env.clock.now, ev.cache⟩ = r at spec ⊢
    obtain ⟨ev', guard⟩ := r
    obtain ⟨rfl, fires⟩ := spec
    have kept : ev'.cache = ev.cache ∧ Flagged ev.db ev'.db ∧
        Apart (trip ev.db req.accountId env.clock.now) ev'.db ∧
        lossState ev'.db req.accountId =
          fired env .dailyLossBreach (lossState ev.db req.accountId) :=
      ⟨fires.cache, Flagged.trip.trans fires.flagged, fires.apart, by rw [fires.state, same]⟩
    cases closed : failsClosed env .dailyLossBreach with
    | true => exact ⟨ev', {}, .circuitBreaker, kept, .inl ⟨rfl, ⟨x, rfl⟩, rfl⟩⟩
    | false => exact ⟨ev', _, _, kept, .inr ⟨rfl, fun _ => rfl⟩⟩

lemma breakerGate_clear (clear : breakerError env ev.db req.accountId = none) :
    breakerGate env req ev = (ev, .next) := by
  unfold breakerGate check
  rw [breakerError] at clear
  dsimp only
  rw [clear]
  have healthy : breakerReading env.settings env.clock ev.db req.accountId ≠ .breached := by
    intro breached
    rw [breached] at clear
    cases clear
  rw [if_neg healthy]

lemma breakerGate_locked {error : CircuitBreakerError} (locked : breakerError env ev.db req.accountId = some error) :
    ∃ ev' args reason, (ev'.cache = ev.cache ∧ Flagged ev.db ev'.db ∧ lossState ev'.db req.accountId =
          stateAfterBreaker env (some error) (lossState ev.db req.accountId)) ∧
      (breakerGate env req ev = (ev', .stop) ∧ breakerStops env (some error) = true ∨
        breakerGate env req ev = reductionOnly env req args reason ev' ∧ breakerStops env (some error) = false) := by
  have same : lossState (check env.settings env.clock ev.db req.accountId).1 = lossState ev.db := by
    obtain ⟨accounts, e⟩ := @check_frame env.settings env.clock ev.db req.accountId
    rw [e]
    rfl
  have flagged := @Flagged.check ev.db env.settings env.clock req.accountId
  have raised : (check env.settings env.clock ev.db req.accountId).2 = some error := locked
  unfold breakerGate
  generalize check env.settings env.clock ev.db req.accountId = c at same flagged raised ⊢
  obtain ⟨checked, e⟩ := c
  cases raised
  obtain ⟨recorded⟩ := error
  cases recorded with
  | false =>
    exact ⟨⟨checked, ev.cache⟩, _, _, ⟨rfl, flagged, congrFun same _⟩, .inr ⟨rfl, rfl⟩⟩
  | true =>
    have spec := @triggerAndGuard_spec env ⟨checked, ev.cache⟩ req.accountId .breakerTrip
    dsimp only
    generalize triggerAndGuard env req.accountId .breakerTrip ⟨checked, ev.cache⟩ = r at spec ⊢
    obtain ⟨ev', guard⟩ := r
    obtain ⟨rfl, fires⟩ := spec
    have kept : ev'.cache = ev.cache ∧ Flagged ev.db ev'.db ∧
        lossState ev'.db req.accountId =
          fired env .breakerTrip (lossState ev.db req.accountId) :=
      ⟨fires.cache, flagged.trans fires.flagged, by rw [fires.state, same]⟩
    cases closed : failsClosed env .breakerTrip with
    | true => exact ⟨ev', {}, .circuitBreaker, kept, .inl ⟨rfl, by simp [breakerStops, closed]⟩⟩
    | false => exact ⟨ev', _, _, kept, .inr ⟨rfl, by simp [breakerStops, closed]⟩⟩

/-! ## The course -/

/-- How the gates of an order come to the classifier. -/
inductive Course where
  | unasked
  | stopped
  | asked
  deriving DecidableEq, Repr

def course (env : Env) (db : Db) (req : OrderRequest) (brokerMode : AccountMode)
    (ctx : Applicable) : Course :=
  if (orderGates env db req ctx).isSome then .unasked
  else match dailyLossReading env db req.accountId ctx.limits with
    | .basisUnavailable _ => .asked
    | .breached _ => if failsClosed env .dailyLossBreach then .stopped else .asked
    | .clear =>
      if (throttleGates env db req brokerMode ctx.limits).isSome then .unasked
      else match breakerError env db req.accountId with
        | none => .unasked
        | some error => if breakerStops env (some error) then .stopped else .asked

/-- A gate between the classification and the end refuses the order. -/
def heldUp (env : Env) (db : Db) (req : OrderRequest) (brokerMode : AccountMode)
    (ctx : Applicable) : Bool :=
  (throttleGates env db req brokerMode ctx.limits).isSome ||
    breakerStops env (breakerError env (afterDailyLoss env db req ctx.limits) req.accountId)

/-- The loss-control state an order that was let through meets at the gate. -/
def stateAtGate (env : Env) (db : Db) (req : OrderRequest) (ctx : Applicable) : Option LossState :=
  stateAfterBreaker env (breakerError env (afterDailyLoss env db req ctx.limits) req.accountId)
    (stateAfterDailyLoss env db req ctx.limits)

lemma Classified.flagged (c : Classified env req db ev) (cache : ev'.cache = ev.cache)
    (flagged : Flagged ev.db ev'.db) : Classified env req db ev' := by
  obtain ⟨_, _, _, e⟩ := flagged
  refine ⟨by rw [cache, c.result], by rw [cache, c.reservationId], ?_⟩
  rw [e]
  exact c.created

lemma reductionOnly_fresh {args : DecideArgs} {reason : ReasonCode} (fresh : ev.cache = {})
    (flagged : Flagged db ev.db) :
    Classified env req db (reductionOnly env req args reason ev).1 ∧ (reductionOnly env req args reason ev).2 =
        (if grants env db req then .next else .refuse reason) ∧
      Apart ev.db (reductionOnly env req args reason ev).1.db ∧
      lossState (reductionOnly env req args reason ev).1.db = lossState ev.db := by
  obtain ⟨c, permitted, apart, state⟩ := @permitsVerifiedReduction_fresh env req args ev fresh
  have same := @grants_flagged env db ev.db req flagged
  have rows : ev.db.reservations = db.reservations := by
    obtain ⟨_, _, _, e⟩ := flagged
    rw [e]
  refine ⟨⟨?_, ?_, ?_⟩, ?_, apart, state⟩
  · rw [← same]
    exact c.result
  · rw [← same, ← rows]
    exact c.reservationId
  · rw [← same, ← rows]
    exact c.created
  · rw [← same, ← permitted]
    rfl

lemma runGates_stopped (e : course env db req brokerMode ctx = .stopped) :
    ∃ ev, runGates env req brokerMode ctx ⟨db, {}⟩ = (ev, .stop) ∧ ev.db.reservations = db.reservations := by
  have kept {ev : Evaluation} (flagged : Flagged db ev.db) : ev.db.reservations = db.reservations := by
    obtain ⟨_, _, _, e⟩ := flagged
    rw [e]
  unfold course at e
  unfold runGates
  cases gates : orderGates env db req ctx with
  | some reason => simp [gates] at e
  | none =>
    simp only [gates, isSome_none, Bool.false_eq_true, if_false] at e
    cases reading : dailyLossReading env db req.accountId ctx.limits with
    | basisUnavailable status => simp [reading] at e
    | breached x =>
      have locked : dailyLossReading env (⟨db, {}⟩ : Evaluation).db req.accountId ctx.limits ≠ .clear := by
        simp [reading]
      obtain ⟨ev', args, reason, ⟨-, flagged, -⟩, ⟨stop, -⟩ | ⟨-, open_⟩⟩ := dailyLossGate_locked locked
      · exact ⟨ev', by simp only [stop], kept flagged⟩
      · simp [reading, open_ ⟨x, reading⟩] at e
    | clear =>
      rw [reading] at e
      rw [dailyLossGate_clear reading]
      cases throttled : throttleGates env db req brokerMode ctx.limits with
      | some reason => simp [throttled] at e
      | none =>
        simp only [throttled, isSome_none, Bool.false_eq_true, if_false] at e
        cases locked : breakerError env db req.accountId with
        | none => simp [locked] at e
        | some error =>
          simp only [locked] at e
          obtain ⟨ev', args, reason, ⟨-, flagged, -⟩, ⟨stop, -⟩ | ⟨-, open_⟩⟩ :=
            @breakerGate_locked env req ⟨db, {}⟩ error locked
          · exact ⟨ev', by simp only [throttled, stop], kept flagged⟩
          · simp [open_] at e

/-- A course that does not ask leaves the evaluation as it was, and lets an order on that steps 5 to 8
    and 10 to 12 have nothing against. -/
lemma runGates_unasked (e : course env db req brokerMode ctx = .unasked) :
    ∃ gate, gate ≠ .stop ∧ runGates env req brokerMode ctx ⟨db, {}⟩ = (⟨db, {}⟩, gate) ∧
      (gate = .next ↔ orderGates env db req ctx = none ∧ throttleGates env db req brokerMode ctx.limits = none) := by
  unfold course at e
  unfold runGates
  cases gates : orderGates env db req ctx with
  | some reason => exact ⟨.refuse reason, by simp, rfl, by simp⟩
  | none =>
    simp only [gates, isSome_none, Bool.false_eq_true, if_false] at e
    cases reading : dailyLossReading env db req.accountId ctx.limits with
    | basisUnavailable status => simp [reading] at e
    | breached x => simp only [reading] at e; split at e <;> cases e
    | clear =>
      rw [reading] at e
      rw [dailyLossGate_clear reading]
      cases throttled : throttleGates env db req brokerMode ctx.limits with
      | some reason => exact ⟨.refuse reason, by simp, by simp only [throttled], by simp⟩
      | none =>
        simp only [throttled, isSome_none, Bool.false_eq_true, if_false] at e
        cases locked : breakerError env db req.accountId with
        | some error => simp only [locked] at e; split at e <;> cases e
        | none =>
          refine ⟨.next, by simp, ?_, by simp⟩
          simp only [throttled]
          exact breakerGate_clear locked

lemma runGates_asked (e : course env db req brokerMode ctx = .asked) :
    Classified env req db (runGates env req brokerMode ctx ⟨db, {}⟩).1 ∧ (grants env db req = true →
        if heldUp env db req brokerMode ctx then (runGates env req brokerMode ctx ⟨db, {}⟩).2 ≠ .next
        else (runGates env req brokerMode ctx ⟨db, {}⟩).2 = .next ∧
          lossState (runGates env req brokerMode ctx ⟨db, {}⟩).1.db req.accountId = stateAtGate env db req ctx) := by
  unfold course at e
  unfold runGates heldUp stateAtGate
  cases gates : orderGates env db req ctx with
  | some reason => simp [gates] at e
  | none =>
    simp only [gates, isSome_none, Bool.false_eq_true, if_false] at e
    by_cases clear : dailyLossReading env db req.accountId ctx.limits = .clear
    · -- step 13 is the one that asks, and nothing comes after it
      simp only [clear] at e
      have same : afterDailyLoss env db req ctx.limits = db := by simp only [afterDailyLoss, clear]
      have state : stateAfterDailyLoss env db req ctx.limits = lossState db req.accountId := by
        simp only [stateAfterDailyLoss, clear]
      rw [dailyLossGate_clear clear, same, state]
      cases throttled : throttleGates env db req brokerMode ctx.limits with
      | some reason => simp [throttled] at e
      | none =>
        simp only [throttled, isSome_none, Bool.false_eq_true, if_false] at e
        cases locked : breakerError env db req.accountId with
        | none => simp [locked] at e
        | some error =>
          simp only [locked] at e
          obtain ⟨ev', args, reason, ⟨cache, flagged, moved⟩, ⟨-, stops⟩ | ⟨asks, stops⟩⟩ :=
            @breakerGate_locked env req ⟨db, {}⟩ error locked
          · simp [stops] at e
          · obtain ⟨c, gate, -, kept⟩ :=
              @reductionOnly_fresh env db req ev' args reason cache flagged
            simp only [asks, throttled, stops, isSome_none, Bool.or_self, Bool.false_eq_true,
              if_false]
            refine ⟨c, fun granted => ⟨by rw [gate, if_pos granted], ?_⟩⟩
            rw [kept]
            exact moved
    · -- step 9 asks; steps 10 to 13 follow with the answer in the cache
      obtain ⟨ev', args, reason, ⟨cache, flagged, apart, moved⟩, ⟨-, ⟨x, breached⟩, closed⟩ | ⟨asks, -⟩⟩ :=
        @dailyLossGate_locked env req ⟨db, {}⟩ ctx.limits clear
      · have reading : dailyLossReading env db req.accountId ctx.limits = .breached x := breached
        simp [reading, closed] at e
      · obtain ⟨c, gate, apart', kept⟩ :=
          @reductionOnly_fresh env db req ev' args reason cache flagged
        rw [asks]
        generalize reductionOnly env req args reason ev' = r at c gate apart' kept ⊢
        obtain ⟨ev₁, verdict⟩ := r
        dsimp only at c gate apart' kept
        subst gate
        cases granted : grants env db req with
        | false => exact ⟨c, by simp⟩
        | true =>
          have throttle : throttleGates env ev₁.db req brokerMode ctx.limits =
              throttleGates env db req brokerMode ctx.limits :=
            (throttleGates_apart apart').trans (throttleGates_flagged flagged)
          have error : breakerError env ev₁.db req.accountId =
              breakerError env (afterDailyLoss env db req ctx.limits) req.accountId :=
            breakerError_apart (apart.trans apart')
          have state : lossState ev₁.db req.accountId = stateAfterDailyLoss env db req ctx.limits := by
            rw [kept]
            exact moved
          rw [← throttle, ← error, ← state]
          cases throttled : throttleGates env ev₁.db req brokerMode ctx.limits with
          | some reason =>
            simp only [if_true, throttled]
            exact ⟨c, by simp⟩
          | none =>
            simp only [if_true, isSome_none, Bool.false_or, forall_const, throttled]
            cases locked : breakerError env ev₁.db req.accountId with
            | none =>
              rw [breakerGate_clear locked]
              exact ⟨c, rfl, rfl⟩
            | some error =>
              obtain ⟨ev₂, args, reason, ⟨cache, flagged, moved⟩, ⟨stop, stops⟩ | ⟨asks, stops⟩⟩ :=
                breakerGate_locked locked
              · rw [stop]
                exact ⟨c.flagged cache flagged, by simp [stops]⟩
              · have cached : ev₂.cache.result = some true := by rw [cache, c.result, granted]
                rw [asks, reductionOnly, permitsVerifiedReduction_cached cached]
                refine ⟨c.flagged cache flagged, ?_⟩
                rw [stops]
                exact ⟨rfl, moved⟩

/-! ## The loss-control gate -/

/-- What the loss-control gate tells the decision service. -/
def gateArgs : DecideArgs := ⟨.dailyLoss, some "loss_control_reduction_only", none⟩

/-- The loss-control gate puts the order to the classifier. -/
def gateConsults (env : Env) (accountId : Nat) (ev : Evaluation) : Bool :=
  env.settings.lossControlMode ≠ .off && !env.stateRowFails && gateAsks accountId ev

/-- The evaluation after the gate consulted the classifier, if it did. -/
def consulted (env : Env) (req : OrderRequest) (ev : Evaluation) : Evaluation :=
  if gateConsults env req.accountId ev then (permitsVerifiedReduction env req gateArgs ev).1 else ev

/-- ENFORCE refuses an order in this state with this reduction verdict. -/
def gateDenies (env : Env) (state : Option LossState) (verified : Option Bool) : Bool :=
  env.settings.lossControlMode = .enforce &&
    (env.stateRowFails || env.gateFails || !statePermits state verified)

lemma enforceLossControl_some {legacy : Legacy} {d : LossControlDecision} :
    enforceLossControl (some d) legacy =
      if d.authoritative && !d.permitsOrder then some legacy.stopReasons else none := by
  cases a : d.authoritative <;> cases p : d.permitsOrder <;> simp [enforceLossControl, a, p]

lemma evaluateGate_spec {fails : Bool} {mode : LossControlMode} {a : Nat} {v : Option Bool} {l : Bool} :
    (evaluateGate fails db mode a v l).authoritative = Decidable.decide (mode = .enforce) ∧
      (evaluateGate fails db mode a v l).permitsOrder = (!fails && statePermits (lossState db a) v) := by
  cases fails <;> exact ⟨rfl, rfl⟩

lemma finalizeWithLossControl_eq {legacy : Legacy} :
    finalizeWithLossControl env req legacy ev = persistAndReturn (consulted env req ev).db
      (if gateDenies env (lossState (consulted env req ev).db req.accountId) (consulted env req ev).cache.result
        then { legacy with decision := .reject, reasons := legacy.stopReasons } else legacy) := by
  unfold finalizeWithLossControl applyLossControl gateDenies
  dsimp only
  by_cases off : env.settings.lossControlMode = .off
  · have same : consulted env req ev = ev := by simp [consulted, gateConsults, off]
    rw [if_pos off, same]
    simp [enforceLossControl, off]
  · rw [if_neg off]
    cases fails : env.stateRowFails with
    | true =>
      have same : consulted env req ev = ev := by simp [consulted, gateConsults, fails]
      rw [if_pos rfl, same]
      dsimp only
      by_cases enforce : env.settings.lossControlMode = .enforce
      · rw [if_pos enforce, enforceLossControl_some]
        simp [failClosedDecision, enforce]
      · rw [if_neg enforce]
        simp [enforceLossControl, enforce]
    | false =>
      have same : (if gateAsks req.accountId ev then
          (permitsVerifiedReduction env req
            ⟨.dailyLoss, some "loss_control_reduction_only", none⟩ ev).1 else ev) =
          consulted env req ev := by
        simp [consulted, gateConsults, off, fails, gateArgs]
      rw [if_neg Bool.false_ne_true, same]
      dsimp only
      rw [enforceLossControl_some, evaluateGate_spec.1, evaluateGate_spec.2, Bool.false_or]
      cases env.gateFails <;> cases statePermits (lossState (consulted env req ev).db req.accountId)
        (consulted env req ev).cache.result <;>
        by_cases enforce : env.settings.lossControlMode = .enforce <;> simp [enforce]

lemma consulted_of_result {b : Bool} (e : ev.cache.result = some b) : consulted env req ev = ev := by
  simp [consulted, gateConsults, gateAsks, e]

lemma conclude_not_next {gate : Gate} (ne : gate ≠ .next) : (conclude env req ctx ev gate).2.passed = false := by
  cases gate with
  | next => exact absurd rfl ne
  | stop => rfl
  | refuse reason =>
    rw [conclude, finalizeWithLossControl_eq]
    split <;> rfl

end Workbench.Risk
