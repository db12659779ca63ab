import Workbench.Risk.Course
import Workbench.Capacity.System
import Workbench.Orders.Lifecycle

/-!
# Databases that differ by loss control only

`Alike` relates the databases of two runs of one history, with loss control in SHADOW and OFF: they
agree up to the loss-control tables, the append-only ledger and the ledger ids that reservations
point to. Nothing on the order path reads any of these, so what one run decides and writes on its
database, the other decides and writes on its own; the lemmas say so for each operation.
-/

namespace Workbench.Shadow
open Workbench.Lib Workbench.Risk Workbench.Risk.LossControl

/-- A reservation without the ledger row it points to. -/
def unlogged (r : RiskReservation) : RiskReservation := { r with decisionId := none }

/-- `db'` is `db` up to loss control, the ledger and the ledger ids of reservations. -/
def Alike (db db' : Db) : Prop :=
  ∃ rows events ledger reservations,
    List.map unlogged reservations = db.reservations.map unlogged ∧
    db' = { db with
      lossControl := rows, controlEvents := events, ledger := ledger, reservations := reservations }

variable {db db' db'' : Db} {a : Nat} {read : Option BrokerRead} {action : ProposedAction}
variable {args : DecideArgs} {now : Instant} {snap : AccountSnapshot}

lemma Alike.refl : Alike db db := ⟨_, _, _, _, rfl, rfl⟩

lemma Alike.trans (h : Alike db db') (h' : Alike db' db'') : Alike db db'' := by
  obtain ⟨_, _, _, _, same, rfl⟩ := h
  obtain ⟨_, _, _, _, same', rfl⟩ := h'
  exact ⟨_, _, _, _, same'.trans same, rfl⟩

lemma Alike.capacity (h : Alike db db') : db'.capacity = db.capacity := by
  obtain ⟨_, _, _, _, _, rfl⟩ := h
  rfl

lemma Alike.length (h : Alike db db') : db'.reservations.length = db.reservations.length := by
  obtain ⟨_, _, _, reservations, same, rfl⟩ := h
  simpa using congrArg List.length same

lemma Alike.heldRows (h : Alike db db') : (heldRows db' a).map unlogged = (heldRows db a).map unlogged := by
  obtain ⟨_, _, _, reservations, same, rfl⟩ := h
  have filtered (rs : List RiskReservation) :
      (rs.filter fun r => r.accountId = a ∧ r.state = .held).map unlogged =
        (rs.map unlogged).filter fun r => r.accountId = a ∧ r.state = .held := by
    rw [List.filter_map]
    rfl
  rw [Risk.heldRows, Risk.heldRows, filtered, filtered]
  exact congrArg _ same

/-! ## Decisions -/

lemma groupBy_unlogged {ν : Type} {f : Option ν → RiskReservation → ν} {rows : List RiskReservation}
    (blind : ∀ o r, f o (unlogged r) = f o r) :
    Dict.groupBy (·.symbol) f (rows.map unlogged) = Dict.groupBy (·.symbol) f rows := by
  unfold Dict.groupBy
  rw [List.foldl_map]
  simp only [blind]
  rfl

lemma absorptionRows_alike (h : Alike db db') :
    (heldRows db' a).filterMap (absorptionRow db') = (heldRows db a).filterMap (absorptionRow db) := by
  have blind (d : Db) (held : List RiskReservation) :
      held.filterMap (absorptionRow d) = (held.map unlogged).filterMap (absorptionRow d) := by
    rw [List.filterMap_map]
    rfl
  have fills : absorptionRow db' = absorptionRow db := by
    obtain ⟨_, _, _, _, _, rfl⟩ := h
    rfl
  rw [blind db', h.heldRows, fills, ← blind db]

lemma decisionSnapshot_alike (h : Alike db db') : decisionSnapshot db' a read = decisionSnapshot db a read := by
  have reserved : reservedBySymbol db' a = reservedBySymbol db a := by
    rw [reservedBySymbol, reservedBySymbol, ← groupBy_unlogged (fun _ _ => rfl), h.heldRows,
      groupBy_unlogged (fun _ _ => rfl)]
  have fetched (held : Dict String ℚ) :
      fetchSnapshot db' a read held = fetchSnapshot db a read held := by
    obtain ⟨_, _, _, _, _, rfl⟩ := h
    rfl
  have absorbed (snap : AccountSnapshot) :
      absorbedReservedFillBySymbol snap db' a = absorbedReservedFillBySymbol snap db a := by
    unfold absorbedReservedFillBySymbol
    rw [absorptionRows_alike h]
  simp only [decisionSnapshot, reserved, fetched, absorbed]

lemma claimCapacity_alike {sym : String} {q : ℚ} {hash : StateHash} (h : Alike db db') :
    claimCapacity (refreshCapacity db' a sym snap) a sym q hash =
      (claimCapacity (refreshCapacity db a sym snap) a sym q hash).map fun x =>
        ({ db' with capacity := x.1.capacity }, x.2) := by
  obtain ⟨_, _, _, _, _, rfl⟩ := h
  simp only [claimCapacity, refreshCapacity, Dict.get_set_self]
  split
  · split <;> rfl
  · split <;> rfl

lemma Alike.setCapacity (h : Alike db db') {c : Dict (Nat × String) RiskCapacityState} :
    Alike { db with capacity := c } { db' with capacity := c } := by
  obtain ⟨_, _, _, _, same, rfl⟩ := h
  exact ⟨_, _, _, _, same, rfl⟩

lemma Alike.log (h : Alike db db') {rows rows' : List LedgerRow} :
    Alike { db with ledger := rows } { db' with ledger := rows' } := by
  obtain ⟨_, _, _, _, same, rfl⟩ := h
  exact ⟨_, _, _, _, same, rfl⟩

lemma Alike.reserve (h : Alike db db') {r r' : RiskReservation} (same : unlogged r' = unlogged r) :
    Alike { db with reservations := db.reservations ++ [r] }
      { db' with reservations := db'.reservations ++ [r'] } := by
  obtain ⟨_, _, _, reservations, rows, rfl⟩ := h
  exact ⟨_, _, _, reservations ++ [r'], by simp [rows, same], rfl⟩

lemma decideWrite_alike (h : Alike db db') :
    (decideWrite db' a snap action args now).2.result = (decideWrite db a snap action args now).2.result ∧
      (decideWrite db' a snap action args now).2.reservationId =
        (decideWrite db a snap action args now).2.reservationId ∧
      Alike (decideWrite db a snap action args now).1 (decideWrite db' a snap action args now).1 := by
  have refreshed : Alike (refreshCapacity db a (upper action.symbol) snap)
      (refreshCapacity db' a (upper action.symbol) snap) := by
    have := h.capacity
    unfold refreshCapacity
    rw [this]
    exact h.setCapacity
  simp only [decideWrite]
  split
  · rename_i q _ _
    rw [claimCapacity_alike h]
    cases claim : claimCapacity (refreshCapacity db a (upper action.symbol) snap) a
        (upper action.symbol) q snap.stateHash with
    | none => exact ⟨rfl, rfl, refreshed.log⟩
    | some granted =>
      obtain ⟨db₁, v⟩ := granted
      have frame := claimCapacity_frame claim
      refine ⟨rfl, congrArg some ?_, ?_⟩
      · show db'.reservations.length = db₁.reservations.length
        rw [h.length, frame]
      · have alike : Alike db₁ { db' with capacity := db₁.capacity } := by
          rw [frame]
          exact h.setCapacity
        have reserved := @Alike.reserve _ _ alike
          (newReservation db₁ a (upper action.symbol) q snap now)
          (newReservation { db' with capacity := db₁.capacity } a (upper action.symbol) q snap now) rfl
        exact reserved.log
  · exact ⟨rfl, rfl, h.log⟩

lemma decide_alike (h : Alike db db') :
    (decide db' a read action args now).2.result = (decide db a read action args now).2.result ∧
      (decide db' a read action args now).2.reservationId = (decide db a read action args now).2.reservationId ∧
      Alike (decide db a read action args now).1 (decide db' a read action args now).1 := by
  unfold Risk.decide
  rw [decisionSnapshot_alike h]
  exact decideWrite_alike h

/-! ## Evaluations -/

/-- Two evaluations of one order, one on each database. -/
structure EvalAlike (ev ev' : Evaluation) : Prop where
  db : Alike ev.db ev'.db
  cache : ev'.cache = ev.cache

variable {env : Env} {req : OrderRequest} {ev ev' : Evaluation} {brokerMode : AccountMode}
variable {ctx : Applicable}

lemma keep_congr {d d' : DecideResult} (result : d'.result = d.result)
    (id : d'.reservationId = d.reservationId) : ReductionCache.keep d' = ReductionCache.keep d := by
  simp only [ReductionCache.keep, result, id]

lemma permitsVerifiedReduction_alike (h : EvalAlike ev ev') :
    (permitsVerifiedReduction env req args ev').2 = (permitsVerifiedReduction env req args ev).2 ∧
      EvalAlike (permitsVerifiedReduction env req args ev).1 (permitsVerifiedReduction env req args ev').1 := by
  unfold permitsVerifiedReduction
  rw [h.cache]
  cases ev.cache.result with
  | some result => exact ⟨rfl, h⟩
  | none =>
    cases env.registry with
    | none => exact ⟨rfl, h.db, rfl⟩
    | some registry =>
      obtain ⟨result, id, db⟩ := @decide_alike _ _ req.accountId
        (classifierRead env registry req.userId) (submission req) args env.clock.now h.db
      exact ⟨congrArg permitsWhileLocked result, db, keep_congr result id⟩

lemma reductionOnly_alike {reason : ReasonCode} (h : EvalAlike ev ev') :
    (reductionOnly env req args reason ev').2 = (reductionOnly env req args reason ev).2 ∧
      EvalAlike (reductionOnly env req args reason ev).1 (reductionOnly env req args reason ev').1 := by
  obtain ⟨permits, alike⟩ := @permitsVerifiedReduction_alike args env req _ _ h
  refine ⟨?_, alike⟩
  unfold reductionOnly
  dsimp only
  rw [permits]

/-! ## The two modes -/

/-- The same surroundings with loss control in `mode`. -/
def withMode (mode : LossControlMode) (env : Env) : Env :=
  { env with settings := { env.settings with lossControlMode := mode } }

lemma Alike.requestTransition (h : Alike db db') {trigger : LossTrigger} :
    Alike db (requestTransition db' a trigger now) := by
  obtain ⟨_, _, e⟩ := @requestTransition_frame db' a trigger now
  obtain ⟨_, _, _, _, same, rfl⟩ := h
  rw [e]
  exact ⟨_, _, _, _, same, rfl⟩

lemma triggerAndGuard_alike {trigger : LossTrigger} (h : EvalAlike ev ev') :
    triggerAndGuard (withMode .off env) a trigger ev = (ev, false) ∧
      (triggerAndGuard (withMode .shadow env) a trigger ev').2 = false ∧
      EvalAlike ev (triggerAndGuard (withMode .shadow env) a trigger ev').1 := by
  refine ⟨rfl, ?_⟩
  unfold triggerAndGuard
  rw [if_neg (by simp [withMode])]
  split
  · exact ⟨by simp [withMode], h⟩
  · exact ⟨rfl, h.db.requestTransition, h.cache⟩

lemma Alike.trip (h : Alike db db') : Alike (trip db a now) (trip db' a now) := by
  obtain ⟨_, _, _, _, same, rfl⟩ := h
  unfold Risk.trip
  dsimp only
  split
  · exact ⟨_, _, _, _, same, rfl⟩
  · split
    · exact ⟨_, _, _, _, same, rfl⟩
    · exact ⟨_, _, _, _, same, rfl⟩

lemma dailyLossGate_alike {limits : RiskLimits} (h : EvalAlike ev ev') :
    (dailyLossGate (withMode .shadow env) req limits ev').2 = (dailyLossGate (withMode .off env) req limits ev).2 ∧
      EvalAlike (dailyLossGate (withMode .off env) req limits ev).1
        (dailyLossGate (withMode .shadow env) req limits ev').1 := by
  have same : dailyLossReading (withMode .shadow env) ev'.db req.accountId limits =
      dailyLossReading (withMode .off env) ev.db req.accountId limits := by
    obtain ⟨⟨_, _, _, _, _, e⟩, -⟩ := h
    rw [e]
    rfl
  unfold dailyLossGate
  rw [same]
  cases dailyLossReading (withMode .off env) ev.db req.accountId limits with
  | clear => exact ⟨rfl, h⟩
  | basisUnavailable status =>
    dsimp only
    split
    · exact reductionOnly_alike h
    · exact ⟨rfl, h⟩
  | breached x =>
    have tripped : EvalAlike ⟨trip ev.db req.accountId env.clock.now, ev.cache⟩
        ⟨trip ev'.db req.accountId env.clock.now, ev'.cache⟩ := ⟨h.db.trip, h.cache⟩
    obtain ⟨off, guard, alike⟩ := @triggerAndGuard_alike req.accountId env _ _ .dailyLossBreach tripped
    dsimp only [withMode] at off guard alike ⊢
    rw [off]
    generalize triggerAndGuard _ req.accountId .dailyLossBreach
      ⟨trip ev'.db req.accountId env.clock.now, ev'.cache⟩ = r at guard alike ⊢
    obtain ⟨ev₁, guarded⟩ := r
    cases guard
    exact reductionOnly_alike alike

lemma check_alike (h : Alike db db') :
    (check (withMode .shadow env).settings env.clock db' a).2 = (check (withMode .off env).settings env.clock db a).2 ∧
      Alike (check (withMode .off env).settings env.clock db a).1
        (check (withMode .shadow env).settings env.clock db' a).1 := by
  have same : breakerReading (withMode .shadow env).settings env.clock db' a =
      breakerReading (withMode .off env).settings env.clock db a := by
    obtain ⟨_, _, _, _, _, rfl⟩ := h
    rfl
  unfold check
  dsimp only
  rw [same]
  refine ⟨rfl, ?_⟩
  split
  · exact h.trip
  · exact h

lemma breakerGate_alike (h : EvalAlike ev ev') :
    (breakerGate (withMode .shadow env) req ev').2 = (breakerGate (withMode .off env) req ev).2 ∧
      EvalAlike (breakerGate (withMode .off env) req ev).1 (breakerGate (withMode .shadow env) req ev').1 := by
  obtain ⟨raised, checked⟩ := @check_alike _ _ req.accountId env h.db
  unfold breakerGate
  dsimp only [withMode] at raised checked ⊢
  generalize check _ env.clock ev'.db req.accountId = c' at raised checked ⊢
  generalize check _ env.clock ev.db req.accountId = c at raised checked ⊢
  obtain ⟨db₁, error⟩ := c
  obtain ⟨db₁', error'⟩ := c'
  dsimp only at raised checked
  subst raised
  have alike : EvalAlike ⟨db₁, ev.cache⟩ ⟨db₁', ev'.cache⟩ := ⟨checked, h.cache⟩
  cases error' with
  | none => exact ⟨rfl, alike⟩
  | some error =>
    obtain ⟨recorded⟩ := error
    cases recorded with
    | false => exact reductionOnly_alike alike
    | true =>
      obtain ⟨off, guard, alike⟩ := @triggerAndGuard_alike req.accountId env _ _ .breakerTrip alike
      dsimp only [withMode] at off guard alike ⊢
      rw [off]
      generalize triggerAndGuard _ req.accountId .breakerTrip ⟨db₁', ev'.cache⟩ = r at guard alike ⊢
      obtain ⟨ev₁, guarded⟩ := r
      cases guard
      exact reductionOnly_alike alike

lemma runGates_alike (h : EvalAlike ev ev') :
    (runGates (withMode .shadow env) req brokerMode ctx ev').2 =
        (runGates (withMode .off env) req brokerMode ctx ev).2 ∧
      EvalAlike (runGates (withMode .off env) req brokerMode ctx ev).1
        (runGates (withMode .shadow env) req brokerMode ctx ev').1 := by
  have gates {mode mode'} {d d' : Db} (h : Alike d d') :
      orderGates (withMode mode env) d' req ctx = orderGates (withMode mode' env) d req ctx := by
    obtain ⟨_, _, _, _, _, rfl⟩ := h
    rfl
  have throttles {mode mode'} {d d' : Db} (h : Alike d d') :
      throttleGates (withMode mode env) d' req brokerMode ctx.limits =
        throttleGates (withMode mode' env) d req brokerMode ctx.limits := by
    obtain ⟨_, _, _, _, _, rfl⟩ := h
    rfl
  unfold runGates
  rw [@gates .shadow .off _ _ h.db]
  cases orderGates (withMode .off env) ev.db req ctx with
  | some reason => exact ⟨rfl, h⟩
  | none =>
    obtain ⟨same, alike⟩ := @dailyLossGate_alike env req _ _ ctx.limits h
    dsimp only
    generalize dailyLossGate (withMode .shadow env) req ctx.limits ev' = r' at same alike ⊢
    generalize dailyLossGate (withMode .off env) req ctx.limits ev = r at same alike ⊢
    obtain ⟨ev₁, gate⟩ := r
    obtain ⟨ev₁', gate'⟩ := r'
    dsimp only at same alike
    subst same
    cases gate' with
    | stop => exact ⟨rfl, alike⟩
    | refuse reason => exact ⟨rfl, alike⟩
    | next =>
      dsimp only
      rw [@throttles .shadow .off _ _ alike.db]
      cases throttleGates (withMode .off env) ev₁.db req brokerMode ctx.limits with
      | some reason => exact ⟨rfl, alike⟩
      | none => exact breakerGate_alike alike

/-! ## The verdict -/

/-- The classifier verifies the order as a reduction. -/
def verifies (env : Env) (db : Db) (req : OrderRequest) : Bool :=
  env.registry.any fun registry =>
    (classify (decisionSnapshot db req.accountId (classifierRead env registry req.userId))
      (submission req)).isVerifiedReduction

/-- The loss-control gate itself puts a verified reduction to the decision service: the persisted
    state depends on the reduction verdict, and no lock has asked for it. -/
def gateClaims (env : Env) (db : Db) (req : OrderRequest) (tradingMode brokerMode : AccountMode) :
    Bool :=
  match preprocess env db req tradingMode brokerMode with
  | .error _ => false
  | .ok ctx =>
    course env db req brokerMode ctx = .unasked && gateConsults env req.accountId ⟨db, {}⟩ &&
      verifies env db req

lemma permitsVerifiedReduction_unverified (no : verifies env ev.db req = false) :
    Alike ev.db (permitsVerifiedReduction env req args ev).1.db := by
  unfold permitsVerifiedReduction
  cases ev.cache.result with
  | some result => exact .refl
  | none =>
    cases reg : env.registry with
    | none => exact .refl
    | some registry =>
      rw [verifies, reg, Option.any_some] at no
      simp only [Risk.decide, decideWrite, no]
      exact Alike.refl.log

lemma finalizeWithLossControl_alike {legacy : Legacy} (h : EvalAlike ev ev')
    (quiet : gateConsults (withMode .shadow env) req.accountId ev' = true → verifies env ev'.db req = false) :
    (finalizeWithLossControl (withMode .shadow env) req legacy ev').2 =
        (finalizeWithLossControl (withMode .off env) req legacy ev).2 ∧
      Alike (finalizeWithLossControl (withMode .off env) req legacy ev).1
        (finalizeWithLossControl (withMode .shadow env) req legacy ev').1 := by
  have silent {mode state verified} (open_ : mode ≠ .enforce) :
      gateDenies (withMode mode env) state verified = false := by
    simp [gateDenies, withMode, open_]
  have off : consulted (withMode .off env) req ev = ev := by
    simp [consulted, gateConsults, withMode]
  have shadow : Alike ev.db (consulted (withMode .shadow env) req ev').db := by
    unfold consulted
    split
    · rename_i consults
      exact h.db.trans (permitsVerifiedReduction_unverified (quiet consults))
    · exact h.db
  rw [finalizeWithLossControl_eq, finalizeWithLossControl_eq, silent (by decide), silent (by decide), off]
  obtain ⟨_, _, _, _, same, e⟩ := shadow
  rw [e]
  exact ⟨rfl, _, _, _, _, same, rfl⟩

lemma course_shadow : course (withMode .shadow env) db req brokerMode ctx ≠ .stopped := by
  have opened {trigger : LossTrigger} : failsClosed (withMode .shadow env) trigger = false := by
    simp [failsClosed, withMode]
  unfold course breakerStops
  simp only [opened, Bool.and_false]
  split
  · simp
  · split
    · simp
    · simp
    · split
      · simp
      · split <;> simp

lemma evaluate_alike {tradingMode : AccountMode} (h : Alike db db')
    (quiet : gateClaims (withMode .shadow env) db' req tradingMode brokerMode = false) :
    (evaluate (withMode .shadow env) db' req tradingMode brokerMode).2 =
        (evaluate (withMode .off env) db req tradingMode brokerMode).2 ∧
      Alike (evaluate (withMode .off env) db req tradingMode brokerMode).1
        (evaluate (withMode .shadow env) db' req tradingMode brokerMode).1 := by
  have persisted {legacy : Legacy} {d d' : Db} (h : Alike d d') :
      (persistAndReturn d' legacy).2 = (persistAndReturn d legacy).2 ∧
        Alike (persistAndReturn d legacy).1 (persistAndReturn d' legacy).1 := by
    obtain ⟨_, _, _, _, same, e⟩ := h
    rw [e]
    exact ⟨rfl, _, _, _, _, same, rfl⟩
  have pre : preprocess (withMode .shadow env) db' req tradingMode brokerMode =
      preprocess (withMode .off env) db req tradingMode brokerMode := by
    obtain ⟨_, _, _, _, _, e⟩ := h
    rw [e]
    rfl
  unfold gateClaims at quiet
  unfold evaluate
  rw [pre] at quiet ⊢
  generalize preprocess (withMode .off env) db req tradingMode brokerMode = p at quiet ⊢
  cases p with
  | error reason => exact persisted h
  | ok ctx =>
    dsimp only at quiet ⊢
    obtain ⟨same, alike⟩ := @runGates_alike env req ⟨db, {}⟩ ⟨db', {}⟩ brokerMode ctx ⟨h, rfl⟩
    -- the gate only asks when no lock did, and then the gates left the database as it was
    have quiet' : gateConsults (withMode .shadow env) req.accountId
        (runGates (withMode .shadow env) req brokerMode ctx ⟨db', {}⟩).1 = true →
        verifies env (runGates (withMode .shadow env) req brokerMode ctx ⟨db', {}⟩).1.db req =
          false := by
      intro consults
      cases c : course (withMode .shadow env) db' req brokerMode ctx with
      | unasked =>
        obtain ⟨gate, -, e, -⟩ := runGates_unasked c
        rw [e] at consults ⊢
        show verifies (withMode .shadow env) db' req = false
        simpa [c, consults] using quiet
      | stopped => exact absurd c course_shadow
      | asked =>
        have result := (runGates_asked c).1.result
        simp [gateConsults, gateAsks, result] at consults
    generalize runGates (withMode .shadow env) req brokerMode ctx ⟨db', {}⟩ = r' at same alike quiet' ⊢
    generalize runGates (withMode .off env) req brokerMode ctx ⟨db, {}⟩ = r at same alike ⊢
    obtain ⟨ev, gate⟩ := r
    obtain ⟨ev', gate'⟩ := r'
    dsimp only at same alike quiet'
    subst same
    cases gate' with
    | stop => exact persisted alike.db
    | refuse reason => exact finalizeWithLossControl_alike alike quiet'
    | next =>
      have passed : passage (withMode .shadow env) req ctx ev' = passage (withMode .off env) req ctx ev := by
        unfold passage
        rw [alike.cache]
        rfl
      unfold conclude
      rw [passed]
      exact finalizeWithLossControl_alike alike quiet'

end Workbench.Shadow
