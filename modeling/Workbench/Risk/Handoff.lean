import Workbench.Risk.Course

/-!
# Handing a reservation to its order

A granted reduction leaves a HELD reservation behind that only the returned `RiskOutcome` names. The
decision service commits it in a session of its own, at step 9, at step 13 or inside the loss-control
gate, and everything the engine does afterwards can still refuse the order; `HandedOff` says that
the reservation and the outcome agree at the end of the call.

`reservation_handed_off_iff` gives the exact condition on the state before the call: a granted order
must be asked for by a lock and be let through by everything after it, or not be asked for at all.
-/

namespace Workbench.Risk
open Workbench.Lib Workbench.Brokers Workbench.Risk.LossControl List

variable {env : Env} {db : Db} {req : OrderRequest} {ev : Evaluation}
variable {brokerMode : AccountMode} {ctx : Applicable}

/-! ## The hand-off -/

/-- The HELD reservations in `db'` that were not in `db`. -/
def createdHeld (db db' : Db) : List RiskReservation :=
  (db'.reservations.drop db.reservations.length).filter (·.state = .held)

/-- The reservations of a call and the outcome it returns agree: at most one is created, a created
    one is carried by a PASS, and nothing is left behind by anything else. -/
structure HandedOff (db : Db) (result : Db × RiskOutcome) : Prop where
  atMostOne : (createdHeld db result.1).length ≤ 1
  carried : ∀ i r, db.reservations.length ≤ i → result.1.reservations[i]? = some r →
    r.state = .held → result.2.passed = true ∧ result.2.reservationId = some i
  noneLeft : result.2.passed = false → createdHeld db result.1 = []

lemma HandedOff.of_none {result : Db × RiskOutcome}
    (none : result.1.reservations = db.reservations) : HandedOff db result := by
  have empty : createdHeld db result.1 = [] := by rw [createdHeld, none, drop_length]; rfl
  refine ⟨by simp [empty], ?_, fun _ => empty⟩
  intro i r le get
  rw [none, getElem?_eq_none le] at get
  cases get

lemma HandedOff.of_one {result : Db × RiskOutcome} {r : RiskReservation} (held : r.state = .held)
    (one : result.1.reservations = db.reservations ++ [r]) :
    HandedOff db result ↔ result.2.passed = true ∧ result.2.reservationId = some db.reservations.length := by
  have created : createdHeld db result.1 = [r] := by
    rw [createdHeld, one, drop_left]
    simp [held]
  constructor
  · intro h
    exact h.carried _ r le_rfl (by rw [one]; simp) held
  · intro ⟨passed, id⟩
    refine ⟨by simp [created], ?_, by simp [passed]⟩
    intro i r' le get _
    have lt : i < db.reservations.length + 1 := by
      have := (List.getElem?_eq_some_iff.1 get).1
      rw [one] at this
      simpa using this
    have eq : i = db.reservations.length := by omega
    exact ⟨passed, eq ▸ id⟩

/-- Everything that follows the classification lets the order through. -/
def letThrough (env : Env) (db : Db) (req : OrderRequest) (brokerMode : AccountMode)
    (ctx : Applicable) : Bool :=
  !heldUp env db req brokerMode ctx && !gateDenies env (stateAtGate env db req ctx) (some true)

/-- What the course of an order must be like for a granted reservation to reach its outcome. -/
def courseHandsOff (env : Env) (db : Db) (req : OrderRequest) (brokerMode : AccountMode)
    (ctx : Applicable) : Bool :=
  match course env db req brokerMode ctx with
  | .stopped => true
  | .asked => letThrough env db req brokerMode ctx
  | .unasked => !gateConsults env req.accountId ⟨db, {}⟩

/-- The condition for a hand-off: the classifier would grant nothing, the order does not get past
    preprocessing, or its course hands the reservation off. -/
def HandsOff (env : Env) (db : Db) (req : OrderRequest) (tradingMode brokerMode : AccountMode) :
    Prop :=
  grants env db req = true → ∀ ctx, preprocess env db req tradingMode brokerMode = .ok ctx →
    courseHandsOff env db req brokerMode ctx = true

lemma conclude_reservations {gate : Gate} {b : Bool} (e : ev.cache.result = some b) :
    (conclude env req ctx ev gate).1.reservations = ev.db.reservations := by
  cases gate with
  | stop => rfl
  | refuse reason =>
    rw [conclude, finalizeWithLossControl_eq, consulted_of_result e]
    rfl
  | next =>
    rw [conclude, finalizeWithLossControl_eq, consulted_of_result e]
    rfl

lemma conclude_next {b : Bool} (e : ev.cache.result = some b) :
    (conclude env req ctx ev .next).2.passed = !gateDenies env (lossState ev.db req.accountId) (some b) ∧
      (conclude env req ctx ev .next).2.reservationId = ev.cache.reservationId := by
  rw [conclude, finalizeWithLossControl_eq, consulted_of_result e, e]
  cases gateDenies env (lossState ev.db req.accountId) (some b) <;> exact ⟨rfl, rfl⟩

lemma handedOff_asked (asked : course env db req brokerMode ctx = .asked)
    (granted : grants env db req = true) {r : Evaluation × Gate} (run : runGates env req brokerMode ctx ⟨db, {}⟩ = r) :
    HandedOff db (conclude env req ctx r.1 r.2) ↔ letThrough env db req brokerMode ctx = true := by
  obtain ⟨c, course⟩ := runGates_asked asked
  rw [run] at c course
  have one := c.created
  rw [granted] at one
  obtain ⟨rows, len, held, rows_eq⟩ := one
  obtain ⟨row, rfl⟩ := length_eq_one_iff.1 len
  have created : (conclude env req ctx r.1 r.2).1.reservations = db.reservations ++ [row] := by
    rw [conclude_reservations c.result, rows_eq]
  rw [HandedOff.of_one (held row (by simp)) created, letThrough]
  cases up : heldUp env db req brokerMode ctx with
  | true =>
    have ne := course granted
    rw [up, if_pos rfl] at ne
    simp [conclude_not_next ne]
  | false =>
    have on := course granted
    rw [up, if_neg Bool.false_ne_true] at on
    obtain ⟨next, state⟩ := on
    obtain ⟨passed, id⟩ := @conclude_next env req r.1 ctx _ c.result
    rw [next, passed, id, c.reservationId, state, granted]
    simp

lemma conclude_unasked {gate : Gate} (ne : gate ≠ .stop) :
    (conclude env req ctx ⟨db, {}⟩ gate).2.reservationId = none ∧ ∃ rows : List RiskReservation,
        rows.length = (gateConsults env req.accountId ⟨db, {}⟩ && grants env db req).toNat ∧
        (∀ r ∈ rows, r.state = .held) ∧
        (conclude env req ctx ⟨db, {}⟩ gate).1.reservations = db.reservations ++ rows := by
  obtain ⟨legacy, unreserved, e⟩ : ∃ legacy : Legacy, legacy.reservationId = none ∧
      conclude env req ctx ⟨db, {}⟩ gate = finalizeWithLossControl env req legacy ⟨db, {}⟩ := by
    cases gate with
    | stop => exact absurd rfl ne
    | refuse reason => exact ⟨refusal reason, rfl, rfl⟩
    | next => exact ⟨passage env req ctx ⟨db, {}⟩, rfl, rfl⟩
  rw [e, finalizeWithLossControl_eq]
  refine ⟨?_, ?_⟩
  · show (ite _ _ _ : Legacy).reservationId = none
    split <;> exact unreserved
  · show ∃ rows, _ ∧ _ ∧ (consulted env req ⟨db, {}⟩).db.reservations = _
    unfold consulted
    cases asks : gateConsults env req.accountId ⟨db, {}⟩ with
    | false => exact ⟨[], rfl, by simp, by simp⟩
    | true => exact (@permitsVerifiedReduction_fresh env req gateArgs ⟨db, {}⟩ rfl).1.created

/-- One `RiskEngine.evaluate` hands its reservation off exactly under `HandsOff`. -/
theorem reservation_handed_off_iff (env : Env) (db : Db) (req : OrderRequest) (tradingMode brokerMode : AccountMode) :
    HandedOff db (evaluate env db req tradingMode brokerMode) ↔ HandsOff env db req tradingMode brokerMode := by
  unfold evaluate HandsOff courseHandsOff
  cases pre : preprocess env db req tradingMode brokerMode with
  | error reason => exact iff_of_true (HandedOff.of_none rfl) (by simp)
  | ok ctx =>
    dsimp only
    simp only [Except.ok.injEq, forall_eq']
    cases run : runGates env req brokerMode ctx ⟨db, {}⟩ with
    | mk ev gate =>
      dsimp only
      cases way : course env db req brokerMode ctx with
      | stopped =>
        obtain ⟨ev', stop, kept⟩ := runGates_stopped way
        rw [run] at stop
        cases stop
        exact iff_of_true (HandedOff.of_none kept) (fun _ => rfl)
      | asked =>
        cases granted : grants env db req with
        | false =>
          obtain ⟨c, -⟩ := runGates_asked way
          rw [run] at c
          have none := c.created
          rw [granted] at none
          obtain ⟨rows, len, -, rows_eq⟩ := none
          rw [length_eq_zero_iff.1 len, append_nil] at rows_eq
          refine iff_of_true (HandedOff.of_none ?_) (by simp)
          rw [conclude_reservations c.result, rows_eq]
        | true => simpa using handedOff_asked way granted run
      | unasked =>
        obtain ⟨gate', ne, same, -⟩ := runGates_unasked way
        rw [run] at same
        cases same
        obtain ⟨id, rows, len, held, rows_eq⟩ := @conclude_unasked env db req ctx _ ne
        cases asks : gateConsults env req.accountId ⟨db, {}⟩ && grants env db req with
        | false =>
          rw [asks] at len
          rw [length_eq_zero_iff.1 len, append_nil] at rows_eq
          refine iff_of_true (HandedOff.of_none rows_eq) ?_
          intro granted
          simpa [granted] using asks
        | true =>
          rw [asks] at len
          obtain ⟨row, rfl⟩ := length_eq_one_iff.1 len
          rw [Bool.and_eq_true] at asks
          rw [HandedOff.of_one (held row (by simp)) rows_eq, id]
          simp [asks.1, asks.2]

def lockedDb : Db where
  accounts := Dict.empty.set 1 ⟨1, .paper, none, none⟩
  symbols := [⟨"AAPL", true⟩]
  riskLimits := [
    { userId := 1, scopeType := .global, brokerMode := .paper, maxDailyLoss := some 1000,
      maxOrdersPerMinute := some 1 }]
  accountStates := Dict.empty.set 1 ⟨48000, 50000, -2000⟩
  positions := Dict.empty.set (1, 0) { qty := 100, marketValue := 18000 }
  orders := [
    { userId := 1, accountId := 1, symbolId := 0, side := .buy, qty := 100, status := .filled,
      createdAt := 1783954800000000, updatedAt := 1783954800000000 }]

/-- The engine's surroundings for `lockedDb`: the broker reports the position, loss control is off. -/
def lockedEnv : Env where
  clock := ⟨1783954830000000, some "2026-07-13"⟩
  registry := some (Dict.empty.set 1 ⟨7⟩)
  reads := fun _ _ => some
    { equity := 48000, positions := [{ symbol := "AAPL", qty := 100, currentPrice := 180 }] }

def sellForty : OrderRequest where
  userId := 1
  accountId := 1
  symbolTicker := "AAPL"
  side := .sell
  qty := 40

/-- Step 9 reserves the sell of 40, step 10 then refuses it for the rate limit: the outcome is a
    REJECT and the reservation stays HELD. -/
theorem rate_limit_leaks_reservation :
    (evaluate lockedEnv lockedDb sellForty .paper .paper).2.reasonCodes = [.rateLimit] ∧
      ¬ HandedOff lockedDb (evaluate lockedEnv lockedDb sellForty .paper .paper) := by
  have reasons : (evaluate lockedEnv lockedDb sellForty .paper .paper).2.reasonCodes =
      [.rateLimit] := by decide +kernel
  have refused : (evaluate lockedEnv lockedDb sellForty .paper .paper).2.passed = false := by
    decide +kernel
  have leaked : (createdHeld lockedDb
      (evaluate lockedEnv lockedDb sellForty .paper .paper).1).length = 1 := by decide +kernel
  refine ⟨reasons, fun handed => ?_⟩
  rw [handed.noneLeft refused] at leaked
  cases leaked

end Workbench.Risk
