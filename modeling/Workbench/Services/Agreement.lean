import Workbench.Risk.CircuitBreaker
import Workbench.Services.Reconciliation

/-!
# The replay and the deciders

The audit rows that `CircuitBreakerService.check` and `evaluate` write when they trip, and those of
`run_reconciliation`, under the verifiers of `app/services/replay.py`. A trip records `daily_pnl` where the
verifier reads `net_pnl`; a discrepancy of quantities is decided with an epsilon that the verifier leaves out.
-/

namespace Workbench.Services
open Lib Risk Risk.LossControl List Option

/-! ## Trips -/

def basisName : BasisSource → String
  | .sessionBaseline => "SESSION_BASELINE"
  | .legacyLastEquity => "LEGACY_LAST_EQUITY"
  | .legacyCumulativeFallback => "LEGACY_CUMULATIVE_FALLBACK"

/-- Python `DailyLossBasis.provenance`. -/
def provenance (source : Option String) (dayChange currentEquity : Option ℚ) (limit : ℚ) : Payload :=
  [("basis_source", ofText source), ("current_equity", ofQty (currentEquity.map .finite)),
    ("day_change", ofQty (dayChange.map .finite)), ("applicable_limit", .number (.finite limit))]

/-- The name of the basis that `_compute_daily_pnl` returns beside the P&L, and its provenance where it has one. -/
def dailyPnlBasis (settings : Settings) (clock : Clock) (db : Db) (accountId : Nat) (cumulative : Cumulative)
    (maxLoss : ℚ) : String × Option Payload :=
  let state := db.accountStates.get accountId
  let currentEquity := state.map (·.equity)
  match observeModelADailyLoss db accountId currentEquity clock.sessionDate with
  | some modelA =>
    ("SESSION_OPEN_BROKER_EQUITY",
      some (provenance (some "SESSION_OPEN_BROKER_EQUITY") modelA.dailyPnl modelA.currentEquity maxLoss))
  | none =>
    if settings.sessionBaselineEnforcementEnabled then
      let basis := selectDailyLossBasis db accountId currentEquity (state.map (·.lastEquity)) (some cumulative)
        clock.sessionDate
      let source := basis.basisSource.map basisName
      (source.getD "cumulative_fallback", some (provenance source basis.dayChange currentEquity maxLoss))
    else (if state.any (0 < ·.lastEquity) then "equity_baseline" else "cumulative_fallback", none)

/-- The payload of a trip: the reading of `check` and `evaluate`, with the figures; `none` does not trip. -/
def tripPayload (settings : Settings) (clock : Clock) (db : Db) (accountId : Nat) (source : Option String) :
    Option Payload := do
  let account ← db.accounts.get accountId
  if account.circuitBreakerTrippedAt.isSome then none
  else do
    let maxLoss ← (getActiveLimits db account).bind (·.maxDailyLoss)
    let cumulative : Cumulative :=
      ⟨computeRealizedPnlToday db accountId clock.now, computeUnrealizedPnl db accountId⟩
    let (dailyPnl, modelA) := computeDailyPnl settings clock db accountId cumulative
    if modelA.any (·.status ≠ .available) then none
    else do
      let dailyPnl ← dailyPnl
      let (basis, provenance) := dailyPnlBasis settings clock db accountId cumulative maxLoss
      if dailyPnl ≤ -maxLoss then
        some ([("realized_pnl_today", .number (.finite cumulative.realized)),
          ("unrealized_pnl_now", .number (.finite cumulative.unrealized)),
          ("daily_pnl", .number (.finite dailyPnl)), ("daily_pnl_basis", .text basis),
          ("max_daily_loss", .number (.finite maxLoss))] ++
          (source.map fun source => ("source", Value.text source)).toList ++
          (provenance.map fun p => ("daily_loss_basis_provenance", Value.fields p)).toList)
      else none

/-- The row that `trip` audits; `haltedIds` are the strategies it halts. -/
def tripRow (haltedIds : List Nat) (payload : Payload) : AuditRow where
  action := .circuitBreakerTripped
  payload := [("reason", .text "daily_loss_exceeded"),
    ("halted_strategy_ids", .items (haltedIds.map fun i => .number (.finite i)))] ++ payload

/-- The row that `CircuitBreakerService.check` writes. -/
def checkRow (settings : Settings) (clock : Clock) (db : Db) (accountId : Nat) (haltedIds : List Nat) :
    Option AuditRow :=
  (tripPayload settings clock db accountId none).map (tripRow haltedIds)

/-- The row that `CircuitBreakerService.evaluate` writes. -/
def monitorRow (settings : Settings) (clock : Clock) (db : Db) (accountId : Nat) (haltedIds : List Nat) :
    Option AuditRow :=
  (tripPayload settings clock db accountId (some "monitor")).map (tripRow haltedIds)

lemma tripPayload_lookup {settings : Settings} {clock : Clock} {db : Db} {a : Nat} {source : Option String}
    {payload : Payload} (written : tripPayload settings clock db a source = some payload) :
    payload.lookup "net_pnl" = none := by
  simp only [tripPayload, bind_eq_bind, bind_eq_some_iff] at written
  obtain ⟨account, -, written⟩ := written
  split at written
  · cases written
  · obtain ⟨maxLoss, -, written⟩ := bind_eq_some_iff.1 written
    split at written
    · cases written
    · obtain ⟨pnl, -, written⟩ := bind_eq_some_iff.1 written
      split at written
      · cases written
        cases source <;> cases (dailyPnlBasis settings clock db a _ maxLoss).2 <;> rfl
      · cases written

/-! ## Rows and changes -/

/-- A row that a decider writes. -/
inductive Decided (qtyEps : ℚ) : AuditRow → Prop
  | check {settings : Settings} {clock : Clock} {db : Db} {a : Nat} {haltedIds : List Nat} {row : AuditRow}
      (written : checkRow settings clock db a haltedIds = some row) : Decided qtyEps row
  | monitor {settings : Settings} {clock : Clock} {db : Db} {a : Nat} {haltedIds : List Nat} {row : AuditRow}
      (written : monitorRow settings clock db a haltedIds = some row) : Decided qtyEps row
  | reconciliation {localQty : Dict String Decimal} {brokerQty : Option (Dict String Decimal)} {row : AuditRow}
      (written : row ∈ runReconciliation localQty brokerQty qtyEps) : Decided qtyEps row

def overwrite (k : String) (v : Value) (payload : Payload) : Payload :=
  payload.map fun e => if e.1 = k then (k, v) else e

/-- The two figures that decide a row: the P&L and the limit, or the two quantities. -/
def deciding : AuditAction → String × String
  | .circuitBreakerTripped => ("daily_pnl", "max_daily_loss")
  | .reconciliationDiscrepancy | .other _ => ("local", "broker")

def AuditRow.alter (row : AuditRow) (x y : Value) : AuditRow :=
  { row with payload := overwrite (deciding row.action).2 y (overwrite (deciding row.action).1 x row.payload) }

/-- The recorded decision follows from the figures `x` and `y`. -/
def Follows (qtyEps : ℚ) (row : AuditRow) (x y : Value) : Prop :=
  match row.action with
  | .circuitBreakerTripped => ∃ d m, dec x = some d ∧ dec y = some m ∧ d.le m.neg = some true
  | .reconciliationDiscrepancy | .other _ =>
    match x, y with
    | .null, .null => False
    | _, .null => isText (optional row.payload "kind") Kind.missingBroker.name = true
    | .null, _ => isText (optional row.payload "kind") Kind.missingLocal.name = true
    | x, y => ∃ l b kind, dec x = some l ∧ dec y = some b ∧ classify qtyEps (some l) (some b) = some (some kind) ∧
        isText (optional row.payload "kind") kind.name = true

/-- Two quantities that differ, of a row that records a mismatch of quantities. -/
def DifferentQuantities (row : AuditRow) (x y : Value) : Prop :=
  row.action = .reconciliationDiscrepancy ∧ isText (optional row.payload "kind") Kind.qtyMismatch.name = true ∧
    ∃ l b, dec x = some l ∧ dec y = some b ∧ l.eq b = false

/-! ## The verdicts -/

lemma lookup_overwrite {k k' : String} {v : Value} {payload : Payload} (ne : k' ≠ k) :
    (overwrite k v payload).lookup k' = payload.lookup k' := by
  induction payload with
  | nil => rfl
  | cons e payload ih =>
    have ih : List.lookup k' (payload.map fun e => if e.1 = k then (k, v) else e) = payload.lookup k' := ih
    rw [overwrite, map_cons, Dict.lookup_cons, Dict.lookup_cons, ih]
    split
    · rename_i same
      have other : k' ≠ e.1 := same ▸ ne
      rw [if_neg other]
    · rfl

lemma error_of_trip {haltedIds : List Nat} {payload : Payload} (absent : payload.lookup "net_pnl" = none) :
    (replayAuditRow (tripRow haltedIds payload)).verdict = .error ∧
      ∀ x y, (replayAuditRow ((tripRow haltedIds payload).alter x y)).verdict = .error := by
  have whole : (tripRow haltedIds payload).payload.lookup "net_pnl" = none := by
    rw [tripRow, cons_append, cons_append, nil_append, Dict.lookup_cons, Dict.lookup_cons, absent]
    rfl
  constructor
  · show ((breakerTripVerifier _).getD _).verdict = _
    rw [breakerTripVerifier_without_net whole]
    rfl
  · intro x y
    have altered : ((tripRow haltedIds payload).alter x y).payload.lookup "net_pnl" = none := by
      show (overwrite "max_daily_loss" y (overwrite "daily_pnl" x _)).lookup "net_pnl" = none
      rw [lookup_overwrite (by decide), lookup_overwrite (by decide), whole]
    show ((breakerTripVerifier _).getD _).verdict = _
    rw [breakerTripVerifier_without_net altered]
    rfl

lemma recomputeKind_of_classify {qtyEps : ℚ} (nonneg : 0 ≤ qtyEps) {l b : Option Decimal} {kind : Kind}
    (found : classify qtyEps l b = some (some kind)) : recomputeKind (ofQty l) (ofQty b) = some (some kind.name) := by
  cases l with
  | none =>
    cases b with
    | none => cases found
    | some b =>
      cases found
      rfl
  | some l =>
    cases b with
    | none =>
      cases found
      rfl
    | some b =>
      simp only [classify, bind_eq_bind, bind_eq_some_iff] at found
      obtain ⟨difference, sub, within, le, result⟩ := found
      have apart : within = false ∧ kind = .qtyMismatch := by
        cases within
        · cases result
          exact ⟨rfl, rfl⟩
        · cases result
      obtain ⟨rfl, rfl⟩ := apart
      have differ : l.eq b = false := by
        cases l with
        | nan => rfl
        | infinity n =>
          cases b with
          | infinity m =>
            -- infinities of one sign have no difference
            cases n <;> cases m <;> first | rfl | cases sub
          | finite _ | nan => rfl
        | finite q =>
          cases b with
          | finite r =>
            cases sub
            show decide (Decimal.finite q = .finite r) = false
            apply decide_eq_false
            intro same
            cases same
            simp [Decimal.abs, Decimal.le, add_neg_cancel] at le
            exact absurd nonneg (not_le.2 le)
          | infinity _ | nan => rfl
      show (some (if l.eq b then none else some "qty_mismatch")) = _
      rw [differ]
      rfl

section Discrepancies

variable {d : Discrepancy} {x y : Value}

lemma alter_domain : isText (optional (d.auditRow.alter x y).payload "domain") "position" = true := rfl

lemma alter_kind : optional (d.auditRow.alter x y).payload "kind" = .text d.kind.name := rfl

lemma alter_local : optional (d.auditRow.alter x y).payload "local" = x := rfl

lemma alter_broker : optional (d.auditRow.alter x y).payload "broker" = y := rfl

lemma matched_alter : (replayAuditRow (d.auditRow.alter x y)).verdict = .matched ↔
    recomputeKind x y = some (some d.kind.name) := by
  show ((reconciliationDiscrepancyVerifier _).getD _).verdict = _ ↔ _
  rw [reconciliationDiscrepancyVerifier_match alter_domain, alter_kind, alter_local, alter_broker]
  constructor
  · rintro ⟨kind, recomputed, same⟩
    cases kind with
    | none => cases same
    | some kind =>
      cases of_decide_eq_true same
      exact recomputed
  · intro recomputed
    exact ⟨_, recomputed, decide_eq_true rfl⟩

lemma matched_alter_iff {qtyEps : ℚ} (changed : ¬ Follows qtyEps d.auditRow x y) :
    (replayAuditRow (d.auditRow.alter x y)).verdict = .matched ↔ DifferentQuantities d.auditRow x y := by
  rw [matched_alter]
  constructor
  · intro recomputed
    -- beside a null the verifier looks at what the decision looks at
    have missing {k : Kind} (same : d.kind = k) : isText (optional d.auditRow.payload "kind") k.name = true :=
      decide_eq_true (congrArg Kind.name same)
    have both (notNull : ∀ v, v = x ∨ v = y → v ≠ .null) : DifferentQuantities d.auditRow x y := by
      have numbers : recomputeKind x y = (do
          let l ← dec x
          let b ← dec y
          return if l.eq b then none else some "qty_mismatch") := by
        cases x with
        | null => exact absurd rfl (notNull _ (.inl rfl))
        | _ =>
          cases y with
          | null => exact absurd rfl (notNull _ (.inr rfl))
          | _ => rfl
      rw [numbers] at recomputed
      simp only [bind_eq_bind, bind_eq_some_iff] at recomputed
      obtain ⟨l, readx, b, ready, kind⟩ := recomputed
      cases differ : l.eq b with
      | true =>
        rw [differ] at kind
        cases kind
      | false =>
        rw [differ] at kind
        have same : d.kind = .qtyMismatch := Kind.name_injective (some.inj (some.inj kind)).symm
        exact ⟨rfl, missing same, l, b, readx, ready, differ⟩
    cases x with
    | null =>
      cases y with
      | null => cases recomputed
      | _ =>
        have same : d.kind = .missingLocal := Kind.name_injective (some.inj (some.inj recomputed)).symm
        exact absurd (missing same) changed
    | _ =>
      cases y with
      | null =>
        have same : d.kind = .missingBroker := Kind.name_injective (some.inj (some.inj recomputed)).symm
        exact absurd (missing same) changed
      | _ => exact both (by rintro v (rfl | rfl) <;> simp)
  · rintro ⟨-, kind, l, b, readx, ready, differ⟩
    have same : d.kind.name = Kind.qtyMismatch.name := of_decide_eq_true kind
    cases x with
    | number =>
      cases y with
      | number =>
        cases readx
        cases ready
        rw [same]
        show some (if l.eq b then none else some "qty_mismatch") = _
        rw [differ]
        rfl
      | _ => cases ready
    | _ => cases readx

lemma alter_decided : (replayAuditRow (d.auditRow.alter x y)).verdict ≠ .skipped :=
  reconciliationDiscrepancyVerifier_decides alter_domain

end Discrepancies

/-- The replay confirms a row exactly when it is a discrepancy, and finds figures that no longer justify the decision,
but for two quantities of a mismatch within the epsilon and a NaN. -/
theorem replay_agrees_iff {qtyEps : ℚ} (nonneg : 0 ≤ qtyEps) {row : AuditRow} (decided : Decided qtyEps row) :
    ((replayAuditRow row).verdict = .matched ↔ row.action = .reconciliationDiscrepancy) ∧
      ∀ x y, ¬ Follows qtyEps row x y →
        ((replayAuditRow (row.alter x y)).verdict = .mismatch ∨ (replayAuditRow (row.alter x y)).verdict = .error ↔
          ¬ DifferentQuantities row x y) := by
  have trip {settings clock db a haltedIds source payload} (written : tripPayload settings clock db a source =
      some payload) :
      ((replayAuditRow (tripRow haltedIds payload)).verdict = .matched ↔
        (tripRow haltedIds payload).action = .reconciliationDiscrepancy) ∧
      ∀ x y, ¬ Follows qtyEps (tripRow haltedIds payload) x y →
        ((replayAuditRow ((tripRow haltedIds payload).alter x y)).verdict = .mismatch ∨
          (replayAuditRow ((tripRow haltedIds payload).alter x y)).verdict = .error ↔
            ¬ DifferentQuantities (tripRow haltedIds payload) x y) := by
    obtain ⟨error, altered⟩ := @error_of_trip haltedIds payload (tripPayload_lookup written)
    rw [error]
    refine ⟨by simp [tripRow], fun x y _ => ?_⟩
    rw [altered]
    simp [DifferentQuantities, tripRow]
  cases decided with
  | check written =>
    obtain ⟨payload, breached, rfl⟩ := map_eq_some_iff.1 written
    exact trip breached
  | monitor written =>
    obtain ⟨payload, breached, rfl⟩ := map_eq_some_iff.1 written
    exact trip breached
  | reconciliation written =>
    obtain ⟨d, rfl, found⟩ := mem_runReconciliation written
    constructor
    · refine ⟨fun _ => rfl, fun _ => ?_⟩
      have same : d.auditRow.alter (ofQty d.local) (ofQty d.broker) = d.auditRow := rfl
      rw [← same, matched_alter]
      exact recomputeKind_of_classify nonneg found
    · intro x y changed
      rw [← matched_alter_iff changed]
      have decides := @alter_decided d x y
      cases verdict : (replayAuditRow (d.auditRow.alter x y)).verdict with
      | skipped => exact absurd verdict decides
      | matched => simp
      | mismatch => simp
      | error => simp

/-! ## Rows of both kinds -/

def breachedDb : Db where
  accounts := Dict.empty.set 1 { userId := 1, mode := .paper }
  riskLimits := [{ userId := 1, scopeType := .global, brokerMode := .paper, maxDailyLoss := some 50 }]
  accountStates := Dict.empty.set 1 { equity := 900, lastEquity := 1000, dayChange := -100 }

/-- Ten shares locally, and `q` at the broker. -/
def tenShares (q : ℚ) : Discrepancy := ⟨.qtyMismatch, "AAPL", some (.finite 10), some (.finite q)⟩

lemma tenShares_decided : Decided 1 (tenShares 12).auditRow := by
  apply @Decided.reconciliation 1 (Dict.empty.set "AAPL" (.finite 10)) (some (Dict.empty.set "AAPL" (.finite 12)))
  have symbols : (["AAPL"] ++ ["AAPL"]).dedup.insertionSort (· ≤ ·) = ["AAPL"] := by decide
  have kind : classify 1 (some (.finite 10)) (some (.finite 12)) = some (some .qtyMismatch) := by decide +kernel
  have diff : diffPositions (Dict.empty.set "AAPL" (.finite 10)) (Dict.empty.set "AAPL" (.finite 12)) 1 =
      some [tenShares 12] := by
    show diffSymbols _ _ 1 ((["AAPL"] ++ ["AAPL"]).dedup.insertionSort (· ≤ ·)) = _
    rw [symbols, diffSymbols, Dict.get_set_self, Dict.get_set_self, kind]
    rfl
  rw [runReconciliation, diff]
  exact mem_singleton_self _

theorem tenShares_match : (replayAuditRow (tenShares 12).auditRow).verdict = .matched :=
  (replay_agrees_iff (by norm_num) tenShares_decided).1.2 rfl

/-- The trip of an account that is down by 100 is not confirmed, and a quantity mismatch still is after its
    quantities were changed to ones within the epsilon. -/
theorem trip_not_confirmed : (∃ row, checkRow {} ⟨0, none⟩ breachedDb 1 [] = some row ∧
      (replayAuditRow row).verdict = .error) ∧
    Decided 1 (tenShares 12).auditRow ∧ ¬ Follows 1 (tenShares 12).auditRow (.number (.finite 10))
      (.number (.finite 11)) ∧
      (replayAuditRow ((tenShares 12).auditRow.alter (.number (.finite 10)) (.number (.finite 11)))).verdict =
        .matched := by
  refine ⟨?_, tenShares_decided, ?_, ?_⟩
  · obtain ⟨row, written⟩ := isSome_iff_exists.1
      (show (checkRow {} ⟨0, none⟩ breachedDb 1 []).isSome = true by decide +kernel)
    refine ⟨row, written, ?_⟩
    obtain ⟨payload, breached, rfl⟩ := map_eq_some_iff.1 written
    exact (error_of_trip (tripPayload_lookup breached)).1
  · rintro ⟨l, b, kind, readl, readb, found, -⟩
    cases readl
    cases readb
    have within : classify 1 (some (.finite 10)) (some (.finite 11)) = some none := by decide +kernel
    rw [within] at found
    cases found
  · rw [matched_alter]
    have differ : (Decimal.finite 10).eq (.finite 11) = false := by decide +kernel
    show some (if (Decimal.finite 10).eq (.finite 11) then none else some "qty_mismatch") = _
    rw [differ]
    rfl

end Workbench.Services
