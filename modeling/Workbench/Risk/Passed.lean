import Workbench.Risk.Course

/-!
# What an evaluation leaves alone, and what a PASS says

`RiskEngine.evaluate` writes breaker flags, loss-control tables, the tables of the decision service
and its own risk check, and nothing else (`evaluate_untouched`). An order it passes has been let on by
every gate (`evaluate_passed`), so each gate's condition held of the database before the call.
-/

namespace Workbench.Risk
open Workbench.Lib Workbench.Brokers Workbench.Risk.LossControl Option

variable {env : Env} {db db' db'' : Db} {req : OrderRequest} {args : DecideArgs}
variable {ev : Evaluation} {tradingMode brokerMode : AccountMode} {ctx : Applicable}

/-- `db'` is `db` up to the tables an evaluation writes. -/
def Untouched (db db' : Db) : Prop :=
  ∃ accounts reservations capacity ledger checks rows events,
    db' = { db with
      accounts := accounts, reservations := reservations, capacity := capacity, ledger := ledger,
      riskChecks := checks, lossControl := rows, controlEvents := events }

lemma Untouched.refl : Untouched db db := ⟨_, _, _, _, _, _, _, rfl⟩

lemma Untouched.trans (h : Untouched db db') (h' : Untouched db' db'') : Untouched db db'' := by
  obtain ⟨_, _, _, _, _, _, _, rfl⟩ := h
  obtain ⟨_, _, _, _, _, _, _, rfl⟩ := h'
  exact ⟨_, _, _, _, _, _, _, rfl⟩

lemma Flagged.untouched (h : Flagged db db') : Untouched db db' := by
  obtain ⟨_, _, _, rfl⟩ := h
  exact ⟨_, _, _, _, _, _, _, rfl⟩

lemma permitsVerifiedReduction_untouched : Untouched ev.db (permitsVerifiedReduction env req args ev).1.db := by
  unfold permitsVerifiedReduction
  cases ev.cache.result with
  | some result => exact .refl
  | none =>
    cases env.registry with
    | none => exact .refl
    | some registry =>
      obtain ⟨_, _, _, e⟩ := @decideWrite_frame ev.db req.accountId
        (decisionSnapshot ev.db req.accountId (classifierRead env registry req.userId))
        (submission req) args env.clock.now
      exact ⟨_, _, _, _, _, _, _, e⟩

lemma dailyLossGate_untouched {limits : RiskLimits} : Untouched ev.db (dailyLossGate env req limits ev).1.db := by
  by_cases clear : dailyLossReading env ev.db req.accountId limits = .clear
  · rw [dailyLossGate_clear clear]
    exact .refl
  · obtain ⟨ev', args, reason, ⟨-, flagged, -⟩, ⟨e, -⟩ | ⟨e, -⟩⟩ := dailyLossGate_locked clear
    · rw [e]
      exact flagged.untouched
    · rw [e]
      exact flagged.untouched.trans permitsVerifiedReduction_untouched

lemma breakerGate_untouched : Untouched ev.db (breakerGate env req ev).1.db := by
  cases error : breakerError env ev.db req.accountId with
  | none =>
    rw [breakerGate_clear error]
    exact .refl
  | some error' =>
    obtain ⟨ev', args, reason, ⟨-, flagged, -⟩, ⟨e, -⟩ | ⟨e, -⟩⟩ := breakerGate_locked error
    · rw [e]
      exact flagged.untouched
    · rw [e]
      exact flagged.untouched.trans permitsVerifiedReduction_untouched

lemma runGates_untouched : Untouched ev.db (runGates env req brokerMode ctx ev).1.db := by
  unfold runGates
  cases orderGates env ev.db req ctx with
  | some reason => exact .refl
  | none =>
    have kept := @dailyLossGate_untouched env req ev ctx.limits
    dsimp only
    generalize dailyLossGate env req ctx.limits ev = r at kept ⊢
    obtain ⟨ev', gate⟩ := r
    cases gate with
    | stop => exact kept
    | refuse reason => exact kept
    | next =>
      dsimp only
      cases throttleGates env ev'.db req brokerMode ctx.limits with
      | some reason => exact kept
      | none => exact kept.trans breakerGate_untouched

lemma conclude_untouched {gate : Gate} : Untouched ev.db (conclude env req ctx ev gate).1 := by
  have persisted {legacy : Legacy} {d : Db} : Untouched d (persistAndReturn d legacy).1 :=
    ⟨_, _, _, _, _, _, _, rfl⟩
  have consulted_ : Untouched ev.db (consulted env req ev).db := by
    unfold consulted
    split
    · exact permitsVerifiedReduction_untouched
    · exact .refl
  cases gate with
  | stop => exact persisted
  | refuse reason =>
    rw [conclude, finalizeWithLossControl_eq]
    exact consulted_.trans persisted
  | next =>
    rw [conclude, finalizeWithLossControl_eq]
    exact consulted_.trans persisted

lemma evaluate_untouched : Untouched db (evaluate env db req tradingMode brokerMode).1 := by
  unfold evaluate
  cases preprocess env db req tradingMode brokerMode with
  | error reason => exact ⟨_, _, _, _, _, _, _, rfl⟩
  | ok ctx => exact (@runGates_untouched env req ⟨db, {}⟩ brokerMode ctx).trans conclude_untouched

lemma preprocess_ok (e : preprocess env db req tradingMode brokerMode = .ok ctx) :
    malformed req = false ∧ (db.symbols.findIdx? fun s => s.ticker = req.symbolTicker ∧ s.active) = some ctx.symbolId ∧
      loadGlobalLimits db req.userId brokerMode = some ctx.limits := by
  unfold preprocess at e
  split at e
  · cases e
  · split at e
    · cases e
    · split at e
      · cases e
      · rename_i formed
        split at e
        · cases e
        · split at e
          · cases e
          · rename_i symbolId found
            split at e
            · cases e
            · rename_i limits loaded
              cases e
              exact ⟨by simpa using formed, found, loaded⟩

/-- An order that passes went through preprocessing and every gate, and its outcome carries the symbol
    and the notional of the request. -/
lemma evaluate_passed (passed : (evaluate env db req tradingMode brokerMode).2.passed = true) :
    ∃ ctx, preprocess env db req tradingMode brokerMode = .ok ctx ∧
      (runGates env req brokerMode ctx ⟨db, {}⟩).2 = .next ∧
      (evaluate env db req tradingMode brokerMode).2.resolvedSymbolId = some ctx.symbolId ∧
      (evaluate env db req tradingMode brokerMode).2.estimatedNotional = estimateNotional env req := by
  unfold evaluate at passed ⊢
  cases pre : preprocess env db req tradingMode brokerMode with
  | error reason =>
    rw [pre] at passed
    cases passed
  | ok ctx =>
    rw [pre] at passed
    dsimp only at passed ⊢
    have next : (runGates env req brokerMode ctx ⟨db, {}⟩).2 = .next := by
      by_contra ne
      rw [conclude_not_next ne] at passed
      cases passed
    refine ⟨ctx, rfl, next, ?_⟩
    rw [next, conclude, finalizeWithLossControl_eq]
    split <;> exact ⟨rfl, rfl⟩

lemma orderGates_of_next (next : (runGates env req brokerMode ctx ev).2 = .next) :
    orderGates env ev.db req ctx = none := by
  unfold runGates at next
  cases gates : orderGates env ev.db req ctx with
  | none => rfl
  | some reason =>
    rw [gates] at next
    cases next

lemma projectedGross_le (gates : orderGates env db req ctx = none) (buy : req.side = .buy) {cap : ℚ}
    (capped : ctx.limits.maxGrossExposure = some cap) : projectedGross env db req ≤ cap := by
  have gross : grossGate env db req ctx = none := by
    unfold orderGates at gates
    rw [or_eq_none_iff, or_eq_none_iff, or_eq_none_iff] at gates
    exact gates.2.2.2
  simpa [grossGate, buy, capped] using gross

end Workbench.Risk
