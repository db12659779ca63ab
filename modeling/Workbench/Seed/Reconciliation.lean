import Workbench.Lib.Dict
import Workbench.Db.Enums
import Mathlib.Data.List.Sort

/-!
# Seed reconciliation

Model of `app/strategies/seed_reconciliation.py` and of the typed part of `deployment_state.py`: the
lifecycle of a cold-start deployment. `reconcileSeedAttempt` decides the next state of an attempt from the
fills, open orders and positions it is given; it mutates nothing, and the caller applies the result.

A cursor is a pair of a fill's timestamp and id, in lexicographic order.
-/

set_option linter.dupNamespace false

namespace Workbench.Seed
open Workbench.Lib List

/-- Python `DeploymentState`. -/
inductive DeploymentState where
  | neverDeployed
  | deploymentPending
  | deployed
  | intentionallyFlat
  deriving DecidableEq, Repr

/-- Python `SeedAttemptStatus`. -/
inductive SeedAttemptStatus where
  | prepared
  | submitting
  | ordersOpen
  | partiallyFilled
  | filled
  | terminallyUnfilled
  | reconciliationRequired
  deriving DecidableEq, Repr

/-- Python `_TERMINAL_ATTEMPT`. -/
def SeedAttemptStatus.terminal : SeedAttemptStatus → Bool
  | .filled | .terminallyUnfilled => true
  | _ => false

abbrev Cursor := Instant ×ₗ Nat

/-- Python `FillEvent`, the columns the reconciliation reads. -/
structure FillEvent where
  fillId : Nat
  orderId : Nat
  symbol : String
  qty : ℚ
  filledAt : Instant
  clientOrderId : Option String
  deriving DecidableEq

/-- `(f.filled_at, f.fill_id)`. -/
def FillEvent.cursor (f : FillEvent) : Cursor := toLex (f.filledAt, f.fillId)

/-- Python `OpenOrderObs`. -/
structure OpenOrderObs where
  orderId : Nat
  symbol : String
  clientOrderId : Option String
  deriving DecidableEq

/-- Python `SeedAttempt`. -/
structure SeedAttempt where
  attemptId : String
  createdAt : Instant
  intendedSymbols : List String
  clientOrderIdPrefix : String
  submittedOrderIds : List Nat := []
  status : SeedAttemptStatus := .prepared
  lastReconciledFillAt : Option Instant := none
  lastReconciledFillId : Option Nat := none
  deriving DecidableEq

abbrev Positions := Dict String ℚ

/-- The alerts of a reconciliation. -/
inductive Alert where
  | unattributedPositionDuringSeed
  | fillWithoutExposure
  deriving DecidableEq, Repr

/-- Python `ReconciliationResult`. -/
structure ReconciliationResult where
  deploymentState : DeploymentState
  seedAttemptStatus : SeedAttemptStatus
  qualifyingFillIds : List Nat := []
  firstDeployedAt : Option Instant := none
  observedCursor : Option Cursor := none
  committedCursor : Option Cursor := none
  unresolvedFillIds : List Nat := []
  alerts : List Alert := []
  shouldClearAttempt : Bool := false

def tagged (tag : String) (clientOrderId : Option String) : Bool :=
  tag.toList.isPrefixOf (clientOrderId.getD "").toList

/-- Python `_is_attributable`. -/
def isAttributable (fill : FillEvent) (attempt : SeedAttempt) : Bool :=
  attempt.submittedOrderIds.contains fill.orderId ||
    (attempt.clientOrderIdPrefix ≠ "" && tagged attempt.clientOrderIdPrefix fill.clientOrderId)

/-- Python `_prior_cursor`. -/
def priorCursor (attempt : SeedAttempt) : Option Cursor :=
  attempt.lastReconciledFillAt.map fun at_ => toLex (at_, attempt.lastReconciledFillId.getD 0)

/-- Python `_watermark`. -/
def watermark (fills unresolved : List FillEvent) (prior : Option Cursor) : Option Cursor × List Nat :=
  match (unresolved.map (·.cursor)).min? with
  | none => ((fills.map (·.cursor)).max?.or prior, [])
  | some earliest =>
    ((((fills.map (·.cursor)).filter (· < earliest)).max?).or prior,
      (unresolved.map (·.fillId)).insertionSort (· ≤ ·))

/-- The first loop of `reconcile_seed_attempt`: the first row of each fill id. -/
def dedupFills (fills : List FillEvent) : List FillEvent :=
  fills.foldl (fun deduped f => if deduped.any (·.fillId = f.fillId) then deduped else deduped ++ [f]) []

/-- `{s.upper(): q for s, q in positions.items()}`. -/
def upperPositions (positions : Positions) : Positions :=
  positions.entries.foldl (fun pos e => pos.set (upper e.1) e.2) .empty

def qualifying (attempt : SeedAttempt) (fills : List FillEvent) : List FillEvent :=
  fills.filter fun f => 0 < f.qty && isAttributable f attempt

/-- The positions in symbols that none of the given fills explains. -/
def unattributed (pos : Positions) (qfills : List FillEvent) : List String :=
  (pos.entries.filter fun e => 0 < e.2 && !(qfills.map (upper ·.symbol)).contains e.1).map (·.1)

/-- Python `reconcile_seed_attempt`. -/
def reconcileSeedAttempt (attempt : SeedAttempt) (fills : List FillEvent) (openOrders : List OpenOrderObs)
    (positions : Positions) : ReconciliationResult :=
  let fills := dedupFills fills
  let pos := upperPositions positions
  let qfills := qualifying attempt fills
  let hasOpen := !openOrders.isEmpty
  let unexposed := qfills.filter fun f => (pos.get (upper f.symbol)).getD 0 ≤ 0
  let unattributed := unattributed pos qfills
  let observed := (fills.map (·.cursor)).max?.or (priorCursor attempt)
  if !qfills.isEmpty then
    let (committed, unresolvedIds) := watermark fills unexposed (priorCursor attempt)
    let cleanDone := !hasOpen && unexposed.isEmpty
    { deploymentState := .deployed
      seedAttemptStatus := if cleanDone then .filled else .partiallyFilled
      qualifyingFillIds := (qfills.map (·.fillId)).insertionSort (· ≤ ·)
      firstDeployedAt := (qfills.map (·.filledAt)).min?
      observedCursor := observed
      committedCursor := committed
      unresolvedFillIds := unresolvedIds
      alerts := (if unattributed.isEmpty then [] else [.unattributedPositionDuringSeed]) ++
        if unexposed.isEmpty then [] else [.fillWithoutExposure]
      shouldClearAttempt := cleanDone }
  else if !unattributed.isEmpty then
    -- a position without a fill that explains it: block, and leave the cursor
    { deploymentState := .deploymentPending
      seedAttemptStatus := .reconciliationRequired
      observedCursor := observed
      committedCursor := priorCursor attempt
      alerts := [.unattributedPositionDuringSeed] }
  else if hasOpen then
    { deploymentState := .deploymentPending
      seedAttemptStatus := .ordersOpen
      observedCursor := observed
      committedCursor := observed }
  else
    { deploymentState := .neverDeployed
      seedAttemptStatus := .terminallyUnfilled
      observedCursor := observed
      committedCursor := observed
      shouldClearAttempt := true }

/-! ## The deployment blob -/

/-- The archived attempt (`last_seed_attempt`); only the archive of `_submit_seed` has a number. -/
structure ArchivedAttempt where
  attempt : SeedAttempt
  attemptNumber : Option Nat := none
  previousAttemptId : Option String := none
  deriving DecidableEq

/-- Python `DeploymentBlob`. -/
structure DeploymentBlob where
  rev : Int
  state : DeploymentState
  hasEverDeployed : Bool
  firstDeployedAt : Option Instant := none
  activeSeedAttempt : Option SeedAttempt := none
  lastSeedAttempt : Option ArchivedAttempt := none
  deriving DecidableEq

/-- The attempt that `_reconcile_active_seed_attempt` works on. -/
def DeploymentBlob.openAttempt (dep : DeploymentBlob) : Option SeedAttempt :=
  dep.activeSeedAttempt.filter fun attempt => !attempt.status.terminal

/-- The blob that `_reconcile_active_seed_attempt` writes for a result. -/
def DeploymentBlob.reconciled (dep : DeploymentBlob) (attempt : SeedAttempt) (result : ReconciliationResult) :
    DeploymentBlob :=
  let newAttempt := { attempt with
    status := result.seedAttemptStatus
    lastReconciledFillAt := (result.committedCursor.map (·.1)).or attempt.lastReconciledFillAt
    lastReconciledFillId := (result.committedCursor.map (·.2)).or attempt.lastReconciledFillId }
  { rev := dep.rev + 1
    state := result.deploymentState
    hasEverDeployed := dep.hasEverDeployed || result.deploymentState = .deployed
    firstDeployedAt := dep.firstDeployedAt.or result.firstDeployedAt
    activeSeedAttempt := if result.shouldClearAttempt then none else some newAttempt
    lastSeedAttempt := if result.shouldClearAttempt then some { attempt := newAttempt } else dep.lastSeedAttempt }

/-! ## What the context reads -/

/-- SQLite's `LIKE` of a tag without wildcards, which ignores the case of ASCII letters. -/
def likeTag (tag : String) (clientOrderId : Option String) : Bool :=
  clientOrderId.any fun coid => (tag.toList.map Char.toLower).isPrefixOf (coid.toList.map Char.toLower)

/-- The cursor of `recent_fills`: strictly after both parts of it, or from its first part on. -/
def pastCursor (since : Option Instant) (afterFillId : Option Nat) (f : FillEvent) : Bool :=
  match since, afterFillId with
  | some since, some after => since < f.filledAt || (f.filledAt = since && after < f.fillId)
  | some since, none => since ≤ f.filledAt
  | none, _ => true

/-- Python `recent_fills`, on the fills of the strategy's own orders. -/
def recentFills (fills : List FillEvent) (since : Option Instant) (afterFillId : Option Nat) (tag : Option String) :
    List FillEvent :=
  (fills.filter fun f => pastCursor since afterFillId f && tag.all (likeTag · f.clientOrderId)).insertionSort
    fun a b => a.cursor ≤ b.cursor

/-- Whether a fill is past the cursor of an attempt. -/
def SeedAttempt.reads (attempt : SeedAttempt) (f : FillEvent) : Bool :=
  pastCursor (some (attempt.lastReconciledFillAt.getD attempt.createdAt)) attempt.lastReconciledFillId f

/-- The fills `_reconcile_active_seed_attempt` reads for an attempt. -/
def attemptFills (fills : List FillEvent) (attempt : SeedAttempt) : List FillEvent :=
  recentFills fills (some (attempt.lastReconciledFillAt.getD attempt.createdAt)) attempt.lastReconciledFillId
    (some attempt.clientOrderIdPrefix)

def attemptOrders (orders : List OpenOrderObs) (attempt : SeedAttempt) : List OpenOrderObs :=
  orders.filter fun o => likeTag attempt.clientOrderIdPrefix o.clientOrderId

/-! ## What a reconciliation depends on -/

section Depends
variable {attempt : SeedAttempt} {fills fills' : List FillEvent} (openOrders : List OpenOrderObs)
  (positions : Positions)

lemma dedupFills_eq_self (nodup : (fills.map (·.fillId)).Nodup) : dedupFills fills = fills := by
  unfold dedupFills
  have loop (kept : List FillEvent) (rest : List FillEvent) (nodup : ((kept ++ rest).map (·.fillId)).Nodup) :
      rest.foldl (fun deduped f => if deduped.any (·.fillId = f.fillId) then deduped else deduped ++ [f]) kept =
        kept ++ rest := by
    induction rest generalizing kept with
    | nil => rw [foldl_nil, append_nil]
    | cons f rest ih =>
      have fresh : kept.any (·.fillId = f.fillId) = false := by
        rw [any_eq_false]
        intro g mem same
        rw [map_append, map_cons, nodup_append] at nodup
        exact nodup.2.2 _ (mem_map_of_mem mem) f.fillId mem_cons_self (of_decide_eq_true same)
      rw [foldl_cons, fresh, if_neg Bool.false_ne_true, ih]
      · rw [append_assoc, singleton_append]
      · rwa [append_assoc, singleton_append]
  exact loop [] fills nodup

lemma min?_congr {as bs : List Instant} (same : ∀ a, a ∈ as ↔ a ∈ bs) : as.min? = bs.min? := by
  cases eq : as.min? with
  | none =>
    rw [min?_eq_none_iff] at eq
    have none : bs = [] := by
      rw [eq_nil_iff_forall_not_mem]
      intro a mem
      rw [← same, eq] at mem
      cases mem
    rw [none]
    rfl
  | some a =>
    rw [min?_eq_some_iff] at eq
    exact (min?_eq_some_iff.2 ⟨(same a).1 eq.1, fun b mem => eq.2 b ((same b).2 mem)⟩).symm

lemma reconcile_of_qualifying (some : qualifying attempt (dedupFills fills) ≠ []) :
    (reconcileSeedAttempt attempt fills openOrders positions).deploymentState = .deployed ∧
    (reconcileSeedAttempt attempt fills openOrders positions).firstDeployedAt =
      ((qualifying attempt (dedupFills fills)).map (·.filledAt)).min? ∧
    (reconcileSeedAttempt attempt fills openOrders positions).seedAttemptStatus ≠ .reconciliationRequired := by
  have nonempty : (!(qualifying attempt (dedupFills fills)).isEmpty) = true := by simpa using some
  simp only [reconcileSeedAttempt, nonempty, if_true]
  refine ⟨trivial, trivial, ?_⟩
  split_ifs <;> simp

lemma reconcile_of_nil (none : qualifying attempt (dedupFills fills) = []) :
    (reconcileSeedAttempt attempt fills openOrders positions).deploymentState =
      (if !(unattributed (upperPositions positions) []).isEmpty || !openOrders.isEmpty then .deploymentPending
        else .neverDeployed) ∧
    (reconcileSeedAttempt attempt fills openOrders positions).firstDeployedAt = Option.none := by
  simp only [reconcileSeedAttempt, none, isEmpty_nil, Bool.not_true, Bool.false_eq_true, if_false]
  split_ifs <;> simp_all

lemma reconcile_congr
    (same : ∀ f, f ∈ qualifying attempt (dedupFills fills) ↔ f ∈ qualifying attempt (dedupFills fills')) :
    (reconcileSeedAttempt attempt fills openOrders positions).deploymentState =
      (reconcileSeedAttempt attempt fills' openOrders positions).deploymentState ∧
    (reconcileSeedAttempt attempt fills openOrders positions).firstDeployedAt =
      (reconcileSeedAttempt attempt fills' openOrders positions).firstDeployedAt := by
  by_cases none : qualifying attempt (dedupFills fills) = []
  · have none' : qualifying attempt (dedupFills fills') = [] := by
      rw [eq_nil_iff_forall_not_mem] at none ⊢
      exact fun f mem => none f ((same f).2 mem)
    obtain ⟨state, first⟩ := reconcile_of_nil openOrders positions none
    obtain ⟨state', first'⟩ := reconcile_of_nil openOrders positions none'
    exact ⟨state.trans state'.symm, first.trans first'.symm⟩
  · have some' : qualifying attempt (dedupFills fills') ≠ [] := by
      obtain ⟨f, mem⟩ := exists_mem_of_ne_nil _ none
      exact ne_nil_of_mem ((same f).1 mem)
    obtain ⟨state, first, -⟩ := reconcile_of_qualifying openOrders positions none
    obtain ⟨state', first', -⟩ := reconcile_of_qualifying openOrders positions some'
    refine ⟨state.trans state'.symm, ?_⟩
    rw [first, first']
    apply min?_congr
    intro t
    simp only [mem_map, same]

end Depends

end Workbench.Seed
