import Workbench.Seed.Reconciliation
import Workbench.Lib.Machine

/-!
# Incremental reconciliation of a seed attempt

The history of one seed attempt, cut into ticks: fills are booked, orders open and close, positions move, and
each tick of `on_bar` reconciles the attempt (`_reconcile_active_seed_attempt` of
`strategies_user/templates/momentum_daily.py`) on the fills past the attempt's cursor and moves the cursor.

`Faithful` says what the reconciliation is for: a tick persists what one call on the whole history gives, and a
deployment stays one. It holds of a tick when the fills of the attempt are all still past the cursor. A tick
that has moved the cursor past a fill while orders are open forgets it: the position it explains is
unattributed at the next tick, which takes the deployment back and blocks.
-/

set_option linter.dupNamespace false

namespace Workbench.Seed
open Workbench.Lib List Option

/-- The rows of the strategy and its deployment blob. -/
structure History where
  fills : List FillEvent := []
  openOrders : List OpenOrderObs := []
  positions : Positions := .empty
  blob : DeploymentBlob

/-- What happens: a fill is booked (its id is the next one), the open orders change, the positions change, a
    tick. -/
inductive Event where
  | fill (orderId : Nat) (symbol : String) (qty : ℚ) (filledAt : Instant) (clientOrderId : Option String)
  | orders (openOrders : List OpenOrderObs)
  | positions (positions : Positions)
  | tick

/-- The result of a reconciliation on what the context reads. -/
def History.result (h : History) (attempt : SeedAttempt) : ReconciliationResult :=
  reconcileSeedAttempt attempt (attemptFills h.fills attempt) (attemptOrders h.openOrders attempt) h.positions

/-- The result of one call on the whole history of fills. -/
def History.oneShot (h : History) (attempt : SeedAttempt) : ReconciliationResult :=
  reconcileSeedAttempt attempt h.fills (attemptOrders h.openOrders attempt) h.positions

/-- Python `_reconcile_active_seed_attempt`; the only writer finds the revision it read. -/
def History.tick (h : History) : History :=
  match h.blob.openAttempt with
  | none => h
  | some attempt => { h with blob := h.blob.reconciled attempt (h.result attempt) }

def History.step (h : History) : Event → Option History
  | .fill orderId symbol qty filledAt clientOrderId =>
    some { h with fills := h.fills ++ [⟨h.fills.length, orderId, symbol, qty, filledAt, clientOrderId⟩] }
  | .orders openOrders => some { h with openOrders }
  | .positions positions => some { h with positions }
  | .tick => some h.tick

def histories : Machine History Event := ⟨History.step⟩

/-- An attempt as `_maybe_initial_seed` and `_submit_seed` write it: with no cursor and no order ids. -/
def SeedAttempt.written (attemptId : String) (createdAt : Instant) (symbols : List String) (tag : String)
    (status : SeedAttemptStatus) : SeedAttempt where
  attemptId := attemptId
  createdAt := createdAt
  intendedSymbols := symbols
  clientOrderIdPrefix := tag
  status := status

/-- The history of an attempt begins with the blob that says it is pending. -/
def History.begun (rev : Int) (attempt : SeedAttempt) (last : Option ArchivedAttempt) : History where
  blob := { rev, state := .deploymentPending, hasEverDeployed := false, activeSeedAttempt := some attempt,
            lastSeedAttempt := last }

/-- A tick persists the state and the first deployment of one call on the whole history; a deployment stays
    one, and nothing is blocked. -/
def Faithful (h : History) : Event → Prop
  | .tick => ∀ attempt, h.blob.openAttempt = some attempt →
      h.tick.blob.state = (h.oneShot attempt).deploymentState ∧
      h.tick.blob.firstDeployedAt = (h.oneShot attempt).firstDeployedAt ∧
      (h.blob.state = .deployed → h.tick.blob.state = .deployed ∧
        (h.result attempt).seedAttemptStatus ≠ .reconciliationRequired)
  | _ => True

/-- At a tick the attempt's qualifying fills are all past its cursor, and none is dated before the first
    deployment that is on record. -/
def Unforgotten (h : History) : Event → Prop
  | .tick => ∀ attempt, h.blob.openAttempt = some attempt → ∀ f ∈ qualifying attempt h.fills,
      attempt.reads f = true ∧ ∀ first, h.blob.firstDeployedAt = some first → first ≤ f.filledAt
  | _ => True

/-! ## What a tick reads -/

section Reads
variable {attempt attempt' : SeedAttempt} {fills : List FillEvent} {f : FillEvent}

lemma likeTag_of_tagged {tag : String} {clientOrderId : Option String} (nonempty : tag ≠ "")
    (h : tagged tag clientOrderId = true) : likeTag tag clientOrderId = true := by
  unfold tagged at h
  rw [List.isPrefixOf_iff_prefix] at h
  cases clientOrderId with
  | none =>
    have empty : tag.toList = [] := prefix_nil.1 h
    exact absurd (String.toList_inj.1 empty) nonempty
  | some coid =>
    unfold likeTag
    rw [any_some, List.isPrefixOf_iff_prefix]
    exact h.map _

lemma mem_attemptFills :
    f ∈ attemptFills fills attempt ↔
      f ∈ fills ∧ attempt.reads f = true ∧ likeTag attempt.clientOrderIdPrefix f.clientOrderId = true := by
  unfold attemptFills recentFills SeedAttempt.reads
  rw [mem_insertionSort, mem_filter, Bool.and_eq_true]
  rfl

lemma isAttributable_iff (ids : attempt.submittedOrderIds = []) :
    isAttributable f attempt = true ↔
      attempt.clientOrderIdPrefix ≠ "" ∧ tagged attempt.clientOrderIdPrefix f.clientOrderId = true := by
  simp [isAttributable, ids]

lemma mem_qualifying : f ∈ qualifying attempt fills ↔ f ∈ fills ∧ 0 < f.qty ∧ isAttributable f attempt = true := by
  unfold qualifying
  rw [mem_filter, Bool.and_eq_true, decide_eq_true_eq]

lemma qualifying_congr (ids : attempt.submittedOrderIds = []) (ids' : attempt'.submittedOrderIds = [])
    (tag : attempt.clientOrderIdPrefix = attempt'.clientOrderIdPrefix) :
    qualifying attempt fills = qualifying attempt' fills := by
  unfold qualifying isAttributable
  rw [ids, ids', tag]

lemma mem_qualifying_attemptFills (ids : attempt.submittedOrderIds = []) (nodup : (fills.map (·.fillId)).Nodup)
    (unforgotten : ∀ f ∈ qualifying attempt fills, attempt.reads f = true) (f : FillEvent) :
    f ∈ qualifying attempt (dedupFills (attemptFills fills attempt)) ↔ f ∈ qualifying attempt (dedupFills fills) := by
  have sorted : ((attemptFills fills attempt).map (·.fillId)).Nodup := by
    unfold attemptFills recentFills
    rw [((perm_insertionSort _ _).map _).nodup_iff]
    exact nodup.sublist (filter_sublist.map _)
  rw [dedupFills_eq_self sorted, dedupFills_eq_self nodup, mem_qualifying, mem_qualifying, mem_attemptFills]
  constructor
  · rintro ⟨⟨mem, -, -⟩, ok⟩
    exact ⟨mem, ok⟩
  · rintro ⟨mem, ok⟩
    obtain ⟨nonempty, tagged⟩ := (isAttributable_iff ids).1 ok.2
    exact ⟨⟨mem, unforgotten f (mem_qualifying.2 ⟨mem, ok⟩), likeTag_of_tagged nonempty tagged⟩, ok⟩

end Reads

/-! ## Runs -/

/-- What every history keeps: the blob speaks of fills of the attempt. -/
structure Grounded (attempt₀ : SeedAttempt) (h : History) : Prop where
  ids : (h.fills.map (·.fillId)) = List.range h.fills.length
  attempt : ∀ attempt, h.blob.activeSeedAttempt = some attempt →
    attempt.clientOrderIdPrefix = attempt₀.clientOrderIdPrefix ∧ attempt.submittedOrderIds = []
  first : ∀ t, h.blob.firstDeployedAt = some t → ∃ f ∈ qualifying attempt₀ h.fills, f.filledAt = t
  deployed : h.blob.state = .deployed → qualifying attempt₀ h.fills ≠ []

section Runs
variable {attempt₀ attempt : SeedAttempt} {h h' : History} {e : Event}

lemma active_of_openAttempt {dep : DeploymentBlob} (active : dep.openAttempt = some attempt) :
    dep.activeSeedAttempt = some attempt := by
  unfold DeploymentBlob.openAttempt at active
  rw [filter_eq_some_iff] at active
  exact active.1

namespace Grounded

lemma nodup (grounded : Grounded attempt₀ h) : (h.fills.map (·.fillId)).Nodup := by
  rw [grounded.ids]
  exact nodup_range

lemma qualifying_eq (grounded : Grounded attempt₀ h) (ids : attempt₀.submittedOrderIds = [])
    (active : h.blob.openAttempt = some attempt) (fills : List FillEvent) :
    qualifying attempt fills = qualifying attempt₀ fills := by
  obtain ⟨tag, none⟩ := grounded.attempt attempt (active_of_openAttempt active)
  exact qualifying_congr none ids tag

lemma mem_of_read (grounded : Grounded attempt₀ h) (ids : attempt₀.submittedOrderIds = [])
    (active : h.blob.openAttempt = some attempt) {f : FillEvent}
    (mem : f ∈ qualifying attempt (dedupFills (attemptFills h.fills attempt))) : f ∈ qualifying attempt₀ h.fills := by
  have nodup : ((attemptFills h.fills attempt).map (·.fillId)).Nodup := by
    unfold attemptFills recentFills
    rw [((perm_insertionSort _ _).map _).nodup_iff]
    exact grounded.nodup.sublist (filter_sublist.map _)
  rw [dedupFills_eq_self nodup, mem_qualifying, mem_attemptFills] at mem
  rw [← grounded.qualifying_eq ids active, mem_qualifying]
  exact ⟨mem.1.1, mem.2⟩

lemma tick (grounded : Grounded attempt₀ h) (ids : attempt₀.submittedOrderIds = []) : Grounded attempt₀ h.tick := by
  unfold History.tick
  cases active : h.blob.openAttempt with
  | none => exact grounded
  | some attempt =>
    have read {f : FillEvent} := grounded.mem_of_read ids active (f := f)
    refine ⟨grounded.ids, ?_, ?_, ?_⟩
    · intro attempt' active'
      simp only [DeploymentBlob.reconciled] at active'
      split at active'
      · cases active'
      · cases active'
        exact grounded.attempt attempt (active_of_openAttempt active)
    · intro t first
      simp only [DeploymentBlob.reconciled, or_eq_some_iff] at first
      rcases first with old | ⟨-, new⟩
      · exact grounded.first t old
      · by_cases none : qualifying attempt (dedupFills (attemptFills h.fills attempt)) = []
        · rw [History.result, (reconcile_of_nil _ _ none).2] at new
          cases new
        · rw [History.result, (reconcile_of_qualifying _ _ none).2.1, min?_eq_some_iff] at new
          obtain ⟨f, mem, eq⟩ := mem_map.1 new.1
          exact ⟨f, read mem, eq⟩
    · intro deployed
      by_cases none : qualifying attempt (dedupFills (attemptFills h.fills attempt)) = []
      · have state : (h.result attempt).deploymentState = .deployed := deployed
        rw [History.result, (reconcile_of_nil _ _ none).1] at state
        split at state <;> cases state
      · obtain ⟨f, mem⟩ := exists_mem_of_ne_nil _ none
        exact ne_nil_of_mem (read mem)

lemma step (grounded : Grounded attempt₀ h) (ids : attempt₀.submittedOrderIds = []) (st : h.step e = some h') :
    Grounded attempt₀ h' := by
  cases e with
  | fill orderId symbol qty filledAt clientOrderId =>
    cases st
    refine ⟨?_, grounded.attempt, ?_, ?_⟩
    · simp [grounded.ids, range_succ]
    · intro t first
      obtain ⟨f, mem, eq⟩ := grounded.first t first
      refine ⟨f, ?_, eq⟩
      rw [mem_qualifying] at mem ⊢
      exact ⟨mem_append_left _ mem.1, mem.2⟩
    · intro deployed
      obtain ⟨f, mem⟩ := exists_mem_of_ne_nil _ (grounded.deployed deployed)
      rw [mem_qualifying] at mem
      exact ne_nil_of_mem (mem_qualifying.2 ⟨mem_append_left _ mem.1, mem.2⟩)
  | orders openOrders =>
    cases st
    exact ⟨grounded.ids, grounded.attempt, grounded.first, grounded.deployed⟩
  | positions positions =>
    cases st
    exact ⟨grounded.ids, grounded.attempt, grounded.first, grounded.deployed⟩
  | tick =>
    cases st
    exact grounded.tick ids

lemma faithful (grounded : Grounded attempt₀ h) (ids : attempt₀.submittedOrderIds = [])
    (unforgotten : Unforgotten h e) : Faithful h e := by
  cases e with
  | fill | orders | positions => trivial
  | tick =>
    intro attempt active
    obtain ⟨-, none⟩ := grounded.attempt attempt (active_of_openAttempt active)
    have same := mem_qualifying_attemptFills none grounded.nodup fun f mem => (unforgotten attempt active f mem).1
    obtain ⟨state, first⟩ := reconcile_congr (attemptOrders h.openOrders attempt) h.positions same
    have whole := dedupFills_eq_self grounded.nodup
    have ticked : h.tick.blob = h.blob.reconciled attempt (h.result attempt) := by
      unfold History.tick
      rw [active]
    rw [ticked]
    refine ⟨state, ?_, ?_⟩
    · show h.blob.firstDeployedAt.or (h.result attempt).firstDeployedAt = _
      cases recorded : h.blob.firstDeployedAt with
      | none => exact first
      | some t =>
        -- the recorded fill still qualifies, and no other is dated before it
        obtain ⟨f, mem, eq⟩ := grounded.first t recorded
        rw [← grounded.qualifying_eq ids active] at mem
        have some : qualifying attempt (dedupFills h.fills) ≠ [] := by
          rw [whole]
          exact ne_nil_of_mem mem
        rw [some_or, History.oneShot, (reconcile_of_qualifying _ _ some).2.1, whole, eq_comm,
          min?_eq_some_iff]
        refine ⟨mem_map.2 ⟨f, mem, eq⟩, ?_⟩
        intro t' mem'
        obtain ⟨g, memg, rfl⟩ := mem_map.1 mem'
        exact (unforgotten attempt active g memg).2 t recorded
    · intro deployed
      have some := grounded.deployed deployed
      rw [← grounded.qualifying_eq ids active] at some
      obtain ⟨f, mem⟩ := exists_mem_of_ne_nil _ some
      have read := ne_nil_of_mem ((same f).2 (by rw [whole]; exact mem))
      obtain ⟨state, -, status⟩ := reconcile_of_qualifying (attemptOrders h.openOrders attempt) h.positions read
      exact ⟨state, status⟩

end Grounded

end Runs

/-- However a history is cut into ticks, every tick persists what one call on the whole history gives and takes no
deployment back, where no fill is behind the cursor or the recorded deployment. -/
theorem incremental_reconciliation_faithful {attemptId tag : String} {createdAt : Instant} {symbols : List String}
    {status : SeedAttemptStatus} {rev : Int} {last : Option ArchivedAttempt} {events : List Event}
    (unforgotten : histories.Meets Unforgotten
      (.begun rev (.written attemptId createdAt symbols tag status) last) events) :
    histories.Meets Faithful (.begun rev (.written attemptId createdAt symbols tag status) last) events := by
  let attempt₀ : SeedAttempt := .written attemptId createdAt symbols tag status
  have start : Grounded attempt₀ (.begun rev attempt₀ last) := by
    refine ⟨rfl, ?_, ?_, ?_⟩
    · intro attempt active
      cases active
      exact ⟨rfl, rfl⟩
    · intro t first
      cases first
    · intro deployed
      cases deployed
  exact unforgotten.of_invariant (I := Grounded attempt₀) (fun grounded _ st => grounded.step rfl st)
    (fun grounded ok => grounded.faithful rfl ok) start

/-! ## Small histories -/

/-- An attempt that is tagged `s:`. -/
def smallAttempt : SeedAttempt := .written "1" 0 ["A", "B"] "s:" .ordersOpen

def openOrder (orderId : Nat) (symbol : String) : OpenOrderObs := ⟨orderId, symbol, some ("s:" ++ symbol)⟩

def holding (symbol : String) (qty : ℚ) : Positions := ⟨[(symbol, qty)], nodup_singleton _⟩

instance decidableUnforgotten (h : History) : ∀ e, Decidable (Unforgotten h e)
  | .tick => inferInstanceAs (Decidable (∀ attempt ∈ h.blob.openAttempt, ∀ f ∈ qualifying attempt h.fills,
      attempt.reads f = true ∧ ∀ first ∈ h.blob.firstDeployedAt, first ≤ f.filledAt))
  | .fill .. | .orders _ | .positions _ => isTrue trivial

instance decidableFaithful (h : History) : ∀ e, Decidable (Faithful h e)
  | .tick => inferInstanceAs (Decidable (∀ attempt ∈ h.blob.openAttempt,
      h.tick.blob.state = (h.oneShot attempt).deploymentState ∧
      h.tick.blob.firstDeployedAt = (h.oneShot attempt).firstDeployedAt ∧
      (h.blob.state = .deployed → h.tick.blob.state = .deployed ∧
        (h.result attempt).seedAttemptStatus ≠ .reconciliationRequired)))
  | .fill .. | .orders _ | .positions _ => isTrue trivial

def filledAtOnce : List Event :=
  [.orders [openOrder 1 "A"], .tick, .fill 1 "A" 1 5 (some "s:A"), .orders [], .positions (holding "A" 1), .tick]

theorem filled_at_once_faithful :
    histories.Meets Faithful (.begun 2 smallAttempt none) filledAtOnce ∧
    (histories.run (.begun 2 smallAttempt none) filledAtOnce).map
      (fun h => (h.blob.state, h.blob.firstDeployedAt)) = some (.deployed, some 5) :=
  ⟨incremental_reconciliation_faithful (by decide +kernel), by decide +kernel⟩

def halfFilled : List Event :=
  [.orders [openOrder 1 "A", openOrder 2 "B"], .fill 1 "A" 1 5 (some "s:A"), .orders [openOrder 2 "B"],
    .positions (holding "A" 1), .tick]

/-- The next tick takes the deployment back and blocks, with the attributed position still held. -/
theorem second_tick_regresses :
    (histories.run (.begun 2 smallAttempt none) halfFilled).map (fun h => (h.blob.state, h.positions.get "A")) =
      some (.deployed, some 1) ∧ (histories.run (.begun 2 smallAttempt none) (halfFilled ++ [.tick])).map
      (fun h => (h.blob.state, h.blob.activeSeedAttempt.map (·.status), h.positions.get "A")) =
      some (.deploymentPending, some .reconciliationRequired, some 1) ∧
    ¬ histories.Meets Faithful (.begun 2 smallAttempt none) (halfFilled ++ [.tick]) := by
  refine ⟨?_, ?_, ?_⟩ <;> decide +kernel

end Workbench.Seed
