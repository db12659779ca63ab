import Workbench.Db.Enums
import Workbench.Services.Reconciliation

/-!
# The reconciliation pass

Model of `run_reconciliation` and `run_reconciliation_pass` of `app/services/reconciliation.py`, from the rows of the
position table and what the adapters return to the run rows that are added. The pass visits the accounts with a
non-zero position row; a quantity of the broker that cannot be read is zero.

Python → Lean naming: `run_reconciliation` → `reconcile`; `run_reconciliation_pass` → `reconciliationPass`.
-/

set_option linter.dupNamespace false

namespace Workbench.Services
open Lib List Dict
variable {positions : List LocalPosition} {accountId : Nat} {eps : ℚ}

/-- A row of `positions`, with the ticker of its symbol. -/
structure LocalPosition where
  accountId : Nat
  ticker : String
  qty : ℚ

/-- A position of the broker: its truthy names, and its quantities where the keys are there; a quantity that no
`Decimal` reads is `none`. -/
structure AdapterPosition where
  symbol : Option String := none
  ticker : Option String := none
  qty : Option (Option Decimal) := none
  quantity : Option (Option Decimal) := none

/-- `result` of a run. -/
inductive RunResult where
  | pass | fail | unavailable | error
deriving DecidableEq

/-- Python `ReconciliationRun`, but for its times. -/
structure ReconciliationRun where
  accountId : Nat
  result : RunResult
  nChecked : Nat
  discrepancies : List Discrepancy

/-- `_DEFAULT_QTY_EPS` -/
def defaultQtyEps : ℚ := 1 / 1000000

/-- Python `_local_qty_by_ticker`. -/
def localQtyByTicker (positions : List LocalPosition) (accountId : Nat) : Dict String Decimal :=
  (positions.filter fun r => r.accountId = accountId ∧ r.qty ≠ 0).foldl
    (fun out r => out.set (upper r.ticker) (.finite r.qty)) Dict.empty

/-- `str(p.get("symbol") or p.get("ticker") or "").upper()` -/
def AdapterPosition.name (row : AdapterPosition) : String := upper ((row.symbol.or row.ticker).getD "")

/-- `Decimal(str(p.get("qty", p.get("quantity", "0"))))`; a malformed quantity is zero. -/
def AdapterPosition.amount (row : AdapterPosition) : Decimal :=
  ((row.qty.or row.quantity).getD (some (.finite 0))).getD (.finite 0)

/-- Python `_broker_qty_by_ticker`. -/
def brokerQtyByTicker (raw : List AdapterPosition) : Dict String Decimal :=
  (raw.filter fun row => row.name ≠ "").foldl (fun out row => out.set row.name row.amount) Dict.empty

/-- Python `run_reconciliation`: an adapter that cannot be reached returns `none`. -/
def reconcile (positions : List LocalPosition) (getPositions : Option (List AdapterPosition)) (accountId : Nat)
    (qtyEps : ℚ) : ReconciliationRun :=
  match getPositions with
  | none => ⟨accountId, .unavailable, 0, []⟩
  | some raw =>
    let localQty := localQtyByTicker positions accountId
    let brokerQty := brokerQtyByTicker raw
    let nChecked := ((localQty.entries.map (·.1)) ++ (brokerQty.entries.map (·.1))).dedup.length
    match diffPositions localQty brokerQty qtyEps with
    | none => ⟨accountId, .error, nChecked, []⟩
    | some ds => ⟨accountId, if ds.isEmpty then .pass else .fail, nChecked, ds⟩

def visited (positions : List LocalPosition) : List Nat :=
  ((positions.filter (·.qty ≠ 0)).map (·.accountId)).dedup

/-- The run rows that `run_reconciliation_pass` adds: an account without an adapter is skipped. -/
def reconciliationPass (positions : List LocalPosition)
    (resolveBroker : Nat → Option (Option (List AdapterPosition))) : List ReconciliationRun :=
  (visited positions).filterMap fun accountId => (resolveBroker accountId).map fun getPositions =>
    reconcile positions getPositions accountId defaultQtyEps

/-! ## Quantities -/

/-- The quantity that a map has under a ticker, zero where it has none. -/
def held (qty : Dict String Decimal) (symbol : String) : ℚ :=
  match qty.get symbol with
  | some (.finite q) => q
  | _ => 0

def AllFinite (qty : Dict String Decimal) : Prop := ∀ symbol d, qty.get symbol = some d → ∃ q, d = .finite q

/-- A row of the broker with a name and a number. -/
def AdapterPosition.WellFormed (row : AdapterPosition) : Prop := row.name ≠ "" ∧ ∃ q, row.amount = .finite q

lemma AllFinite.foldl {ρ : Type} {key : ρ → String} {val : ρ → Decimal} {rows : List ρ} {qty : Dict String Decimal}
    (finite : AllFinite qty) (numbers : ∀ r ∈ rows, ∃ q, val r = .finite q) :
    AllFinite (rows.foldl (fun out r => out.set (key r) (val r)) qty) := by
  induction rows generalizing qty with
  | nil => exact finite
  | cons r rows ih =>
    refine ih ?_ fun r' mem => numbers r' (mem_cons_of_mem r mem)
    intro symbol d found
    rw [get_set] at found
    split at found
    · cases found
      exact numbers r mem_cons_self
    · exact finite symbol d found

lemma allFinite_empty : AllFinite Dict.empty := by
  intro symbol d found
  cases found

lemma allFinite_local : AllFinite (localQtyByTicker positions accountId) :=
  allFinite_empty.foldl fun r _ => ⟨r.qty, rfl⟩

lemma allFinite_broker {raw : List AdapterPosition} (wellFormed : ∀ row ∈ raw, row.WellFormed) :
    AllFinite (brokerQtyByTicker raw) :=
  allFinite_empty.foldl fun row mem => (wellFormed row (mem_filter.1 mem).1).2

lemma classify_finite {x y : ℚ} : classify eps (some (.finite x)) (some (.finite y)) = some none ↔ |x - y| ≤ eps := by
  simp only [classify, Decimal.sub, Decimal.neg, Decimal.add, Decimal.abs, Decimal.le, Option.bind_eq_bind,
    Option.bind_some, ← sub_eq_add_neg]
  by_cases within : |x - y| ≤ eps
  · simp [within]
  · simp [within]

lemma diffSymbols_eq_nil {l b : Dict String Decimal} {symbols : List String} :
    diffSymbols l b eps symbols = some [] ↔ ∀ s ∈ symbols, classify eps (l.get s) (b.get s) = some none := by
  induction symbols with
  | nil => simp [diffSymbols]
  | cons s symbols ih =>
    rw [forall_mem_cons, ← ih, diffSymbols]
    simp only [Option.bind_eq_bind, Option.bind_eq_some_iff]
    constructor
    · rintro ⟨kind, found, ds, rest, eq⟩
      cases kind with
      | none =>
        have tail : ds = [] := Option.some.inj eq
        exact ⟨found, rest.trans (congrArg some tail)⟩
      | some kind => cases eq
    · rintro ⟨found, rest⟩
      exact ⟨none, found, [], rest, rfl⟩

lemma diffPositions_eq_nil {l b : Dict String Decimal} :
    diffPositions l b eps = some [] ↔ ∀ s, classify eps (l.get s) (b.get s) = some none := by
  rw [diffPositions, diffSymbols_eq_nil]
  refine forall_congr' fun s => ?_
  rw [mem_insertionSort, mem_dedup, mem_append, Dict.mem_keys, Dict.mem_keys]
  refine ⟨fun known => ?_, fun same _ => same⟩
  cases foundLocal : l.get s with
  | some x => rw [← foundLocal]; exact known (.inl (by rw [foundLocal]; rfl))
  | none =>
    cases foundBroker : b.get s with
    | some y => rw [← foundLocal, ← foundBroker]; exact known (.inr (by rw [foundBroker]; rfl))
    | none => rfl

lemma reconcile_pass {raw : List AdapterPosition} :
    (reconcile positions (some raw) accountId eps).result = .pass ↔ ∀ s,
      classify eps ((localQtyByTicker positions accountId).get s) ((brokerQtyByTicker raw).get s) = some none := by
  rw [← diffPositions_eq_nil]
  simp only [reconcile]
  cases diffPositions (localQtyByTicker positions accountId) (brokerQtyByTicker raw) eps with
  | none => simp
  | some ds =>
    cases ds with
    | nil => simp
    | cons d ds => simp

lemma AllFinite.classify_iff {l b : Dict String Decimal} (finiteLocal : AllFinite l) (finiteBroker : AllFinite b)
    (nonneg : 0 ≤ eps) {s : String} : classify eps (l.get s) (b.get s) = some none ↔
      (l.get s).isSome = (b.get s).isSome ∧ |held l s - held b s| ≤ eps := by
  simp only [held]
  cases foundLocal : l.get s with
  | none =>
    cases foundBroker : b.get s with
    | none => simp [classify, nonneg]
    | some y => simp [classify]
  | some x =>
    obtain ⟨x, rfl⟩ := finiteLocal s x foundLocal
    cases foundBroker : b.get s with
    | none => simp [classify]
    | some y =>
      obtain ⟨y, rfl⟩ := finiteBroker s y foundBroker
      simp [classify_finite]

/-! ## The pass -/

/-- A quantity that is there, and that cannot be read. -/
def AdapterPosition.Malformed (row : AdapterPosition) : Prop :=
  row.qty = some none ∨ row.qty = none ∧ row.quantity = some none

lemma AdapterPosition.Malformed.amount {row : AdapterPosition} (malformed : row.Malformed) : row.amount =
    .finite 0 := by
  obtain qty | ⟨qty, quantity⟩ := malformed
  · rw [AdapterPosition.amount, qty]
    rfl
  · rw [AdapterPosition.amount, qty, quantity]
    rfl

lemma get_of_last {row : AdapterPosition} {before after : List AdapterPosition} (named : row.name ≠ "")
    (last : ∀ r ∈ after, r.name ≠ row.name) :
    (brokerQtyByTicker (before ++ row :: after)).get row.name = some row.amount := by
  have kept (rows : List AdapterPosition) (out : Dict String Decimal) (others : ∀ r ∈ rows, r.name ≠ row.name) :
      (rows.foldl (fun out r => out.set r.name r.amount) out).get row.name = out.get row.name := by
    induction rows generalizing out with
    | nil => rfl
    | cons r rows ih =>
      rw [foldl_cons, ih _ fun r' mem => others r' (mem_cons_of_mem r mem),
        get_set_of_ne (others r mem_cons_self).symm]
  rw [brokerQtyByTicker, filter_append, filter_cons_of_pos (by simpa using named), foldl_append,
    foldl_cons, kept _ _ fun r mem => last r (mem_filter.1 mem).1, get_set_self]

lemma mem_visited : accountId ∈ visited positions ↔ ∃ r ∈ positions, r.accountId = accountId ∧ r.qty ≠ 0 := by
  rw [visited, mem_dedup, mem_map]
  constructor
  · intro ⟨r, mem, eq⟩
    obtain ⟨mem, nonzero⟩ := mem_filter.1 mem
    exact ⟨r, mem, eq, of_decide_eq_true nonzero⟩
  · intro ⟨r, mem, eq, nonzero⟩
    exact ⟨r, mem_filter.2 ⟨mem, decide_eq_true nonzero⟩, eq⟩

@[simp] lemma reconcile_accountId {getPositions : Option (List AdapterPosition)}
    : (reconcile positions getPositions accountId eps).accountId = accountId := by
  cases getPositions with
  | none => rfl
  | some raw =>
    simp only [reconcile]
    split
    · rfl
    · rfl

lemma filter_runs (positions : List LocalPosition) {resolveBroker : Nat → Option (Option (List AdapterPosition))}
    {getPositions : Option (List AdapterPosition)} (adapter : resolveBroker accountId = some getPositions)
    {ids : List Nat} (distinct : ids.Nodup) :
    (ids.filterMap fun i => (resolveBroker i).map fun g => reconcile positions g i defaultQtyEps).filter
        (·.accountId = accountId) =
      if accountId ∈ ids then [reconcile positions getPositions accountId defaultQtyEps] else [] := by
  induction ids with
  | nil => rfl
  | cons i ids ih =>
    rw [nodup_cons] at distinct
    by_cases here : accountId = i
    · subst here
      rw [filterMap_cons, adapter, Option.map_some, filter_cons_of_pos (by simp), ih distinct.2,
        if_neg distinct.1, if_pos mem_cons_self]
    · have elsewhere : (accountId ∈ i :: ids) = (accountId ∈ ids) := by simp [here]
      simp only [elsewhere]
      rw [← ih distinct.2, filterMap_cons]
      cases resolveBroker i with
      | none => rfl
      | some g => exact filter_cons_of_neg (by simp [Ne.symm here])

/-- The pass adds one row for an account that holds something, which passes on equal books, and none for one that is
flat. -/
theorem reconciliationPass_exact (positions : List LocalPosition)
    (resolveBroker : Nat → Option (Option (List AdapterPosition))) (accountId : Nat) (raw : List AdapterPosition)
    (adapter : resolveBroker accountId = some (some raw)) :
    ((∃ r ∈ positions, r.accountId = accountId ∧ r.qty ≠ 0) → ∃ run,
      (reconciliationPass positions resolveBroker).filter (·.accountId = accountId) = [run] ∧
      ((∀ row ∈ raw, row.WellFormed) →
        (run.result = .pass → ∀ s, |held (localQtyByTicker positions accountId) s - held (brokerQtyByTicker raw) s| ≤
          defaultQtyEps) ∧
        ((∀ s, |held (localQtyByTicker positions accountId) s - held (brokerQtyByTicker raw) s| ≤ defaultQtyEps) →
          (∀ s, ((localQtyByTicker positions accountId).get s).isSome ≠ ((brokerQtyByTicker raw).get s).isSome →
            defaultQtyEps < |held (localQtyByTicker positions accountId) s - held (brokerQtyByTicker raw) s|) →
          run.result = .pass)) ∧ ∀ before row after, raw = before ++ row :: after → row.name ≠ "" → row.Malformed →
        (∀ r ∈ after, r.name ≠ row.name) → run.result = .pass →
        ∃ q, (localQtyByTicker positions accountId).get row.name = some (.finite q) ∧ |q| ≤ defaultQtyEps) ∧
    ((∀ r ∈ positions, r.accountId = accountId → r.qty = 0) →
      (reconciliationPass positions resolveBroker).filter (·.accountId = accountId) = []) := by
  have runs := filter_runs positions adapter (nodup_dedup _ : (visited positions).Nodup)
  have nonneg : 0 ≤ defaultQtyEps := by norm_num [defaultQtyEps]
  constructor
  · intro holds
    refine ⟨_, runs.trans (if_pos (mem_visited.2 holds)), ?_, ?_⟩
    · intro wellFormed
      have iff := fun s => allFinite_local.classify_iff (allFinite_broker wellFormed) nonneg (s := s)
        (l := localQtyByTicker positions accountId)
      rw [reconcile_pass]
      refine ⟨fun pass s => ((iff s).1 (pass s)).2, fun close oneSided s => (iff s).2 ⟨?_, close s⟩⟩
      by_contra differ
      exact absurd (close s) (not_le.2 (oneSided s differ))
    · rintro before row after rfl named malformed last pass
      have same := reconcile_pass.1 pass row.name
      rw [get_of_last named last, malformed.amount] at same
      cases found : (localQtyByTicker positions accountId).get row.name with
      | none =>
        rw [found] at same
        cases same
      | some d =>
        obtain ⟨q, rfl⟩ := allFinite_local row.name d found
        rw [found, classify_finite, sub_zero] at same
        exact ⟨q, rfl, same⟩
  · intro flat
    refine runs.trans (if_neg fun mem => ?_)
    obtain ⟨r, mem, own, nonzero⟩ := mem_visited.1 mem
    exact nonzero (flat r mem own)

def tenHeld : List AdapterPosition := [{ symbol := some "aapl", qty := some (some (.finite 10)) }]

theorem reconciliationPass_exact_tenShares : ∃ run,
    (reconciliationPass [⟨1, "AAPL", 10⟩] fun _ => some (some tenHeld)).filter (·.accountId = 1) = [run] ∧
      run.result = .pass := by
  have holds : ∃ r ∈ [(⟨1, "AAPL", 10⟩ : LocalPosition)], r.accountId = 1 ∧ r.qty ≠ 0 :=
    ⟨_, mem_singleton_self _, rfl, by norm_num⟩
  obtain ⟨run, added, equal, -⟩ :=
    (reconciliationPass_exact [⟨1, "AAPL", 10⟩] (fun _ => some (some tenHeld)) 1 tenHeld rfl).1 holds
  have kept : (localQtyByTicker [⟨1, "AAPL", 10⟩] 1).entries = [("AAPL", .finite 10)] := by decide +kernel
  have reported : (brokerQtyByTicker tenHeld).entries = [("AAPL", .finite 10)] := by decide +kernel
  have same (s : String) : (localQtyByTicker [⟨1, "AAPL", 10⟩] 1).get s = (brokerQtyByTicker tenHeld).get s := by
    rw [Dict.get, Dict.get, kept, reported]
  refine ⟨run, added, (equal ?_).2 ?_ ?_⟩
  · intro row mem
    rw [mem_singleton.1 mem]
    exact ⟨by decide +kernel, 10, rfl⟩
  · intro s
    rw [held, held, same, sub_self, abs_zero]
    norm_num [defaultQtyEps]
  · intro s differ
    rw [same] at differ
    exact absurd rfl differ

/-- What the broker holds on an account that is flat is not looked at. -/
theorem flat_account_not_visited :
    reconciliationPass [] (fun _ => some (some tenHeld)) = [] ∧
      ¬ ∀ s, |held (localQtyByTicker [] 1) s - held (brokerQtyByTicker tenHeld) s| ≤ defaultQtyEps := by
  refine ⟨rfl, fun close => ?_⟩
  have ten : held (brokerQtyByTicker tenHeld) "AAPL" = 10 := by decide +kernel
  have none : held (localQtyByTicker [] 1) "AAPL" = 0 := rfl
  have near := close "AAPL"
  rw [ten, none] at near
  norm_num [defaultQtyEps] at near

end Workbench.Services
