import Workbench.Services.Replay
import Mathlib.Data.List.Sort

/-!
# Reconciliation

Model of `app/services/reconciliation.py`: the positions of the broker are compared with the local ones, and
every discrepancy is audited. A comparison that raises makes the run an `error`, which audits nothing.
-/

namespace Workbench.Services
open Lib

/-- The kinds of a position discrepancy. -/
inductive Kind where
  | missingBroker | missingLocal | qtyMismatch
deriving DecidableEq, Repr

def Kind.name : Kind → String
  | .missingBroker => "missing_broker"
  | .missingLocal => "missing_local"
  | .qtyMismatch => "qty_mismatch"

lemma Kind.name_injective : Function.Injective Kind.name := by
  intro k k' same
  cases k <;> cases k' <;> simp_all [Kind.name]

def Kind.note : Kind → String
  | .missingBroker => "local holds a position the broker does not"
  | .missingLocal => "broker holds a position local does not"
  | .qtyMismatch => "quantity mismatch"

/-- Python `Discrepancy`, in the position domain. -/
structure Discrepancy where
  kind : Kind
  symbol : String
  «local» : Option Decimal
  broker : Option Decimal

/-- The turn of a symbol in `diff_positions`; `none` is an exception. -/
def classify (qtyEps : ℚ) : Option Decimal → Option Decimal → Option (Option Kind)
  | some _, none => some (some .missingBroker)
  | none, some _ => some (some .missingLocal)
  | some lq, some bq => do
    let within ← (← lq.sub bq).abs.le (.finite qtyEps)
    return if within then none else some .qtyMismatch
  | none, none => some none

/-- The loop of `diff_positions`. -/
def diffSymbols (localQty brokerQty : Dict String Decimal) (qtyEps : ℚ) : List String → Option (List Discrepancy)
  | [] => some []
  | symbol :: symbols => do
    let kind ← classify qtyEps (localQty.get symbol) (brokerQty.get symbol)
    let ds ← diffSymbols localQty brokerQty qtyEps symbols
    return (kind.map fun kind => ⟨kind, symbol, localQty.get symbol, brokerQty.get symbol⟩).toList ++ ds

/-- Python `diff_positions`. -/
def diffPositions (localQty brokerQty : Dict String Decimal) (qtyEps : ℚ) : Option (List Discrepancy) :=
  diffSymbols localQty brokerQty qtyEps
    (((localQty.entries.map (·.1)) ++ (brokerQty.entries.map (·.1))).dedup.insertionSort (· ≤ ·))

/-- `str(q)`, or null. -/
def ofQty : Option Decimal → Value
  | some q => .number q
  | none => .null

def Discrepancy.auditRow (d : Discrepancy) : AuditRow where
  action := .reconciliationDiscrepancy
  payload := [("domain", .text "position"), ("kind", .text d.kind.name), ("severity", .text "high"),
    ("symbol", .text d.symbol), ("local", ofQty d.local), ("broker", ofQty d.broker), ("note", .text d.kind.note)]

/-- The rows that `run_reconciliation` audits; a broker that cannot be reached has no positions. -/
def runReconciliation (localQty : Dict String Decimal) (brokerQty : Option (Dict String Decimal)) (qtyEps : ℚ) :
    List AuditRow :=
  match brokerQty with
  | none => []
  | some brokerQty => ((diffPositions localQty brokerQty qtyEps).getD []).map Discrepancy.auditRow

lemma classify_of_mem {localQty brokerQty : Dict String Decimal} {qtyEps : ℚ} {symbols : List String}
    {ds : List Discrepancy} {d : Discrepancy} (diff : diffSymbols localQty brokerQty qtyEps symbols = some ds)
    (mem : d ∈ ds) : classify qtyEps d.local d.broker = some (some d.kind) := by
  induction symbols generalizing ds with
  | nil =>
    cases diff
    cases mem
  | cons symbol symbols ih =>
    simp only [diffSymbols, Option.bind_eq_bind, Option.bind_eq_some_iff] at diff
    obtain ⟨kind, found, rest, diff, eq⟩ := diff
    cases eq
    rcases List.mem_append.1 mem with mem | mem
    · cases kind with
      | none => cases mem
      | some kind =>
        cases List.mem_singleton.1 mem
        exact found
    · exact ih diff mem

lemma mem_runReconciliation {localQty : Dict String Decimal} {brokerQty : Option (Dict String Decimal)} {qtyEps : ℚ}
    {row : AuditRow} (mem : row ∈ runReconciliation localQty brokerQty qtyEps) :
    ∃ d : Discrepancy, row = d.auditRow ∧ classify qtyEps d.local d.broker = some (some d.kind) := by
  cases brokerQty with
  | none => cases mem
  | some brokerQty =>
    obtain ⟨d, found, rfl⟩ := List.mem_map.1 mem
    cases diff : diffPositions localQty brokerQty qtyEps with
    | none =>
      rw [diff] at found
      cases found
    | some ds =>
      rw [diff] at found
      exact ⟨d, rfl, classify_of_mem diff found⟩

end Workbench.Services
