import Workbench.Lib.Dict
import Mathlib.Data.Rat.Defs
import Mathlib.Algebra.Order.Ring.Unbundled.Rat

/-!
# The replay of audited decisions

Model of `app/services/replay.py`: `replay_audit_row` dispatches an audit row to the verifier of its action,
which recomputes the decision from the figures that the payload records. A figure is recorded as the text of
a `Decimal`; a value that `Decimal(str(v))` reads is a `number`. A verifier that raises is a `none`.
-/

namespace Workbench.Services

/-! ## Decimals -/

/-- Python `Decimal`. -/
inductive Decimal where
  | finite (q : ℚ)
  | infinity (negative : Bool)
  | nan
deriving DecidableEq

namespace Decimal

/-- `-x`. -/
def neg : Decimal → Decimal
  | .finite q => .finite (-q)
  | .infinity negative => .infinity !negative
  | .nan => .nan

/-- `abs(x)`. -/
def abs : Decimal → Decimal
  | .finite q => .finite |q|
  | .infinity _ => .infinity false
  | .nan => .nan

/-- `x + y`; infinities of both signs have no sum. -/
def add : Decimal → Decimal → Option Decimal
  | .nan, _ | _, .nan => some .nan
  | .finite x, .finite y => some (.finite (x + y))
  | .infinity n, .finite _ | .finite _, .infinity n => some (.infinity n)
  | .infinity n, .infinity m => if n = m then some (.infinity n) else none

/-- `x - y`. -/
def sub (x y : Decimal) : Option Decimal := x.add y.neg

/-- `x == y`: a NaN equals nothing. -/
def eq : Decimal → Decimal → Bool
  | .nan, _ => false
  | x, y => x = y

/-- `x <= y`, which raises on a NaN. -/
def le : Decimal → Decimal → Option Bool
  | .nan, _ | _, .nan => none
  | .finite x, .finite y => some (x ≤ y)
  | .infinity negative, y => some (negative || y = .infinity false)
  | .finite _, .infinity negative => some !negative

end Decimal

/-! ## Audit rows -/

/-- What a payload holds. A `text` is one that no `Decimal` reads. -/
inductive Value where
  | null
  | bool (b : Bool)
  | number (d : Decimal)
  | text (s : String)
  | items (vs : List Value)
  | fields (fs : List (String × Value))

abbrev Payload := List (String × Value)

/-- Python `AuditAction`. -/
inductive AuditAction where
  | circuitBreakerTripped
  | reconciliationDiscrepancy
  | other (name : String)
deriving DecidableEq

/-- An audit row. -/
structure AuditRow where
  action : AuditAction
  payload : Payload

/-- Python `_dec`. -/
def dec : Value → Option Decimal
  | .number d => some d
  | .null | .bool _ | .text _ | .items _ | .fields _ => none

/-- `_dec(payload[k])`. -/
def required (payload : Payload) (k : String) : Option Decimal := (payload.lookup k).bind dec

/-- `payload.get(k)`. -/
def optional (payload : Payload) (k : String) : Value := (payload.lookup k).getD .null

/-! ## The verifiers -/

/-- Python `Verdict`. -/
inductive Verdict where
  | matched
  | mismatch
  | skipped
  | error
deriving DecidableEq, Repr

/-- Python `ReplayVerdict`. -/
structure ReplayVerdict where
  verdict : Verdict
  recorded : Payload := []
  recomputed : Payload := []
  note : String := ""

/-- Python `BreakerTripVerifier.replay`. -/
def breakerTripVerifier (payload : Payload) : Option ReplayVerdict := do
  let realized ← required payload "realized_pnl_today"
  let unrealized ← required payload "unrealized_pnl_now"
  let recordedNet ← required payload "net_pnl"
  let maxLoss ← required payload "max_daily_loss"
  let recomputedNet ← realized.add unrealized
  let netReproduces := recomputedNet.eq recordedNet
  let ruleHolds ← recomputedNet.le maxLoss.neg
  let recorded : Payload := [("net_pnl", .number recordedNet), ("max_daily_loss", .number maxLoss),
      ("tripped", .bool true)]
  let recomputed : Payload :=
    [("net_pnl", .number recomputedNet), ("tripped", .bool ruleHolds), ("net_reproduces", .bool netReproduces)]
  if netReproduces && ruleHolds then return { verdict := .matched, recorded, recomputed }
  else return { verdict := .mismatch, recorded, recomputed, note := if !netReproduces
    then "recomputed net_pnl != recorded"
    else "recorded trip does not satisfy net_pnl <= -max_daily_loss" }

/-- The kind that `ReconciliationDiscrepancyVerifier.replay` recomputes from the two quantities. -/
def recomputeKind : Value → Value → Option (Option String)
  | .null, .null => some none
  | _, .null => some (some "missing_broker")
  | .null, _ => some (some "missing_local")
  | x, y => do
    let l ← dec x
    let b ← dec y
    return if l.eq b then none else some "qty_mismatch"

def isText : Value → Option String → Bool
  | .text s, some s' => s = s'
  | .null, none => true
  | _, _ => false

def ofText : Option String → Value
  | some s => .text s
  | none => .null

/-- Python `ReconciliationDiscrepancyVerifier.replay`. -/
def reconciliationDiscrepancyVerifier (payload : Payload) : Option ReplayVerdict :=
  let domain := optional payload "domain"
  let recordedKind := optional payload "kind"
  let recorded : Payload := [("domain", domain), ("kind", recordedKind)]
  if !isText domain "position" then
    some { verdict := .skipped, recorded, note := "domain not replayable yet (needs durable fingerprint)" }
  else do
    let kind ← recomputeKind (optional payload "local") (optional payload "broker")
    let recomputed : Payload := [("kind", ofText kind)]
    if isText recordedKind kind then return { verdict := .matched, recorded, recomputed }
    else return { verdict := .mismatch, recorded, recomputed,
                  note := "recomputed classification does not match recorded kind" }

/-- Python `replay_audit_row`: a verifier that raises is an `ERROR`. -/
def replayAuditRow (row : AuditRow) : ReplayVerdict :=
  match row.action with
  | .circuitBreakerTripped => (breakerTripVerifier row.payload).getD { verdict := .error }
  | .reconciliationDiscrepancy => (reconciliationDiscrepancyVerifier row.payload).getD { verdict := .error }
  | .other _ => { verdict := .skipped, note := "no verifier for action" }

/-! ## What the verifiers decide -/

lemma breakerTripVerifier_without_net {payload : Payload} (absent : payload.lookup "net_pnl" = none) :
    breakerTripVerifier payload = none := by
  simp [breakerTripVerifier, required, absent]

lemma reconciliationDiscrepancyVerifier_match {payload : Payload}
    (position : isText (optional payload "domain") "position" = true) :
    ((reconciliationDiscrepancyVerifier payload).getD { verdict := .error }).verdict = .matched ↔
      ∃ kind, recomputeKind (optional payload "local") (optional payload "broker") = some kind ∧
        isText (optional payload "kind") kind = true := by
  simp only [reconciliationDiscrepancyVerifier, position, Bool.not_true, Bool.false_eq_true, if_false]
  cases recomputeKind (optional payload "local") (optional payload "broker") with
  | none => simp
  | some kind =>
    show ((if isText (optional payload "kind") kind = true then _ else _ : Option ReplayVerdict).getD _).verdict = _ ↔ _
    split
    · rename_i same
      simp [same]
    · rename_i differs
      simp [differs]

lemma reconciliationDiscrepancyVerifier_decides {payload : Payload}
    (position : isText (optional payload "domain") "position" = true) :
    ((reconciliationDiscrepancyVerifier payload).getD { verdict := .error }).verdict ≠ .skipped := by
  simp only [reconciliationDiscrepancyVerifier, position, Bool.not_true, Bool.false_eq_true, if_false]
  cases recomputeKind (optional payload "local") (optional payload "broker") with
  | none => simp
  | some kind =>
    show ((if isText (optional payload "kind") kind = true then _ else _ : Option ReplayVerdict).getD _).verdict ≠ _
    split <;> simp

end Workbench.Services
