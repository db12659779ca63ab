import Workbench.Validation.AnchorLog
import Workbench.Validation.Publication

/-!
# Anchoring over the sink

The runs of `append_anchor` of `app/validation/chain_anchor.py` over one bucket: observations are committed, a run
prepares and signs an anchor, publishes it move by move and appends its line, and it may crash before each of these.

The invariant `Anchoring.Inv` ties the three stores together: the log is the text of chained anchors that witness the
first observations, every anchor is stored in the bucket, and what else is stored lies under the key of the next
observation.
-/

namespace Workbench.Validation
open Workbench.Lib Option

variable {φ : Type}

/-- A run that has signed: its line, and its publication. -/
structure Signing where
  line : List Char
  publication : Publication
  phase : Phase
deriving DecidableEq

/-- The committed observations, the log, the bucket and the run in progress. -/
structure Anchoring where
  obs : List CommittedObservation
  log : List Char
  objects : Objects
  call : Option Signing
deriving DecidableEq

/-- What a run of `append_anchor` is given, with the receipt that the signer answers. -/
structure Request where
  tree : Text
  anchoredAt : Text
  receipt : SignedReceipt
deriving DecidableEq

/-- An observation is committed, a run begins, its publication moves, its line is appended, or it ends early. -/
inductive Act where
  | commit (o : CommittedObservation)
  | begin (a : Request)
  | publish (m : Move)
  | append
  | crash
deriving DecidableEq

def Anchoring.start : Anchoring := ⟨[], [], Dict.empty, none⟩

/-- What the observation store commits: the next sequence, of six digits, and a later date. -/
def Follows (obs : List CommittedObservation) (o : CommittedObservation) : Prop :=
  o.sequence = obs.length + 1 ∧ o.sequence < 1000000 ∧ ∀ last ∈ obs.getLast?, last.sessionDate < o.sessionDate

instance {obs : List CommittedObservation} {o : CommittedObservation} : Decidable (Follows obs o) :=
  inferInstanceAs (Decidable (_ ∧ _ ∧ _))

/-- Python `append_anchor`, from the signature to its publication. -/
def sign (X : Codec φ) (b : Bucket) (core : AnchorCore φ) (tip : WitnessedTip) (r : SignedReceipt) :
    Except DumpError Signing := do
  let line ← serializeAnchor X ⟨core, r⟩
  let p ← Publication.of X.floats b tip r
  return ⟨line, p, .putting⟩

/-- The runs of `append_anchor`, one after the other. A run that raises before its publication changes nothing. -/
def anchoring (X : Codec φ) (b : Bucket) : Machine Anchoring Act where
  step s
    | .commit o => if Follows s.obs o then some { s with obs := s.obs ++ [o] } else none
    | .begin a =>
      match s.call, prepareAnchor X s.log s.obs a.tree a.anchoredAt with
      | none, .ok (.toSign core tip) =>
        match sign X b core tip a.receipt with
        | .ok c => some { s with call := some c }
        | .error _ => some s
      | none, _ => some s
      | some _, _ => none
    | .publish m => do
      let c ← s.call
      let (objects, ph) ← c.publication.move s.objects c.phase m
      return { s with objects, call := some { c with phase := ph } }
    | .append => do
      let c ← s.call
      if c.phase = .returned then some { s with log := s.log ++ (c.line ++ ['\n']), call := none } else none
    | .crash => some { s with call := none }

/-- The tip that is to be signed; `none` where nothing is. -/
def toBeSigned : Except AnchorFailure (Preparation φ) → Option WitnessedTip
  | .ok (.toSign _ tip) => some tip
  | _ => none

/-- The strings of the callers read back, and the signer's receipt verifies for the tip that it signs. -/
def Honest (X : Codec φ) (v : AnchorVerifier) (s : Anchoring) : Act → Prop
  | .commit o => Whole o.sessionDate ∧ Whole o.commitSha256 ∧ ∀ x ∈ o.previousCommitSha256, Whole x
  | .begin a => ∀ tip ∈ toBeSigned (prepareAnchor X s.log s.obs a.tree a.anchoredAt),
      Whole a.tree ∧ Whole a.anchoredAt ∧ a.receipt.Readable ∧
        verifyReceipt X.floats X.sha256 v tip.fields a.receipt = .ok ()
  | .publish _ | .append | .crash => True

def Anchoring.Consistent (X : Codec φ) (C : Coercions φ) (b : Bucket) (v : AnchorVerifier) (s : Anchoring) : Prop :=
  ∃ anchors, verifyAnchorConsistency X v s.log s.obs (readAll X.floats C b s.objects) = .ok anchors

/-- A run of `append_anchor` goes through, whatever the answers of the storage. -/
def Anchoring.Completes (X : Codec φ) (b : Bucket) (s : Anchoring) (a : Request) (s' : Anchoring) : Prop :=
  ∃ ms : List Move, (anchoring X b).run s (.begin a :: ms.map .publish ++ [.append]) = some s'

/-! ## What a step can do -/

section
variable {X : Codec φ} {C : Coercions φ} {b : Bucket} {v : AnchorVerifier} {s s' : Anchoring} {l : Act}

lemma Anchoring.step_cases (step : (anchoring X b).step s l = some s') :
    (∃ o, l = .commit o ∧ Follows s.obs o ∧ s' = { s with obs := s.obs ++ [o] }) ∨
    (∃ a, l = .begin a ∧ s.call = none ∧ (s' = s ∨ ∃ core tip c,
      prepareAnchor X s.log s.obs a.tree a.anchoredAt = .ok (.toSign core tip) ∧ sign X b core tip a.receipt = .ok c ∧
        s' = { s with call := some c })) ∨
    (∃ m c objects ph, l = .publish m ∧ s.call = some c ∧ c.publication.move s.objects c.phase m = some (objects, ph) ∧
      s' = { s with objects, call := some { c with phase := ph } }) ∨
    (∃ c, l = .append ∧ s.call = some c ∧ c.phase = .returned ∧
      s' = { s with log := s.log ++ (c.line ++ ['\n']), call := none }) ∨
    (l = .crash ∧ s' = { s with call := none }) := by
  cases l with
  | commit o =>
    simp only [anchoring] at step
    split at step
    · exact .inl ⟨o, rfl, ‹_›, (some.inj step).symm⟩
    · cases step
  | begin a =>
    right; left
    simp only [anchoring] at step
    split at step
    · rename_i core tip idle prepared
      refine ⟨a, rfl, idle, ?_⟩
      split at step
      · rename_i c signed
        exact .inr ⟨core, tip, c, prepared, signed, (some.inj step).symm⟩
      · exact .inl (some.inj step).symm
    · rename_i idle _
      exact ⟨a, rfl, idle, .inl (some.inj step).symm⟩
    · cases step
  | publish m =>
    right; right; left
    simp only [anchoring, bind_eq_bind, bind_eq_some_iff] at step
    obtain ⟨c, call, ⟨objects, ph⟩, moved, eq⟩ := step
    exact ⟨m, c, objects, ph, rfl, call, moved, (some.inj eq).symm⟩
  | append =>
    right; right; right; left
    simp only [anchoring, bind_eq_bind, bind_eq_some_iff] at step
    obtain ⟨c, call, appended⟩ := step
    split at appended
    · exact ⟨c, rfl, call, ‹_›, (some.inj appended).symm⟩
    · cases appended
  | crash =>
    right; right; right; right
    exact ⟨rfl, (some.inj step).symm⟩

end

end Workbench.Validation
