import Workbench.Lib.Machine
import Workbench.Validation.S3Sink

/-!
# Publications

A publication is one call of `S3ObjectLockAnchorSink.publish`. Its moves are what the storage does: a conditional put
that is carried out, with its answer delivered or lost (the client then sends it again or gives up), the read of the
stored object after a refused put, and a failure. The calls of any number of writers move in any order over one
bucket.

What a move can do is `Publication.move_cases`: an object is stored only where there was none, and a call that returns
finds its own bytes stored (`move_returned`).
-/

set_option linter.dupNamespace false

namespace Workbench.Validation
open Workbench.Lib List Option Dict Machine

variable {φ : Type}

/-- One call: the tip and its receipt, with the key and the bytes of its object. -/
structure Publication where
  tip : WitnessedTip
  receipt : SignedReceipt
  key : Text
  body : List Char
deriving DecidableEq

/-- How far a call is: its put is still to be answered, its put was refused, or it has ended. -/
inductive Phase where
  | putting
  | comparing
  | returned
  | diverges
  | failed
deriving DecidableEq

/-- What happens to a call. -/
inductive Move where
  | put (answered : Bool)
  | compare
  | fail
deriving DecidableEq

def Publication.of (F : Floats φ) (b : Bucket) (tip : WitnessedTip) (r : SignedReceipt) :
    Except DumpError Publication :=
  (canonicalPayload F tip r).map fun body => ⟨tip, r, keyFor b tip.sequence tip.sessionDate, body⟩

/-- Python `publish`, one step. -/
def Publication.move (p : Publication) (objects : Objects) : Phase → Move → Option (Objects × Phase)
  | .putting, .put answered =>
    let (after, created) := putObject objects p.key p.body
    some (after, if answered then (if created then .returned else .comparing) else .putting)
  | .comparing, .compare =>
    match objects.get p.key with
    | some existing => some (objects, if existing = p.body then .returned else .diverges)
    | none => some (objects, .failed)
  | .putting, .fail | .comparing, .fail => some (objects, .failed)
  | _, _ => none

section
variable {p : Publication} {objects after : Objects} {ph ph' : Phase} {m : Move}
variable {k : Text} {body : List Char}

lemma putObject_free (free : objects.get k = none) : putObject objects k body = (objects.set k body, true) := by
  rw [putObject, free]

lemma putObject_taken {existing : List Char} (taken : objects.get k = some existing) :
    putObject objects k body = (objects, false) := by
  rw [putObject, taken]

lemma Publication.move_cases (step : p.move objects ph m = some (after, ph')) :
    (∃ answered, ph = .putting ∧ m = .put answered ∧ objects.get p.key = none ∧
      after = objects.set p.key p.body ∧ ph' = if answered then .returned else .putting) ∨
    (∃ answered body, ph = .putting ∧ m = .put answered ∧ objects.get p.key = some body ∧ after = objects ∧
      ph' = if answered then .comparing else .putting) ∨
    (∃ body, ph = .comparing ∧ m = .compare ∧ objects.get p.key = some body ∧ after = objects ∧
      ph' = if body = p.body then .returned else .diverges) ∨ (after = objects ∧ ph' = .failed) := by
  cases ph with
  | putting =>
    cases m with
    | put answered =>
      simp only [Publication.move] at step
      cases found : objects.get p.key with
      | none =>
        rw [putObject_free found] at step
        obtain ⟨rfl, rfl⟩ := Prod.mk.inj (some.inj step)
        exact .inl ⟨answered, rfl, rfl, rfl, rfl, by simp⟩
      | some body =>
        rw [putObject_taken found] at step
        obtain ⟨rfl, rfl⟩ := Prod.mk.inj (some.inj step)
        exact .inr (.inl ⟨answered, body, rfl, rfl, rfl, rfl, by simp⟩)
    | compare => cases step
    | fail =>
      obtain ⟨rfl, rfl⟩ := Prod.mk.inj (some.inj step)
      exact .inr (.inr (.inr ⟨rfl, rfl⟩))
  | comparing =>
    cases m with
    | put answered => cases step
    | compare =>
      simp only [Publication.move] at step
      cases found : objects.get p.key with
      | none =>
        rw [found] at step
        obtain ⟨rfl, rfl⟩ := Prod.mk.inj (some.inj step)
        exact .inr (.inr (.inr ⟨rfl, rfl⟩))
      | some body =>
        rw [found] at step
        obtain ⟨rfl, rfl⟩ := Prod.mk.inj (some.inj step)
        exact .inr (.inr (.inl ⟨body, rfl, rfl, rfl, rfl, rfl⟩))
    | fail =>
      obtain ⟨rfl, rfl⟩ := Prod.mk.inj (some.inj step)
      exact .inr (.inr (.inr ⟨rfl, rfl⟩))
  | returned => cases m <;> cases step
  | diverges => cases m <;> cases step
  | failed => cases m <;> cases step

lemma Publication.move_keeps (step : p.move objects ph m = some (after, ph'))
    (found : objects.get k = some body) : after.get k = some body := by
  obtain ⟨-, -, -, free, rfl, -⟩ | ⟨-, -, -, -, -, rfl, -⟩ | ⟨-, -, -, -, rfl, -⟩ | ⟨rfl, -⟩ := move_cases step
  · have ne : k ≠ p.key := by
      rintro rfl
      rw [free] at found
      cases found
    rw [get_set_of_ne ne]
    exact found
  · exact found
  · exact found
  · exact found

lemma Publication.move_stored (step : p.move objects ph m = some (after, ph'))
    (found : after.get k = some body) : objects.get k = some body ∨ (k = p.key ∧ body = p.body) := by
  obtain ⟨-, -, -, -, rfl, -⟩ | ⟨-, -, -, -, -, rfl, -⟩ | ⟨-, -, -, -, rfl, -⟩ | ⟨rfl, -⟩ := move_cases step
  · by_cases eq : k = p.key
    · subst eq
      rw [get_set_self] at found
      exact .inr ⟨rfl, (some.inj found).symm⟩
    · rw [get_set_of_ne eq] at found
      exact .inl found
  · exact .inl found
  · exact .inl found
  · exact .inl found

lemma Publication.move_returned (step : p.move objects ph m = some (after, .returned)) :
    after.get p.key = some p.body := by
  obtain ⟨-, -, -, -, rfl, -⟩ | ⟨answered, -, -, -, -, rfl, eq⟩ | ⟨body, -, -, found, rfl, eq⟩ | ⟨-, eq⟩ :=
    move_cases step
  · exact get_set_self
  · cases answered <;> cases eq
  · split at eq
    · subst body
      exact found
    · cases eq
  · cases eq

end

/-! ## Any number of writers -/

/-- A bucket and the calls that were made on it. -/
structure Traffic where
  objects : Objects
  calls : List (Publication × Phase)
deriving DecidableEq

/-- A call is made, or one moves. -/
inductive Event where
  | publish (tip : WitnessedTip) (receipt : SignedReceipt)
  | move (i : Nat) (m : Move)
deriving DecidableEq

def Traffic.start : Traffic := ⟨Dict.empty, []⟩

/-- The calls of any number of writers on one bucket. A call whose payload cannot be written raises before its put. -/
def traffic (F : Floats φ) (b : Bucket) : Machine Traffic Event where
  step s
    | .publish tip receipt =>
      match Publication.of F b tip receipt with
      | .ok p => some { s with calls := s.calls ++ [(p, .putting)] }
      | .error _ => some s
    | .move i m => do
      let (p, ph) ← s.calls[i]?
      let (objects, ph') ← p.move s.objects ph m
      return ⟨objects, s.calls.set i (p, ph')⟩

/-- Every object is that of a call, every call has the key and the bytes of its tip, and a call that has returned has
its own bytes stored. -/
structure Traffic.Inv (F : Floats φ) (b : Bucket) (s : Traffic) : Prop where
  made : ∀ c ∈ s.calls, Publication.of F b c.1.tip c.1.receipt = .ok c.1
  stored : ∀ k body, s.objects.get k = some body → ∃ c ∈ s.calls, k = c.1.key ∧ body = c.1.body
  returned : ∀ c ∈ s.calls, c.2 = .returned → s.objects.get c.1.key = some c.1.body

section
variable {F : Floats φ} {b : Bucket} {s s' : Traffic} {e : Event}

lemma Publication.of_ok {tip : WitnessedTip} {r : SignedReceipt} {p : Publication}
    (ok : Publication.of F b tip r = .ok p) :
    p.tip = tip ∧ p.receipt = r ∧ p.key = keyFor b tip.sequence tip.sessionDate ∧
      canonicalPayload F tip r = .ok p.body := by
  rw [Publication.of] at ok
  cases payload : canonicalPayload F tip r with
  | error e =>
    rw [payload] at ok
    cases ok
  | ok body =>
    rw [payload] at ok
    obtain rfl := Except.ok.inj ok
    exact ⟨rfl, rfl, rfl, rfl⟩

lemma Traffic.step_cases (step : (traffic F b).step s e = some s') :
    s' = s ∨ (∃ tip receipt p, e = .publish tip receipt ∧ Publication.of F b tip receipt = .ok p ∧
      s' = { s with calls := s.calls ++ [(p, .putting)] }) ∨
    (∃ i m p ph objects ph', e = .move i m ∧ s.calls[i]? = some (p, ph) ∧
      p.move s.objects ph m = some (objects, ph') ∧ s' = ⟨objects, s.calls.set i (p, ph')⟩) := by
  cases e with
  | publish tip receipt =>
    simp only [traffic] at step
    cases made : Publication.of F b tip receipt with
    | error e =>
      rw [made] at step
      exact .inl (some.inj step).symm
    | ok p =>
      rw [made] at step
      exact .inr (.inl ⟨tip, receipt, p, rfl, made, (some.inj step).symm⟩)
  | move i m =>
    simp only [traffic, bind_eq_bind, bind_eq_some_iff] at step
    obtain ⟨⟨p, ph⟩, found, ⟨objects, ph'⟩, moved, eq⟩ := step
    exact .inr (.inr ⟨i, m, p, ph, objects, ph', rfl, found, moved, (some.inj eq).symm⟩)

lemma Traffic.Inv.start : Traffic.Inv F b Traffic.start where
  made c mem := by cases mem
  stored k body found := by cases found
  returned c mem := by cases mem

/-- An event keeps the invariant. -/
theorem Traffic.Inv.step (inv : s.Inv F b) (step : (traffic F b).step s e = some s') : s'.Inv F b := by
  obtain rfl | ⟨tip, receipt, p, rfl, made, rfl⟩ | ⟨i, m, p, ph, objects, ph', rfl, found, moved, rfl⟩ :=
    step_cases step
  · exact inv
  · obtain ⟨rfl, rfl, -, -⟩ := Publication.of_ok made
    refine ⟨?_, ?_, ?_⟩
    · intro c mem
      obtain old | new := mem_append.1 mem
      · exact inv.made c old
      · obtain rfl := mem_singleton.1 new
        exact made
    · intro k body found
      obtain ⟨c, mem, of⟩ := inv.stored k body found
      exact ⟨c, mem_append_left _ mem, of⟩
    · intro c mem ended
      obtain old | new := mem_append.1 mem
      · exact inv.returned c old ended
      · obtain rfl := mem_singleton.1 new
        cases ended
  · have call := mem_of_getElem? found
    have kept : (p, ph') ∈ s.calls.set i (p, ph') := by
      obtain ⟨bound, -⟩ := List.getElem?_eq_some_iff.1 found
      exact mem_set bound (p, ph')
    refine ⟨?_, ?_, ?_⟩
    · intro c mem
      obtain old | rfl := mem_or_eq_of_mem_set mem
      · exact inv.made c old
      · exact inv.made (p, ph) call
    · intro k body stored
      obtain old | ⟨rfl, rfl⟩ := Publication.move_stored moved stored
      · obtain ⟨c, mem, rfl, rfl⟩ := inv.stored k body old
        -- the call of the object is another one, or the one that moves
        obtain ⟨j, at_j⟩ := mem_iff_getElem?.1 mem
        by_cases same : j = i
        · subst same
          obtain rfl := some.inj (found.symm.trans at_j)
          exact ⟨_, kept, rfl, rfl⟩
        · refine ⟨c, mem_iff_getElem?.2 ⟨j, ?_⟩, rfl, rfl⟩
          rw [getElem?_set_ne (Ne.symm same)]
          exact at_j
      · exact ⟨_, kept, rfl, rfl⟩
    · intro c mem ended
      obtain old | rfl := mem_or_eq_of_mem_set mem
      · exact Publication.move_keeps moved (inv.returned c old ended)
      · obtain rfl : ph' = .returned := ended
        exact Publication.move_returned moved

lemma Traffic.step_keeps (step : (traffic F b).step s e = some s') {k : Text} {body : List Char}
    (found : s.objects.get k = some body) : s'.objects.get k = some body := by
  obtain rfl | ⟨tip, receipt, p, rfl, made, rfl⟩ | ⟨i, m, p, ph, objects, ph', rfl, -, moved, rfl⟩ := step_cases step
  · exact found
  · exact found
  · exact Publication.move_keeps moved found

variable {es : List Event}

/-- The calls of a run from the empty bucket and its objects. -/
theorem Traffic.run_inv (run : (traffic F b).run Traffic.start es = some s) : s.Inv F b :=
  run_invariant (C := fun _ _ => True) (fun inv _ step => inv.step step) Inv.start meets_true run

/-- Publishing changes no stored object. -/
theorem Traffic.run_keeps (run : (traffic F b).run s es = some s') {k : Text} {body : List Char}
    (found : s.objects.get k = some body) : s'.objects.get k = some body :=
  run_invariant (C := fun _ _ => True) (I := fun s => s.objects.get k = some body)
    (fun found _ step => step_keeps step found) found meets_true run

def Traffic.given (s : Traffic) : List (WitnessedTip × SignedReceipt) := s.calls.map fun c => (c.1.tip, c.1.receipt)

lemma Traffic.Inv.recorded (inv : s.Inv F b) (readable : ∀ c ∈ s.given, c.1.Readable ∧ c.2.Readable) :
    Recorded F b s.objects s.given := by
  intro k body found
  obtain ⟨c, mem, rfl, rfl⟩ := inv.stored k body found
  have given : (c.1.tip, c.1.receipt) ∈ s.given := mem_map.2 ⟨c, mem, rfl⟩
  obtain ⟨tip, receipt⟩ := readable _ given
  obtain ⟨-, -, key, payload⟩ := Publication.of_ok (inv.made c mem)
  rw [canonicalPayload_eq tip.sequence receipt.version] at payload
  exact ⟨_, given, tip, receipt, key, (Except.ok.inj payload).symm⟩

end

end Workbench.Validation
