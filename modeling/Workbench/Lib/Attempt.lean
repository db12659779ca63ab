import Mathlib.Tactic

/-!
# Computations that emit and may raise

What has been emitted when a computation raises stays emitted: `Attempt` keeps the items beside the value, and `bind`
appends them. The lemmas read an item of a sequence backwards, to the step that emitted it.
-/

namespace Workbench.Lib

/-- The items that a computation has emitted, and its value unless it raised. -/
structure Attempt (ω ε α : Type) where
  emitted : List ω
  value : Except ε α

namespace Attempt

variable {ω ε α β : Type}

instance : Monad (Attempt ω ε) where
  pure a := ⟨[], .ok a⟩
  bind x f := match x.value with
    | .error e => ⟨x.emitted, .error e⟩
    | .ok a => ⟨x.emitted ++ (f a).emitted, (f a).value⟩

def emit (o : ω) : Attempt ω ε Unit := ⟨[o], .ok ()⟩

def ofExcept (x : Except ε α) : Attempt ω ε α := ⟨[], x⟩

@[simp] lemma emitted_pure {a : α} : (pure a : Attempt ω ε α).emitted = [] := rfl

@[simp] lemma value_pure {a : α} : (pure a : Attempt ω ε α).value = .ok a := rfl

@[simp] lemma emitted_emit {o : ω} : (emit o : Attempt ω ε Unit).emitted = [o] := rfl

@[simp] lemma value_emit {o : ω} : (emit o : Attempt ω ε Unit).value = .ok () := rfl

@[simp] lemma emitted_ofExcept {x : Except ε α} : (ofExcept x : Attempt ω ε α).emitted = [] := rfl

@[simp] lemma value_ofExcept {x : Except ε α} : (ofExcept x : Attempt ω ε α).value = x := rfl

lemma bind_of_ok {x : Attempt ω ε α} {f : α → Attempt ω ε β} {a : α} (ok : x.value = .ok a) :
    x >>= f = ⟨x.emitted ++ (f a).emitted, (f a).value⟩ := by
  show (match x.value with | .error e => _ | .ok a => _) = _
  rw [ok]

lemma bind_of_error {x : Attempt ω ε α} {f : α → Attempt ω ε β} {e : ε} (raised : x.value = .error e) :
    x >>= f = ⟨x.emitted, .error e⟩ := by
  show (match x.value with | .error e => _ | .ok a => _) = _
  rw [raised]

lemma mem_emitted_bind {x : Attempt ω ε α} {f : α → Attempt ω ε β} {o : ω} :
    o ∈ (x >>= f).emitted ↔ o ∈ x.emitted ∨ ∃ a, x.value = .ok a ∧ o ∈ (f a).emitted := by
  cases value : x.value with
  | error e => simp [bind_of_error value]
  | ok a => simp [bind_of_ok value]

@[simp] lemma ofExcept_ok_bind {a : α} {f : α → Attempt ω ε β} : (ofExcept (.ok a) : Attempt ω ε α) >>= f = f a :=
  bind_of_ok (x := ofExcept (.ok a)) rfl

@[simp] lemma ofExcept_error_bind {e : ε} {f : α → Attempt ω ε β} :
    (ofExcept (.error e) : Attempt ω ε α) >>= f = ⟨[], .error e⟩ :=
  bind_of_error (x := ofExcept (.error e)) rfl

/-! ## Loops -/

/-- `for a in l: f(a)`. -/
def each (f : α → Attempt ω ε Unit) : List α → Attempt ω ε Unit
  | [] => pure ()
  | a :: l => do
    f a
    each f l

lemma each_of_ok {f : α → Attempt ω ε Unit} {l : List α} (ok : ∀ a ∈ l, (f a).value = .ok ()) :
    each f l = ⟨l.flatMap fun a => (f a).emitted, .ok ()⟩ := by
  induction l with
  | nil => rfl
  | cons a l ih =>
    have head : (f a).value = .ok () := ok a List.mem_cons_self
    have tail := ih fun b mem => ok b (List.mem_cons_of_mem a mem)
    rw [each, bind_of_ok head, tail]
    simp

end Attempt

end Workbench.Lib
