import Mathlib.Tactic

/-!
# Computations that may raise

`Except` read backwards: what a sequence of checks that ended well has passed. `raiseIf` is one check; the simp
lemmas peel the checks off one by one.
-/

namespace Workbench.Lib

variable {ε : Type*} {α β : Type}

/-- `if c: raise e`. -/
def raiseIf (c : Prop) [Decidable c] (e : ε) : Except ε Unit := if c then .error e else .ok ()

def orRaise (x : Option α) (e : ε) : Except ε α := x.elim (.error e) .ok

lemma bind_eq_ok {x : Except ε α} {f : α → Except ε β} {b : β} : (x >>= f) = .ok b ↔ ∃ a, x = .ok a ∧ f a = .ok b := by
  cases x with
  | error e => exact ⟨fun eq => (by cases eq), fun ⟨_, eq, _⟩ => (by cases eq)⟩
  | ok a => exact ⟨fun eq => ⟨a, rfl, eq⟩, fun ⟨_, eq, eq'⟩ => by cases eq; exact eq'⟩

@[simp] lemma raiseIf_eq_ok {c : Prop} [Decidable c] {e : ε} {u : Unit} : raiseIf c e = .ok u ↔ ¬ c := by
  by_cases h : c
  · simp [raiseIf, h]
  · simp [raiseIf, h]

@[simp] lemma orRaise_eq_ok {x : Option α} {e : ε} {a : α} : orRaise x e = .ok a ↔ x = some a := by
  cases x with
  | none => simp [orRaise]
  | some b => simp [orRaise]

@[simp] lemma raiseIf_bind_eq_ok {c : Prop} [Decidable c] {e : ε} {f : Unit → Except ε β} {b : β} :
    (raiseIf c e >>= f) = .ok b ↔ ¬ c ∧ f () = .ok b := by
  rw [bind_eq_ok]
  constructor
  · intro ⟨_, passed, eq⟩
    exact ⟨raiseIf_eq_ok.1 passed, eq⟩
  · intro ⟨passed, eq⟩
    exact ⟨(), raiseIf_eq_ok.2 passed, eq⟩

@[simp] lemma orRaise_bind_eq_ok {x : Option α} {e : ε} {f : α → Except ε β} {b : β} :
    (orRaise x e >>= f) = .ok b ↔ ∃ a, x = some a ∧ f a = .ok b := by
  simp only [bind_eq_ok, orRaise_eq_ok]

end Workbench.Lib
