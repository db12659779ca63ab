import Mathlib.Tactic

/-!
# Machines and their runs

A `Machine` is a labelled transition system given by a partial step function: the label carries
every choice the environment makes (which process moves, what it read, what the outside world did),
so that a run is a list of labels and can be executed. `run` folds the step function over such a
list, `Meets` says that every label of a run is taken in a state that satisfies a side condition.

The three proof rules are `run_invariant` (what one step preserves, a run preserves), `run_relation`
(a reflexive and transitive relation that every step respects, a run respects) and `run_lockstep` (a
relation between the states of two machines that every step keeps, runs keep); all take the side
condition, so that a law which only holds of well-behaved runs is still proved one step at a time.
-/

namespace Workbench.Lib
open Option

/-- A labelled transition system with an executable, partial step function. -/
structure Machine (σ ι : Type*) where
  step : σ → ι → Option σ

namespace Machine

variable {σ τ ι : Type*} (M : Machine σ ι)

/-- Take the labels in order; `none` when one of them is not enabled. -/
def run : σ → List ι → Option σ
  | s, [] => some s
  | s, l :: ls => (M.step s l).bind (run · ls)

/-- Every label of the run is taken in a state that meets `C`. -/
def Meets (C : σ → ι → Prop) : σ → List ι → Prop
  | _, [] => True
  | s, l :: ls => C s l ∧ (M.step s l).elim True (Meets C · ls)

instance decidableMeets (C : σ → ι → Prop) [∀ s l, Decidable (C s l)] :
    ∀ s ls, Decidable (M.Meets C s ls)
  | _, [] => isTrue trivial
  | s, l :: ls =>
    have : Decidable ((M.step s l).elim True (M.Meets C · ls)) :=
      match M.step s l with
      | none => isTrue trivial
      | some t => decidableMeets C t ls
    inferInstanceAs (Decidable (C s l ∧ _))

variable {M}

@[simp] lemma run_nil {s : σ} : M.run s [] = some s := rfl

lemma run_cons {s t : σ} {l : ι} {ls : List ι} :
    M.run s (l :: ls) = some t ↔ ∃ u, M.step s l = some u ∧ M.run u ls = some t := by
  simp [run, bind_eq_some_iff]

lemma observe {α : Type*} {s t : σ} {ls : List ι} {f : σ → α} {x : α} (run : M.run s ls = some t)
    (eq : (M.run s ls).map f = some x) : f t = x := by
  rw [run] at eq
  exact some.inj eq

lemma exists_run {P : σ → Prop} {s : σ} {ls : List ι} (ends : (M.run s ls).isSome = true)
    (holds : ∀ t, M.run s ls = some t → P t) : ∃ t, M.run s ls = some t ∧ P t := by
  obtain ⟨t, run⟩ := isSome_iff_exists.1 ends
  exact ⟨t, run, holds t run⟩

lemma meets_cons {C : σ → ι → Prop} {s : σ} {l : ι} {ls : List ι} :
    M.Meets C s (l :: ls) ↔ C s l ∧ ∀ t, M.step s l = some t → M.Meets C t ls := by
  simp only [Meets]
  cases M.step s l <;> simp

lemma run_append {s t : σ} {ls ls' : List ι} :
    M.run s (ls ++ ls') = some t ↔ ∃ u, M.run s ls = some u ∧ M.run u ls' = some t := by
  induction ls generalizing s with
  | nil => simp
  | cons l ls ih => simp only [List.cons_append, run_cons, ih]; grind

lemma Meets.append {C : σ → ι → Prop} {s u : σ} {ls ls' : List ι}
    (h : M.Meets C s (ls ++ ls')) (e : M.run s ls = some u) : M.Meets C s ls ∧ M.Meets C u ls' := by
  induction ls generalizing s with
  | nil => cases e; exact ⟨trivial, h⟩
  | cons l ls ih =>
    obtain ⟨t, st, e⟩ := run_cons.1 e
    rw [List.cons_append, meets_cons] at h
    obtain ⟨h1, h2⟩ := ih (h.2 t st) e
    refine ⟨meets_cons.2 ⟨h.1, ?_⟩, h2⟩
    intro t' st'
    rw [st] at st'
    cases st'
    exact h1

lemma Meets.concat {C : σ → ι → Prop} {s u : σ} {ls ls' : List ι} (h : M.Meets C s ls)
    (e : M.run s ls = some u) (h' : M.Meets C u ls') : M.Meets C s (ls ++ ls') := by
  induction ls generalizing s with
  | nil => cases e; exact h'
  | cons l ls ih =>
    obtain ⟨t, st, e⟩ := run_cons.1 e
    rw [List.cons_append, meets_cons]
    rw [meets_cons] at h
    refine ⟨h.1, fun t' st' => ?_⟩
    rw [st] at st'
    cases st'
    exact ih (h.2 t st) e

lemma meets_of_forall {C : σ → ι → Prop} {s : σ} {ls : List ι} (h : ∀ l ∈ ls, ∀ s, C s l) : M.Meets C s ls := by
  induction ls generalizing s with
  | nil => trivial
  | cons l ls ih =>
    exact meets_cons.2 ⟨h l (by simp) s, fun _ _ => ih fun l' mem => h l' (by simp [mem])⟩

lemma Meets.of_invariant {C D : σ → ι → Prop} {I : σ → Prop} {s : σ} {ls : List ι}
    (pres : ∀ {s l t}, I s → D s l → M.step s l = some t → I t) (imp : ∀ {s l}, I s → D s l → C s l)
    (inv : I s) (h : M.Meets D s ls) : M.Meets C s ls := by
  induction ls generalizing s with
  | nil => trivial
  | cons l ls ih =>
    rw [meets_cons] at h ⊢
    exact ⟨imp inv h.1, fun t st => ih (pres inv h.1 st) (h.2 t st)⟩

lemma meets_true {s : σ} {ls : List ι} : M.Meets (fun _ _ => True) s ls :=
  meets_of_forall fun _ _ _ => trivial

/-- What every step that meets the condition preserves, every run that meets it preserves. -/
theorem run_invariant {C : σ → ι → Prop} {I : σ → Prop} (pres : ∀ {s l t}, I s → C s l → M.step s l = some t → I t)
    {s t : σ} {ls : List ι} (inv : I s) (h : M.Meets C s ls) (e : M.run s ls = some t) : I t := by
  induction ls generalizing s with
  | nil => cases e; exact inv
  | cons l ls ih =>
    obtain ⟨u, st, e⟩ := run_cons.1 e
    rw [meets_cons] at h
    exact ih (pres inv h.1 st) (h.2 u st) e

/-- A relation that is reflexive and transitive, and that every step from an invariant state
    respects, relates the ends of every run. -/
theorem run_relation {C : σ → ι → Prop} {I : σ → Prop} {R : σ → σ → Prop}
    (refl : ∀ s, R s s) (trans : ∀ {s t u}, R s t → R t u → R s u)
    (pres : ∀ {s l t}, I s → C s l → M.step s l = some t → I t)
    (resp : ∀ {s l t}, I s → C s l → M.step s l = some t → R s t)
    {s t : σ} {ls : List ι} (inv : I s) (h : M.Meets C s ls) (e : M.run s ls = some t) : R s t := by
  induction ls generalizing s with
  | nil => cases e; exact refl _
  | cons l ls ih =>
    obtain ⟨u, st, e⟩ := run_cons.1 e
    rw [meets_cons] at h
    exact trans (resp inv h.1 st) (ih (pres inv h.1 st) (h.2 u st) e)

/-- Two machines that keep a relation at every step keep it along a run, whatever is done in the
    first is enabled in the second. -/
theorem run_lockstep {N : Machine τ ι} {C : σ → ι → Prop} {R : σ → τ → Prop}
    (sim : ∀ {s l s' t}, R s t → C s l → M.step s l = some s' → ∃ t', N.step t l = some t' ∧ R s' t')
    {s s' : σ} {t : τ} {ls : List ι} (rel : R s t) (h : M.Meets C s ls) (e : M.run s ls = some s') :
    ∃ t', N.run t ls = some t' ∧ R s' t' := by
  induction ls generalizing s t with
  | nil => cases e; exact ⟨t, rfl, rel⟩
  | cons l ls ih =>
    obtain ⟨u, st, e⟩ := run_cons.1 e
    rw [meets_cons] at h
    obtain ⟨v, st', rel'⟩ := sim rel h.1 st
    obtain ⟨t', e', rel''⟩ := ih rel' (h.2 u st) e
    exact ⟨t', run_cons.2 ⟨v, st', e'⟩, rel''⟩

end Machine

end Workbench.Lib
