import Mathlib.Data.List.TakeWhile
import Mathlib.Tactic

/-!
# Records

A record is the list of what happened, newest first. `Each P` says that every entry stands in the
relation `P` to what had been recorded before it, `since mark` is what was recorded after the last
`mark`.
-/

namespace Workbench.Lib.Record
open List

variable {ε : Type*} {P : ε → List ε → Prop} {e x mark : ε} {evs log : List ε}

/-- Every entry stands in the relation `P` to what was recorded before it. -/
def Each (P : ε → List ε → Prop) (log : List ε) : Prop :=
  ∀ later e earlier, log = later ++ e :: earlier → P e earlier

lemma each_nil : Each P [] := by
  intro later e earlier eq
  simp at eq

lemma each_cons : Each P (e :: log) ↔ P e log ∧ Each P log := by
  constructor
  · intro h
    refine ⟨h [] e log rfl, ?_⟩
    intro later x earlier eq
    exact h (e :: later) x earlier (by rw [eq]; rfl)
  · rintro ⟨p, h⟩ later x earlier eq
    cases later with
    | nil => cases eq; exact p
    | cons y later => cases eq; exact h later x earlier rfl

lemma Each.append (h : Each P log) (triv : ∀ e ∈ evs, ∀ earlier, P e earlier) : Each P (evs ++ log) := by
  induction evs with
  | nil => exact h
  | cons e evs ih =>
    rw [cons_append, each_cons]
    exact ⟨triv e mem_cons_self _, ih fun x mem => triv x (mem_cons_of_mem _ mem)⟩

lemma Each.mono {Q : ε → List ε → Prop} (h : Each P log) (imp : ∀ e earlier, P e earlier → Q e earlier) : Each Q log :=
  fun later e earlier eq => imp e earlier (h later e earlier eq)

variable [DecidableEq ε]

/-- What was recorded since the last `mark`. -/
def since (mark : ε) (log : List ε) : List ε := log.takeWhile (· ≠ mark)

lemma since_cons_of_ne (ne : e ≠ mark) : since mark (e :: log) = e :: since mark log := by
  simp [since, ne]

lemma mem_since_append (none : mark ∉ evs) (mem : x ∈ since mark log) : x ∈ since mark (evs ++ log) := by
  induction evs with
  | nil => exact mem
  | cons e evs ih =>
    rw [mem_cons, not_or] at none
    rw [cons_append, since_cons_of_ne (Ne.symm none.1)]
    exact mem_cons_of_mem _ (ih none.2)

lemma mem_or_mem_of_since_append (mem : x ∈ since mark (evs ++ log)) : x ∈ evs ∨ x ∈ since mark log := by
  induction evs with
  | nil => exact .inr mem
  | cons e evs ih =>
    by_cases eq : e = mark
    · simp [since, eq] at mem
    · rw [cons_append, since_cons_of_ne eq] at mem
      rcases mem_cons.1 mem with rfl | mem
      · exact .inl mem_cons_self
      · rcases ih mem with mem | mem
        · exact .inl (mem_cons_of_mem _ mem)
        · exact .inr mem

lemma not_mem_since_mark : x ∉ since mark (mark :: log) := by
  simp [since]

end Workbench.Lib.Record
