import Mathlib.Data.Prod.Lex
import Mathlib.Order.Basic
import Workbench.Lib.IsoTime

/-!
# Calendar dates

`date` with its order, its ISO 8601 text, and inclusive ranges of dates. The text of a date reads back as the
date (`fromisoformat_isoformat`), and two ranges overlap when they have a day in common (`overlaps_iff`).
-/

namespace Workbench.Lib

/-- A `date`. -/
structure Date where
  year : Nat
  month : Nat
  day : Nat
  valid : (DateTimeFields.mk year month day 0 0 0 0 none).Valid
deriving DecidableEq

namespace Date

/-- `date(...)`; `none` is a `ValueError`. -/
def make (year month day : Nat) : Option Date :=
  if valid : (DateTimeFields.mk year month day 0 0 0 0 none).Valid then some ⟨year, month, day, valid⟩ else none

def midnight (d : Date) : DateTime := ⟨_, d.valid⟩

/-- `d.isoformat()`. -/
def isoformat (d : Date) : String := String.ofList (DateTime.dateText d.midnight.1)

/-- `date.fromisoformat(s)`; `none` is a `ValueError`. -/
def fromisoformat (s : String) : Option Date :=
  if s.toList.length ∈ [7, 8, 10] then
    (DateTime.parseDate s.toList).bind fun p => make p.1 p.2.1 p.2.2
  else none

/-- The text of a date reads back as the date. -/
theorem fromisoformat_isoformat (d : Date) : fromisoformat d.isoformat = some d := by
  have text : d.isoformat.toList = DateTime.dateText d.midnight.1 := String.toList_ofList
  rw [fromisoformat, text, DateTime.length_dateText, if_pos (by decide), DateTime.parseDate_dateText]
  exact dif_pos d.valid

def key (d : Date) : Nat ×ₗ Nat ×ₗ Nat := toLex (d.year, toLex (d.month, d.day))

lemma key_injective : Function.Injective key := by
  intro a b eq
  cases a
  cases b
  simp only [key, EmbeddingLike.apply_eq_iff_eq, Prod.mk.injEq] at eq
  obtain ⟨rfl, rfl, rfl⟩ := eq
  rfl

instance : LinearOrder Date := LinearOrder.lift' key key_injective

end Date

/-- An inclusive range of dates. -/
structure DateRange where
  start : Date
  ends : Date
  ordered : start ≤ ends
deriving DecidableEq

namespace DateRange

/-- The days of a range. -/
instance : Membership Date DateRange := ⟨fun r d => r.start ≤ d ∧ d ≤ r.ends⟩

/-- `DateRange.overlaps`. -/
def overlaps (r r' : DateRange) : Bool := r.start ≤ r'.ends && r'.start ≤ r.ends

/-- `DateRange.contains`. -/
def contains (r r' : DateRange) : Bool := r.start ≤ r'.start && r'.ends ≤ r.ends

variable {r r' : DateRange}

lemma mem_iff {d : Date} : d ∈ r ↔ r.start ≤ d ∧ d ≤ r.ends := Iff.rfl

/-- Ranges overlap when they have a day in common. -/
theorem overlaps_iff : r.overlaps r' = true ↔ ∃ d, d ∈ r ∧ d ∈ r' := by
  simp only [overlaps, Bool.and_eq_true, decide_eq_true_eq, mem_iff]
  constructor
  · intro ⟨before, before'⟩
    exact ⟨max r.start r'.start, ⟨le_max_left _ _, max_le r.ordered before'⟩,
      le_max_right _ _, max_le before r'.ordered⟩
  · intro ⟨d, ⟨after, upto⟩, after', upto'⟩
    exact ⟨after.trans upto', after'.trans upto⟩

lemma mem_of_contains {d : Date} (within : r.contains r' = true) (mem : d ∈ r') : d ∈ r := by
  simp only [contains, Bool.and_eq_true, decide_eq_true_eq] at within
  exact ⟨within.1.trans mem.1, mem.2.trans within.2⟩

end DateRange

end Workbench.Lib
