import Workbench.Strategies.Crontab

/-!
# Crontab weekdays keep their meaning

A field without wildcard and step is rewritten to names, which the library counts as a crontab does; only a range that
starts on Sunday comes out wrong, because Sunday is the library's last day. A field with a wildcard or a step is passed
through, so its numbers are read from Monday. `KeepsMeaning` is the condition under which a field keeps its standard
meaning (`cron_days_iff`).
-/

set_option linter.dupNamespace false

namespace Workbench.Strategies.Crontab
open List

/-! ## Texts -/

section Words
variable {s w : Text} {ws : List Text}

lemma mem_splitOnP {p : Char → Bool} (mem : w ∈ s.splitOnP p) : ∀ c ∈ w, p c = false := by
  induction s generalizing w with
  | nil =>
    obtain rfl := mem_singleton.1 mem
    exact nofun
  | cons x s ih =>
    rw [splitOnP_cons_eq_if_modifyHead] at mem
    split at mem
    · obtain rfl | later := mem_cons.1 mem
      · exact nofun
      · exact ih later
    · rename_i other
      cases pieces : s.splitOnP p with
      | nil => exact absurd pieces (splitOnP_ne_nil p s)
      | cons first rest =>
        rw [pieces] at mem ih
        obtain rfl | later := mem_cons.1 mem
        · intro c inside
          obtain rfl | old := mem_cons.1 inside
          · simpa using other
          · exact ih mem_cons_self c old
        · exact ih (mem_cons_of_mem _ later)

def IsWord (w : Text) : Prop := w ≠ [] ∧ ∀ c ∈ w, isSpace c = false

lemma isWord_of_mem (mem : w ∈ words s) : IsWord w := by
  obtain ⟨piece, some⟩ := mem_filter.1 mem
  exact ⟨of_decide_eq_true some, mem_splitOnP piece⟩

lemma words_join (each : ∀ w ∈ ws, IsWord w) : words (join ' ' ws) = ws := by
  induction ws with
  | nil => rfl
  | cons w ws ih =>
    obtain ⟨some, solid⟩ := each w mem_cons_self
    have rest := ih fun w mem => each w (mem_cons_of_mem _ mem)
    cases ws with
    | nil =>
      rw [join, intercalate_singleton, words, splitOnP_eq_singleton solid]
      simp [some]
    | cons w' ws =>
      have joined : join ' ' (w :: w' :: ws) = w ++ ' ' :: join ' ' (w' :: ws) := by
        simp [join, intercalate_cons_of_ne_nil]
      rw [words] at rest
      rw [joined, words, splitOnP_append_cons_of_forall_mem solid ' ' (by decide),
        filter_cons_of_pos (by simpa), rest]

end Words

/-! ## Written numbers -/

section Written
variable {d : Digits} {c : Char}

lemma Digits.isDigit (mem : c ∈ d.chars) : c.isDigit = true := by
  have digits := d.digits
  rw [isDigits, Bool.and_eq_true] at digits
  exact all_eq_true.1 digits.2 c mem

lemma Digits.ne_nil : d.chars ≠ [] := by
  have digits := d.digits
  rw [isDigits, Bool.and_eq_true] at digits
  exact of_decide_eq_true digits.1

lemma Digits.notMem (sign : c.isDigit = false) : c ∉ d.chars := by
  intro mem
  rw [d.isDigit mem] at sign
  cases sign

end Written

/-! ## The text of a field -/

section Field
variable {item : Item} {field : List Item} {c : Char}

lemma mem_join {sep : Char} {parts : List Text} (mem : c ∈ join sep parts) : c = sep ∨ ∃ t ∈ parts, c ∈ t := by
  induction parts with
  | nil => exact absurd mem not_mem_nil
  | cons t parts ih =>
    cases parts with
    | nil =>
      rw [join, intercalate_singleton] at mem
      exact .inr ⟨t, mem_cons_self, mem⟩
    | cons t' parts =>
      have joined : join sep (t :: t' :: parts) = t ++ sep :: join sep (t' :: parts) := by
        simp [join, intercalate_cons_of_ne_nil]
      rw [joined, mem_append, mem_cons] at mem
      obtain first | rfl | later := mem
      · exact .inr ⟨t, mem_cons_self, first⟩
      · exact .inl rfl
      · obtain eq | ⟨u, inside, mem⟩ := ih later
        · exact .inl eq
        · exact .inr ⟨u, mem_cons_of_mem _ inside, mem⟩

lemma mem_join_of_mem {sep : Char} {parts : List Text} {t : Text} (inside : t ∈ parts) (mem : c ∈ t) :
    c ∈ join sep parts := by
  induction parts with
  | nil => cases inside
  | cons u parts ih =>
    cases parts with
    | nil =>
      obtain rfl := mem_singleton.1 inside
      rwa [join, intercalate_singleton]
    | cons u' parts =>
      have joined : join sep (u :: u' :: parts) = u ++ sep :: join sep (u' :: parts) := by
        simp [join, intercalate_cons_of_ne_nil]
      rw [joined, mem_append, mem_cons]
      obtain rfl | later := mem_cons.1 inside
      · exact .inl mem
      · exact .inr (.inr (ih later))

lemma digit_solid (digit : c.isDigit = true) : isSpace c = false ∧ c ≠ ',' := by
  obtain ⟨low, high⟩ := Char.isDigit_iff_toNat.1 digit
  have low : 48 ≤ c.toNat := low
  have high : c.toNat ≤ 57 := high
  constructor
  · simp only [isSpace, mem_cons, not_mem_nil, or_false, Bool.or_eq_false_iff, Bool.and_eq_false_iff,
      decide_eq_false_iff_not]
    omega
  · intro eq
    subst eq
    cases digit

lemma name_solid : ∀ day : Fin 7, ∀ c ∈ Item.nameOf day, isSpace c = false ∧ c ≠ ',' := by
  intro day
  have letters : (Item.nameOf day).all (fun c => !isSpace c && c != ',') = true := by
    fin_cases day <;> rfl
  intro c mem
  simpa using all_eq_true.1 letters c mem

lemma text_solid (mem : c ∈ item.text) : isSpace c = false ∧ c ≠ ',' := by
  cases item with
  | number d => exact digit_solid (d.isDigit mem)
  | range first last =>
    obtain mem | mem := mem_append.1 mem
    · exact digit_solid (first.isDigit mem)
    · obtain rfl | mem := mem_cons.1 mem
      · decide
      · exact digit_solid (last.isDigit mem)
  | stepped first last step =>
    simp only [Item.text, append_assoc, cons_append, mem_append, mem_cons] at mem
    obtain mem | rfl | mem | rfl | mem := mem
    · exact digit_solid (first.isDigit mem)
    · decide
    · exact digit_solid (last.isDigit mem)
    · decide
    · exact digit_solid (step.isDigit mem)
  | every =>
    obtain rfl := mem_singleton.1 mem
    decide
  | everyNth step =>
    simp only [Item.text, mem_cons] at mem
    obtain rfl | rfl | mem := mem
    · decide
    · decide
    · exact digit_solid (step.isDigit mem)
  | name day => exact name_solid day c mem
  | nameRange first last =>
    obtain mem | mem := mem_append.1 mem
    · exact name_solid first c mem
    · obtain rfl | mem := mem_cons.1 mem
      · decide
      · exact name_solid last c mem

lemma text_ne_nil : item.text ≠ [] := by
  cases item with
  | number d => exact d.ne_nil
  | range first last => simp [Item.text]
  | stepped first last step => simp [Item.text]
  | every => exact cons_ne_nil _ _
  | everyNth step => exact cons_ne_nil _ _
  | name day =>
    revert day
    decide
  | nameRange first last => simp [Item.text]

lemma isWord_fieldText (items : field ≠ []) : IsWord (fieldText field) := by
  constructor
  · obtain ⟨item, rest, rfl⟩ := exists_cons_of_ne_nil items
    have nonempty : item.text ≠ [] := text_ne_nil
    obtain ⟨c, cs, eq⟩ := exists_cons_of_ne_nil nonempty
    have mem : c ∈ fieldText (item :: rest) :=
      mem_join_of_mem (mem_map_of_mem mem_cons_self) (eq ▸ mem_cons_self)
    exact ne_nil_of_mem mem
  · intro c mem
    obtain rfl | ⟨t, inside, mem⟩ := mem_join mem
    · decide
    · obtain ⟨item, -, rfl⟩ := mem_map.1 inside
      exact (text_solid mem).1

lemma texts_solid : ∀ t ∈ field.map Item.text, ',' ∉ t ∧ ' ' ∉ t := by
  intro t inside
  obtain ⟨item, -, rfl⟩ := mem_map.1 inside
  constructor
  · exact fun mem => (text_solid mem).2 rfl
  · exact fun mem => nomatch (text_solid mem).1

end Field

/-! ## The rewrite of a field -/

def Item.UsesSteps : Item → Prop
  | stepped .. | every | everyNth _ => True
  | number _ | range .. | name _ | nameRange .. => False

/-- A number of a crontab as a day of the library. -/
def dayOf (n : Nat) : Fin 7 := ⟨Item.cronDay n, Nat.mod_lt _ (by decide)⟩

def Item.named : Item → Item
  | number d => name (dayOf d.value)
  | range first last => nameRange (dayOf first.value) (dayOf last.value)
  | item => item

section Rewrite
variable {item : Item} {field : List Item} {expr minute hour day month : Text}

lemma usesSteps_iff : '*' ∈ item.text ∨ '/' ∈ item.text ↔ item.UsesSteps := by
  have digits (d : Digits) : '*' ∉ d.chars ∧ '/' ∉ d.chars := ⟨d.notMem rfl, d.notMem rfl⟩
  have names : ∀ day : Fin 7, '*' ∉ Item.nameOf day ∧ '/' ∉ Item.nameOf day := by decide
  cases item with
  | number d => simp [Item.text, Item.UsesSteps, digits]
  | range first last => simp [Item.text, Item.UsesSteps, digits]
  | stepped first last step => simp [Item.text, Item.UsesSteps, digits]
  | every => simp [Item.text, Item.UsesSteps]
  | everyNth step => simp [Item.text, Item.UsesSteps]
  | name day => simp [Item.text, Item.UsesSteps, names]
  | nameRange first last => simp [Item.text, Item.UsesSteps, names]

lemma field_usesSteps_iff : '*' ∈ fieldText field ∨ '/' ∈ fieldText field ↔ ∃ item ∈ field, item.UsesSteps := by
  have sign {c : Char} (ne : c ≠ ',') : c ∈ fieldText field ↔ ∃ item ∈ field, c ∈ item.text := by
    constructor
    · intro mem
      obtain eq | ⟨t, part, mem⟩ := mem_join mem
      · exact absurd eq ne
      · obtain ⟨item, inside, rfl⟩ := mem_map.1 part
        exact ⟨item, inside, mem⟩
    · intro found
      obtain ⟨item, inside, mem⟩ := found
      exact mem_join_of_mem (mem_map_of_mem inside) mem
  rw [sign (by decide), sign (by decide), ← exists_or]
  simp only [← and_or_left, usesSteps_iff]

lemma endpointName_eq {d : Digits} (le : d.value ≤ 7) : endpointName d.chars = some (Item.nameOf (dayOf d.value)) := by
  have names : ∀ n ≤ 7, cronDowNames n = Item.nameOf (dayOf n) := by decide
  rw [endpointName, if_pos ⟨d.digits, le⟩]
  exact congrArg some (names d.value le)

lemma token_text (standard : item.Standard) (plain : ¬ item.UsesSteps) : token item.text = item.named.text := by
  have dash (d : Digits) : '-' ∉ d.chars := d.notMem rfl
  cases item with
  | number d =>
    have pieces : d.chars.splitOn '-' = [d.chars] := splitOn_eq_singleton (dash d)
    simp [token, Item.text, pieces, endpointName_eq standard, join, Item.named]
  | range first last =>
    have pieces : (first.chars ++ '-' :: last.chars).splitOn '-' = [first.chars, last.chars] := by
      rw [splitOn_append_cons_self_of_not_mem (dash first), splitOn_eq_singleton (dash last)]
    have le : first.value ≤ 7 := standard.1.trans standard.2
    simp [token, Item.text, pieces, endpointName_eq le, endpointName_eq standard.2, join, Item.named,
      intercalate_cons_of_ne_nil]
  | stepped first last step => exact absurd trivial plain
  | every => exact absurd trivial plain
  | everyNth step => exact absurd trivial plain
  | name day => exact standard.elim
  | nameRange first last => exact standard.elim

lemma tokens_fieldText (items : field ≠ []) (standard : ∀ item ∈ field, item.Standard)
    (plain : ∀ item ∈ field, ¬ item.UsesSteps) :
    join ',' (((fieldText field).splitOn ',').map token) = fieldText (field.map Item.named) := by
  have pieces : (fieldText field).splitOn ',' = field.map Item.text := by
    apply splitOn_intercalate
    · exact fun t inside => (texts_solid t inside).1
    · simpa using items
  rw [pieces, fieldText, map_map, map_map]
  congr 1
  apply map_congr_left
  intro item inside
  exact token_text (standard item inside) (plain item inside)

lemma words_normalize_of_steps (split : words expr = [minute, hour, day, month, fieldText field])
    (steps : ∃ item ∈ field, item.UsesSteps) :
    words (normalizeCrontabDow expr) = [minute, hour, day, month, fieldText field] := by
  rw [normalizeCrontabDow, split]
  simp only
  rw [if_pos (field_usesSteps_iff.2 steps), split]

lemma words_normalize_of_plain (split : words expr = [minute, hour, day, month, fieldText field]) (items : field ≠ [])
    (standard : ∀ item ∈ field, item.Standard) (plain : ∀ item ∈ field, ¬ item.UsesSteps) :
    words (normalizeCrontabDow expr) = [minute, hour, day, month, fieldText (field.map Item.named)] := by
  have signs : ¬ ('*' ∈ fieldText field ∨ '/' ∈ fieldText field) := by
    rw [field_usesSteps_iff]
    exact fun steps => let ⟨item, inside, uses⟩ := steps; plain item inside uses
  rw [normalizeCrontabDow, split]
  simp only
  rw [if_neg signs, tokens_fieldText items standard plain]
  apply words_join
  have old : ∀ w ∈ words expr, IsWord w := fun w mem => isWord_of_mem mem
  rw [split] at old
  intro w mem
  simp only [mem_cons, not_mem_nil, or_false] at mem old
  obtain rfl | rfl | rfl | rfl | rfl := mem
  · exact old _ (.inl rfl)
  · exact old _ (.inr (.inl rfl))
  · exact old _ (.inr (.inr (.inl rfl)))
  · exact old _ (.inr (.inr (.inr (.inl rfl))))
  · exact isWord_fieldText (by simpa using items)

end Rewrite

/-! ## What the library reads -/

section Library
variable {τ : Type*} {lib : Apscheduler τ} {field : List Item} {item : Item} {expr minute hour day month : Text}
  {times : τ} {d : Nat}

@[simp] lemma mem_allDays {sets : List (Finset Nat)} : d ∈ allDays sets ↔ ∃ s ∈ sets, d ∈ s := by
  induction sets with
  | nil => simp [allDays]
  | cons s sets ih =>
    rw [allDays, foldr_cons, Finset.mem_union, exists_mem_cons_iff]
    exact or_congr_right ih

/-- The days that the library reads in a field. -/
def readDays (stepLimit : Nat → Nat → Nat) (field : List Item) : Finset Nat :=
  allDays (field.map fun item => (item.read stepLimit).getD ∅)

lemma fromCrontab_of_reads (doc : lib.Documented) (split : words expr = [minute, hour, day, month, fieldText field])
    (items : field ≠ []) (known : lib.times minute hour day month = some times)
    (reads : ∀ item ∈ field, (item.read lib.stepLimit).isSome = true) :
    fromCrontab lib expr = some (times, readDays lib.stepLimit field) := by
  have each : ∀ t ∈ field.map Item.text, (lib.days t).isSome = true := by
    intro t part
    obtain ⟨item, inside, rfl⟩ := mem_map.1 part
    rw [doc.item]
    exact reads item inside
  have days : lib.days (fieldText field) = some (readDays lib.stepLimit field) := by
    rw [fieldText, doc.list _ (by simpa using items) texts_solid each, map_map, readDays]
    congr 2
    apply map_congr_left
    intro item _
    rw [Function.comp_apply, doc.item]
  simp [fromCrontab, split, known, days]

lemma fromCrontab_of_rejected (doc : lib.Documented) (split : words expr = [minute, hour, day, month, fieldText field])
    (inside : item ∈ field) (rejected : item.read lib.stepLimit = none) : fromCrontab lib expr = none := by
  have days : lib.days (fieldText field) = none := by
    apply doc.rejects _ texts_solid item.text (mem_map_of_mem inside)
    rw [doc.item, rejected]
  simp [fromCrontab, split, days]

end Library

/-! ## When a field keeps its meaning -/

def Item.Wraps : Item → Prop
  | range first last => first.value = 0 ∧ 0 < last.value ∧ last.value ≤ 6
  | _ => False

def Item.WholeWeek : Item → Prop
  | range first last => first.value = 0 ∧ last.value = 7
  | _ => False

/-- An item that the library takes as it stands: no number past six, no step over the limit. -/
def Item.Taken (stepLimit : Nat → Nat → Nat) : Item → Prop
  | number d => d.value ≤ 6
  | range _ last => last.value ≤ 6
  | stepped first last step => last.value ≤ 6 ∧ step.value ≤ stepLimit first.value last.value
  | every => True
  | everyNth step => step.value ≤ stepLimit 0 6
  | name _ | nameRange .. => True

/-- The condition under which a field keeps its standard meaning: with a wildcard or a step, that it is taken as it
stands and names every day; without, that no range leads from Sunday into the week, and that a range from Sunday to
Sunday is made up for by the other items. -/
def KeepsMeaning (stepLimit : Nat → Nat → Nat) (field : List Item) : Prop :=
  ((∃ item ∈ field, item.UsesSteps) →
    (∀ item ∈ field, item.Taken stepLimit) ∧ fieldDays field = Finset.range 7) ∧
  ((∀ item ∈ field, ¬ item.UsesSteps) →
    (∀ item ∈ field, ¬ item.Wraps) ∧
      ((∃ item ∈ field, item.WholeWeek) → ∀ d < 6, ∃ item ∈ field, ¬ item.WholeWeek ∧ d ∈ item.standardDays))

section Meaning
variable {stepLimit : Nat → Nat → Nat} {field : List Item} {item : Item} {d : Nat}

lemma mem_fieldDays : d ∈ fieldDays field ↔ ∃ item ∈ field, d ∈ item.standardDays := by
  simp [fieldDays]

lemma mem_readDays : d ∈ readDays stepLimit field ↔ ∃ item ∈ field, d ∈ (item.read stepLimit).getD ∅ := by
  simp [readDays]

lemma standardDays_of_wholeWeek (whole : item.WholeWeek) : item.standardDays = Finset.range 7 := by
  cases item with
  | range first last =>
    rw [Item.standardDays, whole.1, whole.2]
    decide
  | number d => exact whole.elim
  | stepped first last step => exact whole.elim
  | every => exact whole.elim
  | everyNth step => exact whole.elim
  | name day => exact whole.elim
  | nameRange first last => exact whole.elim

/-- What the library reads in a rewritten item: nothing in a range from Sunday into the week, Sunday alone in a range
from Sunday to Sunday, and what the item means otherwise. -/
lemma read_named (standard : item.Standard) (plain : ¬ item.UsesSteps) :
    (item.Wraps → item.named.read stepLimit = none) ∧ (item.WholeWeek → item.named.read stepLimit = some {6}) ∧
    (¬ item.Wraps → ¬ item.WholeWeek → item.named.read stepLimit = some item.standardDays) := by
  cases item with
  | number d => exact ⟨False.elim, False.elim, fun _ _ => rfl⟩
  | range first last =>
    -- the endpoints are numbers up to seven
    have wraps : ∀ b < 8, 0 < b → b ≤ 6 → ¬ dayOf 0 ≤ dayOf b := by decide
    have whole : dayOf 0 ≤ dayOf 7 ∧ Finset.Icc (dayOf 0).val (dayOf 7).val = {6} := by decide
    have other : ∀ a b : Fin 8, a ≤ b → (a.val = 0 → b.val = 0) → dayOf a ≤ dayOf b ∧
        Finset.Icc (dayOf a).val (dayOf b).val = (Finset.Icc a.val b.val).image Item.cronDay := by decide
    have high : last.value < 8 := Nat.lt_succ_of_le standard.2
    have low : first.value < 8 := standard.1.trans_lt high
    refine ⟨fun h => ?_, fun h => ?_, fun h h' => ?_⟩
    · rw [Item.named, Item.read, h.1]
      exact if_neg (wraps last.value high h.2.1 h.2.2)
    · rw [Item.named, Item.read, h.1, h.2]
      exact (if_pos whole.1).trans (congrArg some whole.2)
    · have flat : first.value = 0 → last.value = 0 := by
        simp only [Item.Wraps, Item.WholeWeek] at h h'
        omega
      obtain ⟨le, days⟩ := other ⟨first.value, low⟩ ⟨last.value, high⟩ standard.1 flat
      exact (if_pos le).trans (congrArg some days)
  | stepped first last step => exact absurd trivial plain
  | every => exact absurd trivial plain
  | everyNth step => exact absurd trivial plain
  | name day => exact standard.elim
  | nameRange first last => exact standard.elim

/-- An item that is taken as it stands is read as its numbers; they are the standard meaning, counted from Monday
instead of from Sunday. -/
lemma read_of_taken (standard : item.Standard) (taken : item.Taken stepLimit) :
    ∃ days, item.read stepLimit = some days ∧ days ⊆ Finset.range 7 ∧ days.Nonempty ∧
      item.standardDays = days.image Item.cronDay := by
  have below {a b : Nat} (le : b ≤ 6) : Finset.Icc a b ⊆ Finset.range 7 := by
    intro n mem
    rw [Finset.mem_Icc] at mem
    rw [Finset.mem_range]
    omega
  cases item with
  | number d =>
    refine ⟨{d.value}, if_pos taken, ?_, Finset.singleton_nonempty _, ?_⟩
    · exact Finset.singleton_subset_iff.2 (Finset.mem_range.2 (Nat.lt_succ_of_le taken))
    · exact (Finset.image_singleton ..).symm
  | range first last =>
    exact ⟨_, if_pos ⟨standard.1, taken⟩, below taken, Finset.nonempty_Icc.2 standard.1, rfl⟩
  | stepped first last step =>
    refine ⟨_, if_pos ⟨standard.1, taken.1, standard.2.2, taken.2⟩,
      (Finset.filter_subset _ _).trans (below taken.1), ?_, rfl⟩
    refine ⟨first.value, Finset.mem_filter.2 ⟨Finset.mem_Icc.2 ⟨le_rfl, standard.1⟩, ?_⟩⟩
    rw [Nat.sub_self, Nat.zero_mod]
  | every => exact ⟨_, rfl, subset_rfl, ⟨0, by decide⟩, by decide⟩
  | everyNth step =>
    refine ⟨_, if_pos ⟨standard, taken⟩, Finset.filter_subset _ _, ?_, ?_⟩
    · exact ⟨0, Finset.mem_filter.2 ⟨by decide, Nat.zero_mod _⟩⟩
    · -- seven is Sunday, and so is zero, which every step counts
      have week : Finset.Icc 0 7 = insert 7 (Finset.range 7) := by decide
      rw [Item.standardDays, week, Finset.filter_insert]
      split
      · rw [Finset.image_insert]
        apply Finset.insert_eq_of_mem
        exact Finset.mem_image.2 ⟨0, Finset.mem_filter.2 ⟨by decide, Nat.zero_mod _⟩, rfl⟩
      · rfl
  | name day => exact standard.elim
  | nameRange first last => exact standard.elim

lemma read_of_not_taken (standard : item.Standard) (refused : ¬ item.Taken stepLimit) : item.read stepLimit = none := by
  cases item with
  | number d => exact if_neg refused
  | range first last => exact if_neg fun h => refused h.2
  | stepped first last step => exact if_neg fun h => refused ⟨h.2.1, h.2.2.2⟩
  | every => exact absurd trivial refused
  | everyNth step => exact if_neg fun h => refused h.2
  | name day => exact standard.elim
  | nameRange first last => exact standard.elim

lemma image_cronDay_eq_iff {days : Finset Nat} (week : days ⊆ Finset.range 7) (some : days.Nonempty) :
    days = days.image Item.cronDay ↔ days.image Item.cronDay = Finset.range 7 := by
  have all : ∀ days ∈ (Finset.range 7).powerset, days.Nonempty →
      (days = days.image Item.cronDay ↔ days.image Item.cronDay = Finset.range 7) := by decide +kernel
  exact all days (Finset.mem_powerset.2 week) some

lemma readDays_of_taken (items : field ≠ []) (standard : ∀ item ∈ field, item.Standard)
    (taken : ∀ item ∈ field, item.Taken stepLimit) :
    readDays stepLimit field = fieldDays field ↔ fieldDays field = Finset.range 7 := by
  have each (item : Item) (inside : item ∈ field) := read_of_taken (standard item inside) (taken item inside)
  have counted : fieldDays field = (readDays stepLimit field).image Item.cronDay := by
    ext d
    rw [mem_fieldDays, Finset.mem_image]
    constructor
    · intro found
      obtain ⟨item, inside, mem⟩ := found
      obtain ⟨days, reads, -, -, eq⟩ := each item inside
      obtain ⟨n, mem, rfl⟩ := Finset.mem_image.1 (eq ▸ mem)
      exact ⟨n, mem_readDays.2 ⟨item, inside, by rwa [reads]⟩, rfl⟩
    · intro found
      obtain ⟨n, mem, rfl⟩ := found
      obtain ⟨item, inside, mem⟩ := mem_readDays.1 mem
      obtain ⟨days, reads, -, -, eq⟩ := each item inside
      rw [reads] at mem
      exact ⟨item, inside, eq ▸ Finset.mem_image_of_mem _ mem⟩
  have week : readDays stepLimit field ⊆ Finset.range 7 := by
    intro d mem
    obtain ⟨item, inside, mem⟩ := mem_readDays.1 mem
    obtain ⟨days, reads, week, -⟩ := each item inside
    rw [reads] at mem
    exact week mem
  have some : (readDays stepLimit field).Nonempty := by
    obtain ⟨item, rest, rfl⟩ := exists_cons_of_ne_nil items
    obtain ⟨days, reads, -, ⟨d, mem⟩, -⟩ := each item mem_cons_self
    exact ⟨d, mem_readDays.2 ⟨item, mem_cons_self, by rwa [reads]⟩⟩
  rw [counted]
  exact image_cronDay_eq_iff week some

/-- Where no range leads from Sunday into the week, the library reads Sunday in a range from Sunday to Sunday, and in
another item what it means. -/
lemma mem_readDays_named {d : Nat} (standard : ∀ item ∈ field, item.Standard)
    (plain : ∀ item ∈ field, ¬ item.UsesSteps) (straight : ∀ item ∈ field, ¬ item.Wraps) :
    d ∈ readDays stepLimit (field.map Item.named) ↔
      ∃ item ∈ field, (item.WholeWeek ∧ d = 6) ∨ (¬ item.WholeWeek ∧ d ∈ item.standardDays) := by
  have each (item : Item) (inside : item ∈ field) : d ∈ (item.named.read stepLimit).getD ∅ ↔
      (item.WholeWeek ∧ d = 6) ∨ (¬ item.WholeWeek ∧ d ∈ item.standardDays) := by
    obtain ⟨-, whole, other⟩ := @read_named stepLimit item (standard item inside) (plain item inside)
    by_cases week : item.WholeWeek
    · rw [whole week]
      simp [week]
    · rw [other (straight item inside) week]
      simp [week]
  rw [mem_readDays]
  constructor
  · intro found
    obtain ⟨_, part, mem⟩ := found
    obtain ⟨item, inside, rfl⟩ := mem_map.1 part
    exact ⟨item, inside, (each item inside).1 mem⟩
  · intro found
    obtain ⟨item, inside, mem⟩ := found
    exact ⟨item.named, mem_map_of_mem inside, (each item inside).2 mem⟩

lemma readDays_named (standard : ∀ item ∈ field, item.Standard) (plain : ∀ item ∈ field, ¬ item.UsesSteps)
    (straight : ∀ item ∈ field, ¬ item.Wraps) :
    readDays stepLimit (field.map Item.named) = fieldDays field ↔
      ((∃ item ∈ field, item.WholeWeek) → ∀ d < 6, ∃ item ∈ field, ¬ item.WholeWeek ∧ d ∈ item.standardDays) := by
  constructor
  · intro eq week d lt
    obtain ⟨whole, inside, all⟩ := week
    have mem : d ∈ fieldDays field := by
      rw [mem_fieldDays]
      refine ⟨whole, inside, ?_⟩
      rw [standardDays_of_wholeWeek all, Finset.mem_range]
      omega
    rw [← eq, mem_readDays_named standard plain straight] at mem
    obtain ⟨item, inside, ⟨-, rfl⟩ | other⟩ := mem
    · exact absurd lt (lt_irrefl 6)
    · exact ⟨item, inside, other⟩
  · intro made
    ext d
    rw [mem_readDays_named standard plain straight, mem_fieldDays]
    constructor
    · intro found
      obtain ⟨item, inside, ⟨whole, rfl⟩ | ⟨-, mem⟩⟩ := found
      · refine ⟨item, inside, ?_⟩
        rw [standardDays_of_wholeWeek whole]
        decide
      · exact ⟨item, inside, mem⟩
    · intro found
      obtain ⟨item, inside, mem⟩ := found
      by_cases whole : item.WholeWeek
      · rw [standardDays_of_wholeWeek whole, Finset.mem_range] at mem
        obtain lt | rfl := Nat.lt_succ_iff_lt_or_eq.1 mem
        · obtain ⟨other, inside', rest⟩ := made ⟨item, inside, whole⟩ d lt
          exact ⟨other, inside', .inr rest⟩
        · exact ⟨item, inside, .inl ⟨whole, rfl⟩⟩
      · exact ⟨item, inside, .inr ⟨whole, mem⟩⟩

lemma reads_iff_taken (standard : ∀ item ∈ field, item.Standard) :
    (∀ item ∈ field, item.read stepLimit ≠ none) ↔ ∀ item ∈ field, item.Taken stepLimit := by
  refine forall₂_congr fun item inside => ⟨fun read => ?_, fun taken => ?_⟩
  · by_contra refused
    exact read (read_of_not_taken (standard item inside) refused)
  · obtain ⟨days, read, -⟩ := read_of_taken (standard item inside) taken
    rw [read]
    exact Option.some_ne_none days

lemma reads_named_iff (standard : ∀ item ∈ field, item.Standard) (plain : ∀ item ∈ field, ¬ item.UsesSteps) :
    (∀ item ∈ field.map Item.named, item.read stepLimit ≠ none) ↔ ∀ item ∈ field, ¬ item.Wraps := by
  rw [forall_mem_map]
  refine forall₂_congr fun item inside => ?_
  obtain ⟨wraps, whole, other⟩ := @read_named stepLimit item (standard item inside) (plain item inside)
  by_cases bad : item.Wraps
  · simp [wraps bad, bad]
  · by_cases week : item.WholeWeek
    · simp [whole week, bad]
    · simp [other bad week, bad]

end Meaning

section Scheduled
variable {τ : Type*} {lib : Apscheduler τ} {field rewritten : List Item} {expr minute hour day month : Text} {times : τ}

lemma ne_event (split : words expr = [minute, hour, day, month, fieldText field]) :
    expr ≠ ['e', 'v', 'e', 'n', 't'] := by
  intro eq
  rw [eq] at split
  have one : words ['e', 'v', 'e', 'n', 't'] = [['e', 'v', 'e', 'n', 't']] := by decide
  rw [one] at split
  cases split

lemma registerCadence_iff (doc : lib.Documented) (expression : expr ≠ ['e', 'v', 'e', 'n', 't'])
    (parts : rewritten ≠ []) (sent : words (normalizeCrontabDow expr) = [minute, hour, day, month, fieldText rewritten])
    (known : lib.times minute hour day month = some times) :
    registerCadence lib expr = .cron times (fieldDays field) ↔
      (∀ item ∈ rewritten, item.read lib.stepLimit ≠ none) ∧ readDays lib.stepLimit rewritten = fieldDays field := by
  rw [registerCadence, if_neg expression]
  by_cases reads : ∀ item ∈ rewritten, item.read lib.stepLimit ≠ none
  · rw [fromCrontab_of_reads doc sent parts known fun item inside => Option.isSome_iff_ne_none.2 (reads item inside)]
    simp only [Cadence.cron.injEq, true_and]
    exact (and_iff_right reads).symm
  · obtain ⟨item, inside, rejected⟩ : ∃ item ∈ rewritten, item.read lib.stepLimit = none := by
      by_contra none
      exact reads fun item inside rejected => none ⟨item, inside, rejected⟩
    rw [fromCrontab_of_rejected doc sent inside rejected]
    exact ⟨fun eq => (nomatch eq), fun h => absurd h.1 reads⟩

end Scheduled

/-- A five-field expression with readable times and a standard weekday field is scheduled on the days of its standard
meaning exactly when the field keeps its meaning. -/
theorem cron_days_iff {τ : Type*} (lib : Apscheduler τ) (doc : lib.Documented) (expr minute hour day month : Text)
    (field : List Item) (times : τ) (split : words expr = [minute, hour, day, month, fieldText field])
    (items : field ≠ []) (standard : ∀ item ∈ field, item.Standard)
    (known : lib.times minute hour day month = some times) :
    registerCadence lib expr = .cron times (fieldDays field) ↔ KeepsMeaning lib.stepLimit field := by
  by_cases steps : ∃ item ∈ field, item.UsesSteps
  · have meaning : KeepsMeaning lib.stepLimit field ↔
        (∀ item ∈ field, item.Taken lib.stepLimit) ∧ fieldDays field = Finset.range 7 := by
      obtain ⟨item, inside, uses⟩ := steps
      exact ⟨fun keeps => keeps.1 ⟨item, inside, uses⟩,
        fun h => ⟨fun _ => h, fun plain => absurd uses (plain item inside)⟩⟩
    rw [registerCadence_iff doc (ne_event split) items (words_normalize_of_steps split steps) known, meaning,
      reads_iff_taken standard]
    exact and_congr_right fun taken => readDays_of_taken items standard taken
  · have plain : ∀ item ∈ field, ¬ item.UsesSteps := fun item inside uses => steps ⟨item, inside, uses⟩
    have meaning : KeepsMeaning lib.stepLimit field ↔ (∀ item ∈ field, ¬ item.Wraps) ∧
        ((∃ item ∈ field, item.WholeWeek) → ∀ d < 6, ∃ item ∈ field, ¬ item.WholeWeek ∧ d ∈ item.standardDays) :=
      ⟨fun keeps => keeps.2 plain, fun h => ⟨fun uses => absurd uses steps, fun _ => h⟩⟩
    have parts : field.map Item.named ≠ [] := by simpa using items
    rw [registerCadence_iff doc (ne_event split) parts (words_normalize_of_plain split items standard plain) known,
      meaning, reads_named_iff standard plain]
    exact and_congr_right fun straight => readDays_named standard plain straight

/-! ## A library as documented -/

def parseDigits (s : Text) : Option Digits := if digits : isDigits s = true then some ⟨s, digits⟩ else none

def parseName (s : Text) : Option (Fin 7) := (List.finRange 7).find? fun day => Item.nameOf day = s

def parseItem (s : Text) : Option Item :=
  match s.splitOn '/' with
  | [body] =>
    if body = ['*'] then some .every
    else match body.splitOn '-' with
      | [x] => ((parseDigits x).map .number).or ((parseName x).map .name)
      | [a, b] =>
        ((parseDigits a).bind fun a => (parseDigits b).map (.range a)).or
          ((parseName a).bind fun a => (parseName b).map (.nameRange a))
      | _ => none
  | [body, n] =>
    (parseDigits n).bind fun n =>
      if body = ['*'] then some (.everyNth n)
      else match body.splitOn '-' with
        | [a, b] => (parseDigits a).bind fun a => (parseDigits b).map fun b => .stepped a b n
        | _ => none
  | _ => none

def rangeLength (first last : Nat) : Nat := (if last = 0 then 6 else last) - first

def readItem (s : Text) : Option (Finset Nat) := (parseItem s).bind (Item.read rangeLength)

def weekdayLibrary : Apscheduler (Text × Text × Text × Text) where
  times minute hour day month := some (minute, hour, day, month)
  days s :=
    if ∀ t ∈ s.splitOn ',', (readItem t).isSome = true then
      some (allDays ((s.splitOn ',').map fun t => (readItem t).getD ∅))
    else none
  stepLimit := rangeLength

section WeekdayLibrary
variable {item : Item} {s : Text} {texts : List Text}

lemma parseDigits_chars {d : Digits} : parseDigits d.chars = some d := dif_pos d.digits

lemma parseName_nameOf : ∀ day : Fin 7, parseName (Item.nameOf day) = some day := by decide

lemma parseItem_text : parseItem item.text = some item := by
  have slash (d : Digits) : '/' ∉ d.chars := d.notMem rfl
  have dash (d : Digits) : '-' ∉ d.chars := d.notMem rfl
  have names : ∀ day : Fin 7, '/' ∉ Item.nameOf day ∧ '-' ∉ Item.nameOf day ∧ parseDigits (Item.nameOf day) = none ∧
    Item.nameOf day ≠ ['*'] := by decide
  have pair {a b : Text} (free : '-' ∉ a) (free' : '-' ∉ b) : (a ++ '-' :: b).splitOn '-' = [a, b] := by
    rw [splitOn_append_cons_self_of_not_mem free, splitOn_eq_singleton free']
  have ne_star {s : Text} {c : Char} (mem : c ∈ s) (other : c ≠ '*') : s ≠ ['*'] := by
    intro eq
    rw [eq] at mem
    exact other (mem_singleton.1 mem)
  cases item with
  | number d =>
    have star : d.chars ≠ ['*'] := fun eq => d.notMem rfl (eq ▸ mem_singleton_self '*')
    rw [parseItem, Item.text, splitOn_eq_singleton (slash d)]
    simp only [if_neg star, splitOn_eq_singleton (dash d), parseDigits_chars]
    rfl
  | range first last =>
    have free : '/' ∉ first.chars ++ '-' :: last.chars := by simp [slash]
    have star : first.chars ++ '-' :: last.chars ≠ ['*'] := ne_star (c := '-') (by simp) (by decide)
    rw [parseItem, Item.text, splitOn_eq_singleton free]
    simp only [if_neg star, pair (dash first) (dash last), parseDigits_chars]
    rfl
  | stepped first last step =>
    have free : '/' ∉ first.chars ++ '-' :: last.chars := by simp [slash]
    have star : first.chars ++ '-' :: last.chars ≠ ['*'] := ne_star (c := '-') (by simp) (by decide)
    rw [parseItem, Item.text, splitOn_append_cons_self_of_not_mem free, splitOn_eq_singleton (slash step)]
    simp only [if_neg star, pair (dash first) (dash last), parseDigits_chars]
    rfl
  | every => rfl
  | everyNth step =>
    have text : Item.text (.everyNth step) = ['*'] ++ '/' :: step.chars := rfl
    rw [parseItem, text, splitOn_append_cons_self_of_not_mem (by decide), splitOn_eq_singleton (slash step)]
    simp only [parseDigits_chars]
    rfl
  | name day =>
    obtain ⟨free, solid, letters, star⟩ := names day
    rw [parseItem, Item.text, splitOn_eq_singleton free]
    simp only [if_neg star, splitOn_eq_singleton solid, letters, parseName_nameOf]
    rfl
  | nameRange first last =>
    obtain ⟨free, solid, letters, -⟩ := names first
    obtain ⟨free', solid', -⟩ := names last
    have all : '/' ∉ Item.nameOf first ++ '-' :: Item.nameOf last := by simp [free, free']
    have star : Item.nameOf first ++ '-' :: Item.nameOf last ≠ ['*'] := ne_star (c := '-') (by simp) (by decide)
    rw [parseItem, Item.text, splitOn_eq_singleton all]
    simp only [if_neg star, pair solid solid', letters, parseName_nameOf]
    rfl

lemma days_of_noComma (solid : ',' ∉ s) : weekdayLibrary.days s = readItem s := by
  have one : s.splitOn ',' = [s] := splitOn_eq_singleton solid
  simp only [weekdayLibrary, one, mem_singleton, forall_eq, map_singleton]
  cases readItem s with
  | none => rfl
  | some days => simp [allDays]

lemma days_join (some_ : texts ≠ []) (solid : ∀ t ∈ texts, ',' ∉ t ∧ ' ' ∉ t) : weekdayLibrary.days (join ',' texts) =
    if ∀ t ∈ texts, (readItem t).isSome = true then some (allDays (texts.map fun t => (readItem t).getD ∅))
    else none := by
  have pieces : (join ',' texts).splitOn ',' = texts :=
    splitOn_intercalate ',' (fun t mem => (solid t mem).1) some_
  simp only [weekdayLibrary, pieces]

lemma weekdayLibrary_documented : weekdayLibrary.Documented where
  item item := by
    have solid : ',' ∉ item.text := fun mem => (text_solid mem).2 rfl
    rw [days_of_noComma solid, readItem, parseItem_text]
    rfl
  list texts some_ solid reads := by
    have each (t : Text) (mem : t ∈ texts) : weekdayLibrary.days t = readItem t := days_of_noComma (solid t mem).1
    have all : ∀ t ∈ texts, (readItem t).isSome = true := fun t mem => each t mem ▸ reads t mem
    rw [days_join some_ solid, if_pos all]
    congr 2
    apply map_congr_left
    intro t mem
    rw [each t mem]
  rejects texts solid t mem rejected := by
    have failed : readItem t = none := (days_of_noComma (solid t mem).1).symm.trans rejected
    rw [days_join (ne_nil_of_mem mem) solid]
    apply if_neg
    intro all
    have read := all t mem
    rw [failed] at read
    cases read

end WeekdayLibrary

/-- `0 10 * *` and a weekday field. -/
def atTen (dow : Text) : Text := ['0', ' ', '1', '0', ' ', '*', ' ', '*', ' '] ++ dow

/-- The times of `0 10 * *`. -/
def tenOClock : Text × Text × Text × Text := (['0'], ['1', '0'], ['*'], ['*'])

def workweek : List Item := [.range ⟨['1'], rfl⟩ ⟨['5'], rfl⟩]

theorem cron_days_iff_workweek :
    registerCadence weekdayLibrary (atTen ['1', '-', '5']) = .cron tenOClock (fieldDays workweek) ↔
      KeepsMeaning weekdayLibrary.stepLimit workweek :=
  cron_days_iff weekdayLibrary weekdayLibrary_documented _ ['0'] ['1', '0'] ['*'] ['*'] workweek tenOClock (by decide)
    (by decide) (by simpa [workweek, Item.Standard, Digits.value] using by decide) rfl

/-- Sunday to Thursday is dispatched every minute, every other workday on the days in between, and Sunday to Sunday on
Sundays only. -/
theorem cron_days_lost :
    (∃ d e, fieldText [.range d e] = ['0', '-', '4'] ∧ fieldDays [.range d e] = {6, 0, 1, 2, 3} ∧
      registerCadence weekdayLibrary (atTen ['0', '-', '4']) = .everyMinute) ∧
    (∃ d e n, fieldText [.stepped d e n] = ['1', '-', '5', '/', '2'] ∧ fieldDays [.stepped d e n] = {0, 2, 4} ∧
      registerCadence weekdayLibrary (atTen ['1', '-', '5', '/', '2']) = .cron tenOClock {1, 3, 5}) ∧
    ∃ d e, fieldText [.range d e] = ['0', '-', '7'] ∧ fieldDays [.range d e] = Finset.range 7 ∧
      registerCadence weekdayLibrary (atTen ['0', '-', '7']) = .cron tenOClock {6} := by
  refine ⟨⟨⟨['0'], rfl⟩, ⟨['4'], rfl⟩, ?_⟩, ⟨⟨['1'], rfl⟩, ⟨['5'], rfl⟩, ⟨['2'], rfl⟩, ?_⟩,
    ⟨['0'], rfl⟩, ⟨['7'], rfl⟩, ?_⟩
  · decide +kernel
  · decide +kernel
  · decide +kernel

end Workbench.Strategies.Crontab
