import Workbench.Validation.ChainAnchor

/-!
# The no-peeking gate

Model of `assert_open_record_has_no_sealed_content` in `app/validation/observation_store.py`: before an observation
is published, its open record is refused if it holds a sealed field name or a sealed value. The open record is read
down to its leaves, the sealed payload at its top level only. Thus a value that the payload holds deeper is not
looked for, and the gate is exact just where no such value is disclosed (`gate_exact_iff`).

Python → Lean naming: `_SEALED_FIELD_NAMES` → `sealedFieldNames`. The two dicts are their entries in order, with
string keys.
-/

set_option linter.dupNamespace false

namespace Workbench.Validation.NoPeeking
open Workbench.Lib List

variable {φ : Type}

abbrev Entries (φ : Type) := List (Text × Doc φ)

/-- `_SEALED_FIELD_NAMES` -/
def sealedFieldNames : List Text :=
  [t "strategy_return", t "benchmark_excess", t "excess_return", t "sharpe", t "cagr", t "max_drawdown", t "cvar",
    t "volatility", t "pnl", t "turnover_cost", t "cumulative_return", t "calmar", t "dsr"]

/-! ## Leaves -/

mutual

/-- Python `_open_record_leaves`: every scalar leaf, depth first. Keys are no leaves. -/
def openRecordLeaves : Doc φ → List (Doc φ)
  | .null => [.null]
  | .bool b => [.bool b]
  | .int n => [.int n]
  | .float x => [.float x]
  | .str s => [.str s]
  | .arr items => itemLeaves items
  | .obj fields => fieldLeaves fields

def itemLeaves : List (Doc φ) → List (Doc φ)
  | [] => []
  | v :: vs => openRecordLeaves v ++ itemLeaves vs

def fieldLeaves : Entries φ → List (Doc φ)
  | [] => []
  | (_, v) :: fs => openRecordLeaves v ++ fieldLeaves fs

end

def container : Doc φ → Bool
  | .arr _ | .obj _ => true
  | .null | .bool _ | .int _ | .float _ | .str _ => false

lemma mem_fieldLeaves {leaf : Doc φ} {fs : Entries φ} :
    leaf ∈ fieldLeaves fs ↔ ∃ e ∈ fs, leaf ∈ openRecordLeaves e.2 := by
  induction fs with
  | nil => simp [fieldLeaves]
  | cons f fs ih =>
    obtain ⟨k, v⟩ := f
    simp only [fieldLeaves, mem_append, ih, mem_cons, exists_eq_or_imp]

lemma leaves_scalar {v : Doc φ} (scalar : container v = false) : openRecordLeaves v = [v] := by
  cases v with
  | arr items => cases scalar
  | obj fields => cases scalar
  | _ => rfl

/-! ## Numbers -/

/-- An `int` or a `float`; a `bool` is no number here. -/
def number : Doc φ → Option (Int ⊕ φ)
  | .int n => some (.inl n)
  | .float x => some (.inr x)
  | .null | .bool _ | .str _ | .arr _ | .obj _ => none

variable (F : Floats φ)

/-- `isinstance(v, int) or math.isfinite(v)` -/
def finite : Int ⊕ φ → Bool
  | .inl _ => true
  | .inr x => F.finite x

/-- `a == b` -/
def sameNumber : Int ⊕ φ → Int ⊕ φ → Bool
  | .inl m, .inl n => m = n
  | a, b => F.le a b && F.le b a

/-- `v in (0, 0.0, 1)`: too common to be a disclosure. -/
def common (v : Int ⊕ φ) : Bool := sameNumber F v (.inl 0) || sameNumber F v (.inl 1)

def spelling : Int ⊕ φ → Text
  | .inl n => ofChars (Json.intText n)
  | .inr x => ofChars (F.repr x)

/-! ## The gate -/

/-- How the gate refuses: three `ObservationCommitError`s, with what each message shows, and the `ValueError` of an
    integer that is too long to be written. -/
inductive Refusal (φ : Type) where
  /-- `OPEN record leaks sealed field name(s): [...]` -/
  | leaksNames (names : List Text)
  /-- `the sealed payload carries a non-finite value ...; the leak gate has no meaningful equality test for it and
      refuses rather than guessing` -/
  | notFinite (x : φ)
  /-- `OPEN record leaks a sealed value: ...` -/
  | leaksValue (leaf : Doc φ)
  | unwritten (e : DumpError)

/-- What is sealed: `sealed_numbers` and `sealed_strings`. -/
structure Sealed (φ : Type) where
  numbers : List (Int ⊕ φ)
  strings : List Text

def Sealed.empty : Sealed φ := ⟨[], []⟩

def Sealed.addNumber (held : Sealed φ) (v : Int ⊕ φ) : Sealed φ :=
  ⟨held.numbers ++ [v], held.strings ++ [spelling F v]⟩

def collect (held : Sealed φ) : Doc φ → Except (Refusal φ) (Sealed φ)
  | .int n =>
    if common F (.inl n) then .ok held
    else do
      raiseIf (maxDigits < (Nat.toDigits 10 n.natAbs).length) (.unwritten .valueError)
      return held.addNumber F (.inl n)
  | .float x => do
    raiseIf (F.finite x = false) (.notFinite x)
    return if common F (.inr x) then held else held.addNumber F (.inr x)
  | .str s => .ok { held with strings := held.strings ++ [s] }
  | .null | .bool _ | .arr _ | .obj _ => .ok held

/-- Whether a leaf of the open record is refused. -/
def Sealed.refuses (held : Sealed φ) : Doc φ → Bool
  | .int n => held.numbers.any fun v => sameNumber F (.inl n) v
  | .float x => F.finite x && held.numbers.any fun v => sameNumber F (.inr x) v
  | .str s => s ∈ held.strings
  | .null | .bool _ | .arr _ | .obj _ => false

/-- The names that are looked for: the frozen ones and the keys of the payload. -/
def sealedNames (sealedPayload : Entries φ) : List Text := (sealedFieldNames ++ sealedPayload.map Prod.fst).dedup

def serialized (openRecord : Entries φ) : Text := ofChars ((Doc.obj openRecord).sortKeys.text F .spaced)

/-- `leaked_names`, sorted. -/
def leakedNames (sealedPayload : Entries φ) (flat : Text) : List Text :=
  ((sealedNames sealedPayload).filter fun n => n <:+: flat).insertionSort (· ≤ ·)

/-- Python `assert_open_record_has_no_sealed_content`. -/
def assertOpenRecordHasNoSealedContent (openRecord sealedPayload : Entries φ) : Except (Refusal φ) Unit := do
  let flat ← (dumpsSpaced F (.obj openRecord)).mapError .unwritten
  let leaked := leakedNames sealedPayload (ofChars flat)
  raiseIf (leaked ≠ []) (.leaksNames leaked)
  let held ← (sealedPayload.map Prod.snd).foldlM (collect F) .empty
  forM (openRecordLeaves (.obj openRecord)) fun leaf => raiseIf (held.refuses F leaf = true) (.leaksValue leaf)

/-! ## What the gate is for -/

/-- A leaf of the open record discloses a leaf of the sealed payload: it equals it, as a number or as a string, or it
    spells it. -/
inductive Discloses : Doc φ → Doc φ → Prop
  | number {leaf value : Doc φ} {n v : Int ⊕ φ} (left : number leaf = some n) (right : number value = some v)
      (rare : common F v = false) (same : sameNumber F n v = true) : Discloses leaf value
  | spelling {value : Doc φ} {v : Int ⊕ φ} (right : number value = some v) (rare : common F v = false) :
      Discloses (.str (spelling F v)) value
  | string {s : Text} : Discloses (.str s) (.str s)

/-- A leaf of the open record discloses a value. -/
def Disclosed (openRecord : Entries φ) (value : Doc φ) : Prop :=
  ∃ leaf ∈ openRecordLeaves (.obj openRecord), Discloses F leaf value

/-- The open record has no sealed content: no sealed name is in its text, and none of its leaves discloses a leaf of
    the payload. -/
structure HasNoSealedContent (openRecord sealedPayload : Entries φ) : Prop where
  names : ∀ n ∈ sealedNames sealedPayload, ¬ n <:+: serialized F openRecord
  values : ∀ value ∈ openRecordLeaves (.obj sealedPayload), ¬ Disclosed F openRecord value

def FiniteNumbers (entries : Entries φ) : Prop :=
  ∀ leaf ∈ openRecordLeaves (.obj entries), ∀ n, number leaf = some n → finite F n = true

/-- The integers that the gate writes are no longer than the interpreter writes them: those of the open record, and
    those at the top level of the payload that are not 0 or 1. -/
def Written (openRecord sealedPayload : Entries φ) : Prop :=
  (Doc.obj openRecord).fits = true ∧
    ∀ e ∈ sealedPayload, ∀ n, e.2 = .int n → common F (.inl n) = false → (Doc.int n : Doc φ).fits = true

/-- Nothing that the payload holds at its top level is in the open record, neither a name nor a value. -/
def CleanOnTop (openRecord sealedPayload : Entries φ) : Prop :=
  (∀ n ∈ sealedNames sealedPayload, ¬ n <:+: serialized F openRecord) ∧
    ∀ e ∈ sealedPayload, ¬ Disclosed F openRecord e.2

/-- A value that the payload holds in a list or a dict is disclosed. -/
def NestedDisclosed (openRecord sealedPayload : Entries φ) : Prop :=
  ∃ e ∈ sealedPayload, container e.2 = true ∧ ∃ value ∈ openRecordLeaves e.2, Disclosed F openRecord value

/-! ## The open record as it is written -/

lemma fitsFields_perm {fs gs : Entries φ} (perm : fs.Perm gs) : Doc.fitsFields fs = Doc.fitsFields gs := by
  induction perm with
  | nil => rfl
  | cons f _ ih =>
    obtain ⟨k, v⟩ := f
    rw [Doc.fitsFields, Doc.fitsFields, ih]
  | swap f g fs =>
    obtain ⟨k, v⟩ := f
    obtain ⟨l, w⟩ := g
    simp only [Doc.fitsFields, ← Bool.and_assoc, Bool.and_comm]
  | trans _ _ ih ih' => exact ih.trans ih'

mutual

lemma fits_sortKeys : ∀ {d : Doc φ}, d.sortKeys.fits = d.fits
  | .null => rfl
  | .bool _ => rfl
  | .int _ => rfl
  | .float _ => rfl
  | .str _ => rfl
  | .arr _ => fits_sortItems
  | .obj _ => (fitsFields_perm (perm_insertionSort _ _)).trans fits_sortFields

lemma fits_sortItems : ∀ {vs : List (Doc φ)}, Doc.fitsItems (Doc.sortItems vs) = Doc.fitsItems vs
  | [] => rfl
  | _ :: _ => congrArg₂ _ fits_sortKeys fits_sortItems

lemma fits_sortFields : ∀ {fs : Entries φ}, Doc.fitsFields (Doc.sortFields fs) = Doc.fitsFields fs
  | [] => rfl
  | (_, _) :: _ => congrArg₂ _ fits_sortKeys fits_sortFields

end

variable {F}

lemma dumpsSpaced_eq_ok {d : Doc φ} {cs : List Char} :
    (dumpsSpaced F d).mapError (.unwritten : DumpError → Refusal φ) = .ok cs ↔
      d.fits = true ∧ d.sortKeys.text F .spaced = cs := by
  rw [dumpsSpaced, fits_sortKeys]
  cases d.fits with
  | false => simp [raiseIf, Except.mapError, bind, Except.bind]
  | true => simp [raiseIf, Except.mapError, bind, Except.bind, pure, Except.pure]

lemma leakedNames_eq_nil {sealedPayload : Entries φ} {flat : Text} :
    leakedNames sealedPayload flat = [] ↔ ∀ n ∈ sealedNames sealedPayload, ¬ n <:+: flat := by
  have length : (leakedNames sealedPayload flat).length = ((sealedNames sealedPayload).filter fun n =>
      n <:+: flat).length :=
    length_insertionSort _ _
  rw [← length_eq_zero_iff, length, length_eq_zero_iff, filter_eq_nil_iff]
  simp only [decide_eq_true_eq]

/-! ## What a value is disclosed by -/

lemma discloses_number_iff {leaf value : Doc φ} {v : Int ⊕ φ} (isNumber : number value = some v) :
    Discloses F leaf value ↔
      common F v = false ∧ ((∃ n, number leaf = some n ∧ sameNumber F n v = true) ∨ leaf = .str (spelling F v)) := by
  constructor
  · intro discloses
    cases discloses with
    | number left right rare same =>
      cases isNumber.symm.trans right
      exact ⟨rare, .inl ⟨_, left, same⟩⟩
    | spelling right rare =>
      cases isNumber.symm.trans right
      exact ⟨rare, .inr rfl⟩
    | string => cases isNumber
  · intro ⟨rare, discloses⟩
    rcases discloses with ⟨n, left, same⟩ | rfl
    · exact .number left isNumber rare same
    · exact .spelling isNumber rare

lemma discloses_str_iff {leaf : Doc φ} {s : Text} : Discloses F leaf (.str s) ↔ leaf = .str s := by
  constructor
  · intro discloses
    cases discloses with
    | number _ right => cases right
    | spelling right => cases right
    | string => rfl
  · intro eq
    rw [eq]
    exact .string

lemma not_discloses {leaf value : Doc φ} (noNumber : number value = none) (noString : ∀ s, value ≠ .str s) :
    ¬ Discloses F leaf value := by
  intro discloses
  cases discloses with
  | number _ right => cases noNumber.symm.trans right
  | spelling right => cases noNumber.symm.trans right
  | string => exact noString _ rfl

lemma not_disclosed_container {openRecord : Entries φ} {value : Doc φ} (isContainer : container value = true) :
    ¬ Disclosed F openRecord value := by
  intro ⟨leaf, _, discloses⟩
  cases value with
  | arr items => exact not_discloses rfl (fun _ eq => by cases eq) discloses
  | obj fields => exact not_discloses rfl (fun _ eq => by cases eq) discloses
  | _ => cases isContainer

/-! ## What is collected -/

def FiniteLeaf (F : Floats φ) (leaf : Doc φ) : Prop := ∀ n, number leaf = some n → finite F n = true

lemma refuses_number {held : Sealed φ} {leaf : Doc φ} {n : Int ⊕ φ} (isNumber : number leaf = some n)
    (isFinite : finite F n = true) : held.refuses F leaf = true ↔ ∃ v ∈ held.numbers, sameNumber F n v = true := by
  cases leaf with
  | int m =>
    cases isNumber
    exact any_eq_true
  | float x =>
    cases isNumber
    have known : F.finite x = true := isFinite
    rw [Sealed.refuses, known, Bool.true_and]
    exact any_eq_true
  | _ => cases isNumber

lemma refuses_str {held : Sealed φ} {s : Text} : held.refuses F (.str s) = true ↔ s ∈ held.strings := by
  rw [Sealed.refuses, decide_eq_true_eq]

lemma leaf_cases (leaf : Doc φ) :
    (∃ n, number leaf = some n) ∨ (∃ s, leaf = .str s) ∨
      number leaf = none ∧ (∀ s, leaf ≠ .str s) ∧ ∀ (F : Floats φ) (held : Sealed φ), held.refuses F leaf = false := by
  cases leaf with
  | int n => exact .inl ⟨_, rfl⟩
  | float x => exact .inl ⟨_, rfl⟩
  | str s => exact .inr (.inl ⟨s, rfl⟩)
  | _ => exact .inr (.inr ⟨rfl, fun _ => nofun, fun _ _ => rfl⟩)

lemma refuses_addNumber {held : Sealed φ} {leaf value : Doc φ} {v : Int ⊕ φ} (isNumber : number value = some v)
    (rare : common F v = false) (isFinite : FiniteLeaf F leaf) :
    (held.addNumber F v).refuses F leaf = true ↔ held.refuses F leaf = true ∨ Discloses F leaf value := by
  rw [discloses_number_iff isNumber]
  rcases leaf_cases leaf with ⟨n, isNumber⟩ | ⟨s, rfl⟩ | ⟨noNumber, noString, never⟩
  · rw [refuses_number isNumber (isFinite n isNumber), refuses_number isNumber (isFinite n isNumber)]
    have noString : leaf ≠ .str (spelling F v) := by
      rintro rfl
      cases isNumber
    simp [Sealed.addNumber, or_and_right, exists_or, isNumber, rare, noString]
  · rw [refuses_str, refuses_str]
    simp [Sealed.addNumber, number, rare]
  · simp [never, noNumber, noString]

lemma refuses_collect {held held' : Sealed φ} {leaf value : Doc φ} (isFinite : FiniteLeaf F leaf)
    (collected : collect F held value = .ok held') :
    held'.refuses F leaf = true ↔ held.refuses F leaf = true ∨ Discloses F leaf value := by
  -- a number that is 0 or 1 is not collected, and nothing discloses it
  have skipped : ∀ {v : Int ⊕ φ}, number value = some v → common F v = true → held = held' →
      (held'.refuses F leaf = true ↔ held.refuses F leaf = true ∨ Discloses F leaf value) := by
    intro v isNumber isCommon same
    rw [discloses_number_iff isNumber, same]
    simp [isCommon]
  cases value with
  | int n =>
    rw [collect] at collected
    split at collected
    · rename_i isCommon
      exact skipped rfl isCommon (Except.ok.inj collected)
    · rename_i rare
      obtain ⟨-, same⟩ := raiseIf_bind_eq_ok.1 collected
      cases same
      exact refuses_addNumber rfl (Bool.eq_false_iff.2 rare) isFinite
  | float x =>
    obtain ⟨-, same⟩ := raiseIf_bind_eq_ok.1 collected
    cases isCommon : common F (.inr x) with
    | true =>
      rw [isCommon, if_pos rfl] at same
      exact skipped rfl isCommon (Except.ok.inj same)
    | false =>
      rw [isCommon] at same
      cases same
      exact refuses_addNumber rfl isCommon isFinite
  | str s =>
    cases collected
    rw [discloses_str_iff]
    rcases leaf_cases leaf with ⟨n, isNumber⟩ | ⟨r, rfl⟩ | ⟨-, noString, never⟩
    · have noString : leaf ≠ .str s := by
        rintro rfl
        cases isNumber
      rw [refuses_number isNumber (isFinite n isNumber), refuses_number isNumber (isFinite n isNumber)]
      simp [noString]
    · rw [refuses_str, refuses_str]
      simp
    · simp [never, noString]
  | _ =>
    cases collected
    exact (or_iff_left (not_discloses rfl fun _ eq => by cases eq)).symm

lemma refuses_foldlM {values : List (Doc φ)} {held held' : Sealed φ} {leaf : Doc φ} (isFinite : FiniteLeaf F leaf)
    (collected : values.foldlM (collect F) held = .ok held') :
    held'.refuses F leaf = true ↔ held.refuses F leaf = true ∨ ∃ value ∈ values, Discloses F leaf value := by
  induction values generalizing held with
  | nil =>
    cases collected
    simp
  | cons value values ih =>
    rw [foldlM_cons, bind_eq_ok] at collected
    obtain ⟨next, one, rest⟩ := collected
    rw [ih rest, refuses_collect isFinite one, or_assoc, exists_mem_cons_iff]

/-- A value can be collected: a float is finite, and an integer that is not 0 or 1 can be written. -/
def Collectable (F : Floats φ) (value : Doc φ) : Prop :=
  FiniteLeaf F value ∧ ∀ n, value = .int n → common F (.inl n) = false → value.fits = true

lemma collect_iff {held : Sealed φ} {value : Doc φ} :
    (∃ held', collect F held value = .ok held') ↔ Collectable F value := by
  cases value with
  | int n =>
    rw [collect]
    cases isCommon : common F (.inl n) with
    | true => simp [Collectable, FiniteLeaf, number, finite, isCommon]
    | false => simp [Collectable, FiniteLeaf, number, finite, isCommon, Doc.fits, pure, Except.pure]
  | float x => simp [collect, Collectable, FiniteLeaf, number, finite, pure, Except.pure]
  | _ => simp [collect, Collectable, FiniteLeaf, number]

lemma foldlM_collect_iff {values : List (Doc φ)} {held : Sealed φ} :
    (∃ held', values.foldlM (collect F) held = .ok held') ↔ ∀ value ∈ values, Collectable F value := by
  induction values generalizing held with
  | nil => simp [pure, Except.pure]
  | cons value values ih =>
    have first : (∃ next, collect F held value = .ok next) ↔ Collectable F value := collect_iff
    rw [forall_mem_cons, ← first]
    simp only [foldlM_cons, bind_eq_ok]
    constructor
    · intro ⟨held', next, one, rest⟩
      exact ⟨⟨next, one⟩, ih.1 ⟨held', rest⟩⟩
    · intro ⟨⟨next, one⟩, rest⟩
      obtain ⟨held', all⟩ : ∃ held', values.foldlM (collect F) next = .ok held' := ih.2 rest
      exact ⟨held', next, one, all⟩

lemma forM_raiseIf {ε : Type} {leaves : List (Doc φ)} {refused : Doc φ → Bool} {e : Doc φ → ε} :
    (forM leaves fun leaf => raiseIf (refused leaf = true) (e leaf)) = .ok () ↔
      ∀ leaf ∈ leaves, refused leaf = false := by
  induction leaves with
  | nil => simp [pure, Except.pure]
  | cons leaf leaves ih =>
    rw [forM_cons, raiseIf_bind_eq_ok, ih, forall_mem_cons, Bool.not_eq_true]

/-! ## When the gate returns -/

section Exactness

variable {openRecord sealedPayload : Entries φ}

lemma FiniteNumbers.leaf (isFinite : FiniteNumbers F openRecord) {leaf : Doc φ}
    (mem : leaf ∈ openRecordLeaves (.obj openRecord)) : FiniteLeaf F leaf := isFinite leaf mem

lemma collectable_iff (isFinite : FiniteNumbers F sealedPayload) :
    (∀ value ∈ sealedPayload.map Prod.snd, Collectable F value) ↔
      ∀ e ∈ sealedPayload, ∀ n, e.2 = .int n → common F (.inl n) = false → (Doc.int n : Doc φ).fits = true := by
  rw [forall_mem_map]
  apply forall₂_congr
  intro e mem
  have finiteValue : FiniteLeaf F e.2 := by
    intro n isNumber
    have scalar : container e.2 = false := by
      cases value : e.2 with
      | arr items => rw [value] at isNumber; cases isNumber
      | obj fields => rw [value] at isNumber; cases isNumber
      | _ => rfl
    have leaf : e.2 ∈ openRecordLeaves (.obj sealedPayload) :=
      mem_fieldLeaves.2 ⟨e, mem, by rw [leaves_scalar scalar]; exact mem_singleton_self _⟩
    exact isFinite e.2 leaf n isNumber
  constructor
  · intro collectable n eq rare
    rw [← eq]
    exact collectable.2 n eq rare
  · intro written
    refine ⟨finiteValue, ?_⟩
    intro n eq rare
    rw [eq]
    exact written n eq rare

/-- The gate returns if what it writes can be written and nothing at the top level of the payload is in the open
    record. -/
theorem gate_returns_iff (finiteOpen : FiniteNumbers F openRecord) (finiteSealed : FiniteNumbers F sealedPayload) :
    assertOpenRecordHasNoSealedContent F openRecord sealedPayload = .ok () ↔
      Written F openRecord sealedPayload ∧ CleanOnTop F openRecord sealedPayload := by

  -- once all is collected, the leaves that pass are those that disclose no value of the payload
  have clean : ∀ held, (sealedPayload.map Prod.snd).foldlM (collect F) .empty = .ok held →
      ((∀ leaf ∈ openRecordLeaves (.obj openRecord), held.refuses F leaf = false) ↔
        ∀ e ∈ sealedPayload, ¬ Disclosed F openRecord e.2) := by
    intro held collected
    have empty : ∀ leaf : Doc φ, Sealed.empty.refuses F leaf = false := by
      intro leaf
      cases leaf <;> simp [Sealed.refuses, Sealed.empty]
    have passes : ∀ leaf ∈ openRecordLeaves (.obj openRecord), (held.refuses F leaf = false ↔
        ∀ e ∈ sealedPayload, ¬ Discloses F leaf e.2) := by
      intro leaf mem
      rw [← Bool.not_eq_true, refuses_foldlM (finiteOpen.leaf mem) collected, empty]
      simp only [Bool.false_eq_true, false_or, not_exists, not_and, forall_mem_map]
    constructor
    · intro all e mem ⟨leaf, isLeaf, discloses⟩
      exact (passes leaf isLeaf).1 (all leaf isLeaf) e mem discloses
    · intro none leaf isLeaf
      exact (passes leaf isLeaf).2 fun e mem discloses => none e mem ⟨leaf, isLeaf, discloses⟩
  constructor
  · intro returns
    obtain ⟨flat, dumped, returns⟩ := bind_eq_ok.1 returns
    obtain ⟨fits, rfl⟩ := dumpsSpaced_eq_ok.1 dumped
    obtain ⟨names, returns⟩ := raiseIf_bind_eq_ok.1 returns
    obtain ⟨held, collected, passed⟩ := bind_eq_ok.1 returns
    have written := (collectable_iff finiteSealed).1 (foldlM_collect_iff.1 ⟨held, collected⟩)
    exact ⟨⟨fits, written⟩, leakedNames_eq_nil.1 (not_not.1 names), (clean held collected).1 (forM_raiseIf.1 passed)⟩
  · intro ⟨⟨fits, written⟩, names, values⟩
    obtain ⟨held, collected⟩ := foldlM_collect_iff.2 ((collectable_iff finiteSealed).2 written)
    apply bind_eq_ok.2 ⟨_, dumpsSpaced_eq_ok.2 ⟨fits, rfl⟩, _⟩
    apply raiseIf_bind_eq_ok.2 ⟨not_not.2 (leakedNames_eq_nil.2 names), _⟩
    exact bind_eq_ok.2 ⟨held, collected, forM_raiseIf.2 ((clean held collected).2 values)⟩

lemma hasNoSealedContent_iff :
    HasNoSealedContent F openRecord sealedPayload ↔
      CleanOnTop F openRecord sealedPayload ∧ ¬ NestedDisclosed F openRecord sealedPayload := by
  constructor
  · intro ⟨names, values⟩
    refine ⟨⟨names, ?_⟩, ?_⟩
    · intro e mem disclosed
      cases isContainer : container e.2 with
      | true => exact not_disclosed_container isContainer disclosed
      | false =>
        have leaf : e.2 ∈ openRecordLeaves e.2 := by
          rw [leaves_scalar isContainer]
          exact mem_singleton_self _
        exact values e.2 (mem_fieldLeaves.2 ⟨e, mem, leaf⟩) disclosed
    · intro ⟨e, mem, _, value, leaf, disclosed⟩
      exact values value (mem_fieldLeaves.2 ⟨e, mem, leaf⟩) disclosed
  · intro ⟨⟨names, onTop⟩, nested⟩
    refine ⟨names, ?_⟩
    intro value mem disclosed
    obtain ⟨e, entry, leaf⟩ := mem_fieldLeaves.1 mem
    cases isContainer : container e.2 with
    | true => exact nested ⟨e, entry, isContainer, value, leaf, disclosed⟩
    | false =>
      rw [leaves_scalar isContainer, mem_singleton] at leaf
      exact onTop e entry (leaf ▸ disclosed)

/-- The gate is exact just where, if nothing on top of the payload is in the open record, nothing deeper is disclosed
    and what the gate writes can be written. -/
theorem gate_exact_iff (finiteOpen : FiniteNumbers F openRecord) (finiteSealed : FiniteNumbers F sealedPayload) :
    (assertOpenRecordHasNoSealedContent F openRecord sealedPayload = .ok () ↔
        HasNoSealedContent F openRecord sealedPayload) ↔ (CleanOnTop F openRecord sealedPayload →
        (Written F openRecord sealedPayload ↔ ¬ NestedDisclosed F openRecord sealedPayload)) := by
  rw [gate_returns_iff finiteOpen finiteSealed, hasNoSealedContent_iff]
  constructor
  · intro agrees clean
    constructor
    · intro written
      exact (agrees.1 ⟨written, clean⟩).2
    · intro hidden
      exact (agrees.2 ⟨clean, hidden⟩).1
  · intro condition
    constructor
    · intro ⟨written, clean⟩
      exact ⟨clean, (condition clean).1 written⟩
    · intro ⟨clean, hidden⟩
      exact ⟨(condition clean).2 hidden, clean⟩

end Exactness

def positionsOpen : Entries Unit := [(t "positions", .int 98)]

def detailSealed : Entries Unit := [(t "detail", .obj [(t "units", .int 98)])]

lemma finiteNumbers_of_no_float {entries : Entries φ}
    (noFloat : ∀ leaf ∈ fieldLeaves entries, ∀ x, leaf ≠ .float x) : FiniteNumbers F entries := by
  intro leaf mem n isNumber
  cases leaf with
  | int m =>
    cases isNumber
    rfl
  | float x => exact absurd rfl (noFloat _ mem x)
  | _ => cases isNumber

lemma finite_positionsOpen : FiniteNumbers Floats.infinite positionsOpen :=
  finiteNumbers_of_no_float (by simp [positionsOpen, fieldLeaves, openRecordLeaves])

lemma finite_detailSealed : FiniteNumbers Floats.infinite detailSealed :=
  finiteNumbers_of_no_float (by simp [detailSealed, fieldLeaves, openRecordLeaves])

theorem gate_exact_iff_nested :
    (assertOpenRecordHasNoSealedContent Floats.infinite positionsOpen detailSealed = .ok () ↔
        HasNoSealedContent Floats.infinite positionsOpen detailSealed) ↔
      (CleanOnTop Floats.infinite positionsOpen detailSealed → (Written Floats.infinite positionsOpen detailSealed ↔
          ¬ NestedDisclosed Floats.infinite positionsOpen detailSealed)) :=
  gate_exact_iff finite_positionsOpen finite_detailSealed

/-- The gate lets pass an open record that shows the sealed units. -/
theorem nested_value_passes :
    ¬ (assertOpenRecordHasNoSealedContent Floats.infinite positionsOpen detailSealed = .ok () ↔
        HasNoSealedContent Floats.infinite positionsOpen detailSealed) := by
  intro agrees
  have returns : assertOpenRecordHasNoSealedContent Floats.infinite positionsOpen detailSealed = .ok () := by
    rfl
  have shows : Disclosed Floats.infinite positionsOpen (.int 98) :=
    ⟨.int 98, mem_singleton_self _, .number rfl rfl rfl rfl⟩
  exact (agrees.1 returns).values (.int 98) (mem_singleton_self _) shows

end Workbench.Validation.NoPeeking
