import Workbench.Lib.JsonLoads

/-!
# Writing JSON

`json.dumps(v, sort_keys=True, separators=(",", ":"))` of a Python value: mappings are sorted by their keys, which
may be numbers, and a key is then written as a string. The document of a value (`encode`) is what is written;
a document that was read is written again sorted (`canonical`), and what was written sorted reads back as
itself (`canonical_joined`).
-/

namespace Workbench.Lib
open Bool

variable {φ : Type}

/-- A key of a mapping. -/
inductive Key (φ : Type) where
  | str (s : Text)
  | int (n : Int)
  | bool (b : Bool)
  | float (x : φ)
  | null
  /-- A key that `json` refuses. -/
  | other

/-- A Python value, as far as `json` tells it from others. -/
inductive PyValue (φ : Type) where
  | null
  | bool (b : Bool)
  | int (n : Int)
  | float (x : φ)
  | str (s : Text)
  /-- A `date` or `datetime`, with its `isoformat`. -/
  | date (iso : Text)
  | list (items : List (PyValue φ))
  | tuple (items : List (PyValue φ))
  | dict (entries : List (Key φ × PyValue φ))
  /-- An object of another type. -/
  | object

/-- How writing a value fails. -/
inductive DumpError where
  | typeError
  | valueError
deriving DecidableEq

def ofChars (cs : List Char) : Text := cs.map fun c => Fin.ofNat _ c.toNat

namespace PyValue

variable (F : Floats φ)

/-- `int.__repr__(n)`. -/
def intRepr (n : Int) : Except DumpError (List Char) := do
  raiseIf (maxDigits < (Nat.toDigits 10 n.natAbs).length) .valueError
  return Json.intText n

def keyText : Key φ → Except DumpError Text
  | .str s => .ok s
  | .int n => (intRepr n).map ofChars
  | .bool b => .ok (if b then Text.of "true" else Text.of "false")
  | .float x => .ok (ofChars (F.repr x))
  | .null => .ok (Text.of "null")
  | .other => .error .typeError

def keyNumber : Key φ → Option (Int ⊕ φ)
  | .int n => some (.inl n)
  | .bool b => some (.inl (if b then 1 else 0))
  | .float x => some (.inr x)
  | .str _ | .null | .other => none

def keyString : Key φ → Option Text
  | .str s => some s
  | .int _ | .bool _ | .float _ | .null | .other => none

/-- `sorted(items)` by key: strings, or numbers; a mixture cannot be compared. -/
def sortEntries {α : Type} (es : List (Key φ × α)) : Except DumpError (List (Key φ × α)) :=
  if es.length ≤ 1 then .ok es
  else match es.mapM (fun e => (keyString e.1).map fun k => (k, e)) with
    | some strings => .ok ((strings.insertionSort fun a b => a.1 ≤ b.1).map Prod.snd)
    | none => match es.mapM (fun e => (keyNumber e.1).map fun k => (k, e)) with
      | some numbers => .ok ((numbers.insertionSort fun a b => F.le a.1 b.1 = true).map Prod.snd)
      | none => .error .typeError

mutual

/-- Of values whose `default` takes dates alone: another object is a `TypeError`. -/
def encode : PyValue φ → Except DumpError (Doc φ)
  | .null => .ok .null
  | .bool b => .ok (.bool b)
  | .int n => (intRepr n).map fun _ => .int n
  | .float x => .ok (.float x)
  | .str s => .ok (.str s)
  | .date iso => .ok (.str iso)
  | .list vs => (encodeItems vs).map .arr
  | .tuple vs => (encodeItems vs).map .arr
  | .dict es => do
    let es ← encodeEntries es
    let es ← sortEntries F es
    let fields ← es.mapM fun e => (keyText F e.1).map fun k => (k, e.2)
    return .obj fields
  | .object => .error .typeError

def encodeItems : List (PyValue φ) → Except DumpError (List (Doc φ))
  | [] => .ok []
  | v :: vs => do
    let d ← encode v
    let ds ← encodeItems vs
    return d :: ds

/-- What is written of the values of a mapping. -/
def encodeEntries : List (Key φ × PyValue φ) → Except DumpError (List (Key φ × Doc φ))
  | [] => .ok []
  | (k, v) :: es => do
    let d ← encode v
    let ds ← encodeEntries es
    return (k, d) :: ds

end

end PyValue

namespace Doc

variable (F : Floats φ)

/-- The sorted text of a document that was read. -/
def canonical (d : Doc φ) : Except DumpError (List Char) := do
  raiseIf (d.sortKeys.fits = false) .valueError
  return d.sortKeys.text F .compact

variable {F}

mutual

lemma fits_joined : ∀ {d : Doc φ}, d.joined.fits = d.fits
  | .null => rfl
  | .bool _ => rfl
  | .int _ => rfl
  | .float _ => rfl
  | .str _ => rfl
  | .arr _ => fits_joinedItems
  | .obj _ => fits_joinedFields

lemma fits_joinedItems : ∀ {vs : List (Doc φ)}, fitsItems (joinedItems vs) = fitsItems vs
  | [] => rfl
  | v :: vs => by rw [joinedItems, fitsItems, fitsItems, fits_joined, fits_joinedItems]

lemma fits_joinedFields : ∀ {fs : List (Text × Doc φ)}, fitsFields (joinedFields fs) = fitsFields fs
  | [] => rfl
  | (k, v) :: fs => by rw [joinedFields, fitsFields, fitsFields, fits_joined, fits_joinedFields]

end

/-- What was written sorted is written again as it was. -/
theorem canonical_joined {d : Doc φ} (fits : d.fits = true) (ordered : d.joined.ordered = true) :
    canonical F d.joined = .ok (d.text F .compact) := by
  rw [canonical, sortKeys_eq ordered, fits_joined, fits, text_joined]
  rfl

/-! ## What a canonical text determines -/

def rawHooks (F : Floats φ) : Hooks φ where
  pairs := .ok
  constant w := .ok (F.ofText w)
  float cs := .ok (F.ofText cs)

mutual

lemma takes_raw (lawful : F.Lawful) : ∀ {d : Doc φ}, d.fits = true → Loads.Takes (rawHooks F) F d
  | .null, _ => trivial
  | .bool _, _ => trivial
  | .str _, _ => trivial
  | .int n, fits => by
    have short : (Nat.toDigits 10 n.natAbs).length ≤ maxDigits := of_decide_eq_true fits
    exact short
  | .float x, _ => by
    have reads : ∀ b : Bool, (if b = true then (rawHooks F).float (F.repr x) else (rawHooks F).constant (F.repr x)) =
        .ok x := by
      intro b
      cases b <;> exact congrArg Except.ok (lawful.ofText_repr x)
    exact reads _
  | .arr vs, fits => takesItems_raw lawful fits
  | .obj fs, fits => ⟨takesFields_raw lawful fits, rfl⟩

lemma takesItems_raw (lawful : F.Lawful) : ∀ {vs : List (Doc φ)}, fitsItems vs = true →
    Loads.TakesItems (rawHooks F) F vs
  | [], _ => trivial
  | v :: vs, fits => by
    obtain ⟨head, tail⟩ := and_eq_true_iff.1 fits
    exact ⟨takes_raw lawful head, takesItems_raw lawful tail⟩

lemma takesFields_raw (lawful : F.Lawful) : ∀ {fs : List (Text × Doc φ)}, fitsFields fs = true →
    Loads.TakesFields (rawHooks F) F fs
  | [], _ => trivial
  | (_, v) :: fs, fits => by
    obtain ⟨head, tail⟩ := and_eq_true_iff.1 fits
    exact ⟨takes_raw lawful head, takesFields_raw lawful tail⟩

end

/-- A text that was written determines the document that is read back. -/
theorem text_determines {q : Separators} (lawful : F.Lawful) {a b : Doc φ} (fitsa : a.fits = true)
    (fitsb : b.fits = true) (eq : a.text F q = b.text F q) : a.joined = b.joined := by
  have reada := loads_text (q := q) lawful (takes_raw lawful fitsa)
  have readb := loads_text (q := q) lawful (takes_raw lawful fitsb)
  rw [eq] at reada
  exact Except.ok.inj (reada.symm.trans readb)

lemma canonical_eq_ok {d : Doc φ} {cs : List Char} (eq : canonical F d = .ok cs) :
    d.sortKeys.fits = true ∧ d.sortKeys.text F .compact = cs := by
  simp only [canonical, raiseIf_bind_eq_ok, not_eq_false] at eq
  exact ⟨eq.1, Except.ok.inj eq.2⟩

lemma lookup_joinedFields {k : Text} {fs : List (Text × Doc φ)} (plain : ∀ c ∈ k, c.val < 55296) :
    (joinedFields fs).lookup k = (fs.lookup k).map joined := by
  induction fs with
  | nil => rfl
  | cons f fs ih =>
    obtain ⟨k', v⟩ := f
    rw [joinedFields, Dict.lookup_cons, Dict.lookup_cons, ih]
    have same : k = k'.joined ↔ k = k' := by
      constructor
      · intro eq
        exact eq.trans (Text.eq_of_joined (eq ▸ plain)).symm
      · intro eq
        rw [← eq, Text.joined_eq plain]
    by_cases eq : k = k'
    · rw [if_pos (same.2 eq), if_pos eq]
      rfl
    · rw [if_neg (fun h => eq (same.1 h)), if_neg eq]

end Doc

/-! ## The infinite float alone -/

/-- The floats of a program that has no other than `inf`. -/
def Floats.infinite : Floats Unit where
  repr _ := "Infinity".toList
  ofText _ := ()
  finite _ := false
  le
    | .inl m, .inl n => m ≤ n
    | .inr _, .inl _ => false
    | _, .inr _ => true

lemma Floats.lawful_infinite : Floats.infinite.Lawful where
  decimal := by
    intro x finite
    exact absurd finite false_ne_true
  word := by
    intro x _
    exact List.mem_cons_of_mem _ List.mem_cons_self
  ofText_repr _ := rfl

end Workbench.Lib
