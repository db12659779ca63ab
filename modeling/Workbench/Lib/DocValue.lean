import Workbench.Lib.IsoTime
import Workbench.Lib.JsonDumps

/-!
# Documents as values

What a Python program asks of a JSON value that it has read: whether it equals an integer, whether it is one, its
truth value, the list that it makes, and the datetime that its text names.
-/

namespace Workbench.Lib

/-- A character of a string without surrogates. -/
def Text.char (c : CodePoint) : Char := Char.ofNat c.val

def Text.surrogate (c : CodePoint) : Bool := 55296 ≤ c.val && c.val < 57344

lemma toNat_ofNat_val {c : Char} : (Fin.ofNat 1114112 c.toNat).val = c.toNat := by
  have bound : c.toNat < 1114112 := by
    have valid := c.valid
    rw [UInt32.isValidChar, Nat.isValidChar] at valid
    have same : c.toNat = c.val.toNat := rfl
    omega
  exact Nat.mod_eq_of_lt bound

lemma Text.map_char_ofChars {cs : List Char} : (ofChars cs).map Text.char = cs := by
  have back : ∀ c : Char, Text.char (Fin.ofNat _ c.toNat) = c := by
    intro c
    rw [Text.char, toNat_ofNat_val, Char.ofNat_toNat]
  rw [ofChars, List.map_map]
  exact List.map_id'' back cs

lemma Text.surrogate_ofChars {cs : List Char} {c : CodePoint} (mem : c ∈ ofChars cs) : surrogate c = false := by
  obtain ⟨d, -, rfl⟩ := List.mem_map.1 mem
  have valid := d.valid
  rw [UInt32.isValidChar, Nat.isValidChar] at valid
  have same : d.toNat = d.val.toNat := rfl
  rw [surrogate, toNat_ofNat_val]
  grind

/-- `_sanitize_isoformat_str`: a surrogate may stand where the separator can, and nowhere else. -/
def Text.isoChars (s : Text) : Option (List Char) :=
  let s := match [7, 8, 10].find? fun p => (s[p]?).any surrogate with
    | some p => s.set p (Fin.ofNat _ 'T'.toNat)
    | none => s
  if s.any surrogate then none else some (s.map char)

lemma Text.isoChars_ofChars {cs : List Char} : isoChars (ofChars cs) = some cs := by
  have plain : (ofChars cs).any surrogate = false :=
    List.any_eq_false.2 fun c mem => Bool.eq_false_iff.1 (surrogate_ofChars mem)
  have none_ : ([7, 8, 10].find? fun p => ((ofChars cs)[p]?).any surrogate) = none := by
    refine List.find?_eq_none.2 fun p _ found => ?_
    obtain ⟨c, get, isSurrogate⟩ := Option.any_eq_true _ _ |>.1 found
    rw [surrogate_ofChars (List.mem_of_getElem? get)] at isSurrogate
    cases isSurrogate
  rw [isoChars, none_]
  simp only [plain, Bool.false_eq_true, if_false, map_char_ofChars]

@[simp] lemma Text.of_eq_of {a b : String} : Text.of a = Text.of b ↔ a = b := by
  constructor
  · intro eq
    have same : (ofChars a.toList).map Text.char = (ofChars b.toList).map Text.char := congrArg _ eq
    rw [Text.map_char_ofChars, Text.map_char_ofChars] at same
    exact String.toList_injective same
  · intro eq
    rw [eq]

namespace Doc

variable {φ : Type}

/-- `v == n` -/
def equalsInt (F : Floats φ) (n : Int) : Doc φ → Bool
  | .int m => m = n
  | .bool b => (if b then 1 else 0) = n
  | .float x => F.le (.inr x) (.inl n) && F.le (.inl n) (.inr x)
  | .null | .str _ | .arr _ | .obj _ => false

/-- `isinstance(v, int)`, and the integer. -/
def asInt : Doc φ → Option Int
  | .int n => some n
  | .bool b => some (if b then 1 else 0)
  | .null | .float _ | .str _ | .arr _ | .obj _ => none

/-- `bool(v)` -/
def truthy (F : Floats φ) : Doc φ → Bool
  | .null => false
  | .bool b => b
  | .int n => n ≠ 0
  | .float x => !equalsInt F 0 (.float x)
  | .str s => !s.isEmpty
  | .arr items => !items.isEmpty
  | .obj fields => !fields.isEmpty

/-- `list(v)`; `none` is a `TypeError`. -/
def toItems : Doc φ → Option (List (Doc φ))
  | .arr items => some items
  | .str s => some (s.map fun c => .str [c])
  | .obj fields => some (fields.map fun e => .str e.1)
  | .null | .bool _ | .int _ | .float _ => none

/-- `datetime.fromisoformat(v)`; `none` is a `TypeError` or a `ValueError`. -/
def datetime : Doc φ → Option DateTime
  | .str s => s.isoChars.bind DateTime.fromisoformat
  | .null | .bool _ | .int _ | .float _ | .arr _ | .obj _ => none

/-- `t.isoformat()` -/
def ofDatetime (t : DateTime) : Doc φ := .str (ofChars t.isoformat)

/-- `fields.get(k)` -/
def get (fields : List (Text × Doc φ)) (k : String) : Doc φ := (get? fields k).getD .null

@[simp] lemma datetime_ofDatetime {t : DateTime} : (ofDatetime t : Doc φ).datetime = some t := by
  rw [ofDatetime, datetime, Text.isoChars_ofChars, Option.bind_some, DateTime.fromisoformat_isoformat]

@[simp] lemma get?_nil {k : String} : get? ([] : List (Text × Doc φ)) k = none := rfl

lemma get?_cons {k k' : String} {v : Doc φ} {fields : List (Text × Doc φ)} :
    get? ((Text.of k', v) :: fields) k = if k = k' then some v else get? fields k := by
  simp only [get?, Dict.lookup_cons, Text.of_eq_of]

end Doc

end Workbench.Lib
