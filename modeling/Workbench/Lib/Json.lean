import Workbench.Lib.Dict

/-!
# JSON values

JSON as a Python program sees it: an object is the list of its fields in insertion order, `true` and `false`
are integers, and every value has a truth value. Numbers are integers.
-/

namespace Workbench.Lib

/-- A JSON value. -/
inductive Json where
  | null
  | bool (b : Bool)
  | int (n : Int)
  | str (s : String)
  | arr (items : List Json)
  | obj (fields : List (String × Json))

namespace Json

mutual

def decEq : (a b : Json) → Decidable (a = b)
  | .null, b => match b with
    | .null => isTrue rfl
    | .bool _ | .int _ | .str _ | .arr _ | .obj _ => isFalse nofun
  | .bool a, b => match b with
    | .bool b => decidable_of_iff (a = b) ⟨congrArg _, fun h => by cases h; rfl⟩
    | .null | .int _ | .str _ | .arr _ | .obj _ => isFalse nofun
  | .int a, b => match b with
    | .int b => decidable_of_iff (a = b) ⟨congrArg _, fun h => by cases h; rfl⟩
    | .null | .bool _ | .str _ | .arr _ | .obj _ => isFalse nofun
  | .str a, b => match b with
    | .str b => decidable_of_iff (a = b) ⟨congrArg _, fun h => by cases h; rfl⟩
    | .null | .bool _ | .int _ | .arr _ | .obj _ => isFalse nofun
  | .arr a, b => match b with
    | .arr b => match decEqList a b with
      | isTrue eq => isTrue (congrArg _ eq)
      | isFalse ne => isFalse fun h => ne (by cases h; rfl)
    | .null | .bool _ | .int _ | .str _ | .obj _ => isFalse nofun
  | .obj a, b => match b with
    | .obj b => match decEqFields a b with
      | isTrue eq => isTrue (congrArg _ eq)
      | isFalse ne => isFalse fun h => ne (by cases h; rfl)
    | .null | .bool _ | .int _ | .str _ | .arr _ => isFalse nofun

def decEqList : (as bs : List Json) → Decidable (as = bs)
  | [], [] => isTrue rfl
  | [], _ :: _ | _ :: _, [] => isFalse nofun
  | a :: as, b :: bs => match decEq a b, decEqList as bs with
    | isTrue eq, isTrue eq' => isTrue (by rw [eq, eq'])
    | isFalse ne, _ => isFalse fun h => ne (by cases h; rfl)
    | _, isFalse ne => isFalse fun h => ne (by cases h; rfl)

def decEqFields : (as bs : List (String × Json)) → Decidable (as = bs)
  | [], [] => isTrue rfl
  | [], _ :: _ | _ :: _, [] => isFalse nofun
  | (k, a) :: as, (k', b) :: bs => match decEq a b, decEqFields as bs with
    | isTrue eq, isTrue eq' => decidable_of_iff (k = k') ⟨fun h => by rw [h, eq, eq'], fun h => by cases h; rfl⟩
    | isFalse ne, _ => isFalse fun h => ne (by cases h; rfl)
    | _, isFalse ne => isFalse fun h => ne (by cases h; rfl)

end

instance : DecidableEq Json := decEq

/-- `isinstance(v, int)`, and the integer. -/
def asInt : Json → Option Int
  | .int n => some n
  | .bool b => some (if b then 1 else 0)
  | _ => none

/-- `bool(v)`. -/
def truthy : Json → Bool
  | .null => false
  | .bool b => b
  | .int n => n ≠ 0
  | .str s => s ≠ ""
  | .arr items => !items.isEmpty
  | .obj fields => !fields.isEmpty

/-- `list(v)`; `none` is a `TypeError`. -/
def toList : Json → Option (List Json)
  | .arr items => some items
  | .str s => some (s.toList.map fun c => .str (String.singleton c))
  | .obj fields => some (fields.map fun e => .str e.1)
  | .null | .bool _ | .int _ => none

def ofOption : Option String → Json
  | none => .null
  | some s => .str s

/-- `fields.get(k)`. -/
def field (fields : List (String × Json)) (k : String) : Json := (fields.lookup k).getD .null

/-- `fields.get(k, default)`. -/
def fieldD (fields : List (String × Json)) (k : String) (default : Json) : Json := (fields.lookup k).getD default

end Json

end Workbench.Lib
