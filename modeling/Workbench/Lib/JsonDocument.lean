import Mathlib.Data.List.Lex
import Mathlib.Data.List.Sort
import Workbench.Lib.JsonText
import Workbench.Lib.Outcome

/-!
# JSON documents

What a Python program writes with `json.dumps`: strings of code points, lone surrogates among them, integers
of any size, floats as the interpreter writes them, and objects whose fields stand in the order of writing.
`Doc.text` is the text; every character of it is printable ASCII (`plain_text`). A surrogate pair is written as
the character that it stands for, so that the text of a document is the text of the document with its pairs
joined (`text_joined`).
-/

namespace Workbench.Lib
open List
variable {cs : List Char}

/-- A code point; a Python string may hold lone surrogates. -/
abbrev CodePoint := Fin 1114112

/-- A Python string. -/
abbrev Text := List CodePoint

instance codePoints_ne_zero : NeZero 1114112 := ⟨by decide⟩

instance text_lawfulBEq : LawfulBEq Text := inferInstanceAs (LawfulBEq (List CodePoint))

/-- The floats of the interpreter: how they are written, read and compared. -/
structure Floats (φ : Type) where
  repr : φ → List Char
  ofText : List Char → φ
  finite : φ → Bool
  le : Int ⊕ φ → Int ⊕ φ → Bool

/-- `sys.get_int_max_str_digits()`. -/
def maxDigits : Nat := 4300

/-- A document, its fields in the order in which they are written. -/
inductive Doc (φ : Type) where
  | null
  | bool (b : Bool)
  | int (n : Int)
  | float (x : φ)
  | str (s : Text)
  | arr (items : List (Doc φ))
  | obj (fields : List (Text × Doc φ))

def Digits (cs : List Char) : Prop := cs ≠ [] ∧ ∀ c ∈ cs, c.isDigit = true

/-- The digits before the point: a zero alone, or digits that a zero does not lead. -/
def Integral (cs : List Char) : Prop := cs = ['0'] ∨ Digits cs ∧ ∀ ds, cs ≠ '0' :: ds

def Fraction (cs : List Char) : Prop := cs = [] ∨ ∃ ds, cs = '.' :: ds ∧ Digits ds

def Exponent (cs : List Char) : Prop :=
  cs = [] ∨ ∃ sign ds, cs = 'e' :: (sign ++ ds) ∧ (sign = [] ∨ sign = ['+'] ∨ sign = ['-']) ∧ Digits ds

/-- A JSON number with a fraction or an exponent. -/
def Decimal (cs : List Char) : Prop :=
  ∃ sign i f e, cs = sign ++ (i ++ (f ++ e)) ∧ (sign = [] ∨ sign = ['-']) ∧ Integral i ∧ Fraction f ∧ Exponent e ∧
    ¬ (f = [] ∧ e = [])

/-- `repr` and `float` of the interpreter: a finite float is a JSON number that is no integer, the others are
    words, and the text of a float reads back as the float. -/
structure Floats.Lawful {φ : Type} (F : Floats φ) : Prop where
  decimal : ∀ {x}, F.finite x = true → Decimal (F.repr x)
  word : ∀ {x}, F.finite x = false → F.repr x ∈ ["NaN".toList, "Infinity".toList, "-Infinity".toList]
  ofText_repr : ∀ x, F.ofText (F.repr x) = x

def Text.of (s : String) : Text := s.toList.map fun c => Fin.ofNat _ c.toNat

/-! ## Strings -/

namespace Text
variable {c : CodePoint} {s : Text}

/-- The code points with an escape of two characters. -/
def shortEscape : List (Nat × Char) :=
  [(34, '"'), (92, '\\'), (10, 'n'), (13, 'r'), (9, 't'), (8, 'b'), (12, 'f')]

def escape (c : CodePoint) : List Char :=
  match shortEscape.lookup c.val with
  | some e => ['\\', e]
  | none =>
    if 32 ≤ c.val ∧ c.val < 127 then [Char.ofNat c]
    else if c.val < 65536 then '\\' :: 'u' :: Json.hex4 c
    else '\\' :: 'u' :: Json.hex4 (55296 + (c.val - 65536) / 1024) ++
      '\\' :: 'u' :: Json.hex4 (56320 + (c.val - 65536) % 1024)

def quote (s : Text) : List Char := '"' :: (s.flatMap escape ++ ['"'])

def high (c : CodePoint) : Bool := 55296 ≤ c.val && c.val < 56320

def low (c : CodePoint) : Bool := 56320 ≤ c.val && c.val < 57344

def pair (h l : CodePoint) : CodePoint := Fin.ofNat _ (65536 + (h - 55296) * 1024 + (l - 56320))

/-- Each surrogate pair, read as one character. -/
def joinPairs : Text → Text
  | h :: l :: s => if high h && low l then pair h l :: joinPairs s else h :: joinPairs (l :: s)
  | [c] => [c]
  | [] => []

/-- The code points that are written: a character outside the basic plane is a surrogate pair. -/
def units (c : CodePoint) : Text :=
  if c.val < 65536 then [c]
  else [Fin.ofNat _ (55296 + (c.val - 65536) / 1024), Fin.ofNat _ (56320 + (c.val - 65536) % 1024)]

def joined (s : Text) : Text := joinPairs (s.flatMap units)

lemma lookup_shortEscape {n : Nat} (far : 92 < n) : shortEscape.lookup n = none := by
  rw [lookup_eq_none_iff]
  intro p mem
  have small : ∀ p ∈ shortEscape, p.1 ≤ 92 := by decide
  have bound := small p mem
  have ne : n ≠ p.1 := by omega
  simpa using ne

lemma escape_unicode (far : 127 ≤ c.val) (basic : c.val < 65536) : escape c = '\\' :: 'u' :: Json.hex4 c := by
  rw [escape, lookup_shortEscape (by omega)]
  simp only [if_neg (show ¬ (32 ≤ c.val ∧ c.val < 127) by omega), if_pos basic]

lemma escape_astral (astral : 65536 ≤ c.val) : escape c = '\\' :: 'u' :: Json.hex4 (55296 + (c.val - 65536) / 1024) ++
      '\\' :: 'u' :: Json.hex4 (56320 + (c.val - 65536) % 1024) := by
  rw [escape, lookup_shortEscape (by omega)]
  simp only [if_neg (show ¬ (32 ≤ c.val ∧ c.val < 127) by omega), if_neg (show ¬ c.val < 65536 by omega)]

lemma high_iff : high c = true ↔ 55296 ≤ c.val ∧ c.val < 56320 := by
  simp [high]

lemma low_iff : low c = true ↔ 56320 ≤ c.val ∧ c.val < 57344 := by
  simp [low]

lemma val_pair {h l : CodePoint} (isHigh : high h = true) (isLow : low l = true) :
    (pair h l).val = 65536 + (h.val - 55296) * 1024 + (l.val - 56320) := by
  rw [high_iff] at isHigh
  rw [low_iff] at isLow
  simp only [pair, Fin.ofNat]
  omega

lemma escape_pair {h l : CodePoint} (isHigh : high h = true) (isLow : low l = true) :
    escape (pair h l) = escape h ++ escape l := by
  have value := val_pair isHigh isLow
  rw [high_iff] at isHigh
  rw [low_iff] at isLow
  have upper : 55296 + ((pair h l).val - 65536) / 1024 = h.val := by omega
  have lower : 56320 + ((pair h l).val - 65536) % 1024 = l.val := by omega
  rw [escape_astral (by omega), upper, lower, escape_unicode (by omega) (by omega),
    escape_unicode (by omega) (by omega)]

lemma units_astral (astral : 65536 ≤ c.val) : ∃ h l, units c = [h, l] ∧ high h = true ∧ low l = true ∧ pair h l = c ∧
      h.val = 55296 + (c.val - 65536) / 1024 ∧ l.val = 56320 + (c.val - 65536) % 1024 := by
  have bound := c.isLt
  have valh : (Fin.ofNat 1114112 (55296 + (c.val - 65536) / 1024)).val = 55296 + (c.val - 65536) / 1024 := by
    simp only [Fin.ofNat]
    omega
  have vall : (Fin.ofNat 1114112 (56320 + (c.val - 65536) % 1024)).val = 56320 + (c.val - 65536) % 1024 := by
    simp only [Fin.ofNat]
    omega
  have isHigh := high_iff.2 (by rw [valh]; omega : 55296 ≤ (Fin.ofNat 1114112 (55296 + (c.val - 65536) / 1024)).val ∧ _)
  have isLow := low_iff.2 (by rw [vall]; omega : 56320 ≤ (Fin.ofNat 1114112 (56320 + (c.val - 65536) % 1024)).val ∧ _)
  refine ⟨_, _, if_neg (by omega), isHigh, isLow, ?_, valh, vall⟩
  apply Fin.ext
  rw [val_pair isHigh isLow, valh, vall]
  omega

lemma units_basic (basic : c.val < 65536) : units c = [c] := if_pos basic

lemma flatMap_escape_units : (units c).flatMap escape = escape c := by
  by_cases basic : c.val < 65536
  · rw [units_basic basic, flatMap_singleton]
  · obtain ⟨h, l, eq, isHigh, isLow, rfl, -⟩ := units_astral (c := c) (by omega)
    rw [eq, escape_pair isHigh isLow]
    simp

lemma flatMap_escape_joinPairs : (joinPairs s).flatMap escape = s.flatMap escape := by
  fun_induction joinPairs s with
  | case1 h l s surrogates ih =>
    obtain ⟨isHigh, isLow⟩ := Bool.and_eq_true_iff.1 surrogates
    rw [flatMap_cons, ih, escape_pair isHigh isLow]
    simp only [flatMap_cons, append_assoc]
  | case2 h l s _ ih => simp only [flatMap_cons, ih]
  | case3 c => rfl
  | case4 => rfl

@[simp] lemma quote_joined : quote (joined s) = quote s := by
  have units : (s.flatMap units).flatMap escape = s.flatMap escape := by
    rw [flatMap_assoc]
    exact flatMap_congr fun c _ => flatMap_escape_units
  rw [quote, joined, flatMap_escape_joinPairs, units, quote]

lemma joined_eq (plain : ∀ c ∈ s, c.val < 55296) : joined s = s := by
  have units : s.flatMap units = s := by
    induction s with
    | nil => rfl
    | cons c s ih =>
      rw [flatMap_cons, units_basic (by have := plain c (by simp); omega),
        ih fun d mem => plain d (mem_cons_of_mem _ mem), singleton_append]
  rw [joined, units]
  clear units
  fun_induction joinPairs s with
  | case1 h l s surrogates ih =>
    have isHigh := high_iff.1 (Bool.and_eq_true_iff.1 surrogates).1
    have := plain h (by simp)
    omega
  | case2 h l s _ ih => rw [ih fun d mem => plain d (mem_cons_of_mem _ mem)]
  | case3 c => rfl
  | case4 => rfl

lemma eq_of_joined (plain : ∀ c ∈ joined s, c.val < 55296) : s = joined s := by
  -- joining leaves no pair behind, so that there was none
  have units : ∀ {us : Text}, (∀ c ∈ joinPairs us, c.val < 55296) → joinPairs us = us := by
    intro us plain
    fun_induction joinPairs us with
    | case1 h l s surrogates ih =>
      obtain ⟨isHigh, isLow⟩ := Bool.and_eq_true_iff.1 surrogates
      have value := val_pair isHigh isLow
      have := plain (pair h l) (by simp)
      omega
    | case2 h l s _ ih => rw [ih fun d mem => plain d (mem_cons_of_mem _ mem)]
    | case3 c => rfl
    | case4 => rfl
  have whole := units plain
  symm
  apply joined_eq
  rw [joined, whole] at plain
  intro c mem
  by_cases basic : c.val < 65536
  · exact plain c (mem_flatMap.2 ⟨c, mem, by rw [units_basic basic]; simp⟩)
  · obtain ⟨h, l, eq, isHigh, -⟩ := units_astral (c := c) (by omega)
    have := plain h (mem_flatMap.2 ⟨c, mem, by rw [eq]; simp⟩)
    rw [high_iff] at isHigh
    omega

end Text

/-! ## Printable ASCII -/

def Plain (cs : List Char) : Prop := ∀ c ∈ cs, 32 ≤ c.toNat ∧ c.toNat < 127

@[simp] lemma plain_nil : Plain [] := fun _ mem => absurd mem not_mem_nil

@[simp] lemma plain_cons {c : Char} : Plain (c :: cs) ↔ (32 ≤ c.toNat ∧ c.toNat < 127) ∧ Plain cs := forall_mem_cons

@[simp] lemma plain_append {ds : List Char} : Plain (cs ++ ds) ↔ Plain cs ∧ Plain ds := forall_mem_append

lemma plain_digits (digits : ∀ c ∈ cs, c.isDigit = true) : Plain cs := by
  intro c mem
  have digit := digits c mem
  simp only [Char.isDigit, Bool.and_eq_true, decide_eq_true_eq] at digit
  have low : 48 ≤ c.toNat := digit.1
  have high : c.toNat ≤ 57 := digit.2
  omega

lemma plain_hex4 {n : Nat} : Plain (Json.hex4 n) := by
  have digit : ∀ n < 16, 32 ≤ (Nat.digitChar n).toNat ∧ (Nat.digitChar n).toNat < 127 := by decide
  simp only [Json.hex4, plain_cons, plain_nil, and_true]
  exact ⟨digit _ (by omega), digit _ (by omega), digit _ (by omega), digit _ (by omega)⟩

lemma Text.plain_escape {c : CodePoint} : Plain (escape c) := by
  have unicode : ∀ {n}, Plain ('\\' :: 'u' :: Json.hex4 n) := fun {n} =>
    plain_cons.2 ⟨by decide, plain_cons.2 ⟨by decide, plain_hex4⟩⟩
  unfold escape
  split
  · rename_i e found
    obtain ⟨l, l', eq, -⟩ := lookup_eq_some_iff.1 found
    have mem : (c.val, e) ∈ shortEscape := by
      rw [eq]
      simp
    have short : ∀ p ∈ shortEscape, Plain ['\\', p.2] := by
      simp only [plain_cons, plain_nil, and_true]
      decide
    exact short _ mem
  · split
    · rename_i range
      have same : (Char.ofNat c.val).toNat = c.val := by
        rw [Char.ofNat, dif_pos (.inl (by omega))]
        rfl
      rw [plain_cons, same]
      exact ⟨range, plain_nil⟩
    · split
      · exact unicode
      · exact plain_append.2 ⟨unicode, unicode⟩

lemma Text.plain_quote {s : Text} : Plain s.quote := by
  have inside : Plain (s.flatMap escape) := by
    intro c mem
    obtain ⟨u, -, mem⟩ := mem_flatMap.1 mem
    exact plain_escape c mem
  rw [quote, plain_cons, plain_append]
  exact ⟨by decide, inside, plain_cons.2 ⟨by decide, plain_nil⟩⟩

lemma plain_intText {n : Int} : Plain (Json.intText n) := by
  have digits : ∀ {k}, Plain (Nat.toDigits 10 k) := fun {k} =>
    plain_digits fun c mem => Nat.isDigit_of_mem_toDigits (by decide) (by decide) mem
  cases n with
  | ofNat n => exact digits
  | negSucc n => exact plain_cons.2 ⟨by decide, digits⟩

lemma Decimal.plain (decimal : Decimal cs) : Plain cs := by
  obtain ⟨sign, i, f, e, rfl, minus, int, frac, exp, -⟩ := decimal
  have signs : ∀ {s : List Char}, s = [] ∨ s = ['+'] ∨ s = ['-'] → Plain s := by
    intro s eq
    rcases eq with rfl | rfl | rfl
    · exact plain_nil
    · exact plain_cons.2 ⟨by decide, plain_nil⟩
    · exact plain_cons.2 ⟨by decide, plain_nil⟩
  have plaini : Plain i := by
    rcases int with rfl | ⟨digits, -⟩
    · exact plain_cons.2 ⟨by decide, plain_nil⟩
    · exact plain_digits digits.2
  have plainf : Plain f := by
    rcases frac with rfl | ⟨ds, rfl, digits⟩
    · exact plain_nil
    · exact plain_cons.2 ⟨by decide, plain_digits digits.2⟩
  have plaine : Plain e := by
    rcases exp with rfl | ⟨s, ds, rfl, eq, digits⟩
    · exact plain_nil
    · exact plain_cons.2 ⟨by decide, plain_append.2 ⟨signs eq, plain_digits digits.2⟩⟩
  simp only [plain_append]
  exact ⟨signs (minus.imp id .inr), plaini, plainf, plaine⟩

lemma Floats.Lawful.plain_repr {φ : Type} {F : Floats φ} (lawful : F.Lawful) {x : φ} : Plain (F.repr x) := by
  cases finite : F.finite x with
  | true => exact (lawful.decimal finite).plain
  | false =>
    have words : ∀ w ∈ ["NaN".toList, "Infinity".toList, "-Infinity".toList], Plain w := by
      intro w mem
      simp only [mem_cons, not_mem_nil, or_false] at mem
      rcases mem with rfl | rfl | rfl <;> simp
    exact words _ (lawful.word finite)

/-- The separators of a text: `(",", ":")` or `(", ", ": ")`. -/
inductive Separators where
  | compact
  | spaced

def Separators.gap : Separators → List Char
  | .compact => []
  | .spaced => [' ']

lemma Separators.plain_gap {q : Separators} : Plain q.gap := by
  cases q with
  | compact => exact plain_nil
  | spaced => exact plain_cons.2 ⟨by decide, plain_nil⟩

namespace Doc

variable {φ : Type} (F : Floats φ) (q : Separators)

mutual

def text : Doc φ → List Char
  | .null => "null".toList
  | .bool true => "true".toList
  | .bool false => "false".toList
  | .int n => Json.intText n
  | .float x => F.repr x
  | .str s => s.quote
  | .arr items => '[' :: textItems items
  | .obj fields => '\x7b' :: textFields fields

def textItems : List (Doc φ) → List Char
  | [] => [']']
  | v :: vs => text v ++ moreItems vs

def moreItems : List (Doc φ) → List Char
  | [] => [']']
  | v :: vs => ',' :: (q.gap ++ (text v ++ moreItems vs))

def textFields : List (Text × Doc φ) → List Char
  | [] => ['}']
  | (k, v) :: fs => k.quote ++ ':' :: (q.gap ++ (text v ++ moreFields fs))

def moreFields : List (Text × Doc φ) → List Char
  | [] => ['}']
  | (k, v) :: fs => ',' :: (q.gap ++ (k.quote ++ ':' :: (q.gap ++ (text v ++ moreFields fs))))

end

mutual

/-- The document with its surrogate pairs joined. -/
def joined : Doc φ → Doc φ
  | .null => .null
  | .bool b => .bool b
  | .int n => .int n
  | .float x => .float x
  | .str s => .str s.joined
  | .arr items => .arr (joinedItems items)
  | .obj fields => .obj (joinedFields fields)

def joinedItems : List (Doc φ) → List (Doc φ)
  | [] => []
  | v :: vs => joined v :: joinedItems vs

def joinedFields : List (Text × Doc φ) → List (Text × Doc φ)
  | [] => []
  | (k, v) :: fs => (k.joined, joined v) :: joinedFields fs

end

mutual

/-- The document with the fields of every object sorted by key. -/
def sortKeys : Doc φ → Doc φ
  | .null => .null
  | .bool b => .bool b
  | .int n => .int n
  | .float x => .float x
  | .str s => .str s
  | .arr items => .arr (sortItems items)
  | .obj fields => .obj ((sortFields fields).insertionSort fun a b => a.1 ≤ b.1)

def sortItems : List (Doc φ) → List (Doc φ)
  | [] => []
  | v :: vs => sortKeys v :: sortItems vs

def sortFields : List (Text × Doc φ) → List (Text × Doc φ)
  | [] => []
  | (k, v) :: fs => (k, sortKeys v) :: sortFields fs

end

mutual

/-- No integer has more digits than the interpreter writes and reads. -/
def fits : Doc φ → Bool
  | .null | .bool _ | .float _ | .str _ => true
  | .int n => (Nat.toDigits 10 n.natAbs).length ≤ maxDigits
  | .arr items => fitsItems items
  | .obj fields => fitsFields fields

def fitsItems : List (Doc φ) → Bool
  | [] => true
  | v :: vs => fits v && fitsItems vs

def fitsFields : List (Text × Doc φ) → Bool
  | [] => true
  | (_, v) :: fs => fits v && fitsFields fs

end

mutual

def ordered : Doc φ → Bool
  | .null | .bool _ | .int _ | .float _ | .str _ => true
  | .arr items => orderedItems items
  | .obj fields => orderedFields fields && decide ((fields.map Prod.fst).Pairwise (· < ·))

/-- The keys of the objects among the items increase. -/
def orderedItems : List (Doc φ) → Bool
  | [] => true
  | v :: vs => ordered v && orderedItems vs

/-- The keys of the objects among the fields increase. -/
def orderedFields : List (Text × Doc φ) → Bool
  | [] => true
  | (_, v) :: fs => ordered v && orderedFields fs

end

variable {F} {q}

/-! ## What is read back -/

mutual

/-- A document is written as the document that is read back. -/
theorem text_joined : ∀ {d : Doc φ}, text F q (joined d) = text F q d
  | .null => rfl
  | .bool b => by cases b <;> rfl
  | .int _ => rfl
  | .float _ => rfl
  | .str s => by rw [joined, text, text, Text.quote_joined]
  | .arr items => by rw [joined, text, text, textItems_joined]
  | .obj fields => by rw [joined, text, text, textFields_joined]

theorem textItems_joined : ∀ {vs : List (Doc φ)}, textItems F q (joinedItems vs) = textItems F q vs
  | [] => rfl
  | v :: vs => by rw [joinedItems, textItems, textItems, text_joined, moreItems_joined]

theorem moreItems_joined : ∀ {vs : List (Doc φ)}, moreItems F q (joinedItems vs) = moreItems F q vs
  | [] => rfl
  | v :: vs => by rw [joinedItems, moreItems, moreItems, text_joined, moreItems_joined]

theorem textFields_joined : ∀ {fs : List (Text × Doc φ)}, textFields F q (joinedFields fs) = textFields F q fs
  | [] => rfl
  | (k, v) :: fs => by
    rw [joinedFields, textFields, textFields, Text.quote_joined, text_joined, moreFields_joined]

theorem moreFields_joined : ∀ {fs : List (Text × Doc φ)}, moreFields F q (joinedFields fs) = moreFields F q fs
  | [] => rfl
  | (k, v) :: fs => by
    rw [joinedFields, moreFields, moreFields, Text.quote_joined, text_joined, moreFields_joined]

end

mutual

/-- A document whose keys increase is sorted. -/
theorem sortKeys_eq : ∀ {d : Doc φ}, ordered d = true → sortKeys d = d
  | .null, _ => rfl
  | .bool _, _ => rfl
  | .int _, _ => rfl
  | .float _, _ => rfl
  | .str _, _ => rfl
  | .arr items, h => by rw [sortKeys, sortItems_eq h]
  | .obj fields, h => by
    obtain ⟨inside, increase⟩ := Bool.and_eq_true_iff.1 h
    have keys := of_decide_eq_true increase
    rw [sortKeys, sortFields_eq inside, List.Pairwise.insertionSort_eq]
    exact (pairwise_map.1 keys).imp fun lt => le_of_lt lt

theorem sortItems_eq : ∀ {vs : List (Doc φ)}, orderedItems vs = true → sortItems vs = vs
  | [], _ => rfl
  | v :: vs, h => by
    obtain ⟨head, tail⟩ := Bool.and_eq_true_iff.1 h
    rw [sortItems, sortKeys_eq head, sortItems_eq tail]

theorem sortFields_eq : ∀ {fs : List (Text × Doc φ)}, orderedFields fs = true → sortFields fs = fs
  | [], _ => rfl
  | (k, v) :: fs, h => by
    obtain ⟨head, tail⟩ := Bool.and_eq_true_iff.1 h
    rw [sortFields, sortKeys_eq head, sortFields_eq tail]

end

mutual

/-- A document is written in printable ASCII. -/
theorem plain_text (lawful : F.Lawful) : ∀ {d : Doc φ}, Plain (text F q d)
  | .null => by simp [text]
  | .bool true => by simp [text]
  | .bool false => by simp [text]
  | .int _ => plain_intText
  | .float _ => lawful.plain_repr
  | .str _ => Text.plain_quote
  | .arr items => plain_cons.2 ⟨by decide, plain_textItems lawful⟩
  | .obj fields => plain_cons.2 ⟨by decide, plain_textFields lawful⟩

theorem plain_textItems (lawful : F.Lawful) : ∀ {vs : List (Doc φ)}, Plain (textItems F q vs)
  | [] => plain_cons.2 ⟨by decide, plain_nil⟩
  | v :: vs => plain_append.2 ⟨plain_text lawful, plain_moreItems lawful⟩

theorem plain_moreItems (lawful : F.Lawful) : ∀ {vs : List (Doc φ)}, Plain (moreItems F q vs)
  | [] => plain_cons.2 ⟨by decide, plain_nil⟩
  | v :: vs => plain_cons.2 ⟨by decide, plain_append.2 ⟨q.plain_gap, plain_append.2
      ⟨plain_text lawful, plain_moreItems lawful⟩⟩⟩

theorem plain_textFields (lawful : F.Lawful) : ∀ {fs : List (Text × Doc φ)}, Plain (textFields F q fs)
  | [] => plain_cons.2 ⟨by decide, plain_nil⟩
  | (k, v) :: fs => plain_append.2 ⟨Text.plain_quote, plain_cons.2 ⟨by decide, plain_append.2 ⟨q.plain_gap,
      plain_append.2 ⟨plain_text lawful, plain_moreFields lawful⟩⟩⟩⟩

theorem plain_moreFields (lawful : F.Lawful) : ∀ {fs : List (Text × Doc φ)}, Plain (moreFields F q fs)
  | [] => plain_cons.2 ⟨by decide, plain_nil⟩
  | (k, v) :: fs => plain_cons.2 ⟨by decide, plain_append.2 ⟨q.plain_gap, plain_append.2 ⟨Text.plain_quote,
      plain_cons.2 ⟨by decide, plain_append.2 ⟨q.plain_gap,
        plain_append.2 ⟨plain_text lawful, plain_moreFields lawful⟩⟩⟩⟩⟩⟩

end

/-- The value of a key; `none` where it is missing. -/
def get? (fields : List (Text × Doc φ)) (k : String) : Option (Doc φ) := fields.lookup (Text.of k)

end Doc

end Workbench.Lib
