import Workbench.Lib.JsonDocument

/-!
# Reading JSON

`json.loads`, with what its caller does at the end of an object, at a float and at a constant as `Hooks`. The
text of a document reads back as the document with its surrogate pairs joined (`loads_text`), where the hooks
take what the document holds and every integer has digits that `int` still reads.
-/

namespace Workbench.Lib
open List

/-- How reading a text fails. -/
inductive LoadError where
  /-- `JSONDecodeError`. -/
  | decode
  /-- The `ValueError` of an integer with too many digits. -/
  | digits
  /-- A hook raised. -/
  | refused
deriving DecidableEq

/-- What a caller of `json.loads` does with the pairs of an object, a constant and a float. -/
structure Hooks (φ : Type) where
  pairs : List (Text × Doc φ) → Except LoadError (List (Text × Doc φ))
  constant : List Char → Except LoadError φ
  float : List Char → Except LoadError φ

namespace Loads

variable {φ : Type}

/-! ## Strings -/

def hexDigit (c : Char) : Option Nat :=
  if '0' ≤ c ∧ c ≤ '9' then some (c.toNat - 48)
  else if 'a' ≤ c ∧ c ≤ 'f' then some (c.toNat - 87)
  else if 'A' ≤ c ∧ c ≤ 'F' then some (c.toNat - 55)
  else none

def hexDigits (a b c d : Char) : Option Nat := do
  let a ← hexDigit a
  let b ← hexDigit b
  let c ← hexDigit c
  let d ← hexDigit d
  return a * 4096 + b * 256 + c * 16 + d

/-- The code point of an escape of two characters. -/
def unescape (e : Char) : Option CodePoint :=
  if e = '/' then some 47 else (Text.shortEscape.find? (·.2 = e)).map fun p => Fin.ofNat _ p.1

/-- The code points up to the closing quote, each escape of four digits as one. -/
@[grind] def scanString : List Char → Except LoadError (Text × List Char)
  | [] => .error .decode
  | c :: cs =>
    if c = '"' then .ok ([], cs)
    else if c = '\\' then
      match cs with
      | 'u' :: a :: b :: c :: d :: cs => do
        let n ← orRaise (hexDigits a b c d) .decode
        let (s, rest) ← scanString cs
        return (Fin.ofNat _ n :: s, rest)
      | e :: cs => do
        let u ← orRaise (unescape e) .decode
        let (s, rest) ← scanString cs
        return (u :: s, rest)
      | [] => .error .decode
    else do
      raiseIf (c.toNat < 32) .decode
      let (s, rest) ← scanString cs
      return (Fin.ofNat _ c.toNat :: s, rest)

/-! ## Numbers -/

def integral : List Char → Option (List Char × List Char)
  | '0' :: cs => some (['0'], cs)
  | cs => if cs.takeWhile Char.isDigit = [] then none
    else some (cs.takeWhile Char.isDigit, cs.dropWhile Char.isDigit)

def fraction : List Char → List Char × List Char
  | '.' :: cs => if cs.takeWhile Char.isDigit = [] then ([], '.' :: cs)
    else ('.' :: cs.takeWhile Char.isDigit, cs.dropWhile Char.isDigit)
  | cs => ([], cs)

def expSign : List Char → List Char × List Char
  | '+' :: cs => (['+'], cs)
  | '-' :: cs => (['-'], cs)
  | cs => ([], cs)

def exponent : List Char → List Char × List Char
  | [] => ([], [])
  | e :: cs =>
    if e = 'e' ∨ e = 'E' then
      let (sign, ds) := expSign cs
      if ds.takeWhile Char.isDigit = [] then ([], e :: cs)
      else (e :: (sign ++ ds.takeWhile Char.isDigit), ds.dropWhile Char.isDigit)
    else ([], e :: cs)

variable (H : Hooks φ)

def unsigned (sign : List Char) (cs : List Char) : Except LoadError (Doc φ × List Char) :=
  match integral cs with
  | none => .error .decode
  | some (i, cs) =>
    let (f, cs) := fraction cs
    let (e, cs) := exponent cs
    if f = [] ∧ e = [] then
      if maxDigits < i.length then .error .digits
      else .ok (.int (if sign = [] then Nat.ofDigitChars 10 i 0 else - Nat.ofDigitChars 10 i 0), cs)
    else (H.float (sign ++ (i ++ (f ++ e)))).map fun x => (.float x, cs)

def number : List Char → Except LoadError (Doc φ × List Char)
  | '-' :: cs => unsigned H ['-'] cs
  | cs => unsigned H [] cs

/-! ## Values -/

def word : List Char → List Char → Option (List Char)
  | [], cs => some cs
  | w :: ws, c :: cs => if w = c then word ws cs else none
  | _ :: _, [] => none

def scalar (cs : List Char) : Except LoadError (Doc φ × List Char) :=
  match word "null".toList cs with
  | some rest => .ok (.null, rest)
  | none => match word "true".toList cs with
    | some rest => .ok (.bool true, rest)
    | none => match word "false".toList cs with
      | some rest => .ok (.bool false, rest)
      | none => match ["NaN".toList, "Infinity".toList, "-Infinity".toList].find? (fun w => (word w cs).isSome) with
        | some w => (H.constant w).map fun x => (.float x, cs.drop w.length)
        | none => number H cs

def skip (cs : List Char) : List Char := cs.dropWhile fun c => c = ' ' || c = '\t' || c = '\n' || c = '\r'

def key : List Char → Except LoadError (Text × List Char)
  | '"' :: cs => do
    let (s, cs) ← scanString cs
    match skip cs with
    | ':' :: cs => return (Text.joinPairs s, skip cs)
    | _ => .error .decode
  | _ => .error .decode

mutual

/-- A value, and the text behind it; a text of `n` characters holds no value deeper than `n`. -/
@[grind] def value : Nat → List Char → Except LoadError (Doc φ × List Char)
  | 0, _ => .error .decode
  | n + 1, cs => match cs with
    | '"' :: cs => do
      let (s, rest) ← scanString cs
      return (.str (Text.joinPairs s), rest)
    | '[' :: cs => match skip cs with
      | ']' :: rest => .ok (.arr [], rest)
      | cs => do
        let (vs, rest) ← items n cs
        return (.arr vs, rest)
    | '\x7b' :: cs => match skip cs with
      | '}' :: rest => do
        let fs ← H.pairs []
        return (.obj fs, rest)
      | cs => do
        let (fs, rest) ← fields n cs
        let fs ← H.pairs fs
        return (.obj fs, rest)
    | cs => scalar H cs

@[grind] def items : Nat → List Char → Except LoadError (List (Doc φ) × List Char)
  | 0, _ => .error .decode
  | n + 1, cs => do
    let (v, cs) ← value n cs
    match skip cs with
    | ',' :: cs => do
      let (vs, rest) ← items n (skip cs)
      return (v :: vs, rest)
    | ']' :: rest => return ([v], rest)
    | _ => .error .decode

@[grind] def fields : Nat → List Char → Except LoadError (List (Text × Doc φ) × List Char)
  | 0, _ => .error .decode
  | n + 1, cs => do
    let (k, cs) ← key cs
    let (v, cs) ← value n cs
    match skip cs with
    | ',' :: cs => do
      let (fs, rest) ← fields n (skip cs)
      return ((k, v) :: fs, rest)
    | '}' :: rest => return ([(k, v)], rest)
    | _ => .error .decode

end

end Loads

/-- `json.loads(s, ...)`. -/
def loads {φ : Type} (H : Hooks φ) (cs : List Char) : Except LoadError (Doc φ) := do
  let (v, rest) ← Loads.value H (2 * cs.length + 2) (Loads.skip cs)
  raiseIf (Loads.skip rest ≠ []) .decode
  return v

/-- `json.loads(s)`: a later pair of a key replaces the value. -/
def Hooks.plain {φ : Type} (F : Floats φ) : Hooks φ where
  pairs ps := .ok (ps.foldl (fun fs p => Dict.setEntry p.1 p.2 fs) [])
  constant w := .ok (F.ofText w)
  float cs := .ok (F.ofText cs)

namespace Loads
variable {n : Nat} {cs ds i g e : List Char} {c : Char} {φ : Type}

/-! ## Strings are read back -/

lemma hexDigit_digitChar : ∀ n < 16, hexDigit (Nat.digitChar n) = some n := by decide

lemma hexDigits_hex4 (lt : n < 65536) :
    hexDigits (Nat.digitChar (n / 4096 % 16)) (Nat.digitChar (n / 256 % 16)) (Nat.digitChar (n / 16 % 16))
      (Nat.digitChar (n % 16)) = some n := by
  have whole : n / 4096 % 16 * 4096 + n / 256 % 16 * 256 + n / 16 % 16 * 16 + n % 16 = n := by omega
  rw [hexDigits, hexDigit_digitChar _ (by omega), hexDigit_digitChar _ (by omega),
    hexDigit_digitChar _ (by omega), hexDigit_digitChar _ (by omega)]
  exact congrArg some whole

lemma scanString_quote : scanString ('"' :: cs) = .ok ([], cs) := by
  rw [scanString.eq_def]
  exact if_pos rfl

lemma scanString_unicode {a b d : Char} : scanString ('\\' :: 'u' :: a :: b :: c :: d :: cs) = (do
      let n ← orRaise (hexDigits a b c d) .decode
      let (s, t) ← scanString cs
      return (Fin.ofNat _ n :: s, t)) := by
  rw [scanString.eq_def]
  rfl

lemma scanString_short {e : Char} (notu : e ≠ 'u') : scanString ('\\' :: e :: cs) = (do
      let u ← orRaise (unescape e) .decode
      let (s, t) ← scanString cs
      return (u :: s, t)) := by
  rw [scanString.eq_def]
  simp only [if_neg (show ¬ '\\' = '"' by decide), if_true]
  split
  · rename_i shape
    exact absurd (List.cons.inj shape).1 notu
  · rename_i shape
    obtain ⟨rfl, rfl⟩ := List.cons.inj shape
    rfl
  · rename_i shape
    cases shape

lemma scanString_char (notquote : c ≠ '"') (notslash : c ≠ '\\') : scanString (c :: cs) = (do
      raiseIf (c.toNat < 32) .decode
      let (s, t) ← scanString cs
      return (Fin.ofNat _ c.toNat :: s, t)) := by
  rw [scanString.eq_def]
  simp only [if_neg notquote, if_neg notslash]

lemma scanString_hex4 {s : Text} {t : List Char} (lt : n < 65536) (tail : scanString cs = .ok (s, t)) :
    scanString ('\\' :: 'u' :: Json.hex4 n ++ cs) = .ok (Fin.ofNat _ n :: s, t) := by
  rw [Json.hex4, cons_append, cons_append]
  simp only [cons_append, nil_append]
  rw [scanString_unicode, hexDigits_hex4 lt, tail]
  rfl

lemma scanString_escape {c : CodePoint} {s : Text} {t : List Char} (tail : scanString cs = .ok (s, t)) :
    scanString (Text.escape c ++ cs) = .ok (Text.units c ++ s, t) := by
  have bound := c.isLt
  have self : ∀ {n}, n = c.val → Fin.ofNat 1114112 n = c := by
    intro n eq
    apply Fin.ext
    simp only [Fin.ofNat, eq]
    omega
  unfold Text.escape
  split
  · rename_i e found
    obtain ⟨l, l', eq, -⟩ := lookup_eq_some_iff.1 found
    have mem : (c.val, e) ∈ Text.shortEscape := by
      rw [eq]
      simp
    have short : ∀ p ∈ Text.shortEscape, p.2 ≠ 'u' ∧ unescape p.2 = some (Fin.ofNat _ p.1) ∧ p.1 < 65536 := by
      decide
    obtain ⟨notu, read, basic⟩ := short _ mem
    simp only at notu read
    rw [Text.units_basic basic, cons_append, cons_append, nil_append, scanString_short notu, read,
      tail, self rfl]
    rfl
  · rename_i plain
    split
    · rename_i range
      have same : (Char.ofNat c.val).toNat = c.val := by
        rw [Char.ofNat, dif_pos (.inl (by omega))]
        rfl
      have notquote : Char.ofNat c.val ≠ '"' := by
        intro eq
        have value : c.val = 34 := by rw [← same, eq]; rfl
        rw [value] at plain
        cases plain
      have notslash : Char.ofNat c.val ≠ '\\' := by
        intro eq
        have value : c.val = 92 := by rw [← same, eq]; rfl
        rw [value] at plain
        cases plain
      rw [Text.units_basic (by omega), cons_append, nil_append, scanString_char notquote notslash, same,
        raiseIf, if_neg (by omega), tail, self rfl]
      rfl
    · split
      · rename_i basic
        rw [Text.units_basic basic, scanString_hex4 basic tail, self rfl]
        rfl
      · rename_i astral
        obtain ⟨h, l, eq, -, -, -, valh, vall⟩ := Text.units_astral (c := c) (by omega)
        have lower := scanString_hex4 (n := 56320 + (c.val - 65536) % 1024) (by omega) tail
        have both := scanString_hex4 (n := 55296 + (c.val - 65536) / 1024) (by omega) lower
        have eqh : Fin.ofNat 1114112 (55296 + (c.val - 65536) / 1024) = h := by
          apply Fin.ext
          rw [valh]
          simp only [Fin.ofNat]
          omega
        have eql : Fin.ofNat 1114112 (56320 + (c.val - 65536) % 1024) = l := by
          apply Fin.ext
          rw [vall]
          simp only [Fin.ofNat]
          omega
        rw [eq, append_assoc, both, eqh, eql]
        rfl

lemma scanString_flatMap {s : Text} {t : List Char} :
    scanString (s.flatMap Text.escape ++ '"' :: t) = .ok (s.flatMap Text.units, t) := by
  induction s with
  | nil => exact scanString_quote
  | cons c s ih =>
    rw [flatMap_cons, append_assoc, scanString_escape ih, flatMap_cons]

/-! ## Numbers are read back -/

lemma takeWhile_digits {t : List Char} (digits : ∀ c ∈ ds, c.isDigit = true)
    (stop : ∀ c ∈ t.head?, c.isDigit = false) : (ds ++ t).takeWhile Char.isDigit = ds := by
  rw [takeWhile_append_of_pos digits]
  cases t with
  | nil => simp
  | cons c cs => simp [stop c rfl]

lemma dropWhile_digits {t : List Char} (digits : ∀ c ∈ ds, c.isDigit = true)
    (stop : ∀ c ∈ t.head?, c.isDigit = false) : (ds ++ t).dropWhile Char.isDigit = t := by
  rw [dropWhile_append_of_pos digits]
  cases t with
  | nil => rfl
  | cons c cs => simp [stop c rfl]

lemma integral_append {t : List Char} (int : Integral i) (stop : ∀ c ∈ t.head?, c.isDigit = false) :
    integral (i ++ t) = some (i, t) := by
  rcases int with rfl | ⟨⟨some_digit, digits⟩, lead⟩
  · rfl
  · have take := takeWhile_digits digits stop
    have drop := dropWhile_digits digits stop
    rw [integral.eq_def]
    split
    · rename_i cs eq
      cases i with
      | nil => exact absurd rfl some_digit
      | cons c i =>
        rw [cons_append] at eq
        obtain ⟨rfl, -⟩ := List.cons.inj eq
        exact absurd rfl (lead i)
    · rw [take, drop, if_neg some_digit]

lemma fraction_append {f t : List Char} (frac : Fraction f)
    (stop : ∀ c ∈ t.head?, c.isDigit = false ∧ c ≠ '.') : fraction (f ++ t) = (f, t) := by
  rcases frac with rfl | ⟨ds, rfl, some_digit, digits⟩
  · rw [nil_append, fraction.eq_def]
    split
    · exact absurd rfl (stop '.' rfl).2
    · rfl
  · have take := takeWhile_digits digits fun c mem => (stop c mem).1
    have drop := dropWhile_digits digits fun c mem => (stop c mem).1
    rw [cons_append, fraction, take, drop, if_neg some_digit]

lemma expSign_append {t : List Char} (shape : g = [] ∨ g = ['+'] ∨ g = ['-'])
    (digits : Digits ds) : expSign (g ++ (ds ++ t)) = (g, ds ++ t) := by
  rcases shape with rfl | rfl | rfl
  · cases ds with
    | nil => exact absurd rfl digits.1
    | cons d ds =>
      have digit := digits.2 d (by simp)
      rw [nil_append, cons_append, expSign.eq_def]
      split
      · rename_i eq
        obtain ⟨rfl, -⟩ := List.cons.inj eq
        cases digit
      · rename_i eq
        obtain ⟨rfl, -⟩ := List.cons.inj eq
        cases digit
      · rfl
  · rfl
  · rfl

lemma exponent_append {t : List Char} (exp : Exponent e)
    (stop : ∀ c ∈ t.head?, c.isDigit = false ∧ c ≠ 'e' ∧ c ≠ 'E') : exponent (e ++ t) = (e, t) := by
  rcases exp with rfl | ⟨g, ds, rfl, shape, digits⟩
  · cases t with
    | nil => rfl
    | cons c cs =>
      obtain ⟨-, ne, ne'⟩ := stop c rfl
      rw [nil_append, exponent, if_neg (by simp [ne, ne'])]
  · have take := takeWhile_digits digits.2 fun c mem => (stop c mem).1
    have drop := dropWhile_digits digits.2 fun c mem => (stop c mem).1
    rw [cons_append, append_assoc, exponent, if_pos (.inl rfl), expSign_append shape digits]
    simp only [take, drop, if_neg digits.1]

lemma stop_head {t : List Char} (stop : Json.Stop t) (mem : c ∈ t.head?) :
    c.isDigit = false ∧ c ≠ '.' ∧ c ≠ 'e' ∧ c ≠ 'E' := by
  cases t with
  | nil => cases mem
  | cons d cs =>
    cases mem
    rcases stop c cs rfl with rfl | rfl | rfl <;> decide

lemma exponent_head {t : List Char} (exp : Exponent e) (stop : Json.Stop t)
    (mem : c ∈ (e ++ t).head?) : c.isDigit = false ∧ c ≠ '.' := by
  rcases exp with rfl | ⟨g, ds, rfl, -, -⟩
  · exact ⟨(stop_head stop mem).1, (stop_head stop mem).2.1⟩
  · cases mem
    decide

lemma fraction_head {f t : List Char} (frac : Fraction f) (exp : Exponent e) (stop : Json.Stop t)
    (mem : c ∈ (f ++ (e ++ t)).head?) : c.isDigit = false := by
  rcases frac with rfl | ⟨ds, rfl, -⟩
  · exact (exponent_head exp stop mem).1
  · cases mem
    decide

variable {H : Hooks φ}

lemma unsigned_append {f t : List Char} (int : Integral i) (frac : Fraction f) (exp : Exponent e)
    (stop : Json.Stop t) : unsigned H g (i ++ (f ++ (e ++ t))) = if f = [] ∧ e = [] then
        if maxDigits < i.length then .error .digits
        else .ok (.int (if g = [] then Nat.ofDigitChars 10 i 0 else - Nat.ofDigitChars 10 i 0), t)
      else (H.float (g ++ (i ++ (f ++ e)))).map fun x => (.float x, t) := by
  have readf := fraction_append frac fun c mem => exponent_head exp stop mem
  have reade := exponent_append exp fun c mem => by
    have := stop_head stop mem
    exact ⟨this.1, this.2.2.1, this.2.2.2⟩
  rw [unsigned, integral_append int fun c mem => fraction_head frac exp stop mem]
  simp only [readf, reade]

lemma integral_digit (int : Integral i) : ∃ c cs, i = c :: cs ∧ c.isDigit = true := by
  rcases int with rfl | ⟨⟨some_digit, digits⟩, -⟩
  · exact ⟨'0', [], rfl, rfl⟩
  · cases i with
    | nil => exact absurd rfl some_digit
    | cons c cs => exact ⟨c, cs, rfl, digits c (by simp)⟩

lemma number_append {t : List Char} (shape : g = [] ∨ g = ['-']) (int : Integral i) :
    number H (g ++ (i ++ t)) = unsigned H g (i ++ t) := by
  rcases shape with rfl | rfl
  · obtain ⟨c, cs, rfl, digit⟩ := integral_digit int
    rw [nil_append, cons_append, number.eq_def]
    split
    · rename_i eq
      obtain ⟨rfl, -⟩ := List.cons.inj eq
      cases digit
    · rfl
  · rfl

lemma toDigits_lead (pos : 0 < n) : Nat.toDigits 10 n ≠ '0' :: ds := by
  induction n using Nat.strongRecOn generalizing ds with
  | ind n ih =>
    intro eq
    by_cases small : n < 10
    · rw [Nat.toDigits_of_lt_base small] at eq
      have digit : ∀ k < 10, 0 < k → Nat.digitChar k ≠ '0' := by decide
      exact digit n small pos (List.cons.inj eq).1
    · rw [Nat.toDigits_of_base_le (by decide) (by omega)] at eq
      cases front : Nat.toDigits 10 (n / 10) with
      | nil => exact Nat.toDigits_ne_nil front
      | cons c cs =>
        rw [front, cons_append] at eq
        obtain ⟨rfl, -⟩ := List.cons.inj eq
        exact ih (n / 10) (by omega) (by omega) front

lemma integral_toDigits : Integral (Nat.toDigits 10 n) := by
  cases n with
  | zero => exact .inl rfl
  | succ n =>
    exact .inr ⟨⟨Nat.toDigits_ne_nil, fun c mem => Nat.isDigit_of_mem_toDigits (by decide) (by decide) mem⟩,
      fun ds => toDigits_lead (by omega)⟩

lemma number_intText {n : Int} {t : List Char} (stop : Json.Stop t)
    (fits : (Nat.toDigits 10 n.natAbs).length ≤ maxDigits) : number H (Json.intText n ++ t) = .ok (.int n, t) := by
  have plain : ∀ {g k}, unsigned H g (Nat.toDigits 10 k ++ t) =
      if maxDigits < (Nat.toDigits 10 k).length then .error .digits
      else .ok (.int (if g = [] then k else - k), t) := by
    intro g k
    have eq := unsigned_append (H := H) (g := g) (integral_toDigits (n := k)) (.inl rfl) (.inl rfl) stop
    rw [nil_append, nil_append] at eq
    rw [eq, if_pos ⟨rfl, rfl⟩, Nat.ofDigitChars_ten_toDigits]
  cases n with
  | ofNat n =>
    have read := number_append (H := H) (g := []) (.inl rfl) (integral_toDigits (n := n)) (t := t)
    rw [nil_append] at read
    rw [Json.intText, read, plain, if_neg (by simpa using fits), if_pos rfl]
    rfl
  | negSucc n =>
    have read := number_append (H := H) (.inr rfl) (integral_toDigits (n := n + 1)) (t := t)
    rw [Json.intText, cons_append]
    rw [cons_append, nil_append] at read
    rw [read, plain, if_neg (by simpa using fits), if_neg (by decide)]
    rfl

lemma number_decimal {t : List Char} {x : φ} (decimal : Decimal cs) (stop : Json.Stop t)
    (float : H.float cs = .ok x) : number H (cs ++ t) = .ok (.float x, t) := by
  obtain ⟨g, i, f, e, rfl, minus, int, frac, exp, point⟩ := decimal
  simp only [append_assoc]
  rw [number_append minus int, unsigned_append int frac exp stop, if_neg point, float]
  rfl

/-! ## Values are read back -/

lemma word_none {w : Char} {ws : List Char} (ne : w ≠ c) : word (w :: ws) (c :: cs) = none := if_neg ne

lemma scalar_number (none : ∀ w ∈ ["null", "true", "false", "NaN", "Infinity", "-Infinity"], word w.toList cs = none) :
    scalar H cs = number H cs := by
  rw [scalar, none "null" (by decide), none "true" (by decide), none "false" (by decide)]
  have constants : ["NaN".toList, "Infinity".toList, "-Infinity".toList].find?
      (fun w => (word w cs).isSome) = .none := by
    rw [find?_eq_none]
    intro w mem
    have no : word w cs = .none := by
      simp only [mem_cons, not_mem_nil, or_false] at mem
      rcases mem with rfl | rfl | rfl
      · exact none "NaN" (by decide)
      · exact none "Infinity" (by decide)
      · exact none "-Infinity" (by decide)
    rw [no]
    decide
  simp only [constants]

lemma scalar_digits (minus : g = [] ∨ g = ['-']) (digit : c.isDigit = true) :
    scalar H (g ++ c :: cs) = number H (g ++ c :: cs) := by
  have ne : ∀ {w : Char}, w.isDigit = false → w ≠ c := by
    intro w letter eq
    rw [eq, digit] at letter
    cases letter
  apply scalar_number
  intro w mem
  simp only [mem_cons, not_mem_nil, or_false] at mem
  rcases minus with rfl | rfl
  · rcases mem with rfl | rfl | rfl | rfl | rfl | rfl <;> exact word_none (ne rfl)
  · rcases mem with rfl | rfl | rfl | rfl | rfl | rfl
    · rfl
    · rfl
    · rfl
    · rfl
    · rfl
    · have minus : word "-Infinity".toList ('-' :: c :: cs) = word "Infinity".toList (c :: cs) := rfl
      exact minus.trans (word_none (ne rfl))

lemma Integral.scalar {t : List Char} (minus : g = [] ∨ g = ['-']) (int : Integral i) :
    Loads.scalar H (g ++ (i ++ t)) = number H (g ++ (i ++ t)) := by
  obtain ⟨c, cs, rfl, digit⟩ := integral_digit int
  exact scalar_digits minus digit

lemma scalar_intText {n : Int} {t : List Char} :
    Loads.scalar H (Json.intText n ++ t) = number H (Json.intText n ++ t) := by
  cases n with
  | ofNat n => exact Integral.scalar (.inl rfl) integral_toDigits
  | negSucc n => exact Integral.scalar (.inr rfl) integral_toDigits

lemma scalar_float {F : Floats φ} (lawful : F.Lawful) {x : φ} {t : List Char} (stop : Json.Stop t)
    (reads : (if F.finite x then H.float (F.repr x) else H.constant (F.repr x)) = .ok x) :
    Loads.scalar H (F.repr x ++ t) = .ok (.float x, t) := by
  cases finite : F.finite x with
  | true =>
    rw [finite, if_pos rfl] at reads
    have decimal := lawful.decimal finite
    rw [← number_decimal decimal stop reads]
    obtain ⟨g, i, f, e, eq, minus, int, -⟩ := decimal
    rw [eq, append_assoc, append_assoc]
    exact Integral.scalar minus int
  | false =>
    rw [finite, if_neg (by decide)] at reads
    have words := lawful.word finite
    simp only [mem_cons, not_mem_nil, or_false] at words
    rcases words with eq | eq | eq
    · rw [eq] at reads ⊢
      have read : Loads.scalar H ("NaN".toList ++ t) = (H.constant "NaN".toList).map fun x => (.float x, t) := rfl
      rw [read, reads]
      rfl
    · rw [eq] at reads ⊢
      have read : Loads.scalar H ("Infinity".toList ++ t) =
        (H.constant "Infinity".toList).map fun x => (.float x, t) := rfl
      rw [read, reads]
      rfl
    · rw [eq] at reads ⊢
      have read : Loads.scalar H ("-Infinity".toList ++ t) =
        (H.constant "-Infinity".toList).map fun x => (.float x, t) := rfl
      rw [read, reads]
      rfl

/-! ## Documents are read back -/

section

variable (H) (F : Floats φ)

mutual

def Takes : Doc φ → Prop
  | .null | .bool _ | .str _ => True
  | .int n => (Nat.toDigits 10 n.natAbs).length ≤ maxDigits
  | .float x => (if F.finite x then H.float (F.repr x) else H.constant (F.repr x)) = .ok x
  | .arr vs => TakesItems vs
  | .obj fs => TakesFields fs ∧ H.pairs (Doc.joinedFields fs) = .ok (Doc.joinedFields fs)

def TakesItems : List (Doc φ) → Prop
  | [] => True
  | v :: vs => Takes v ∧ TakesItems vs

def TakesFields : List (Text × Doc φ) → Prop
  | [] => True
  | (_, v) :: fs => Takes v ∧ TakesFields fs

end

end

/-- The text of a number or a word: no white space leads it, no quote and no bracket. -/
def Begins (s : List Char) : Prop :=
  ∃ c cs, s = c :: cs ∧ c ≠ ' ' ∧ c ≠ ']' ∧ c ≠ '"' ∧ c ≠ '[' ∧ c ≠ '\x7b'

lemma Integral.begins {t : List Char} (minus : g = [] ∨ g = ['-']) (int : Integral i) : Begins (g ++ (i ++ t)) := by
  obtain ⟨c, cs, rfl, digit⟩ := integral_digit int
  have ne : ∀ {d : Char}, d.isDigit = false → c ≠ d := by
    intro d other eq
    rw [← eq, digit] at other
    cases other
  rcases minus with rfl | rfl
  · exact ⟨c, cs ++ t, rfl, ne rfl, ne rfl, ne rfl, ne rfl, ne rfl⟩
  · exact ⟨'-', c :: (cs ++ t), rfl, by decide⟩

lemma begins_intText {n : Int} : Begins (Json.intText n) := by
  cases n with
  | ofNat n =>
    have begins := Integral.begins (t := []) (.inl rfl) (integral_toDigits (n := n))
    rwa [append_nil] at begins
  | negSucc n => exact ⟨'-', _, rfl, by decide⟩

lemma begins_repr {F : Floats φ} (lawful : F.Lawful) {x : φ} : Begins (F.repr x) := by
  cases finite : F.finite x with
  | true =>
    obtain ⟨g, i, f, e, eq, minus, int, -⟩ := lawful.decimal finite
    rw [eq]
    exact Integral.begins minus int
  | false =>
    have words := lawful.word finite
    simp only [mem_cons, not_mem_nil, or_false] at words
    rcases words with eq | eq | eq
    · rw [eq]
      exact ⟨'N', _, rfl, by decide⟩
    · rw [eq]
      exact ⟨'I', _, rfl, by decide⟩
    · rw [eq]
      exact ⟨'-', _, rfl, by decide⟩

variable {q : Separators}

lemma text_head {F : Floats φ} (lawful : F.Lawful) {d : Doc φ} :
    ∃ c cs, Doc.text F q d = c :: cs ∧ c ≠ ' ' ∧ c ≠ ']' := by
  have weaken : ∀ {s : List Char}, Begins s → ∃ c cs, s = c :: cs ∧ c ≠ ' ' ∧ c ≠ ']' := by
    intro s ⟨c, cs, eq, space, bracket, _⟩
    exact ⟨c, cs, eq, space, bracket⟩
  cases d with
  | null => exact ⟨'n', _, rfl, by decide, by decide⟩
  | bool b =>
    cases b with
    | true => exact ⟨'t', _, rfl, by decide, by decide⟩
    | false => exact ⟨'f', _, rfl, by decide, by decide⟩
  | int n => exact weaken begins_intText
  | float x => exact weaken (begins_repr lawful)
  | str s => exact ⟨'"', _, rfl, by decide, by decide⟩
  | arr vs => exact ⟨'[', _, rfl, by decide, by decide⟩
  | obj fs => exact ⟨'\x7b', _, rfl, by decide, by decide⟩

lemma skip_cons (ne : c ≠ ' ' ∧ c ≠ '\t' ∧ c ≠ '\n' ∧ c ≠ '\r') : skip (c :: cs) = c :: cs := by
  have no : (c = ' ' || c = '\t' || c = '\n' || c = '\r') = false := by simp [ne]
  rw [skip, dropWhile_cons, no]
  rfl

lemma skip_text {F : Floats φ} (lawful : F.Lawful) {d : Doc φ} {t : List Char} :
    skip (Doc.text F q d ++ t) = Doc.text F q d ++ t := by
  have plain := Doc.plain_text (q := q) lawful (d := d)
  obtain ⟨c, cs, eq, ne, -⟩ := text_head (q := q) lawful (d := d)
  rw [eq] at plain ⊢
  have printable : 32 ≤ c.toNat := ((plain_cons.1 plain).1).1
  have control : ∀ {b : Char}, b.toNat < 32 → c ≠ b := by
    intro b low eq
    rw [eq] at printable
    omega
  exact skip_cons ⟨ne, control (by decide), control (by decide), control (by decide)⟩

lemma skip_gap : skip (q.gap ++ cs) = skip cs := by
  cases q with
  | compact => rfl
  | spaced => rfl

lemma stop_moreItems {F : Floats φ} {vs : List (Doc φ)} {t : List Char} : Json.Stop (Doc.moreItems F q vs ++ t) := by
  cases vs with
  | nil => exact Json.stop_cons (by decide)
  | cons v vs => exact Json.stop_cons (by decide)

lemma stop_moreFields {F : Floats φ} {fs : List (Text × Doc φ)} {t : List Char} :
    Json.Stop (Doc.moreFields F q fs ++ t) := by
  cases fs with
  | nil => exact Json.stop_cons (by decide)
  | cons f fs => exact Json.stop_cons (by decide)

lemma key_quote {F : Floats φ} (lawful : F.Lawful) {k : Text} {d : Doc φ} {t : List Char} :
    key (k.quote ++ ':' :: (q.gap ++ (Doc.text F q d ++ t))) = .ok (k.joined, Doc.text F q d ++ t) := by
  have scan := scanString_flatMap (s := k) (t := ':' :: (q.gap ++ (Doc.text F q d ++ t)))
  rw [Text.quote, cons_append, append_assoc, singleton_append, key, scan]
  have colon : skip (':' :: (q.gap ++ (Doc.text F q d ++ t))) = ':' :: (q.gap ++ (Doc.text F q d ++ t)) :=
    skip_cons (by decide)
  have behind : skip (q.gap ++ (Doc.text F q d ++ t)) = Doc.text F q d ++ t :=
    skip_gap.trans (skip_text lawful)
  show (match skip (':' :: (q.gap ++ (Doc.text F q d ++ t))) with
    | ':' :: cs => pure (Text.joinPairs (k.flatMap Text.units), skip cs)
    | _ => Except.error LoadError.decode) = _
  rw [colon]
  show Except.ok (Text.joinPairs (k.flatMap Text.units), skip (q.gap ++ (Doc.text F q d ++ t))) = _
  rw [behind]
  rfl

lemma value_scalar (ne : c ≠ '"' ∧ c ≠ '[' ∧ c ≠ '\x7b') : value H (n + 1) (c :: cs) = scalar H (c :: cs) := by
  rw [value]
  · exact fun _ eq => ne.1 (List.cons.inj eq).1
  · exact fun _ eq => ne.2.1 (List.cons.inj eq).1
  · exact fun _ eq => ne.2.2 (List.cons.inj eq).1

lemma Begins.value {s t : List Char} (begins : Begins s) : Loads.value H (n + 1) (s ++ t) = scalar H (s ++ t) := by
  obtain ⟨c, cs, rfl, -, -, ne⟩ := begins
  exact value_scalar ne

lemma value_items (text : skip (c :: cs) = c :: cs) (ne : c ≠ ']') :
    value H (n + 1) ('[' :: c :: cs) = (items H n (c :: cs)).map fun p => (.arr p.1, p.2) := by
  rw [value, text]
  split
  · rename_i eq
    exact absurd (List.cons.inj eq).1 ne
  · cases items H n (c :: cs) <;> rfl

lemma value_fields : value H (n + 1) ('\x7b' :: '"' :: cs) = (do
      let (fs, t) ← fields H n ('"' :: cs)
      let fs ← H.pairs fs
      return (.obj fs, t)) := by
  rw [value, skip_cons (by decide)]
  rfl

lemma items_cons {v : Doc φ} {cs' : List Char} (head : value H n cs = .ok (v, cs')) :
    items H (n + 1) cs = match skip cs' with
      | ',' :: cs => (items H n (skip cs)).map fun p => (v :: p.1, p.2)
      | ']' :: t => .ok ([v], t)
      | _ => .error .decode := by
  rw [items, head]
  show (match skip cs' with
    | ',' :: cs => _
    | ']' :: t => _
    | _ => _) = _
  split
  · rename_i cs _
    cases items H n (skip cs) <;> rfl
  · rfl
  · rfl

lemma fields_cons {k : Text} {v : Doc φ} {cs' cs'' : List Char} (name : key cs = .ok (k, cs'))
    (head : value H n cs' = .ok (v, cs'')) : fields H (n + 1) cs = match skip cs'' with
      | ',' :: cs => (fields H n (skip cs)).map fun p => ((k, v) :: p.1, p.2)
      | '}' :: t => .ok ([(k, v)], t)
      | _ => .error .decode := by
  rw [fields, name]
  show (do
    let (v, cs) ← value H n cs'
    match skip cs with
    | ',' :: cs => do
      let (fs, t) ← fields H n (skip cs)
      return ((k, v) :: fs, t)
    | '}' :: t => return ([(k, v)], t)
    | _ => .error .decode) = _
  rw [head]
  show (match skip cs'' with
    | ',' :: cs => _
    | '}' :: t => _
    | _ => _) = _
  split
  · rename_i cs _
    cases fields H n (skip cs) <;> rfl
  · rfl
  · rfl

lemma text_length {F : Floats φ} (lawful : F.Lawful) {d : Doc φ} : 0 < (Doc.text F q d).length := by
  obtain ⟨c, cs, eq, -⟩ := text_head (q := q) lawful (d := d)
  rw [eq]
  exact Nat.succ_pos _

section

variable {F : Floats φ}

mutual

/-- A value is read back, whatever stands behind it. -/
theorem value_text (lawful : F.Lawful) : ∀ {d : Doc φ} {n : Nat} {t : List Char}, Takes H F d →
    (Doc.text F q d).length ≤ n → Json.Stop t → value H n (Doc.text F q d ++ t) = .ok (d.joined, t)
  | d, 0, _, _, fuel, _ => by
    have := text_length (q := q) lawful (d := d)
    omega
  | .null, n + 1, t, _, _, _ => value_scalar (by decide)
  | .bool true, n + 1, t, _, _, _ => value_scalar (by decide)
  | .bool false, n + 1, t, _, _, _ => value_scalar (by decide)
  | .int m, n + 1, t, takes, _, stop => by
    have read := number_intText (H := H) stop takes
    rw [← scalar_intText] at read
    exact begins_intText.value.trans read
  | .float x, n + 1, t, takes, _, stop => by
    have read := scalar_float lawful stop takes
    exact (begins_repr lawful).value.trans read
  | .str s, n + 1, t, _, _, _ => by
    have scan := scanString_flatMap (s := s) (t := t)
    rw [Doc.text, Text.quote, cons_append, append_assoc, singleton_append, value, scan]
    rfl
  | .arr [], n + 1, t, _, _, _ => rfl
  | .arr (v :: vs), n + 1, t, takes, fuel, _ => by
    have read := items_text lawful (t := t) (n := n) (by simp) takes (by
      rw [Doc.text, length_cons] at fuel
      omega)
    obtain ⟨c, cs, eq, _, bracket⟩ := text_head (q := q) lawful (d := v)
    have text := skip_text (q := q) lawful (d := v) (t := Doc.moreItems F q vs ++ t)
    rw [Doc.textItems, append_assoc] at read
    rw [Doc.text, Doc.textItems, cons_append, append_assoc]
    rw [eq, cons_append] at text read ⊢
    rw [value_items text bracket, read]
    rfl
  | .obj [], n + 1, t, takes, _, _ => by
    have pairs : H.pairs [] = .ok [] := takes.2
    have close : skip ('}' :: t) = '}' :: t := skip_cons (by decide)
    rw [Doc.text, Doc.textFields, cons_append, singleton_append, value, close]
    simp only [pairs]
    rfl
  | .obj ((k, v) :: fs), n + 1, t, takes, fuel, _ => by
    have read := fields_text lawful (t := t) (n := n) (by simp) takes.1 (by
      rw [Doc.text, length_cons] at fuel
      omega)
    rw [Doc.textFields, Text.quote] at read
    rw [Doc.text, Doc.textFields, Text.quote]
    simp only [cons_append] at read ⊢
    rw [value_fields, read]
    show (do
      let fs ← H.pairs (Doc.joinedFields ((k, v) :: fs))
      return (Doc.obj fs, t)) = _
    rw [takes.2]
    rfl

theorem items_text (lawful : F.Lawful) : ∀ {vs : List (Doc φ)} {n : Nat} {t : List Char}, vs ≠ [] →
    TakesItems H F vs → (Doc.textItems F q vs).length ≤ n →
    items H n (Doc.textItems F q vs ++ t) = .ok (Doc.joinedItems vs, t)
  | [], _, _, ne, _, _ => absurd rfl ne
  | v :: vs, 0, _, _, _, fuel => by
    have := text_length (q := q) lawful (d := v)
    rw [Doc.textItems, length_append] at fuel
    omega
  | [v], n + 1, t, _, takes, fuel => by
    have close : skip (']' :: t) = ']' :: t := skip_cons (by decide)
    rw [Doc.textItems, length_append, Doc.moreItems, length_singleton] at fuel
    have head := value_text lawful (d := v) (n := n) takes.1 (by omega) (@Json.stop_cons ']' t (by decide))
    rw [Doc.textItems, Doc.moreItems, append_assoc, singleton_append, items_cons head, close]
    rfl
  | v :: w :: ws, n + 1, t, _, takes, fuel => by
    have comma : ∀ {cs}, skip (',' :: cs) = ',' :: cs := skip_cons (by decide)
    rw [Doc.textItems, length_append, Doc.moreItems, length_cons, length_append] at fuel
    have positive := text_length (q := q) lawful (d := v)
    have head := value_text lawful (d := v) (n := n) takes.1 (by omega)
      (@stop_moreItems φ q F (w :: ws) t)
    have tail := items_text lawful (n := n) (t := t) (cons_ne_nil w ws) takes.2 (by
      rw [Doc.textItems]
      omega)
    rw [Doc.textItems, append_assoc] at tail
    rw [Doc.textItems, append_assoc, items_cons head, Doc.moreItems, cons_append, comma,
      append_assoc, append_assoc]
    show (items H n (skip (q.gap ++ (Doc.text F q w ++ (Doc.moreItems F q ws ++ t))))).map _ = _
    rw [skip_gap, skip_text lawful, tail]
    rfl

theorem fields_text (lawful : F.Lawful) : ∀ {fs : List (Text × Doc φ)} {n : Nat} {t : List Char}, fs ≠ [] →
    TakesFields H F fs → (Doc.textFields F q fs).length ≤ n →
    fields H n (Doc.textFields F q fs ++ t) = .ok (Doc.joinedFields fs, t)
  | [], _, _, ne, _, _ => absurd rfl ne
  | (k, v) :: fs, 0, _, _, _, fuel => by
    rw [Doc.textFields, length_append, length_cons] at fuel
    omega
  | [(k, v)], n + 1, t, _, takes, fuel => by
    have close : skip ('}' :: t) = '}' :: t := skip_cons (by decide)
    rw [Doc.textFields, length_append, length_cons, length_append, length_append] at fuel
    have name := key_quote (q := q) lawful (k := k) (d := v) (t := '}' :: t)
    have head := value_text lawful (d := v) (n := n) takes.1 (by omega) (@Json.stop_cons '}' t (by decide))
    rw [Doc.textFields, Doc.moreFields, append_assoc, cons_append, append_assoc, append_assoc,
      singleton_append, fields_cons name head, close]
    rfl
  | (k, v) :: (k', w) :: fs, n + 1, t, _, takes, fuel => by
    have comma : ∀ {cs}, skip (',' :: cs) = ',' :: cs := skip_cons (by decide)
    have quote : skip (Doc.textFields F q ((k', w) :: fs) ++ t) = Doc.textFields F q ((k', w) :: fs) ++ t := by
      rw [Doc.textFields, Text.quote]
      exact skip_cons (by decide)
    have more : Doc.moreFields F q ((k', w) :: fs) = ',' :: (q.gap ++ Doc.textFields F q ((k', w) :: fs)) := by
      rw [Doc.moreFields, Doc.textFields]
    rw [Doc.textFields, length_append, length_cons, length_append, length_append, more,
      length_cons, length_append] at fuel
    have name := key_quote (q := q) lawful (k := k) (d := v) (t := Doc.moreFields F q ((k', w) :: fs) ++ t)
    have head := value_text lawful (d := v) (n := n) takes.1 (by omega)
      (@stop_moreFields φ q F ((k', w) :: fs) t)
    have tail := fields_text lawful (n := n) (t := t) (cons_ne_nil (k', w) fs) takes.2 (by omega)
    rw [Doc.textFields, append_assoc, cons_append, append_assoc, append_assoc,
      fields_cons name head, more, cons_append, comma, append_assoc]
    show (fields H n (skip (q.gap ++ (Doc.textFields F q ((k', w) :: fs) ++ t)))).map _ = _
    rw [skip_gap, quote, tail]
    rfl

end

end

end Loads

/-- The text of a document reads back as the document with its pairs joined. -/
theorem loads_text {φ : Type} {H : Hooks φ} {F : Floats φ} {q : Separators} (lawful : F.Lawful) {d : Doc φ}
    (takes : Loads.Takes H F d) : loads H (d.text F q) = .ok d.joined := by
  have read := Loads.value_text (q := q) lawful (n := 2 * (d.text F q).length + 2) takes (by omega) Json.stop_nil
  have skip := Loads.skip_text (q := q) lawful (d := d) (t := [])
  rw [append_nil] at read skip
  rw [loads, skip, read]
  rfl

namespace Loads

variable {φ : Type}

lemma foldl_setEntry {fs acc : List (Text × Doc φ)} (distinct : ((acc ++ fs).map Prod.fst).Nodup) :
    fs.foldl (fun fs p => Dict.setEntry p.1 p.2 fs) acc = acc ++ fs := by
  induction fs generalizing acc with
  | nil => simp
  | cons f fs ih =>
    have fresh : Dict.setEntry f.1 f.2 acc = acc ++ [f] := by
      have new : f.1 ∉ acc.map Prod.fst := by
        rw [map_append, map_cons, nodup_append] at distinct
        intro mem
        exact distinct.2.2 _ mem _ (mem_cons_self ..) rfl
      clear distinct ih
      induction acc with
      | nil => rfl
      | cons a acc ih =>
        simp only [map_cons, mem_cons, not_or] at new
        rw [Dict.setEntry, if_neg (Ne.symm new.1), ih new.2, cons_append]
    rw [foldl_cons, fresh, ih]
    · simp
    · simpa using distinct

mutual

/-- What the reader of the standard library does, it does with every document whose keys increase. -/
theorem takes_plain {F : Floats φ} (lawful : F.Lawful) : ∀ {d : Doc φ}, d.fits = true → d.joined.ordered = true →
    Takes (Hooks.plain F) F d
  | .null, _, _ => trivial
  | .bool _, _, _ => trivial
  | .str _, _, _ => trivial
  | .int n, fits, _ => by
    have short : (Nat.toDigits 10 n.natAbs).length ≤ maxDigits := of_decide_eq_true fits
    exact short
  | .float x, _, _ => by
    have reads : ∀ b : Bool, (if b = true then (Hooks.plain F).float (F.repr x) else (Hooks.plain F).constant
        (F.repr x)) =
        .ok x := by
      intro b
      cases b <;> exact congrArg Except.ok (lawful.ofText_repr x)
    exact reads _
  | .arr vs, fits, ordered => takesItems_plain lawful fits ordered
  | .obj fs, fits, ordered => by
    rw [Doc.joined, Doc.ordered, Bool.and_eq_true] at ordered
    have increase := of_decide_eq_true ordered.2
    refine ⟨takesFields_plain lawful fits ordered.1, ?_⟩
    have list := @foldl_setEntry _ (Doc.joinedFields fs) [] (increase.imp fun lt => ne_of_lt lt)
    exact congrArg Except.ok list

theorem takesItems_plain {F : Floats φ} (lawful : F.Lawful) : ∀ {vs : List (Doc φ)}, Doc.fitsItems vs = true →
    Doc.orderedItems (Doc.joinedItems vs) = true → TakesItems (Hooks.plain F) F vs
  | [], _, _ => trivial
  | v :: vs, fits, ordered => by
    obtain ⟨fitsv, fitsvs⟩ := Bool.and_eq_true_iff.1 fits
    obtain ⟨orderedv, orderedvs⟩ := Bool.and_eq_true_iff.1 ordered
    exact ⟨takes_plain lawful fitsv orderedv, takesItems_plain lawful fitsvs orderedvs⟩

theorem takesFields_plain {F : Floats φ} (lawful : F.Lawful) : ∀ {fs : List (Text × Doc φ)}, Doc.fitsFields fs = true →
    Doc.orderedFields (Doc.joinedFields fs) = true → TakesFields (Hooks.plain F) F fs
  | [], _, _ => trivial
  | (_, v) :: fs, fits, ordered => by
    obtain ⟨fitsv, fitsfs⟩ := Bool.and_eq_true_iff.1 fits
    obtain ⟨orderedv, orderedfs⟩ := Bool.and_eq_true_iff.1 ordered
    exact ⟨takes_plain lawful fitsv orderedv, takesFields_plain lawful fitsfs orderedfs⟩

end

end Loads

end Workbench.Lib
