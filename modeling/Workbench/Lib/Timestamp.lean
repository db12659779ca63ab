import Workbench.Lib.DocValue

/-!
# Timestamps of one form

What `re` and `datetime.strptime` take for a timestamp `YYYY-MM-DDTHH:MM:SSZ`. A digit of `\d` may be of any script,
and so may those of a directive that is read by `\d`. The texts of ASCII characters that are taken are those of the
instants of the calendar (`readable_ascii_iff`).
-/

namespace Workbench.Lib
open List Option

/-- The zeros of the decimal digits of Unicode 15 (category Nd); the other nine digits follow each. -/
def decimalZeros : List Nat :=
  [0x30, 0x660, 0x6f0, 0x7c0, 0x966, 0x9e6, 0xa66, 0xae6, 0xb66, 0xbe6, 0xc66, 0xce6, 0xd66, 0xde6, 0xe50, 0xed0, 0xf20,
    0x1040, 0x1090, 0x17e0, 0x1810, 0x1946, 0x19d0, 0x1a80, 0x1a90, 0x1b50, 0x1bb0, 0x1c40, 0x1c50, 0xa620, 0xa8d0,
    0xa900, 0xa9d0, 0xa9f0, 0xaa50, 0xabf0, 0xff10, 0x104a0, 0x10d30, 0x11066, 0x110f0, 0x11136, 0x111d0, 0x112f0,
    0x11450, 0x114d0, 0x11650, 0x116c0, 0x11730, 0x118e0, 0x11950, 0x11c50, 0x11d50, 0x11da0, 0x11f50, 0x16a60, 0x16ac0,
    0x16b50, 0x1d7ce, 0x1d7d8, 0x1d7e2, 0x1d7ec, 0x1d7f6, 0x1e140, 0x1e2f0, 0x1e4f0, 0x1e950, 0x1fbf0]

/-- The value of a decimal digit of any script: `\d` of `re`, as `int` reads it. -/
def Text.decimal (c : CodePoint) : Option Nat :=
  (decimalZeros.find? fun z => z ≤ c.val && c.val < z + 10).map fun z => c.val - z

/-- The value of an ASCII digit: `[0-9]` of `re`. -/
def Text.asciiDigit (c : CodePoint) : Option Nat := if 48 ≤ c.val ∧ c.val < 58 then some (c.val - 48) else none

def Text.Ascii (s : Text) : Prop := ∀ c ∈ s, c.val < 128

namespace Timestamp
open Text
variable {n : Nat}

/-! ## The form -/

/-- `^\d{4}-\d{2}-\d{2}T\d{2}:\d{2}:\d{2}Z$`: a digit, or the character that stands there. -/
def form : List (Option Char) :=
  [none, none, none, none, some '-', none, none, some '-', none, none, some 'T', none, none, some ':', none, none,
    some ':', none, none, some 'Z']

/-- Whether a text is of a form; the `$` of the end stands before a last line feed too. -/
def isOf : List (Option Char) → Text → Bool
  | [], [] => true
  | [], [c] => c.val = 10
  | [], _ :: _ :: _ => false
  | none :: p, c :: s => (decimal c).isSome && isOf p s
  | some x :: p, c :: s => c.val = x.toNat && isOf p s
  | _ :: _, [] => false

/-! ## `strptime` -/

/-- Two digits of a directive: the first is an ASCII digit; after one of `any`, the second is of any script. The
    alternatives of one digit do not reach what stands next. -/
def twoDigits (any : List Nat) (low high : Nat) (a b : CodePoint) : Option Nat := do
  let x ← asciiDigit a
  let y ← if x ∈ any then decimal b else asciiDigit b
  if low ≤ 10 * x + y ∧ 10 * x + y ≤ high then some (10 * x + y) else none

/-- `%Y`: `\d\d\d\d` -/
def year (a b c d : CodePoint) : Option Nat := do
  return 1000 * (← decimal a) + 100 * (← decimal b) + 10 * (← decimal c) + (← decimal d)

/-- `%m`: `1[0-2]|0[1-9]|[1-9]` -/
def month : CodePoint → CodePoint → Option Nat := twoDigits [] 1 12

/-- `%d`: `3[0-1]|[1-2]\d|0[1-9]|[1-9]| [1-9]` -/
def day : CodePoint → CodePoint → Option Nat := twoDigits [1, 2] 1 31

/-- `%H`: `2[0-3]|[0-1]\d|\d` -/
def hour : CodePoint → CodePoint → Option Nat := twoDigits [0, 1] 0 23

/-- `%M`: `[0-5]\d|\d` -/
def minute : CodePoint → CodePoint → Option Nat := twoDigits [0, 1, 2, 3, 4, 5] 0 59

/-- `%S`: `6[0-1]|[0-5]\d|\d` -/
def second : CodePoint → CodePoint → Option Nat := twoDigits [0, 1, 2, 3, 4, 5] 0 61

/-- `datetime.strptime(s, "%Y-%m-%dT%H:%M:%SZ")` of a text of the form; `none` is a `ValueError`. -/
def strptime : Text → Option DateTime
  | [y1, y2, y3, y4, _, m1, m2, _, d1, d2, _, h1, h2, _, n1, n2, _, s1, s2, _] => do
    DateTime.make ⟨← year y1 y2 y3 y4, ← month m1 m2, ← day d1 d2, ← hour h1 h2, ← minute n1 n2, ← second s1 s2, 0,
      none⟩
  | _ => none

/-- Whether a text is of the form and names an instant. -/
def readable (s : Text) : Bool := isOf form s && (strptime s).isSome

def instantText (f : DateTimeFields) : List Char :=
  DateTime.dateText f ++ 'T' :: DateTime.clockText f.hour f.minute f.second ++ ['Z']

/-! ## ASCII digits -/

def digit (n : Nat) : CodePoint := Fin.ofNat _ (Nat.digitChar n).toNat

lemma decimal_ascii {c : CodePoint} (ascii : c.val < 128) : decimal c = asciiDigit c := by
  have all : ∀ n < 128, decimal (Fin.ofNat _ n) = asciiDigit (Fin.ofNat _ n) := by decide +kernel
  have same : Fin.ofNat _ c.val = c := by simp
  rw [← same]
  exact all c.val ascii

lemma asciiDigit_digit (lt : n < 10) : asciiDigit (digit n) = some n := by
  have all : ∀ n < 10, asciiDigit (digit n) = some n := by decide
  exact all n lt

lemma decimal_digit (lt : n < 10) : decimal (digit n) = some n := by
  have all : ∀ n < 10, (digit n).val < 128 := by decide
  rw [decimal_ascii (all n lt), asciiDigit_digit lt]

lemma eq_digit {c : CodePoint} (value : asciiDigit c = some n) : n < 10 ∧ c = digit n := by
  rw [asciiDigit] at value
  split at value
  · rename_i range
    have eq : c.val - 48 = n := some.inj value
    have all : ∀ n < 10, (digit n).val = n + 48 := by decide
    refine ⟨by omega, ?_⟩
    apply Fin.ext
    rw [all n (by omega)]
    omega
  · cases value

lemma ofChars_pad_two : ofChars (DateTime.pad 2 n) = [digit (n / 10 % 10), digit (n % 10)] := by
  simp [DateTime.pad, ofChars, digit]

lemma ofChars_pad_four :
    ofChars (DateTime.pad 4 n) = [digit (n / 1000 % 10), digit (n / 100 % 10), digit (n / 10 % 10),
      digit (n % 10)] := by
  simp [DateTime.pad, ofChars, digit]

lemma twoDigits_ascii {any : List Nat} {low high : Nat} {a b : CodePoint} (ascii : b.val < 128)
    (value : twoDigits any low high a b = some n) : ofChars (DateTime.pad 2 n) = [a, b] := by
  simp only [twoDigits, decimal_ascii ascii, ite_self, bind_eq_bind, bind_eq_some_iff] at value
  obtain ⟨x, first, y, second, range⟩ := value
  obtain ⟨ltx, rfl⟩ := eq_digit first
  obtain ⟨lty, rfl⟩ := eq_digit second
  split at range
  · obtain rfl := some.inj range
    have tens : (10 * x + y) / 10 % 10 = x := by omega
    have units : (10 * x + y) % 10 = y := by omega
    rw [ofChars_pad_two, tens, units]
  · cases range

lemma twoDigits_digit {any : List Nat} {low high : Nat} (range : low ≤ n ∧ n ≤ high) (lt : n < 100) :
    twoDigits any low high (digit (n / 10 % 10)) (digit (n % 10)) = some n := by
  have value : 10 * (n / 10 % 10) + n % 10 = n := by omega
  simp only [twoDigits, asciiDigit_digit (show n / 10 % 10 < 10 by omega), asciiDigit_digit (show n % 10 < 10 by omega),
    decimal_digit (show n % 10 < 10 by omega), ite_self, bind_eq_bind, bind_some, value, if_pos range]

lemma year_ascii {a b c d : CodePoint} (ascii : Ascii [a, b, c, d]) (value : year a b c d = some n) :
    ofChars (DateTime.pad 4 n) = [a, b, c, d] := by
  simp only [Ascii, forall_mem_cons] at ascii
  obtain ⟨asciia, asciib, asciic, asciid, -⟩ := ascii
  simp only [year, decimal_ascii, asciia, asciib, asciic, asciid, bind_eq_bind, bind_eq_some_iff,
    Option.pure_def] at value
  obtain ⟨w, first, x, second, y, third, z, fourth, eq⟩ := value
  obtain ⟨ltw, rfl⟩ := eq_digit first
  obtain ⟨ltx, rfl⟩ := eq_digit second
  obtain ⟨lty, rfl⟩ := eq_digit third
  obtain ⟨ltz, rfl⟩ := eq_digit fourth
  have eq : 1000 * w + 100 * x + 10 * y + z = n := some.inj eq
  have thousands : n / 1000 % 10 = w := by omega
  have hundreds : n / 100 % 10 = x := by omega
  have tens : n / 10 % 10 = y := by omega
  have units : n % 10 = z := by omega
  rw [ofChars_pad_four, thousands, hundreds, tens, units]

lemma year_digit (lt : n < 10000) :
    year (digit (n / 1000 % 10)) (digit (n / 100 % 10)) (digit (n / 10 % 10)) (digit (n % 10)) = some n := by
  have value : 1000 * (n / 1000 % 10) + 100 * (n / 100 % 10) + 10 * (n / 10 % 10) + n % 10 = n := by omega
  simp only [year, decimal_digit (show n / 1000 % 10 < 10 by omega), decimal_digit (show n / 100 % 10 < 10 by omega),
    decimal_digit (show n / 10 % 10 < 10 by omega), decimal_digit (show n % 10 < 10 by omega), bind_eq_bind,
    bind_some, Option.pure_def, value]

/-! ## What is read and what is written -/

lemma isOf_form {y1 y2 y3 y4 e1 m1 m2 e2 d1 d2 e3 h1 h2 e4 n1 n2 e5 s1 s2 e6 : CodePoint}
    (shape : isOf form [y1, y2, y3, y4, e1, m1, m2, e2, d1, d2, e3, h1, h2, e4, n1, n2, e5, s1, s2, e6] = true) :
    [e1, e2, e3, e4, e5, e6] = ofChars ['-', '-', 'T', ':', ':', 'Z'] := by
  simp only [form, isOf, Bool.and_eq_true, decide_eq_true_eq] at shape
  obtain ⟨-, -, -, -, eq1, -, -, eq2, -, -, eq3, -, -, eq4, -, -, eq5, -, -, eq6, -⟩ := shape
  simp only [ofChars, map_cons, map_nil, List.cons.injEq, and_true]
  exact ⟨Fin.ext eq1, Fin.ext eq2, Fin.ext eq3, Fin.ext eq4, Fin.ext eq5, Fin.ext eq6⟩

lemma eq_instantText {s : Text} {t : DateTime} (ascii : Ascii s) (shape : isOf form s = true)
    (read : strptime s = some t) : s = ofChars (instantText t.1) := by
  rw [strptime.eq_def] at read
  split at read
  · rename_i y1 y2 y3 y4 e1 m1 m2 e2 d1 d2 e3 h1 h2 e4 n1 n2 e5 s1 s2 e6
    simp only [bind_eq_bind, bind_eq_some_iff] at read
    obtain ⟨y, yeary, m, monthm, d, dayd, h, hourh, n, minuten, s, seconds, made⟩ := read
    obtain ⟨valid, rfl⟩ : ∃ valid, (⟨_, valid⟩ : DateTime) = t := by
      rw [DateTime.make] at made
      split at made
      · exact ⟨_, some.inj made⟩
      · cases made
    have between := isOf_form shape
    simp only [ofChars, map_cons, map_nil, List.cons.injEq, and_true] at between
    obtain ⟨rfl, rfl, rfl, rfl, rfl, rfl⟩ := between
    have texty := year_ascii (fun c mem => ascii c (by simp only [mem_cons] at mem ⊢; tauto)) yeary
    have textm := twoDigits_ascii (ascii m2 (by simp)) monthm
    have textd := twoDigits_ascii (ascii d2 (by simp)) dayd
    have texth := twoDigits_ascii (ascii h2 (by simp)) hourh
    have textn := twoDigits_ascii (ascii n2 (by simp)) minuten
    have texts := twoDigits_ascii (ascii s2 (by simp)) seconds
    simp only [ofChars] at texty textm textd texth textn texts
    simp only [instantText, DateTime.dateText, DateTime.clockText, ofChars, map_append, map_cons, map_nil,
      texty, textm, textd, texth, textn, texts]
    rfl
  · cases read

lemma ofChars_instantText {f : DateTimeFields} :
    ofChars (instantText f) =
      [digit (f.year / 1000 % 10), digit (f.year / 100 % 10), digit (f.year / 10 % 10), digit (f.year % 10),
        Fin.ofNat _ '-'.toNat, digit (f.month / 10 % 10), digit (f.month % 10), Fin.ofNat _ '-'.toNat,
        digit (f.day / 10 % 10), digit (f.day % 10), Fin.ofNat _ 'T'.toNat, digit (f.hour / 10 % 10),
        digit (f.hour % 10), Fin.ofNat _ ':'.toNat, digit (f.minute / 10 % 10), digit (f.minute % 10),
        Fin.ofNat _ ':'.toNat, digit (f.second / 10 % 10), digit (f.second % 10), Fin.ofNat _ 'Z'.toNat] := by
  have two : ∀ n, List.map (fun c : Char => (Fin.ofNat 1114112 c.toNat : CodePoint)) (DateTime.pad 2 n) = _ :=
    fun n => ofChars_pad_two
  have four : ∀ n, List.map (fun c : Char => (Fin.ofNat 1114112 c.toNat : CodePoint)) (DateTime.pad 4 n) = _ :=
    fun n => ofChars_pad_four
  simp only [instantText, DateTime.dateText, DateTime.clockText, ofChars, map_append, map_cons, map_nil,
    two, four]
  rfl

lemma isOf_instantText {f : DateTimeFields} : isOf form (ofChars (instantText f)) = true := by
  have found : ∀ n, (decimal (digit (n % 10))).isSome = true := by
    intro n
    rw [decimal_digit (Nat.mod_lt n (by decide))]
    rfl
  rw [ofChars_instantText]
  simp only [form, isOf, found, Bool.and_true]
  decide

lemma strptime_instantText {t : DateTime} :
    strptime (ofChars (instantText t.1)) =
      DateTime.make ⟨t.1.year, t.1.month, t.1.day, t.1.hour, t.1.minute, t.1.second, 0, none⟩ := by
  have valid := t.2
  have days : daysInMonth t.1.year t.1.month ≤ 31 := by
    unfold daysInMonth
    split_ifs <;> omega
  have lastDay := valid.day.2.trans days
  rw [ofChars_instantText, strptime]
  simp only [month, day, hour, minute, second, year_digit (show t.1.year < 10000 from Nat.lt_succ_of_le valid.year.2),
    twoDigits_digit valid.month (Nat.lt_of_le_of_lt valid.month.2 (by decide)),
    twoDigits_digit ⟨valid.day.1, lastDay⟩ (Nat.lt_of_le_of_lt lastDay (by decide)),
    twoDigits_digit ⟨Nat.zero_le _, Nat.le_of_lt_succ valid.hour⟩ (valid.hour.trans (by decide)),
    twoDigits_digit ⟨Nat.zero_le _, Nat.le_of_lt_succ valid.minute⟩ (valid.minute.trans (by decide)),
    twoDigits_digit ⟨Nat.zero_le _, show t.1.second ≤ 61 from (Nat.le_of_lt valid.second).trans (by decide)⟩
      (valid.second.trans (by decide)), bind_eq_bind, bind_some]

lemma ascii_instantText {f : DateTimeFields} : Ascii (ofChars (instantText f)) := by
  have digits : ∀ n, (digit (n % 10)).val < 128 := by
    intro n
    have all : ∀ n < 10, (digit n).val < 128 := by decide
    exact all _ (Nat.mod_lt n (by decide))
  rw [ofChars_instantText]
  simp only [Ascii, forall_mem_cons, digits, true_and, not_mem_nil, false_implies, implies_true]
  decide

/-- The texts of ASCII characters that are taken are those of the instants of the calendar. -/
theorem readable_ascii_iff {s : Text} :
    readable s = true ∧ Ascii s ↔ ∃ t : DateTime, s = ofChars (instantText t.1) := by
  constructor
  · intro ⟨read, ascii⟩
    obtain ⟨shape, named⟩ := Bool.and_eq_true_iff.1 read
    obtain ⟨t, read⟩ := isSome_iff_exists.1 named
    exact ⟨t, eq_instantText ascii shape read⟩
  · intro ⟨t, eq⟩
    subst eq
    have valid : DateTimeFields.Valid ⟨t.1.year, t.1.month, t.1.day, t.1.hour, t.1.minute, t.1.second, 0, none⟩ :=
      ⟨t.2.year, t.2.month, t.2.day, t.2.hour, t.2.minute, t.2.second, Nat.zero_lt_succ _, by simp⟩
    refine ⟨?_, ascii_instantText⟩
    rw [readable, isOf_instantText, strptime_instantText, DateTime.make_eq valid]
    rfl

end Timestamp

end Workbench.Lib
