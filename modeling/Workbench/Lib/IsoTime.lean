import Mathlib.Tactic
import Mathlib.Data.List.TakeWhile

/-!
# ISO 8601 texts of a datetime

`datetime` with its range checks, `isoformat`, `fromisoformat`, and the text in which SQLite keeps a
datetime. The text that is kept reads back as the datetime without its zone (`fromisoformat_storedText`).
-/

namespace Workbench.Lib
open List Option

/-- The fields of a `datetime`; the offset from UTC is in microseconds, `none` when there is no zone. -/
structure DateTimeFields where
  year : Nat
  month : Nat
  day : Nat
  hour : Nat := 0
  minute : Nat := 0
  second : Nat := 0
  microsecond : Nat := 0
  utcoffset : Option Int := none
deriving DecidableEq

def isLeap (year : Nat) : Bool := year % 4 = 0 && (year % 100 ≠ 0 || year % 400 = 0)

def daysInMonth (year month : Nat) : Nat :=
  if month = 2 then (if isLeap year then 29 else 28)
  else if month = 4 ∨ month = 6 ∨ month = 9 ∨ month = 11 then 30 else 31

/-- What the constructor of `datetime` checks. -/
structure DateTimeFields.Valid (f : DateTimeFields) : Prop where
  year : 1 ≤ f.year ∧ f.year ≤ 9999
  month : 1 ≤ f.month ∧ f.month ≤ 12
  day : 1 ≤ f.day ∧ f.day ≤ daysInMonth f.year f.month
  hour : f.hour < 24
  minute : f.minute < 60
  second : f.second < 60
  microsecond : f.microsecond < 1000000
  utcoffset : ∀ o ∈ f.utcoffset, -86400000000 < o ∧ o < 86400000000

instance (f : DateTimeFields) : Decidable f.Valid :=
  decidable_of_iff ((1 ≤ f.year ∧ f.year ≤ 9999) ∧ (1 ≤ f.month ∧ f.month ≤ 12) ∧
      (1 ≤ f.day ∧ f.day ≤ daysInMonth f.year f.month) ∧ f.hour < 24 ∧ f.minute < 60 ∧ f.second < 60 ∧
      f.microsecond < 1000000 ∧ ∀ o ∈ f.utcoffset, -86400000000 < o ∧ o < 86400000000)
    ⟨fun ⟨a, b, c, d, e, f, g, h⟩ => ⟨a, b, c, d, e, f, g, h⟩,
      fun ⟨a, b, c, d, e, f, g, h⟩ => ⟨a, b, c, d, e, f, g, h⟩⟩

/-- A `datetime`. -/
abbrev DateTime := { f : DateTimeFields // f.Valid }

namespace DateTime
variable {c : Char} {us : Nat}

/-- `datetime(...)`; `none` is a `ValueError`. -/
def make (f : DateTimeFields) : Option DateTime := if h : f.Valid then some ⟨f, h⟩ else none

lemma make_eq {f : DateTimeFields} (h : f.Valid) : make f = some ⟨f, h⟩ := dif_pos h

/-- `t.replace(tzinfo=...)`. -/
def withOffset (t : DateTime) (o : Option Int) (h : ∀ x ∈ o, -86400000000 < x ∧ x < 86400000000) : DateTime :=
  ⟨{ t.1 with utcoffset := o }, ⟨t.2.year, t.2.month, t.2.day, t.2.hour, t.2.minute, t.2.second,
    t.2.microsecond, h⟩⟩

def inUtc (t : DateTime) : DateTime := t.withOffset (some 0) (by simp)

/-- The datetime without a zone with the same fields. -/
def naive (t : DateTime) : DateTime := t.withOffset none (by simp)

/-! ## Writing -/

/-- The last `k` decimal digits of a number. -/
def pad : Nat → Nat → List Char
  | 0, _ => []
  | k + 1, n => Nat.digitChar (n / 10 ^ k % 10) :: pad k n

def dateText (f : DateTimeFields) : List Char :=
  pad 4 f.year ++ '-' :: pad 2 f.month ++ '-' :: pad 2 f.day

/-- The part that names the time up to the second. -/
def clockText (h m s : Nat) : List Char := pad 2 h ++ ':' :: pad 2 m ++ ':' :: pad 2 s

/-- An offset, as `isoformat` ends. -/
def offsetText (o : Int) : List Char :=
  let a := o.natAbs
  (if o < 0 then '-' else '+') :: pad 2 (a / 3600000000) ++ ':' :: pad 2 (a / 60000000 % 60) ++
    (if a % 60000000 = 0 then [] else
      ':' :: pad 2 (a / 1000000 % 60) ++ if a % 1000000 = 0 then [] else '.' :: pad 6 (a % 1000000))

/-- `t.isoformat()`. -/
def isoformat (t : DateTime) : List Char :=
  dateText t.1 ++ 'T' :: clockText t.1.hour t.1.minute t.1.second ++
    (if t.1.microsecond = 0 then [] else '.' :: pad 6 t.1.microsecond) ++
    (t.1.utcoffset.map offsetText).getD []

/-- The text that is stored in a `DateTime` column: the zone is dropped. -/
def storedText (t : DateTime) : List Char :=
  dateText t.1 ++ ' ' :: clockText t.1.hour t.1.minute t.1.second ++ '.' :: pad 6 t.1.microsecond

/-! ## Reading -/

/-- Read exactly `k` ASCII digits. -/
def digits : Nat → List Char → Option (Nat × List Char)
  | 0, cs => some (0, cs)
  | k + 1, c :: cs =>
    if c.isDigit then (digits k cs).map fun r => ((c.toNat - 48) * 10 ^ k + r.1, r.2) else none
  | _ + 1, [] => none

/-- Where the character between date and time stands. -/
def separator (s : List Char) : Option Nat :=
  match s with
  | _ :: _ :: _ :: _ :: '-' :: 'W' :: _ :: _ :: rest =>
    match rest with
    | '-' :: [] => none
    | '-' :: _ :: c :: _ => some (if c.isDigit then 8 else 10)
    | '-' :: _ => some 10
    | _ => some 8
  | _ :: _ :: _ :: _ :: '-' :: _ :: _ :: _ => some 10
  | _ :: _ :: _ :: _ :: 'W' :: _ :: _ :: rest =>
    let index := 7 + (rest.takeWhile Char.isDigit).length
    some (if index < 9 then index else if index % 2 = 0 then 7 else 8)
  | _ :: _ :: _ :: _ :: _ :: _ :: _ :: _ => some 8
  | _ => none

def daysBefore (year : Nat) : Nat := 365 * (year - 1) + (year - 1) / 4 - (year - 1) / 100 + (year - 1) / 400

/-- The date of an ordinal (1 is January 1 of the year 1). -/
def ofOrdinal (n : Nat) : Nat × Nat × Nat :=
  let z := n + 305
  let era := z / 146097
  let doe := z % 146097
  let yoe := (doe - doe / 1460 + doe / 36524 - doe / 146096) / 365
  let doy := doe - (365 * yoe + yoe / 4 - yoe / 100)
  let mp := (5 * doy + 2) / 153
  let m := if mp < 10 then mp + 3 else mp - 9
  (if m ≤ 2 then yoe + era * 400 + 1 else yoe + era * 400, m, doy - (153 * mp + 2) / 5 + 1)

def isoWeek (year week day : Nat) : Option (Nat × Nat × Nat) :=
  let first := daysBefore year + 1
  let weekday := (first + 6) % 7
  let lastWeek := if weekday = 3 ∨ weekday = 2 ∧ isLeap year then 53 else 52
  if year = 0 ∨ week = 0 ∨ lastWeek < week ∨ day = 0 ∨ 7 < day then none
  else
    let monday := first + (if 3 < weekday then 7 else 0)
    if monday + (week - 1) * 7 + (day - 1) ≤ weekday then none
    else some (ofOrdinal (monday + (week - 1) * 7 + (day - 1) - weekday))

def parseDate (s : List Char) : Option (Nat × Nat × Nat) := do
  let (year, s) ← digits 4 s
  match s with
  | '-' :: 'W' :: s =>
    let (week, s) ← digits 2 s
    match s with
    | [] => isoWeek year week 1
    | '-' :: s =>
      let (day, s) ← digits 1 s
      if s = [] then isoWeek year week day else none
    | _ => none
  | 'W' :: s =>
    let (week, s) ← digits 2 s
    if s = [] then isoWeek year week 1 else
      let (day, s) ← digits 1 s
      if s = [] then isoWeek year week day else none
  | '-' :: s =>
    let (month, s) ← digits 2 s
    match s with
    | '-' :: s =>
      let (day, s) ← digits 2 s
      if s = [] then some (year, month, day) else none
    | _ => none
  | s =>
    let (month, s) ← digits 2 s
    let (day, s) ← digits 2 s
    if s = [] then some (year, month, day) else none

def nul : Char := Char.ofNat 0

/-- The fraction of a second; digits after the sixth are dropped. The flag tells whether something else than a NUL
    follows them. -/
def parseFraction (s : List Char) : Option (Nat × Bool) := do
  let (n, rest) ← digits (min 6 s.length) s
  some (n * 10 ^ (6 - min 6 s.length), (rest.dropWhile Char.isDigit).head?.any (· ≠ nul))

/-- `HH[:?MM[:?SS[.f+]]]`, up to `n` fields of two digits. One more character at the end is only reported, and after
    the last field any separator begins the fraction. -/
def parseFields (colon : Bool) : Nat → List Char → Option (List Nat × Nat × Bool)
  | 0, s => (parseFraction s).map ([], ·)
  | n + 1, s => do
    let (v, s) ← digits 2 s
    match s with
    | [] => some ([v], 0, false)
    | c :: s =>
      if s = [] ∧ c.toNat < 128 then some ([v], 0, c ≠ nul)
      else if colon = true ∧ c = ':' then (parseFields colon n s).map fun r => (v :: r.1, r.2)
      else if c = '.' ∨ c = ',' then (parseFraction s).map ([v], ·)
      else if colon then none
      else (parseFields colon n (c :: s)).map fun r => (v :: r.1, r.2)

/-- The time of a day or of an offset; the first separator decides for all. -/
def parseClock (s : List Char) : Option ((Nat × Nat × Nat × Nat) × Bool) :=
  (parseFields ((s.drop 2).head? = some ':') 3 s).map fun r =>
    ((r.1.getD 0 0, r.1.getD 1 0, r.1.getD 2 0, r.2.1), r.2.2)

/-- The part after the separator: the time, and the zone. What is left over after the time is refused only where no
    zone follows. -/
def parseTime (s : List Char) : Option ((Nat × Nat × Nat × Nat) × Option Int) := do
  let (time, left) ← parseClock (s.takeWhile fun c => c ≠ '+' ∧ c ≠ '-' ∧ c ≠ 'Z')
  match s.dropWhile fun c => c ≠ '+' ∧ c ≠ '-' ∧ c ≠ 'Z' with
  | [] => if left then none else some (time, none)
  | 'Z' :: zone => if zone.head?.any (· ≠ nul) then none else some (time, some 0)
  | sign :: zone =>
    let ((h, m, s, us), left) ← parseClock zone
    let offset : Int := ((h * 3600 + m * 60 + s) * 1000000 + us : Nat)
    if left then none else some (time, some (if sign = '-' then -offset else offset))

/-- `datetime.fromisoformat(s)`; `none` is a `ValueError`. -/
def fromisoformat (s : List Char) : Option DateTime := do
  let p ← separator s
  let (year, month, day) ← parseDate (s.take p)
  match s.drop p with
  | [] => make { year, month, day }
  | _ :: rest =>
    let ((hour, minute, second, microsecond), utcoffset) ← parseTime rest
    make { year, month, day, hour, minute, second, microsecond, utcoffset }

/-! ## The stored text reads back -/

lemma isDigit_digitChar : ∀ n < 10, (Nat.digitChar n).isDigit = true := by decide

lemma toNat_digitChar : ∀ n < 10, (Nat.digitChar n).toNat - 48 = n := by decide

lemma digitChar_ne {n : Nat} (other : c.isDigit = false) : Nat.digitChar (n % 10) ≠ c := by
  intro eq
  have digit := isDigit_digitChar (n % 10) (Nat.mod_lt _ (by decide))
  rw [eq, other] at digit
  cases digit

lemma digits_pad {k n : Nat} {rest : List Char} : digits k (pad k n ++ rest) = some (n % 10 ^ k, rest) := by
  induction k with
  | zero => simp [digits, pad, Nat.mod_one]
  | succ k ih =>
    have lt : n / 10 ^ k % 10 < 10 := Nat.mod_lt _ (by decide)
    have split : n / 10 ^ k % 10 * 10 ^ k + n % 10 ^ k = n % 10 ^ (k + 1) := by
      rw [Nat.pow_succ, Nat.mod_mul, Nat.mul_comm, Nat.add_comm]
    simp only [pad, cons_append, digits, isDigit_digitChar _ lt, toNat_digitChar _ lt, ih, map_some, split,
      if_true]

lemma digits_pad_of_lt {k n : Nat} {rest : List Char} (lt : n < 10 ^ k) :
    digits k (pad k n ++ rest) = some (n, rest) := by
  rw [digits_pad, Nat.mod_eq_of_lt lt]

@[simp] lemma length_pad {k n : Nat} : (pad k n).length = k := by
  induction k with
  | zero => rfl
  | succ k ih => rw [pad, length_cons, ih]

lemma mem_pad {k n : Nat} (mem : c ∈ pad k n) : c.isDigit = true := by
  induction k with
  | zero => cases mem
  | succ k ih =>
    cases mem with
    | head => exact isDigit_digitChar _ (Nat.mod_lt _ (by decide))
    | tail _ mem => exact ih mem

variable (t : DateTime)

lemma year_lt : t.1.year < 10 ^ 4 := by have := t.2.year; omega
lemma month_lt : t.1.month < 10 ^ 2 := by have := t.2.month; omega
lemma hour_lt : t.1.hour < 10 ^ 2 := by have := t.2.hour; omega
lemma minute_lt : t.1.minute < 10 ^ 2 := by have := t.2.minute; omega
lemma second_lt : t.1.second < 10 ^ 2 := by have := t.2.second; omega

lemma day_lt : t.1.day < 10 ^ 2 := by
  have le := t.2.day.2
  unfold daysInMonth at le
  split at le
  · split at le <;> omega
  · split at le <;> omega

lemma length_dateText : (dateText t.1).length = 10 := by simp [dateText]

lemma pad_ne {k n : Nat} {cs rest : List Char} (other : c.isDigit = false) : pad (k + 1) n ++ rest ≠ c :: cs := by
  intro eq
  exact digitChar_ne other (List.cons.inj eq).1

lemma separator_of_dash {a b d e f : Char} {s : List Char} (ne : e ≠ 'W') :
    separator (a :: b :: c :: d :: '-' :: e :: f :: s) = some 10 := by
  unfold separator
  split
  · rename_i eq
    simp only [List.cons.injEq] at eq
    exact absurd eq.2.2.2.2.2.1 ne
  · rfl
  · rename_i eq
    simp only [List.cons.injEq] at eq
    exact absurd eq.2.2.2.2.1 (by decide)
  · rename_i dash _ eq
    simp only [List.cons.injEq] at eq
    exact absurd eq.2.2.2.2.1.symm dash
  · rename_i short
    exact absurd rfl (short _ _ _ _ _ _ _ _)

lemma separator_dateText {rest : List Char} : separator (dateText t.1 ++ rest) = some 10 := by
  simp only [dateText, pad, cons_append, nil_append]
  apply separator_of_dash
  exact digitChar_ne rfl

lemma parseDate_dateText : parseDate (dateText t.1) = some (t.1.year, t.1.month, t.1.day) := by
  have whole : dateText t.1 = pad 4 t.1.year ++ ('-' :: (pad 2 t.1.month ++ ('-' :: (pad 2 t.1.day ++ [])))) := by
    simp [dateText]
  rw [whole, parseDate, digits_pad_of_lt (year_lt t)]
  simp only [bind_eq_bind, bind_some]
  split
  · rename_i eq
    exact absurd (List.cons.inj eq).2 (pad_ne rfl)
  · rename_i eq
    cases eq
  · rename_i eq
    cases eq
    simp only [digits_pad_of_lt (month_lt t), digits_pad_of_lt (day_lt t), bind_some, if_true]
  · rename_i other
    exact absurd rfl (other _)

lemma parseFraction_pad (lt : us < 1000000) : parseFraction (pad 6 us) = some (us, false) := by
  have bound : us < 10 ^ 6 := lt.trans_le (by norm_num)
  have read := @digits_pad_of_lt 6 us [] bound
  rw [append_nil] at read
  have unit : us * 10 ^ (6 - 6) = us := Nat.mul_one us
  simp only [parseFraction, length_pad, Nat.min_self, bind_eq_bind, read, bind_some, unit, dropWhile_nil, head?_nil,
    any_none]

section Fields
variable {colon : Bool} {n v : Nat} {s : List Char}

lemma parseFields_end (lt : v < 10 ^ 2) : parseFields colon (n + 1) (pad 2 v) = some ([v], 0, false) := by
  have read := @digits_pad_of_lt 2 v [] lt
  rw [append_nil] at read
  simp only [parseFields, read, bind_eq_bind, bind_some]

lemma parseFields_colon (lt : v < 10 ^ 2) (more : s ≠ []) :
    parseFields true (n + 1) (pad 2 v ++ ':' :: s) = (parseFields true n s).map fun r => (v :: r.1, r.2) := by
  simp only [parseFields, digits_pad_of_lt lt, bind_eq_bind, bind_some, more, false_and, if_false, and_self, if_true]

lemma parseFields_fraction (lt : v < 10 ^ 2) (more : s ≠ []) :
    parseFields colon (n + 1) (pad 2 v ++ '.' :: s) = (parseFraction s).map ([v], ·) := by
  have dot : '.' ≠ ':' := by decide
  simp only [parseFields, digits_pad_of_lt lt, bind_eq_bind, bind_some, more, false_and, if_false, dot, and_false,
    true_or, if_true]

end Fields

lemma pad_ne_nil {k n : Nat} {rest : List Char} : pad (k + 1) n ++ rest ≠ [] := by simp [pad]

/-- What follows the seconds of a clock: nothing, or the digits of a fraction. -/
def Fraction (text : List Char) (us : Nat) : Prop :=
  text = [] ∧ us = 0 ∨ ∃ s, text = '.' :: s ∧ s ≠ [] ∧ parseFraction s = some (us, false)

lemma fraction_pad (lt : us < 1000000) : Fraction ('.' :: pad 6 us) us :=
  .inr ⟨_, rfl, by simp [pad], parseFraction_pad lt⟩

lemma fraction_text (lt : us < 1000000) : Fraction (if us = 0 then [] else '.' :: pad 6 us) us := by
  split
  · rename_i zero
    exact .inl ⟨rfl, zero⟩
  · exact fraction_pad lt

lemma parseClock_append {h m s : Nat} {text : List Char} (hour : h < 10 ^ 2) (minute : m < 10 ^ 2)
    (second : s < 10 ^ 2) (fraction : Fraction text us) :
    parseClock (clockText h m s ++ text) = some ((h, m, s, us), false) := by
  have whole : clockText h m s ++ text = pad 2 h ++ (':' :: (pad 2 m ++ (':' :: (pad 2 s ++ text)))) := by
    simp [clockText]
  have head : ((pad 2 h ++ (':' :: (pad 2 m ++ (':' :: (pad 2 s ++ text))))).drop 2).head? = some ':' := by
    simp [pad]
  have last : parseFields true 1 (pad 2 s ++ text) = some ([s], us, false) := by
    obtain ⟨rfl, rfl⟩ | ⟨digits, rfl, more, read⟩ := fraction
    · rw [append_nil]
      exact parseFields_end second
    · rw [parseFields_fraction second more, read, map_some]
  rw [whole, parseClock, head, decide_eq_true rfl, parseFields_colon hour pad_ne_nil,
    parseFields_colon minute pad_ne_nil, last]
  rfl

lemma z_notMem_storedText : 'Z' ∉ t.storedText := by
  have digit : ∀ {k n}, 'Z' ∉ pad k n := fun mem => by cases mem_pad mem
  simp [storedText, dateText, clockText, digit]

lemma storedText_ne_nil : t.storedText ≠ [] := by simp [storedText]

lemma fromisoformat_append {rest : List Char} {h m s : Nat} {o : Option Int}
    (read : parseTime rest = some ((h, m, s, us), o)) :
    fromisoformat (dateText t.1 ++ c :: rest) = make ⟨t.1.year, t.1.month, t.1.day, h, m, s, us, o⟩ := by
  have date : (dateText t.1 ++ c :: rest).take 10 = dateText t.1 := by rw [← length_dateText t, take_left]
  have time : (dateText t.1 ++ c :: rest).drop 10 = c :: rest := by rw [← length_dateText t, drop_left]
  rw [fromisoformat, separator_dateText]
  simp only [bind_eq_bind, bind_some, date, parseDate_dateText, time, read]

/-- The text that is kept reads back as the datetime without its zone. -/
lemma pad_plain {k n : Nat} : ∀ c ∈ pad k n, c ≠ '+' ∧ c ≠ '-' ∧ c ≠ 'Z' := by
  intro c mem
  have digit := mem_pad mem
  refine ⟨?_, ?_, ?_⟩ <;> (rintro rfl; cases digit)

lemma clockText_plain {h m s : Nat} : ∀ c ∈ clockText h m s, c ≠ '+' ∧ c ≠ '-' ∧ c ≠ 'Z' := by
  intro c mem
  simp only [clockText, mem_append, mem_cons] at mem
  obtain (mem | rfl | mem) | rfl | mem := mem
  · exact pad_plain c mem
  · decide
  · exact pad_plain c mem
  · decide
  · exact pad_plain c mem

theorem fromisoformat_storedText : fromisoformat t.storedText = some t.naive := by
  have whole : t.storedText =
      dateText t.1 ++ (' ' :: (clockText t.1.hour t.1.minute t.1.second ++ '.' :: pad 6 t.1.microsecond)) := by
    simp [storedText]
  -- no sign and no letter: the whole rest is the time
  have plain : ∀ c ∈ clockText t.1.hour t.1.minute t.1.second ++ '.' :: pad 6 t.1.microsecond,
      c ≠ '+' ∧ c ≠ '-' ∧ c ≠ 'Z' := by
    intro c mem
    rcases mem_append.1 mem with mem | mem
    · exact clockText_plain c mem
    · rcases mem_cons.1 mem with rfl | mem
      · decide
      · exact pad_plain c mem
  have taken := takeWhile_eq_self_iff.2 fun c mem => decide_eq_true (plain c mem)
  have dropped := dropWhile_eq_nil_iff.2 fun c mem => decide_eq_true (plain c mem)
  have read : parseTime (clockText t.1.hour t.1.minute t.1.second ++ '.' :: pad 6 t.1.microsecond) =
      some ((t.1.hour, t.1.minute, t.1.second, t.1.microsecond), none) := by
    rw [parseTime, taken, dropped,
      parseClock_append (hour_lt t) (minute_lt t) (second_lt t) (fraction_pad t.2.microsecond)]
    rfl
  rw [whole, fromisoformat_append t read]
  exact make_eq t.naive.2

/-! ## The ISO text reads back -/

lemma parseClock_minute {h m : Nat} (hour : h < 10 ^ 2) (minute : m < 10 ^ 2) :
    parseClock (pad 2 h ++ ':' :: pad 2 m) = some ((h, m, 0, 0), false) := by
  have head : ((pad 2 h ++ ':' :: pad 2 m).drop 2).head? = some ':' := by simp [pad]
  rw [parseClock, head, decide_eq_true rfl, parseFields_colon hour (by simp [pad]), parseFields_end minute]
  rfl

lemma clock_plain {h m s : Nat} :
    ∀ c ∈ clockText h m s ++ (if us = 0 then [] else '.' :: pad 6 us), c ≠ '+' ∧ c ≠ '-' ∧ c ≠ 'Z' := by
  intro c mem
  obtain clock | fraction := mem_append.1 mem
  · exact clockText_plain c clock
  · split at fraction
    · cases fraction
    · obtain rfl | mem := mem_cons.1 fraction
      · decide
      · exact pad_plain c mem

lemma offsetText_eq {o : Int} (range : -86400000000 < o ∧ o < 86400000000) :
    ∃ zone, offsetText o = (if o < 0 then '-' else '+') :: zone ∧
      parseClock zone = some ((o.natAbs / 3600000000, o.natAbs / 60000000 % 60, o.natAbs / 1000000 % 60,
        o.natAbs % 1000000), false) := by
  refine ⟨pad 2 (o.natAbs / 3600000000) ++ ':' :: pad 2 (o.natAbs / 60000000 % 60) ++
    (if o.natAbs % 60000000 = 0 then [] else ':' :: pad 2 (o.natAbs / 1000000 % 60) ++
      if o.natAbs % 1000000 = 0 then [] else '.' :: pad 6 (o.natAbs % 1000000)), rfl, ?_⟩
  have hour : o.natAbs / 3600000000 < 10 ^ 2 := by omega
  have minute : o.natAbs / 60000000 % 60 < 10 ^ 2 := by omega
  by_cases whole : o.natAbs % 60000000 = 0
  · have second : o.natAbs / 1000000 % 60 = 0 := by omega
    have micro : o.natAbs % 1000000 = 0 := by omega
    rw [if_pos whole, second, micro, append_nil]
    exact parseClock_minute hour minute
  · have second : o.natAbs / 1000000 % 60 < 10 ^ 2 := by omega
    have micro : o.natAbs % 1000000 < 1000000 := Nat.mod_lt _ (by decide)
    have clock := parseClock_append hour minute second (fraction_text micro)
    rw [if_neg whole]
    simpa [clockText] using clock

lemma parseTime_isoformat :
    parseTime (clockText t.1.hour t.1.minute t.1.second ++
        (if t.1.microsecond = 0 then [] else '.' :: pad 6 t.1.microsecond) ++ (t.1.utcoffset.map offsetText).getD []) =
      some ((t.1.hour, t.1.minute, t.1.second, t.1.microsecond), t.1.utcoffset) := by
  have plain : ∀ c ∈ clockText t.1.hour t.1.minute t.1.second ++
      (if t.1.microsecond = 0 then [] else '.' :: pad 6 t.1.microsecond),
      decide (c ≠ '+' ∧ c ≠ '-' ∧ c ≠ 'Z') = true := fun c mem => decide_eq_true (clock_plain c mem)
  have clock := parseClock_append (hour_lt t) (minute_lt t) (second_lt t) (fraction_text t.2.microsecond)
  rw [parseTime, takeWhile_append_of_pos plain, dropWhile_append_of_pos plain]
  cases zone : t.1.utcoffset with
  | none =>
    simp only [map_none, getD_none, takeWhile_nil, dropWhile_nil, append_nil, clock,
      bind_eq_bind, bind_some, Bool.false_eq_true, if_false]
  | some o =>
    have range := t.2.utcoffset o (by rw [zone]; rfl)
    obtain ⟨text, eq, read⟩ := offsetText_eq range
    have total : ((o.natAbs / 3600000000 * 3600 + o.natAbs / 60000000 % 60 * 60 + o.natAbs / 1000000 % 60) * 1000000 +
        o.natAbs % 1000000 : Nat) = o.natAbs := by omega
    rw [map_some, getD_some, eq]
    by_cases negative : o < 0
    · have back : -((o.natAbs : Nat) : Int) = o := by omega
      simp only [if_pos negative, takeWhile_cons, dropWhile_cons, ne_eq, not_true_eq_false, and_false,
        false_and, decide_false, Bool.false_eq_true, if_false, append_nil, clock, bind_eq_bind,
        bind_some]
      change (parseClock text).bind _ = _
      rw [read, bind_some, if_neg Bool.false_ne_true, if_pos rfl, total, back]
    · have back : ((o.natAbs : Nat) : Int) = o := by omega
      simp only [if_neg negative, takeWhile_cons, dropWhile_cons, ne_eq, not_true_eq_false,
        false_and, decide_false, Bool.false_eq_true, if_false, append_nil, clock, bind_eq_bind,
        bind_some]
      change (parseClock text).bind _ = _
      rw [read, bind_some, if_neg Bool.false_ne_true, if_neg (by decide), total, back]

/-- `fromisoformat` reads what `isoformat` writes. -/
theorem fromisoformat_isoformat : fromisoformat t.isoformat = some t := by
  have whole : t.isoformat = dateText t.1 ++ ('T' :: (clockText t.1.hour t.1.minute t.1.second ++
      (if t.1.microsecond = 0 then [] else '.' :: pad 6 t.1.microsecond) ++
        (t.1.utcoffset.map offsetText).getD [])) := by
    simp [isoformat]
  rw [whole, fromisoformat_append t (parseTime_isoformat t)]
  exact make_eq t.2

end DateTime

end Workbench.Lib
