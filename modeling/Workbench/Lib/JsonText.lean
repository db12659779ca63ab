import Workbench.Lib.Json

/-!
# JSON texts

`json.dumps` with compact separators: strings are escaped to ASCII, a character outside the basic plane as a
surrogate pair. A caller that sorts its keys lists them in order. A text determines its value
(`dumps_injective`), since a value followed by a delimiter can be split off in one way only
(`dumps_append`).
-/

namespace Workbench.Lib.Json
open List
variable {c : Char} {r s : List Char}

/-! ## Strings -/

def hex4 (n : Nat) : List Char :=
  [Nat.digitChar (n / 4096 % 16), Nat.digitChar (n / 256 % 16), Nat.digitChar (n / 16 % 16), Nat.digitChar (n % 16)]

/-- The characters with an escape of two characters. -/
def shortEscape : List (Char × Char) :=
  [('"', '"'), ('\\', '\\'), ('\n', 'n'), ('\r', 'r'), ('\t', 't'), ('\x08', 'b'), ('\x0c', 'f')]

def escapeChar (c : Char) : List Char :=
  match shortEscape.lookup c with
  | some e => ['\\', e]
  | none =>
    if 32 ≤ c.toNat ∧ c.toNat < 127 then [c]
    else if c.toNat < 65536 then '\\' :: 'u' :: hex4 c.toNat
    else '\\' :: 'u' :: hex4 (55296 + (c.toNat - 65536) / 1024) ++
      '\\' :: 'u' :: hex4 (56320 + (c.toNat - 65536) % 1024)

def escapeString (cs : List Char) : List Char := cs.flatMap escapeChar ++ ['"']

def quote (s : String) : List Char := '"' :: escapeString s.toList

def hexVal (c : Char) : Nat := if c.isDigit then c.toNat - 48 else c.toNat - 87

def hexVal4 (a b c d : Char) : Nat := hexVal a * 4096 + hexVal b * 256 + hexVal c * 16 + hexVal d

def readChar : List Char → Option (Char × List Char)
  | '\\' :: 'u' :: a :: b :: c :: d :: rest =>
    let n := hexVal4 a b c d
    if 55296 ≤ n ∧ n < 56320 then
      match rest with
      | _ :: _ :: a' :: b' :: c' :: d' :: rest' =>
        some (Char.ofNat (65536 + (n - 55296) * 1024 + (hexVal4 a' b' c' d' - 56320)), rest')
      | _ => none
    else some (Char.ofNat n, rest)
  | '\\' :: e :: rest => (shortEscape.find? (·.2 = e)).map fun x => (x.1, rest)
  | c :: rest => some (c, rest)
  | [] => none

lemma hexVal_digitChar : ∀ n < 16, hexVal (Nat.digitChar n) = n := by decide

lemma hexVal4_hex4 {n : Nat} (lt : n < 65536) :
    hexVal4 (Nat.digitChar (n / 4096 % 16)) (Nat.digitChar (n / 256 % 16)) (Nat.digitChar (n / 16 % 16))
      (Nat.digitChar (n % 16)) = n := by
  unfold hexVal4
  rw [hexVal_digitChar _ (by omega), hexVal_digitChar _ (by omega), hexVal_digitChar _ (by omega),
    hexVal_digitChar _ (by omega)]
  omega

lemma mem_of_lookup {e : Char} (h : shortEscape.lookup c = some e) : (c, e) ∈ shortEscape := by
  obtain ⟨l, l', eq, -⟩ := lookup_eq_some_iff.1 h
  rw [eq]
  simp

lemma readChar_escapeChar {rest : List Char} : readChar (escapeChar c ++ rest) = some (c, rest) := by
  unfold escapeChar
  split
  · rename_i e found
    have mem := mem_of_lookup found
    simp only [shortEscape, mem_cons, Prod.mk.injEq, not_mem_nil, or_false] at mem
    rcases mem with ⟨rfl, rfl⟩ | ⟨rfl, rfl⟩ | ⟨rfl, rfl⟩ | ⟨rfl, rfl⟩ | ⟨rfl, rfl⟩ | ⟨rfl, rfl⟩ | ⟨rfl, rfl⟩ <;> rfl
  · rename_i plain
    split
    · have ne : c ≠ '\\' := by
        rintro rfl
        cases plain
      simp [readChar, ne]
    · split
      · rename_i low
        have value := hexVal4_hex4 low
        -- a character is no surrogate
        have scalar : ¬ (55296 ≤ c.toNat ∧ c.toNat < 56320) := by
          have valid := c.valid
          simp only [UInt32.isValidChar, Nat.isValidChar] at valid
          have same : c.toNat = c.val.toNat := rfl
          omega
        simp only [hex4, cons_append, nil_append, readChar, value, if_neg scalar, Char.ofNat_toNat]
      · rename_i high
        have bound : c.toNat < 1114112 := by
          have valid := c.valid
          simp only [UInt32.isValidChar, Nat.isValidChar] at valid
          have same : c.toNat = c.val.toNat := rfl
          omega
        have upper := @hexVal4_hex4 (55296 + (c.toNat - 65536) / 1024) (by omega)
        have lower := @hexVal4_hex4 (56320 + (c.toNat - 65536) % 1024) (by omega)
        have range : 55296 ≤ 55296 + (c.toNat - 65536) / 1024 ∧ 55296 + (c.toNat - 65536) / 1024 < 56320 := by omega
        have whole : 65536 + (55296 + (c.toNat - 65536) / 1024 - 55296) * 1024 +
            (56320 + (c.toNat - 65536) % 1024 - 56320) = c.toNat := by omega
        simp only [hex4, cons_append, nil_append, readChar, upper, lower, if_pos range, whole,
          Char.ofNat_toNat]

lemma escapeChar_append {d : Char} (h : escapeChar c ++ r = escapeChar d ++ s) : c = d ∧ r = s := by
  have read := congrArg readChar h
  rw [readChar_escapeChar, readChar_escapeChar] at read
  exact Prod.mk.inj (Option.some.inj read)

lemma escapeChar_head : '"' :: r ≠ escapeChar c ++ s := by
  intro h
  unfold escapeChar at h
  split at h
  · cases h
  · rename_i plain
    split at h
    · cases h
      cases plain
    · split at h <;> cases h

lemma escapeString_append {cs ds : List Char} (h : escapeString cs ++ r = escapeString ds ++ s) : cs = ds ∧ r = s := by
  unfold escapeString at h
  induction cs generalizing ds with
  | nil =>
    cases ds with
    | nil => exact ⟨rfl, (List.cons.inj h).2⟩
    | cons d ds =>
      simp only [flatMap_nil, nil_append, cons_append, flatMap_cons, append_assoc] at h
      exact absurd h escapeChar_head
  | cons c cs ih =>
    cases ds with
    | nil =>
      simp only [flatMap_nil, nil_append, cons_append, flatMap_cons, append_assoc] at h
      exact absurd h.symm escapeChar_head
    | cons d ds =>
      simp only [flatMap_cons, append_assoc] at h
      obtain ⟨rfl, rest⟩ := escapeChar_append h
      obtain ⟨rfl, eq⟩ := @ih ds (by simpa only [append_assoc] using rest)
      exact ⟨rfl, eq⟩

lemma quote_append {a b : String} (h : quote a ++ r = quote b ++ s) : a = b ∧ r = s := by
  obtain ⟨eq, rest⟩ := escapeString_append (List.cons.inj h).2
  exact ⟨String.toList_injective eq, rest⟩

/-! ## Integers -/

def intText : Int → List Char
  | .ofNat n => Nat.toDigits 10 n
  | .negSucc n => '-' :: Nat.toDigits 10 (n + 1)

/-- What may follow a value: the end of the text, or a delimiter. -/
def Stop (r : List Char) : Prop := ∀ c cs, r = c :: cs → c = ',' ∨ c = ']' ∨ c = '}'

lemma stop_nil : Stop [] := fun _ _ eq => by cases eq

lemma stop_cons {cs : List Char} (h : c = ',' ∨ c = ']' ∨ c = '}') : Stop (c :: cs) := by
  intro d ds eq
  cases eq
  exact h

lemma Stop.not_digit (stop : Stop r) : r.takeWhile Char.isDigit = [] := by
  cases r with
  | nil => rfl
  | cons c cs =>
    rcases stop c cs rfl with rfl | rfl | rfl <;> rfl

lemma digits_append {n m : Nat} (stopr : Stop r) (stops : Stop s)
    (h : Nat.toDigits 10 n ++ r = Nat.toDigits 10 m ++ s) : n = m ∧ r = s := by
  have digits : ∀ {k t}, Stop t → (Nat.toDigits 10 k ++ t).takeWhile Char.isDigit = Nat.toDigits 10 k := by
    intro k t stop
    rw [takeWhile_append_of_pos fun c mem => Nat.isDigit_of_mem_toDigits (by decide) (by decide) mem,
      stop.not_digit, append_nil]
  have eq : Nat.toDigits 10 n = Nat.toDigits 10 m := by
    rw [← digits stopr, h, digits stops]
  have value := congrArg (Nat.ofDigitChars 10 · 0) eq
  simp only [Nat.ofDigitChars_ten_toDigits] at value
  rw [eq] at h
  exact ⟨value, append_cancel_left h⟩

lemma digits_head {n : Nat} : ∃ c cs, Nat.toDigits 10 n = c :: cs ∧ c.isDigit = true := by
  have some_digit := @Nat.toDigits_ne_nil n 10
  cases eq : Nat.toDigits 10 n with
  | nil => exact absurd eq some_digit
  | cons c cs =>
    exact ⟨c, cs, rfl, Nat.isDigit_of_mem_toDigits (by decide) (by decide) (eq ▸ mem_cons_self)⟩

lemma intText_append {n m : Int} (stopr : Stop r) (stops : Stop s)
    (h : intText n ++ r = intText m ++ s) : n = m ∧ r = s := by
  -- a minus sign is no digit
  have minus : ∀ {k t u}, '-' :: t ≠ Nat.toDigits 10 k ++ u := by
    intro k t u eq
    obtain ⟨c, cs, digits, digit⟩ := @digits_head k
    rw [digits] at eq
    cases eq
    cases digit
  cases n with
  | ofNat n =>
    cases m with
    | ofNat m =>
      obtain ⟨rfl, rest⟩ := digits_append stopr stops h
      exact ⟨rfl, rest⟩
    | negSucc m => exact absurd h.symm minus
  | negSucc n =>
    cases m with
    | ofNat m => exact absurd h minus
    | negSucc m =>
      obtain ⟨eq, rest⟩ := digits_append stopr stops (List.cons.inj h).2
      cases Nat.succ.inj eq
      exact ⟨rfl, rest⟩

/-! ## Values -/

mutual

/-- `json.dumps(v, separators=(",", ":"))`. -/
def dumps : Json → List Char
  | .null => ['n', 'u', 'l', 'l']
  | .bool true => ['t', 'r', 'u', 'e']
  | .bool false => ['f', 'a', 'l', 's', 'e']
  | .int n => intText n
  | .str s => quote s
  | .arr items => '[' :: dumpsItems items
  | .obj fields => '{' :: dumpsFields fields

def dumpsItems : List Json → List Char
  | [] => [']']
  | v :: vs => dumps v ++ moreItems vs

def moreItems : List Json → List Char
  | [] => [']']
  | v :: vs => ',' :: (dumps v ++ moreItems vs)

def dumpsFields : List (String × Json) → List Char
  | [] => ['}']
  | (k, v) :: fs => quote k ++ ':' :: (dumps v ++ moreFields fs)

def moreFields : List (String × Json) → List Char
  | [] => ['}']
  | (k, v) :: fs => ',' :: (quote k ++ ':' :: (dumps v ++ moreFields fs))

end

/-- What a value is, told by its first character. -/
inductive Kind where
  | null | true | false | int | str | arr | obj
deriving DecidableEq

def kind : Json → Kind
  | .null => .null
  | .bool b => if b then .true else .false
  | .int _ => .int
  | .str _ => .str
  | .arr _ => .arr
  | .obj _ => .obj

def kindOf (c : Char) : Kind :=
  if c = 'n' then .null else if c = 't' then .true else if c = 'f' then .false else if c = '"' then .str
  else if c = '[' then .arr else if c = '\x7b' then .obj else .int

lemma kindOf_digit (digit : c.isDigit = true) : kindOf c = .int := by
  have ne : ∀ {d : Char}, d.isDigit = false → c ≠ d := by
    rintro d letter rfl
    exact absurd digit (by rw [letter]; decide)
  simp only [kindOf, if_neg (ne (d := 'n') rfl), if_neg (ne (d := 't') rfl), if_neg (ne (d := 'f') rfl),
    if_neg (ne (d := '"') rfl), if_neg (ne (d := '[') rfl), if_neg (ne (d := '\x7b') rfl)]

lemma dumps_head {v : Json} : ∃ c cs, dumps v = c :: cs ∧ kindOf c = kind v := by
  cases v with
  | null => exact ⟨_, _, rfl, rfl⟩
  | bool b => cases b <;> exact ⟨_, _, rfl, rfl⟩
  | int n =>
    cases n with
    | ofNat n =>
      obtain ⟨c, cs, eq, digit⟩ := @digits_head n
      exact ⟨c, cs, eq, kindOf_digit digit⟩
    | negSucc n => exact ⟨_, _, rfl, rfl⟩
  | str s => exact ⟨_, _, rfl, rfl⟩
  | arr items => exact ⟨_, _, rfl, rfl⟩
  | obj fields => exact ⟨_, _, rfl, rfl⟩

lemma kind_eq {a b : Json} (h : dumps a ++ r = dumps b ++ s) : kind a = kind b := by
  obtain ⟨c, cs, eqa, kinda⟩ := @dumps_head a
  obtain ⟨d, ds, eqb, kindb⟩ := @dumps_head b
  rw [eqa, eqb] at h
  cases (List.cons.inj h).1
  rw [← kinda, ← kindb]

lemma stop_moreItems {vs : List Json} : Stop (moreItems vs ++ r) := by
  cases vs with
  | nil => exact stop_cons (by decide)
  | cons v vs => exact stop_cons (by decide)

lemma stop_moreFields {fs : List (String × Json)} : Stop (moreFields fs ++ r) := by
  cases fs with
  | nil => exact stop_cons (by decide)
  | cons f fs => exact stop_cons (by decide)

lemma bracket_ne_dumps {v : Json} : ']' :: r ≠ dumps v ++ s := by
  intro h
  obtain ⟨c, cs, eq, kind⟩ := @dumps_head v
  rw [eq] at h
  cases h
  cases v with
  | bool b => cases b <;> cases eq
  | int n =>
    cases n with
    | ofNat n =>
      obtain ⟨c, cs, digits, digit⟩ := @digits_head n
      cases digits.symm.trans eq
      cases digit
    | negSucc n => cases eq
  | null | str _ | arr _ | obj _ => cases eq

mutual

/-- A value followed by a delimiter can be split off in one way only. -/
theorem dumps_append : ∀ {a b : Json} {r s : List Char}, Stop r → Stop s → dumps a ++ r = dumps b ++ s → a = b ∧ r = s
  | .null, b, r, s, _, _, h => by
    have same := kind_eq h
    cases b with
    | null => exact ⟨rfl, append_cancel_left h⟩
    | bool b => cases b <;> cases same
    | int _ | str _ | arr _ | obj _ => cases same
  | .bool a, b, r, s, _, _, h => by
    have same := kind_eq h
    cases b with
    | bool b =>
      cases a <;> cases b
      · exact ⟨rfl, append_cancel_left h⟩
      · cases same
      · cases same
      · exact ⟨rfl, append_cancel_left h⟩
    | null | int _ | str _ | arr _ | obj _ => cases a <;> cases same
  | .int n, b, r, s, stopr, stops, h => by
    have same := kind_eq h
    cases b with
    | int m =>
      obtain ⟨rfl, rest⟩ := intText_append stopr stops h
      exact ⟨rfl, rest⟩
    | bool b => cases b <;> cases same
    | null | str _ | arr _ | obj _ => cases same
  | .str a, b, r, s, _, _, h => by
    have same := kind_eq h
    cases b with
    | str b =>
      obtain ⟨rfl, rest⟩ := quote_append h
      exact ⟨rfl, rest⟩
    | bool b => cases b <;> cases same
    | null | int _ | arr _ | obj _ => cases same
  | .arr as, b, r, s, _, _, h => by
    have same := kind_eq h
    cases b with
    | arr bs =>
      obtain ⟨rfl, rest⟩ := dumpsItems_append (List.cons.inj h).2
      exact ⟨rfl, rest⟩
    | bool b => cases b <;> cases same
    | null | int _ | str _ | obj _ => cases same
  | .obj as, b, r, s, _, _, h => by
    have same := kind_eq h
    cases b with
    | obj bs =>
      obtain ⟨rfl, rest⟩ := dumpsFields_append (List.cons.inj h).2
      exact ⟨rfl, rest⟩
    | bool b => cases b <;> cases same
    | null | int _ | str _ | arr _ => cases same

theorem dumpsItems_append : ∀ {as bs : List Json} {r s : List Char}, dumpsItems as ++ r = dumpsItems bs ++ s →
    as = bs ∧ r = s
  | [], [], _, _, h => ⟨rfl, (List.cons.inj h).2⟩
  | [], _ :: _, _, _, h => by
    rw [dumpsItems, dumpsItems, append_assoc] at h
    exact absurd h bracket_ne_dumps
  | _ :: _, [], _, _, h => by
    rw [dumpsItems, dumpsItems, append_assoc] at h
    exact absurd h.symm bracket_ne_dumps
  | a :: as, b :: bs, _, _, h => by
    rw [dumpsItems, dumpsItems, append_assoc, append_assoc] at h
    obtain ⟨rfl, more⟩ := dumps_append stop_moreItems stop_moreItems h
    obtain ⟨rfl, rest⟩ := moreItems_append more
    exact ⟨rfl, rest⟩

theorem moreItems_append : ∀ {as bs : List Json} {r s : List Char}, moreItems as ++ r = moreItems bs ++ s →
    as = bs ∧ r = s
  | [], [], _, _, h => ⟨rfl, (List.cons.inj h).2⟩
  | [], _ :: _, _, _, h => by cases h
  | _ :: _, [], _, _, h => by cases h
  | a :: as, b :: bs, _, _, h => by
    rw [moreItems, moreItems, cons_append, cons_append, append_assoc, append_assoc] at h
    obtain ⟨rfl, more⟩ := dumps_append stop_moreItems stop_moreItems (List.cons.inj h).2
    obtain ⟨rfl, rest⟩ := moreItems_append more
    exact ⟨rfl, rest⟩

theorem dumpsFields_append : ∀ {as bs : List (String × Json)} {r s : List Char},
    dumpsFields as ++ r = dumpsFields bs ++ s → as = bs ∧ r = s
  | [], [], _, _, h => ⟨rfl, (List.cons.inj h).2⟩
  | [], (_, _) :: _, _, _, h => by cases h
  | (_, _) :: _, [], _, _, h => by cases h
  | (j, a) :: as, (k, b) :: bs, _, _, h => by
    rw [dumpsFields, dumpsFields, append_assoc, append_assoc] at h
    obtain ⟨rfl, value⟩ := quote_append h
    rw [cons_append, cons_append, append_assoc, append_assoc] at value
    obtain ⟨rfl, more⟩ := dumps_append stop_moreFields stop_moreFields (List.cons.inj value).2
    obtain ⟨rfl, rest⟩ := moreFields_append more
    exact ⟨rfl, rest⟩

theorem moreFields_append : ∀ {as bs : List (String × Json)} {r s : List Char},
    moreFields as ++ r = moreFields bs ++ s → as = bs ∧ r = s
  | [], [], _, _, h => ⟨rfl, (List.cons.inj h).2⟩
  | [], (_, _) :: _, _, _, h => by cases h
  | (_, _) :: _, [], _, _, h => by cases h
  | (j, a) :: as, (k, b) :: bs, _, _, h => by
    rw [moreFields, moreFields, cons_append, cons_append, append_assoc, append_assoc] at h
    obtain ⟨rfl, value⟩ := quote_append (List.cons.inj h).2
    rw [cons_append, cons_append, append_assoc, append_assoc] at value
    obtain ⟨rfl, more⟩ := dumps_append stop_moreFields stop_moreFields (List.cons.inj value).2
    obtain ⟨rfl, rest⟩ := moreFields_append more
    exact ⟨rfl, rest⟩

end

/-- A text determines its value. -/
theorem dumps_injective {a b : Json} (h : dumps a = dumps b) : a = b := by
  apply (dumps_append stop_nil stop_nil (r := []) (s := []) _).1
  rw [h]

end Workbench.Lib.Json
