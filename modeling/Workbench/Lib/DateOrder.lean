import Workbench.Lib.IsoTime

/-!
# The order of dates and of their texts

The date of an ordinal grows with it (`ofOrdinal_lt_iff`), and a text of fixed-width decimal fields is compared as its
numbers are (`pad_lt_iff`, `datePart_lt_iff`).
-/

namespace Workbench.Lib
open List

lemma append_lt_append_iff {p q xs ys : List Char} (same : p.length = q.length) :
    p ++ xs < q ++ ys ↔ p < q ∨ p = q ∧ xs < ys := by
  induction p generalizing q with
  | nil =>
    cases q with
    | nil => simp
    | cons b q => cases same
  | cons a p ih =>
    cases q with
    | nil => cases same
    | cons b q =>
      have rest := ih (Nat.succ.inj same)
      simp only [cons_append, cons_lt_cons_iff, rest, List.cons.injEq]
      tauto

namespace DateTime
variable {k n : Nat}

/-! ## Decimal fields -/

lemma digitChar_lt_iff : ∀ a < 10, ∀ b < 10, Nat.digitChar a < Nat.digitChar b ↔ a < b := by decide

lemma pad_lt_iff_mod {a b : Nat} : pad k a < pad k b ↔ a % 10 ^ k < b % 10 ^ k := by
  induction k with
  | zero => simp [pad, Nat.mod_one]
  | succ k ih =>
    have da : a / 10 ^ k % 10 < 10 := Nat.mod_lt _ (by decide)
    have db : b / 10 ^ k % 10 < 10 := Nat.mod_lt _ (by decide)
    have ra : a % 10 ^ k < 10 ^ k := Nat.mod_lt _ (by positivity)
    have rb : b % 10 ^ k < 10 ^ k := Nat.mod_lt _ (by positivity)
    have leading : Nat.digitChar (a / 10 ^ k % 10) = Nat.digitChar (b / 10 ^ k % 10) ↔
        a / 10 ^ k % 10 = b / 10 ^ k % 10 := by
      constructor
      · intro eq
        have := congrArg (fun c : Char => c.toNat - 48) eq
        rwa [toNat_digitChar _ da, toNat_digitChar _ db] at this
      · exact fun eq => congrArg _ eq
    rw [pad, pad, cons_lt_cons_iff, digitChar_lt_iff _ da _ db, leading, ih, Nat.pow_succ, Nat.mod_mul,
      Nat.mod_mul]
    generalize a / 10 ^ k % 10 = x at *
    generalize b / 10 ^ k % 10 = y at *
    rcases Nat.lt_trichotomy x y with lt | eq | gt
    · have := Nat.mul_le_mul_left (10 ^ k) (show x + 1 ≤ y from lt)
      rw [Nat.mul_add, Nat.mul_one] at this
      constructor
      · intro
        omega
      · exact fun _ => Or.inl lt
    · subst eq
      simp
    · have := Nat.mul_le_mul_left (10 ^ k) (show y + 1 ≤ x from gt)
      rw [Nat.mul_add, Nat.mul_one] at this
      constructor
      · intro h
        omega
      · intro
        omega

lemma pad_lt_iff {a b : Nat} (ha : a < 10 ^ k) (hb : b < 10 ^ k) : pad k a < pad k b ↔ a < b := by
  rw [pad_lt_iff_mod, Nat.mod_eq_of_lt ha, Nat.mod_eq_of_lt hb]

lemma pad_inj {a b : Nat} (ha : a < 10 ^ k) (hb : b < 10 ^ k) : pad k a = pad k b ↔ a = b := by
  constructor
  · intro eq
    apply le_antisymm
    · exact not_lt.1 fun lt => absurd ((pad_lt_iff hb ha).2 lt) (eq ▸ List.lt_irrefl _)
    · exact not_lt.1 fun lt => absurd ((pad_lt_iff ha hb).2 lt) (eq ▸ List.lt_irrefl _)
  · exact fun eq => congrArg _ eq

lemma pad_succ : pad (k + 1) n = pad k (n / 10) ++ [Nat.digitChar (n % 10)] := by
  induction k with
  | zero => simp [pad]
  | succ k ih => rw [pad, ih, pad, Nat.div_div_eq_div_mul, Nat.pow_succ', cons_append]

lemma toDigits_eq_pad (low : 10 ^ k ≤ n) (high : n < 10 ^ (k + 1)) : Nat.toDigits 10 n = pad (k + 1) n := by
  induction k generalizing n with
  | zero =>
    have lt : n < 10 := high
    rw [Nat.toDigits_of_lt_base lt, pad_succ, pad, Nat.mod_eq_of_lt lt]
    rfl
  | succ k ih =>
    rw [Nat.pow_succ] at low high
    have ten : 10 ≤ n := by
      have := Nat.one_le_pow k 10 (by decide)
      omega
    rw [Nat.toDigits_of_base_le (by decide) ten, ih (by omega) (by omega), ← pad_succ]

/-! ## Dates -/

/-- A date as it is compared: year, month, day. -/
abbrev dateKey (d : Nat × Nat × Nat) : Nat ×ₗ Nat ×ₗ Nat := toLex (d.1, toLex (d.2.1, d.2.2))

def datePart (d : Nat × Nat × Nat) : List Char := pad 4 d.1 ++ '-' :: pad 2 d.2.1 ++ '-' :: pad 2 d.2.2

lemma datePart_lt_iff {d e : Nat × Nat × Nat} (hd : d.1 < 10 ^ 4 ∧ d.2.1 < 10 ^ 2 ∧ d.2.2 < 10 ^ 2)
    (he : e.1 < 10 ^ 4 ∧ e.2.1 < 10 ^ 2 ∧ e.2.2 < 10 ^ 2) : datePart d < datePart e ↔ dateKey d < dateKey e := by
  have split (x : Nat × Nat × Nat) : datePart x = pad 4 x.1 ++ '-' :: (pad 2 x.2.1 ++ '-' :: pad 2 x.2.2) := by
    simp [datePart]
  rw [split, split, append_lt_append_iff (by simp), cons_lt_cons_iff, append_lt_append_iff (by simp),
    cons_lt_cons_iff, pad_lt_iff hd.1 he.1, pad_lt_iff hd.2.1 he.2.1, pad_lt_iff hd.2.2 he.2.2,
    pad_inj hd.1 he.1, pad_inj hd.2.1 he.2.1, Prod.Lex.toLex_lt_toLex, Prod.Lex.toLex_lt_toLex]
  simp

lemma yearOfEra_eq {doe : Nat} (lt : doe < 146097) : ∃ c q y r, doe = 36524 * c + 1461 * q + 365 * y + r ∧
    (doe - doe / 1460 + doe / 36524 - doe / 146096) / 365 = 100 * c + 4 * q + y ∧ c < 4 ∧ q < 25 ∧ y < 4 ∧
    (r < 365 ∨ r = 365 ∧ y = 3 ∧ (q < 24 ∨ c = 3)) := by
  rcases Nat.lt_or_ge doe 146096 with early | last
  · have century := Nat.div_add_mod doe 36524
    have cycle := Nat.div_add_mod (doe % 36524) 1461
    have none : doe / 146096 = 0 := by omega
    have leaps : doe / 1460 = 25 * (doe / 36524) + doe % 36524 / 1461 +
        if 1460 ≤ 24 * (doe / 36524) + doe % 36524 / 1461 + doe % 36524 % 1461 then 1 else 0 := by
      split <;> omega
    have c_lt : doe / 36524 < 4 := by omega
    have q_lt : doe % 36524 / 1461 < 25 := by omega
    have s_lt : doe % 36524 % 1461 < 1461 := by omega
    have r_lt : doe % 36524 < 36524 := by omega
    refine ⟨doe / 36524, doe % 36524 / 1461, min 3 (doe % 36524 % 1461 / 365),
      doe % 36524 % 1461 - 365 * min 3 (doe % 36524 % 1461 / 365), ?_, ?_, c_lt, q_lt, ?_, ?_⟩
    · omega
    · rw [none, leaps]
      generalize doe / 36524 = c at *
      generalize doe % 36524 % 1461 = s at *
      generalize doe % 36524 / 1461 = q at *
      split <;> omega
    · omega
    · omega
  · obtain rfl : doe = 146096 := by omega
    exact ⟨3, 24, 3, 365, by decide⟩

/-- The days before a year that starts in March. -/
def marchDays (y : Nat) : Nat := 365 * y + y / 4 + y / 400 - y / 100

lemma marchDays_mono {x y : Nat} (le : x ≤ y) : marchDays x ≤ marchDays y := by
  rcases Nat.eq_or_lt_of_le le with rfl | lt
  · exact le_rfl
  · unfold marchDays
    omega

lemma marchDays_eq {e c q y : Nat} (c_lt : c < 4) (q_lt : q < 25) (y_lt : y < 4) :
    marchDays (100 * c + 4 * q + y + e * 400) = 146097 * e + 36524 * c + 1461 * q + 365 * y := by
  have fourth : (100 * c + 4 * q + y + e * 400) / 4 = 25 * c + q + 100 * e := by omega
  have century : (100 * c + 4 * q + y + e * 400) / 100 = c + 4 * e := by omega
  have era : (100 * c + 4 * q + y + e * 400) / 400 = e := by omega
  rw [marchDays, fourth, century, era]
  omega

lemma lt_marchDays_succ {e c q y r : Nat} (c_lt : c < 4) (q_lt : q < 25) (y_lt : y < 4)
    (r_lt : r < 365 ∨ r = 365 ∧ y = 3 ∧ (q < 24 ∨ c = 3)) :
    146097 * e + 36524 * c + 1461 * q + 365 * y + r < marchDays (100 * c + 4 * q + y + e * 400 + 1) := by
  have fourth : (100 * c + 4 * q + y + e * 400 + 1) / 4 = 25 * c + q + 100 * e + if y = 3 then 1 else 0 := by
    split <;> omega
  have century : (100 * c + 4 * q + y + e * 400 + 1) / 100 = c + 4 * e + if y = 3 ∧ q = 24 then 1 else 0 := by
    split <;> omega
  have era : (100 * c + 4 * q + y + e * 400 + 1) / 400 = e + if y = 3 ∧ q = 24 ∧ c = 3 then 1 else 0 := by
    split <;> omega
  rw [marchDays, fourth, century, era]
  split <;> split <;> split <;> omega

lemma ofOrdinal_eq : ∃ y r, n + 305 = marchDays y + r ∧ n + 305 < marchDays (y + 1) ∧ r < 366 ∧
    ofOrdinal n = (if (5 * r + 2) / 153 < 10 then y else y + 1,
      if (5 * r + 2) / 153 < 10 then (5 * r + 2) / 153 + 3 else (5 * r + 2) / 153 - 9,
      r - (153 * ((5 * r + 2) / 153) + 2) / 5 + 1) := by
  have era := Nat.div_add_mod (n + 305) 146097
  obtain ⟨c, q, y, r, doe, yoe, c_lt, q_lt, y_lt, r_lt⟩ :=
    yearOfEra_eq (Nat.mod_lt (n + 305) (by decide : 0 < 146097))
  rw [doe] at era yoe
  have fourth : (100 * c + 4 * q + y) / 4 = 25 * c + q := by omega
  have century : (100 * c + 4 * q + y) / 100 = c := by omega
  have start : 36524 * c + 1461 * q + 365 * y + r - (365 * (100 * c + 4 * q + y) + (25 * c + q) - c) = r := by
    omega
  refine ⟨100 * c + 4 * q + y + (n + 305) / 146097 * 400, r, ?_, ?_, by omega, ?_⟩
  · rw [marchDays_eq c_lt q_lt y_lt, ← era]
    omega
  · have := lt_marchDays_succ (e := (n + 305) / 146097) c_lt q_lt y_lt r_lt
    omega
  · simp only [ofOrdinal, doe, yoe, fourth, century, start]
    generalize (n + 305) / 146097 * 400 = base
    generalize 100 * c + 4 * q + y = year
    have month : (5 * r + 2) / 153 < 12 := by omega
    rcases Nat.lt_or_ge ((5 * r + 2) / 153) 10 with early | late
    · have march : ¬ (5 * r + 2) / 153 + 3 ≤ 2 := by omega
      rw [if_pos early, if_pos early, if_neg march]
    · have january : (5 * r + 2) / 153 - 9 ≤ 2 := by omega
      rw [if_neg (not_lt.2 late), if_neg (not_lt.2 late), if_pos january]

lemma ofOrdinal_lt {m : Nat} (lt : m < n) : dateKey (ofOrdinal m) < dateKey (ofOrdinal n) := by
  obtain ⟨x, r, hx, hx', r_lt, eq⟩ := @ofOrdinal_eq m
  obtain ⟨y, s, hy, hy', s_lt, eq'⟩ := @ofOrdinal_eq n
  have year : x ≤ y := by
    apply not_lt.1
    intro gt
    have := marchDays_mono (show y + 1 ≤ x from gt)
    omega
  have within : x = y → r < s := by
    intro same
    subst same
    omega
  rw [eq, eq', dateKey, dateKey, Prod.Lex.toLex_lt_toLex, Prod.Lex.toLex_lt_toLex]
  dsimp only
  split <;> split <;> omega

/-- Dates are compared as their ordinals are. -/
theorem ofOrdinal_lt_iff {m : Nat} : dateKey (ofOrdinal m) < dateKey (ofOrdinal n) ↔ m < n := by
  constructor
  · intro lt
    rcases Nat.lt_trichotomy m n with h | h | h
    · exact h
    · exact absurd lt (h ▸ lt_irrefl _)
    · exact absurd lt (ofOrdinal_lt h).asymm
  · exact ofOrdinal_lt

lemma ofOrdinal_fields (low : 719163 ≤ n) (high : n ≤ 3652059) :
    1000 ≤ (ofOrdinal n).1 ∧ (ofOrdinal n).1 < 10 ^ 4 ∧ (ofOrdinal n).2.1 < 10 ^ 2 ∧ (ofOrdinal n).2.2 < 10 ^ 2 := by
  obtain ⟨y, r, hy, hy', r_lt, eq⟩ := @ofOrdinal_eq n
  have low_year : 1000 ≤ y := by
    apply not_lt.1
    intro lt
    have := marchDays_mono (show y + 1 ≤ 1000 from lt)
    rw [show marchDays 1000 = 365242 from rfl] at this
    omega
  have high_year : y ≤ 9999 := by
    apply not_lt.1
    intro lt
    have := marchDays_mono (show 10000 ≤ y from lt)
    rw [show marchDays 10000 = 3652425 from rfl] at this
    omega
  have last : y = 9999 → r < 306 := by
    intro is
    rw [is, show marchDays 9999 = 3652059 from rfl] at hy
    omega
  rw [eq]
  dsimp only
  refine ⟨?_, ?_, ?_, ?_⟩
  · split <;> omega
  · split <;> omega
  · split <;> omega
  · omega

end DateTime

end Workbench.Lib
