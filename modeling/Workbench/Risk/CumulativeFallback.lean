import Workbench.Risk.RunningCost

/-!
# The cumulative fallback

Without a baseline `_compute_daily_pnl` (`app/risk/circuit_breaker.py`) measures the day by what today's sales realized
and what the open positions have gained since they were bought. The change of the account's equity since the open counts
a carried position from its price at the open instead. For a long-only account the two differ by what the
carried positions had gained by the open (`fallbackPnl_sub_equityChange`).
-/

namespace Workbench.Risk
open Workbench.Lib Workbench.Risk.LossControl Workbench.Orders List Dict Finset

/-- The measure of the fallback, `realized + unrealized`. -/
def fallbackPnl (db : Db) (accountId : Nat) (now : Instant) : ℚ :=
  computeRealizedPnlToday db accountId now + computeUnrealizedPnl db accountId

/-- The `unrealized_pl` of a symbol's row, if it has one. -/
def unrealizedPl (db : Db) (accountId symbolId : Nat) : ℚ :=
  ((db.positions.get (accountId, symbolId)).map (·.unrealizedPl)).getD 0

def tradedSymbols (db : Db) (accountId : Nat) : Finset Nat := ((fillHistory db accountId).map (·.symbolId)).toFinset

def openingRows (db : Db) (accountId : Nat) (now : Instant) : List FillRow :=
  (fillHistory db accountId).filter fun row => row.filledAt < marketOpenUtcToday now

/-- What an account that started with some cash is worth after some fills, at the marks of its symbols. -/
def equityAfter (cash : ℚ) (rows : List FillRow) (symbols : Finset Nat) (mark : Nat → ℚ) : ℚ :=
  cash + Trade.cashFlow (rows.map FillRow.trade) + ∑ s ∈ symbols, Trade.position (symbolTrades s rows) * mark s

/-- The change of equity since the session open of an account without deposits and withdrawals. -/
def equityChange (db : Db) (accountId : Nat) (now : Instant) (cash : ℚ) (openMark mark : Nat → ℚ) : ℚ :=
  equityAfter cash (fillHistory db accountId) (tradedSymbols db accountId) mark -
    equityAfter cash (openingRows db accountId now) (tradedSymbols db accountId) openMark

/-- What the positions carried into the session had gained by the open. -/
def carriedGain (db : Db) (accountId : Nat) (now : Instant) (openMark : Nat → ℚ) : ℚ :=
  ∑ s ∈ tradedSymbols db accountId,
    (Trade.position (symbolTrades s (openingRows db accountId now)) * openMark s -
      (recomputed s (openingRows db accountId now)).basis)

def LongOnly (rows : List FillRow) : Prop := ∀ s p, p <+: symbolTrades s rows → 0 ≤ Trade.position p

/-- The position rows carry the gain of the positions at the current marks. -/
def Marked (db : Db) (accountId : Nat) (mark : Nat → ℚ) : Prop :=
  ∀ s, unrealizedPl db accountId s =
    (symbolCost db accountId s).qty * mark s - (symbolCost db accountId s).basis

/-- Nothing tells `_compute_daily_pnl` where the day began. -/
structure NoBaseline (settings : Settings) (clock : Clock) (db : Db) (accountId : Nat) : Prop where
  unbound : ∀ equity, observeModelADailyLoss db accountId equity clock.sessionDate = none
  noSession : settings.sessionBaselineEnforcementEnabled = true →
    ∀ b, clock.sessionDate.bind (loadTodayBaseline db accountId) = some b → ¬ (b.active ∧ 0 < b.baselineEquity)
  noLastEquity : ∀ state, db.accountStates.get accountId = some state → ¬ 0 < state.lastEquity

/-! ## The fallback is taken -/

section Fallback
variable {settings : Settings} {clock : Clock} {db : Db} {a : Nat} {cumulative : Cumulative}

lemma legacyBasis_dayChange (noLast : ∀ state, db.accountStates.get a = some state → ¬ 0 < state.lastEquity) :
    (legacyBasis ((db.accountStates.get a).map (·.equity)) ((db.accountStates.get a).map (·.lastEquity))
      (some cumulative)).dayChange = some (cumulative.realized + cumulative.unrealized) := by
  cases e : db.accountStates.get a with
  | none => rfl
  | some state =>
    simp only [Option.map_some, legacyBasis]
    rw [if_neg (noLast state e)]

lemma computeDailyPnl_of_noBaseline (without : NoBaseline settings clock db a) :
    computeDailyPnl settings clock db a cumulative = (some (cumulative.realized + cumulative.unrealized), none) := by
  simp only [computeDailyPnl, without.unbound]
  split
  · rename_i enforced
    have legacy : selectDailyLossBasis db a ((db.accountStates.get a).map (·.equity))
        ((db.accountStates.get a).map (·.lastEquity)) (some cumulative) clock.sessionDate =
        legacyBasis ((db.accountStates.get a).map (·.equity)) ((db.accountStates.get a).map (·.lastEquity))
          (some cumulative) := by
      rw [selectDailyLossBasis]
      cases e : clock.sessionDate.bind (loadTodayBaseline db a) with
      | none => rfl
      | some b => exact if_neg (without.noSession enforced b e)
    rw [legacy, legacyBasis_dayChange without.noLastEquity]
    rfl
  · cases e : db.accountStates.get a with
    | none => rfl
    | some state => exact if_neg (without.noLastEquity state e)

end Fallback

/-! ## The position rows -/

section Rows
variable {db : Db} {a : Nat} {symbols : Finset Nat}

lemma computeUnrealizedPnl_eq (others : ∀ s ∉ symbols, unrealizedPl db a s = 0) :
    computeUnrealizedPnl db a = ∑ s ∈ symbols, unrealizedPl db a s := by
  have rows : computeUnrealizedPnl db a = ∑ key ∈ symbols.image (Prod.mk a),
      (db.positions.get key).elim 0 fun p => if key.1 = a then p.unrealizedPl else 0 := by
    apply sum_entries_of_support fun (key : Nat × Nat) (p : Position) => if key.1 = a then p.unrealizedPl else 0
    intro key p found out
    obtain ⟨account, s⟩ := key
    by_cases eq : account = a
    · subst eq
      have gain := others s fun mem => out (mem_image_of_mem _ mem)
      rw [unrealizedPl, found] at gain
      exact (if_pos rfl).trans gain
    · exact if_neg eq
  rw [rows, sum_image fun s _ s' _ eq => (Prod.mk.inj eq).2]
  apply sum_congr rfl
  intro s _
  rw [unrealizedPl]
  cases db.positions.get (a, s) with
  | none => rfl
  | some p => exact if_pos rfl

end Rows

/-! ## Long-only accounts -/

section Long
variable {rows before : List FillRow} {marketOpen : Int} {symbols : Finset Nat}

lemma symbolTrades_mono {s : Nat} (isPrefix : before <+: rows) : symbolTrades s before <+: symbolTrades s rows := by
  obtain ⟨after, rfl⟩ := isPrefix
  rw [symbolTrades, symbolTrades, filter_append, map_append]
  exact prefix_append _ _

lemma LongOnly.of_prefix (long : LongOnly rows) (isPrefix : before <+: rows) : LongOnly before :=
  fun s p part => long s p (part.trans (symbolTrades_mono isPrefix))

lemma LongOnly.neverCovers (long : LongOnly rows) : NeverCovers rows := by
  intro before row after eq _
  apply long row.symbolId
  apply symbolTrades_mono
  exact ⟨row :: after, eq.symm⟩

lemma longFromFlat_of_nonneg {ts : List (Trade ℚ)} (nonneg : ∀ p, p <+: ts → 0 ≤ Trade.position p)
    (pos : 0 < Trade.position ts) : LongFromFlat ts := by
  induction ts using List.reverseRecOn with
  | nil => exact absurd pos (lt_irrefl 0)
  | append_singleton ts t ih =>
    have earlier : ∀ p, p <+: ts → 0 ≤ Trade.position p := fun p part => nonneg p (part.trans (prefix_append _ _))
    obtain flat | held := (earlier ts prefix_rfl).eq_or_lt
    · refine ⟨ts, [t], rfl, cons_ne_nil _ _, flat.symm, fun p isPrefix some => ?_⟩
      obtain rfl | none := prefix_concat_iff.1 (show p <+: [] ++ [t] from isPrefix)
      · exact pos
      · exact absurd (prefix_nil.1 none) some
    · obtain ⟨front, after, rfl, -, flat, stays⟩ := ih earlier held
      refine ⟨front, after ++ [t], append_assoc .., by simp, flat, fun p isPrefix some => ?_⟩
      obtain rfl | part := prefix_concat_iff.1 isPrefix
      · rwa [← append_assoc]
      · exact stays p part some

lemma LongOnly.carried (long : LongOnly rows) (sizes : ∀ row ∈ rows, 0 ≤ row.qty) :
    (bookOf marketOpen rows).carried symbols = ∑ s ∈ symbols, (recomputed s rows).basis := by
  apply sum_congr rfl
  intro s _
  rw [bookOf_held, recomputed_eq, Cost.of, Trade.qty_holding]
  obtain flat | held := (long s _ prefix_rfl).eq_or_lt
  · rw [← flat, abs_zero, zero_mul, zero_mul]
  · rw [cost_of_longFromFlat sizes (longFromFlat_of_nonneg (long s) held), abs_of_pos held]

end Long

/-! ## The fallback against the change of equity -/

section Compare
variable {settings : Settings} {clock : Clock} {db : Db} {a : Nat} {now : Instant} {cash : ℚ} {openMark mark : Nat → ℚ}

def sessionRows (db : Db) (accountId : Nat) (now : Instant) : List FillRow :=
  (fillHistory db accountId).filter fun row => marketOpenUtcToday now ≤ row.filledAt

lemma openingRows_append : openingRows db a now ++ sessionRows db a now = fillHistory db a := by
  have : Std.Total fun r r' : FillRow => r.filledAt ≤ r'.filledAt := ⟨fun r r' => le_total r.filledAt r'.filledAt⟩
  have : IsTrans FillRow fun r r' => r.filledAt ≤ r'.filledAt := ⟨fun _ _ _ => le_trans⟩
  have sorted : (fillHistory db a).Pairwise fun r r' => r.filledAt ≤ r'.filledAt := pairwise_insertionSort _ _
  rw [openingRows, sessionRows]
  convert Table.filter_append_filter_not sorted _ using 4 with row
  · rw [← decide_not]
    exact decide_eq_decide.2 not_lt.symm
  · intro row row' le low
    rw [decide_eq_true_iff] at low ⊢
    exact (Int.ofNat_le.2 le).trans_lt low

lemma unrealizedPl_of_untraded (marked : Marked db a mark) : ∀ s ∉ tradedSymbols db a, unrealizedPl db a s = 0 := by
  intro s out
  have none : (fillHistory db a).filter (·.symbolId = s) = [] :=
    filter_key_eq_nil fun mem => out (mem_toFinset.2 mem)
  rw [marked s, symbolCost_eq_recomputed, recomputed, none]
  simp

/-- The fallback exceeds the change of equity by what the carried positions had gained by the open. -/
theorem fallbackPnl_sub_equityChange (sizes : ∀ row ∈ fillHistory db a, 0 ≤ row.qty)
    (long : LongOnly (fillHistory db a)) (marked : Marked db a mark) :
    fallbackPnl db a now - equityChange db a now cash openMark mark = carriedGain db a now openMark := by
  have split : openingRows db a now ++ sessionRows db a now = fillHistory db a := openingRows_append
  have opening : openingRows db a now <+: fillHistory db a := ⟨_, split⟩
  have earlier : ∀ row ∈ openingRows db a now, 0 ≤ row.qty := fun row mem => sizes row (opening.subset mem)
  have before : ∀ row ∈ openingRows db a now, ¬ marketOpenUtcToday now ≤ row.filledAt := fun row mem =>
    not_le.2 (of_decide_eq_true (mem_filter.1 mem).2)
  have since : ∀ row ∈ sessionRows db a now, marketOpenUtcToday now ≤ row.filledAt := fun row mem =>
    of_decide_eq_true (mem_filter.1 mem).2
  have traded : ∀ row ∈ sessionRows db a now, row.symbolId ∈ tradedSymbols db a := fun row mem =>
    mem_toFinset.2 (mem_map_of_mem (mem_of_mem_filter mem))
  have realized := realized_sub_carried (openingRows db a now) (sessionRows db a now) (by rwa [split])
    (by rw [split]; exact long.neverCovers) before since traded
  have cashes : Trade.cashFlow ((fillHistory db a).map FillRow.trade) =
      Trade.cashFlow ((openingRows db a now).map FillRow.trade) +
        Trade.cashFlow ((sessionRows db a now).map FillRow.trade) := by
    rw [← split, map_append, Trade.cashFlow_append]
  rw [split, long.carried sizes, (long.of_prefix opening).carried earlier] at realized
  have unrealized : computeUnrealizedPnl db a = ∑ s ∈ tradedSymbols db a,
      Trade.position (symbolTrades s (fillHistory db a)) * mark s -
        ∑ s ∈ tradedSymbols db a, (recomputed s (fillHistory db a)).basis := by
    rw [computeUnrealizedPnl_eq (unrealizedPl_of_untraded marked), ← sum_sub_distrib]
    apply sum_congr rfl
    intro s _
    rw [marked s, symbolCost_eq_recomputed, recomputed_eq, Cost.of, Trade.qty_holding]
  rw [fallbackPnl, computeRealizedPnlToday_eq, unrealized, equityChange, equityAfter, equityAfter, carriedGain,
    sum_sub_distrib, cashes]
  linarith

end Compare

def carriedDb : Db where
  accounts := Dict.empty.set 1 { userId := 1, mode := .paper }
  riskLimits := [{ userId := 1, scopeType := .global, brokerMode := .paper, maxDailyLoss := some 100 }]
  positions := Dict.empty.set (1, 0) { qty := 10, costBasis := 1000, marketValue := 1200, unrealizedPl := 200 }
  orders := [{ userId := 1, accountId := 1, symbolId := 0, side := .buy, qty := 10, status := .filled,
               createdAt := 0, updatedAt := 0 }]
  fills := [⟨0, none, 10, 100, 60000000000⟩]

def thirdDay : Clock := ⟨230400000000, some "1970-01-03"⟩

lemma carriedDb_noBaseline : NoBaseline {} thirdDay carriedDb 1 := ⟨fun _ => rfl, nofun, nofun⟩

lemma carriedDb_history : fillHistory carriedDb 1 = [⟨0, .buy, 10, 100, 60000000000⟩] := rfl

lemma carriedDb_longOnly : LongOnly (fillHistory carriedDb 1) := by
  intro s p isPrefix
  rw [carriedDb_history] at isPrefix
  by_cases eq : s = 0
  · subst eq
    have held : ∀ p ∈ (symbolTrades 0 [⟨0, .buy, 10, 100, 60000000000⟩]).inits, 0 ≤ Trade.position p := by
      decide +kernel
    exact held p ((mem_inits _ _).2 isPrefix)
  · have none : symbolTrades s [⟨0, .buy, 10, 100, 60000000000⟩] = [] := by simp [symbolTrades, Ne.symm eq]
    rw [none, prefix_nil] at isPrefix
    rw [isPrefix, Trade.position_nil]

lemma carriedDb_marked : Marked carriedDb 1 fun _ => 120 := by
  intro s
  by_cases eq : s = 0
  · subst eq
    decide +kernel
  · have row : carriedDb.positions.get (1, s) = none := by
      simp only [carriedDb]
      rw [get_set_of_ne fun same => eq (Prod.mk.inj same).2, get_empty]
    have cost : symbolCost carriedDb 1 s = {} := by
      rw [symbolCost_eq_recomputed, carriedDb_history]
      simp [recomputed, Ne.symm eq]
    rw [unrealizedPl, row, cost]
    simp

end Workbench.Risk
