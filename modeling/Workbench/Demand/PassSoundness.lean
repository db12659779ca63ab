import Workbench.Demand.Readiness

/-!
# What a PASS says

A verdict counts the symbols that are cached, whether they are demanded or not: it is sound where no demanded symbol
is without its record, or where the symbols that nobody demands are too few to stand in for the missing ones
(`recompute_live_iff`, `recompute_eod_iff`). A LIVE tick calls a property of the session, and raises at every instant
(`runSipLiveRefresh_raises`).
-/

namespace Workbench.Demand
open Workbench.Lib List Dict

/-! ## The newest rows -/

section Latest
variable {cache : Cache} {profile : SipProfile} {sym : String} {r : CacheRow}

def rowsOf (cache : Cache) (profile : SipProfile) : List CacheRow := cache.values.filter (·.profile = profile)

def cachedSymbols (cache : Cache) (profile : SipProfile) : Finset String :=
  ((rowsOf cache profile).map (·.symbol)).toFinset

lemma mem_rowsOf : r ∈ rowsOf cache profile ↔ r ∈ cache.values ∧ r.profile = profile := by
  rw [rowsOf, mem_filter, decide_eq_true_eq]

lemma mem_cachedSymbols : sym ∈ cachedSymbols cache profile ↔ ∃ r ∈ rowsOf cache profile, r.symbol = sym := by
  rw [cachedSymbols, mem_toFinset, mem_map]

def keepNewest (latest : Dict String CacheRow) (r : CacheRow) : Dict String CacheRow :=
  if (latest.get r.symbol).all fun l => l.sourceTimestamp < r.sourceTimestamp then latest.set r.symbol r else latest

lemma latestForProfile_eq : latestForProfile cache profile = (rowsOf cache profile).foldl keepNewest .empty := rfl

lemma get_keepNewest {latest : Dict String CacheRow} {row : CacheRow}
    (kept : (keepNewest latest r).get sym = some row) : row = r ∧ r.symbol = sym ∨ latest.get sym = some row := by
  rw [keepNewest] at kept
  split at kept
  · rw [get_set] at kept
    split at kept
    · rename_i eq
      exact .inl ⟨(Option.some.inj kept).symm, eq.symm⟩
    · exact .inr kept
  · exact .inr kept

lemma isSome_keepNewest {latest : Dict String CacheRow} :
    ((keepNewest latest r).get sym).isSome ↔ r.symbol = sym ∨ (latest.get sym).isSome := by
  rw [keepNewest]
  split
  · rw [get_set]
    split
    · rename_i eq
      simp [eq]
    · rename_i ne
      simp [Ne.symm ne]
  · rename_i older
    refine ⟨.inr, fun there => there.elim (fun eq => ?_) id⟩
    subst eq
    cases found : latest.get r.symbol with
    | none => simp [found] at older
    | some row => rfl

lemma get_latestForProfile (kept : (latestForProfile cache profile).get sym = some r) :
    r ∈ rowsOf cache profile ∧ r.symbol = sym := by
  rw [latestForProfile_eq] at kept
  generalize rowsOf cache profile = rows at kept ⊢
  induction rows using List.reverseRecOn with
  | nil => cases kept
  | append_singleton rows row ih =>
    rw [foldl_append, foldl_cons, foldl_nil] at kept
    obtain ⟨rfl, eq⟩ | before := get_keepNewest kept
    · exact ⟨mem_append_right _ mem_cons_self, eq⟩
    · exact (ih before).imp_left (mem_append_left _)

lemma isSome_latestForProfile :
    ((latestForProfile cache profile).get sym).isSome ↔ sym ∈ cachedSymbols cache profile := by
  rw [latestForProfile_eq, mem_cachedSymbols]
  induction rowsOf cache profile using List.reverseRecOn with
  | nil => simp
  | append_singleton rows row ih =>
    rw [foldl_append, foldl_cons, foldl_nil, isSome_keepNewest, ih]
    constructor
    · intro there
      obtain eq | ⟨r, mem, eq⟩ := there
      · exact ⟨row, mem_append_right _ mem_cons_self, eq⟩
      · exact ⟨r, mem_append_left _ mem, eq⟩
    · rintro ⟨r, mem, eq⟩
      obtain old | last := mem_append.1 mem
      · exact .inr ⟨r, old, eq⟩
      · exact .inl (mem_singleton.1 last ▸ eq)

lemma length_latest : (latestForProfile cache profile).values.length = (cachedSymbols cache profile).card := by
  have keys : ((latestForProfile cache profile).entries.map Prod.fst).toFinset = cachedSymbols cache profile := by
    ext sym
    rw [mem_toFinset, Dict.mem_keys, isSome_latestForProfile]
  rw [← keys, toFinset_card_of_nodup (latestForProfile cache profile).nodup, length_map, Dict.values,
    length_map]

end Latest

/-! ## The verdict -/

section Verdict
variable {ev : SipReadinessEvaluator} {profile : SipProfile} {records : List CacheRow} {entitled : Bool} {now : Int}

lemma evaluate_pass_iff :
    (ev.evaluate profile records entitled true now).state = .pass ↔
      entitled = true ∧ records ≠ [] ∧ ev.staleReason profile records now = none ∧
        ev.minCoverage ≤ ev.coverage records := by
  rw [SipReadinessEvaluator.evaluate, if_neg (by decide)]
  cases entitled with
  | false => simp
  | true =>
    cases records with
    | nil => simp
    | cons r records =>
      cases stale : ev.staleReason profile (r :: records) now with
      | some reason => simp
      | none =>
        by_cases short : ev.coverage (r :: records) < ev.minCoverage
        · simp [short]
        · simp [short, not_lt.1 short]

lemma one_le_coverage_iff : 1 ≤ ev.coverage records ↔ 0 < ev.expectedSymbols ∧ ev.expectedSymbols ≤ records.length := by
  rw [SipReadinessEvaluator.coverage]
  split
  · rename_i none
    simp [none]
  · rename_i some_
    have pos : 0 < ev.expectedSymbols := Nat.pos_of_ne_zero some_
    have posq : (0 : ℚ) < ev.expectedSymbols := Nat.cast_pos.2 pos
    rw [le_div_iff₀ posq, one_mul, Nat.cast_le]
    exact ⟨fun le => ⟨pos, le⟩, And.right⟩

lemma staleReason_live (nonempty : records ≠ []) :
    ev.staleReason .live records now = none ↔ ∀ r ∈ records, seconds (now - r.sourceTimestamp) ≤ ev.liveMaxAgeS := by
  have stamps : records.map (·.sourceTimestamp) ≠ [] := by rwa [Ne, map_eq_nil_iff]
  obtain ⟨oldest, eq⟩ := Option.ne_none_iff_exists'.1 fun none => stamps (min?_eq_none_iff.1 none)
  obtain ⟨mem, least⟩ := min?_eq_some_iff.1 eq
  have age : SipReadinessEvaluator.age records now = seconds (now - oldest) := by
    rw [SipReadinessEvaluator.age, eq, Option.getD_some]
  have fresh : ev.staleReason .live records now = none ↔ seconds (now - oldest) ≤ ev.liveMaxAgeS := by
    rw [SipReadinessEvaluator.staleReason, age, ite_eq_right_iff, ← not_lt]
    exact ⟨fun never late => (nomatch never late), fun early late => absurd late early⟩
  rw [fresh]
  constructor
  · intro le r row
    have later : now - r.sourceTimestamp ≤ now - oldest := by
      have := least _ (mem_map_of_mem row)
      omega
    have cast : ((now - r.sourceTimestamp : Int) : ℚ) ≤ ((now - oldest : Int) : ℚ) := Int.cast_le.2 later
    calc seconds (now - r.sourceTimestamp) ≤ seconds (now - oldest) := by
          rw [seconds, seconds]
          exact div_le_div_of_nonneg_right cast (by norm_num)
      _ ≤ ev.liveMaxAgeS := le
  · intro all
    obtain ⟨r, row, rfl⟩ := mem_map.1 mem
    exact all r row

lemma staleReason_eod {date : Int} (expected : ev.eodExpectedTradingDate = some date) :
    ev.staleReason .eod records now = none ↔ ∃ r ∈ records, r.tradingDate = date := by
  rw [SipReadinessEvaluator.staleReason, expected]
  simp

end Verdict

/-! ## Soundness -/

section Sound
variable {deps : SipRefreshDeps} {plane : Plane} {demand : ProfileDemand} {now date : Int}

/-- The symbols that nobody demands are fewer than the demanded ones that are not cached. -/
def FewLeftOver (demand : Finset String) (cached : Finset String) : Prop :=
  (cached \ demand).card < (demand \ cached).card

lemma fewLeftOver_iff {demand cached : Finset String} : FewLeftOver demand cached ↔ cached.card < demand.card := by
  have left := Finset.card_sdiff_add_card_inter cached demand
  have missing := Finset.card_sdiff_add_card_inter demand cached
  rw [Finset.inter_comm] at missing
  rw [FewLeftOver]
  omega

lemma recompute_pass_iff {profile : SipProfile} {bound : Option ℚ} {expected : Option Int}
    (full : deps.eodMinCoverage = 1) :
    (recompute deps plane profile demand.symbols.card bound expected now).state = .pass ↔
      plane.latch.entitlementOk = true ∧ (latestForProfile plane.cache profile).values ≠ [] ∧
        (SipReadinessEvaluator.mk demand.symbols.card (bound.getD 0) expected deps.eodMinCoverage).staleReason profile
            (latestForProfile plane.cache profile).values now = none ∧
        0 < demand.symbols.card ∧ ¬FewLeftOver demand.symbols (cachedSymbols plane.cache profile) := by
  rw [recompute, evaluate_pass_iff, fewLeftOver_iff, not_lt, ← length_latest]
  dsimp only
  rw [full, one_le_coverage_iff]

lemma cached_of_row {profile : SipProfile} {sym : String} {r : CacheRow} (row : r ∈ plane.cache.values)
    (isProfile : r.profile = profile) (eq : r.symbol = sym) : sym ∈ cachedSymbols plane.cache profile :=
  mem_cachedSymbols.2 ⟨r, mem_rowsOf.2 ⟨row, isProfile⟩, eq⟩

lemma latest_ne_nil {profile : SipProfile} (some_ : 0 < demand.symbols.card)
    (many : ¬FewLeftOver demand.symbols (cachedSymbols plane.cache profile)) :
    (latestForProfile plane.cache profile).values ≠ [] := by
  rw [fewLeftOver_iff, not_lt, ← length_latest] at many
  exact ne_nil_of_length_pos (some_.trans_le many)

/-- A LIVE verdict is sound exactly where it does not pass, or no demanded symbol is missing from the cache. -/
theorem recompute_live_iff (full : deps.eodMinCoverage = 1) :
    ((recompute deps plane .live demand.symbols.card demand.strictestBoundS none now).state = .pass →
        ∀ sym ∈ demand.symbols, ∃ r ∈ plane.cache.values, r.profile = .live ∧ r.symbol = sym ∧
          seconds (now - r.sourceTimestamp) ≤ demand.strictestBoundS.getD 0) ↔
      demand.symbols ⊆ cachedSymbols plane.cache .live ∨
        FewLeftOver demand.symbols (cachedSymbols plane.cache .live) ∨ plane.latch.entitlementOk = false ∨
        ∃ r ∈ (latestForProfile plane.cache .live).values,
          demand.strictestBoundS.getD 0 < seconds (now - r.sourceTimestamp) := by
  rw [recompute_pass_iff full]
  constructor
  · intro sound
    by_cases few : FewLeftOver demand.symbols (cachedSymbols plane.cache .live)
    · exact .inr (.inl few)
    · by_cases entitled : plane.latch.entitlementOk = false
      · exact .inr (.inr (.inl entitled))
      · by_cases late : ∃ r ∈ (latestForProfile plane.cache .live).values,
            demand.strictestBoundS.getD 0 < seconds (now - r.sourceTimestamp)
        · exact .inr (.inr (.inr late))
        · -- it passes, unless nothing is demanded
          refine .inl fun sym mem => ?_
          have some_ : 0 < demand.symbols.card := Finset.card_pos.2 ⟨sym, mem⟩
          have nonempty := latest_ne_nil some_ few
          have fresh : (SipReadinessEvaluator.mk demand.symbols.card (demand.strictestBoundS.getD 0) none
              deps.eodMinCoverage).staleReason .live (latestForProfile plane.cache .live).values now = none :=
            (staleReason_live nonempty).2 fun r row => not_lt.1 fun lt => late ⟨r, row, lt⟩
          obtain ⟨r, row, isLive, eq, -⟩ :=
            sound ⟨Bool.eq_true_of_not_eq_false entitled, nonempty, fresh, some_, few⟩ sym mem
          exact cached_of_row row isLive eq
  · intro holds ⟨entitled, nonempty, fresh, _, many⟩ sym mem
    rw [staleReason_live nonempty] at fresh
    obtain cached | few | refused | ⟨r, row, late⟩ := holds
    · obtain ⟨r, kept⟩ := Option.isSome_iff_exists.1 (isSome_latestForProfile.2 (cached mem))
      obtain ⟨row, eq⟩ := get_latestForProfile kept
      obtain ⟨inCache, isLive⟩ := mem_rowsOf.1 row
      exact ⟨r, inCache, isLive, eq, fresh r (mem_values.2 ⟨sym, kept⟩)⟩
    · exact absurd few many
    · rw [entitled] at refused
      cases refused
    · exact absurd (fresh r row) late.not_ge

/-- An EOD verdict is sound exactly where it does not pass, or every demanded symbol has a row of the date. -/
theorem recompute_eod_iff (full : deps.eodMinCoverage = 1) :
    ((recompute deps plane .eod demand.symbols.card none (some date) now).state = .pass →
        ∀ sym ∈ demand.symbols, ∃ r ∈ plane.cache.values, r.profile = .eod ∧ r.symbol = sym ∧ r.tradingDate = date) ↔
      (∀ sym ∈ demand.symbols, ∃ r ∈ rowsOf plane.cache .eod, r.symbol = sym ∧ r.tradingDate = date) ∨
        FewLeftOver demand.symbols (cachedSymbols plane.cache .eod) ∨ plane.latch.entitlementOk = false ∨
        ∀ r ∈ (latestForProfile plane.cache .eod).values, r.tradingDate ≠ date := by
  rw [recompute_pass_iff full, staleReason_eod rfl]
  constructor
  · intro sound
    by_cases few : FewLeftOver demand.symbols (cachedSymbols plane.cache .eod)
    · exact .inr (.inl few)
    · by_cases entitled : plane.latch.entitlementOk = false
      · exact .inr (.inr (.inl entitled))
      · by_cases dated : ∃ r ∈ (latestForProfile plane.cache .eod).values, r.tradingDate = date
        · refine .inl fun sym mem => ?_
          have some_ : 0 < demand.symbols.card := Finset.card_pos.2 ⟨sym, mem⟩
          obtain ⟨r, row, isEod, eq, today⟩ := sound
            ⟨Bool.eq_true_of_not_eq_false entitled, latest_ne_nil some_ few, dated, some_, few⟩ sym mem
          exact ⟨r, mem_rowsOf.2 ⟨row, isEod⟩, eq, today⟩
        · exact .inr (.inr (.inr fun r row today => dated ⟨r, row, today⟩))
  · intro holds ⟨entitled, _, ⟨r, row, today⟩, _, many⟩ sym mem
    obtain dated | few | refused | absent := holds
    · obtain ⟨r, row, eq, today⟩ := dated sym mem
      obtain ⟨inCache, isEod⟩ := mem_rowsOf.1 row
      exact ⟨r, inCache, isEod, eq, today⟩
    · exact absurd few many
    · rw [entitled] at refused
      cases refused
    · exact absurd today (absent r row)

end Sound

/-! ## The LIVE tick -/

section Tick
variable {deps : SipRefreshDeps} {plane : Plane} {now : Int}

def requests (events : List Event) : List (SipProfile × List String) :=
  events.filterMap fun
    | .requested profile symbols _ => some (profile, symbols)
    | _ => none

/-- A job ends well, and has requested these symbols. -/
def Job.Requests {α : Type} (job : Job α) (asked : List (SipProfile × List String)) : Prop :=
  (∃ a, job.value = .ok a) ∧ requests job.emitted = asked

def liveUnion (deps : SipRefreshDeps) (plane : Plane) (now : Int) : Finset String :=
  (forProfile (expireDue deps.runnable now plane.leases) .live now).symbols

/-- With the session of the calendar a LIVE tick raises. -/
theorem runSipLiveRefresh_raises {session : MarketSession} (wired : deps.marketSession = session.classify) :
    (runSipLiveRefresh deps plane now).value = .error .typeError := by
  rw [runSipLiveRefresh, wired]
  rfl

end Tick

section Both
variable {deps : SipRefreshDeps} {session : MarketSession} {plane : Plane} {now date : Int}

/-- A PASS is sound exactly where no demanded symbol is without its record, or where something else keeps the verdict
from passing; and a LIVE tick requests the union exactly where it is not asked to. -/
theorem pass_sound_iff (full : deps.eodMinCoverage = 1) (wired : deps.marketSession = session.classify) :
    (((recompute deps plane .live (forProfile plane.leases .live now).symbols.card
          (forProfile plane.leases .live now).strictestBoundS none now).state = .pass →
        ∀ sym ∈ (forProfile plane.leases .live now).symbols, ∃ r ∈ plane.cache.values, r.profile = .live ∧
          r.symbol = sym ∧
          seconds (now - r.sourceTimestamp) ≤ (forProfile plane.leases .live now).strictestBoundS.getD 0) ↔
      (forProfile plane.leases .live now).symbols ⊆ cachedSymbols plane.cache .live ∨
        FewLeftOver (forProfile plane.leases .live now).symbols (cachedSymbols plane.cache .live) ∨
        plane.latch.entitlementOk = false ∨ ∃ r ∈ (latestForProfile plane.cache .live).values,
          (forProfile plane.leases .live now).strictestBoundS.getD 0 < seconds (now - r.sourceTimestamp)) ∧
    (((recompute deps plane .eod (forProfile plane.leases .eod now).symbols.card none (some date) now).state = .pass →
        ∀ sym ∈ (forProfile plane.leases .eod now).symbols, ∃ r ∈ plane.cache.values, r.profile = .eod ∧
          r.symbol = sym ∧ r.tradingDate = date) ↔ (∀ sym ∈ (forProfile plane.leases .eod now).symbols,
          ∃ r ∈ rowsOf plane.cache .eod, r.symbol = sym ∧ r.tradingDate = date) ∨
        FewLeftOver (forProfile plane.leases .eod now).symbols (cachedSymbols plane.cache .eod) ∨
        plane.latch.entitlementOk = false ∨ ∀ r ∈ (latestForProfile plane.cache .eod).values, r.tradingDate ≠ date) ∧
    ((Market.classify session.zone session.calendar now.toNat = .regular → liveUnion deps plane now ≠ ∅ →
        Job.Requests (runSipLiveRefresh deps plane now) [(.live, (liveUnion deps plane now).sort)]) ↔
      Market.classify session.zone session.calendar now.toNat ≠ .regular ∨ liveUnion deps plane now = ∅) := by
  refine ⟨recompute_live_iff full, recompute_eod_iff full, ?_⟩
  constructor
  · intro serves
    by_contra asked
    obtain ⟨regular, demanded⟩ := not_or.1 asked
    obtain ⟨⟨result, ok⟩, -⟩ := serves (not_not.1 regular) demanded
    rw [runSipLiveRefresh_raises wired] at ok
    cases ok
  · intro idle regular demanded
    exact idle.elim (absurd regular) (absurd · demanded)

end Both

/-! ## A verdict that passes without a demanded symbol -/

def winter : MarketSession where
  zone := ⟨fun _ => -300⟩
  calendar _ := some ⟨Market.timeOfDay 9 30, Market.timeOfDay 16 0⟩
  utc d t := (d * 1440 + 300) * 60000000 + t

def tenOClock : Int := 1767625200000000

def winterDeps : SipRefreshDeps where
  liveRetentionHours := none
  eodRetentionDays := none
  tradingDate now := now / 86400000000
  marketSession := winter.classify
  producer _ _ _ := .failed "ConnectionError"
  config := ⟨none, none, none, none, none, none⟩
  runnable _ := true

/-- `A` and `B` are demanded; `A` and `C` are cached, a second ago. -/
def oneLeftOver : Plane where
  leases := [{
    consumerId := "service:a", profile := .live, symbols := ["A", "B"], maxAgeS := some 30, maxAgeTradingDays := none
    effectiveFrom := 0, expiresAt := tenOClock + 3600000000 }]
  cache := (Dict.empty.set 1 ⟨"A", .live, 20458, tenOClock - 1000000⟩).set 2 ⟨"C", .live, 20458, tenOClock - 1000000⟩

/-- A LIVE verdict passes without a record of `B`, and the tick raises in the regular session. -/
theorem pass_unsound :
    (recompute winterDeps oneLeftOver .live (forProfile oneLeftOver.leases .live tenOClock).symbols.card
        (forProfile oneLeftOver.leases .live tenOClock).strictestBoundS none tenOClock).state = .pass ∧
      "B" ∈ (forProfile oneLeftOver.leases .live tenOClock).symbols ∧ (∀ r ∈ oneLeftOver.cache.values, r.symbol ≠ "B") ∧
      Market.classify winter.zone winter.calendar tenOClock.toNat = .regular ∧
      liveUnion winterDeps oneLeftOver tenOClock ≠ ∅ ∧
      (runSipLiveRefresh winterDeps oneLeftOver tenOClock).value = .error .typeError := by
  refine ⟨?_, ?_, ?_, ?_, ?_, runSipLiveRefresh_raises rfl⟩
  · decide +kernel
  · decide +kernel
  · decide +kernel
  · decide +kernel
  · decide +kernel

/-- `A` alone is demanded. -/
def oneDemanded : Plane := { oneLeftOver with leases := oneLeftOver.leases.map fun l => { l with symbols := ["A"] } }

/-- Where `A` alone is demanded the LIVE verdict is PASS, and it is sound. -/
theorem pass_sound_iff_oneDemanded :
    (recompute winterDeps oneDemanded .live (forProfile oneDemanded.leases .live tenOClock).symbols.card
        (forProfile oneDemanded.leases .live tenOClock).strictestBoundS none tenOClock).state = .pass ∧
      ∀ sym ∈ (forProfile oneDemanded.leases .live tenOClock).symbols, ∃ r ∈ oneDemanded.cache.values,
        r.profile = .live ∧ r.symbol = sym ∧ seconds (tenOClock - r.sourceTimestamp) ≤
          (forProfile oneDemanded.leases .live tenOClock).strictestBoundS.getD 0 := by
  have sound := (@pass_sound_iff winterDeps winter oneDemanded tenOClock 20458 rfl rfl).1
  have passes : (recompute winterDeps oneDemanded .live (forProfile oneDemanded.leases .live tenOClock).symbols.card
      (forProfile oneDemanded.leases .live tenOClock).strictestBoundS none tenOClock).state = .pass := by
    decide +kernel
  exact ⟨passes, sound.2 (.inl (by decide +kernel)) passes⟩

end Workbench.Demand
