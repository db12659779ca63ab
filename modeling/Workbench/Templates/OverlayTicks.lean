import Workbench.Templates.Overlay

/-!
# What the ticks of the overlay add up to

A tick is read as a map of quantities: the gross of what is held long, and the scaled quantity of each name. A book
that the tick leaves where it is is at rest. A tick that finds its book at rest submits nothing; any other one orders
the whole difference again, whether or not an earlier order for it is working.
-/

set_option linter.dupNamespace false

namespace Workbench.Templates.Weekly.MomentumPortfolio
open Workbench.Lib List Dict Machine

variable {R : Readings} {ctx : Ctx} {p : OverlayParams} {book : Dict String ℚ} {price : String → ℚ} {desired : ℚ}
  {sym : String}

/-! ## Quantities -/

def names (ctx : Ctx) (p : OverlayParams) : Finset String := ((tradeable ctx p.toBookParams).map upper).toFinset

/-- What a tick reads of a book: the long quantities of those names. -/
def longs (ctx : Ctx) (p : OverlayParams) (book : Dict String ℚ) (sym : String) : ℚ :=
  if sym ∈ names ctx p then max 0 (quantity book sym) else 0

def gross (ctx : Ctx) (p : OverlayParams) (price q : String → ℚ) : ℚ :=
  (∑ s ∈ names ctx p, q s * price s) / investableBase ctx p.toBookParams

/-- Nothing is held, or the drift is too small to trade. -/
def Skips (ctx : Ctx) (p : OverlayParams) (price : String → ℚ) (desired : ℚ) (q : String → ℚ) : Prop :=
  gross ctx p price q = 0 ∨ |desired - gross ctx p price q| < p.overlayDriftPct

instance {q : String → ℚ} : Decidable (Skips ctx p price desired q) := inferInstanceAs (Decidable (_ ∨ _))

def next (ctx : Ctx) (p : OverlayParams) (price : String → ℚ) (desired : ℚ) (q : String → ℚ) (sym : String) : ℚ :=
  if Skips ctx p price desired q then q sym else scaledQty p (q sym * (desired / gross ctx p price q))

/-- A tick leaves the quantities where they are. -/
def Rest (ctx : Ctx) (p : OverlayParams) (price : String → ℚ) (desired : ℚ) (q : String → ℚ) : Prop :=
  Skips ctx p price desired q ∨ ∀ s, scaledQty p (q s * (desired / gross ctx p price q)) = q s

lemma rest_iff {q : String → ℚ} : Rest ctx p price desired q ↔ ∀ s, next ctx p price desired q s = q s := by
  by_cases skips : Skips ctx p price desired q
  · simp [Rest, next, skips]
  · simp [Rest, next, skips]

@[simp] lemma scaledQty_zero : scaledQty p 0 = 0 := by
  rw [scaledQty]
  split
  · decide +kernel
  · simp

lemma scaledQty_nonneg {x : ℚ} (nonneg : 0 ≤ x) : 0 ≤ scaledQty p x := by
  rw [scaledQty]
  split
  · exact quantizeQty_nonneg nonneg
  · exact_mod_cast Int.floor_nonneg.2 nonneg

lemma longs_nonneg : 0 ≤ longs ctx p book sym := by
  rw [longs]
  split
  · exact le_max_left _ _
  · exact le_rfl

/-! ## What a tick reads -/

lemma longQty_at : longQty ((Ctx.at ctx book).getPositionFor sym) =
    (book.get (upper sym)).filter fun qty => 0 < qty := by
  change longQty ((book.get (upper sym)).map fun qty => { qty }) = _
  cases book.get (upper sym) with
  | none => rfl
  | some qty =>
    by_cases pos : 0 < qty
    · simp [longQty, Option.filter, pos]
    · simp [longQty, Option.filter, pos]

lemma get_currentHoldings : (currentHoldings (Ctx.at ctx book) p.toParams).get sym =
    if sym ∈ names ctx p then (book.get sym).filter fun qty => 0 < qty else none := by
  have from_any (l : List String) (held : Dict String ℚ) : (l.foldl (hold (Ctx.at ctx book)) held).get sym =
      if sym ∈ l.map upper then ((book.get sym).filter fun qty => 0 < qty).or (held.get sym) else held.get sym := by
    induction l generalizing held with
    | nil => rfl
    | cons s l ih =>
      rw [foldl_cons, ih, get_hold, longQty_at]
      by_cases here : sym = upper s
      · rw [here]
        cases (book.get (upper s)).filter fun qty => 0 < qty with
        | none => simp
        | some qty => simp
      · simp [here]
  have all := from_any (tradeable ctx p.toBookParams) Dict.empty
  rw [get_empty, Option.or_none] at all
  simp only [names, mem_toFinset]
  exact all

lemma quantity_currentHoldings :
    quantity (currentHoldings (Ctx.at ctx book) p.toParams) sym = longs ctx p book sym := by
  rw [quantity, get_currentHoldings, longs, quantity]
  split
  · cases book.get sym with
    | none => rfl
    | some qty =>
      by_cases pos : 0 < qty
      · simp [Option.filter, pos, max_eq_right pos.le]
      · simp [Option.filter, pos, max_eq_left (not_lt.1 pos)]
  · rfl

lemma mem_currentHoldings {h : String × ℚ} (mem : h ∈ (currentHoldings (Ctx.at ctx book) p.toParams).entries) :
    h.1 ∈ names ctx p ∧ 0 < h.2 ∧ longs ctx p book h.1 = h.2 := by
  have found := get_of_mem_entries mem
  have qty : longs ctx p book h.1 = h.2 := by
    rw [← quantity_currentHoldings, quantity, found]
    rfl
  rw [get_currentHoldings] at found
  split at found
  · rename_i name
    exact ⟨name, of_decide_eq_true (Option.filter_eq_some_iff.1 found).2, qty⟩
  · cases found

lemma invested_eq (prices : ∀ s ∈ names ctx p, ctx.price p.toBookParams s = .ok (some (price s)) ∧ 0 < price s)
    {entries : List (String × ℚ)} (registered : ∀ h ∈ entries, h.1 ∈ names ctx p) :
    invested (Ctx.at ctx book) p entries = .ok (some (entries.map fun h => h.2 * price h.1).sum) := by
  induction entries with
  | nil => rfl
  | cons h rest ih =>
    obtain ⟨read, pos⟩ := prices h.1 (registered h mem_cons_self)
    have tail := ih fun h' mem => registered h' (mem_cons_of_mem h mem)
    have same : (Ctx.at ctx book).price p.toBookParams h.1 = .ok (some (price h.1)) := read
    obtain ⟨s, qty⟩ := h
    rw [invested, same]
    refine (if_neg (not_le.2 pos)).trans ?_
    rw [tail]
    rfl

/-! ## What a tick orders -/

lemma value_resize {ratio : ℚ} {h : String × ℚ} : (resize p ratio h).value = .ok () := by
  rw [resize]
  split
  · rfl
  · exact value_submit

lemma moved_resize {ratio : ℚ} {h : String × ℚ} : moved (resize p ratio h).emitted sym =
    if h.1 = sym then scaledQty p (h.2 * ratio) - h.2 else 0 := by
  rw [resize]
  split
  · rename_i none
    simp [none]
  · rename_i some
    rw [moved_submit, max_eq_right (abs_nonneg _)]
    by_cases up : 0 < scaledQty p (h.2 * ratio) - h.2
    · simp only [if_pos up, abs_of_pos up, if_true]
    · simp only [if_neg up, reduceCtorEq, if_false, abs_of_nonpos (not_lt.1 up), neg_neg]

section
variable (enabled : p.useDailyOverlay = true) (target : overlayTargetGross R ctx p = .ok desired)
  (prices : ∀ s ∈ names ctx p, ctx.price p.toBookParams s = .ok (some (price s)) ∧ 0 < price s)
  (base : 0 < investableBase ctx p.toBookParams)
include enabled target prices base

lemma tick_eq : (onOverlayTick R (Ctx.at ctx book) p).emitted = if Skips ctx p price desired (longs ctx p book) then []
    else (currentHoldings (Ctx.at ctx book) p.toParams).entries.flatMap fun h =>
      (resize p (desired / gross ctx p price (longs ctx p book)) h).emitted := by
  have reads : overlayTargetGross R (Ctx.at ctx book) p = .ok desired := target
  have same : investableBase (Ctx.at ctx book) p.toBookParams = investableBase ctx p.toBookParams := rfl
  have worth : ((currentHoldings (Ctx.at ctx book) p.toParams).entries.map fun h => h.2 * price h.1).sum =
      ∑ s ∈ names ctx p, longs ctx p book s * price s := by
    have unnamed (s : String) (qty : ℚ) (found : (currentHoldings (Ctx.at ctx book) p.toParams).get s = some qty)
        (out : s ∉ names ctx p) : qty * price s = 0 := by
      rw [get_currentHoldings, if_neg out] at found
      cases found
    rw [sum_entries_of_support (fun s qty => qty * price s) unnamed]
    apply Finset.sum_congr rfl
    intro s _
    rw [← quantity_currentHoldings, quantity]
    cases (currentHoldings (Ctx.at ctx book) p.toParams).get s with
    | none => exact (zero_mul _).symm
    | some qty => rfl
  rw [onOverlayTick, if_neg (by simp [enabled]), reads, Attempt.ofExcept_ok_bind]
  dsimp only
  rw [same]
  by_cases none : (currentHoldings (Ctx.at ctx book) p.toParams).entries = []
  · -- nothing is held: the gross is zero
    rw [none] at worth
    have flat : Skips ctx p price desired (longs ctx p book) := by
      left
      rw [gross, ← worth]
      exact zero_div _
    rw [if_pos (.inl none), if_pos flat]
    rfl
  · have pos : 0 < ∑ s ∈ names ctx p, longs ctx p book s * price s := by
      rw [← worth]
      apply sum_pos
      · intro x mem
        obtain ⟨h, holding, rfl⟩ := mem_map.1 mem
        obtain ⟨name, qty, -⟩ := mem_currentHoldings holding
        exact mul_pos qty (prices h.1 name).2
      · exact fun empty => none (map_eq_nil_iff.1 empty)
    have nonzero : gross ctx p price (longs ctx p book) ≠ 0 := (div_pos pos base).ne'
    rw [if_neg (not_or.2 ⟨none, not_le.2 base⟩), invested_eq prices fun h mem => (mem_currentHoldings mem).1,
      Attempt.ofExcept_ok_bind]
    dsimp only
    rw [worth, if_neg (not_le.2 pos), ← gross]
    by_cases small : |desired - gross ctx p price (longs ctx p book)| < p.overlayDriftPct
    · rw [if_pos small, if_pos (.inr small)]
      rfl
    · have trades : ¬ Skips ctx p price desired (longs ctx p book) := not_or.2 ⟨nonzero, small⟩
      rw [if_neg small, if_neg trades, Attempt.each_of_ok fun h _ => value_resize]

lemma moved_tick : moved (onOverlayTick R (Ctx.at ctx book) p).emitted sym =
    next ctx p price desired (longs ctx p book) sym - longs ctx p book sym := by
  rw [tick_eq enabled target prices base, next]
  split
  · rw [moved_nil, sub_self]
  · rw [moved_flatMap]
    simp only [moved_resize]
    cases found : (currentHoldings (Ctx.at ctx book) p.toParams).get sym with
    | none =>
      have absent : sym ∉ (currentHoldings (Ctx.at ctx book) p.toParams).entries.map Prod.fst := by
        rw [Dict.mem_keys, found]
        exact Bool.false_ne_true
      rw [sum_of_notMem absent, ← quantity_currentHoldings, quantity, found]
      simp
    | some qty =>
      have own := sum_of_mem (v := fun h : String × ℚ =>
        scaledQty p (h.2 * (desired / gross ctx p price (longs ctx p book))) - h.2)
        (currentHoldings (Ctx.at ctx book) p.toParams).nodup (mem_entries_of_get found)
      have held : longs ctx p book sym = qty := (mem_currentHoldings (mem_entries_of_get found)).2.2
      rw [held]
      exact own

lemma tick_eq_nil : (onOverlayTick R (Ctx.at ctx book) p).emitted = [] ↔
    Rest ctx p price desired (longs ctx p book) := by
  constructor
  · intro nothing
    refine rest_iff.2 fun s => ?_
    have still : moved (onOverlayTick R (Ctx.at ctx book) p).emitted s = _ := moved_tick enabled target prices base
    rw [nothing, moved_nil] at still
    exact sub_eq_zero.1 still.symm
  · intro rest
    rw [tick_eq enabled target prices base]
    split
    · rfl
    · rename_i trades
      rw [flatMap_eq_nil_iff]
      intro h mem
      have same := rest.resolve_left trades h.1
      rw [(mem_currentHoldings mem).2.2] at same
      rw [resize, if_pos (sub_eq_zero.2 same)]
      rfl

end

lemma overlayTargetGross_mem (target : overlayTargetGross R ctx p = .ok desired) : 0 ≤ desired ∧ desired ≤ 1 := by
  obtain ⟨series, -, target⟩ := bind_eq_ok.1 target
  cases series with
  | none =>
    cases target
    norm_num
  | some bars =>
    dsimp only at target
    split at target
    · cases target
      norm_num
    · cases target
      rw [desiredGross]
      split
      · norm_num
      · split
        · norm_num
        · exact ⟨le_min zero_le_one (le_max_left _ _), min_le_left _ _⟩

/-! ## Sessions -/

def signedQty (o : MarketOrder) : ℚ := if o.side = .buy then o.qty else -o.qty

lemma moved_cons {o : MarketOrder} {l : List MarketOrder} :
    moved (o :: l) sym = (if o.symbol = sym then signedQty o else 0) + moved l sym := by
  by_cases same : o.symbol = sym
  · simp [moved, signedQty, same]
  · simp [moved, same]

lemma moved_eraseIdx {o : MarketOrder} {l : List MarketOrder} {index : Nat} (at_ : l[index]? = some o) :
    moved (l.eraseIdx index) sym = moved l sym - if o.symbol = sym then signedQty o else 0 := by
  induction l generalizing index with
  | nil => cases at_
  | cons o' l ih =>
    cases index with
    | zero =>
      cases at_
      rw [eraseIdx_cons_zero, moved_cons]
      ring
    | succ index =>
      rw [eraseIdx_cons_succ, moved_cons, moved_cons, ih at_]
      ring

lemma moved_set {o o' : MarketOrder} {l : List MarketOrder} {index : Nat} (at_ : l[index]? = some o) :
    moved (l.set index o') sym =
      moved l sym - (if o.symbol = sym then signedQty o else 0) + if o'.symbol = sym then signedQty o' else 0 := by
  induction l generalizing index with
  | nil => cases at_
  | cons first l ih =>
    cases index with
    | zero =>
      cases at_
      rw [set_cons_zero, moved_cons, moved_cons]
      ring
    | succ index =>
      rw [set_cons_succ, moved_cons, moved_cons, ih at_]
      ring

/-- What is held and what is working, together. -/
def total (s : Session) (sym : String) : ℚ := quantity s.book sym + moved s.working sym

lemma total_fill {s t : Session} {index : Nat} {qty : ℚ} (step : session R ctx p s (.fill index qty) = some t) :
    total t sym = total s sym := by
  obtain ⟨o, at_, step⟩ := Option.bind_eq_some_iff.1 step
  obtain ⟨-, step⟩ := Option.ite_none_right_eq_some.1 step
  cases step
  have held : quantity (filled s.book o qty) sym =
      quantity s.book sym + if o.symbol = sym then (if o.side = .buy then qty else -qty) else 0 := by
    rw [quantity, filled, get_set]
    by_cases same : o.symbol = sym
    · rw [if_pos same.symm, if_pos same, ← same]
      rfl
    · rw [if_neg (Ne.symm same), if_neg same, add_zero]
      rfl
  simp only [total]
  rw [held]
  by_cases whole : qty = o.qty
  · rw [if_pos whole, moved_eraseIdx at_, signedQty, whole]
    ring
  · rw [if_neg whole, moved_set at_, signedQty, signedQty]
    split
    · split
      · ring
      · ring
    · ring

/-- After the first tick, the overlay fires on a book at rest alone. -/
def Steady (ctx : Ctx) (p : OverlayParams) (price : String → ℚ) (desired : ℚ) (s : Session) : SessionAct → Prop
  | .tick => s.fired = true → Rest ctx p price desired (longs ctx p s.book)
  | _ => True

/-- What is held and what is working is the book, or what its first tick made of it. -/
def OneTick (R : Readings) (ctx : Ctx) (p : OverlayParams) (book : Dict String ℚ) (s : Session) : Prop :=
  (s.fired = false ∧ s.book = book ∧ s.working = []) ∨
    s.fired = true ∧ ∀ sym, total s sym =
      quantity book sym + moved (onOverlayTick R (Ctx.at ctx book) p).emitted sym

section
variable (enabled : p.useDailyOverlay = true) (target : overlayTargetGross R ctx p = .ok desired)
  (prices : ∀ s ∈ names ctx p, ctx.price p.toBookParams s = .ok (some (price s)) ∧ 0 < price s)
  (base : 0 < investableBase ctx p.toBookParams)
include enabled target prices base

lemma OneTick.step {s t : Session} {act : SessionAct} (one : OneTick R ctx p book s)
    (steady : Steady ctx p price desired s act) (step : session R ctx p s act = some t) : OneTick R ctx p book t := by
  cases act with
  | restart => cases step; exact one
  | fill index qty =>
    obtain ⟨-, -, idle⟩ | ⟨fired, same⟩ := one
    · -- nothing is working before the first tick
      simp [session, idle] at step
    · have kept : t.fired = s.fired := by
        obtain ⟨o, -, step⟩ := Option.bind_eq_some_iff.1 step
        obtain ⟨-, step⟩ := Option.ite_none_right_eq_some.1 step
        cases step
        rfl
      exact .inr ⟨kept.trans fired, fun sym => (total_fill step).trans (same sym)⟩
  | tick =>
    cases step
    obtain ⟨-, rfl, idle⟩ | ⟨fired, same⟩ := one
    · refine .inr ⟨rfl, fun sym => ?_⟩
      rw [total, idle]
      rfl
    · have nothing := (tick_eq_nil enabled target prices base).2 (steady fired)
      refine .inr ⟨rfl, fun sym => ?_⟩
      rw [← same sym, total, nothing, append_nil]
      rfl

end

/-! ## The overlay -/

/-- A tick scales every name, the next one submits nothing, a tick without the proxy submits nothing, and a session of
ticks ends at the target of one, each under its condition. -/
theorem overlay_iff (R : Readings) (ctx : Ctx) (p : OverlayParams) (price : String → ℚ)
    (enabled : p.useDailyOverlay = true)
    (prices : ∀ s ∈ names ctx p, ctx.price p.toBookParams s = .ok (some (price s)) ∧ 0 < price s)
    (base : 0 < investableBase ctx p.toBookParams) :
    (∀ desired book, overlayTargetGross R ctx p = .ok desired → (∀ s, quantity book s = longs ctx p book s) →
      ((∀ held', Filled book (onOverlayTick R (Ctx.at ctx book) p).emitted held' → ∀ s, quantity held' s =
          Rebalance.quantizeQty (quantity book s * (desired / gross ctx p price (quantity book)))) ↔
        ∀ s, if Skips ctx p price desired (quantity book) then
            Rebalance.quantizeQty (quantity book s * (desired / gross ctx p price (quantity book))) = quantity book s
          else p.fractionalShares = true ∨ (⌊quantity book s * (desired / gross ctx p price (quantity book))⌋ : ℚ) =
              Rebalance.quantizeQty (quantity book s * (desired / gross ctx p price (quantity book)))) ∧
      ((∀ held', Filled book (onOverlayTick R (Ctx.at ctx book) p).emitted held' →
          (onOverlayTick R (Ctx.at ctx held') p).emitted = []) ↔
        Rest ctx p price desired (next ctx p price desired (quantity book)))) ∧
    (∀ book, proxySeries ctx p = .ok none ∨ proxySeries ctx p = .ok (some []) →
      ((onOverlayTick R (Ctx.at ctx book) p).emitted = [] ↔ Rest ctx p price 1 (longs ctx p book))) ∧
    ∀ desired, overlayTargetGross R ctx p = .ok desired → ∀ book acts s, (sessions R ctx p).run { book } acts = some s →
      (sessions R ctx p).Meets (Steady ctx p price desired) { book } acts →
      s.fired = true → s.working = [] → ∀ sym, quantity s.book sym =
        quantity book sym + moved (onOverlayTick R (Ctx.at ctx book) p).emitted sym := by
  refine ⟨?_, ?_, ?_⟩
  · intro desired book target held
    have long : longs ctx p book = quantity book := funext fun s => (held s).symm
    have off (s : String) (out : quantity book s = 0) : next ctx p price desired (quantity book) s = 0 := by
      rw [next]
      split
      · exact out
      · rw [out, zero_mul, scaledQty_zero]
    have reached (held' : Dict String ℚ) :
        Filled book (onOverlayTick R (Ctx.at ctx book) p).emitted held' ↔
          ∀ s, quantity held' s = next ctx p price desired (quantity book) s := by
      refine forall_congr' fun s => ?_
      rw [moved_tick enabled target prices base, long, add_sub_cancel]
    -- the scaled book is one of the books after the fills
    have witness (s : String) :
        quantity (book.mapMaybe fun s _ => some (next ctx p price desired (quantity book) s)) s =
        next ctx p price desired (quantity book) s := by
      rw [quantity, get_mapMaybe]
      cases found : book.get s with
      | none =>
        rw [off s (by rw [quantity, found]; rfl)]
        rfl
      | some qty => rfl
    have nonneg (s : String) : 0 ≤ next ctx p price desired (quantity book) s := by
      have long' : 0 ≤ quantity book s := held s ▸ longs_nonneg
      rw [next]
      split
      · exact long'
      · have worth : 0 ≤ gross ctx p price (quantity book) := by
          refine div_nonneg (Finset.sum_nonneg fun s' mem => ?_) base.le
          exact mul_nonneg (held s' ▸ longs_nonneg) (prices s' mem).2.le
        exact scaledQty_nonneg (mul_nonneg long' (div_nonneg (overlayTargetGross_mem target).1 worth))
    constructor
    · constructor
      · intro scaled s
        have at_s := scaled _ ((reached _).2 witness) s
        rw [witness s, next] at at_s
        split
        · rename_i skips
          rw [if_pos skips] at at_s
          exact at_s.symm
        · rename_i trades
          rw [if_neg trades, scaledQty] at at_s
          split at at_s
          · rename_i fractional
            exact .inl fractional
          · exact .inr at_s
      · intro exact_ held' filled s
        have at_s := exact_ s
        rw [(reached held').1 filled s, next]
        split
        · rename_i skips
          rw [if_pos skips] at at_s
          exact at_s.symm
        · rename_i trades
          rw [if_neg trades] at at_s
          rw [scaledQty]
          split
          · rfl
          · rename_i whole
            exact at_s.resolve_left whole
    · have again (held' : Dict String ℚ) (filled : Filled book (onOverlayTick R (Ctx.at ctx book) p).emitted held') :
          longs ctx p held' = next ctx p price desired (quantity book) := by
        funext s
        rw [longs, (reached held').1 filled s]
        split
        · exact max_eq_right (nonneg s)
        · rename_i out
          refine (off s ?_).symm
          rw [held s, longs, if_neg out]
      constructor
      · intro still
        have filled := (reached _).2 witness
        rw [← again _ filled]
        exact (tick_eq_nil enabled target prices base).1 (still _ filled)
      · intro rest held' filled
        rw [tick_eq_nil enabled target prices base, again held' filled]
        exact rest
  · intro book unavailable
    have open_ : overlayTargetGross R ctx p = .ok 1 := by
      obtain none | empty := unavailable
      · rw [overlayTargetGross, none]
        rfl
      · rw [overlayTargetGross, empty]
        rfl
    exact tick_eq_nil enabled open_ prices base
  · intro desired target book acts s run steady fired filled sym
    have one : OneTick R ctx p book s :=
      run_invariant (M := sessions R ctx p) (OneTick.step enabled target prices base) (.inl ⟨rfl, rfl, rfl⟩)
        steady run
    obtain ⟨unfired, -⟩ | ⟨-, same⟩ := one
    · rw [fired] at unfired
      cases unfired
    · rw [← same sym, total, filled, moved_nil, add_zero]

def blind : Ctx := { oneName 0 with
  getRecentBars := fun s _ _ => .ok (if s = "SPY" then none else some [⟨0, 100⟩]) }

def silent : Readings := ⟨fun _ _ _ _ => none, .ok none, .ok none⟩

def oneShare : Dict String ℚ := Dict.empty.set "A" 1

def tickAgain : List SessionAct := [.tick, .fill 0 (44 / 5), .restart, .tick]

theorem overlay_iff_tickAgain : ∃ s,
    (sessions silent blind { useDailyOverlay := true }).run { book := oneShare } tickAgain = some s ∧
      quantity s.book "A" = quantity oneShare "A" +
        moved (onOverlayTick silent (Ctx.at blind oneShare) { useDailyOverlay := true }).emitted "A" ∧
      quantity s.book "A" = 49 / 5 := by
  refine exists_run (by decide +kernel) fun s run => ?_
  have fired : s.fired = true := Machine.observe (f := Session.fired) run (by decide +kernel)
  have done : s.working = [] := Machine.observe (f := Session.working) run (by decide +kernel)
  have held : quantity s.book "A" = 49 / 5 :=
    Machine.observe (f := fun s => quantity s.book "A") run (by decide +kernel)
  refine ⟨(overlay_iff silent blind { useDailyOverlay := true } (fun _ => 100) rfl ?_ (by decide +kernel)).2.2 1 rfl
    oneShare tickAgain s run ?_ fired done "A", held⟩
  · intro s mem
    have isA : s = "A" := by
      have all : names blind { useDailyOverlay := true } = {"A"} := by decide +kernel
      rw [all] at mem
      exact Finset.mem_singleton.1 mem
    rw [isA]
    exact ⟨rfl, by norm_num⟩
  · refine meets_cons.2 ⟨fun fired => absurd fired Bool.false_ne_true, fun t ticked => ?_⟩
    refine meets_cons.2 ⟨trivial, fun t' filled => ?_⟩
    refine meets_cons.2 ⟨trivial, fun t'' restarted => ?_⟩
    have before : (sessions silent blind { useDailyOverlay := true }).run { book := oneShare }
        [.tick, .fill 0 (44 / 5), .restart] = some t'' :=
      run_cons.2 ⟨t, ticked, run_cons.2 ⟨t', filled, run_cons.2 ⟨t'', restarted, rfl⟩⟩⟩
    have skips := Machine.observe (f := fun s => decide (Skips blind { useDailyOverlay := true } (fun _ => 100) 1
      (longs blind { useDailyOverlay := true } s.book))) before (x := true) (by decide +kernel)
    exact meets_cons.2 ⟨fun _ => .inl (of_decide_eq_true skips), fun _ _ => trivial⟩

/-- Without the proxy, a tick buys; and two ticks before a fill buy twice. -/
theorem overlay_acts_blind :
    (onOverlayTick silent (Ctx.at blind oneShare) { useDailyOverlay := true }).emitted = [⟨"A", .buy, 44 / 5⟩] ∧
      proxySeries blind { useDailyOverlay := true } = .ok none ∧
      ((sessions silent blind { useDailyOverlay := true }).run { book := oneShare }
        [.tick, .restart, .tick, .fill 0 (44 / 5), .fill 0 (44 / 5)]).map (fun s => quantity s.book "A") =
          some (93 / 5) := by
  refine ⟨by decide +kernel, rfl, by decide +kernel⟩

end Workbench.Templates.Weekly.MomentumPortfolio
