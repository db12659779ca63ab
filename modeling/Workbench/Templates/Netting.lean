import Workbench.Templates.CombinedBook
import Workbench.Templates.LowVolatility
import Workbench.Templates.SectorRotation

/-!
# What is held, what is on its way, and what is ordered

The four templates trade toward a target by one rule: exits, then the trims and the entries of the targets, each by a
signed change that is computed from the quantity held. The rule is sound when a trim is covered by what is held and an
entry leaves out what is on its way, and such a rule has nothing left to do once its orders have filled.
MomentumPortfolio subtracts what is on its way from an entry alone; LowVolatility subtracts it before it knows whether
the change is an entry; the other two do not subtract it. -/

set_option linter.dupNamespace false

namespace Workbench.Templates.Weekly
open Workbench.Lib List Dict

/-! ## Rules -/

/-- The signed quantity that some orders move of a name. -/
def moved (orders : List MarketOrder) (sym : String) : ℚ :=
  ((orders.filter (·.symbol = sym)).map fun o => if o.side = .buy then o.qty else -o.qty).sum

def quantity (held : Dict String ℚ) (sym : String) : ℚ := (held.get sym).getD 0

/-- The holdings after some orders have filled. -/
def Filled (held : Dict String ℚ) (orders : List MarketOrder) (held' : Dict String ℚ) : Prop :=
  ∀ sym, quantity held' sym = quantity held sym + moved orders sym

/-- One order a symbol; sales are held, purchases are wanted and not on their way; and nothing is submitted after they
have filled. -/
def Sound (want inFlight : String → ℚ) (trade : Dict String ℚ → List MarketOrder) (held : Dict String ℚ) : Prop :=
  ((trade held).map (·.symbol)).Nodup ∧
    (∀ o ∈ trade held, o.side = .sell → o.qty ≤ quantity held o.symbol) ∧
    (∀ o ∈ trade held, o.side = .buy → o.qty ≤ want o.symbol - quantity held o.symbol - inFlight o.symbol) ∧
    ∀ held', Filled held (trade held) held' → trade held' = []

/-- Exits, trims and entries by a rule for the signed change of a name at the quantity held. -/
def traded (target : List String) (rule : String → ℚ → ℚ) (held : Dict String ℚ) : List MarketOrder :=
  (exits held target).emitted ++
    (target.flatMap fun sym => (submit sym .sell (-rule sym (quantity held sym))).emitted) ++
    target.flatMap fun sym => (submit sym .buy (rule sym (quantity held sym))).emitted

section
variable {sym : String}
variable {α : Type} {l : List α}

@[simp] lemma moved_nil : moved [] sym = 0 := rfl

@[simp] lemma moved_append {l l' : List MarketOrder} : moved (l ++ l') sym = moved l sym + moved l' sym := by
  simp [moved]

lemma mem_submit_iff {s : String} {side : OrderSide} {qty : ℚ} {o : MarketOrder} :
    o ∈ (submit s side qty).emitted ↔ 0 < qty ∧ o = ⟨s, side, qty⟩ := by
  rw [submit]
  split
  · rename_i none
    simp [not_lt.2 none]
  · rename_i some
    simp [not_le.1 some]

lemma moved_submit {s : String} {side : OrderSide} {qty : ℚ} :
    moved (submit s side qty).emitted sym =
      if s = sym then (if side = .buy then max 0 qty else - max 0 qty) else 0 := by
  rw [submit]
  split
  · rename_i none
    simp [max_eq_left none]
  · rename_i some
    rw [max_eq_right (not_le.1 some).le]
    by_cases same : s = sym
    · simp [moved, same]
    · simp [moved, same]

lemma moved_flatMap {f : α → List MarketOrder} : moved (l.flatMap f) sym = (l.map fun a => moved (f a) sym).sum := by
  induction l with
  | nil => rfl
  | cons a l ih => rw [flatMap_cons, moved_append, ih, map_cons, sum_cons]

lemma sum_of_notMem {key : α → String} {v : α → ℚ} (absent : sym ∉ l.map key) :
    (l.map fun a => if key a = sym then v a else 0).sum = 0 := by
  induction l with
  | nil => rfl
  | cons a l ih =>
    rw [map_cons, mem_cons, not_or] at absent
    rw [map_cons, sum_cons, if_neg (Ne.symm absent.1), ih absent.2, add_zero]

lemma sum_of_mem {key : α → String} {v : α → ℚ} (distinct : (l.map key).Nodup) {a : α}
    (mem : a ∈ l) : (l.map fun b => if key b = key a then v b else 0).sum = v a := by
  induction l with
  | nil => cases mem
  | cons b l ih =>
    rw [map_cons, nodup_cons] at distinct
    rw [map_cons, sum_cons]
    obtain rfl | tail := mem_cons.1 mem
    · rw [if_pos rfl, sum_of_notMem distinct.1, add_zero]
    · have ne : key b ≠ key a := fun same => distinct.1 (same ▸ mem_map_of_mem tail)
      rw [if_neg ne, ih distinct.2 tail, zero_add]

lemma symbols_sublist {key : α → String} {f : α → List MarketOrder}
    (own : ∀ a ∈ l, (f a).map (·.symbol) = [] ∨ (f a).map (·.symbol) = [key a]) :
    ((l.flatMap f).map (·.symbol)).Sublist (l.map key) := by
  induction l with
  | nil => exact List.Sublist.refl _
  | cons a l ih =>
    have tail := ih fun b mem => own b (mem_cons_of_mem a mem)
    rw [flatMap_cons, map_append, map_cons]
    obtain nothing | one := own a mem_cons_self
    · rw [nothing]
      exact tail.cons _
    · rw [one]
      exact tail.cons_cons _

lemma symbols_submit {s : String} {side : OrderSide} {qty : ℚ} :
    (submit s side qty).emitted.map (·.symbol) = [] ∨ (submit s side qty).emitted.map (·.symbol) = [s] := by
  rw [submit]
  split
  · exact .inl rfl
  · exact .inr rfl

end

/-! ## A rule, once and again -/

section
variable {target : List String} {rule : String → ℚ → ℚ} {held held' : Dict String ℚ} {sym : String}

lemma mem_exits {o : MarketOrder} : o ∈ (exits held target).emitted ↔
    ∃ h ∈ held.entries, h.1 ∉ target ∧ 0 < h.2 ∧ o = ⟨h.1, .sell, h.2⟩ := by
  rw [exits_eq]
  simp only [mem_flatMap]
  refine exists_congr fun h => and_congr_right fun _ => ?_
  split
  · rename_i wanted
    simp [wanted]
  · rename_i out
    simp [mem_submit_iff, out]

lemma mem_traded {o : MarketOrder} : o ∈ traded target rule held ↔
    (∃ h ∈ held.entries, h.1 ∉ target ∧ 0 < h.2 ∧ o = ⟨h.1, .sell, h.2⟩) ∨
      (∃ s ∈ target, rule s (quantity held s) < 0 ∧ o = ⟨s, .sell, -rule s (quantity held s)⟩) ∨
      ∃ s ∈ target, 0 < rule s (quantity held s) ∧ o = ⟨s, .buy, rule s (quantity held s)⟩ := by
  simp only [traded, mem_append, mem_exits, mem_flatMap, mem_submit_iff, neg_pos, or_assoc]

lemma moved_exits : moved (exits held target).emitted sym =
    (held.entries.map fun h => if h.1 = sym then (if h.1 ∈ target then 0 else - max 0 h.2) else 0).sum := by
  rw [exits_eq, moved_flatMap]
  congr 1
  apply map_congr_left
  intro h _
  split
  · simp
  · rw [moved_submit]
    rfl

lemma moved_traded (distinct : target.Nodup) (mem : sym ∈ target) :
    moved (traded target rule held) sym = rule sym (quantity held sym) := by
  have exit : moved (exits held target).emitted sym = 0 := by
    rw [moved_exits]
    apply sum_eq_zero
    intro x mem_x
    obtain ⟨h, -, rfl⟩ := mem_map.1 mem_x
    split
    · rename_i same
      rw [same, if_pos mem]
    · rfl
  have keys : (target.map fun s => s).Nodup := by rwa [map_id']
  have trim : moved (target.flatMap fun s => (submit s .sell (-rule s (quantity held s))).emitted) sym =
      - max 0 (-rule sym (quantity held sym)) := by
    rw [moved_flatMap]
    simp only [moved_submit]
    exact sum_of_mem keys mem
  have entry : moved (target.flatMap fun s => (submit s .buy (rule s (quantity held s))).emitted) sym =
      max 0 (rule sym (quantity held sym)) := by
    rw [moved_flatMap]
    simp only [moved_submit]
    exact sum_of_mem keys mem
  rw [traded, moved_append, moved_append, exit, trim, entry]
  grind

lemma quantity_out (filled : Filled held (traded target rule held) held') (out : sym ∉ target) :
    quantity held' sym ≤ 0 := by
  have keys : sym ∉ target.map fun s => s := by rwa [map_id']
  have trim : moved (target.flatMap fun s => (submit s .sell (-rule s (quantity held s))).emitted) sym = 0 := by
    rw [moved_flatMap]
    simp only [moved_submit]
    exact sum_of_notMem keys
  have entry : moved (target.flatMap fun s => (submit s .buy (rule s (quantity held s))).emitted) sym = 0 := by
    rw [moved_flatMap]
    simp only [moved_submit]
    exact sum_of_notMem keys
  rw [filled sym, traded, moved_append, moved_append, trim, entry, moved_exits, add_zero, add_zero]
  cases found : held.get sym with
  | none =>
    have absent : sym ∉ held.entries.map Prod.fst := by
      rw [Dict.mem_keys, found]
      exact Bool.false_ne_true
    rw [sum_of_notMem absent, quantity, found]
    exact le_of_eq (add_zero _)
  | some q =>
    have sold := sum_of_mem (v := fun h : String × ℚ => if h.1 ∈ target then 0 else - max 0 h.2) held.nodup
      (mem_entries_of_get found)
    simp only [if_neg out] at sold
    rw [sold, quantity, found]
    exact (add_neg_le_iff_le_add.2 ((le_max_right 0 q).trans_eq (zero_add _).symm))

lemma nodup_traded (distinct : target.Nodup) : ((traded target rule held).map (·.symbol)).Nodup := by
  have keys : (target.map fun s => s).Nodup := by rwa [map_id']
  have trims : ((target.flatMap fun s => (submit s .sell (-rule s (quantity held s))).emitted).map
      (·.symbol)).Nodup := (symbols_sublist fun _ _ => symbols_submit).nodup keys
  have entries : ((target.flatMap fun s => (submit s .buy (rule s (quantity held s))).emitted).map
      (·.symbol)).Nodup := (symbols_sublist fun _ _ => symbols_submit).nodup keys
  have sold : ((exits held target).emitted.map (·.symbol)).Nodup := by
    rw [exits_eq]
    refine (symbols_sublist fun h _ => ?_).nodup held.nodup
    split
    · exact .inl rfl
    · exact symbols_submit
  rw [traded, map_append, map_append, nodup_append, nodup_append]
  refine ⟨⟨sold, trims, ?_⟩, entries, ?_⟩
  · intro a mem_a b mem_b same
    obtain ⟨o, mem_o, rfl⟩ := mem_map.1 mem_a
    obtain ⟨o', mem_o', rfl⟩ := mem_map.1 mem_b
    obtain ⟨s, mem_s, mem_o'⟩ := mem_flatMap.1 mem_o'
    obtain ⟨-, rfl⟩ := mem_submit_iff.1 mem_o'
    obtain ⟨h, -, out, -, rfl⟩ := mem_exits.1 mem_o
    have same : h.1 = s := same
    exact out (same ▸ mem_s)
  · intro a mem_a b mem_b same
    obtain ⟨o', mem_o', rfl⟩ := mem_map.1 mem_b
    obtain ⟨s, mem_s, mem_o'⟩ := mem_flatMap.1 mem_o'
    obtain ⟨enters, rfl⟩ := mem_submit_iff.1 mem_o'
    rw [← map_append] at mem_a
    obtain ⟨o, mem_o, rfl⟩ := mem_map.1 mem_a
    obtain exit | trim := mem_append.1 mem_o
    · obtain ⟨h, -, out, -, rfl⟩ := mem_exits.1 exit
      have same : h.1 = s := same
      exact out (same ▸ mem_s)
    · obtain ⟨s', -, trim⟩ := mem_flatMap.1 trim
      obtain ⟨trims, rfl⟩ := mem_submit_iff.1 trim
      dsimp only at same
      rw [same] at trims
      linarith

/-- A rule that is left nothing by its own orders is sound when its trims are held, and its entries wanted and not on
their way. -/
theorem sound_traded {want inFlight : String → ℚ} (distinct : target.Nodup)
    (settles : ∀ s ∈ target, ∀ cur, rule s (cur + rule s cur) = 0) :
    Sound want inFlight (traded target rule) held ↔ ∀ s ∈ target,
      (rule s (quantity held s) < 0 → -rule s (quantity held s) ≤ quantity held s) ∧
      (0 < rule s (quantity held s) → rule s (quantity held s) ≤ want s - quantity held s - inFlight s) := by
  constructor
  · intro sound s mem
    constructor
    · intro trims
      exact sound.2.1 _ (mem_traded.2 (.inr (.inl ⟨s, mem, trims, rfl⟩))) rfl
    · intro enters
      exact sound.2.2.1 _ (mem_traded.2 (.inr (.inr ⟨s, mem, enters, rfl⟩))) rfl
  · intro bounded
    refine ⟨?_, ?_, ?_, ?_⟩
    · exact nodup_traded distinct
    · intro o mem sells
      obtain ⟨h, mem_h, -, -, rfl⟩ | ⟨s, mem_s, trims, rfl⟩ | ⟨s, -, -, rfl⟩ := mem_traded.1 mem
      · rw [quantity, get_of_mem_entries mem_h]
        exact le_refl _
      · exact (bounded s mem_s).1 trims
      · cases sells
    · intro o mem buys
      obtain ⟨h, -, -, -, rfl⟩ | ⟨s, -, -, rfl⟩ | ⟨s, mem_s, enters, rfl⟩ := mem_traded.1 mem
      · cases buys
      · cases buys
      · exact (bounded s mem_s).2 enters
    · intro held' filled
      apply eq_nil_iff_forall_not_mem.2
      intro o mem
      have settled : ∀ s ∈ target, rule s (quantity held' s) = 0 := by
        intro s mem_s
        rw [filled s, moved_traded distinct mem_s]
        exact settles s mem_s _
      obtain ⟨h, mem_h, out, pos, -⟩ | ⟨s, mem_s, trims, -⟩ | ⟨s, mem_s, enters, -⟩ := mem_traded.1 mem
      · have flat := quantity_out filled out
        rw [quantity, get_of_mem_entries mem_h] at flat
        exact absurd pos (not_lt.2 flat)
      · exact absurd (settled s mem_s) trims.ne
      · exact absurd (settled s mem_s) enters.ne'

end

/-! ## The rule of the weekly books -/

/-- The quantity that is wanted of a name: none without a price. -/
def wantQty (p : BookParams) (quote : String → Option ℚ) (notional : String → ℚ) (sym : String) : ℚ :=
  ((quote sym).map (targetQty p (notional sym))).getD 0

/-- A name that is traded: it has a price, and the change is not too small. -/
def Style.Trades (style : Style) (p : BookParams) (quote : String → Option ℚ) (notional : String → ℚ) (sym : String)
    (cur : ℚ) : Prop :=
  ∃ price, quote sym = some price ∧ 0 < price ∧
    style.small cur price (wantQty p quote notional sym - cur) (notional sym) = false

def Style.change (style : Style) (p : BookParams) (quote : String → Option ℚ) (notional : String → ℚ) (sym : String)
    (cur : ℚ) : ℚ :=
  match quote sym with
  | none => 0
  | some price =>
    let delta := targetQty p (notional sym) price - cur
    if price ≤ 0 ∨ delta = 0 ∨ style.small cur price delta (notional sym) then 0
    else if delta < 0 then delta else max 0 (delta - style.inFlight sym)

section
variable {ctx : Ctx} {p : BookParams} {style : Style} {quote : String → Option ℚ} {notional : String → ℚ}
  {held : Dict String ℚ} {target : List String} {sym : String} {cur : ℚ}

lemma quantizeQty_nonneg {x : ℚ} (nonneg : 0 ≤ x) : 0 ≤ Rebalance.quantizeQty x := by
  have floor : 0 ≤ ⌊x * 1000000⌋ := Int.floor_nonneg.2 (by positivity)
  rw [Rebalance.quantizeQty]
  apply div_nonneg
  · split
    · exact_mod_cast floor
    · exact_mod_cast floor.trans (Int.le_add_one le_rfl)
  · norm_num

lemma targetQty_nonneg {notional price : ℚ} (funded : 0 ≤ notional) (pos : 0 < price) :
    0 ≤ targetQty p notional price := by
  rw [targetQty]
  split
  · exact quantizeQty_nonneg (div_nonneg funded pos.le)
  · exact_mod_cast Int.floor_nonneg.2 (div_nonneg funded pos.le)

lemma Style.change_priced (style : Style) (p : BookParams) (notional : String → ℚ) (cur : ℚ) {price : ℚ}
    (priced : quote sym = some price) :
    style.change p quote notional sym cur =
      if price ≤ 0 ∨ targetQty p (notional sym) price - cur = 0 ∨
          style.small cur price (targetQty p (notional sym) price - cur) (notional sym) then 0
      else if targetQty p (notional sym) price - cur < 0 then targetQty p (notional sym) price - cur
      else max 0 (targetQty p (notional sym) price - cur - style.inFlight sym) := by
  rw [Style.change, priced]

lemma Style.change_cases (style : Style) (p : BookParams) (quote : String → Option ℚ) (notional : String → ℚ)
    (sym : String) (cur : ℚ) :
    style.change p quote notional sym cur = 0 ∧
        ¬ (style.Trades p quote notional sym cur ∧ wantQty p quote notional sym < cur) ∧
        ¬ (style.Trades p quote notional sym cur ∧ cur < wantQty p quote notional sym - style.inFlight sym ∧
          cur < wantQty p quote notional sym) ∨
      style.Trades p quote notional sym cur ∧ wantQty p quote notional sym < cur ∧
        style.change p quote notional sym cur = wantQty p quote notional sym - cur ∨
      style.Trades p quote notional sym cur ∧ cur < wantQty p quote notional sym ∧
        cur < wantQty p quote notional sym - style.inFlight sym ∧
        style.change p quote notional sym cur = wantQty p quote notional sym - cur - style.inFlight sym := by
  cases priced : quote sym with
  | none =>
    have untraded : ¬ style.Trades p quote notional sym cur := by
      intro ⟨price, eq, _⟩
      rw [priced] at eq
      cases eq
    refine .inl ⟨?_, fun h => untraded h.1, fun h => untraded h.1⟩
    rw [Style.change, priced]
  | some price =>
    have want : wantQty p quote notional sym = targetQty p (notional sym) price := by rw [wantQty, priced]; rfl
    have trades : style.Trades p quote notional sym cur ↔
        0 < price ∧ style.small cur price (wantQty p quote notional sym - cur) (notional sym) = false := by
      constructor
      · intro ⟨price', eq, pos, large⟩
        rw [priced] at eq
        cases eq
        exact ⟨pos, large⟩
      · exact fun ⟨pos, large⟩ => ⟨price, priced, pos, large⟩
    rw [trades, Style.change, priced]
    simp only [← want]
    split
    · rename_i none
      refine .inl ⟨rfl, ?_, ?_⟩
      · grind
      · grind
    · rename_i some
      rw [not_or, not_or, not_le, Bool.not_eq_true] at some
      obtain ⟨pos, ne, large⟩ := some
      split
      · rename_i trim
        exact .inr (.inl ⟨⟨pos, large⟩, sub_neg.1 trim, rfl⟩)
      · rename_i entry
        have more : cur < wantQty p quote notional sym := sub_pos.1 (lt_of_le_of_ne (not_lt.1 entry) (Ne.symm ne))
        by_cases left : cur < wantQty p quote notional sym - style.inFlight sym
        · exact .inr (.inr ⟨⟨pos, large⟩, more, left, max_eq_right (by linarith)⟩)
        · exact .inl ⟨max_eq_left (by linarith), fun h => absurd h.2 (not_lt.2 more.le), fun h => left h.2.1⟩

lemma Style.change_settles (inFlight : 0 ≤ style.inFlight sym) :
    style.change p quote notional sym (cur + style.change p quote notional sym cur) = 0 := by
  obtain ⟨none, -⟩ | ⟨-, -, trim⟩ | ⟨-, -, -, entry⟩ := style.change_cases p quote notional sym cur
  · rw [none, add_zero, none]
  · rw [trim]
    have reached : cur + (wantQty p quote notional sym - cur) = wantQty p quote notional sym := by ring
    rw [reached]
    obtain ⟨none, -⟩ | ⟨-, less, -⟩ | ⟨-, more, -⟩ :=
      style.change_cases p quote notional sym (wantQty p quote notional sym)
    · exact none
    · exact absurd less (lt_irrefl _)
    · exact absurd more (lt_irrefl _)
  · rw [entry]
    have reached : cur + (wantQty p quote notional sym - cur - style.inFlight sym) =
        wantQty p quote notional sym - style.inFlight sym := by ring
    rw [reached]
    obtain ⟨none, -⟩ | ⟨-, less, -⟩ | ⟨-, -, more, -⟩ :=
      style.change_cases p quote notional sym (wantQty p quote notional sym - style.inFlight sym)
    · exact none
    · exact absurd less (not_lt.2 (sub_le_self _ inFlight))
    · exact absurd more (lt_irrefl _)

lemma trims_priced {s : String} {n price : ℚ} {rest : List Sized} (priced : ctx.price p s = .ok (some price)) :
    trims ctx p style held ((s, n) :: rest) =
      if price ≤ 0 ∨ targetQty p n price - quantity held s = 0 ∨
          style.small (quantity held s) price (targetQty p n price - quantity held s) n then
        trims ctx p style held rest
      else if targetQty p n price - quantity held s < 0 then do
        submit s .sell (-(targetQty p n price - quantity held s))
        trims ctx p style held rest
      else do
        let buys ← trims ctx p style held rest
        return if targetQty p n price - quantity held s - style.inFlight s ≤ 0 then buys
          else (s, targetQty p n price - quantity held s - style.inFlight s) :: buys := by
  rw [trims, priced]
  rfl

lemma emitted_submit_of_nonpos {s : String} {side : OrderSide} {qty : ℚ} (nonpos : qty ≤ 0) :
    (submit s side qty).emitted = [] := by
  rw [submit, if_pos nonpos]
  rfl

lemma trims_eq (style : Style) (held : Dict String ℚ) (notional : String → ℚ)
    (prices : ∀ s ∈ target, ctx.price p s = .ok (quote s)) :
    ∃ buys : List Sized, trims ctx p style held (target.map fun s => (s, notional s)) =
        ⟨target.flatMap fun s => (submit s .sell (-style.change p quote notional s (quantity held s))).emitted,
          .ok buys⟩ ∧
      buys.flatMap (fun b => (submit b.1 .buy b.2).emitted) =
        target.flatMap fun s => (submit s .buy (style.change p quote notional s (quantity held s))).emitted := by
  induction target with
  | nil => exact ⟨[], rfl, rfl⟩
  | cons s rest ih =>
    obtain ⟨buys, loop, entries⟩ := ih fun s' mem => prices s' (mem_cons_of_mem s mem)
    have price := prices s mem_cons_self
    rw [map_cons, flatMap_cons, flatMap_cons, ← entries]
    -- a name that is left alone submits nothing, in either direction
    have alone (none : style.change p quote notional s (quantity held s) = 0) :
        (submit s .sell (-style.change p quote notional s (quantity held s))).emitted = [] ∧
          (submit s .buy (style.change p quote notional s (quantity held s))).emitted = [] := by
      rw [none, neg_zero]
      exact ⟨rfl, rfl⟩
    cases quoted : quote s with
    | none =>
      have none : style.change p quote notional s (quantity held s) = 0 := by rw [Style.change, quoted]
      rw [quoted] at price
      rw [(alone none).1, (alone none).2]
      refine ⟨buys, ?_, rfl⟩
      rw [trims, price, Attempt.ofExcept_ok_bind]
      exact loop
    | some q =>
      rw [quoted] at price
      have changed := style.change_priced p notional (quantity held s) quoted
      rw [trims_priced price]
      by_cases skip : q ≤ 0 ∨ targetQty p (notional s) q - quantity held s = 0 ∨
          style.small (quantity held s) q (targetQty p (notional s) q - quantity held s) (notional s) = true
      · rw [if_pos skip] at changed ⊢
        rw [(alone changed).1, (alone changed).2]
        exact ⟨buys, loop, rfl⟩
      · rw [if_neg skip] at changed ⊢
        by_cases trim : targetQty p (notional s) q - quantity held s < 0
        · rw [if_pos trim] at changed ⊢
          rw [changed, emitted_submit_of_nonpos trim.le, Attempt.bind_of_ok value_submit, loop]
          exact ⟨buys, rfl, rfl⟩
        · rw [if_neg trim] at changed ⊢
          have entry : -style.change p quote notional s (quantity held s) ≤ 0 := by
            rw [changed]
            exact neg_nonpos.2 (le_max_left _ _)
          rw [emitted_submit_of_nonpos entry, loop, changed]
          by_cases left : targetQty p (notional s) q - quantity held s - style.inFlight s ≤ 0
          · rw [max_eq_left left, emitted_submit_of_nonpos le_rfl]
            refine ⟨buys, ?_, rfl⟩
            rw [Attempt.bind_of_ok rfl]
            simp only [if_pos left, Attempt.emitted_pure, Attempt.value_pure, append_nil, nil_append]
          · rw [max_eq_right (not_le.1 left).le]
            refine ⟨(s, targetQty p (notional s) q - quantity held s - style.inFlight s) :: buys, ?_,
              flatMap_cons⟩
            rw [Attempt.bind_of_ok rfl]
            simp only [if_neg left, Attempt.emitted_pure, Attempt.value_pure, append_nil, nil_append]

lemma applyTargets_eq {equity : Except String ℚ} {size : ℚ → List Sized} {styles : ℚ → Style} {names : List String}
    {e : ℚ} (prices : ∀ s ∈ target, ctx.price p s = .ok (quote s)) (read : equity = .ok e)
    (sized : size e = target.map fun s => (s, notional s)) (same : ∀ s, s ∈ names ↔ s ∈ target) :
    (applyTargets ctx p held names equity size styles).emitted =
      traded target ((styles e).change p quote notional) held := by
  have exit : exits held names = exits held target := by
    rw [exits, exits]
    congr 1
    funext h
    simp only [same h.1]
  have ended : (exits held target).value = .ok () := by rw [exits_eq]
  rw [applyTargets, exit, Attempt.bind_of_ok ended, traded, append_assoc]
  cases target with
  | nil =>
    have none : names = [] := eq_nil_iff_forall_not_mem.2 fun s mem => absurd ((same s).1 mem) not_mem_nil
    rw [if_pos none]
    rfl
  | cons s rest =>
    have some : names ≠ [] := ne_nil_of_mem ((same s).2 mem_cons_self)
    obtain ⟨buys, loop, entries⟩ := trims_eq (styles e) held notional prices
    rw [if_neg some, read, Attempt.ofExcept_ok_bind, sized, loop, Attempt.bind_of_ok rfl, ← entries,
      Attempt.each_of_ok fun b _ => value_submit]

lemma sound_weekly {inFlight : String → ℚ} (distinct : target.Nodup) (funded : ∀ s ∈ target, 0 ≤ notional s)
    (nonneg : ∀ s ∈ target, 0 ≤ style.inFlight s) :
    Sound (wantQty p quote notional) inFlight (traded target (style.change p quote notional)) held ↔
      ∀ s ∈ target, style.Trades p quote notional s (quantity held s) →
        quantity held s < wantQty p quote notional s →
        quantity held s < wantQty p quote notional s - style.inFlight s → inFlight s ≤ style.inFlight s := by
  have settles : ∀ s ∈ target, ∀ cur,
      style.change p quote notional s (cur + style.change p quote notional s cur) = 0 :=
    fun s mem cur => Style.change_settles (nonneg s mem)
  rw [sound_traded distinct settles]
  refine forall₂_congr fun s mem => ?_
  have wanted : style.Trades p quote notional s (quantity held s) → 0 ≤ wantQty p quote notional s := by
    intro ⟨price, priced, pos, _⟩
    rw [wantQty, priced]
    exact targetQty_nonneg (funded s mem) pos
  obtain ⟨none, -, still⟩ | ⟨trades, less, trim⟩ | ⟨trades, more, left, entry⟩ :=
    style.change_cases p quote notional s (quantity held s)
  · rw [none]
    refine ⟨fun _ trades more left => absurd ⟨trades, left, more⟩ still, fun _ => ?_⟩
    exact ⟨fun lt => absurd lt (lt_irrefl _), fun lt => absurd lt (lt_irrefl _)⟩
  · rw [trim]
    refine ⟨fun _ _ more => absurd more (not_lt.2 less.le), fun _ => ⟨fun _ => ?_, fun pos => ?_⟩⟩
    · linarith [wanted trades]
    · linarith
  · rw [entry]
    constructor
    · intro bounded _ _ _
      linarith [bounded.2 (by linarith)]
    · intro netted
      refine ⟨fun neg => ?_, fun _ => ?_⟩
      · linarith
      · linarith [netted trades more left]

end

/-! ## The rule of the low-volatility book -/

namespace LowVolatility

def priced (quote : String → Option ℚ) (target : List String) : List (String × ℚ) :=
  target.filterMap fun s => (quote s).bind fun price => if price ≤ 0 then none else some (s, price)

def perName (p : Params) (quote : String → Option ℚ) (target : List String) (equity : ℚ) : ℚ :=
  min (equity / (priced quote target).length) (equity * p.maxPositionPct)

/-- The quantity that is wanted of a name: none without a price. -/
def wantQty (perName : ℚ) (quote : String → Option ℚ) (sym : String) : ℚ :=
  ((quote sym).map fun price => Rebalance.quantizeQty (perName / price)).getD 0

def rule (p : Params) (perName : ℚ) (inFlight : String → ℚ) (quote : String → Option ℚ) (sym : String) (cur : ℚ) : ℚ :=
  match quote sym with
  | none => 0
  | some price => if price ≤ 0 then 0 else change p perName inFlight sym price cur

/-- A name that is traded: it has a price, and the change is not too small for what is held. -/
def Trades (p : Params) (perName : ℚ) (inFlight : String → ℚ) (quote : String → Option ℚ) (sym : String)
    (cur : ℚ) : Prop :=
  ∃ price, quote sym = some price ∧ 0 < price ∧
    ¬ (0 < cur ∧ |wantQty perName quote sym - cur - inFlight sym| * price < perName * p.minTradePct)

variable {ctx : Ctx} {p : Params} {n : ℚ} {quote : String → Option ℚ} {net : String → ℚ} {held : Dict String ℚ}
  {target : List String} {sym : String} {cur : ℚ}

lemma rule_cases (p : Params) (n : ℚ) (net : String → ℚ) (quote : String → Option ℚ) (sym : String) (cur : ℚ) :
    ¬ Trades p n net quote sym cur ∧ rule p n net quote sym cur = 0 ∨
    Trades p n net quote sym cur ∧ rule p n net quote sym cur = wantQty n quote sym - cur - net sym := by
  cases quoted : quote sym with
  | none =>
    refine .inl ⟨?_, by rw [rule, quoted]⟩
    intro ⟨price, eq, _⟩
    rw [quoted] at eq
    cases eq
  | some price =>
    have want : wantQty n quote sym = Rebalance.quantizeQty (n / price) := by rw [wantQty, quoted]; rfl
    simp only [rule, quoted, change, Trades, want, Option.some.injEq]
    split
    · rename_i none
      refine .inl ⟨?_, rfl⟩
      rintro ⟨price, rfl, pos, -⟩
      exact absurd pos (not_lt.2 none)
    · rename_i some
      split
      · rename_i small
        refine .inl ⟨?_, rfl⟩
        rintro ⟨price, rfl, -, large⟩
        exact large small
      · rename_i large
        exact .inr ⟨⟨price, rfl, not_le.1 some, large⟩, rfl⟩

lemma rule_settles : rule p n net quote sym (cur + rule p n net quote sym cur) = 0 := by
  obtain ⟨-, none⟩ | ⟨-, change⟩ := rule_cases p n net quote sym cur
  · rw [none, add_zero, none]
  · rw [change]
    obtain ⟨-, none⟩ | ⟨-, again⟩ := rule_cases p n net quote sym
      (cur + (wantQty n quote sym - cur - net sym))
    · exact none
    · rw [again]
      ring

lemma pricedTargets_eq (prices : ∀ s ∈ target, ctx.price p.toBookParams s = .ok (quote s)) :
    pricedTargets ctx p target = .ok (priced quote target) := by
  induction target with
  | nil => rfl
  | cons s rest ih =>
    have tail := ih fun s' mem => prices s' (mem_cons_of_mem s mem)
    rw [pricedTargets, prices s mem_cons_self, priced, filterMap_cons]
    cases quote s with
    | none => exact tail
    | some price =>
      by_cases none : price ≤ 0
      · simp only [Option.bind_some, if_pos none]
        exact (if_pos none).trans tail
      · simp only [Option.bind_some, if_neg none]
        refine (if_neg none).trans ?_
        rw [tail]
        rfl

lemma trims_cons {s : String} {price : ℚ} {rest : List (String × ℚ)} :
    trims p n net held ((s, price) :: rest) =
      if change p n net s price (quantity held s) = 0 then trims p n net held rest
      else if change p n net s price (quantity held s) < 0 then do
        submit s .sell (-change p n net s price (quantity held s))
        trims p n net held rest
      else do
        let buys ← trims p n net held rest
        return (s, change p n net s price (quantity held s)) :: buys := rfl

lemma trims_eq (p : Params) (n : ℚ) (net : String → ℚ) (held : Dict String ℚ) (quote : String → Option ℚ)
    (target : List String) : ∃ buys : List Sized, trims p n net held (priced quote target) =
      ⟨target.flatMap fun s => (submit s .sell (-rule p n net quote s (quantity held s))).emitted, .ok buys⟩ ∧
    buys.flatMap (fun b => (submit b.1 .buy b.2).emitted) =
      target.flatMap fun s => (submit s .buy (rule p n net quote s (quantity held s))).emitted := by
  induction target with
  | nil => exact ⟨[], rfl, rfl⟩
  | cons s rest ih =>
    obtain ⟨buys, loop, entries⟩ := ih
    rw [flatMap_cons, flatMap_cons, ← entries, priced, filterMap_cons]
    -- a name that is left alone submits nothing, in either direction
    have alone (none : rule p n net quote s (quantity held s) = 0) :
        (submit s .sell (-rule p n net quote s (quantity held s))).emitted = [] ∧
          (submit s .buy (rule p n net quote s (quantity held s))).emitted = [] := by
      rw [none, neg_zero]
      exact ⟨rfl, rfl⟩
    cases quoted : quote s with
    | none =>
      have none : rule p n net quote s (quantity held s) = 0 := by rw [rule, quoted]
      rw [(alone none).1, (alone none).2]
      exact ⟨buys, loop, rfl⟩
    | some price =>
      by_cases unpriced : price ≤ 0
      · have none : rule p n net quote s (quantity held s) = 0 := by rw [rule, quoted]; exact if_pos unpriced
        rw [(alone none).1, (alone none).2]
        simp only [Option.bind_some, if_pos unpriced]
        exact ⟨buys, loop, rfl⟩
      · have changed : rule p n net quote s (quantity held s) = change p n net s price (quantity held s) := by
          rw [rule, quoted]
          exact if_neg unpriced
        simp only [Option.bind_some, if_neg unpriced]
        rw [trims_cons, ← changed]
        by_cases none : rule p n net quote s (quantity held s) = 0
        · rw [if_pos none, (alone none).1, (alone none).2]
          exact ⟨buys, loop, rfl⟩
        · rw [if_neg none]
          by_cases trim : rule p n net quote s (quantity held s) < 0
          · rw [if_pos trim, emitted_submit_of_nonpos trim.le, Attempt.bind_of_ok value_submit]
            refine ⟨buys, ?_, rfl⟩
            rw [priced] at loop
            rw [loop]
          · rw [if_neg trim, emitted_submit_of_nonpos (neg_nonpos.2 (not_lt.1 trim))]
            refine ⟨(s, rule p n net quote s (quantity held s)) :: buys, ?_, flatMap_cons⟩
            rw [priced] at loop
            rw [loop, Attempt.bind_of_ok rfl]
            simp only [Attempt.emitted_pure, Attempt.value_pure, append_nil, nil_append]

lemma applyTargets_eq {N : Numerics} {pendingBuys : Except String (String → ℚ)} {e : ℚ}
    (prices : ∀ s ∈ target, ctx.price p.toBookParams s = .ok (quote s)) (read : investableEquity N ctx p = .ok e) :
    (applyTargets N ctx p pendingBuys held target).emitted =
      traded target (rule p (perName p quote target e) (pendingBuys.toOption.getD fun _ => 0) quote) held := by
  have ended : (exits held target).value = .ok () := by rw [exits_eq]
  rw [applyTargets, Attempt.bind_of_ok ended, traded, append_assoc]
  obtain ⟨buys, loop, entries⟩ := trims_eq p (perName p quote target e) (pendingBuys.toOption.getD fun _ => 0) held
    quote target
  cases target with
  | nil => rfl
  | cons s rest =>
    rw [if_neg (cons_ne_nil s rest), pricedTargets_eq prices, Attempt.ofExcept_ok_bind, ← entries]
    by_cases none : priced quote (s :: rest) = []
    · rw [none] at loop
      injection loop with flat same
      injection same with same
      rw [if_pos none, ← flat, ← same]
      rfl
    · rw [if_neg none, read, Attempt.ofExcept_ok_bind]
      dsimp only
      rw [← perName, loop, Attempt.bind_of_ok rfl, Attempt.each_of_ok fun b _ => value_submit]

lemma sound_rule {inFlight : String → ℚ} (distinct : target.Nodup) :
    Sound (wantQty n quote) inFlight (traded target (rule p n net quote)) held ↔
      ∀ s ∈ target, Trades p n net quote s (quantity held s) →
        (wantQty n quote s < quantity held s + net s → net s ≤ wantQty n quote s) ∧
        (quantity held s + net s < wantQty n quote s → inFlight s ≤ net s) := by
  have settles : ∀ s ∈ target, ∀ cur, rule p n net quote s (cur + rule p n net quote s cur) = 0 :=
    fun s mem cur => rule_settles
  rw [sound_traded distinct settles]
  refine forall₂_congr fun s mem => ?_
  obtain ⟨still, none⟩ | ⟨trades, change⟩ := rule_cases p n net quote s (quantity held s)
  · rw [none]
    refine ⟨fun _ trades => absurd trades still, fun _ => ?_⟩
    exact ⟨fun lt => absurd lt (lt_irrefl _), fun lt => absurd lt (lt_irrefl _)⟩
  · rw [change]
    constructor
    · intro bounded _
      refine ⟨fun less => ?_, fun more => ?_⟩
      · linarith [bounded.1 (by linarith)]
      · linarith [bounded.2 (by linarith)]
    · intro netted
      refine ⟨fun neg => ?_, fun pos => ?_⟩
      · linarith [(netted trades).1 (by linarith)]
      · linarith [(netted trades).2 (by linarith)]

end LowVolatility

/-! ## The four books -/

namespace CombinedBookV13
variable {target : Weights}

/-- Python `_apply_targets`. -/
def applyTargets (ctx : Ctx) (p : Params) (held : Dict String ℚ) (target : Weights) : Tick Unit :=
  Weekly.applyTargets ctx p.toBookParams held ((wanted target).map (·.1))
    ((edition p).equity (investableBase ctx p.toBookParams))
    (fun equity => ((wanted target).mergeSort fun e e' => e.1 ≤ e'.1).map fun e =>
      (e.1, (edition p).notional equity e.2))
    (edition p).style

def names (target : Weights) : List String := ((wanted target).mergeSort fun e e' => e.1 ≤ e'.1).map (·.1)

def notional (target : Weights) (equity : ℚ) (sym : String) : ℚ := equity * (target.get sym).getD 0

lemma nodup_names : (names target).Nodup := by
  have keys : ((wanted target).map (·.1)).Nodup := target.nodup.sublist (filter_sublist.map _)
  exact (((wanted target).mergeSort_perm _).map _).nodup_iff.2 keys

lemma weight_of_mem {e : Sized} (mem : e ∈ (wanted target).mergeSort fun e e' => e.1 ≤ e'.1) :
    target.get e.1 = some e.2 ∧ 0 < e.2 := by
  obtain ⟨entry, pos⟩ := mem_filter.1 (mem_mergeSort.1 mem)
  exact ⟨get_of_mem_entries entry, of_decide_eq_true pos⟩

lemma notional_nonneg {equity : ℚ} (funded : 0 ≤ equity) {sym : String} (mem : sym ∈ names target) :
    0 ≤ notional target equity sym := by
  obtain ⟨entry, sorted, rfl⟩ := mem_map.1 mem
  obtain ⟨weight, pos⟩ := weight_of_mem sorted
  rw [notional, weight]
  exact mul_nonneg funded pos.le

lemma applyTargets_emitted {ctx : Ctx} {p : Params} {held : Dict String ℚ} {e : ℚ}
    {quote : String → Option ℚ} (prices : ∀ s ∈ names target, ctx.price p.toBookParams s = .ok (quote s))
    (read : (edition p).equity (investableBase ctx p.toBookParams) = .ok e) :
    (applyTargets ctx p held target).emitted =
      traded (names target) (((edition p).style e).change p.toBookParams quote (notional target e)) held := by
  refine applyTargets_eq prices read ?_ ?_
  · rw [names, map_map]
    apply map_congr_left
    intro entry mem
    rw [Function.comp_apply, notional, (weight_of_mem mem).1]
    rfl
  · intro s
    exact (((wanted target).mergeSort_perm _).map _).mem_iff.symm

end CombinedBookV13

def thresholded (minTradePct : ℚ) : Style where
  small cur price delta notional := 0 < cur ∧ |delta| * price < notional * minTradePct

lemma perName_nonneg {maxPositionPct e : ℚ} {target : List String} (funded : 0 ≤ e) (cap : 0 ≤ maxPositionPct) :
    0 ≤ MomentumPortfolio.perName maxPositionPct e target :=
  le_min (div_nonneg funded (Nat.cast_nonneg _)) (mul_nonneg funded cap)

/-- The trade of the momentum portfolio is sound; that of the others is where no name that is bought, or trimmed in the
low-volatility book, is on its way. -/
theorem sound_iff (N : Numerics) (ctx : Ctx) (held : Dict String ℚ) (quote : String → Option ℚ) (e : ℚ)
    (funded : 0 ≤ e) (pending : ∀ s, 0 ≤ ctx.pendingBuyQty s) (target : List String) (distinct : target.Nodup) :
    (∀ (p : MomentumPortfolio.Params) regimeGross, 0 ≤ p.maxPositionPct →
      (∀ s ∈ target, ctx.price p.toBookParams s = .ok (quote s)) →
      MomentumPortfolio.investableEquity N ctx p regimeGross = .ok e →
      Sound (wantQty p.toBookParams quote fun _ => MomentumPortfolio.perName p.maxPositionPct e target)
        (fun s => ctx.pendingBuyQty (upper s))
        (fun held => (MomentumPortfolio.applyTargets N ctx p regimeGross held target).emitted) held) ∧
    (∀ p : SectorRotation.Params, 0 ≤ p.maxPositionPct →
      (∀ s ∈ target, ctx.price p.toBookParams s = .ok (quote s)) →
      SectorRotation.investableEquity N ctx p = .ok e →
      (Sound (wantQty p.toBookParams quote fun _ => MomentumPortfolio.perName p.maxPositionPct e target)
          (fun s => ctx.pendingBuyQty (upper s))
          (fun held => (SectorRotation.applyTargets N ctx p held target).emitted) held ↔
        ∀ s ∈ target,
          (thresholded p.minTradePct).Trades p.toBookParams quote
            (fun _ => MomentumPortfolio.perName p.maxPositionPct e target) s (quantity held s) →
          quantity held s <
            wantQty p.toBookParams quote (fun _ => MomentumPortfolio.perName p.maxPositionPct e target) s →
          ctx.pendingBuyQty (upper s) = 0)) ∧
    (∀ (p : CombinedBookV13.Params) (weights : Weights),
      (∀ s ∈ CombinedBookV13.names weights, ctx.price p.toBookParams s = .ok (quote s)) →
      (CombinedBookV13.edition p).equity (investableBase ctx p.toBookParams) = .ok e →
      (Sound (wantQty p.toBookParams quote (CombinedBookV13.notional weights e))
          (fun s => ctx.pendingBuyQty (upper s))
          (fun held => (CombinedBookV13.applyTargets ctx p held weights).emitted) held ↔
        ∀ s ∈ CombinedBookV13.names weights,
          ((CombinedBookV13.edition p).style e).Trades p.toBookParams quote (CombinedBookV13.notional weights e) s
            (quantity held s) →
          quantity held s < wantQty p.toBookParams quote (CombinedBookV13.notional weights e) s →
          ctx.pendingBuyQty (upper s) = 0)) ∧
    ∀ (p : LowVolatility.Params) (pendingBuys : Except String (String → ℚ)) (inFlight : String → ℚ),
      (∀ s ∈ target, ctx.price p.toBookParams s = .ok (quote s)) →
      LowVolatility.investableEquity N ctx p = .ok e →
      (Sound (LowVolatility.wantQty (LowVolatility.perName p quote target e) quote) inFlight
          (fun held => (LowVolatility.applyTargets N ctx p pendingBuys held target).emitted) held ↔
        ∀ s ∈ target,
          LowVolatility.Trades p (LowVolatility.perName p quote target e) (pendingBuys.toOption.getD fun _ => 0) quote s
            (quantity held s) →
          (LowVolatility.wantQty (LowVolatility.perName p quote target e) quote s <
              quantity held s + (pendingBuys.toOption.getD fun _ => 0) s →
            (pendingBuys.toOption.getD fun _ => 0) s ≤
              LowVolatility.wantQty (LowVolatility.perName p quote target e) quote s) ∧
          (quantity held s + (pendingBuys.toOption.getD fun _ => 0) s <
              LowVolatility.wantQty (LowVolatility.perName p quote target e) quote s →
            inFlight s ≤ (pendingBuys.toOption.getD fun _ => 0) s)) := by
  -- without a subtraction, what is left to buy is what is less than wanted
  have unnetted (style : Style) (p : BookParams) (notional : String → ℚ) (names : List String)
      (plain : style.inFlight = fun _ => 0) (unique : names.Nodup) (sized : ∀ s ∈ names, 0 ≤ notional s) :
      Sound (wantQty p quote notional) (fun s => ctx.pendingBuyQty (upper s))
          (traded names (style.change p quote notional)) held ↔
        ∀ s ∈ names, style.Trades p quote notional s (quantity held s) →
          quantity held s < wantQty p quote notional s → ctx.pendingBuyQty (upper s) = 0 := by
    rw [sound_weekly unique sized fun s _ => by rw [plain]]
    simp only [plain, sub_zero]
    refine forall₂_congr fun s _ => forall_congr' fun _ => ?_
    constructor
    · exact fun netted more => le_antisymm (netted more more) (pending _)
    · exact fun none more _ => (none more).le
  refine ⟨?_, ?_, ?_, ?_⟩
  · intro p regimeGross cap prices read
    have trade : (fun held => (MomentumPortfolio.applyTargets N ctx p regimeGross held target).emitted) = _ :=
      funext fun held => applyTargets_eq prices read rfl fun _ => Iff.rfl
    rw [trade, sound_weekly distinct (fun _ _ => perName_nonneg funded cap) fun s _ => pending _]
    exact fun s _ _ _ _ => le_refl _
  · intro p cap prices read
    have trade : (fun held => (SectorRotation.applyTargets N ctx p held target).emitted) =
        traded target ((thresholded p.minTradePct).change p.toBookParams quote
          fun _ => MomentumPortfolio.perName p.maxPositionPct e target) :=
      funext fun held => applyTargets_eq prices read rfl fun _ => Iff.rfl
    rw [trade]
    exact unnetted _ _ _ _ rfl distinct fun _ _ => perName_nonneg funded cap
  · intro p weights prices read
    have trade : (fun held => (CombinedBookV13.applyTargets ctx p held weights).emitted) = _ :=
      funext fun held => CombinedBookV13.applyTargets_emitted prices read
    rw [trade]
    exact unnetted _ _ _ _ rfl CombinedBookV13.nodup_names fun s mem => CombinedBookV13.notional_nonneg funded mem
  · intro p pendingBuys inFlight prices read
    have trade : (fun held => (LowVolatility.applyTargets N ctx p pendingBuys held target).emitted) = _ :=
      funext fun held => LowVolatility.applyTargets_eq prices read
    rw [trade]
    exact LowVolatility.sound_rule distinct

def oneName (pending : ℚ) : Ctx where
  symbols := ["A"]
  momentumScores _ _ _ := .ok []
  sectors _ := .ok fun _ => none
  getRecentBars _ _ _ := .ok (some [⟨0, 100⟩])
  getPositionFor _ := none
  getAccountEquity := .ok (some 1000)
  pendingBuyQty s := if s = "A" then pending else 0

def unread : Numerics := ⟨id, fun _ _ => none, fun _ => none, fun _ _ => 0, fun _ => 0, .stable⟩

theorem sound_iff_oneName :
    Sound (wantQty ({} : MomentumPortfolio.Params).toBookParams (fun _ => some 100) fun _ => 98)
        (fun s => (oneName 2).pendingBuyQty (upper s))
        (fun held => (MomentumPortfolio.applyTargets unread (oneName 2) {} 1 held ["A"]).emitted) Dict.empty := by
  have cap : MomentumPortfolio.perName ({} : MomentumPortfolio.Params).maxPositionPct 980 ["A"] = 98 := by
    norm_num [MomentumPortfolio.perName]
  rw [← cap]
  refine (sound_iff _ (oneName 2) Dict.empty (fun _ => some 100) 980 (by norm_num) ?_ ["A"] (by simp)).1 {} 1
    (by norm_num) (fun _ _ => rfl) ?_
  · intro s
    rw [oneName]
    dsimp only
    split
    · norm_num
    · exact le_rfl
  · decide +kernel

/-- With two shares on their way, the low-volatility book sells what it does not hold, and the sector rotation buys
again. -/
theorem trades_against_in_flight :
    ¬ Sound (LowVolatility.wantQty 98 fun _ => some 100) (oneName 2).pendingBuyQty
        (fun held => (LowVolatility.applyTargets unread (oneName 2) {} (.ok (oneName 2).pendingBuyQty) held
          ["A"]).emitted) Dict.empty ∧
      ¬ Sound (wantQty ({} : SectorRotation.Params).toBookParams (fun _ => some 100) fun _ => 98)
        (fun s => (oneName 2).pendingBuyQty (upper s))
        (fun held => (SectorRotation.applyTargets unread (oneName 2) {} held ["A"]).emitted) Dict.empty := by
  constructor
  · intro sound
    have covered := sound.2.1 ⟨"A", .sell, 102 / 100⟩ (by decide +kernel) rfl
    norm_num [quantity] at covered
  · intro sound
    have left := sound.2.2.1 ⟨"A", .buy, 98 / 100⟩ (by decide +kernel) rfl
    have want : wantQty ({} : SectorRotation.Params).toBookParams (fun _ => some 100) (fun _ => 98) "A" = 98 / 100 := by
      decide +kernel
    have pending : (oneName 2).pendingBuyQty (upper "A") = 2 := by decide +kernel
    dsimp only at left
    rw [want, pending] at left
    norm_num [quantity] at left

end Workbench.Templates.Weekly
