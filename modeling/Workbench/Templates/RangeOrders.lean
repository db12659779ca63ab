import Workbench.Templates.RangeProtection

/-!
# The range trader's orders

No order of the range trader is doubled (`range_orders_single`): what is left of its live SELLs is covered by the
position, at most one BUY is live and none beside a SELL, the entries of a day are bounded, and none is made after the
range is broken. This holds of the runs in which the bars come one at a time and in order, and a call that reads the
position finds a row that does not show more than is held, and a live order that is still flagged.
-/

set_option linter.dupNamespace false

namespace Workbench.Templates
open Workbench.Lib List Function Option Table Record

variable {p : RangeParams}

def Order.sells (o : Order) : Bool := o.live && o.side == .sell

def Order.buys (o : Order) : Bool := o.live && o.side == .buy

/-- No order is doubled. -/
structure NoDoubling (p : RangeParams) (s : Desk) : Prop where
  covered : Table.total Order.remaining (s.orders.filter Order.sells) ≤ s.held
  one_buy : ∀ (i j : Nat) (o o' : Order), s.orders[i]? = some o → s.orders[j]? = some o' → o.buys = true →
    o'.buys = true → i = j
  apart : ¬ (s.orders.any Order.buys = true ∧ s.orders.any Order.sells = true)
  entries : ∀ day, s.log.count (.accepted day) ≤ p.maxTradesPerDay
  halted : Record.Each (fun e earlier => ∀ day, e = .entered day → .broken day ∉ earlier) s.log

/-- What a call that reads the position finds: a row that does not show more than is held, and no live order but one
    that no `on_fill` and no new day has unbooked, that is no scale-out, and that sells exactly when the row is
    long. -/
def Desk.Plain (s : Desk) : Prop :=
  (inLong s.row = true → rowQty s.row ≤ s.held) ∧
    ∀ o ∈ s.orders, o.live = true → o.calm = true ∧ o.reason ≠ .scaleOut ∧ (o.side = .sell ↔ inLong s.row = true)

/-- The condition on a run of one instance; a call is not cut short before it has booked an accepted order. -/
def Clear (s : Desk) : RangeLabel → Prop
  | .reinstantiate => False
  | .begin bar => s.InOrder bar
  | .read _ => s.Plain
  | .fail call => ∀ c ∈ s.calls[call]?, ∀ epoch bar reason i due, c ≠ .logging epoch bar reason (some i) due
  | _ => True

/-! ## What a decision depends on -/

def Reason.flag : Reason → Option Pending
  | .timeExit | .stopLoss | .rangeExit => some .exit
  | .scaleOut => none
  | .rangeEntry => some .entry

def SymState.core (st : SymState) : Option Nat × Nat × Bool × Option Pending :=
  (st.tradeDay, st.tradesToday, st.stoppedToday, st.pending)

section
variable {st : SymState} {equity : ℚ} {bar : Bar} {lv : Levels} {row : Option PositionRow} {long : Bool}
  {side : OrderSide} {qty : ℚ} {reason : Reason}

lemma core_resolveLevels : (resolveLevels p bar (st.updateVwap bar)).2.core = st.core := by
  rw [resolveLevels]
  split
  · rfl
  · split
    · rfl
    · rfl

lemma order_eq_submit {side' : OrderSide} {qty' : ℚ} {reason' : Reason}
    (eq : order side qty reason = .submit side' qty' reason') : side' = side ∧ qty' = qty ∧ reason' = reason := by
  rw [order] at eq
  split at eq
  · cases eq
  · cases eq
    exact ⟨rfl, rfl, rfl⟩

/-- Reading the position keeps the count, and does not forget that the range is broken. -/
structure Reads (p : RangeParams) (bar : Bar) (lv : Levels) (row : Option PositionRow) (st st' : SymState) : Prop where
  tradeDay : st'.tradeDay = st.tradeDay
  tradesToday : st'.tradesToday = st.tradesToday
  pending : st'.pending = (st.reconcile (inLong row)).pending
  stopped : st.stoppedToday = true → st'.stoppedToday = true
  broken : inLong row = true → 0 < lv.stop → bar.c ≤ lv.stop → st'.stoppedToday = true ∨ closeCutoff p ≤ bar.tod

lemma reads_reconcile (safe : ¬ (inLong row = true ∧ 0 < lv.stop ∧ bar.c ≤ lv.stop) ∨ closeCutoff p ≤ bar.tod) :
    Reads p bar lv row st (st.reconcile (inLong row)) := by
  constructor
  case pending => rfl
  case broken =>
    intro is_long positive reached
    exact Or.inr (safe.resolve_left fun not => not ⟨is_long, positive, reached⟩)
  all_goals
    rw [SymState.reconcile]
    split <;> simp

lemma reads_enter (safe : ¬ (inLong row = true ∧ 0 < lv.stop ∧ bar.c ≤ lv.stop)) :
    Reads p bar lv row st (enter p equity (st.reconcile (inLong row)) bar lv).2 := by
  have plain : Reads p bar lv row st (st.reconcile (inLong row)) := reads_reconcile (Or.inl safe)
  rw [enter]
  repeat' split
  all_goals first
    | exact plain
    | exact ⟨plain.tradeDay, plain.tradesToday, plain.pending, plain.stopped, plain.broken⟩
    | exact ⟨plain.tradeDay, plain.tradesToday, plain.pending, fun _ => rfl, fun _ _ _ => Or.inl rfl⟩

lemma reads_onPosition : Reads p bar lv row st (onPosition p equity st bar lv row).2 := by
  rw [onPosition]
  split
  · rename_i late
    exact reads_reconcile (Or.inr late)
  · split
    · constructor
      case pending => rfl
      case stopped => exact fun _ => rfl
      case broken => exact fun _ _ _ => Or.inl rfl
      all_goals
        rw [SymState.reconcile]
        split <;> rfl
    · rename_i safe
      repeat' split
      all_goals first
        | exact reads_reconcile (Or.inl safe)
        | exact reads_enter safe

/-- What is submitted: a long position, at most, without a flagged exit; or an entry without a position, without a
    flag, on a day whose range holds and whose entries are not used up, before the close. -/
def Submits (p : RangeParams) (bar : Bar) (row : Option PositionRow) (st : SymState) (side : OrderSide) (qty : ℚ)
    (reason : Reason) : Prop :=
  side = .sell ∧ reason ≠ .rangeEntry ∧ inLong row = true ∧ (st.reconcile true).pending ≠ some .exit ∧
      qty ≤ rowQty row ∨
    side = .buy ∧ reason = .rangeEntry ∧ inLong row = false ∧ (st.reconcile false).pending = none ∧
      st.stoppedToday = false ∧ bar.tod < closeCutoff p ∧ st.tradesToday < p.maxTradesPerDay

lemma enter_submit (eq : (enter p equity st bar lv).1 = .submit side qty reason) :
    side = .buy ∧ reason = .rangeEntry ∧ st.stoppedToday = false ∧ st.tradesToday < p.maxTradesPerDay := by
  rw [enter] at eq
  repeat' split at eq
  all_goals first
    | cases eq
    | skip
  · rename_i running _ room
    obtain ⟨rfl, -, rfl⟩ := order_eq_submit eq
    exact ⟨rfl, rfl, Bool.eq_false_iff.2 running, Nat.not_le.1 room⟩

lemma reconcile_stopped : (st.reconcile long).stoppedToday = st.stoppedToday := by
  rw [SymState.reconcile]
  split <;> rfl

lemma reconcile_tradesToday : (st.reconcile long).tradesToday = st.tradesToday := by
  rw [SymState.reconcile]
  split <;> rfl

lemma scale_le (is_long : inLong row = true) (below : p.scaleOutPct < 1) :
    (⌊rowQty row * p.scaleOutPct⌋ : ℚ) ≤ rowQty row := by
  have positive : 0 < rowQty row := by
    cases row with
    | none => cases is_long
    | some r => exact of_decide_eq_true (Bool.and_eq_true_iff.1 is_long).2
  calc (⌊rowQty row * p.scaleOutPct⌋ : ℚ)
      ≤ rowQty row * p.scaleOutPct := Int.floor_le _
    _ ≤ rowQty row * 1 := mul_le_mul_of_nonneg_left below.le positive.le
    _ = rowQty row := mul_one _

lemma sells_submit (is_long : inLong row = true) (free : (st.reconcile true).pending ≠ some .exit) {qty' : ℚ}
    {reason' : Reason} (le : qty' ≤ rowQty row) (kind : reason' ≠ .rangeEntry)
    (eq : order .sell qty' reason' = .submit side qty reason) : Submits p bar row st side qty reason := by
  obtain ⟨rfl, rfl, rfl⟩ := order_eq_submit eq
  exact Or.inl ⟨rfl, kind, is_long, free, le⟩

lemma onPosition_submit (eq : (onPosition p equity st bar lv row).1 = .submit side qty reason) :
    Submits p bar row st side qty reason := by
  rw [onPosition] at eq
  cases is_long : inLong row with
  | true =>
    simp only [is_long, true_and, true_or, if_true] at eq
    split at eq
    · split at eq
      · rename_i free
        exact sells_submit is_long free le_rfl (by decide) eq
      · cases eq
    · split at eq
      · dsimp only at eq
        split at eq
        · cases eq
        · rename_i free
          exact sells_submit is_long free le_rfl (by decide) eq
      · split at eq
        · dsimp only at eq
          split at eq
          · cases eq
          · rename_i free
            exact sells_submit is_long free le_rfl (by decide) eq
        · split at eq
          · rename_i scale
            exact sells_submit is_long scale.2.1 (scale_le is_long scale.2.2.2.1) (by decide) eq
          · split at eq
            · cases eq
            · cases eq
  | false =>
    simp only [is_long, Bool.false_eq_true, false_and, false_or, if_false] at eq
    split at eq
    · cases eq
    · rename_i early
      split at eq
      · cases eq
      · split at eq
        · cases eq
        · rename_i free
          obtain ⟨buys, kind, running, room⟩ := enter_submit eq
          rw [reconcile_stopped] at running
          rw [reconcile_tradesToday] at room
          exact Or.inr ⟨buys, kind, is_long, not_not.1 free, running, Nat.not_le.1 early, room⟩

end

/-! ## The invariant -/

/-- Whether a call has an accepted entry to count. -/
def Call.uncounted : Call → Bool
  | .logging _ _ .rangeEntry (some _) _ => true
  | _ => false

/-- Whether a call has an accepted order to book. -/
def Call.books : Call → Bool
  | .logging _ _ _ (some _) _ => true
  | _ => false

/-- At most one order is live, and a live SELL is covered by what is held. -/
structure Lone (orders : List Order) (held : ℚ) : Prop where
  nonneg : 0 ≤ held
  single : ∀ (i j : Nat) (o o' : Order), orders[i]? = some o → orders[j]? = some o' → o.live = true → o'.live = true →
    i = j
  covered : ∀ o ∈ orders, o.sells = true → o.remaining ≤ held
  kind : ∀ o ∈ orders, o.side = .buy ↔ o.reason = .rangeEntry

def Desk.flag (s : Desk) : Option Pending := (s.sym s.epoch).bind (·.pending)

def Desk.trades (s : Desk) : Option Nat := (s.sym s.epoch).map (·.tradesToday)

/-- What holds of a call: it works on the last bar, and an order that it submits is alone and covered. -/
def Call.Right (p : RangeParams) (s : Desk) : Call → Prop
  | .ended | .explaining _ => True
  | .equity epoch bar | .emitting epoch bar _ | .reading epoch bar _ => s.bars.head? = some (epoch, bar)
  | .logging epoch bar reason _ _ =>
    s.bars.head? = some (epoch, bar) ∧ ∀ o ∈ s.orders, o.live = true → o.reason = reason
  | .submitting epoch bar side qty reason _ =>
    s.bars.head? = some (epoch, bar) ∧ (∀ o ∈ s.orders, o.live = false) ∧ (side = .buy ↔ reason = .rangeEntry) ∧
      (side = .sell → qty ≤ s.held) ∧ (side = .buy → ∀ n ∈ s.trades, n < p.maxTradesPerDay)

/-- A state counts the entries of the day of the last bar, and knows whether the range is broken. -/
structure Counts (p : RangeParams) (log : List Happened) (uncounted : Bool) (b : Nat × Bar) (st : SymState) :
    Prop where
  day : st.tradeDay = some b.2.day
  entries : log.count (.accepted b.2.day) = st.tradesToday + uncounted.toNat
  halted : Happened.broken b.2.day ∈ log → st.stoppedToday = true ∨ closeCutoff p ≤ b.2.tod

/-- The invariant of the trader that doubles no order. -/
structure Orderly (p : RangeParams) (s : Desk) : Prop where
  alone : Alone s.calls
  sorted : Sorted s.bars
  calls : ∀ (i : Nat) (c : Call), s.calls[i]? = some c → c.Right p s
  orders : Lone s.orders s.held
  flagged : ∀ (i : Nat) (o : Order), s.orders[i]? = some o → o.live = true → o.calm = true → o.reason ≠ .scaleOut →
    s.flag = o.reason.flag ∨ s.calls.any Call.books = true
  start : s.bars = [] → s.sym s.epoch = none
  state : ∀ b ∈ s.bars.head?, b.1 = s.epoch ∧
    ∃ st, s.sym s.epoch = some st ∧ Counts p s.log (s.calls.any Call.uncounted) b st
  seen : ∀ day, .accepted day ∈ s.log ∨ .broken day ∈ s.log → ∃ b ∈ s.bars, b.2.day = day
  entries : ∀ day, s.log.count (.accepted day) ≤ p.maxTradesPerDay
  halted : Record.Each (fun e earlier => ∀ day, e = .entered day → .broken day ∉ earlier) s.log

lemma Lone.total {orders : List Order} {held : ℚ} (h : Lone orders held) :
    Table.total Order.remaining (orders.filter Order.sells) ≤ held := by
  rw [total_filter]
  cases some_sells : orders.any Order.sells with
  | true =>
    obtain ⟨o, mem, sells⟩ := any_eq_true.1 some_sells
    obtain ⟨i, get⟩ := mem_iff_getElem?.1 mem
    rw [total_single get, if_pos sells]
    · exact h.covered o mem sells
    · intro j o' get' ne
      refine if_neg fun sells' => ne ?_
      exact h.single j i o' o get' get (Bool.and_eq_true_iff.1 sells').1 (Bool.and_eq_true_iff.1 sells).1
  | false =>
    have none_sells := any_eq_false.1 some_sells
    have zero : Table.total (fun o => if o.sells = true then o.remaining else 0) orders =
        Table.total (fun _ => 0) orders :=
      total_congr fun o mem => if_neg (none_sells o mem)
    rw [zero]
    simpa [Table.total] using h.nonneg

lemma Orderly.noDoubling {s : Desk} (h : Orderly p s) : NoDoubling p s where
  covered := h.orders.total
  one_buy := fun i j o o' get get' buys buys' =>
    h.orders.single i j o o' get get' (Bool.and_eq_true_iff.1 buys).1 (Bool.and_eq_true_iff.1 buys').1
  apart := by
    intro both
    obtain ⟨o, mem, buys⟩ := any_eq_true.1 both.1
    obtain ⟨o', mem', sells⟩ := any_eq_true.1 both.2
    obtain ⟨i, get⟩ := mem_iff_getElem?.1 mem
    obtain ⟨j, get'⟩ := mem_iff_getElem?.1 mem'
    have buy := Bool.and_eq_true_iff.1 buys
    have sell := Bool.and_eq_true_iff.1 sells
    obtain rfl := h.orders.single i j o o' get get' buy.1 sell.1
    obtain rfl := some.inj (get.symm.trans get')
    rw [eq_of_beq buy.2] at sell
    exact absurd sell.2 (by decide)
  entries := h.entries
  halted := h.halted

/-! ## Steps of a call -/

section
variable {s t : Desk} {i epoch : Nat} {c x : Call} {bar : Bar} {st st' : SymState}
variable {orders : List Order} {held : ℚ}

lemma same_orders : ∀ o ∈ s.orders, o.live = true → ∃ o' ∈ s.orders, o'.live = true ∧ o'.reason = o.reason :=
  fun o mem live => ⟨o, mem, live, rfl⟩

lemma Call.Right.mono (h : c.Right p s) (bars : t.bars = s.bars)
    (live : ∀ o ∈ t.orders, o.live = true → ∃ o' ∈ s.orders, o'.live = true ∧ o'.reason = o.reason)
      (held : t.held = s.held) (trades : t.trades = s.trades) : c.Right p t := by
  cases c with
  | ended | explaining => trivial
  | equity | emitting | reading => exact (congrArg List.head? bars).trans h
  | logging epoch bar reason accepted due =>
    refine ⟨(congrArg List.head? bars).trans h.1, ?_⟩
    intro o mem alive
    obtain ⟨o', mem', alive', same⟩ := live o mem alive
    exact same.symm.trans (h.2 o' mem' alive')
  | submitting epoch bar side qty reason due =>
    obtain ⟨head, none_live, kind, sell, buy⟩ := h
    have none_live' : ∀ o ∈ t.orders, o.live = false := by
      intro o mem
      rw [Bool.eq_false_iff]
      intro alive
      obtain ⟨o', mem', alive', -⟩ := live o mem alive
      rw [none_live o' mem'] at alive'
      cases alive'
    exact ⟨(congrArg List.head? bars).trans head, none_live', kind, by rw [held]; exact sell, by rw [trades]; exact buy⟩

lemma Orderly.epoch_eq (h : Orderly p s) (head : s.bars.head? = some (epoch, bar)) : epoch = s.epoch :=
  (h.state _ head).1

lemma Orderly.counts (h : Orderly p s) (head : s.bars.head? = some (epoch, bar)) (at_e : s.sym epoch = some st) :
    Counts p s.log (s.calls.any Call.uncounted) (epoch, bar) st := by
  obtain ⟨own, x, at_x, counts⟩ := h.state _ head
  obtain rfl : epoch = s.epoch := own
  obtain rfl := some.inj (at_e.symm.trans at_x)
  exact counts

lemma Orderly.setCall (h : Orderly p s) (get : s.calls[i]? = some c) (active : c ≠ .ended)
    (counted : c.uncounted = false) (unbooked : c.books = false)
    (counted' : x.uncounted = false) (right : x.Right p s) : Orderly p (s.setCall i x) where
  alone := h.alone.set get active
  sorted := h.sorted
  calls := by
    intro j d get_j
    rcases h.alone.others get active d (mem_of_getElem? get_j) with rfl | rfl
    · exact right.mono rfl same_orders rfl rfl
    · trivial
  orders := h.orders
  flagged := by
    intro j o get_j live calm kind
    rcases h.flagged j o get_j live calm kind with flag | flags
    · exact Or.inl flag
    · rw [h.alone.any get active rfl, unbooked] at flags
      cases flags
  start := h.start
  state := by
    intro b head
    obtain ⟨own, st, at_e, counts⟩ := h.state b head
    rw [h.alone.any get active rfl, counted] at counts
    refine ⟨own, st, at_e, ?_⟩
    rw [Desk.setCall, h.alone.any_set get active rfl, counted']
    exact counts
  seen := h.seen
  entries := h.entries
  halted := h.halted

lemma Orderly.setSym (h : Orderly p s) (at_e : s.sym s.epoch = some st) (day : st'.tradeDay = st.tradeDay)
    (trades : st'.tradesToday = st.tradesToday) (stopped : st.stoppedToday = true → st'.stoppedToday = true)
    (kept : ∀ o ∈ s.orders, o.live = true → o.calm = true → o.reason ≠ .scaleOut → st.pending = o.reason.flag →
      st'.pending = o.reason.flag) : Orderly p (s.setSym s.epoch st') := by
  have at_e' : (s.setSym s.epoch st').sym s.epoch = some st' := update_self _ _ _
  have same : (s.setSym s.epoch st').trades = s.trades := by
    have after : (s.setSym s.epoch st').trades = some st'.tradesToday := congrArg (Option.map _) at_e'
    have before : s.trades = some st.tradesToday := congrArg (Option.map _) at_e
    rw [after, before, trades]
  constructor
  case alone => exact h.alone
  case sorted => exact h.sorted
  case calls => exact fun j c get => (h.calls j c get).mono rfl same_orders rfl same
  case orders => exact h.orders
  case flagged =>
    intro j o get live calm kind
    rcases h.flagged j o get live calm kind with flag | flags
    · have before : st.pending = o.reason.flag := (congrArg (Option.bind · _) at_e).symm.trans flag
      have after := kept o (mem_of_getElem? get) live calm kind before
      exact Or.inl ((congrArg (Option.bind · _) at_e').trans after)
    · exact Or.inr flags
  case start =>
    intro no_bar
    exact absurd (at_e.symm.trans (h.start no_bar)) (by simp)
  case state =>
    intro b head
    obtain ⟨own, x, at_x, counts⟩ := h.state b head
    obtain rfl := some.inj (at_e.symm.trans at_x)
    refine ⟨own, st', at_e', day.trans counts.day, ?_, ?_⟩
    · rw [trades]
      exact counts.entries
    · intro broken
      exact (counts.halted broken).imp_left stopped
  case seen => exact h.seen
  case entries => exact h.entries
  case halted => exact h.halted

lemma Orderly.record {e : Happened} (h : Orderly p s) (other : ∀ day, e ≠ .accepted day)
    (broken : ∀ day, e = .broken day → ∃ b ∈ s.bars.head?, b.2.day = day ∧
      ∀ st, s.sym s.epoch = some st → st.stoppedToday = true ∨ closeCutoff p ≤ b.2.tod)
    (entered : ∀ day, e = .entered day → .broken day ∉ s.log) : Orderly p { s with log := e :: s.log } where
  alone := h.alone
  sorted := h.sorted
  calls := fun j c get => (h.calls j c get).mono rfl same_orders rfl rfl
  orders := h.orders
  flagged := h.flagged
  start := h.start
  state := by
    intro b head
    obtain ⟨own, st, at_e, counts⟩ := h.state b head
    refine ⟨own, st, at_e, counts.day, ?_, ?_⟩
    · rw [count_cons_of_ne (other b.2.day)]
      exact counts.entries
    · intro mem
      rcases mem_cons.1 mem with eq | mem
      · obtain ⟨b', head', -, safe⟩ := broken b.2.day eq.symm
        obtain rfl := some.inj (head.symm.trans head')
        exact safe st at_e
      · exact counts.halted mem
  seen := by
    intro day mem
    rcases mem with mem | mem
    · rcases mem_cons.1 mem with eq | mem
      · exact absurd eq.symm (other day)
      · exact h.seen day (Or.inl mem)
    · rcases mem_cons.1 mem with eq | mem
      · obtain ⟨b, head, same, -⟩ := broken day eq.symm
        exact ⟨b, mem_of_mem_head? head, same⟩
      · exact h.seen day (Or.inr mem)
  entries := by
    intro day
    rw [count_cons_of_ne (other day)]
    exact h.entries day
  halted := each_cons.2 ⟨entered, h.halted⟩

lemma Orderly.finish {due sold : Bool} (h : Orderly p s) (get : s.calls[i]? = some c) (active : c ≠ .ended)
    (counted : c.uncounted = false) (unbooked : c.books = false) : Orderly p (s.finish i due sold) := by
  have next := h.setCall (x := .ended) get active counted unbooked rfl trivial
  exact next.record (fun _ eq => (by cases eq)) (fun _ eq => (by cases eq)) fun _ eq => (by cases eq)

lemma Desk.note_eq {happened : Prop} [Decidable happened] {what : Happened} :
    ∃ log, s.note happened what = { s with log } := by
  rw [Desk.note]
  split
  · exact ⟨_, rfl⟩
  · exact ⟨_, rfl⟩

/-! ## Reading the position -/

lemma Orderly.waiting {o : Order} (h : Orderly p s) (plain : s.Plain) (get : s.calls[i]? = some c)
    (active : c ≠ .ended) (unbooked : c.books = false) (at_e : s.sym s.epoch = some st)
    (mem : o ∈ s.orders) (live : o.live = true) :
    (st.reconcile (inLong s.row)).pending = o.reason.flag ∧
      o.reason.flag = if inLong s.row = true then some .exit else some .entry := by
  obtain ⟨calm, kind, sells⟩ := plain.2 o mem live
  obtain ⟨j, get_j⟩ := mem_iff_getElem?.1 mem
  have flag : st.pending = o.reason.flag := by
    rcases h.flagged j o get_j live calm kind with flag | flags
    · exact (congrArg (Option.bind · _) at_e).symm.trans flag
    · rw [h.alone.any get active rfl, unbooked] at flags
      cases flags
  have buys := h.orders.kind o mem
  cases is_long : inLong s.row with
  | true =>
    have not_buy : o.reason ≠ .rangeEntry := by
      intro eq
      have side := sells.2 is_long
      rw [buys.2 eq] at side
      cases side
    have exit : o.reason.flag = some .exit := by
      cases reason : o.reason with
      | rangeEntry => exact absurd reason not_buy
      | scaleOut => exact absurd reason kind
      | timeExit | stopLoss | rangeExit => rfl
    rw [exit] at flag ⊢
    exact ⟨reconcile_exit_iff.2 flag, rfl⟩
  | false =>
    have side : o.side = .buy := by
      cases side : o.side with
      | buy => rfl
      | sell =>
        rw [sells.1 side] at is_long
        cases is_long
    have entry : o.reason.flag = some .entry := by rw [buys.1 side]; rfl
    rw [entry] at flag ⊢
    refine ⟨?_, rfl⟩
    rw [SymState.reconcile, if_neg]
    · exact flag
    · rw [flag]
      simp

lemma Orderly.none_live {lv : Levels} {side : OrderSide} {qty : ℚ} {reason : Reason} (h : Orderly p s)
    (plain : s.Plain) (get : s.calls[i]? = some (.reading s.epoch bar lv)) (at_e : s.sym s.epoch = some st)
    (submits : Submits p bar s.row st side qty reason) : ∀ o ∈ s.orders, o.live = false := by
  intro o mem
  by_contra live
  have live := Bool.not_eq_false _ ▸ live
  obtain ⟨flag, kind⟩ := h.waiting plain get (fun eq => (by cases eq)) rfl at_e mem live
  rcases submits with ⟨-, -, is_long, free, -⟩ | ⟨-, -, flat, free, -⟩
  · rw [is_long] at flag kind
    exact free (flag.trans kind)
  · rw [flat] at flag kind
    rw [free] at flag
    exact absurd (flag.trans kind) (by simp)

lemma Orderly.read {lv : Levels} (h : Orderly p s) (plain : s.Plain)
    (get : s.calls[i]? = some (.reading epoch bar lv)) (at_e : s.sym epoch = some st) :
    Orderly p (((s.note (inLong s.row ∧ 0 < lv.stop ∧ bar.c ≤ lv.stop) (.broken bar.day)).setSym epoch
      (onPosition p (s.equity epoch) st bar lv s.row).2).decided i epoch bar (s.due p bar)
      (onPosition p (s.equity epoch) st bar lv s.row).1) := by
  have head : s.bars.head? = some (epoch, bar) := h.calls i _ get
  obtain rfl := h.epoch_eq head
  have active : Call.reading s.epoch bar lv ≠ .ended := fun eq => (by cases eq)
  have unbooked : (Call.reading s.epoch bar lv).books = false := rfl
  have reads : Reads p bar lv s.row st (onPosition p (s.equity s.epoch) st bar lv s.row).2 := reads_onPosition
  have submits := @onPosition_submit p st (s.equity s.epoch) bar lv s.row
  generalize onPosition p (s.equity s.epoch) st bar lv s.row = after at reads submits ⊢
  obtain ⟨decision, st'⟩ := after
  dsimp only at reads submits ⊢
  -- the state is written
  have written : Orderly p (s.setSym s.epoch st') := by
    apply h.setSym at_e reads.tradeDay reads.tradesToday reads.stopped
    intro o mem live _ _ _
    rw [reads.pending]
    exact (h.waiting plain get active unbooked at_e mem live).1
  have at_e' : (s.setSym s.epoch st').sym s.epoch = some st' := update_self _ _ _
  -- a broken range is recorded
  have noted :
      Orderly p ((s.note (inLong s.row ∧ 0 < lv.stop ∧ bar.c ≤ lv.stop) (.broken bar.day)).setSym s.epoch st') := by
    rw [Desk.note]
    split
    · rename_i broken
      refine written.record (e := .broken bar.day) (fun _ eq => (by cases eq)) ?_ fun _ eq => (by cases eq)
      intro day eq
      obtain rfl := Happened.broken.inj eq
      refine ⟨_, head, rfl, ?_⟩
      intro x at_x
      obtain rfl := some.inj (at_e'.symm.trans at_x)
      exact reads.broken broken.1 broken.2.1 broken.2.2
    · exact written
  obtain ⟨log, eq⟩ := @Desk.note_eq s (inLong s.row = true ∧ 0 < lv.stop ∧ bar.c ≤ lv.stop) _ (.broken bar.day)
  have same : ¬ inLong s.row = true → log = s.log := by
    intro flat
    rw [Desk.note, if_neg fun all => flat all.1] at eq
    exact (congrArg Desk.log eq).symm
  rw [eq] at noted ⊢
  cases decision with
  | done => exact noted.finish get active rfl unbooked
  | logInvalid => exact noted.setCall get active rfl unbooked rfl trivial
  | submit side qty reason =>
    have submits := submits rfl
    have none_live := h.none_live plain get at_e submits
    have kind : side = .buy ↔ reason = .rangeEntry := by
      rcases submits with ⟨rfl, kind, -⟩ | ⟨rfl, rfl, -⟩
      · simp [kind]
      · simp
    have sell : side = .sell → qty ≤ s.held := by
      rcases submits with ⟨rfl, -, is_long, -, le⟩ | ⟨rfl, -⟩
      · exact fun _ => le.trans (plain.1 is_long)
      · simp
    have buy : side = .buy → st'.tradesToday < p.maxTradesPerDay ∧ .broken bar.day ∉ log := by
      rcases submits with ⟨rfl, -⟩ | ⟨rfl, -, flat, -, running, early, room⟩
      · simp
      · intro _
        rw [reads.tradesToday, same (by simp [flat])]
        refine ⟨room, fun mem => ?_⟩
        rcases (h.counts head at_e).halted mem with stopped | late
        · rw [running] at stopped
          cases stopped
        · exact absurd early (Nat.not_lt.2 late)
    have entered : Orderly p (Desk.note (Desk.setSym { s with log } s.epoch st') (side = .buy) (.entered bar.day)) := by
      rw [Desk.note]
      split
      · rename_i buys
        refine noted.record (e := .entered bar.day) (fun _ eq => (by cases eq)) (fun _ eq => (by cases eq)) ?_
        intro day eq
        obtain rfl := Happened.entered.inj eq
        exact (buy buys).2
      · exact noted
    obtain ⟨log', eq'⟩ := @Desk.note_eq (Desk.setSym { s with log } s.epoch st') (side = .buy) _ (.entered bar.day)
    rw [Desk.decided]
    rw [eq'] at entered ⊢
    refine entered.setCall get active rfl unbooked rfl ⟨head, none_live, kind, sell, ?_⟩
    intro buys n mem
    obtain ⟨x, at_x, rfl⟩ := map_eq_some_iff.1 mem
    obtain rfl := some.inj (at_e'.symm.trans at_x)
    exact (buy buys).1

/-! ## Bars -/

lemma Orderly.setSym_core (h : Orderly p s) (at_e : s.sym s.epoch = some st) (core : st'.core = st.core) :
    Orderly p (s.setSym s.epoch st') := by
  obtain ⟨day, trades, stopped, pending⟩ : st'.tradeDay = st.tradeDay ∧ st'.tradesToday = st.tradesToday ∧
      st'.stoppedToday = st.stoppedToday ∧ st'.pending = st.pending := by
    simpa only [SymState.core, Prod.mk.injEq] using core
  apply h.setSym at_e day trades
  · intro was
    rw [stopped]
    exact was
  · intro o _ _ _ _ flag
    rw [pending]
    exact flag

lemma Orderly.resolve (h : Orderly p s) (get : s.calls[i]? = some (.equity epoch bar)) (at_e : s.sym epoch = some st) :
    Orderly p (s.resolve p i epoch bar st) := by
  have head : s.bars.head? = some (epoch, bar) := h.calls i _ get
  obtain rfl := h.epoch_eq head
  have active : Call.equity s.epoch bar ≠ .ended := fun eq => (by cases eq)
  have core : (resolveLevels p bar (st.updateVwap bar)).2.core = st.core := core_resolveLevels
  rw [Desk.resolve]
  generalize resolveLevels p bar (st.updateVwap bar) = after at core ⊢
  obtain ⟨lv, st'⟩ := after
  dsimp only at core ⊢
  split
  · have written : Orderly p (s.setSym s.epoch { st' with levelsEmittedDay := some bar.day }) := h.setSym_core at_e core
    exact written.setCall get active rfl rfl rfl head
  · exact (h.setSym_core at_e core).setCall get active rfl rfl rfl head

lemma Orderly.add (h : Orderly p s) (order : s.InOrder bar) (calls : t.calls = s.calls ++ [Call.equity s.epoch bar])
    (bars : t.bars = (s.epoch, bar) :: s.bars) (same : t.epoch = s.epoch) (lone : Lone t.orders t.held)
    (log : t.log = s.log) (at_e : t.sym s.epoch = some st) (counts : Counts p s.log false (s.epoch, bar) st)
    (flagged : ∀ o ∈ t.orders, o.live = true → o.calm = true → o.reason ≠ .scaleOut → st.pending = o.reason.flag) :
    Orderly p t := by
  have alone : Alone t.calls := by rw [calls]; exact Alone.add order.1
  have last : t.calls[s.calls.length]? = some (.equity s.epoch bar) := by
    rw [calls, getElem?_append_right le_rfl, Nat.sub_self]
    rfl
  have active : Call.equity s.epoch bar ≠ .ended := fun eq => (by cases eq)
  have head : t.bars.head? = some (s.epoch, bar) := by rw [bars]; rfl
  have at_t : t.sym t.epoch = some st := by rw [same]; exact at_e
  constructor
  case alone => exact alone
  case sorted => rw [bars]; exact h.sorted.cons order.2
  case calls =>
    intro j c get
    rcases alone.only last active c (mem_of_getElem? get) with rfl | rfl
    · exact head
    · trivial
  case orders => exact lone
  case flagged =>
    intro j o get live calm kind
    have flag := flagged o (mem_of_getElem? get) live calm kind
    exact Or.inl ((congrArg (Option.bind · _) at_t).trans flag)
  case start =>
    intro no_bar
    rw [bars] at no_bar
    cases no_bar
  case state =>
    intro b head_b
    obtain rfl := some.inj (head.symm.trans head_b)
    refine ⟨same.symm, st, at_t, ?_⟩
    rw [log, alone.any last active rfl]
    exact counts
  case seen =>
    intro day mem
    rw [log] at mem
    obtain ⟨b, mem, same⟩ := h.seen day mem
    exact ⟨b, by rw [bars]; exact mem_cons_of_mem _ mem, same⟩
  case entries => rw [log]; exact h.entries
  case halted => rw [log]; exact h.halted

lemma Orderly.call (h : Orderly p s) (order : s.InOrder bar) (at_e : s.sym s.epoch = some st)
    (day : st.tradeDay = some bar.day) : Orderly p (s.call bar) := by
  have quiet {f : Call → Bool} (ended : f .ended = false) : s.calls.any f = false := any_of_idle order.1 ended
  refine Orderly.add (t := s.call bar) h order rfl rfl rfl h.orders rfl at_e ?counts ?flagged
  case counts =>
    cases head : s.bars.head? with
    | none =>
      rw [h.start (head?_eq_none_iff.1 head)] at at_e
      cases at_e
    | some b =>
      obtain ⟨-, x, at_x, counts⟩ := h.state b head
      obtain rfl := some.inj (at_e.symm.trans at_x)
      have same : b.2.day = bar.day := some.inj (counts.day.symm.trans day)
      rw [quiet rfl] at counts
      refine ⟨day, ?_, ?_⟩
      · rw [← same]
        exact counts.entries
      · intro broken
        refine (counts.halted (by rw [same]; exact broken)).imp_right fun late => late.trans ?_
        have := order.2 b head
        dsimp only
        omega
  case flagged =>
    intro o mem live calm kind
    obtain ⟨j, get⟩ := mem_iff_getElem?.1 mem
    rcases h.flagged j o get live calm kind with flag | flags
    · exact (congrArg (Option.bind · _) at_e).symm.trans flag
    · rw [quiet rfl] at flags
      cases flags

lemma Lone.disturb (h : Lone orders held) : Lone (orders.map fun o => { o with calm := false }) held := by
  constructor
  case nonneg => exact h.nonneg
  case single =>
    intro i j o o' get get' live live'
    rw [getElem?_map] at get get'
    obtain ⟨x, get_x, rfl⟩ := map_eq_some_iff.1 get
    obtain ⟨y, get_y, rfl⟩ := map_eq_some_iff.1 get'
    exact h.single i j x y get_x get_y live live'
  case covered =>
    intro o mem sells
    obtain ⟨x, mem_x, rfl⟩ := mem_map.1 mem
    exact h.covered x mem_x sells
  case kind =>
    intro o mem
    obtain ⟨x, mem_x, rfl⟩ := mem_map.1 mem
    exact h.kind x mem_x

lemma Orderly.roll (h : Orderly p s) (order : s.InOrder bar) (new : ((s.sym s.epoch).getD {}).tradeDay ≠ some bar.day) :
    Orderly p ((s.call bar).disturb.setSym s.epoch (((s.sym s.epoch).getD {}).rollDay bar.day)) := by
  -- the day is new to the instance: all its bars are of earlier days
  have later : ∀ b ∈ s.bars, b.2.day ≠ bar.day := by
    intro b mem same
    cases bars : s.bars with
    | nil =>
      rw [bars] at mem
      cases mem
    | cons top rest =>
      have head : s.bars.head? = some top := by rw [bars]; rfl
      obtain ⟨-, st, at_e, counts⟩ := h.state top head
      rw [at_e, getD_some, counts.day] at new
      have sorted := h.sorted
      rw [bars] at sorted mem
      have last := order.2 top head
      have other : top.2.day ≠ bar.day := fun eq => new (congrArg some eq)
      rcases mem_cons.1 mem with rfl | mem
      · exact other same
      · have := (pairwise_cons.1 sorted).1 b mem
        omega
  refine Orderly.add (t := (s.call bar).disturb.setSym s.epoch (((s.sym s.epoch).getD {}).rollDay bar.day)) h order
    rfl rfl rfl h.orders.disturb rfl (update_self _ _ _) ?counts ?flagged
  case counts =>
    refine ⟨rfl, ?_, ?_⟩
    · apply count_eq_zero.2
      intro mem
      obtain ⟨b, mem, same⟩ := h.seen bar.day (Or.inl mem)
      exact later b mem same
    · intro mem
      obtain ⟨b, mem, same⟩ := h.seen bar.day (Or.inr mem)
      exact absurd same (later b mem)
  case flagged =>
    intro o mem _ calm
    obtain ⟨x, mem_x, rfl⟩ := mem_map.1 mem
    cases calm

/-! ## Orders -/

lemma Lone.place {new : Order} (h : Lone orders held)
    (none_live : ∀ o ∈ orders, o.live = false) (kind : new.side = .buy ↔ new.reason = .rangeEntry)
    (sell : new.side = .sell → new.remaining ≤ held) : Lone (orders ++ [new]) held := by
  have last {j : Nat} {o : Order} (get : (orders ++ [new])[j]? = some o) (live : o.live = true) :
      j = orders.length := by
    rw [getElem?_append] at get
    split at get
    · rw [none_live o (mem_of_getElem? get)] at live
      cases live
    · have lt := (List.getElem?_eq_some_iff.1 get).1
      rw [length_singleton] at lt
      omega
  constructor
  case nonneg => exact h.nonneg
  case single =>
    intro j k o o' get get' live live'
    rw [last get live, last get' live']
  case covered =>
    intro o mem sells
    rcases mem_append.1 mem with mem | mem
    · exact h.covered o mem sells
    · obtain rfl := mem_singleton.1 mem
      exact sell (eq_of_beq (Bool.and_eq_true_iff.1 sells).2)
  case kind =>
    intro o mem
    rcases mem_append.1 mem with mem | mem
    · exact h.kind o mem
    · obtain rfl := mem_singleton.1 mem
      exact kind

lemma Orderly.accept {side : OrderSide} {qty : ℚ} {reason : Reason} {due : Bool} (h : Orderly p s)
    (get : s.calls[i]? = some (.submitting epoch bar side qty reason due)) :
    Orderly p { (s.note (side = .buy) (.accepted bar.day)).setCall i
                  (.logging epoch bar reason (some s.orders.length) due) with
                orders := s.orders ++ [{ side, reason, qty }] } := by
  obtain ⟨head, none_live, kind, sell, buy⟩ := h.calls i _ get
  obtain ⟨own, st, at_e, counts⟩ := h.state _ head
  obtain rfl : epoch = s.epoch := own
  have active : Call.submitting s.epoch bar side qty reason due ≠ .ended := fun eq => (by cases eq)
  rw [h.alone.any get active rfl] at counts
  have uncounted : (Call.logging s.epoch bar reason (some s.orders.length) due).uncounted = decide (side = .buy) := by
    rw [Bool.eq_iff_iff, decide_eq_true_iff, kind]
    cases reason <;> simp [Call.uncounted]
  -- an entry is accepted only where there is room
  have room : side = .buy → s.log.count (.accepted bar.day) < p.maxTradesPerDay := by
    intro buys
    have room := buy buys st.tradesToday (congrArg (Option.map _) at_e)
    rw [counts.entries]
    exact room
  have count (day : Nat) : (s.note (side = .buy) (.accepted bar.day)).log.count (.accepted day) =
      s.log.count (.accepted day) + if side = .buy ∧ day = bar.day then 1 else 0 := by
    rw [Desk.note]
    split
    · rename_i buys
      rw [count_cons]
      by_cases same : day = bar.day
      · simp [buys, same]
      · simp [same, Ne.symm same]
    · rename_i sells
      simp [sells]
  have mem_log {e : Happened} (mem : e ∈ (s.note (side = .buy) (.accepted bar.day)).log) :
      e ∈ s.log ∨ e = .accepted bar.day := by
    rw [Desk.note] at mem
    split at mem
    · exact (mem_cons.1 mem).symm
    · exact Or.inl mem
  have each : Record.Each (fun e earlier => ∀ day, e = .entered day → .broken day ∉ earlier)
      (s.note (side = .buy) (.accepted bar.day)).log := by
    rw [Desk.note]
    split
    · exact each_cons.2 ⟨fun _ eq => (by cases eq), h.halted⟩
    · exact h.halted
  obtain ⟨log, eq⟩ := @Desk.note_eq s (side = .buy) _ (.accepted bar.day)
  rw [eq] at count mem_log each ⊢
  constructor
  case alone => exact h.alone.set get active
  case sorted => exact h.sorted
  case calls =>
    intro j d get_j
    rcases h.alone.others get active d (mem_of_getElem? get_j) with rfl | rfl
    · refine ⟨head, ?_⟩
      intro o mem live
      rcases mem_append.1 mem with mem | mem
      · rw [none_live o mem] at live
        cases live
      · obtain rfl := mem_singleton.1 mem
        rfl
    · trivial
  case orders =>
    refine h.orders.place none_live kind fun sold => ?_
    rw [Order.remaining, sub_zero]
    exact sell sold
  case flagged =>
    intro j o _ _ _ _
    exact Or.inr ((h.alone.any_set get active rfl).trans rfl)
  case start => exact h.start
  case state =>
    intro b head_b
    obtain rfl := some.inj (head.symm.trans head_b)
    refine ⟨rfl, st, at_e, counts.day, ?_, ?_⟩
    · dsimp only [Desk.setCall]
      rw [count, h.alone.any_set get active rfl, uncounted, counts.entries]
      by_cases buys : side = .buy
      · simp [buys, Call.uncounted]
      · simp [buys, Call.uncounted]
    · intro mem
      rcases mem_log mem with mem | eq
      · exact counts.halted mem
      · cases eq
  case seen =>
    intro day mem
    rcases mem with mem | mem
    · rcases mem_log mem with mem | eq
      · exact h.seen day (Or.inl mem)
      · obtain rfl := Happened.accepted.inj eq
        exact ⟨_, mem_of_mem_head? head, rfl⟩
    · rcases mem_log mem with mem | eq
      · exact h.seen day (Or.inr mem)
      · cases eq
  case entries =>
    intro day
    dsimp only [Desk.setCall]
    rw [count]
    split
    · rename_i buys
      obtain ⟨buys, rfl⟩ := buys
      exact room buys
    · exact h.entries day
  case halted => exact each

lemma Orderly.book {reason : Reason} {k : Nat} {due : Bool} (h : Orderly p s)
    (get : s.calls[i]? = some (.logging epoch bar reason (some k) due)) (at_e : s.sym epoch = some st) :
    Orderly p ((s.setSym epoch (st.accepted reason)).setCall i .ended) := by
  obtain ⟨head, own⟩ := h.calls i _ get
  obtain rfl := h.epoch_eq head
  have counts := h.counts head at_e
  have active : Call.logging s.epoch bar reason (some k) due ≠ .ended := fun eq => (by cases eq)
  rw [h.alone.any get active rfl] at counts
  have at_e' : (s.setSym s.epoch (st.accepted reason)).sym s.epoch = some (st.accepted reason) :=
    update_self _ _ _
  constructor
  case alone => exact h.alone.set get active
  case sorted => exact h.sorted
  case calls =>
    intro j d get_j
    rcases h.alone.others get active d (mem_of_getElem? get_j) with rfl | rfl
    · trivial
    · trivial
  case orders => exact h.orders
  case flagged =>
    intro j o get_j live calm kind
    have same := own o (mem_of_getElem? get_j) live
    refine Or.inl ((congrArg (Option.bind · _) at_e').trans ?_)
    rw [same] at kind ⊢
    cases reason with
    | scaleOut => exact absurd rfl kind
    | timeExit | stopLoss | rangeExit | rangeEntry => rfl
  case start =>
    intro no_bar
    exact absurd (at_e.symm.trans (h.start no_bar)) (by simp)
  case state =>
    intro b head_b
    obtain rfl := some.inj (head.symm.trans head_b)
    refine ⟨rfl, _, at_e', ?_⟩
    rw [Desk.setCall, Desk.setSym, h.alone.any_set get active rfl]
    cases reason with
    | rangeEntry => exact ⟨counts.day, counts.entries, counts.halted⟩
    | timeExit | stopLoss | rangeExit | scaleOut => exact ⟨counts.day, counts.entries, counts.halted⟩
  case seen => exact h.seen
  case entries => exact h.entries
  case halted => exact h.halted

/-- What becomes of an order that was there: it may fill and die. -/
structure Later (o o' : Order) : Prop where
  side : o'.side = o.side
  reason : o'.reason = o.reason
  calm : o'.calm = o.calm
  live : o'.live = true → o.live = true

lemma later_refl {o : Order} : Later o o := ⟨rfl, rfl, rfl, id⟩

lemma getElem?_amend_later {f : Order → Order} {j : Nat} {o' : Order}
    (later : ∀ o, orders[i]? = some o → Later o (f o)) (get : (Table.amend i f orders)[j]? = some o') :
    ∃ o, orders[j]? = some o ∧ Later o o' ∧ (i = j → o' = f o) ∧ (i ≠ j → o' = o) := by
  rw [getElem?_amend] at get
  split at get
  · rename_i same
    subst same
    obtain ⟨o, get_o, rfl⟩ := map_eq_some_iff.1 get
    exact ⟨o, get_o, later o get_o, fun _ => rfl, fun ne => absurd rfl ne⟩
  · rename_i ne
    exact ⟨o', get, later_refl, fun eq => absurd eq ne, fun _ => rfl⟩

lemma Lone.amend {held' : ℚ} {f : Order → Order} (h : Lone orders held)
    (later : ∀ o, orders[i]? = some o → Later o (f o)) (nonneg : 0 ≤ held')
    (covered : ∀ o, orders[i]? = some o → (f o).sells = true → (f o).remaining ≤ held')
    (others : ∀ (j : Nat) (o : Order), orders[j]? = some o → i ≠ j → o.sells = true → o.remaining ≤ held') :
    Lone (Table.amend i f orders) held' := by
  constructor
  case nonneg => exact nonneg
  case single =>
    intro j k o o' get get' live live'
    obtain ⟨x, get_x, was, -⟩ := getElem?_amend_later later get
    obtain ⟨y, get_y, was', -⟩ := getElem?_amend_later later get'
    exact h.single j k x y get_x get_y (was.live live) (was'.live live')
  case covered =>
    intro o mem sells
    obtain ⟨j, get⟩ := mem_iff_getElem?.1 mem
    obtain ⟨x, get_x, -, at_i, elsewhere⟩ := getElem?_amend_later later get
    by_cases same : i = j
    · subst same
      obtain rfl := at_i rfl
      exact covered x get_x sells
    · obtain rfl := elsewhere same
      exact others j o get_x same sells
  case kind =>
    intro o mem
    obtain ⟨j, get⟩ := mem_iff_getElem?.1 mem
    obtain ⟨x, get_x, was, -⟩ := getElem?_amend_later later get
    rw [was.side, was.reason]
    exact h.kind x (mem_of_getElem? get_x)

lemma Orderly.amend {f : Order → Order} (h : Orderly p s) (later : ∀ o, s.orders[i]? = some o → Later o (f o))
    (lone : Lone (Table.amend i f s.orders) held) (same : held = s.held ∨ ∃ o ∈ s.orders, o.live = true) :
    Orderly p { s with orders := Table.amend i f s.orders, held } where
  alone := h.alone
  sorted := h.sorted
  calls := by
    intro j c get
    have live : ∀ o ∈ Table.amend i f s.orders, o.live = true →
        ∃ o' ∈ s.orders, o'.live = true ∧ o'.reason = o.reason := by
      intro o mem alive
      obtain ⟨k, get⟩ := mem_iff_getElem?.1 mem
      obtain ⟨x, get_x, was, -⟩ := getElem?_amend_later later get
      exact ⟨x, mem_of_getElem? get_x, was.live alive, was.reason.symm⟩
    have before := h.calls j c get
    rcases same with same | ⟨o, mem, alive⟩
    · exact before.mono rfl live same rfl
    · cases c with
      | submitting epoch bar side qty reason due =>
        rw [before.2.1 o mem] at alive
        cases alive
      | ended | explaining => trivial
      | equity | emitting | reading => exact before
      | logging =>
        refine ⟨before.1, ?_⟩
        intro o mem alive
        obtain ⟨x, mem_x, alive_x, eq⟩ := live o mem alive
        exact eq.symm.trans (before.2 x mem_x alive_x)
  orders := lone
  flagged := by
    intro j o get live calm kind
    obtain ⟨x, get_x, was, -⟩ := getElem?_amend_later later get
    rw [was.reason] at kind ⊢
    exact h.flagged j x get_x (was.live live) (was.calm ▸ calm) kind
  start := h.start
  state := h.state
  seen := h.seen
  entries := h.entries
  halted := h.halted

lemma Orderly.fill {o : Order} {x : ℚ} (h : Orderly p s) (get : s.orders[i]? = some o)
    (fits : o.live = true ∧ 0 < x ∧ x ≤ o.remaining) :
    Orderly p { s with
      orders := Table.amend i (fun o => { o with filled := o.filled + x, live := decide (x < o.remaining) }) s.orders
      held := match o.side with | .buy => s.held + x | .sell => s.held - x } := by
  obtain ⟨alive, positive, within⟩ := fits
  have mem := mem_of_getElem? get
  have same {o' : Order} (get' : s.orders[i]? = some o') : o' = o := some.inj (get'.symm.trans get)
  have later : ∀ o', s.orders[i]? = some o' →
      Later o' { o' with filled := o'.filled + x, live := decide (x < o'.remaining) } := by
    intro o' get'
    obtain rfl := same get'
    exact ⟨rfl, rfl, rfl, fun _ => alive⟩
  refine h.amend later ?_ (Or.inr ⟨o, mem, alive⟩)
  cases side : o.side with
  | buy =>
    apply h.orders.amend later
    case nonneg =>
      have := h.orders.nonneg
      dsimp only
      linarith
    case covered =>
      intro o' get' sells
      obtain rfl := same get'
      have sold := eq_of_beq (Bool.and_eq_true_iff.1 sells).2
      exact absurd (side.symm.trans sold) (by decide)
    case others =>
      intro j o' get' _ sells
      have := h.orders.covered o' (mem_of_getElem? get') sells
      dsimp only
      linarith
  | sell =>
    have covered : o.remaining ≤ s.held := h.orders.covered o mem (by simp [Order.sells, alive, side])
    apply h.orders.amend later
    case nonneg =>
      dsimp only
      linarith
    case covered =>
      intro o' get' _
      obtain rfl := same get'
      simp only [Order.remaining] at covered ⊢
      linarith
    case others =>
      intro j o' get' ne sells
      exact absurd (h.orders.single i j o o' get get' alive (Bool.and_eq_true_iff.1 sells).1) ne

lemma Orderly.die (h : Orderly p s) :
    Orderly p { s with orders := Table.amend i (fun o => { o with live := false }) s.orders } := by
  have later : ∀ o, s.orders[i]? = some o → Later o { o with live := false } :=
    fun o _ => ⟨rfl, rfl, rfl, fun live => (by cases live)⟩
  refine h.amend later ?_ (Or.inl rfl)
  apply h.orders.amend later h.orders.nonneg
  case covered =>
    intro o _ sells
    cases sells
  case others =>
    intro j o get _ sells
    exact h.orders.covered o (mem_of_getElem? get) sells

lemma Orderly.disturb (h : Orderly p s) : Orderly p s.disturb where
  alone := h.alone
  sorted := h.sorted
  calls := by
    intro j c get
    refine (h.calls j c get).mono rfl ?_ rfl rfl
    intro o mem live
    obtain ⟨x, mem_x, rfl⟩ := mem_map.1 mem
    exact ⟨x, mem_x, live, rfl⟩
  orders := h.orders.disturb
  flagged := by
    intro j o get _ calm
    obtain ⟨x, mem_x, rfl⟩ := mem_map.1 (mem_of_getElem? get)
    cases calm
  start := h.start
  state := h.state
  seen := h.seen
  entries := h.entries
  halted := h.halted

lemma Orderly.onFill (h : Orderly p s) (at_e : s.sym s.epoch = some st) :
    Orderly p (s.disturb.setSym s.epoch { st with pending := none }) := by
  refine Orderly.setSym (s := s.disturb) h.disturb at_e rfl rfl id ?_
  intro o mem _ calm
  obtain ⟨x, mem_x, rfl⟩ := mem_map.1 mem
  cases calm

lemma Orderly.fail (h : Orderly p s)
    (calm : ∀ c ∈ s.calls[i]?, ∀ epoch bar reason k due, c ≠ .logging epoch bar reason (some k) due) :
    Orderly p (s.setCall i .ended) := by
  cases get : s.calls[i]? with
  | none => rwa [Desk.setCall_ended (by simp [get])]
  | some c =>
    have unbooked : c.uncounted = false ∧ c.books = false := by
      cases c with
      | logging epoch bar reason accepted due =>
        cases accepted with
        | some k => exact absurd rfl (calm _ get epoch bar reason k due)
        | none => cases reason <;> exact ⟨rfl, rfl⟩
      | ended | equity | emitting | reading | submitting | explaining => exact ⟨rfl, rfl⟩
    by_cases active : c = .ended
    · rwa [Desk.setCall_ended (by simp [get, active])]
    · exact h.setCall (x := .ended) get active unbooked.1 unbooked.2 rfl trivial

/-! ## Runs -/

lemma Orderly.frame (h : Orderly p s) {equity : Nat → ℚ} {row : Option PositionRow} :
    Orderly p { s with equity, row } :=
  ⟨h.alone, h.sorted, fun j c get => (h.calls j c get).mono rfl same_orders rfl rfl, h.orders, h.flagged, h.start,
    h.state, h.seen, h.entries, h.halted⟩

lemma Orderly.step {l : RangeLabel} (h : Orderly p s) (clear : Clear s l)
    (step : (rangeTrader p).step s l = some t) : Orderly p t := by
  cases l with
  | reinstantiate => exact absurd clear id
  | «begin» bar =>
    simp only [rangeTrader] at step
    split at step
    · rename_i day
      cases step
      cases at_e : s.sym s.epoch with
      | none =>
        rw [at_e] at day
        cases day
      | some st =>
        rw [at_e, getD_some] at day
        refine (h.call clear at_e day).resolve ?_ at_e
        change (s.calls ++ [_])[s.calls.length]? = _
        rw [getElem?_append_right le_rfl, Nat.sub_self]
        rfl
    · rename_i new
      cases step
      exact h.roll clear new
  | equityRead call equity =>
    simp only [rangeTrader] at step
    split at step
    · rename_i epoch bar get
      split at step
      · cases step
      · rename_i st at_e
        cases step
        obtain ⟨equity', eq⟩ := @Desk.sizeBy_eq s epoch equity
        rw [eq]
        have framed : Orderly p { s with equity := equity', row := s.row } := h.frame
        exact framed.resolve get at_e
    · cases step
  | emitted call =>
    simp only [rangeTrader] at step
    split at step
    · rename_i get
      cases step
      have head := h.calls call _ get
      exact h.setCall get (fun eq => (by cases eq)) rfl rfl rfl head
    · cases step
  | read call =>
    simp only [rangeTrader] at step
    split at step
    · rename_i get
      split at step
      · cases step
      · rename_i at_e
        cases step
        exact h.read clear get at_e
    · cases step
  | accept call =>
    simp only [rangeTrader] at step
    split at step
    · rename_i get
      cases step
      exact h.accept get
    · cases step
  | reject call =>
    simp only [rangeTrader] at step
    split at step
    · rename_i epoch bar side qty reason due get
      cases step
      obtain ⟨head, none_live, -⟩ := h.calls call _ get
      refine h.setCall get (fun eq => (by cases eq)) rfl rfl (by cases reason <;> rfl) ⟨head, ?_⟩
      intro o mem live
      rw [none_live o mem] at live
      cases live
    · cases step
  | logged call =>
    simp only [rangeTrader] at step
    split at step
    · rename_i epoch bar reason accepted due get
      split at step
      · cases step
      · rename_i st at_e
        cases step
        cases accepted with
        | none => exact h.finish get (fun eq => (by cases eq)) (by cases reason <;> rfl) rfl
        | some k =>
          have booked := h.book get at_e
          exact booked.record (fun _ eq => (by cases eq)) (fun _ eq => (by cases eq)) fun _ eq => (by cases eq)
    · rename_i get
      cases step
      exact h.finish get (fun eq => (by cases eq)) rfl rfl
    · cases step
  | fail call =>
    cases step
    exact h.fail clear
  | fill i x =>
    simp only [rangeTrader] at step
    split at step
    · rename_i get
      split at step
      · rename_i fits
        cases step
        exact h.fill get fits
      · cases step
    · cases step
  | die i =>
    cases step
    exact h.die
  | onFill =>
    simp only [rangeTrader] at step
    cases step
    split
    · exact h.disturb
    · rename_i at_e
      exact h.onFill at_e
  | refreshEquity | showRow =>
    cases step
    exact h.frame

end

lemma orderly_opened {held : ℚ} {row : Option PositionRow} (nonneg : 0 ≤ held) : Orderly p (opened p held row) where
  alone := fun i _ _ _ get => by simp [opened] at get
  sorted := List.Pairwise.nil
  calls := fun i _ get => by simp [opened] at get
  orders := ⟨nonneg, fun i _ _ _ get => by simp [opened] at get, fun _ mem => (by cases mem), fun _ mem =>
    (by cases mem)⟩
  flagged := fun i _ get => by simp [opened] at get
  start := fun _ => rfl
  state := fun _ head => (by cases head)
  seen := fun _ mem => by simp [opened] at mem
  entries := fun _ => Nat.zero_le _
  halted := each_nil

/-- However calls, fills and the position row interleave, no order is doubled, as long as the bars come in order and a
call that reads the position finds it `Plain`. -/
theorem range_orders_single (p : RangeParams) (held : ℚ) (row : Option PositionRow) (ls : List RangeLabel) (s : Desk)
    (nonneg : 0 ≤ held) (run : (rangeTrader p).run (opened p held row) ls = some s)
    (clear : (rangeTrader p).Meets Clear (opened p held row) ls) : NoDoubling p s :=
  (Machine.run_invariant (fun inv clear step => inv.step clear step) (orderly_opened nonneg) clear run :
    Orderly p s).noDoubling

instance (s : Desk) : Decidable s.Plain :=
  inferInstanceAs (Decidable (_ ∧ ∀ o ∈ s.orders, o.live = true →
    o.calm = true ∧ o.reason ≠ .scaleOut ∧ (o.side = .sell ↔ inLong s.row = true)))

instance (s : Desk) (call : Nat) :
    Decidable (∀ c ∈ s.calls[call]?, ∀ epoch bar reason i due, c ≠ .logging epoch bar reason (some i) due) :=
  decidable_of_iff ((s.calls[call]?).all (fun c => !c.books) = true) (by
    cases s.calls[call]? with
    | none => simp
    | some c =>
      cases c with
      | logging epoch bar reason accepted due =>
        cases accepted with
        | none => simp [Call.books]
        | some k => exact ⟨fun eq => (by cases eq), fun h => absurd rfl (h _ rfl epoch bar reason k due)⟩
      | ended | equity | emitting | reading | submitting | explaining => simp [Call.books])

instance (s : Desk) : ∀ l, Decidable (Clear s l)
  | .reinstantiate => isFalse id
  | .begin bar => inferInstanceAs (Decidable (s.InOrder bar))
  | .read _ => inferInstanceAs (Decidable s.Plain)
  | .fail call => inferInstanceAs (Decidable (∀ c ∈ s.calls[call]?, ∀ epoch bar reason i due,
      c ≠ .logging epoch bar reason (some i) due))
  | .equityRead _ _ | .emitted _ | .accept _ | .reject _ | .logged _ | .refreshEquity _ | .fill _ _ | .die _ | .onFill
  | .showRow _ => isTrue trivial

/-- The theorem, at an entry near support and an exit at resistance. -/
theorem range_orders_single_round : ∃ s : Desk, s.held = 0 ∧ s.orders.length = 2 ∧ NoDoubling {} s := by
  obtain ⟨s, run⟩ := isSome_iff_exists.1
    (show ((rangeTrader {}).run (opened {} 0 none)
      [.begin openingBar, .equityRead 0 none, .read 0, .begin (elevenAt 100), .emitted 1, .read 1, .accept 1, .logged 1,
        .fill 0 100, .showRow (some ⟨true, 100⟩), .onFill, .begin (elevenAt 110), .read 2, .accept 2, .logged 2,
        .fill 1 100]).isSome = true by decide +kernel)
  exact ⟨s, Machine.observe (f := fun s : Desk => s.held) run (by decide +kernel),
    Machine.observe (f := fun s : Desk => s.orders.length) run (by decide +kernel),
    range_orders_single {} 0 none _ s le_rfl run (by decide +kernel)⟩

/-- After a part of an exit is filled, the next bar sells the rest a second time. -/
theorem not_range_orders_single :
    ¬ ∀ (p : RangeParams) (held : ℚ) (row : Option PositionRow) (ls : List RangeLabel) (s : Desk), 0 ≤ held →
      .reinstantiate ∉ ls → (rangeTrader p).run (opened p held row) ls = some s → NoDoubling p s := by
  intro all
  obtain ⟨s, run⟩ := isSome_iff_exists.1
    (show ((rangeTrader {}).run (opened {} 10 tenShares)
      [.begin openingBar, .equityRead 0 none, .read 0, .begin (elevenAt 99), .emitted 1, .read 1, .accept 1, .logged 1,
        .fill 0 4, .showRow (some ⟨true, 6⟩), .onFill, .begin (elevenAt 98), .read 2, .accept 2]).isSome = true by
      decide +kernel)
  have sold : Table.total Order.remaining (s.orders.filter Order.sells) = 12 :=
    Machine.observe (f := fun s : Desk => Table.total Order.remaining (s.orders.filter Order.sells)) run
      (by decide +kernel)
  have held : s.held = 6 := Machine.observe (f := fun s : Desk => s.held) run (by decide +kernel)
  have covered := (all {} 10 tenShares _ s (by decide) (by simp) run).covered
  rw [sold, held] at covered
  exact absurd covered (by decide)

end Workbench.Templates
