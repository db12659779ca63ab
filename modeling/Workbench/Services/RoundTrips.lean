import Workbench.Services.DriftDetection

/-!
# Round trips of the position

`fifo` are the first-in first-out matches of a history: a `Book` counts the shares of a symbol that were ever opened and
closed, so the shares that a fill closes are those opened after the ones that are closed already. The excess of a fill
over the open shares opens the other side or is dropped.

The walk of drift detection finds the matches of the position that drops the excess, as far as nothing is open at the
cutoff; their pnl and the cost of the open legs are the cash of the matched quantities.
-/

set_option linter.dupNamespace false

namespace Workbench.Services.DriftDetection
open Workbench.Lib Workbench.Lib.Fifo Option Dict

/-- The shares of a symbol: the legs that were opened, in order, and the number of shares that were closed. -/
structure Book where
  entries : List (Fifo.Lot Leg)
  exited : ℚ

def Book.openQty (b : Book) : ℚ := total b.entries - b.exited

/-- The side of the open shares: that of the leg opened last. -/
def Book.direction (b : Book) : Option Direction :=
  if b.openQty = 0 then none else b.entries.getLast?.map (·.data.direction)

def Book.closes (b : Book) (f : Fill) : ℚ :=
  match b.direction with
  | none => 0
  | some d => if d = f.direction then 0 else min b.openQty f.qty

def Book.opens (keepExcess : Bool) (b : Book) (f : Fill) : ℚ :=
  match b.direction with
  | none => f.qty
  | some d => if d = f.direction then f.qty else if keepExcess then f.qty - b.closes f else 0

def Book.fill (keepExcess : Bool) (b : Book) (f : Fill) : Book where
  entries := if 0 < b.opens keepExcess f then b.entries ++ [f.leg (b.opens keepExcess f)] else b.entries
  exited := b.exited + b.closes f

/-- The matches of a fill: the shares that were opened after those that are closed already. -/
def Book.matches (b : Book) (f : Fill) : List RoundTrip :=
  (shares b.exited (b.exited + b.closes f) 0 b.entries).map fun part => f.trip part.1 part.2

def bookOf (keepExcess : Bool) (symbol : String) (fills : List Fill) : Book :=
  (fills.filter (·.ticker = symbol)).foldl (Book.fill keepExcess) ⟨[], 0⟩

/-- The matches of fills after `past`, each with the fill that exits. -/
def fifo (keepExcess : Bool) (past : List Fill) : List Fill → List (Fill × RoundTrip)
  | [] => []
  | f :: fills =>
    ((bookOf keepExcess f.ticker past).matches f).map (f, ·) ++ fifo keepExcess (past ++ [f]) fills

/-- The matches of a history whose exit is at or after the cutoff. -/
def roundTrips (keepExcess : Bool) (history : List Fill) (cutoff : Instant) : List RoundTrip :=
  ((fifo keepExcess [] history).filter fun m => decide (cutoff ≤ m.1.filledAt)).map (·.2)

/-- The cash of a quantity of a fill, its share of the commission included. -/
def Fill.cash (f : Fill) (qty : ℚ) : ℚ := -(f.direction.sign * f.price * qty) - f.commPs * qty

/-- The cash of the fills after `past`, without the excess that is dropped. -/
def netCash (past : List Fill) : List Fill → ℚ
  | [] => 0
  | f :: fills =>
    f.cash ((bookOf false f.ticker past).opens false f + (bookOf false f.ticker past).closes f) +
      netCash (past ++ [f]) fills

/-- The signed cost of an open leg, its commission included. -/
def cost (leg : Fifo.Lot Leg) : ℚ := -(leg.data.direction.sign * leg.data.price * leg.qty) - leg.data.commPs * leg.qty

/-- The signed cost of the open legs of a walk. -/
def Walk.openCost (w : Walk) : ℚ := (w.openLegs.values.map fun queue => (queue.map cost).sum).sum

variable {f : Fill} {b : Book} {w : Walk} {past fills : List Fill} {symbol : String} {keepExcess : Bool} {amount : ℚ}

/-! ## A queue is the open part of a book -/

/-- What every book keeps: legs have shares, no more are closed than were opened, and the open ones are of one side. -/
structure Book.Sound (b : Book) : Prop where
  positive : ∀ l ∈ b.entries, 0 < l.qty
  exited : 0 ≤ b.exited
  covered : b.exited ≤ total b.entries
  oneSide : ∀ l ∈ remaining b.entries b.exited, ∀ last ∈ b.entries.getLast?, l.data.direction = last.data.direction

def Book.queue (b : Book) : List (Fifo.Lot Leg) := remaining b.entries b.exited

lemma sound_empty : Book.Sound ⟨[], 0⟩ where
  positive := fun _ mem => absurd mem List.not_mem_nil
  exited := le_rfl
  covered := le_rfl
  oneSide := fun _ mem => absurd mem List.not_mem_nil

lemma Book.Sound.total_queue (sound : b.Sound) : total b.queue = b.openQty :=
  total_remaining sound.exited sound.covered

lemma Book.Sound.openQty_eq_zero (sound : b.Sound) : b.openQty = 0 ↔ b.queue = [] := by
  constructor
  · intro flat
    exact remaining_eq_nil sound.positive (by rw [Book.openQty] at flat; linarith)
  · intro none
    rw [← sound.total_queue, none, total_nil]

lemma Book.Sound.direction_eq (sound : b.Sound) {leg : Fifo.Lot Leg} {rest : List (Fifo.Lot Leg)}
    (queue : b.queue = leg :: rest) : b.direction = some leg.data.direction := by
  have notFlat : b.openQty ≠ 0 := fun flat => by
    rw [sound.openQty_eq_zero.1 flat] at queue
    cases queue
  rw [Book.direction, if_neg notFlat]
  cases last : b.entries.getLast? with
  | none =>
    rw [List.getLast?_eq_none_iff] at last
    rw [Book.queue, last] at queue
    cases queue
  | some l =>
    have mem : leg ∈ remaining b.entries b.exited := by
      rw [← Book.queue, queue]
      exact List.mem_cons_self
    rw [map_some, sound.oneSide leg mem l last]

lemma Book.Sound.direction_eq_none (sound : b.Sound) (queue : b.queue = []) : b.direction = none :=
  if_pos (sound.openQty_eq_zero.2 queue)

lemma Book.Sound.same_side (sound : b.Sound) {l l' : Fifo.Lot Leg} (mem : l ∈ b.queue) (mem' : l' ∈ b.queue) :
    l.data.direction = l'.data.direction := by
  cases last : b.entries.getLast? with
  | none =>
    rw [List.getLast?_eq_none_iff] at last
    rw [Book.queue, last] at mem
    cases mem
  | some final => rw [sound.oneSide l mem final last, sound.oneSide l' mem' final last]

lemma Book.Sound.enter (sound : b.Sound) (side : ∀ l ∈ b.queue, l.data.direction = f.direction) :
    Book.Sound ⟨b.entries ++ [f.leg f.qty], b.exited⟩ where
  positive := by
    intro l mem
    rcases List.mem_append.1 mem with mem | mem
    · exact sound.positive l mem
    · rw [List.mem_singleton.1 mem]
      exact f.positive
  exited := sound.exited
  covered := by
    have pos : 0 < (f.leg f.qty).qty := f.positive
    rw [total_append, total_cons, total_nil, add_zero]
    exact sound.covered.trans (by linarith)
  oneSide := by
    intro l mem last is_last
    rw [List.getLast?_concat] at is_last
    obtain rfl := some.inj is_last
    rw [remaining_concat f.positive sound.exited sound.covered] at mem
    rcases List.mem_append.1 mem with mem | mem
    · exact side l mem
    · rw [List.mem_singleton.1 mem]

lemma Book.Sound.exit (sound : b.Sound) (nonneg : 0 ≤ amount) (le : amount ≤ b.openQty) :
    Book.Sound ⟨b.entries, b.exited + amount⟩ where
  positive := sound.positive
  exited := add_nonneg sound.exited nonneg
  covered := by
    rw [Book.openQty] at le
    show b.exited + amount ≤ total b.entries
    linarith
  oneSide := by
    intro l mem last is_last
    -- the shares that stay open were open before
    have taken := take_remaining sound.positive sound.exited sound.covered nonneg
    rw [min_eq_left (show amount ≤ total b.entries - b.exited from le)] at taken
    have still : remaining b.entries (b.exited + amount) = (take amount b.queue).2.2 := by rw [Book.queue, taken]
    obtain ⟨l', found, same⟩ := data_mem_of_take (still ▸ mem)
    rw [← same]
    exact sound.oneSide l' found last is_last

lemma Book.Sound.fill (sound : b.Sound) : (b.fill false f).Sound ∧
    matchFill f b.queue = (b.matches f, f.qty - (b.opens false f + b.closes f), (b.fill false f).queue) := by
  cases open_ : b.queue with
  | nil =>
    have flat := sound.direction_eq_none open_
    have opens : b.opens false f = f.qty := by rw [Book.opens, flat]
    have closes : b.closes f = 0 := by rw [Book.closes, flat]
    have next : b.fill false f = ⟨b.entries ++ [f.leg f.qty], b.exited⟩ := by
      rw [Book.fill, opens, closes, if_pos f.positive, add_zero]
    refine ⟨next ▸ sound.enter fun l mem => absurd mem (by rw [open_]; exact List.not_mem_nil), ?_⟩
    rw [next, Book.matches, closes, add_zero, shares_empty le_rfl, opens, add_zero, sub_self, Book.queue,
      remaining_concat f.positive sound.exited sound.covered, ← Book.queue, open_]
    rfl
  | cons leg rest =>
    have side := sound.direction_eq open_
    by_cases same : leg.data.direction = f.direction
    · have opens : b.opens false f = f.qty := by rw [Book.opens, side]; exact if_pos same
      have closes : b.closes f = 0 := by rw [Book.closes, side]; exact if_pos same
      have next : b.fill false f = ⟨b.entries ++ [f.leg f.qty], b.exited⟩ := by
        rw [Book.fill, opens, closes, if_pos f.positive, add_zero]
      have allSame : ∀ l ∈ b.queue, l.data.direction = f.direction := by
        intro l mem
        rw [← same]
        exact sound.same_side mem (open_ ▸ List.mem_cons_self)
      refine ⟨next ▸ sound.enter allSame, ?_⟩
      rw [next, Book.matches, closes, add_zero, shares_empty le_rfl, opens, add_zero, sub_self, Book.queue,
        remaining_concat f.positive sound.exited sound.covered, ← Book.queue, open_, matchFill]
      rw [if_pos same]
      rfl
    · have closes : b.closes f = min b.openQty f.qty := by rw [Book.closes, side]; exact if_neg same
      have opens : b.opens false f = 0 := by rw [Book.opens, side]; exact if_neg same
      have next : b.fill false f = ⟨b.entries, b.exited + b.closes f⟩ := by
        rw [Book.fill, opens, if_neg (lt_irrefl 0)]
      have openNonneg : 0 ≤ b.openQty := sub_nonneg.2 sound.covered
      have nonneg : 0 ≤ b.closes f := by rw [closes]; exact le_min openNonneg f.positive.le
      refine ⟨next ▸ sound.exit nonneg (closes ▸ min_le_left _ _), ?_⟩
      have taken := take_remaining sound.positive sound.exited sound.covered f.positive.le
      rw [show total b.entries - b.exited = b.openQty from rfl, min_comm, ← closes] at taken
      rw [matchFill]
      rw [if_neg same, exitLegs_eq, ← open_, Book.queue, taken, opens, zero_add, next]
      rfl

/-! ## The walk -/

lemma bookOf_concat : bookOf keepExcess symbol (past ++ [f]) =
    if f.ticker = symbol then (bookOf keepExcess symbol past).fill keepExcess f else bookOf keepExcess symbol past := by
  rw [bookOf, List.filter_append, bookOf]
  by_cases same : f.ticker = symbol
  · rw [List.filter_cons_of_pos (by simpa using same), List.filter_nil, List.foldl_append, if_pos same]
    rfl
  · rw [List.filter_cons_of_neg (by simpa using same), List.filter_nil, List.append_nil, if_neg same]

lemma sound_bookOf : (bookOf false symbol past).Sound := by
  induction past using List.reverseRecOn with
  | nil => exact sound_empty
  | append_singleton past f ih =>
    rw [bookOf_concat]
    split
    · exact ih.fill.1
    · exact ih

def Follows (past : List Fill) (w : Walk) : Prop := ∀ symbol, w.legs symbol = (bookOf false symbol past).queue

lemma fill_legs : (w.fill f).legs symbol =
    if symbol = f.ticker then (matchFill f (w.legs f.ticker)).2.2 else w.legs symbol := by
  rw [Walk.legs, Walk.fill]
  simp only
  rw [get_set]
  split
  · rfl
  · rfl

lemma Follows.fill (follows : Follows past w) : Follows (past ++ [f]) (w.fill f) ∧
    (w.fill f).trips = w.trips ++ (bookOf false f.ticker past).matches f := by
  have sound : (bookOf false f.ticker past).Sound := sound_bookOf
  obtain ⟨-, matched⟩ := sound.fill (f := f)
  constructor
  · intro symbol
    rw [fill_legs, bookOf_concat]
    by_cases same : symbol = f.ticker
    · subst same
      rw [if_pos rfl, if_pos rfl, follows, matched]
    · rw [if_neg same, if_neg (Ne.symm same), follows]
  · rw [Walk.fill, follows, matched]

lemma Follows.run (follows : Follows past w) : Follows (past ++ fills) (fills.foldl Walk.fill w) ∧
    (fills.foldl Walk.fill w).trips = w.trips ++ (fifo false past fills).map (·.2) := by
  induction fills generalizing past w with
  | nil =>
    rw [List.append_nil, fifo, List.map_nil, List.append_nil]
    exact ⟨follows, rfl⟩
  | cons f fills ih =>
    obtain ⟨next, trips⟩ := follows.fill (f := f)
    obtain ⟨final, found⟩ := ih next
    have pairs : (((bookOf false f.ticker past).matches f).map (f, ·)).map (·.2) =
        (bookOf false f.ticker past).matches f := by
      rw [List.map_map]
      exact List.map_id _
    rw [List.foldl_cons, List.append_cons]
    refine ⟨final, ?_⟩
    rw [found, trips, fifo, List.map_append, pairs, List.append_assoc]

lemma mem_of_mem_fifo {m : Fill × RoundTrip} (mem : m ∈ fifo keepExcess past fills) : m.1 ∈ fills := by
  induction fills generalizing past with
  | nil => exact absurd mem List.not_mem_nil
  | cons f fills ih =>
    rcases List.mem_append.1 mem with mem | mem
    · obtain ⟨trip, -, rfl⟩ := List.mem_map.1 mem
      exact List.mem_cons_self
    · exact List.mem_cons_of_mem _ (ih mem)

lemma fifo_append {more : List Fill} :
    fifo keepExcess past (fills ++ more) = fifo keepExcess past fills ++ fifo keepExcess (past ++ fills) more := by
  induction fills generalizing past with
  | nil => rw [List.nil_append, List.append_nil]; rfl
  | cons f fills ih => rw [List.cons_append, fifo, fifo, ih, List.append_assoc past, List.singleton_append,
    List.append_assoc]

lemma filter_cutoff {cutoff : Instant} (ordered : fills.Pairwise (·.filledAt ≤ ·.filledAt)) :
    fills = (fills.filter fun f => decide (f.filledAt < cutoff)) ++ fills.filter fun f =>
      decide (cutoff ≤ f.filledAt) := by
  induction fills with
  | nil => rfl
  | cons f fills ih =>
    obtain ⟨later, rest⟩ := List.pairwise_cons.1 ordered
    by_cases since : cutoff ≤ f.filledAt
    · have none : fills.filter (fun f => decide (f.filledAt < cutoff)) = [] := by
        rw [List.filter_eq_nil_iff]
        intro g mem
        simpa using since.trans (later g mem)
      have eq := ih rest
      rw [none, List.nil_append] at eq
      rw [List.filter_cons_of_neg (by simpa using since), none, List.filter_cons_of_pos (by simpa using since), ← eq,
        List.nil_append]
    · rw [List.filter_cons_of_pos (by simpa using since), List.filter_cons_of_neg (by simpa using since),
        List.cons_append,
        ← ih rest]

/-! ## The cash -/

lemma cash_add {x y : ℚ} : f.cash (x + y) = f.cash x + f.cash y := by
  rw [Fill.cash, Fill.cash, Fill.cash]
  ring

lemma exit_cash {queue : List (Fifo.Lot Leg)} (positive : ∀ l ∈ queue, 0 < l.qty)
    (opposite : ∀ l ∈ queue, l.data.direction ≠ f.direction) (nonneg : 0 ≤ amount) :
    (((take amount queue).1.map fun part => f.trip part.1 part.2).map (·.pnl)).sum +
      ((take amount queue).2.2.map cost).sum = (queue.map cost).sum + f.cash (amount - (take amount queue).2.1) := by
  have turned {l : Fifo.Lot Leg} (ne : l.data.direction ≠ f.direction) : l.data.direction.sign = -f.direction.sign := by
    cases l_side : l.data.direction <;> cases f_side : f.direction <;> simp_all [Direction.sign]
  induction queue generalizing amount with
  | nil =>
    rw [take, sub_self, Fill.cash]
    simp
  | cons l queue ih =>
    have sign := turned (opposite l List.mem_cons_self)
    rw [take]
    split
    · rename_i none
      rw [sub_self, Fill.cash]
      simp
    · split
      · rename_i whole
        have rest := ih (fun l' mem => positive l' (List.mem_cons_of_mem _ mem))
          (fun l' mem => opposite l' (List.mem_cons_of_mem _ mem)) (sub_nonneg.2 whole)
        have cashes : f.cash (amount - (take (amount - l.qty) queue).2.1) =
            f.cash (amount - l.qty - (take (amount - l.qty) queue).2.1) + f.cash l.qty := by
          rw [← cash_add]
          congr 1
          ring
        simp only [List.map_cons, List.sum_cons] at rest ⊢
        rw [cashes, add_assoc, rest]
        simp only [Fill.trip, cost, Fill.cash, sign]
        ring
      · simp only [List.map_cons, List.sum_cons, List.map_nil, List.sum_nil, Fill.trip, cost, Fill.cash, sign]
        ring

lemma matchFill_cash {queue : List (Fifo.Lot Leg)} (positive : ∀ l ∈ queue, 0 < l.qty)
    (same_side : ∀ l ∈ queue, ∀ l' ∈ queue, l.data.direction = l'.data.direction) :
    ((matchFill f queue).1.map (·.pnl)).sum + ((matchFill f queue).2.2.map cost).sum =
      (queue.map cost).sum + f.cash (f.qty - (matchFill f queue).2.1) := by
  have entered : cost (f.leg f.qty) = f.cash f.qty := rfl
  cases queue with
  | nil =>
    simp only [matchFill, sub_zero, ← entered]
    simp
  | cons leg rest =>
    rw [matchFill]
    by_cases same : leg.data.direction = f.direction
    · rw [if_pos same, sub_zero, ← entered]
      simp only [List.map_append, List.sum_append, List.map_cons, List.map_nil, List.sum_cons, List.sum_nil]
      ring
    · have opposite : ∀ l ∈ leg :: rest, l.data.direction ≠ f.direction := by
        intro l mem eq
        exact same ((same_side leg List.mem_cons_self l mem).trans eq)
      rw [if_neg same, exitLegs_eq]
      exact exit_cash positive opposite f.positive.le

lemma openCost_fill : (w.fill f).openCost - ((matchFill f (w.legs f.ticker)).2.2.map cost).sum =
    w.openCost - ((w.legs f.ticker).map cost).sum := by
  have after : (w.fill f).openCost = ((matchFill f (w.legs f.ticker)).2.2.map cost).sum +
      ((w.openLegs.erase f.ticker).values.map fun queue => (queue.map cost).sum).sum := by
    rw [Walk.openCost, Walk.fill]
    simp only
    rw [sum_values (fun queue : List (Fifo.Lot Leg) => (queue.map cost).sum) get_set_self, erase_set]
  rw [after, add_sub_cancel_left, Walk.openCost, Walk.legs]
  cases found : w.openLegs.get f.ticker with
  | none =>
    rw [erase_of_get_none found]
    exact (sub_zero _).symm
  | some queue =>
    rw [sum_values (fun queue : List (Fifo.Lot Leg) => (queue.map cost).sum) found, getD_some, add_sub_cancel_left]

lemma Follows.cash (follows : Follows past w) :
    ((fills.foldl Walk.fill w).trips.map (·.pnl)).sum + (fills.foldl Walk.fill w).openCost =
      (w.trips.map (·.pnl)).sum + w.openCost + netCash past fills := by
  induction fills generalizing past w with
  | nil => rw [List.foldl_nil, netCash, add_zero]
  | cons f fills ih =>
    have sound : (bookOf false f.ticker past).Sound := sound_bookOf
    obtain ⟨-, matched⟩ := sound.fill (f := f)
    obtain ⟨next, trips⟩ := follows.fill (f := f)
    have here := matchFill_cash (f := f) (remaining_positive sound.positive) fun l mem l' mem' =>
        sound.same_side mem mem'
    have legs := openCost_fill (w := w) (f := f)
    rw [follows] at legs
    rw [← Book.queue, matched, sub_sub_cancel] at here
    rw [matched] at legs
    rw [List.foldl_cons, ih next, trips, List.map_append, List.sum_append, netCash]
    linarith

/-! ## The round trips -/

lemma walk_start : Walk.start.trips = [] ∧ Walk.start.openCost = 0 := ⟨rfl, rfl⟩

/-- Where nothing is open at the cutoff, the walk finds the matches whose exit is at or after it, in the order of the
exits; from the first fill on, their pnl and the open legs make up the cash. -/
theorem round_trips_exact (history : History) (strategyId : ℕ) (cutoff : Instant) (flat : ∀ symbol, (bookOf false symbol
      ((ofStrategy strategyId history.fills).filter fun f => decide (f.filledAt < cutoff))).openQty = 0) :
    reconstructRoundTrips history strategyId cutoff = roundTrips false (ofStrategy strategyId history.fills) cutoff ∧
      ((∀ f ∈ ofStrategy strategyId history.fills, cutoff ≤ f.filledAt) →
        ((reconstructRoundTrips history strategyId cutoff).map (·.pnl)).sum +
            (walk history strategyId cutoff).openCost = netCash [] (ofStrategy strategyId history.fills)) := by
  have ordered : (ofStrategy strategyId history.fills).Pairwise (·.filledAt ≤ ·.filledAt) :=
    history.ordered.sublist List.filter_sublist
  rw [reconstructRoundTrips, walk]
  generalize ofStrategy strategyId history.fills = fills at flat ordered ⊢
  have begins : Follows (fills.filter fun f => decide (f.filledAt < cutoff)) Walk.start := by
    intro symbol
    rw [sound_bookOf.openQty_eq_zero.1 (flat symbol)]
    rfl
  constructor
  · have old : (fifo false [] (fills.filter fun f => decide (f.filledAt < cutoff))).filter
        (fun m => decide (cutoff ≤ m.1.filledAt)) = [] := by
      rw [List.filter_eq_nil_iff]
      intro m mem
      have before := (List.mem_filter.1 (mem_of_mem_fifo mem)).2
      simpa using before
    have since : (fifo false (fills.filter fun f => decide (f.filledAt < cutoff))
        (fills.filter fun f => decide (cutoff ≤ f.filledAt))).filter (fun m => decide (cutoff ≤ m.1.filledAt)) =
        fifo false (fills.filter fun f => decide (f.filledAt < cutoff))
          (fills.filter fun f => decide (cutoff ≤ f.filledAt)) := by
      rw [List.filter_eq_self]
      intro m mem
      exact (List.mem_filter.1 (mem_of_mem_fifo mem)).2
    have whole : roundTrips false fills cutoff = roundTrips false
        ((fills.filter fun f => decide (f.filledAt < cutoff)) ++ fills.filter fun f => decide (cutoff ≤ f.filledAt))
        cutoff := by rw [← filter_cutoff ordered]
    rw [begins.run.2, whole, roundTrips, fifo_append, List.filter_append, old, List.nil_append, List.nil_append, since]
    rfl
  · intro first
    have all : fills.filter (fun f => decide (cutoff ≤ f.filledAt)) = fills := by
      rw [List.filter_eq_self]
      intro f mem
      exact decide_eq_true (first f mem)
    have fresh : Follows [] Walk.start := fun symbol => rfl
    rw [all, fresh.cash, walk_start.1, walk_start.2]
    simp

def traded (t : Instant) (side : OrderSide) (qty : ℚ) (positive : 0 < qty) : Fill :=
  ⟨qty, 10, 0, t, side, "A", .strategy, "7", positive⟩

def reentered : History :=
  ⟨[traded 1 .buy 10 (by decide), traded 2 .sell 10 (by decide), traded 3 .buy 8 (by decide),
    traded 4 .sell 5 (by decide)], by decide⟩

theorem round_trips_exact_reentered :
    (∀ symbol, (bookOf false symbol
      ((ofStrategy 7 reentered.fills).filter fun f => decide (f.filledAt < 3))).openQty = 0) ∧
    reconstructRoundTrips reentered 7 3 = roundTrips false (ofStrategy 7 reentered.fills) 3 := by
  have past : (ofStrategy 7 reentered.fills).filter (fun f => decide (f.filledAt < 3)) =
      [traded 1 .buy 10 (by decide), traded 2 .sell 10 (by decide)] := rfl
  have flat : ∀ symbol, (bookOf false symbol
      ((ofStrategy 7 reentered.fills).filter fun f => decide (f.filledAt < 3))).openQty = 0 := by
    intro symbol
    rw [past]
    by_cases same : symbol = "A"
    · subst same
      decide +kernel
    · have other : "A" ≠ symbol := Ne.symm same
      simp [bookOf, traded, other, Book.openQty]
  exact ⟨flat, (round_trips_exact reentered 7 3 flat).1⟩

def boughtAndSold : History := ⟨[traded 1 .buy 10 (by decide), traded 2 .sell 4 (by decide)], by decide⟩

def overExited : History :=
  ⟨[traded 1 .buy 10 (by decide), traded 2 .sell 15 (by decide), traded 3 .buy 5 (by decide)], by decide⟩

/-- An exit that crosses zero loses the round trip of its excess, and one of shares from before the cutoff is lost. -/
theorem excess_and_carried_lost :
    (reconstructRoundTrips overExited 7 0).map (·.qty) = [10] ∧
      (roundTrips true (ofStrategy 7 overExited.fills) 0).map (·.qty) = [10, 5] ∧
      (reconstructRoundTrips boughtAndSold 7 2).map (·.qty) = [] ∧
      (roundTrips true (ofStrategy 7 boughtAndSold.fills) 2).map (·.qty) = [4] := by
  refine ⟨?_, ?_, ?_, ?_⟩ <;> decide +kernel

end Workbench.Services.DriftDetection
