import Workbench.Services.EquityCurve

/-!
# Cash accounting of the equity curve

Cash accounting is the measure of the curve: the capital, the cash of the fills up to the end of the day, and the
quantities at their closes (`cashEquity`). A fill of the walk keeps the books but for what it leaves out
(`CurveBook.leftOut`): the commission of a fill that scales in, and the remainder of a fill that takes a position
through zero, which stays at the average cost of the position that it closed. So a day is off by what its fills left out
(`reconstructed_equity`).
-/

set_option linter.dupNamespace false

namespace Workbench.Services
open Workbench.Lib List Dict

def StrategyFill.cash (fill : StrategyFill) : ℚ := -(fill.signed * fill.price) - fill.commission

/-- The signed quantity of a symbol that fills add up to. -/
def net (symbolId : Nat) (fills : List StrategyFill) : ℚ :=
  ((fills.filter (·.symbolId = symbolId)).map StrategyFill.signed).sum

def symbolsOf (fills : List StrategyFill) : Finset Nat := (fills.map (·.symbolId)).toFinset

/-- What the equity of a day should be: capital, cash, and the quantities at the closes. -/
def cashEquity (closeOnDay : Nat → Nat → Option ℚ) (fills : List StrategyFill) (day : Nat) (capitalBase : ℚ) : ℚ :=
  capitalBase + (fills.map StrategyFill.cash).sum +
    ∑ s ∈ symbolsOf fills, net s fills * (closeOnDay s day).getD 0

def Priced (closeOnDay : Nat → Nat → Option ℚ) (fills : List StrategyFill) (day : Nat) : Prop :=
  ∀ s, net s fills ≠ 0 → (closeOnDay s day).isSome = true

/-- What the walk leaves out of the cash of a fill. -/
def CurveBook.leftOut (book : CurveBook) (fill : StrategyFill) : ℚ :=
  let pos := book.lot fill.symbolId
  if pos.scalingIn fill.signed then fill.commission
  else if pos.qty * (pos.qty + fill.signed) < 0 then (fill.price - pos.avgCost) * (pos.qty + fill.signed)
  else 0

/-- What the walk leaves out of the cash of fills. -/
def leftOuts : CurveBook → List StrategyFill → ℚ
  | _, [] => 0
  | book, fill :: fills => book.leftOut fill + leftOuts (book.add fill) fills

def walked (fills : List StrategyFill) : CurveBook := fills.foldl CurveBook.add {}

/-- The realized profit of a book less what its positions cost. -/
def CurveBook.value (book : CurveBook) (symbols : Finset Nat) : ℚ :=
  book.realizedPnl - ∑ s ∈ symbols, (book.lot s).qty * (book.lot s).avgCost

/-! ## One fill -/

section Position
variable {lot : Lot} {signed price : ℚ}

lemma scaleIn_cost (scales : lot.scalingIn signed) :
    (lot.scaleIn signed price).qty * (lot.scaleIn signed price).avgCost = lot.qty * lot.avgCost + signed * price := by
  simp only [Lot.scaleIn]
  by_cases open_ : lot.qty + signed = 0
  · -- the only way to scale in to nothing is from nothing with nothing
    have none : lot.qty = 0 ∧ signed = 0 := by
      obtain ⟨long, buy⟩ | ⟨short, sell⟩ | flat := scales
      · exact absurd open_ (by linarith)
      · exact absurd open_ (by linarith)
      · exact ⟨flat, by rwa [flat, zero_add] at open_⟩
    simp [none]
  · rw [if_pos open_]
    exact mul_div_cancel₀ _ open_

lemma reduce_cost : (lot.reduce signed).qty * (lot.reduce signed).avgCost = (lot.qty + signed) * lot.avgCost := by
  simp only [Lot.reduce]
  split
  · rename_i flat
    rw [flat, zero_mul, zero_mul]
  · rfl

lemma closingPnl_eq (reduces : ¬ lot.scalingIn signed) : lot.closingPnl signed price =
    if lot.qty * (lot.qty + signed) < 0 then (price - lot.avgCost) * lot.qty
      else -((price - lot.avgCost) * signed) := by
  simp only [Lot.scalingIn, not_or, not_and, not_lt] at reduces
  obtain ⟨long, short, open_⟩ := reduces
  simp only [Lot.closingPnl]
  obtain neg | pos := lt_or_gt_of_ne open_
  · have buys : 0 ≤ signed := short neg.le
    rw [if_neg neg.not_gt, abs_of_nonneg buys, abs_of_neg neg]
    split
    · rename_i cross
      have through : -lot.qty ≤ signed := by nlinarith
      rw [min_eq_right through]
      ring
    · rename_i stays
      have within : signed ≤ -lot.qty := by nlinarith
      rw [min_eq_left within]
      ring
  · have sells : signed ≤ 0 := long pos.le
    rw [if_pos pos, abs_of_nonpos sells, abs_of_pos pos]
    split
    · rename_i cross
      have through : lot.qty ≤ -signed := by nlinarith
      rw [min_eq_right through]
      ring
    · rename_i stays
      have within : -signed ≤ lot.qty := by nlinarith
      rw [min_eq_left within]
      ring

end Position

section Fill
variable {book : CurveBook} {fill : StrategyFill} {s : Nat} {symbols : Finset Nat}

/-- The position of a symbol after one of its fills. -/
def Lot.after (lot : Lot) (fill : StrategyFill) : Lot :=
  if lot.scalingIn fill.signed then lot.scaleIn fill.signed fill.price else lot.reduce fill.signed

lemma lot_add : (book.add fill).lot s =
    if s = fill.symbolId then (book.lot fill.symbolId).after fill else book.lot s := by
  have stored : (book.add fill).positions =
      book.positions.set fill.symbolId ((book.lot fill.symbolId).after fill) := by
    rw [CurveBook.add, Lot.after]
    split
    · rfl
    · rfl
  rw [CurveBook.lot, stored, get_set]
  split
  · rfl
  · rfl

lemma qty_after {lot : Lot} : (lot.after fill).qty = lot.qty + fill.signed := by
  rw [Lot.after]
  split
  · rfl
  · rfl

lemma value_add (mem : fill.symbolId ∈ symbols) :
    (book.add fill).value symbols = book.value symbols + fill.cash + book.leftOut fill := by
  have others : ∑ s ∈ symbols.erase fill.symbolId, ((book.add fill).lot s).qty * ((book.add fill).lot s).avgCost =
      ∑ s ∈ symbols.erase fill.symbolId, (book.lot s).qty * (book.lot s).avgCost := by
    apply Finset.sum_congr rfl
    intro s other
    rw [lot_add, if_neg (Finset.ne_of_mem_erase other)]
  rw [CurveBook.value, CurveBook.value, ← Finset.add_sum_erase symbols _ mem, others,
    ← Finset.add_sum_erase symbols (fun s => (book.lot s).qty * (book.lot s).avgCost) mem, lot_add, if_pos rfl,
    StrategyFill.cash, CurveBook.leftOut]
  by_cases scales : (book.lot fill.symbolId).scalingIn fill.signed
  · have realized : (book.add fill).realizedPnl = book.realizedPnl := by simp only [CurveBook.add, if_pos scales]
    rw [realized, Lot.after, if_pos scales, scaleIn_cost scales, if_pos scales]
    ring
  · have realized : (book.add fill).realizedPnl = book.realizedPnl +
        ((book.lot fill.symbolId).closingPnl fill.signed fill.price - fill.commission) := by
      simp only [CurveBook.add, if_neg scales]
    rw [realized, Lot.after, if_neg scales, reduce_cost, if_neg scales, closingPnl_eq scales]
    split
    · ring
    · ring

end Fill

/-! ## The walk -/

section Walk
variable {fills : List StrategyFill} {fill : StrategyFill} {book : CurveBook} {s : Nat} {symbols : Finset Nat}

@[simp] lemma walked_nil : walked [] = {} := rfl

@[simp] lemma walked_concat : walked (fills ++ [fill]) = (walked fills).add fill := by simp [walked]

lemma leftOuts_concat :
    leftOuts book (fills ++ [fill]) = leftOuts book fills + (fills.foldl CurveBook.add book).leftOut fill := by
  induction fills generalizing book with
  | nil => simp [leftOuts]
  | cons first fills ih => rw [cons_append, leftOuts, ih, leftOuts, foldl_cons, add_assoc]

lemma net_concat : net s (fills ++ [fill]) = if s = fill.symbolId then net s fills + fill.signed else net s fills := by
  by_cases eq : s = fill.symbolId
  · simp [net, eq]
  · simp [net, eq, Ne.symm eq]

lemma walked_qty : ((walked fills).lot s).qty = net s fills := by
  induction fills using List.reverseRecOn with
  | nil => rfl
  | append_singleton fills fill ih =>
    rw [walked_concat, lot_add, net_concat]
    split
    · rename_i eq
      rw [qty_after, ← eq, ih]
    · exact ih

lemma walked_value (fills : List StrategyFill) (covered : ∀ fill ∈ fills, fill.symbolId ∈ symbols) :
    (walked fills).value symbols = (fills.map StrategyFill.cash).sum + leftOuts {} fills := by
  induction fills using List.reverseRecOn with
  | nil => simp [CurveBook.value, CurveBook.lot, leftOuts]
  | append_singleton fills fill ih =>
    have last : fill ∈ fills ++ [fill] := mem_append_right _ mem_cons_self
    rw [walked_concat, value_add (covered fill last), ih fun fill mem => covered fill (mem_append_left _ mem),
      map_append, map_singleton, sum_append, sum_singleton, leftOuts_concat]
    simp only [walked]
    ring

end Walk

/-! ## A day -/

section Day
variable {fills : List StrategyFill} {closeOnDay : Nat → Nat → Option ℚ} {horizon : Instant} {day : Nat}

lemma walk_eq {book : CurveBook} (sorted : fills.Pairwise fun f f' => f.filledAt ≤ f'.filledAt) :
    walk horizon book fills =
      ((fills.filter (·.filledAt ≤ horizon)).foldl CurveBook.add book, fills.filter (horizon < ·.filledAt)) := by
  induction fills generalizing book with
  | nil => rfl
  | cons fill fills ih =>
    obtain ⟨least, later⟩ := pairwise_cons.1 sorted
    rw [walk]
    split
    · rename_i after
      have all : ∀ f ∈ fill :: fills, horizon < f.filledAt := by
        intro f mem
        obtain rfl | tail := mem_cons.1 mem
        · exact after
        · exact after.trans_le (least f tail)
      have none : (fill :: fills).filter (·.filledAt ≤ horizon) = [] :=
        filter_eq_nil_iff.2 fun f mem early => (all f mem).not_ge (of_decide_eq_true early)
      have whole : (fill :: fills).filter (horizon < ·.filledAt) = fill :: fills :=
        filter_eq_self.2 fun f mem => decide_eq_true (all f mem)
      rw [none, whole]
      rfl
    · rename_i early
      rw [filter_cons_of_pos (by simpa using early), filter_cons_of_neg (by simpa using early), ih later]
      rfl

lemma markPositions_eq_some {close : Nat → Option ℚ} {entries : List (Nat × Lot)} {unrealized marked : ℚ} :
    markPositions close entries unrealized = some marked ↔ (∀ e ∈ entries, e.2.qty ≠ 0 → (close e.1).isSome = true) ∧
        marked = unrealized + (entries.map fun e => e.2.qty * ((close e.1).getD 0 - e.2.avgCost)).sum := by
  induction entries generalizing unrealized with
  | nil =>
    rw [markPositions, Option.some_inj, map_nil, sum_nil, add_zero]
    exact ⟨fun eq => ⟨nofun, eq.symm⟩, fun h => h.2.symm⟩
  | cons e entries ih =>
    obtain ⟨s, pos⟩ := e
    rw [markPositions, forall_mem_cons, map_cons, sum_cons]
    by_cases flat : pos.qty = 0
    · rw [if_pos flat, ih]
      simp [flat]
    · rw [if_neg flat]
      cases found : close s with
      | none => simp [flat]
      | some closePrice =>
        dsimp only
        rw [ih]
        simp [add_assoc]

/-- What a day adds to the curve, from all the fills. -/
def point (closeOnDay : Nat → Nat → Option ℚ) (capitalBase : ℚ) (fills : List StrategyFill) (day : Nat) :
    Option (Instant × ℚ) :=
  let book := walked (fills.filter (·.filledAt ≤ eod day))
  (markPositions (closeOnDay · day) book.positions.entries 0).map fun unrealizedPnl =>
    (eod day, capitalBase + book.realizedPnl + unrealizedPnl)

lemma eod_le {day' : Nat} (le : day ≤ day') : eod day ≤ eod day' :=
  Nat.add_le_add_right (Nat.mul_le_mul_right _ le) _

lemma curveFrom_eq {capitalBase : ℚ} {days : List Nat} (done rest : List StrategyFill)
    (sorted : rest.Pairwise fun f f' => f.filledAt ≤ f'.filledAt) (ascending : days.Pairwise (· < ·))
    (early : ∀ day ∈ days, ∀ f ∈ done, f.filledAt ≤ eod day) :
    curveFrom closeOnDay capitalBase (walked done) rest days =
      days.filterMap (point closeOnDay capitalBase (done ++ rest)) := by
  induction days generalizing done rest with
  | nil => rfl
  | cons day days ih =>
    obtain ⟨least, later⟩ := pairwise_cons.1 ascending
    have walkedOn : walk (eod day) (walked done) rest =
        (walked (done ++ rest.filter (·.filledAt ≤ eod day)), rest.filter (eod day < ·.filledAt)) := by
      rw [walk_eq sorted, walked, walked, foldl_append]
    have upTo : (done ++ rest).filter (·.filledAt ≤ eod day) = done ++ rest.filter (·.filledAt ≤ eod day) := by
      have all : done.filter (·.filledAt ≤ eod day) = done :=
        filter_eq_self.2 fun f mem => decide_eq_true (early day mem_cons_self f mem)
      rw [filter_append, all]
    have whole : done ++ rest.filter (·.filledAt ≤ eod day) ++ rest.filter (eod day < ·.filledAt) = done ++ rest := by
      rw [append_assoc]
      congr 1
      convert Table.filter_append_filter_not sorted _ using 4 with f
      · rw [← decide_not]
        exact decide_eq_decide.2 not_le.symm
      · intro f f' le low
        rw [decide_eq_true_iff] at low ⊢
        exact le.trans low
    have next := ih (done ++ rest.filter (·.filledAt ≤ eod day)) (rest.filter (eod day < ·.filledAt))
      (sorted.filter _) later fun day' mem f walked => by
        have within : eod day ≤ eod day' := eod_le (least day' mem).le
        obtain before | now := mem_append.1 walked
        · exact (early day mem_cons_self f before).trans within
        · exact (of_decide_eq_true (mem_filter.1 now).2).trans within
    rw [whole] at next
    rw [curveFrom, walkedOn, filterMap_cons, point, upTo]
    dsimp only
    cases markPositions (closeOnDay · day)
      (walked (done ++ rest.filter (·.filledAt ≤ eod day))).positions.entries 0 with
    | none => exact next
    | some unrealizedPnl => exact congrArg _ next

end Day

/-! ## The curve -/

section Curve
variable {fills rows rows' : List StrategyFill} {closeOnDay : Nat → Nat → Option ℚ} {capitalBase equity : ℚ}
  {instant : Instant} {day first last s : Nat} {calendar : BusinessCalendar}

lemma net_of_notMem (out : s ∉ symbolsOf fills) : net s fills = 0 := by
  have none : fills.filter (·.symbolId = s) = [] := filter_key_eq_nil fun mem => out (mem_toFinset.2 mem)
  rw [net, none]
  rfl

lemma lot_of_mem {book : CurveBook} {e : Nat × Lot} (mem : e ∈ book.positions.entries) : book.lot e.1 = e.2 := by
  rw [CurveBook.lot, get_of_mem_entries mem]
  rfl

lemma priced_iff : Priced closeOnDay fills day ↔
    ∀ e ∈ (walked fills).positions.entries, e.2.qty ≠ 0 → (closeOnDay e.1 day).isSome = true := by
  constructor
  · intro priced e mem open_
    apply priced
    rwa [← walked_qty, lot_of_mem mem]
  · intro priced s open_
    rw [← walked_qty, CurveBook.lot] at open_
    cases found : (walked fills).positions.get s with
    | none =>
      rw [found] at open_
      exact absurd rfl open_
    | some pos =>
      rw [found] at open_
      exact priced (s, pos) (mem_entries_of_get found) open_

lemma sum_positions (fills : List StrategyFill) (close : Nat → ℚ) :
    ((walked fills).positions.entries.map fun e => e.2.qty * (close e.1 - e.2.avgCost)).sum =
      ∑ s ∈ symbolsOf fills, ((walked fills).lot s).qty * (close s - ((walked fills).lot s).avgCost) := by
  calc
    _ = ∑ s ∈ symbolsOf fills, ((walked fills).positions.get s).elim 0 fun lot =>
      lot.qty * (close s - lot.avgCost) := by
      apply sum_entries_of_support fun s (lot : Lot) => lot.qty * (close s - lot.avgCost)
      intro s lot found out
      have flat : ((walked fills).lot s).qty = 0 := by rw [walked_qty, net_of_notMem out]
      rw [CurveBook.lot, found] at flat
      exact (congrArg (· * (close s - lot.avgCost)) flat).trans (zero_mul _)
    _ = _ := by
      apply Finset.sum_congr rfl
      intro s _
      rw [CurveBook.lot]
      cases (walked fills).positions.get s with
      | none => exact (zero_mul _).symm
      | some lot => rfl

lemma point_eq_some : point closeOnDay capitalBase fills day = some (instant, equity) ↔
    instant = eod day ∧ Priced closeOnDay (fills.filter (·.filledAt ≤ eod day)) day ∧
      equity = cashEquity closeOnDay (fills.filter (·.filledAt ≤ eod day)) day capitalBase +
        leftOuts {} (fills.filter (·.filledAt ≤ eod day)) := by
  generalize upTo : fills.filter (·.filledAt ≤ eod day) = known
  have covered : ∀ fill ∈ known, fill.symbolId ∈ symbolsOf known := fun fill mem =>
    mem_toFinset.2 (mem_map_of_mem mem)
  have value := walked_value known covered
  have marks := sum_positions known fun s => (closeOnDay s day).getD 0
  have measure : capitalBase + (walked known).realizedPnl +
      ((walked known).positions.entries.map fun e => e.2.qty * ((closeOnDay e.1 day).getD 0 - e.2.avgCost)).sum =
      cashEquity closeOnDay known day capitalBase + leftOuts {} known := by
    rw [marks, cashEquity]
    simp only [mul_sub, Finset.sum_sub_distrib, walked_qty]
    simp only [CurveBook.value, walked_qty] at value
    linarith
  simp only [point, upTo, Option.map_eq_some_iff, markPositions_eq_some, zero_add, ← priced_iff]
  constructor
  · rintro ⟨_, ⟨priced, rfl⟩, eq⟩
    obtain ⟨rfl, rfl⟩ := Prod.mk.inj eq
    exact ⟨rfl, priced, measure⟩
  · rintro ⟨rfl, priced, rfl⟩
    exact ⟨_, ⟨priced, rfl⟩, Prod.ext rfl measure⟩

lemma fetchFills_sorted : (fetchFills rows last).Pairwise fun f f' => f.filledAt ≤ f'.filledAt := by
  have : Std.Total fun f f' : StrategyFill => f.filledAt ≤ f'.filledAt := ⟨fun f f' => le_total f.filledAt f'.filledAt⟩
  have : IsTrans StrategyFill fun f f' => f.filledAt ≤ f'.filledAt := ⟨fun _ _ _ => le_trans⟩
  exact pairwise_insertionSort _ _

lemma fetchFills_filter (within : day ≤ last) :
    (fetchFills rows last).filter (·.filledAt ≤ eod day) = fetchFills rows day := by
  rw [fetchFills, fetchFills, Table.filter_insertionSort, filter_filter]
  congr 1
  apply filter_congr
  intro f _
  rw [← Bool.decide_and]
  apply decide_eq_decide.2
  exact ⟨fun h => h.1, fun h => ⟨h, h.trans (eod_le within)⟩⟩

lemma reconstruct_eq : reconstructEquityCurve calendar closeOnDay rows first last capitalBase =
    (calendar.days first last).filterMap (point closeOnDay capitalBase (fetchFills rows last)) :=
  curveFrom_eq [] (fetchFills rows last) fetchFills_sorted (calendar.ascending first last) fun _ _ _ mem => nomatch mem

lemma mem_reconstruct (mem : day ∈ calendar.days first last) :
    (eod day, equity) ∈ reconstructEquityCurve calendar closeOnDay rows first last capitalBase ↔
      Priced closeOnDay (fetchFills rows day) day ∧
        equity = cashEquity closeOnDay (fetchFills rows day) day capitalBase + leftOuts {} (fetchFills rows day) := by
  have within := (calendar.within first last day mem).2
  rw [reconstruct_eq, mem_filterMap]
  constructor
  · intro found
    obtain ⟨day', _, eq⟩ := found
    obtain ⟨same, rest⟩ := point_eq_some.1 eq
    have : day' = day := by
      simp only [eod] at same
      exact (Nat.eq_of_mul_eq_mul_right (by decide) (Nat.add_right_cancel same)).symm
    subst this
    rwa [fetchFills_filter within] at rest
  · intro rest
    refine ⟨day, mem, point_eq_some.2 ⟨rfl, ?_⟩⟩
    rwa [fetchFills_filter within]

lemma net_perm (perm : fills.Perm rows) : net s fills = net s rows :=
  ((perm.filter _).map _).sum_eq

lemma fetchFills_perm (perm : rows'.Perm rows) : (fetchFills rows' last).Perm (fetchFills rows last) :=
  ((perm_insertionSort _ _).trans (perm.filter _)).trans (perm_insertionSort _ _).symm

lemma point_day_eq_some : (point closeOnDay capitalBase fills day).map Prod.fst = some instant ↔
    instant = eod day ∧ Priced closeOnDay (fills.filter (·.filledAt ≤ eod day)) day := by
  rw [Option.map_eq_some_iff]
  constructor
  · intro found
    obtain ⟨p, eq, rfl⟩ := found
    obtain ⟨same, priced, -⟩ := point_eq_some.1 eq
    exact ⟨same, priced⟩
  · intro h
    obtain ⟨rfl, priced⟩ := h
    exact ⟨_, point_eq_some.2 ⟨rfl, priced, rfl⟩, rfl⟩

lemma days_perm (perm : rows'.Perm rows) :
    (reconstructEquityCurve calendar closeOnDay rows' first last capitalBase).map Prod.fst =
      (reconstructEquityCurve calendar closeOnDay rows first last capitalBase).map Prod.fst := by
  rw [reconstruct_eq, reconstruct_eq, map_filterMap, map_filterMap]
  apply filterMap_congr
  intro day _
  apply Option.ext
  intro t
  have known : ((fetchFills rows' last).filter (·.filledAt ≤ eod day)).Perm
      ((fetchFills rows last).filter (·.filledAt ≤ eod day)) := (fetchFills_perm perm).filter _
  have same (s : Nat) : net s ((fetchFills rows' last).filter (·.filledAt ≤ eod day)) =
      net s ((fetchFills rows last).filter (·.filledAt ≤ eod day)) := net_perm known
  rw [point_day_eq_some, point_day_eq_some, Priced, Priced]
  simp only [same]

end Curve

def boughtWithCommission : List StrategyFill := [⟨1, .buy, 10, 100, 1, 0⟩]

def soldThrough : List StrategyFill := [⟨1, .buy, 10, 100, 0, 0⟩, ⟨1, .sell, 15, 110, 0, 1⟩]

def flatCloses (price : ℚ) : Nat → Nat → Option ℚ := fun _ _ => some price

def monday : Nat := 20458

end Workbench.Services
