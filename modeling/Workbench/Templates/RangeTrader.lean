import Workbench.Db.Enums
import Workbench.Lib.Machine
import Workbench.Lib.Record
import Workbench.Lib.Table

/-!
# The range trader

Model of `strategies_user/templates/range_trader.py` for one symbol: the state that an instance keeps of it
(`SymState`), the levels of a day, what `on_bar` decides once it has read the position (`onPosition`), and the
interleavings of its awaits with acceptances, rejections, fills and cancellations of its orders, with `on_fill`, with
the position row that `get_position_for` returns, and with re-instantiations.

Prices are rationals, the time of a bar is its ET date and the microseconds since midnight.
-/

set_option linter.dupNamespace false

namespace Workbench.Templates
open Workbench.Lib List Bool

/-! ## Parameters and state -/

/-- The `level_mode` parameter. -/
inductive LevelMode where
  | fixed
  | openingRange
deriving DecidableEq, Repr

/-- `default_params` of the range trader. -/
structure RangeParams where
  levelMode : LevelMode := .openingRange
  openingRangeMinutes : Nat := 30
  stopBufferPct : ℚ := 5 / 1000
  entryZonePct : ℚ := 0
  entryZoneAtrMult : ℚ := 0
  atr20Pct : ℚ := 0
  vwapGatePct : ℚ := 0
  entryPrice : ℚ := 0
  exitPrice : ℚ := 0
  stopPrice : ℚ := 0
  riskPerTradePct : ℚ := 1 / 100
  perPositionBudget : ℚ := 0
  initialEquityEstimate : ℚ := 100000
  maxPositionQty : Nat := 100
  maxTradesPerDay : Nat := 4
  noTradeOpenMinutes : Nat := 5
  hardExitBeforeCloseMinutes : Nat := 5
  scaleOutPct : ℚ := 0
  scaleOutTargetPct : ℚ := 1 / 2

/-- A bar, at a time of an ET day. -/
structure Bar where
  day : Nat
  tod : Nat
  h : ℚ
  l : ℚ
  c : ℚ
  v : Nat
deriving DecidableEq

/-- The in-flight flag. -/
inductive Pending where
  | entry
  | exit
deriving DecidableEq, Repr

/-- The levels of a day. -/
structure Levels where
  entry : ℚ := 0
  exit : ℚ := 0
  stop : ℚ := 0
deriving DecidableEq

/-- Python `_SymState`. -/
structure SymState where
  tradeDay : Option Nat := none
  tradesToday : Nat := 0
  stoppedToday : Bool := false
  pending : Option Pending := none
  invalidLoggedDay : Option Nat := none
  scaledOut : Bool := false
  levelsEmittedDay : Option Nat := none
  orHigh : Option ℚ := none
  orLow : Option ℚ := none
  dynLevels : Option Levels := none
  cumPv : ℚ := 0
  cumV : ℚ := 0
  vwap : Option ℚ := none

/-- Python `roll_day`. -/
def SymState.rollDay (st : SymState) (day : Nat) : SymState :=
  { tradeDay := some day, invalidLoggedDay := st.invalidLoggedDay }

/-- A `Position` row. -/
structure PositionRow where
  long : Bool
  qty : ℚ
deriving DecidableEq

/-! ## Times -/

def minute : Nat := 60000000

/-- Python `_shift`, of a time in minutes. -/
def shift (t : Nat) (minutes : Int) : Nat := (max 0 (min (t + minutes) 1439)).toNat * minute

/-- `SESSION_OPEN`, in minutes. -/
def sessionOpen : Nat := 9 * 60 + 30

/-- `SESSION_CLOSE`, in minutes. -/
def sessionClose : Nat := 16 * 60

variable (p : RangeParams)

def orEnd : Nat := shift sessionOpen p.openingRangeMinutes

/-- Whether a bar belongs to the opening range. -/
def RangeParams.opening (bar : Bar) : Bool := sessionOpen * minute ≤ bar.tod ∧ bar.tod < orEnd p

def closeCutoff : Nat := shift sessionClose (-p.hardExitBeforeCloseMinutes)

def openCutoff : Nat := shift sessionOpen p.noTradeOpenMinutes

/-! ## Levels -/

/-- `round(x, 4)`, half to even. -/
def round4 (x : ℚ) : ℚ :=
  let down := ⌊x * 10000⌋
  let part := x * 10000 - down
  let n := if part < 1 / 2 ∨ part = 1 / 2 ∧ down % 2 = 0 then down else down + 1
  n / 10000

def rangeLevels (low high : ℚ) : Levels := ⟨round4 low, round4 high, round4 (low * (1 - p.stopBufferPct))⟩

/-- Python `_resolve_levels`: the levels, and the state it leaves. -/
def resolveLevels (bar : Bar) (st : SymState) : Levels × SymState :=
  match p.levelMode with
  | .fixed => (⟨p.entryPrice, p.exitPrice, p.stopPrice⟩, st)
  | .openingRange =>
    if p.opening bar then
      ({}, { st with
        orHigh := some ((st.orHigh.map (max · bar.h)).getD bar.h)
        orLow := some ((st.orLow.map (min · bar.l)).getD bar.l) })
    else
      let dyn : Option Levels := match st.dynLevels, st.orHigh, st.orLow with
        | none, some high, some low => if low < high then some (rangeLevels p low high) else none
        | known, _, _ => known
      (dyn.getD {}, { st with dynLevels := dyn })

def SymState.updateVwap (st : SymState) (bar : Bar) : SymState :=
  let typical := (bar.h + bar.l + bar.c) / 3
  let vol : ℚ := if bar.v = 0 then 1 else bar.v
  let cumPv := st.cumPv + typical * vol
  let cumV := st.cumV + vol
  { st with cumPv, cumV, vwap := if cumV = 0 then none else some (cumPv / cumV) }

/-- Python `_levels_ok`. -/
def levelsOk (lv : Levels) : Bool :=
  if 0 < lv.entry ∧ 0 < lv.exit ∧ lv.exit ≤ lv.entry then false
  else if 0 < lv.entry ∧ 0 < lv.stop ∧ lv.entry ≤ lv.stop then false
  else ¬ (0 < lv.exit ∧ 0 < lv.stop ∧ lv.exit ≤ lv.stop)

/-- Python `_size_position`. -/
def sizePosition (equity : ℚ) (lv : Levels) : Int :=
  let dist := if 0 < lv.stop then lv.entry - lv.stop else lv.entry * (2 / 100)
  if 0 < lv.stop ∧ lv.entry ≤ lv.stop then 0
  else if dist ≤ 0 then 0
  else
    let qty := min (equity * p.riskPerTradePct / dist) p.maxPositionQty
    let qty := if 0 < p.perPositionBudget ∧ 0 < lv.entry then min qty (p.perPositionBudget / lv.entry) else qty
    -- `int` truncates towards zero
    if 0 ≤ qty then ⌊qty⌋ else ⌈qty⌉

/-! ## What a bar leads to -/

/-- Why an order is submitted. -/
inductive Reason where
  | timeExit
  | stopLoss
  | rangeExit
  | scaleOut
  | rangeEntry
deriving DecidableEq, Repr

/-- What `on_bar` does after it has read the position. -/
inductive Decision where
  | done
  | logInvalid
  | submit (side : OrderSide) (qty : ℚ) (reason : Reason)
deriving DecidableEq

/-- A call of `_submit`, which does nothing for a quantity that is not positive. -/
def order (side : OrderSide) (qty : ℚ) (reason : Reason) : Decision :=
  if qty ≤ 0 then .done else .submit side qty reason

/-- `in_long`. -/
def inLong (row : Option PositionRow) : Bool := row.any fun r => r.long && decide (0 < r.qty)

/-- `position.qty`. -/
def rowQty (row : Option PositionRow) : ℚ := (row.map (·.qty)).getD 0

/-- The pending flag after the position is read. -/
def SymState.reconcile (st : SymState) (long : Bool) : SymState :=
  if st.pending = some .exit ∧ long = false ∨ st.pending = some .entry ∧ long = true then { st with pending := none }
  else st

def buyCeiling (lv : Levels) : ℚ :=
  let ceiling :=
    if 0 < p.entryZoneAtrMult ∧ 0 < p.atr20Pct then lv.entry + p.entryZoneAtrMult * p.atr20Pct * lv.entry
    else if 0 < p.entryZonePct ∧ p.entryZonePct ≤ 1 ∧ lv.entry < lv.exit then
      lv.entry + p.entryZonePct * (lv.exit - lv.entry)
    else lv.entry
  if lv.entry < lv.exit then min ceiling lv.exit else ceiling

/-- The part of `on_bar` that enters near support, without a position and without an order in flight. -/
def enter (equity : ℚ) (st : SymState) (bar : Bar) (lv : Levels) : Decision × SymState :=
  if lv.entry ≤ 0 then (.done, st)
  else if buyCeiling p lv < bar.c then (.done, st)
  else if 0 < p.vwapGatePct ∧ (st.vwap.any fun vwap => bar.c < vwap * (1 - p.vwapGatePct)) then (.done, st)
  else if levelsOk lv = false then
    (if st.invalidLoggedDay = some bar.day then .done else .logInvalid, { st with invalidLoggedDay := some bar.day })
  else if st.stoppedToday then (.done, st)
  else if 0 < lv.stop ∧ bar.c ≤ lv.stop then (.done, { st with stoppedToday := true })
  else if p.maxTradesPerDay ≤ st.tradesToday then (.done, st)
  else (order .buy (sizePosition p equity lv) .rangeEntry, st)

/-- The part of `on_bar` after the position is read: what it does, and the state it leaves. -/
def onPosition (equity : ℚ) (st : SymState) (bar : Bar) (lv : Levels) (row : Option PositionRow) :
    Decision × SymState :=
  let long := inLong row
  let st := st.reconcile long
  let exiting := st.pending = some .exit
  if closeCutoff p ≤ bar.tod then
    (if long ∧ ¬ exiting then order .sell (rowQty row) .timeExit else .done, st)
  else if long ∧ 0 < lv.stop ∧ bar.c ≤ lv.stop then
    (if exiting then .done else order .sell (rowQty row) .stopLoss, { st with stoppedToday := true })
  else if long ∧ 0 < lv.exit ∧ lv.exit ≤ bar.c then
    (if exiting then .done else order .sell (rowQty row) .rangeExit, st)
  else if long ∧ st.scaledOut = false ∧ ¬ exiting ∧ 0 < p.scaleOutPct ∧ p.scaleOutPct < 1 ∧ lv.entry < lv.exit ∧
      0 < lv.entry ∧ lv.entry + p.scaleOutTargetPct * (lv.exit - lv.entry) ≤ bar.c then
    (order .sell ⌊rowQty row * p.scaleOutPct⌋ .scaleOut, st)
  else if bar.tod < openCutoff p then (.done, st)
  else if long ∨ st.pending ≠ none then (.done, st)
  else enter p equity st bar lv

/-- What `on_bar` sets when an order was accepted. -/
def SymState.accepted (st : SymState) (reason : Reason) : SymState :=
  match reason with
  | .timeExit | .stopLoss | .rangeExit => { st with pending := some .exit }
  | .scaleOut => { st with scaledOut := true }
  | .rangeEntry => { st with tradesToday := st.tradesToday + 1, pending := some .entry }

/-! ## The trader at work -/

/-- An order of the strategy for the symbol. `calm` says that since its acceptance neither `on_fill` was called nor
a new day begun. -/
structure Order where
  side : OrderSide
  reason : Reason
  qty : ℚ
  filled : ℚ := 0
  live : Bool := true
  calm : Bool := true

def Order.remaining (o : Order) : ℚ := o.qty - o.filled

/-- Where a call of `on_bar` is: each constructor is an await. `due` says that the call has seen a position to be
protected. -/
inductive Call where
  | ended
  | equity (epoch : Nat) (bar : Bar)
  | emitting (epoch : Nat) (bar : Bar) (lv : Levels)
  | reading (epoch : Nat) (bar : Bar) (lv : Levels)
  | submitting (epoch : Nat) (bar : Bar) (side : OrderSide) (qty : ℚ) (reason : Reason) (due : Bool)
  | logging (epoch : Nat) (bar : Bar) (reason : Reason) (accepted : Option Nat) (due : Bool)
  | explaining (due : Bool)
deriving DecidableEq

/-- What is recorded of a run. -/
inductive Happened where
  | broken (day : Nat)
  | entered (day : Nat)
  | accepted (day : Nat)
  | returned (due sold live : Bool)
deriving DecidableEq

/-- The instances of the strategy (one an `epoch`), its calls, its orders, the quantity held, and the visible
position row. -/
structure Desk where
  epoch : Nat := 0
  sym : Nat → Option SymState := fun _ => none
  equity : Nat → ℚ
  calls : List Call := []
  orders : List Order := []
  held : ℚ := 0
  row : Option PositionRow := none
  bars : List (Nat × Bar) := []
  log : List Happened := []

/-- Who moves, with what the environment decides. -/
inductive RangeLabel where
  | reinstantiate
  | begin (bar : Bar)
  | equityRead (call : Nat) (equity : Option ℚ)
  | emitted (call : Nat)
  | read (call : Nat)
  | accept (call : Nat)
  | reject (call : Nat)
  | logged (call : Nat)
  | fail (call : Nat)
  | refreshEquity (equity : ℚ)
  | fill (order : Nat) (qty : ℚ)
  | die (order : Nat)
  | onFill
  | showRow (row : Option PositionRow)

/-- The bars of the opening range of a day, among those that `on_bar` was called with. -/
def openingBars (bars : List (Nat × Bar)) (day : Nat) : List Bar :=
  (bars.map (·.2)).filter fun b => b.day = day ∧ p.opening b

/-- The stop that the day's own bars define, zero when there is none. -/
def dayStop (bars : List (Nat × Bar)) (bar : Bar) : ℚ :=
  match p.levelMode with
  | .fixed => p.stopPrice
  | .openingRange =>
    match ((openingBars p bars bar.day).map (·.l)).min?, ((openingBars p bars bar.day).map (·.h)).max? with
    | some low, some high => if orEnd p ≤ bar.tod ∧ low < high then (rangeLevels p low high).stop else 0
    | _, _ => 0

namespace Desk

def setCall (s : Desk) (call : Nat) (x : Call) : Desk := { s with calls := s.calls.set call x }

/-- An instance writes the state of the symbol. -/
def setSym (s : Desk) (epoch : Nat) (st : SymState) : Desk := { s with sym := Function.update s.sym epoch (some st) }

def disturb (s : Desk) : Desk := { s with orders := s.orders.map fun o => { o with calm := false } }

def sellLive (s : Desk) : Bool := s.orders.any fun o => o.live && o.side == .sell

/-- Whether a position is to be protected at a bar: the close is near, or the day's own stop is reached. -/
def due (p : RangeParams) (s : Desk) (bar : Bar) : Bool :=
  inLong s.row && (decide (closeCutoff p ≤ bar.tod) || decide (0 < dayStop p s.bars bar ∧ bar.c ≤ dayStop p s.bars bar))

/-- The part of `on_bar` before the position is read: the VWAP and the levels; they are published once a day. -/
def resolve (p : RangeParams) (s : Desk) (call epoch : Nat) (bar : Bar) (st : SymState) : Desk :=
  let (lv, st) := resolveLevels p bar (st.updateVwap bar)
  if 0 < lv.entry ∧ 0 < lv.exit ∧ st.levelsEmittedDay ≠ some bar.day then
    (s.setSym epoch { st with levelsEmittedDay := some bar.day }).setCall call (.emitting epoch bar lv)
  else (s.setSym epoch st).setCall call (.reading epoch bar lv)

/-- `on_bar` is called: the call is about to read the equity, if the day is new. -/
def call (s : Desk) (bar : Bar) : Desk :=
  { s with bars := (s.epoch, bar) :: s.bars, calls := s.calls ++ [.equity s.epoch bar] }

/-- The equity that positions are sized by, when there is one. -/
def sizeBy (s : Desk) (epoch : Nat) (equity : Option ℚ) : Desk :=
  match equity with
  | some e => if 0 < e then { s with equity := Function.update s.equity epoch e } else s
  | none => s

lemma sizeBy_eq {s : Desk} {epoch : Nat} {equity : Option ℚ} :
    ∃ sized, s.sizeBy epoch equity = { s with equity := sized } := by
  unfold sizeBy
  split
  · split
    · exact ⟨_, rfl⟩
    · exact ⟨_, rfl⟩
  · exact ⟨_, rfl⟩

def note (s : Desk) (happened : Prop) [Decidable happened] (what : Happened) : Desk :=
  if happened then { s with log := what :: s.log } else s

def finish (s : Desk) (call : Nat) (due sold : Bool) : Desk :=
  { s.setCall call .ended with log := .returned due sold s.sellLive :: s.log }

/-- A call has decided: it returns, explains why it does not enter, or submits. -/
def decided (s : Desk) (call epoch : Nat) (bar : Bar) (due : Bool) : Decision → Desk
  | .done => s.finish call due false
  | .logInvalid => s.setCall call (.explaining due)
  | .submit side qty reason =>
    (s.note (side = .buy) (.entered bar.day)).setCall call (.submitting epoch bar side qty reason due)

end Desk

def rangeTrader (p : RangeParams) : Machine Desk RangeLabel where
  step s
    | .reinstantiate =>
      some { s with epoch := s.epoch + 1, equity := Function.update s.equity (s.epoch + 1) p.initialEquityEstimate }
    | .begin bar =>
      let st := (s.sym s.epoch).getD {}
      if st.tradeDay = some bar.day then some ((s.call bar).resolve p s.calls.length s.epoch bar st)
      else some ((s.call bar).disturb.setSym s.epoch (st.rollDay bar.day))
    | .equityRead call equity =>
      match s.calls[call]? with
      | some (.equity epoch bar) =>
        match s.sym epoch with
        | none => none
        | some st => some ((s.sizeBy epoch equity).resolve p call epoch bar st)
      | _ => none
    | .emitted call =>
      match s.calls[call]? with
      | some (.emitting epoch bar lv) => some (s.setCall call (.reading epoch bar lv))
      | _ => none
    | .read call =>
      match s.calls[call]? with
      | some (.reading epoch bar lv) =>
        match s.sym epoch with
        | none => none
        | some st =>
          let after := onPosition p (s.equity epoch) st bar lv s.row
          some (((s.note (inLong s.row ∧ 0 < lv.stop ∧ bar.c ≤ lv.stop) (.broken bar.day)).setSym epoch after.2).decided
            call epoch bar (s.due p bar) after.1)
      | _ => none
    | .accept call =>
      match s.calls[call]? with
      | some (.submitting epoch bar side qty reason due) =>
        some { (s.note (side = .buy) (.accepted bar.day)).setCall call
                 (.logging epoch bar reason (some s.orders.length) due) with
               orders := s.orders ++ [{ side, reason, qty }] }
      | _ => none
    | .reject call =>
      match s.calls[call]? with
      | some (.submitting epoch bar _ _ reason due) => some (s.setCall call (.logging epoch bar reason none due))
      | _ => none
    | .logged call =>
      match s.calls[call]? with
      | some (.logging epoch _ reason accepted due) =>
        match s.sym epoch with
        | none => none
        | some st =>
          some ((if accepted.isSome then s.setSym epoch (st.accepted reason) else s).finish call due
            (decide (reason ≠ .rangeEntry)))
      | some (.explaining due) => some (s.finish call due false)
      | _ => none
    | .fail call => some (s.setCall call .ended)
    | .refreshEquity equity => some { s with equity := Function.update s.equity s.epoch equity }
    | .fill i x =>
      match s.orders[i]? with
      | some o =>
        if o.live ∧ 0 < x ∧ x ≤ o.remaining then
          some { s with
            orders :=
              Table.amend i (fun o => { o with filled := o.filled + x, live := decide (x < o.remaining) }) s.orders
            held := match o.side with | .buy => s.held + x | .sell => s.held - x }
        else none
      | none => none
    | .die i => some { s with orders := Table.amend i (fun o => { o with live := false }) s.orders }
    | .onFill =>
      let s := s.disturb
      some (match s.sym s.epoch with
        | none => s
        | some st => s.setSym s.epoch { st with pending := none })
    | .showRow row => some { s with row }

/-! ## One call at a time -/

def Alone (calls : List Call) : Prop :=
  ∀ (i j : Nat) (c d : Call), calls[i]? = some c → calls[j]? = some d → c ≠ .ended → d ≠ .ended → i = j

section
variable {calls : List Call} {i : Nat} {c x : Call}

lemma Alone.only (h : Alone calls) (get : calls[i]? = some c) (active : c ≠ .ended) :
    ∀ d ∈ calls, d = c ∨ d = .ended := by
  intro d mem
  obtain ⟨j, get'⟩ := mem_iff_getElem?.1 mem
  by_cases ended : d = .ended
  · exact Or.inr ended
  · obtain rfl := h i j c d get get' active ended
    exact Or.inl (Option.some.inj (get'.symm.trans get))

lemma Alone.others (h : Alone calls) (get : calls[i]? = some c) (active : c ≠ .ended) :
    ∀ d ∈ calls.set i x, d = x ∨ d = .ended := by
  intro d mem
  obtain ⟨j, get'⟩ := mem_iff_getElem?.1 mem
  rw [getElem?_set] at get'
  split at get'
  · split at get'
    · exact Or.inl (Option.some.inj get').symm
    · cases get'
  · rename_i ne
    refine Or.inr ?_
    apply by_contra
    intro other
    exact ne (h i j c d get get' active other)

lemma Alone.set (h : Alone calls) (get : calls[i]? = some c) (active : c ≠ .ended) : Alone (calls.set i x) := by
  have only {j : Nat} {d : Call} (get_j : (calls.set i x)[j]? = some d) (d_active : d ≠ .ended) : j = i := by
    rw [getElem?_set] at get_j
    split at get_j
    · rename_i eq
      exact eq.symm
    · exact (h i j c d get get_j active d_active).symm
  intro j k d e get_j get_k d_active e_active
  rw [only get_j d_active, only get_k e_active]

lemma Alone.add (idle : ∀ c ∈ calls, c = .ended) : Alone (calls ++ [x]) := by
  have last {j : Nat} {d : Call} (get : (calls ++ [x])[j]? = some d) (active : d ≠ .ended) : j = calls.length := by
    rw [getElem?_append] at get
    split at get
    · exact absurd (idle d (mem_of_getElem? get)) active
    · have lt := (List.getElem?_eq_some_iff.1 get).1
      rw [length_singleton] at lt
      omega
  intro j k c d get_j get_k active_j active_k
  rw [last get_j active_j, last get_k active_k]

lemma Alone.any {f : Call → Bool} (h : Alone calls) (get : calls[i]? = some c) (active : c ≠ .ended)
    (ended : f .ended = false) : calls.any f = f c := by
  cases has : f c with
  | true => exact any_eq_true.2 ⟨c, mem_of_getElem? get, has⟩
  | false =>
    apply any_eq_false.2
    intro d mem
    rcases h.only get active d mem with rfl | rfl
    · rw [has]
      exact false_ne_true
    · rw [ended]
      exact false_ne_true

lemma Alone.any_set {f : Call → Bool} (h : Alone calls) (get : calls[i]? = some c) (active : c ≠ .ended)
    (ended : f .ended = false) : (calls.set i x).any f = f x := by
  have at_i : (calls.set i x)[i]? = some x := by
    rw [getElem?_set_self (List.getElem?_eq_some_iff.1 get).1]
  cases has : f x with
  | true => exact any_eq_true.2 ⟨x, mem_of_getElem? at_i, has⟩
  | false =>
    apply any_eq_false.2
    intro d mem
    rcases h.others get active d mem with rfl | rfl
    · rw [has]
      exact false_ne_true
    · rw [ended]
      exact false_ne_true

lemma any_of_idle {f : Call → Bool} (idle : ∀ c ∈ calls, c = .ended) (ended : f .ended = false) :
    calls.any f = false := by
  apply any_eq_false.2
  intro d mem
  rw [idle d mem, ended]
  exact false_ne_true

end

end Workbench.Templates
