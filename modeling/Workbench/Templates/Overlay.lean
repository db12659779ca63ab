import Workbench.Templates.Netting

/-!
# The daily overlay

Model of `on_overlay_tick`, `_overlay_target_gross` and `_investable_base` of
`strategies_user/templates/momentum_portfolio.py`, of `desired_gross` of `app/strategies/overlay/__init__.py`, and of
the ticks, fills and restarts that a book goes through. The EWMA of the gross series is a reading of pandas.
-/

namespace Workbench.Templates.Weekly.MomentumPortfolio
open Workbench.Lib

/-- The parameters of the momentum portfolio that its overlay reads. -/
structure OverlayParams extends Params where
  useDailyOverlay := false
  overlayDriftPct : ℚ := 1 / 100
  overlayGrossSmoothSpan : Option Nat := none
  useBreadthOverlay := false
  useVixOverlay := false

/-- What the overlay reads beside the context: pandas, and the regime signals of the factor accessor. -/
structure Readings where
  /-- The last value of the gross series of some daily returns; `none` where it is not finite. -/
  lastGross : (volTargetAnnual : ℚ) → (span : Nat) → (smooth : Option Nat) → List ℚ → Option ℚ
  marketBreadth : Except String (Option ℚ)
  vixPercentile : Except String (Option ℚ)

/-! ## The target gross -/

/-- Python `_ramp_up`. -/
def rampUp (x lo hi : ℚ) : ℚ :=
  if hi ≤ lo then (if hi ≤ x then 1 else 0) else min 1 (max 0 ((x - lo) / (hi - lo)))

/-- Python `_ramp_down`. -/
def rampDown (x lo hi : ℚ) : ℚ := 1 - rampUp x lo hi

/-- The factor of the regime signals: the worst one governs. -/
def regimeFactor (breadth vixPercentile : Option ℚ) : ℚ :=
  min (breadth.elim 1 fun b => min 1 (rampUp b (30 / 100) (60 / 100)))
    (vixPercentile.elim 1 fun v => min 1 (rampDown v (50 / 100) (90 / 100)))

/-- Python `desired_gross`. -/
def desiredGross (R : Readings) (marketReturns : List ℚ) (volTargetAnnual : ℚ) (volEwmaSpan : Nat)
    (grossSmoothSpan : Option Nat) (breadth vixPercentile : Option ℚ) : ℚ :=
  if volTargetAnnual ≤ 0 ∨ marketReturns.length < 2 then 1
  else match R.lastGross volTargetAnnual volEwmaSpan (grossSmoothSpan.filter (1 < ·)) marketReturns with
    | none => 1
    | some val => min 1 (max 0 (val * regimeFactor breadth vixPercentile))

/-- `pct_change().dropna()` of some closes, without the infinite ones. -/
def finiteReturns : List ℚ → List ℚ
  | a :: b :: rest => if a = 0 then finiteReturns (b :: rest) else (b / a - 1) :: finiteReturns (b :: rest)
  | _ => []

/-- The regime signals that are read: a read that raises leaves neither. -/
def regimeSignals (R : Readings) (p : OverlayParams) : Option ℚ × Option ℚ :=
  match (if p.useBreadthOverlay then R.marketBreadth else .ok none : Except String (Option ℚ)),
    (if p.useVixOverlay then R.vixPercentile else .ok none : Except String (Option ℚ)) with
  | .ok breadth, .ok vix => (breadth, vix)
  | _, _ => (none, none)

def proxySeries (ctx : Ctx) (p : OverlayParams) : Except String (Option (List Bar)) :=
  ctx.getRecentBars p.marketFilterSymbol "1Day" (max p.volEwmaSpan (p.overlayGrossSmoothSpan.getD 0) * 3 + 1)

/-- Python `_overlay_target_gross`. -/
def overlayTargetGross (R : Readings) (ctx : Ctx) (p : OverlayParams) : Except String ℚ := do
  match ← proxySeries ctx p with
  | none => return 1
  | some bars =>
    if bars = [] then return 1
    else
      let (breadth, vix) := regimeSignals R p
      return desiredGross R (finiteReturns (bars.map (·.c))) p.volTargetAnnual p.volEwmaSpan
        (p.overlayGrossSmoothSpan.filter (· ≠ 0)) breadth vix

/-! ## The tick -/

/-- What some holdings are worth; `none` where a price is missing. -/
def invested (ctx : Ctx) (p : OverlayParams) : List (String × ℚ) → Except String (Option ℚ)
  | [] => return some 0
  | (sym, qty) :: rest => do
    match ← ctx.price p.toBookParams sym with
    | none => return none
    | some price =>
      if price ≤ 0 then return none
      else return (← invested ctx p rest).map (qty * price + ·)

def scaledQty (p : OverlayParams) (qty : ℚ) : ℚ :=
  if p.fractionalShares then Rebalance.quantizeQty qty else ⌊qty⌋

def resize (p : OverlayParams) (ratio : ℚ) (holding : String × ℚ) : Tick Unit :=
  let delta := scaledQty p (holding.2 * ratio) - holding.2
  if delta = 0 then pure () else submit holding.1 (if 0 < delta then .buy else .sell) |delta|

/-- Python `on_overlay_tick`. -/
def onOverlayTick (R : Readings) (ctx : Ctx) (p : OverlayParams) : Tick Unit :=
  if p.useDailyOverlay = false then pure ()
  else do
    let desired ← Attempt.ofExcept (overlayTargetGross R ctx p)
    let held := currentHoldings ctx p.toParams
    if held.entries = [] ∨ investableBase ctx p.toBookParams ≤ 0 then pure ()
    else do
      match ← Attempt.ofExcept (invested ctx p held.entries) with
      | none => pure ()
      | some worth =>
        if worth ≤ 0 then pure ()
        else
          let currentGross := worth / investableBase ctx p.toBookParams
          if |desired - currentGross| < p.overlayDriftPct then pure ()
          else Attempt.each (resize p (desired / currentGross)) held.entries

/-! ## Ticks, fills and restarts -/

def Ctx.at (ctx : Ctx) (book : Dict String ℚ) : Ctx :=
  { ctx with getPositionFor := fun sym => (book.get (upper sym)).map fun qty => { qty } }

/-- The book, the orders that have not filled, and whether the overlay has fired. -/
structure Session where
  book : Dict String ℚ
  working : List MarketOrder := []
  fired : Bool := false

/-- A tick, a fill of a part of a working order, or a restart of the process. -/
inductive SessionAct where
  | tick
  | fill (index : Nat) (qty : ℚ)
  | restart

/-- The book after a part of an order has filled. -/
def filled (book : Dict String ℚ) (o : MarketOrder) (qty : ℚ) : Dict String ℚ :=
  book.set o.symbol (quantity book o.symbol + if o.side = .buy then qty else -qty)

/-- One step. The strategy keeps nothing of a tick: a restart changes nothing that the next one reads. -/
def session (R : Readings) (ctx : Ctx) (p : OverlayParams) (s : Session) : SessionAct → Option Session
  | .tick => some { s with
      working := s.working ++ (onOverlayTick R (Ctx.at ctx s.book) p).emitted
      fired := true }
  | .fill index qty => s.working[index]?.bind fun o =>
    if 0 < qty ∧ qty ≤ o.qty then some { s with
      book := filled s.book o qty
      working := if qty = o.qty then s.working.eraseIdx index else s.working.set index { o with qty := o.qty - qty } }
    else none
  | .restart => some s

def sessions (R : Readings) (ctx : Ctx) (p : OverlayParams) : Machine Session SessionAct := ⟨session R ctx p⟩

end Workbench.Templates.Weekly.MomentumPortfolio
