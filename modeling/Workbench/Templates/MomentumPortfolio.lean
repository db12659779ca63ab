import Workbench.Templates.WeeklyBook

/-!
# The momentum portfolio

Model of `strategies_user/templates/momentum_portfolio.py`: the regime with its bounded fallback, the dual momentum
filter, the absolute rank bands with the confirmation of an exit at prior closes, displacement, the sector cap and the
rebalance. An order of the eligible names is the list of their tickers, best first.
-/

set_option linter.dupNamespace false

namespace Workbench.Templates.Weekly
open Workbench.Lib

/-- The vol-targeting parameters of a single-sleeve book. -/
structure VolParams where
  useVolScaling : Bool := false
  volTargetAnnual : ℚ := 15 / 100
  volEwmaSpan : Nat := 20

/-- Python `_gross_scale`: it never levers up, and it fails open. -/
def grossScale (N : Numerics) (ctx : Ctx) (p : BookParams) (v : VolParams) : Except String ℚ := do
  if v.useVolScaling then
    match ← ctx.getRecentBars p.marketFilterSymbol "1Day" (v.volEwmaSpan * 3 + 1) with
    | none => return 1
    | some bars =>
      if bars = [] ∨ bars.length < v.volEwmaSpan + 1 then return 1
      else match N.ewmVar v.volEwmaSpan (bars.map (·.c)) with
        | none => return 1
        | some ewmaVar =>
          let realizedAnnual := N.sqrt ewmaVar * N.sqrt 252
          if ewmaVar ≤ 0 ∨ realizedAnnual ≤ 0 then return 1
          else return min 1 (v.volTargetAnnual / realizedAnnual)
  else return 1

/-- The tickers that a book may hold: the registered ones, but for the market proxy. -/
def tradeable (ctx : Ctx) (p : BookParams) : List String :=
  ctx.symbols.filter fun s => upper s ≠ upper p.marketFilterSymbol

namespace MomentumPortfolio

/-- `default_params` of the momentum portfolio. -/
structure Params extends BookParams, VolParams where
  momentumLookbackDays : Nat := 252
  momentumSkipDays : Nat := 21
  maxNames : Nat := 10
  minScore : Option ℚ := some 0
  minRawMomentum : Option ℚ := some 0
  minTradePct : ℚ := 3 / 100
  entryRank : Nat := 5
  holdRank : Nat := 10
  exitConfirmCloses : Nat := 2
  replaceScoreAdvantage : ℚ := 30 / 100
  regimeStaleMaxDays : Nat := 2
  regimeDegradedGross : ℚ := 1 / 2
  regimeDegradedMaxDays : Nat := 4
  maxPositionPct : ℚ := 10 / 100
  maxSectorPct : Option ℚ := none

def Params.window (p : Params) : Window := ⟨p.momentumLookbackDays, p.momentumSkipDays⟩

/-! ## The regime -/

/-- What `_market_regime` returns: whether the market is below its average, and the gross multiplier. -/
structure Regime where
  below : Option Bool
  gross : ℚ

/-- Python `_staleness_days`. -/
def stalenessDays (tickDate : Option Nat) (bars : List Bar) : Option Nat := do
  let now ← tickDate
  let last ← bars.getLast?
  return now - last.t

/-- Python `_market_regime`: without data, and with data that is too old, the gross is zero. -/
def marketRegime (ctx : Ctx) (p : Params) (tickDate : Option Nat) : Except String Regime := do
  match ← ctx.getRecentBars p.marketFilterSymbol "1Day" (p.marketMaDays + 1) with
  | none => return ⟨none, 0⟩
  | some bars =>
    if bars = [] ∨ bars.length < p.marketMaDays + 1 then return ⟨none, 0⟩
    else
      let below := some (belowMean (bars.map (·.c)))
      match stalenessDays tickDate bars with
      | none => return ⟨below, 1⟩
      | some days =>
        if days ≤ p.regimeStaleMaxDays then return ⟨below, 1⟩
        else if days ≤ p.regimeDegradedMaxDays then return ⟨below, p.regimeDegradedGross⟩
        else return ⟨below, 0⟩

/-- The gate: without the filter the regime is not read. -/
def gate (ctx : Ctx) (p : Params) (tickDate : Option Nat) : Except String Regime :=
  if p.useMarketRegimeFilter then marketRegime ctx p tickDate else .ok ⟨none, 1⟩

def Regime.riskOff (r : Regime) : Bool := r.below = some true ∨ r.gross ≤ 0

/-! ## Selection -/

/-- Python `_eligible`: the dual momentum filter, best first. -/
def eligible (S : SortValues) (ctx : Ctx) (p : Params) (scores : List ScoreRow) : List ScoreRow :=
  let allowed := (tradeable ctx p.toBookParams).map upper
  S.sort (scores.filter fun r => r.ticker ∈ allowed ∧ p.minScore.all (· ≤ r.zscore) ∧
    p.minRawMomentum.all (· < r.momentum))

def rank (order : List String) (ticker : String) : Option Nat :=
  if ticker ∈ order then some (order.idxOf ticker + 1) else none

/-- The frames of the prior closes, up to the first that cannot be scored or is not distinct from the current one. -/
def priorFrames (S : SortValues) (ctx : Ctx) (p : Params) (current : List String) :
    List Nat → Except String (List (List String))
  | [] => .ok []
  | asOf :: rest => match ctx.momentumScores (some asOf) ctx.universeSize p.window with
    | .error (.holdOn _) => .ok []
    | .error (.other e) => .error e
    | .ok prev =>
      let order := (eligible S ctx p prev).map (·.ticker)
      if order = current then .ok []
      else do return order :: (← priorFrames S ctx p current rest)

/-- Python `_load_prior_closes`. -/
def loadPriorCloses (S : SortValues) (ctx : Ctx) (p : Params) (current : List String) :
    Except String (List (List String)) := do
  if p.exitConfirmCloses ≤ 1 then return []
  else match ← ctx.getRecentBars p.marketFilterSymbol "1Day" (p.exitConfirmCloses + 4) with
    | none => return []
    | some bars =>
      if bars.length < 2 then return []
      else
        let prior := (bars.map (·.t)).dropLast.reverse
        priorFrames S ctx p current (prior.take (p.exitConfirmCloses - 1))

/-- Python `_exit_confirmed`: it fails closed. -/
def exitConfirmed (p : Params) (frames : List (List String)) (ticker : String) : Bool :=
  p.exitConfirmCloses ≤ 1 ∨
    p.exitConfirmCloses - 1 ≤ frames.length ∧
      (frames.take (p.exitConfirmCloses - 1)).all fun order => (rank order ticker).any (p.holdRank < ·)

def scoreOf (rows : List ScoreRow) (ticker : String) : ℚ := ((rows.find? (·.ticker = ticker)).map (·.score)).getD 0

/-- Displacement: a challenger takes the place of the weakest holding if it is better by the advantage. -/
def displace (p : Params) (rows : List ScoreRow) : List String → List String → List String
  | [], book => book
  | t :: entrants, book =>
    if t ∈ book then displace p rows entrants book
    else match book.argmin (scoreOf rows) with
      | none => book
      | some weakest =>
        if scoreOf rows weakest + p.replaceScoreAdvantage ≤ scoreOf rows t then
          displace p rows entrants (book.set (book.idxOf weakest) t)
        else displace p rows entrants book

/-- `_try_add` of `_apply_sector_cap`: an unknown sector is never capped. -/
def tryAdd (sectors : String → Option String) (maxPer targetN : Nat) (book : List String) (t : String) :
    List String :=
  if targetN ≤ book.length ∨ t ∈ book ∨
      (sectors t).isSome ∧ maxPer ≤ book.countP (fun b => sectors b = sectors t) then book
  else book ++ [t]

/-- Python `_apply_sector_cap`: without sector data the selection stands. -/
def applySectorCap (ctx : Ctx) (p : Params) (final ranked : List String) : List String :=
  match p.maxSectorPct with
  | none => final
  | some maxPct =>
    if maxPct = 0 ∨ 1 ≤ maxPct ∨ final = [] then final
    else match ctx.sectors ranked with
      | .error _ => final
      | .ok sectors =>
        let maxPer := max 1 ⌊maxPct * p.maxNames⌋.toNat
        let picked := final.foldl (tryAdd sectors maxPer final.length) []
        ranked.foldl (tryAdd sectors maxPer final.length) picked

/-- Python `_select_targets`. -/
def selectTargets (S : SortValues) (ctx : Ctx) (p : Params) (frames : List (List String)) (scores : List ScoreRow)
    (held : Dict String ℚ) : List String :=
  let rows := eligible S ctx p scores
  let ranked := rows.map (·.ticker)
  if ranked = [] then []
  else
    let keep := (held.entries.map Prod.fst).filter fun h =>
      (rank ranked h).any fun r => r ≤ p.holdRank ∨ !exitConfirmed p frames h
    let entrants := (ranked.take p.entryRank).filter (· ∉ keep)
    let book := displace p rows entrants (keep ++ entrants.take (p.maxNames - keep.length))
    let final := (ranked.filter (· ∈ book)).take p.maxNames
    applySectorCap ctx p final ranked

/-! ## The rebalance -/

/-- Python `_investable_equity`. -/
def investableEquity (N : Numerics) (ctx : Ctx) (p : Params) (regimeGross : ℚ) : Except String ℚ := do
  return investableBase ctx p.toBookParams * (← grossScale N ctx p.toBookParams p.toVolParams) * regimeGross

def perName (maxPositionPct equity : ℚ) (target : List String) : ℚ :=
  min (equity / target.length) (equity * maxPositionPct)

/-- Python `_apply_targets`. -/
def applyTargets (N : Numerics) (ctx : Ctx) (p : Params) (regimeGross : ℚ) (held : Dict String ℚ)
    (target : List String) : Tick Unit :=
  Weekly.applyTargets ctx p.toBookParams held target (investableEquity N ctx p regimeGross)
    (fun equity => target.map fun sym => (sym, perName p.maxPositionPct equity target))
    (fun _ => {
      small := fun cur price delta notional => 0 < cur ∧ |delta| * price < notional * p.minTradePct
      inFlight := fun sym => ctx.pendingBuyQty (upper sym) })

/-- Python `_current_holdings`. -/
def currentHoldings (ctx : Ctx) (p : Params) : Dict String ℚ := holdings ctx (tradeable ctx p.toBookParams)

/-- Python `_rebalance`. -/
def rebalance (N : Numerics) (ctx : Ctx) (p : Params) (tickDate : Option Nat) : Tick Unit := do
  let regime ← Attempt.ofExcept (gate ctx p tickDate)
  if regime.riskOff then applyTargets N ctx p regime.gross (currentHoldings ctx p) []
  else match ctx.scores p.window with
    | .error (.holdOn _) => pure ()
    | .error (.other e) => Attempt.ofExcept (.error e)
    | .ok scores => do
      let held := currentHoldings ctx p
      let frames ← Attempt.ofExcept (loadPriorCloses N.sort ctx p ((eligible N.sort ctx p scores).map (·.ticker)))
      applyTargets N ctx p regime.gross held (selectTargets N.sort ctx p frames scores held)

lemma rebalance_of_hold {N : Numerics} {ctx : Ctx} {p : Params} {tickDate : Option Nat} {regime : Regime}
    {error : String} (read : gate ctx p tickDate = .ok regime) (riskOn : regime.riskOff = false)
    (unscored : ctx.scores p.window = .error (.holdOn error)) : (rebalance N ctx p tickDate).emitted = [] := by
  rw [rebalance, read, Attempt.ofExcept_ok_bind, riskOn, unscored]
  rfl

end MomentumPortfolio

end Workbench.Templates.Weekly
