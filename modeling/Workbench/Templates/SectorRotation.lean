import Workbench.Templates.MomentumPortfolio

/-!
# The sector rotation

Model of `strategies_user/templates/sector_rotation.py`: the sectors ranked by the mean momentum of their names, the
baskets of the strongest ones, and the rebalance.
-/

namespace Workbench.Templates.Weekly.SectorRotation
open Workbench.Lib List
variable {ctx : Ctx} {p : Params}

/-- `default_params` of the sector rotation. -/
structure Params extends BookParams, VolParams where
  sectorMomentumLookbackDays : Nat := 252
  sectorMomentumSkipDays : Nat := 0
  topKSectors : Nat := 3
  maxPositionPct : ℚ := 10 / 100
  minTradePct : ℚ := 3 / 100

def Params.window (p : Params) : Window := ⟨p.sectorMomentumLookbackDays, p.sectorMomentumSkipDays⟩

/-- The gate: risk-off is a reading below the average. -/
def riskOff (ctx : Ctx) (p : Params) : Except String Bool := do
  if p.useMarketRegimeFilter then return (← marketBelowMa ctx p.toBookParams) = some true else return false

def eligible (ctx : Ctx) (p : Params) (scores : List ScoreRow) : List ScoreRow :=
  let allowed := (tradeable ctx p.toBookParams).map upper
  scores.filter (·.ticker ∈ allowed)

/-- The eligible names under their sectors, in the order in which the sectors appear. -/
def bySector (sectors : String → Option String) (rows : List ScoreRow) : Dict String (List ScoreRow) :=
  rows.foldl (fun d r => match sectors r.ticker with
    | none => d
    | some sector => d.set sector ((d.get sector).getD [] ++ [r])) Dict.empty

/-- Python `_select_targets`: every name of the `top_k_sectors` strongest sectors. Without sector data the target is
empty. -/
def selectTargets (ctx : Ctx) (p : Params) (scores : List ScoreRow) : List String :=
  let rows := eligible ctx p scores
  if rows = [] then []
  else match ctx.sectors (rows.map (·.ticker)) with
    | .error _ => []
    | .ok sectors =>
      let ranked := (bySector sectors rows).entries.mergeSort fun s s' =>
        mean (s'.2.map (·.score)) ≤ mean (s.2.map (·.score))
      (ranked.take p.topKSectors).flatMap fun s => s.2.map (·.ticker)

/-- Python `_investable_equity`. -/
def investableEquity (N : Numerics) (ctx : Ctx) (p : Params) : Except String ℚ := do
  return investableBase ctx p.toBookParams * (← grossScale N ctx p.toBookParams p.toVolParams)

/-- Python `_apply_targets`. -/
def applyTargets (N : Numerics) (ctx : Ctx) (p : Params) (held : Dict String ℚ) (target : List String) : Tick Unit :=
  Weekly.applyTargets ctx p.toBookParams held target (investableEquity N ctx p)
    (fun equity => target.map fun sym => (sym, MomentumPortfolio.perName p.maxPositionPct equity target))
    (fun _ => { small := fun cur price delta notional => 0 < cur ∧ |delta| * price < notional * p.minTradePct })

/-- Python `_current_holdings`. -/
def currentHoldings (ctx : Ctx) (p : Params) : Dict String ℚ := holdings ctx (tradeable ctx p.toBookParams)

/-- Python `_rebalance`. -/
def rebalance (N : Numerics) (ctx : Ctx) (p : Params) : Tick Unit := do
  if ← Attempt.ofExcept (riskOff ctx p) then applyTargets N ctx p (currentHoldings ctx p) []
  else match ctx.scores p.window with
    | .error (.holdOn _) => pure ()
    | .error (.other e) => Attempt.ofExcept (.error e)
    | .ok scores => applyTargets N ctx p (currentHoldings ctx p) (selectTargets ctx p scores)

/-- The lookup of the sectors of some names raises, or answers for none of them. -/
def NoSectors (ctx : Ctx) (rows : List ScoreRow) : Prop :=
  (∃ error, ctx.sectors (rows.map (·.ticker)) = .error error) ∨
    ∃ sectors, ctx.sectors (rows.map (·.ticker)) = .ok sectors ∧ ∀ r ∈ rows, sectors r.ticker = none

lemma bySector_of_none {sectors : String → Option String} {rows : List ScoreRow}
    (none : ∀ r ∈ rows, sectors r.ticker = none) : bySector sectors rows = Dict.empty := by
  rw [bySector]
  induction rows with
  | nil => rfl
  | cons r rows ih =>
    rw [foldl_cons, none r mem_cons_self]
    exact ih fun r' mem => none r' (mem_cons_of_mem r mem)

lemma selectTargets_of_noSectors {scores : List ScoreRow}
    (missing : NoSectors ctx (eligible ctx p scores)) : selectTargets ctx p scores = [] := by
  rw [selectTargets]
  split
  · rfl
  · cases missing with
    | inl raised =>
      obtain ⟨error, raised⟩ := raised
      rw [raised]
    | inr silent =>
      obtain ⟨sectors, read, silent⟩ := silent
      simp [read, bySector_of_none silent, Dict.empty]

lemma rebalance_of_hold {N : Numerics} {error : String} (riskOn : riskOff ctx p = .ok false)
    (unscored : ctx.scores p.window = .error (.holdOn error)) : (rebalance N ctx p).emitted = [] := by
  rw [rebalance, riskOn, Attempt.ofExcept_ok_bind, unscored]
  rfl

lemma rebalance_of_noSectors {N : Numerics} {scores : List ScoreRow}
    (riskOn : riskOff ctx p = .ok false) (scored : ctx.scores p.window = .ok scores)
    (missing : NoSectors ctx (eligible ctx p scores)) :
    rebalance N ctx p = applyTargets N ctx p (currentHoldings ctx p) [] := by
  rw [rebalance, riskOn, Attempt.ofExcept_ok_bind, scored, ← selectTargets_of_noSectors missing]
  rfl

lemma sells_of_nil {N : Numerics} {name : String} (holds : ctx.Holds (tradeable ctx p.toBookParams) name) :
    ∃ qty, ⟨name, .sell, qty⟩ ∈ (applyTargets N ctx p (currentHoldings ctx p) []).emitted :=
  sells_of_holds holds not_mem_nil

end Workbench.Templates.Weekly.SectorRotation
