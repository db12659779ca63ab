import Workbench.Templates.MomentumPortfolio

/-!
# The low-volatility book

Model of `_apply_targets` of `strategies_user/templates/low_volatility.py`: names without a price are dropped before
the equity is divided, the quantity is always fractional, and what is on its way is subtracted from the change of a
name before its sign is read.
-/

namespace Workbench.Templates.Weekly.LowVolatility
open Workbench.Lib

/-- `default_params` of the low-volatility book, as far as `_apply_targets` reads them. -/
structure Params extends BookParams, VolParams where
  maxPositionPct : ℚ := 10 / 100
  minTradePct : ℚ := 3 / 100

/-- Python `_investable_equity`. -/
def investableEquity (N : Numerics) (ctx : Ctx) (p : Params) : Except String ℚ := do
  return investableBase ctx p.toBookParams * (← grossScale N ctx p.toBookParams p.toVolParams)

def pricedTargets (ctx : Ctx) (p : Params) : List String → Except String (List (String × ℚ))
  | [] => return []
  | sym :: rest => do
    match ← ctx.price p.toBookParams sym with
    | none => pricedTargets ctx p rest
    | some price =>
      if price ≤ 0 then pricedTargets ctx p rest
      else return (sym, price) :: (← pricedTargets ctx p rest)

def change (p : Params) (perName : ℚ) (inFlight : String → ℚ) (sym : String) (price cur : ℚ) : ℚ :=
  let delta := Rebalance.quantizeQty (perName / price) - cur - inFlight sym
  if 0 < cur ∧ |delta| * price < perName * p.minTradePct then 0 else delta

/-- The loop over the targets: trims are submitted, entries collected. -/
def trims (p : Params) (perName : ℚ) (inFlight : String → ℚ) (held : Dict String ℚ) :
    List (String × ℚ) → Tick (List Sized)
  | [] => pure []
  | (sym, price) :: rest => do
    let delta := change p perName inFlight sym price ((held.get sym).getD 0)
    if delta = 0 then trims p perName inFlight held rest
    else if delta < 0 then do
      submit sym .sell (-delta)
      trims p perName inFlight held rest
    else do
      let buys ← trims p perName inFlight held rest
      return (sym, delta) :: buys

/-- Python `_apply_targets`. A read of the orders in flight that raises is read as none. -/
def applyTargets (N : Numerics) (ctx : Ctx) (p : Params) (pendingBuys : Except String (String → ℚ))
    (held : Dict String ℚ) (target : List String) : Tick Unit := do
  exits held target
  if target = [] then pure ()
  else do
    let priced ← Attempt.ofExcept (pricedTargets ctx p target)
    if priced = [] then pure ()
    else do
      let equity ← Attempt.ofExcept (investableEquity N ctx p)
      let perName := min (equity / priced.length) (equity * p.maxPositionPct)
      let buys ← trims p perName (pendingBuys.toOption.getD fun _ => 0) held priced
      Attempt.each (fun b : Sized => submit b.1 .buy b.2) buys

end Workbench.Templates.Weekly.LowVolatility
