import Workbench.Templates.SectorRotation
import Workbench.Templates.CombinedBook

/-!
# Missing data

What the weekly templates do when the data that their selection needs is missing. A template answers "hold" in its
own way, and the shared trade step reads an empty target as an order to sell everything: the momentum portfolio
returns before it, the sector rotation does so only for the scores, and the combined books trade toward the other
sleeve alone.
-/

set_option linter.dupNamespace false

namespace Workbench.Templates.Weekly
open Workbench.Lib List

/-- A weekly template, with its parameters. -/
inductive Template where
  | momentumPortfolio (p : MomentumPortfolio.Params)
  | sectorRotation (p : SectorRotation.Params)
  | combinedBook (p : CombinedBook.Params)
  | combinedBookV13 (p : CombinedBookV13.Params)

namespace Template

def rebalance (N : Numerics) (ctx : Ctx) (tickDate : Option Nat) : Template → Tick Unit
  | .momentumPortfolio p => MomentumPortfolio.rebalance N ctx p tickDate
  | .sectorRotation p => SectorRotation.rebalance N ctx p
  | .combinedBook p => CombinedBook.rebalance N ctx p
  | .combinedBookV13 p => CombinedBookV13.rebalance N ctx p

/-- Whether the market-regime gate signals risk-off. -/
def riskOff (ctx : Ctx) (tickDate : Option Nat) : Template → Except String Bool
  | .momentumPortfolio p => (·.riskOff) <$> MomentumPortfolio.gate ctx p tickDate
  | .sectorRotation p => SectorRotation.riskOff ctx p
  | .combinedBook p => p.riskOff ctx
  | .combinedBookV13 p => p.riskOff ctx

/-- A held name of the sleeve that the scores select. -/
def HeldInSleeve (ctx : Ctx) (name : String) : Template → Prop
  | .momentumPortfolio p => ctx.Holds (tradeable ctx p.toBookParams) name
  | .sectorRotation p => ctx.Holds (tradeable ctx p.toBookParams) name
  | .combinedBook p => name ∈ p.equityNames ctx ∧ ctx.Holds ctx.symbols name
  | .combinedBookV13 p => name ∈ p.equityNames ctx ∧ ctx.Holds ctx.symbols name

/-- The scores raise an error of `_HOLD_ON`. -/
def Unscored (ctx : Ctx) (w : Window) : Prop := ∃ error, ctx.scores w = .error (.holdOn error)

/-- The data that a selection needs is missing: the scores, or the sectors of the sector rotation. The sector cap of
the momentum portfolio does without them. -/
def Missing (ctx : Ctx) : Template → Prop
  | .momentumPortfolio p => Unscored ctx p.window
  | .sectorRotation p => Unscored ctx p.window ∨
      ∃ scores, ctx.scores p.window = .ok scores ∧ SectorRotation.eligible ctx p scores ≠ [] ∧
        SectorRotation.NoSectors ctx (SectorRotation.eligible ctx p scores)
  | .combinedBook p => Unscored ctx p.window
  | .combinedBookV13 p => Unscored ctx p.window

/-- A read of the cross-asset closes raises, and with it the rebalance. -/
def ClosesRaise (ctx : Ctx) (c : CrossAssetParams) : Prop :=
  ∃ sym ∈ c.symbols, ∃ e,
    ctx.getRecentBars sym "1Day" (c.caLookbackDays + c.caSkipDays + max c.caVolLookbackDays 5 + 5) = .error e

def Holds (ctx : Ctx) : Template → Prop
  | .momentumPortfolio _ => True
  | .sectorRotation p => Unscored ctx p.window ∨ ∀ name, ¬ HeldInSleeve ctx name (.sectorRotation p)
  | .combinedBook p =>
      ClosesRaise ctx p.toCrossAssetParams ∨ ∀ name, ¬ HeldInSleeve ctx name (.combinedBook p)
  | .combinedBookV13 p =>
      ClosesRaise ctx p.toCrossAssetParams ∨ ∀ name, ¬ HeldInSleeve ctx name (.combinedBookV13 p)

def KeepsSleeve (N : Numerics) (ctx : Ctx) (tickDate : Option Nat) (t : Template) : Prop :=
  ∀ o ∈ (t.rebalance N ctx tickDate).emitted, o.side = .sell → ¬ t.HeldInSleeve ctx o.symbol

end Template

open Template

/-! ## The combined books -/

section
variable {N : Numerics} {ctx : Ctx} {p : CombinedParams} {v : Edition}

lemma equitySleeveWeights_of_hold {weights : List ScoreRow → Weights} (riskOn : p.riskOff ctx = .ok false)
    (unscored : Unscored ctx p.window) : equitySleeveWeights p ctx weights = .ok Dict.empty := by
  obtain ⟨error, unscored⟩ := unscored
  rw [equitySleeveWeights, riskOn, unscored]
  rfl

lemma combinedTarget_of_hold (riskOn : p.riskOff ctx = .ok false) (unscored : Unscored ctx p.window) :
    (∃ e, combinedTarget N ctx p v = .error e) ∧ ClosesRaise ctx p.toCrossAssetParams ∨
      ∃ target, combinedTarget N ctx p v = .ok target ∧ Within p.toCrossAssetParams.symbols target := by
  have canonical : ∀ s ∈ p.toCrossAssetParams.symbols, upper s ∈ p.toCrossAssetParams.symbols := by
    intro s mem
    obtain ⟨raw, mem_raw, rfl⟩ := mem_map.1 mem
    rw [upper_upper]
    exact mem
  rw [combinedTarget, equitySleeveWeights_of_hold riskOn unscored]
  cases read : crossAssetSleeveWeights N ctx p.toCrossAssetParams with
  | error e => exact .inl ⟨⟨e, rfl⟩, crossAssetSleeveWeights_error.1 ⟨e, read⟩⟩
  | ok w =>
    have within := crossAssetSleeveWeights_within read
    have equity : Within p.toCrossAssetParams.symbols (addSleeve p.equitySleeveWeight Dict.empty Dict.empty) :=
      addSleeve_within canonical Within.empty Within.empty
    exact .inr ⟨_, rfl, maybeBetaCap_within (addSleeve_within canonical within.mapMaybe equity)⟩

/-- What a combined book does without scores: nothing where a read of the closes raises, else it sells every held
name of the equity sleeve. -/
lemma combinedRebalance_of_hold (riskOn : p.riskOff ctx = .ok false) (unscored : Unscored ctx p.window) :
    (combinedRebalance N ctx p v).emitted = [] ∧ ClosesRaise ctx p.toCrossAssetParams ∨
      ∀ name ∈ p.equityNames ctx, ctx.Holds ctx.symbols name →
        ∃ qty, ⟨name, .sell, qty⟩ ∈ (combinedRebalance N ctx p v).emitted := by
  obtain ⟨⟨e, raised⟩, closes⟩ | ⟨target, computed, within⟩ :=
    combinedTarget_of_hold (N := N) (v := v) riskOn unscored
  · left
    rw [combinedRebalance, raised, Attempt.ofExcept_error_bind]
    exact ⟨rfl, closes⟩
  · right
    intro name equity holds
    rw [combinedRebalance, computed, Attempt.ofExcept_ok_bind]
    apply sells_of_holds holds
    intro mem
    obtain ⟨e, mem_e, rfl⟩ := mem_map.1 mem
    have other := (mem_filter.1 equity).2
    simp only [decide_eq_true_eq] at other
    exact other.1 (within.entry (mem_filter.1 mem_e).1)

lemma combined_keeps_iff (riskOn : p.riskOff ctx = .ok false) (unscored : Unscored ctx p.window) :
    (∀ o ∈ (combinedRebalance N ctx p v).emitted, o.side = .sell →
      ¬ (o.symbol ∈ p.equityNames ctx ∧ ctx.Holds ctx.symbols o.symbol)) ↔ ClosesRaise ctx p.toCrossAssetParams ∨
      ∀ name, ¬ (name ∈ p.equityNames ctx ∧ ctx.Holds ctx.symbols name) := by
  constructor
  · intro keeps
    obtain ⟨-, closes⟩ | sells := combinedRebalance_of_hold (N := N) (v := v) riskOn unscored
    · exact .inl closes
    · right
      intro name held
      obtain ⟨qty, sold⟩ := sells name held.1 held.2
      exact keeps _ sold rfl held
  · intro holds o mem sell held
    cases holds with
    | inl closes =>
      obtain ⟨e, raised⟩ := crossAssetSleeveWeights_error.2 closes
      have target : combinedTarget N ctx p v = .error e := by
        rw [combinedTarget, equitySleeveWeights_of_hold riskOn unscored, raised]
        rfl
      rw [combinedRebalance, target, Attempt.ofExcept_error_bind] at mem
      cases mem
    | inr flat => exact flat o.symbol held

end

/-! ## The four templates -/

lemma regime_of_riskOn {ctx : Ctx} {tickDate : Option Nat} {p : MomentumPortfolio.Params}
    (riskOn : (Template.momentumPortfolio p).riskOff ctx tickDate = .ok false) :
    ∃ regime, MomentumPortfolio.gate ctx p tickDate = .ok regime ∧ regime.riskOff = false := by
  rw [Template.riskOff] at riskOn
  cases read : MomentumPortfolio.gate ctx p tickDate with
  | error e =>
    rw [read] at riskOn
    cases riskOn
  | ok regime =>
    rw [read] at riskOn
    exact ⟨regime, rfl, Except.ok.inj riskOn⟩

/-- Missing data holds the book: always in the momentum portfolio, in the sector rotation without scores or holdings,
and in the combined books without an equity holding or where a cross-asset read raises. -/
theorem missing_data_holds_iff {N : Numerics} {ctx : Ctx} {tickDate : Option Nat} {t : Template}
    (riskOn : t.riskOff ctx tickDate = .ok false) (missing : t.Missing ctx) :
    t.KeepsSleeve N ctx tickDate ↔ t.Holds ctx := by
  cases t with
  | momentumPortfolio p =>
    refine iff_of_true ?_ trivial
    obtain ⟨error, unscored⟩ := missing
    intro o mem
    obtain ⟨regime, read, on⟩ := regime_of_riskOn riskOn
    have none : (MomentumPortfolio.rebalance N ctx p tickDate).emitted = [] :=
      MomentumPortfolio.rebalance_of_hold read on unscored
    rw [Template.rebalance, none] at mem
    cases mem
  | sectorRotation p =>
    cases missing with
    | inl unscored =>
      refine iff_of_true ?_ (.inl unscored)
      obtain ⟨error, unscored⟩ := unscored
      intro o mem
      rw [Template.rebalance, SectorRotation.rebalance_of_hold riskOn unscored] at mem
      cases mem
    | inr noSectors =>
      obtain ⟨scores, scored, -, noSectors⟩ := noSectors
      have sold : (Template.sectorRotation p).rebalance N ctx tickDate =
          SectorRotation.applyTargets N ctx p (SectorRotation.currentHoldings ctx p) [] :=
        SectorRotation.rebalance_of_noSectors riskOn scored noSectors
      constructor
      · intro keeps
        right
        intro name held
        obtain ⟨qty, sell⟩ := SectorRotation.sells_of_nil (N := N) held
        refine keeps ⟨name, .sell, qty⟩ ?_ rfl held
        rw [sold]
        exact sell
      · intro holds o mem sell held
        cases holds with
        | inl unscored =>
          obtain ⟨error, unscored⟩ := unscored
          rw [unscored] at scored
          cases scored
        | inr flat => exact flat o.symbol held
  | combinedBook p => exact combined_keeps_iff riskOn missing
  | combinedBookV13 p => exact combined_keeps_iff riskOn missing

/-! ## A store without sectors -/

def noNumerics : Numerics where
  sort := .stable
  sqrt _ := 0
  ewmVar _ _ := none
  returnStd _ := none
  safeCorr _ _ := 0
  bookVol _ := 0

def sectorless : Ctx where
  symbols := ["AAPL"]
  momentumScores _ _ _ := .ok [⟨"AAPL", 1 / 2, 1, 1⟩]
  sectors _ := .ok fun _ => none
  getRecentBars _ _ _ := .ok none
  getPositionFor _ := some { qty := 10 }
  getAccountEquity := .ok none

private lemma upper_aapl : upper "AAPL" = "AAPL" := by decide +kernel

private lemma upper_spy : upper "SPY" = "SPY" := by decide +kernel

lemma sectorless_tradeable : tradeable sectorless {} = ["AAPL"] := by
  simp [tradeable, sectorless, upper_aapl, upper_spy]

lemma sectorless_riskOn : SectorRotation.riskOff sectorless {} = .ok false := rfl

lemma sectorless_missing : (Template.sectorRotation {}).Missing sectorless := by
  refine .inr ⟨[⟨"AAPL", 1 / 2, 1, 1⟩], rfl, ?_, .inr ⟨fun _ => none, rfl, fun r mem => rfl⟩⟩
  simp [SectorRotation.eligible, sectorless_tradeable, upper_aapl]

lemma sectorless_held : (Template.sectorRotation {}).HeldInSleeve sectorless "AAPL" := by
  refine ⟨"AAPL", ?_, upper_aapl, rfl⟩
  rw [sectorless_tradeable]
  exact mem_singleton_self _

theorem missing_data_holds_iff_sectorless :
    (Template.sectorRotation {}).KeepsSleeve noNumerics sectorless none ↔
      (Template.sectorRotation {}).Holds sectorless :=
  missing_data_holds_iff (t := .sectorRotation {}) sectorless_riskOn sectorless_missing

/-- Missing data does not hold every book: without sectors the sector rotation sells it. -/
theorem not_missing_data_holds :
    ¬ ∀ N ctx tickDate (t : Template), t.riskOff ctx tickDate = .ok false → t.Missing ctx →
      t.KeepsSleeve N ctx tickDate := by
  intro holds
  have keeps := holds noNumerics sectorless none (.sectorRotation {}) sectorless_riskOn sectorless_missing
  have sold : SectorRotation.rebalance noNumerics sectorless {} = SectorRotation.applyTargets noNumerics sectorless {}
      (SectorRotation.currentHoldings sectorless {}) [] :=
    SectorRotation.rebalance_of_noSectors sectorless_riskOn rfl (.inr ⟨fun _ => none, rfl, fun r mem => rfl⟩)
  obtain ⟨qty, sell⟩ := SectorRotation.sells_of_nil (N := noNumerics) sectorless_held
  refine keeps ⟨"AAPL", .sell, qty⟩ ?_ rfl sectorless_held
  show _ ∈ (SectorRotation.rebalance noNumerics sectorless {}).emitted
  rw [sold]
  exact sell

end Workbench.Templates.Weekly
