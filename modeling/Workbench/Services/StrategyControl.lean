import Workbench.Lib.Machine
import Workbench.Lib.Record
import Workbench.Strategies.Engine
import Workbench.Universe.Liquidation

/-!
# Strategy control

Model of `app/services/strategy_control.py`, with the part of `app/services/activation.py` and
`app/services/paper_strategy_liquidation.py` that it calls, beside an engine that dispatches: one call of `deactivate`
for a strategy of its owner, whose awaits interleave with dispatches of the strategy, with the orders that these have
accepted, and with what ends a strategy (a trip of the breaker, an exception).

A requested stop stops (`stop_request_stops`) when a PAPER strategy to be liquidated has no LIVE account beside it, a
strategy that the activation service does not stop is registered, every quantity of the broker is a number, and no
dispatch is under way from the reading of the positions on.
-/

set_option linter.dupNamespace false

namespace Workbench.Services
open Lib Universe Strategies List Option Record

/-! ## The services -/

/-- Python `PaperLiquidationPolicy`. -/
structure PaperLiquidationPolicy where
  enabled : Bool := false
  strategies : List String := []
deriving DecidableEq

/-- Python `permits`. -/
def PaperLiquidationPolicy.permits (policy : PaperLiquidationPolicy) (name : String) : Bool :=
  policy.enabled && policy.strategies.contains name

/-- Python `for_pr_s`. -/
def PaperLiquidationPolicy.forPrS : PaperLiquidationPolicy := { enabled := true, strategies := ["low-volatility"] }

/-- What the services are built with, the accounts of the user, and what does not change of the strategy's row.
    `routed` says that there are a broker registry and an order router, `attributed` that there is a provider of owned
    holdings. -/
structure Setup where
  accounts : List (Nat × AccountMode)
  strategyId : Nat
  name : String
  symbols : List String
  policy : PaperLiquidationPolicy := .forPrS
  engine : Bool := true
  routed : Bool := true
  attributed : Bool := true

/-- Python `StrategyStopOutcome`; `denied` says that there is a reason of a denial. -/
structure StrategyStopOutcome where
  liquidationRequested : Bool
  liquidationRoute : Option AccountMode := none
  liquidation : Option (List LiquidationLine) := none
  liquidationOrderIds : List Nat := []
  denied : Bool := false
deriving DecidableEq

/-- The outcome of a liquidation: the LIVE branch returns ids rather than lines. -/
def liquidated (route : AccountMode) (lines : List LiquidationLine) : StrategyStopOutcome where
  liquidationRequested := true
  liquidationRoute := some route
  liquidation := match route with
    | .paper => some lines
    | .live => none
  liquidationOrderIds := lines.filterMap fun line =>
    if line.disposition = .liquidated then line.orderId.filter (· ≠ 0) else none

/-- A position as the broker reports it, or nothing when its quantity is no number. -/
abbrev Reported := Option BrokerPosition

/-- Where the call of `deactivate` is: each constructor is an await. `loaded` is the status of the row as the call
    loaded it. Without `owned` the positions are told by the registered symbols. -/
inductive Stage where
  | idle
  | called (liquidate : Bool) (loaded : StrategyStatus)
  | reading (route : AccountMode) (loaded : StrategyStatus) (account : Nat)
  | resolving (route : AccountMode) (loaded : StrategyStatus) (account : Nat) (positions : List Reported)
  | submitting (route : AccountMode) (loaded : StrategyStatus) (account : Nat) (owned : Option OwnedHoldings)
      (todo : List Reported) (lines : List LiquidationLine)
  | stopping (loaded : StrategyStatus) (outcome : StrategyStopOutcome)
  | unregistering (outcome : StrategyStopOutcome)
  | returned (outcome : StrategyStopOutcome)
  | raised
deriving DecidableEq

/-- What is recorded of a run: the positions of an account are read, an order is submitted for one of them, a line is
    LIQUIDATED, an order of the strategy is accepted. -/
inductive Noted where
  | read (account : Nat)
  | disposed (loaded : StrategyStatus) (account : Nat)
  | liquidated (account : Nat) (ticker : String) (side : OrderSide)
  | ordered (account : Nat) (ticker : String) (side : OrderSide)
deriving DecidableEq

/-- The row's status, whether the engine has the strategy registered, its dispatches under way, the call, and the
    record, newest first. -/
structure Control where
  status : StrategyStatus
  running : Bool
  dispatches : Nat := 0
  stage : Stage := .idle
  log : List Noted := []

/-- What happens, with what is answered. -/
inductive ControlLabel where
  | call (liquidate : Bool)
  | route
  | read (positions : Option (List Reported))
  | resolve (books : Option Books)
  | submit (answer : Option RouterOrder)
  | stop
  | unregistered
  | dispatch
  | order (account : Nat) (ticker : String) (side : OrderSide)
  | dispatched
  | halt
  | error
  | evict

namespace Setup

variable (c : Setup)

/-- Python `_account_mode`. -/
def accountMode : AccountMode := if c.accounts.any (·.2 = .live) then .live else .paper

def account (mode : AccountMode) : Option Nat := (c.accounts.find? (·.2 = mode)).map (·.1)

/-- What follows the routing: the account whose positions are read, the stop, or an `ActivationError`. -/
def route (liquidate : Bool) (loaded : StrategyStatus) : Stage :=
  if liquidate = false then .stopping loaded { liquidationRequested := false }
  else match c.accountMode with
    | .live =>
      if loaded ≠ .live ∧ loaded ≠ .halted then .raised
      else match c.account .live with
        | some account =>
          if c.routed then .reading .live loaded account
          else .stopping loaded (liquidated .live [])
        | none => .stopping loaded (liquidated .live [])
    | .paper =>
      if c.policy.permits c.name = false then .stopping loaded { liquidationRequested := true, denied := true }
      else match c.account .paper with
        | some account =>
          if c.routed ∧ c.attributed then .reading .paper loaded account
          else .stopping loaded (liquidated .paper [])
        | none => .stopping loaded (liquidated .paper [])

/-- Python `_legacy_registration_liquidation`, for one position. -/
def registeredOne (account : Nat) (pos : BrokerPosition) (answer : Option RouterOrder) : Option Handled :=
  match pos.symbol, pos.qty with
  | some symbol, some qty =>
    if (c.symbols.map upper).contains (upper symbol) = false then none
    else if qty = 0 then none
    else
      let req := closingOrder account symbol qty
      some ⟨{ ticker := symbol, disposition := if answer.isSome then .liquidated else .error, qty := some |qty|,
              orderId := answer.bind (·.id) }, some (req, answer)⟩
  | _, _ => none

def handle (account : Nat) (owned : Option OwnedHoldings) (pos : BrokerPosition) (answer : Option RouterOrder) :
    Option Handled :=
  match owned with
  | some owned => liquidateOne owned account pos answer
  | none => c.registeredOne account pos answer

end Setup

def noteHandled (h : Handled) (loaded : StrategyStatus) (account : Nat) : List Noted :=
  match h.submitted with
  | none => []
  | some (req, answer) =>
    (if answer.isSome then [.liquidated account (upper req.symbolTicker) req.side] else []) ++
      [.disposed loaded account]

namespace Control

def at_ (s : Control) (stage : Stage) : Control := { s with stage }

/-- Python `_stop`, up to its first await. -/
def stop (c : Setup) (s : Control) (loaded : StrategyStatus) (outcome : StrategyStopOutcome) : Control :=
  if loaded = .live ∨ loaded = .halted then { s with status := .idle, stage := .returned outcome }
  else if c.engine ∧ s.running then { s with running := false, stage := .unregistering outcome }
  else s.at_ (.returned outcome)

end Control

/-- The call of `deactivate` and the engine. -/
def strategyControl (c : Setup) : Machine Control ControlLabel where
  step s
    | .call liquidate => if s.stage = .idle then some (s.at_ (.called liquidate s.status)) else none
    | .route =>
      match s.stage with
      | .called liquidate loaded => some (s.at_ (c.route liquidate loaded))
      | _ => none
    | .read positions =>
      match s.stage with
      | .reading route loaded account =>
        match positions with
        -- there is no adapter, or it raises
        | none => some (s.at_ (.stopping loaded (liquidated route [])))
        | some positions =>
          some { s with stage := if c.attributed then .resolving route loaded account positions
                                 else .submitting route loaded account none positions []
                        log := .read account :: s.log }
      | _ => none
    | .resolve books =>
      match s.stage with
      | .resolving route loaded account positions =>
        match books with
        | none => some (s.at_ (.stopping loaded (liquidated route [])))
        | some books =>
          some (s.at_
            (.submitting route loaded account (some (resolveHoldings books account c.strategyId)) positions []))
      | _ => none
    | .submit answer =>
      match s.stage with
      | .submitting route loaded account owned todo lines =>
        match todo with
        | [] => some (s.at_ (.stopping loaded (liquidated route lines)))
        | none :: _ => some (s.at_ .raised)
        | some pos :: todo =>
          match c.handle account owned pos answer with
          | none => some (s.at_ (.submitting route loaded account owned todo lines))
          | some h => some { s with stage := .submitting route loaded account owned todo (lines ++ [h.line])
                                    log := noteHandled h loaded account ++ s.log }
      | _ => none
    | .stop =>
      match s.stage with
      | .stopping loaded outcome => some (s.stop c loaded outcome)
      | _ => none
    | .unregistered =>
      match s.stage with
      | .unregistering outcome =>
        some { s with status := if s.status.runnable then .idle else s.status, stage := .returned outcome }
      | _ => none
    | .dispatch => if s.running ∧ s.status.runnable then some { s with dispatches := s.dispatches + 1 } else none
    | .order account ticker side =>
      -- the guard of the router for a LIVE account
      if 0 < s.dispatches ∧ ((account, .live) ∈ c.accounts → s.status = .live) then
        some { s with log := .ordered account ticker side :: s.log }
      else none
    | .dispatched => some { s with dispatches := s.dispatches - 1 }
    | .halt => if s.status.active then some { s with status := .halted } else none
    | .error => if s.running then some { s with status := .error } else none
    | .evict => if s.status = .error then some { s with running := false } else none

/-! ## What a requested stop should do -/

/-- The mode of the account that a status says the strategy trades on. -/
def tradedMode : StrategyStatus → Option AccountMode
  | .live => some .live
  | .paper | .paperVariant => some .paper
  | .idle | .backtest | .pendingLive | .halted | .error => none

def Stage.over : Stage → Bool
  | .returned _ | .raised => true
  | _ => false

/-- The call does not end with a runnable status, disposes of positions only on the account of the status, and no
    order of the strategy that is accepted after the reading is on the side of a position that is LIQUIDATED. -/
structure Stops (c : Setup) (s : Control) : Prop where
  stopped : s.stage.over = true → s.status.runnable = false
  own : ∀ loaded account, .disposed loaded account ∈ s.log → ∀ mode ∈ tradedMode loaded, (account, mode) ∈ c.accounts
  closed : ∀ later account ticker side earlier, s.log = later ++ .ordered account ticker side :: earlier →
    .read account ∈ earlier → ∀ closing, .liquidated account ticker closing ∈ s.log → closing = side

/-! ## When it does -/

/-- Whether the strategy is to be stopped still, after its positions were read. -/
def Stage.exposed : Stage → Bool
  | .resolving .. | .submitting .. | .stopping _ _ => true
  | _ => false

def Control.hasRead (s : Control) : Bool :=
  s.log.any fun
    | .read _ => true
    | _ => false

/-- The condition on a run: how the call finds the accounts, the status and the registration; what the broker reports;
    and that no dispatch is under way from the reading on. -/
def Fit (c : Setup) (s : Control) : ControlLabel → Prop
  | .call liquidate =>
    (liquidate = true → c.accountMode = .live → s.status.runnable = true → s.status = .live) ∧
      (liquidate = true → c.accountMode = .paper → s.status = .live → c.policy.permits c.name = false) ∧
        (s.status = .paper ∨ s.status = .paperVariant → c.engine = true ∧ s.running = true)
  | .read positions => s.dispatches = 0 ∧ ∀ ps ∈ positions, none ∉ ps
  | .dispatch => s.stage.exposed = true → s.hasRead = false
  | _ => True

section
variable {c : Setup} {s t : Control} {loaded : StrategyStatus}
variable {account : Nat} {stage : Stage}

/-! ## The invariant -/

/-- What `_stop` will stop. -/
def Stoppable (c : Setup) (s : Control) (loaded : StrategyStatus) : Prop :=
  loaded = .live ∨ loaded = .halted ∨ s.status.runnable = false ∨ c.engine = true ∧ s.running = true

def OwnAccount (c : Setup) (route : AccountMode) (loaded : StrategyStatus) (account : Nat) : Prop :=
  (account, route) ∈ c.accounts ∧ ∀ mode ∈ tradedMode loaded, mode = route

def Stage.Sound (c : Setup) (s : Control) : Stage → Prop
  | .idle | .unregistering _ => True
  | .called liquidate loaded =>
    Stoppable c s loaded ∧ (s.status = loaded ∨ s.status.runnable = false) ∧
      (liquidate = true → c.accountMode = .live → loaded.runnable = true → loaded = .live) ∧
        (liquidate = true → c.accountMode = .paper → loaded = .live → c.policy.permits c.name = false)
  | .reading route loaded account => Stoppable c s loaded ∧ OwnAccount c route loaded account
  | .resolving route loaded account positions => Stoppable c s loaded ∧ OwnAccount c route loaded account ∧
    none ∉ positions
  | .submitting route loaded account _ todo _ => Stoppable c s loaded ∧ OwnAccount c route loaded account ∧ none ∉ todo
  | .stopping loaded _ => Stoppable c s loaded
  | .returned _ | .raised => s.status.runnable = false

/-- The invariant of a requested stop. -/
structure Stopping (c : Setup) (s : Control) : Prop where
  stage : s.stage.Sound c s
  own : ∀ loaded account, .disposed loaded account ∈ s.log → ∀ mode ∈ tradedMode loaded, (account, mode) ∈ c.accounts
  quiet : ∀ account, .read account ∈ s.log →
    s.dispatches = 0 ∧ (s.stage.exposed = true ∨ s.running = false ∨ s.status.runnable = false)
  each : Record.Each (fun e earlier => ∀ account ticker side, e = .ordered account ticker side →
    ∀ other, .read other ∉ earlier) s.log

lemma Stopping.stops (h : Stopping c s) : Stops c s where
  stopped := by
    intro ended
    have sound := h.stage
    cases stage : s.stage with
    | returned | raised =>
      rw [stage] at sound
      exact sound
    | idle | called | reading | resolving | submitting | stopping | unregistering =>
      rw [stage] at ended
      cases ended
  own := h.own
  closed := by
    intro later account ticker side earlier eq read
    exact absurd read (h.each later _ earlier eq account ticker side rfl account)

/-! ## The routing -/

lemma account_mem {mode : AccountMode} (found : c.account mode = some account) : (account, mode) ∈ c.accounts := by
  obtain ⟨⟨id, m⟩, is, rfl⟩ := map_eq_some_iff.1 found
  have mem := mem_of_find?_eq_some is
  have same := find?_some is
  obtain rfl : m = mode := of_decide_eq_true same
  exact mem

lemma route_sound {liquidate : Bool} (h : (Stage.called liquidate loaded).Sound c s) :
    (c.route liquidate loaded).Sound c s := by
  obtain ⟨stoppable, same, live, paper⟩ := h
  rw [Setup.route]
  split
  · exact stoppable
  · rename_i asked
    have asked : liquidate = true := Bool.not_eq_false _ ▸ asked
    split
    · rename_i mode
      split
      · rename_i other
        -- neither LIVE nor HALTED: the activation service raises
        show s.status.runnable = false
        rcases same with same | ended
        · rw [same, Bool.eq_false_iff]
          exact fun runs => other.1 (live asked mode runs)
        · exact ended
      · rename_i stops
        have own : ∀ m ∈ tradedMode loaded, m = .live := by
          intro m mem
          have : loaded = .live ∨ loaded = .halted := by
            by_contra none
            exact stops (not_or.1 none)
          rcases this with rfl | rfl
          · exact (some.inj mem).symm
          · cases mem
        split
        · rename_i found
          split
          · exact ⟨stoppable, account_mem found, own⟩
          · exact stoppable
        · exact stoppable
    · rename_i mode
      split
      · exact stoppable
      · rename_i permitted
        have own : ∀ m ∈ tradedMode loaded, m = .paper := by
          intro m mem
          cases loaded with
          | live => exact absurd (paper asked mode rfl) permitted
          | paper | paperVariant => exact (some.inj mem).symm
          | idle | backtest | pendingLive | halted | error => cases mem
        split
        · rename_i found
          split
          · exact ⟨stoppable, account_mem found, own⟩
          · exact stoppable
        · exact stoppable

/-! ## The steps -/

lemma Stage.Sound.ended (h : stage.Sound c s) (ended : t.status.runnable = false) : stage.Sound c t := by
  have stoppable (loaded : StrategyStatus) : Stoppable c t loaded := Or.inr (Or.inr (Or.inl ended))
  cases stage with
  | idle | unregistering => trivial
  | called liquidate loaded => exact ⟨stoppable loaded, Or.inr ended, h.2.2⟩
  | reading route loaded account => exact ⟨stoppable loaded, h.2⟩
  | resolving route loaded account positions => exact ⟨stoppable loaded, h.2⟩
  | submitting route loaded account owned todo lines => exact ⟨stoppable loaded, h.2⟩
  | stopping loaded outcome => exact stoppable loaded
  | returned | raised => exact ended

lemma Stopping.at_ (h : Stopping c s) (sound : stage.Sound c s)
    (exposed : s.stage.exposed = true → stage.exposed = true ∨ s.status.runnable = false) :
    Stopping c (s.at_ stage) where
  stage := by cases stage <;> exact sound
  own := h.own
  quiet := by
    intro account read
    obtain ⟨none_, exposed' | ended⟩ := h.quiet account read
    · rcases exposed exposed' with on | ended
      · exact ⟨none_, Or.inl on⟩
      · exact ⟨none_, Or.inr (Or.inr ended)⟩
    · exact ⟨none_, Or.inr ended⟩
  each := h.each

lemma Stopping.stop {outcome : StrategyStopOutcome} (h : Stopping c s) (stoppable : Stoppable c s loaded) :
    Stopping c (s.stop c loaded outcome) := by
  rw [Control.stop]
  split
  · exact ⟨rfl, h.own, fun account read => ⟨(h.quiet account read).1, Or.inr (Or.inr rfl)⟩, h.each⟩
  · rename_i other
    split
    · exact ⟨trivial, h.own, fun account read => ⟨(h.quiet account read).1, Or.inr (Or.inl rfl)⟩, h.each⟩
    · rename_i absent
      have ended : s.status.runnable = false := by
        rcases stoppable with live | halted | ended | registered
        · exact absurd (Or.inl live) other
        · exact absurd (Or.inr halted) other
        · exact ended
        · exact absurd registered absent
      exact ⟨ended, h.own, fun account read => ⟨(h.quiet account read).1, Or.inr (Or.inr ended)⟩, h.each⟩

lemma Stopping.read (h : Stopping c s) (sound : stage.Sound c s)
    (exposed : stage.exposed = true) (none_ : s.dispatches = 0) :
    Stopping c { s with stage, log := .read account :: s.log } where
  stage := by cases stage <;> exact sound
  own := by
    intro loaded account' mem
    rcases mem_cons.1 mem with eq | mem
    · cases eq
    · exact h.own loaded account' mem
  quiet := fun _ _ => ⟨none_, Or.inl exposed⟩
  each := each_cons.2 ⟨fun _ _ _ eq => (by cases eq), h.each⟩

lemma mem_noteHandled {handled : Handled} {e : Noted} (mem : e ∈ noteHandled handled loaded account) :
    (∃ ticker side, e = .liquidated account ticker side) ∨ e = .disposed loaded account := by
  rw [noteHandled] at mem
  split at mem
  · cases mem
  · rcases mem_append.1 mem with mem | mem
    · split at mem
      · exact Or.inl ⟨_, _, mem_singleton.1 mem⟩
      · cases mem
    · exact Or.inr (mem_singleton.1 mem)

lemma Stopping.note {handled : Handled} {route : AccountMode} (h : Stopping c s)
    (sound : stage.Sound c s) (exposed : stage.exposed = true) (own : OwnAccount c route loaded account) :
    Stopping c { s with stage, log := noteHandled handled loaded account ++ s.log } where
  stage := by cases stage <;> exact sound
  own := by
    intro loaded' account' mem mode traded
    rcases mem_append.1 mem with mem | mem
    · rcases mem_noteHandled mem with ⟨ticker, side, eq⟩ | eq
      · cases eq
      · cases eq
        rw [own.2 mode traded]
        exact own.1
    · exact h.own loaded' account' mem mode traded
  quiet := by
    intro other mem
    rcases mem_append.1 mem with mem | mem
    · rcases mem_noteHandled mem with ⟨ticker, side, eq⟩ | eq <;> cases eq
    · exact ⟨(h.quiet other mem).1, Or.inl exposed⟩
  each := by
    apply h.each.append
    intro e mem earlier account' ticker side eq
    rcases mem_noteHandled mem with ⟨ticker', side', is⟩ | is
    · rw [eq] at is
      cases is
    · rw [eq] at is
      cases is

lemma Stopping.ended {status : StrategyStatus} {running : Bool} (h : Stopping c s) (ended : status.runnable = false) :
    Stopping c { s with status, running } where
  stage := h.stage.ended ended
  own := h.own
  quiet := fun account read => ⟨(h.quiet account read).1, Or.inr (Or.inr ended)⟩
  each := h.each

lemma Stopping.step {l : ControlLabel} (h : Stopping c s) (fit : Fit c s l)
    (step : (strategyControl c).step s l = some t) : Stopping c t := by
  have sound := h.stage
  cases l with
  | call liquidate =>
    simp only [strategyControl] at step
    split at step
    · rename_i idle
      cases step
      obtain ⟨live, paper, registered⟩ := fit
      apply h.at_
      · refine ⟨?_, Or.inl rfl, live, paper⟩
        rw [Stoppable]
        cases status : s.status with
        | live => exact Or.inl rfl
        | halted => exact Or.inr (Or.inl rfl)
        | paper => exact Or.inr (Or.inr (Or.inr (registered (Or.inl status))))
        | paperVariant => exact Or.inr (Or.inr (Or.inr (registered (Or.inr status))))
        | idle | backtest | pendingLive | error => exact Or.inr (Or.inr (Or.inl rfl))
      · rw [idle]
        exact fun eq => (by cases eq)
    · cases step
  | route =>
    simp only [strategyControl] at step
    split at step
    · rename_i liquidate loaded stage
      cases step
      rw [stage] at sound
      apply h.at_ (route_sound sound)
      rw [stage]
      exact fun eq => (by cases eq)
    · cases step
  | read positions =>
    simp only [strategyControl] at step
    split at step
    · rename_i route loaded account stage
      rw [stage] at sound
      obtain ⟨stoppable, own⟩ := sound
      split at step
      · cases step
        exact h.at_ stoppable fun _ => Or.inl rfl
      · rename_i positions
        cases step
        have numbers := fit.2 positions rfl
        split
        · exact h.read ⟨stoppable, own, numbers⟩ rfl fit.1
        · exact h.read ⟨stoppable, own, numbers⟩ rfl fit.1
    · cases step
  | resolve books =>
    simp only [strategyControl] at step
    split at step
    · rename_i route loaded account positions stage
      rw [stage] at sound
      obtain ⟨stoppable, own, numbers⟩ := sound
      split at step
      · cases step
        exact h.at_ stoppable fun _ => Or.inl rfl
      · cases step
        exact h.at_ ⟨stoppable, own, numbers⟩ fun _ => Or.inl rfl
    · cases step
  | submit answer =>
    simp only [strategyControl] at step
    split at step
    · rename_i route loaded account owned todo lines stage
      rw [stage] at sound
      obtain ⟨stoppable, own, numbers⟩ := sound
      split at step
      · cases step
        exact h.at_ stoppable fun _ => Or.inl rfl
      · exact absurd mem_cons_self numbers
      · rename_i pos todo
        have rest : none ∉ todo := fun mem => numbers (mem_cons_of_mem _ mem)
        split at step
        · cases step
          exact h.at_ ⟨stoppable, own, rest⟩ fun _ => Or.inl rfl
        · cases step
          exact h.note ⟨stoppable, own, rest⟩ rfl own
    · cases step
  | stop =>
    simp only [strategyControl] at step
    split at step
    · rename_i loaded outcome stage
      cases step
      rw [stage] at sound
      exact h.stop sound
    · cases step
  | unregistered =>
    simp only [strategyControl] at step
    split at step
    · cases step
      have ended : (if s.status.runnable then StrategyStatus.idle else s.status).runnable = false := by
        split
        · rfl
        · rename_i ended
          exact Bool.eq_false_iff.2 ended
      exact ⟨ended, h.own, fun account read => ⟨(h.quiet account read).1, Or.inr (Or.inr ended)⟩, h.each⟩
    · cases step
  | dispatch =>
    simp only [strategyControl] at step
    split at step
    · rename_i runs
      cases step
      refine ⟨?_, h.own, ?_, h.each⟩
      · cases stage : s.stage <;> rw [stage] at sound <;> exact sound
      · intro account read
        obtain ⟨-, exposed | gone | ended⟩ := h.quiet account read
        · have read : s.hasRead = true := any_eq_true.2 ⟨_, read, rfl⟩
          rw [fit exposed] at read
          cases read
        · rw [gone] at runs
          exact absurd runs.1 (by decide)
        · rw [ended] at runs
          exact absurd runs.2 (by decide)
    · cases step
  | order account ticker side =>
    simp only [strategyControl] at step
    split at step
    · rename_i accepted
      cases step
      have unread : ∀ other, .read other ∉ s.log := by
        intro other read
        have none_ := (h.quiet other read).1
        exact absurd accepted.1 (by rw [none_]; exact lt_irrefl 0)
      refine ⟨?_, ?_, ?_, each_cons.2 ⟨fun _ _ _ _ => unread, h.each⟩⟩
      · cases stage : s.stage <;> rw [stage] at sound <;> exact sound
      · intro loaded account' mem
        rcases mem_cons.1 mem with eq | mem
        · cases eq
        · exact h.own loaded account' mem
      · intro other mem
        rcases mem_cons.1 mem with eq | mem
        · cases eq
        · exact absurd mem (unread other)
    · cases step
  | dispatched =>
    cases step
    refine ⟨?_, h.own, ?_, h.each⟩
    · cases stage : s.stage <;> rw [stage] at sound <;> exact sound
    · intro account read
      obtain ⟨none_, quiet⟩ := h.quiet account read
      exact ⟨by rw [none_], quiet⟩
  | halt =>
    simp only [strategyControl] at step
    split at step
    · cases step
      exact h.ended rfl
    · cases step
  | error =>
    simp only [strategyControl] at step
    split at step
    · cases step
      exact h.ended rfl
    · cases step
  | evict =>
    simp only [strategyControl] at step
    split at step
    · rename_i failed
      cases step
      exact h.ended (by rw [failed]; rfl)
    · cases step

end

def begun (status : StrategyStatus) (running : Bool) (dispatches : Nat) : Control := { status, running, dispatches }

lemma stopping_begun {c : Setup} {status : StrategyStatus} {running : Bool} {dispatches : Nat} :
    Stopping c (begun status running dispatches) where
  stage := trivial
  own := fun _ _ mem => (by cases mem)
  quiet := fun _ mem => (by cases mem)
  each := each_nil

/-- A requested stop ends with no runnable status, sells on the account of the status alone, and no order re-opens
what it closed, under the conditions on liquidation, registration and dispatches. -/
theorem stop_request_stops (c : Setup) (status : StrategyStatus) (running : Bool) (dispatches : Nat)
    (ls : List ControlLabel) (s : Control) (run : (strategyControl c).run (begun status running dispatches) ls = some s)
    (fit : (strategyControl c).Meets (Fit c) (begun status running dispatches) ls) : Stops c s :=
  (Machine.run_invariant (fun inv fit step => inv.step fit step) stopping_begun fit run : Stopping c s).stops

instance (c : Setup) (s : Control) : ∀ l, Decidable (Fit c s l)
  | .call _ => inferInstanceAs (Decidable (_ ∧ _ ∧ (_ ∨ _ → _ ∧ _)))
  | .read positions => inferInstanceAs (Decidable (s.dispatches = 0 ∧ ∀ ps ∈ positions, none ∉ ps))
  | .dispatch => inferInstanceAs (Decidable (s.stage.exposed = true → s.hasRead = false))
  | .route | .resolve _ | .submit _ | .stop | .unregistered | .order _ _ _ | .dispatched | .halt | .error | .evict =>
    isTrue trivial

def lowVolatility (accounts : List (Nat × AccountMode)) : Setup :=
  { accounts, strategyId := 8, name := "low-volatility", symbols := [] }

/-- The theorem, at a position that is closed before the strategy is stopped. -/
theorem stop_request_stops_paper : ∃ s : Control, s.status = .idle ∧
    .liquidated 6 "AAPL" .sell ∈ s.log ∧ Stops (lowVolatility [(6, .paper)]) s := by
  obtain ⟨s, run⟩ := isSome_iff_exists.1
    (show ((strategyControl (lowVolatility [(6, .paper)])).run (begun .paper true 0)
      [.dispatch, .order 6 "AAPL" .buy, .dispatched, .call true, .route, .read (some [some ⟨some "AAPL", some 10⟩]),
        .resolve (some (bought [])), .submit (some ⟨some 77, .submitted⟩), .submit none, .stop,
        .unregistered]).isSome = true by decide +kernel)
  exact ⟨s, Machine.observe (f := fun s : Control => s.status) run (by decide +kernel),
    Machine.observe (f := fun s : Control => decide (.liquidated 6 "AAPL" .sell ∈ s.log)) run (by decide +kernel) |>
      of_decide_eq_true, stop_request_stops (lowVolatility [(6, .paper)]) .paper true 0 _ s run (by decide +kernel)⟩

/-- Of a user with a LIVE account, a PAPER strategy is not stopped: the activation service raises. -/
theorem not_stop_request_stops :
    ¬ ∀ (c : Setup) (status : StrategyStatus) (running : Bool) (dispatches : Nat) (ls : List ControlLabel)
      (s : Control), (strategyControl c).run (begun status running dispatches) ls = some s → Stops c s := by
  intro all
  obtain ⟨s, run⟩ := isSome_iff_exists.1
    (show ((strategyControl (lowVolatility [(6, .paper), (7, .live)])).run (begun .paper true 0)
      [.call true, .route]).isSome = true by decide +kernel)
  have ended : s.stage.over = true := Machine.observe (f := fun s : Control => s.stage.over) run (by decide +kernel)
  have status : s.status.runnable = true :=
    Machine.observe (f := fun s : Control => s.status.runnable) run (by decide +kernel)
  rw [(all _ .paper true 0 _ s run).stopped ended] at status
  cases status

end Workbench.Services
