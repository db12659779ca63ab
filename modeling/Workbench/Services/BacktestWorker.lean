import Workbench.Lib.Machine
import Workbench.Lib.Table

/-!
# The backtest worker

Model of `app/services/backtest_worker.py`: the worker's tick, the cancellations of the HTTP handler and the restarts
of the process, interleaved at their awaits. What a task does between two awaits is one step; a commit writes the
columns of its row whatever the row says by then.

Python → Lean naming: `_dequeue_one` → `Label.dequeue` (its read) and `Label.markRunning` (its commit); `_run_job` →
`Label.readJob` up to `Label.complete`; `_mark_failed` and `_mark_cancelled` → `Label.readMarked` and
`Label.commitMark`; `request_cancel` → `Label.requestCancel` and `Label.commitCancel`;
`_reconcile_orphaned_running_jobs` → `Label.readOrphans` and `Label.failOrphans`.

`StrategyLoader.load`, `_config_from_dict` and the symbols of a config are parameters (`Code`), and what the harness
returns of a run is chosen by the label, since it depends on the bars in the cache.
-/

set_option linter.dupNamespace false

namespace Workbench.Services
open Workbench.Lib

/-- Python `BacktestJobStatus`. -/
inductive BacktestJobStatus where
  | queued
  | running
  | completed
  | failed
  | cancelled
deriving DecidableEq, Repr

namespace BacktestJobStatus

def terminal : BacktestJobStatus → Bool
  | .queued | .running => false
  | .completed | .failed | .cancelled => true

/-- The transitions that the docstring of `BacktestJobStatus` lists. -/
def next : BacktestJobStatus → BacktestJobStatus → Bool
  | .queued, .running | .queued, .cancelled => true
  | .running, .completed | .running, .failed | .running, .cancelled => true
  | _, _ => false

end BacktestJobStatus

/-- Python `BacktestJob`. -/
structure BacktestJob (κ : Type) where
  strategyId : Nat
  config : κ
  label : String
  submittedAt : Nat
  status : BacktestJobStatus := .queued
  errorText : Option String := none
  resultId : Option Nat := none

/-- Python `BacktestResult`: the config a backtest ran with, and what it found. -/
structure BacktestResult (β μ : Type) where
  strategyId : Nat
  label : String
  config : β
  metrics : μ

/-- The columns of a strategy that the worker reads. -/
structure StrategyRow where
  codePath : Option String
  symbols : List String

/-- What the worker calls before it runs the harness. -/
structure Code (κ β γ : Type) where
  load : String → Except String γ
  configFromDict : κ → Except String β
  symbolsOf : κ → Option (List String)

/-- One call of `Backtester.run`. -/
structure Call (β γ : Type) where
  job : Nat
  strategyClass : γ
  symbols : List String
  config : β

/-- How `Backtester.run` ends. -/
inductive Outcome (μ : Type) where
  | returned (metrics : μ)
  | cancelled (bar total : Nat)
  | raised (text : String)

/-- What `_mark_failed` and `_mark_cancelled` write. -/
inductive Mark where
  | failed (text : String)
  | cancelled (reason : String)
deriving DecidableEq

/-- The terminal events on the bus. -/
inductive EventKind where
  | completed (result : Nat)
  | failed (text : String)
  | cancelled (reason : String)
deriving DecidableEq

/-- An event of a job. -/
structure Event where
  job : Nat
  kind : EventKind
deriving DecidableEq

/-- Where the tick is; every constructor but the first four keeps what `_run_job` has read. -/
inductive Tick (κ β γ μ : Type) where
  | taken (job : Nat)
  | starting (job : Nat)
  | opening (job : Nat)
  | opened (job : Nat) (row : BacktestJob κ)
  | running (job : Nat) (row : BacktestJob κ) (call : Call β γ)
  | storing (job : Nat) (row : BacktestJob κ) (config : β) (metrics : μ)
  | stored (job : Nat) (result : Nat)
  | completing (job : Nat) (result : Nat)
  | completed (job : Nat) (result : Nat)
  | marking (job : Nat) (mark : Mark)
  | marked (job : Nat) (mark : Mark)
  | telling (job : Nat) (mark : Mark)

/-- A `request_cancel` that read a QUEUED row. -/
inductive Cancel where
  | writing (job : Nat)
  | telling (job : Nat)
deriving DecidableEq

/-- How far the process has come. -/
inductive Phase where
  | booting
  | reconciling (orphans : List Nat)
  | up
deriving DecidableEq

/-- The tables, the tasks of the process, and what has happened. -/
structure Worker (κ β γ μ : Type) where
  jobs : List (BacktestJob κ) := []
  results : List (BacktestResult β μ) := []
  strategies : Nat → Option StrategyRow := fun _ => none
  phase : Phase := .booting
  tick : Option (Tick κ β γ μ) := none
  cancels : Nat → Option Cancel := fun _ => none
  cancelFlags : Nat → Bool := fun _ => false
  calls : List (Call β γ) := []
  returns : List (Nat × β × μ) := []
  events : List Event := []

/-- Who moves, with what the environment decides. -/
inductive Label (κ μ : Type) where
  | submit (strategyId : Nat) (config : κ) (label : String) (submittedAt : Nat)
  | editStrategies (strategies : Nat → Option StrategyRow)
  | restart
  | readOrphans
  | failOrphans
  | dequeue (job : Nat)
  | markRunning
  | publishStarted
  | readJob
  | readStrategy
  | harness (outcome : Outcome μ)
  | storeResult
  | readCompleted
  | complete
  | publishCompleted (sent : Bool)
  | readMarked
  | commitMark
  | publishMark (sent : Bool)
  | fault
  | requestCancel (task job : Nat)
  | commitCancel (task : Nat)
  | publishCancel (task : Nat) (sent : Bool)
  | faultCancel (task : Nat)

/-- The text of a job that was cancelled while it was queued. -/
def beforeStart : String := "cancelled before start"

/-- The text of a job that was running when its process ended. -/
def abandoned : String := "abandoned: worker restarted"

/-- The text of `BacktestCancelled`. -/
def atBar (bar total : Nat) : String := "cancelled at bar " ++ (toString bar ++ "/" ++ toString total)

/-- `text[:n]`. -/
def clip (n : Nat) (text : String) : String := String.ofList (text.toList.take n)

def Mark.status : Mark → BacktestJobStatus
  | .failed _ => .failed
  | .cancelled _ => .cancelled

def Mark.text : Mark → String
  | .failed text => clip 2000 text
  | .cancelled reason => clip 2000 reason

def Mark.event : Mark → EventKind
  | .failed text => .failed (clip 512 text)
  | .cancelled reason => .cancelled (clip 512 reason)

variable {κ β γ μ : Type}

/-- The symbols of a job: those of its config, or else those of the strategy. -/
def symbolsFor (code : Code κ β γ) (config : κ) (strategy : StrategyRow) : List String :=
  match code.symbolsOf config with
  | some (s :: ss) => s :: ss
  | _ => strategy.symbols

/-- What `_run_job` does between its reads and the harness; an error is the text the job fails with. -/
def prepare (code : Code κ β γ) (job : Nat) (row : BacktestJob κ) (strategy : Option StrategyRow) :
    Except String (Call β γ) :=
  match strategy with
  | none => .error "strategy no longer exists"
  | some strategy =>
    match code.load (strategy.codePath.getD "") with
    | .error e => .error ("loader failed: " ++ e)
    | .ok strategyClass =>
      match code.configFromDict row.config with
      | .error e => .error ("bad config: " ++ e)
      | .ok config =>
        if symbolsFor code row.config strategy = [] then .error "no symbols to backtest"
        else .ok ⟨job, strategyClass, symbolsFor code row.config strategy, config⟩

namespace Worker

/-- A commit that changes the status of a row, and other columns of it. -/
def write (s : Worker κ β γ μ) (job : Nat) (status : BacktestJobStatus) (edit : BacktestJob κ → BacktestJob κ) :
    Worker κ β γ μ :=
  { s with jobs := Table.amend job (fun row => { edit row with status }) s.jobs }

def at_ (s : Worker κ β γ μ) (tick : Tick κ β γ μ) : Worker κ β γ μ := { s with tick := some tick }

/-- The tick of a job ends: its cancellation flag is dropped. -/
def leave (s : Worker κ β γ μ) (job : Nat) : Worker κ β γ μ :=
  { s with tick := none, cancelFlags := Function.update s.cancelFlags job false }

/-- An event is published, unless the bus fails. -/
def publish (s : Worker κ β γ μ) (job : Nat) (kind : EventKind) (sent : Bool) : Worker κ β γ μ :=
  if sent then { s with events := ⟨job, kind⟩ :: s.events } else s

def setCancel (s : Worker κ β γ μ) (task : Nat) (cancel : Option Cancel) : Worker κ β γ μ :=
  { s with cancels := Function.update s.cancels task cancel }

/-- The job of a tick whose id `_dequeue_one` has returned. -/
def current (s : Worker κ β γ μ) : Option Nat :=
  match s.tick with
  | some (.opening job) | some (.opened job _) | some (.running job _ _) | some (.storing job _ _ _)
  | some (.stored job _) | some (.completing job _) | some (.completed job _) | some (.marking job _)
  | some (.marked job _) | some (.telling job _) => some job
  | some (.taken _) | some (.starting _) | none => none

end Worker

def worker (code : Code κ β γ) : Machine (Worker κ β γ μ) (Label κ μ) where
  step s
    | .submit strategyId config label submittedAt =>
      some { s with jobs := s.jobs ++ [{ strategyId, config, label, submittedAt }] }
    | .editStrategies strategies => some { s with strategies }
    | .restart =>
      some { s with phase := .booting, tick := none, cancels := fun _ => none, cancelFlags := fun _ => false }
    | .readOrphans =>
      match s.phase with
      | .booting =>
        some { s with
          phase := .reconciling ((List.range s.jobs.length).filter fun job =>
            (s.jobs[job]?).any fun row => row.status = .running) }
      | _ => none
    | .failOrphans =>
      match s.phase with
      | .reconciling orphans =>
        let failed := orphans.foldl (fun s job => s.write job .failed fun row =>
          { row with errorText := some abandoned }) s
        some { failed with phase := .up }
      | _ => none
    | .dequeue job =>
      match s.phase, s.tick, s.jobs[job]? with
      | .up, none, some row =>
        if row.status = .queued ∧ ∀ other ∈ s.jobs, other.status = .queued → row.submittedAt ≤ other.submittedAt then
          some (s.at_ (.taken job))
        else none
      | _, _, _ => none
    | .markRunning =>
      match s.tick with
      | some (.taken job) => some ((s.write job .running id).at_ (.starting job))
      | _ => none
    | .publishStarted =>
      match s.tick with
      | some (.starting job) => some (s.at_ (.opening job))
      | _ => none
    | .readJob =>
      match s.tick with
      | some (.opening job) =>
        match s.jobs[job]? with
        | none => some (s.leave job)
        | some row => some (s.at_ (.opened job row))
      | _ => none
    | .readStrategy =>
      match s.tick with
      | some (.opened job row) =>
        match prepare code job row (s.strategies row.strategyId) with
        | .error text => some (s.at_ (.marking job (.failed text)))
        | .ok call => some { s.at_ (.running job row call) with calls := call :: s.calls }
      | _ => none
    | .harness outcome =>
      match s.tick with
      | some (.running job row call) =>
        match outcome with
        | .returned metrics =>
          some { s.at_ (.storing job row call.config metrics) with
                 returns := (job, call.config, metrics) :: s.returns }
        | .cancelled bar total =>
          if s.cancelFlags job then some (s.at_ (.marking job (.cancelled (atBar bar total)))) else none
        | .raised text => some (s.at_ (.marking job (.failed (clip 2000 text))))
      | _ => none
    | .storeResult =>
      match s.tick with
      | some (.storing job row config metrics) =>
        some { s.at_ (.stored job s.results.length) with
               results := s.results ++ [⟨row.strategyId, row.label, config, metrics⟩] }
      | _ => none
    | .readCompleted =>
      match s.tick with
      | some (.stored job result) => some (s.at_ (.completing job result))
      | _ => none
    | .complete =>
      match s.tick with
      | some (.completing job result) =>
        some ((s.write job .completed fun row => { row with resultId := some result }).at_ (.completed job result))
      | _ => none
    | .publishCompleted sent =>
      match s.tick with
      | some (.completed job result) => some ((s.publish job (.completed result) sent).leave job)
      | _ => none
    | .readMarked =>
      match s.tick with
      | some (.marking job mark) =>
        match s.jobs[job]? with
        | none => some (s.leave job)
        | some _ => some (s.at_ (.marked job mark))
      | _ => none
    | .commitMark =>
      match s.tick with
      | some (.marked job mark) =>
        some ((s.write job mark.status fun row => { row with errorText := some mark.text }).at_ (.telling job mark))
      | _ => none
    | .publishMark sent =>
      match s.tick with
      | some (.telling job mark) => some ((s.publish job mark.event sent).leave job)
      | _ => none
    | .fault =>
      match s.tick, s.current with
      | some _, some job => some (s.leave job)
      | some _, none => some { s with tick := none }
      | none, _ => none
    | .requestCancel task job =>
      match s.phase, s.cancels task with
      | .up, none =>
        match s.jobs[job]? with
        | none => some s
        | some row =>
          match row.status with
          | .queued => some (s.setCancel task (some (.writing job)))
          | .running => some { s with cancelFlags := Function.update s.cancelFlags job true }
          | _ => some s
      | _, _ => none
    | .commitCancel task =>
      match s.cancels task with
      | some (.writing job) =>
        some ((s.write job .cancelled fun row => { row with errorText := some beforeStart }).setCancel task
          (some (.telling job)))
      | _ => none
    | .publishCancel task sent =>
      match s.cancels task with
      | some (.telling job) => some ((s.publish job (.cancelled beforeStart) sent).setCancel task none)
      | _ => none
    | .faultCancel task =>
      match s.cancels task with
      | some _ => some (s.setCancel task none)
      | none => none

end Workbench.Services
