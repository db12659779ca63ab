import Workbench.Services.BacktestWorker

/-!
# The lifecycle of backtest jobs

A job moves as `BacktestJobStatus` says, one that was cancelled before its start is never run, a completed job names
a result of its own config, and a job has one terminal event at most (`backtest_jobs_sound`). This holds of the runs
in which a dequeue and a cancellation that read a QUEUED row still find it QUEUED when they commit.
-/

set_option linter.dupNamespace false

namespace Workbench.Services
open Workbench.Lib List Function Option Table

variable {κ β γ μ : Type} {code : Code κ β γ}

/-- A result was computed from the config of a job. -/
def Own (code : Code κ β γ) (results : List (BacktestResult β μ)) (returns : List (Nat × β × μ)) (job : Nat)
    (row : BacktestJob κ) (rid : Nat) : Prop :=
  ∃ r, results[rid]? = some r ∧ r.strategyId = row.strategyId ∧ r.label = row.label ∧
    code.configFromDict row.config = .ok r.config ∧ (job, r.config, r.metrics) ∈ returns

/-- A job was reported as cancelled before its start, on the bus or in its row. -/
def Worker.ReportedBeforeStart (s : Worker κ β γ μ) (job : Nat) : Prop :=
  ⟨job, .cancelled beforeStart⟩ ∈ s.events ∨
    ∃ row, s.jobs[job]? = some row ∧ row.status = .cancelled ∧ row.errorText = some beforeStart

/-- What is to hold of the jobs in every state. -/
structure Lifecycle (code : Code κ β γ) (s : Worker κ β γ μ) : Prop where
  beforeStart : ∀ job, s.ReportedBeforeStart job →
    (∀ call ∈ s.calls, call.job ≠ job) ∧ ∀ row, s.jobs[job]? = some row → row.resultId = none
  completed : ∀ (job : Nat) (row : BacktestJob κ), s.jobs[job]? = some row →
    (row.status = .completed ↔ row.resultId.isSome = true)
  own : ∀ job row rid, s.jobs[job]? = some row → row.resultId = some rid → Own code s.results s.returns job row rid
  once : ∀ job, (s.events.filter fun e => e.job = job).length ≤ 1

/-- The status of every job is as it was, or has moved on. -/
def Worker.MovesOn (s t : Worker κ β γ μ) : Prop :=
  ∀ (job : Nat) (row : BacktestJob κ), s.jobs[job]? = some row → ∃ row' : BacktestJob κ, t.jobs[job]? = some row' ∧
    (row'.status = row.status ∨ row.status.next row'.status = true)

def Worker.Queued (s : Worker κ β γ μ) (job : Nat) : Prop := (s.jobs[job]?).any (fun row => row.status = .queued) = true

/-- The row that a dequeue is to mark is still QUEUED. -/
def Worker.TakesQueued (s : Worker κ β γ μ) : Option (Tick κ β γ μ) → Prop
  | some (.taken job) => s.Queued job
  | _ => True

/-- The row that a cancellation is to write is still QUEUED. -/
def Worker.CancelsQueued (s : Worker κ β γ μ) : Option Cancel → Prop
  | some (.writing job) => s.Queued job
  | _ => True

/-- What read a QUEUED row commits while it still is. -/
def Unraced (s : Worker κ β γ μ) : Label κ μ → Prop
  | .markRunning => s.TakesQueued s.tick
  | .commitCancel task => s.CancelsQueued (s.cancels task)
  | _ => True

/-! ## Texts -/

lemma clip_atBar {n bar total : Nat} (long : 17 ≤ n) : clip n (atBar bar total) ≠ beforeStart := by
  intro eq
  have letter : (clip n (atBar bar total)).toList[10]? = some 'a' := by
    rw [clip, String.toList_ofList, getElem?_take_of_lt (by omega)]
    exact congrArg (fun cs : List Char => cs[10]?)
      (String.toList_append : ("cancelled at bar " ++ (toString bar ++ "/" ++ toString total)).toList = _)
  rw [eq] at letter
  exact absurd letter (by decide)

/-! ## Rows -/

/-- What the worker may do to a row. -/
inductive RowMove (code : Code κ β γ) (results : List (BacktestResult β μ)) (returns : List (Nat × β × μ))
    (job : Nat) (row : BacktestJob κ) : BacktestJob κ → Prop
  | start (queued : row.status = .queued) : RowMove code results returns job row { row with status := .running }
  | cancel (queued : row.status = .queued) :
    RowMove code results returns job row { row with status := .cancelled, errorText := some Services.beforeStart }
  | complete {rid : Nat} (running : row.status = .running) (own : Own code results returns job row rid) :
    RowMove code results returns job row { row with status := .completed, resultId := some rid }
  | fail {text : String} (running : row.status = .running) :
    RowMove code results returns job row { row with status := .failed, errorText := some text }
  | stop {text : String} (running : row.status = .running) (other : text ≠ Services.beforeStart) :
    RowMove code results returns job row { row with status := .cancelled, errorText := some text }

/-- What holds of a row, with what has happened to its job. -/
structure RowFits (code : Code κ β γ) (results : List (BacktestResult β μ)) (returns : List (Nat × β × μ))
    (calls : List (Call β γ)) (events : List Event) (job : Nat) (row : BacktestJob κ) : Prop where
  fresh : row.status = .queued → ∀ call ∈ calls, call.job ≠ job
  silent : row.status.terminal = false → ∀ e ∈ events, e.job ≠ job
  completed : row.status = .completed ↔ row.resultId.isSome = true
  own : ∀ rid, row.resultId = some rid → Own code results returns job row rid
  once : (events.filter fun e => e.job = job).length ≤ 1
  reported : ⟨job, .cancelled beforeStart⟩ ∈ events → row.status = .cancelled ∧ row.errorText = some beforeStart
  unrun : row.status = .cancelled → row.errorText = some beforeStart → ∀ call ∈ calls, call.job ≠ job

section
variable {results : List (BacktestResult β μ)} {returns : List (Nat × β × μ)} {calls : List (Call β γ)}
  {events : List Event} {job : Nat} {row row' : BacktestJob κ}

lemma RowFits.resultId (h : RowFits code results returns calls events job row) (ne : row.status ≠ .completed) :
    row.resultId = none := by
  cases named : row.resultId with
  | none => rfl
  | some rid => exact absurd (h.completed.2 (by rw [named]; rfl)) ne

lemma RowFits.move (h : RowFits code results returns calls events job row)
    (m : RowMove code results returns job row row') : RowFits code results returns calls events job row' := by
  have active : row.status.terminal = false → ¬ (⟨job, .cancelled beforeStart⟩ : Event) ∈ events :=
    fun open_ mem => h.silent open_ _ mem rfl
  cases m with
  | start queued =>
    have none := h.resultId (by rw [queued]; decide)
    exact ⟨fun eq => (by cases eq), fun _ => h.silent (by rw [queued]; rfl), by simp [none], h.own, h.once,
      fun mem => absurd mem (active (by rw [queued]; rfl)), fun eq => (by cases eq)⟩
  | cancel queued =>
    have none := h.resultId (by rw [queued]; decide)
    exact ⟨fun eq => (by cases eq), fun eq => (by cases eq), by simp [none], h.own, h.once,
      fun _ => ⟨rfl, rfl⟩, fun _ _ => h.fresh queued⟩
  | complete running own =>
    refine ⟨fun eq => (by cases eq), fun eq => (by cases eq), by simp, ?_, h.once,
      fun mem => absurd mem (active (by rw [running]; rfl)), fun eq => (by cases eq)⟩
    intro rid named
    obtain rfl := some.inj named
    exact own
  | fail running =>
    have none := h.resultId (by rw [running]; decide)
    exact ⟨fun eq => (by cases eq), fun eq => (by cases eq), by simp [none], h.own, h.once,
      fun mem => absurd mem (active (by rw [running]; rfl)), fun eq => (by cases eq)⟩
  | stop running other =>
    have none := h.resultId (by rw [running]; decide)
    exact ⟨fun eq => (by cases eq), fun eq => (by cases eq), by simp [none], h.own, h.once,
      fun mem => absurd mem (active (by rw [running]; rfl)), fun _ eq => absurd (some.inj eq) other⟩

lemma Own.mono {results' : List (BacktestResult β μ)} {returns' : List (Nat × β × μ)} {rid : Nat}
    (h : Own code results returns job row rid) (more : results <+: results') (sub : returns ⊆ returns') :
    Own code results' returns' job row rid := by
  obtain ⟨r, get, strategy, label, config, mem⟩ := h
  obtain ⟨rest, rfl⟩ := more
  refine ⟨r, ?_, strategy, label, config, sub mem⟩
  rw [getElem?_append_left (List.getElem?_eq_some_iff.1 get).1]
  exact get

end

/-! ## Tasks -/

def Holds (jobs : List (BacktestJob κ)) (job : Nat) (P : BacktestJob κ → Prop) : Prop :=
  ∃ row, jobs[job]? = some row ∧ P row

/-- The columns that `_run_job` has read. -/
structure SameJob (row read : BacktestJob κ) : Prop where
  strategyId : row.strategyId = read.strategyId
  config : row.config = read.config
  label : row.label = read.label

/-- A mark is not taken for a cancellation before the start. -/
def Mark.Fair : Mark → Prop
  | .failed _ => True
  | .cancelled reason => ∃ bar total, reason = atBar bar total

/-- What holds of the tick: its job is RUNNING until the tick itself ends it, and then no event is out yet. -/
def Tick.Fits (code : Code κ β γ) (jobs : List (BacktestJob κ)) (results : List (BacktestResult β μ))
    (returns : List (Nat × β × μ)) (events : List Event) : Tick κ β γ μ → Prop
  | .taken _ => True
  | .starting job | .opening job => Holds jobs job fun row => row.status = .running
  | .opened job read => Holds jobs job fun row => row.status = .running ∧ SameJob row read
  | .running job read call => call.job = job ∧ code.configFromDict read.config = .ok call.config ∧
    Holds jobs job fun row => row.status = .running ∧ SameJob row read
  | .storing job read config metrics => (job, config, metrics) ∈ returns ∧
    code.configFromDict read.config = .ok config ∧ Holds jobs job fun row => row.status = .running ∧ SameJob row read
  | .stored job rid | .completing job rid =>
    Holds jobs job fun row => row.status = .running ∧ Own code results returns job row rid
  | .completed job _ => (∀ e ∈ events, e.job ≠ job) ∧ Holds jobs job fun row => row.status = .completed
  | .marking job mark | .marked job mark => mark.Fair ∧ Holds jobs job fun row => row.status = .running
  | .telling job mark => mark.Fair ∧ (∀ e ∈ events, e.job ≠ job) ∧
    Holds jobs job fun row => row.status = mark.status ∧ row.errorText = some mark.text

/-- What holds of a cancellation that has committed. -/
def Cancel.Fits (jobs : List (BacktestJob κ)) (events : List Event) : Cancel → Prop
  | .writing _ => True
  | .telling job => (∀ e ∈ events, e.job ≠ job) ∧
    Holds jobs job fun row => row.status = .cancelled ∧ row.errorText = some beforeStart

def Phase.Fits (jobs : List (BacktestJob κ)) (tick : Option (Tick κ β γ μ)) : Phase → Prop
  | .booting => tick = none
  | .reconciling orphans => tick = none ∧ ∀ job ∈ orphans, Holds jobs job fun row => row.status = .running
  | .up => True

/-- The invariant of the worker. -/
structure Inv (code : Code κ β γ) (s : Worker κ β γ μ) : Prop where
  rows : ∀ job row, s.jobs[job]? = some row → RowFits code s.results s.returns s.calls s.events job row
  calls : ∀ call ∈ s.calls, call.job < s.jobs.length
  events : ∀ e ∈ s.events, e.job < s.jobs.length
  tick : ∀ tick, s.tick = some tick → tick.Fits code s.jobs s.results s.returns s.events
  cancels : ∀ i cancel, s.cancels i = some cancel → cancel.Fits s.jobs s.events
  apart : ∀ i j job, s.cancels i = some (.telling job) → s.cancels j = some (.telling job) → i = j
  phase : s.phase.Fits s.jobs s.tick

/-! ## What a step leaves as it was -/

section
variable {jobs jobs' : List (BacktestJob κ)} {results results' : List (BacktestResult β μ)}
  {returns returns' : List (Nat × β × μ)} {calls : List (Call β γ)} {events : List Event} {job k : Nat}
  {row : BacktestJob κ} {P : BacktestJob κ → Prop}

lemma Holds.lt (h : Holds jobs k P) : k < jobs.length := by
  obtain ⟨row, get, -⟩ := h
  exact (List.getElem?_eq_some_iff.1 get).1

lemma Holds.append {x : BacktestJob κ} (h : Holds jobs k P) : Holds (jobs ++ [x]) k P := by
  obtain ⟨row, get, p⟩ := h
  refine ⟨row, ?_, p⟩
  rw [getElem?_append_left (List.getElem?_eq_some_iff.1 get).1]
  exact get

lemma Holds.amend {f : BacktestJob κ → BacktestJob κ} (h : Holds jobs k P) (get : jobs[job]? = some row)
    (no : ¬ P row) : Holds (Table.amend job f jobs) k P := by
  obtain ⟨row', get', p⟩ := h
  refine ⟨row', ?_, p⟩
  rw [getElem?_amend_of_ne, get']
  rintro rfl
  exact no (some.inj (get.symm.trans get') ▸ p)

lemma holds_amend {f : BacktestJob κ → BacktestJob κ} (get : jobs[job]? = some row) (p : P (f row)) :
    Holds (Table.amend job f jobs) job P :=
  ⟨f row, getElem?_amend_self get, p⟩

lemma Tick.Fits.mono {tick : Tick κ β γ μ} (h : tick.Fits code jobs results returns events)
    (keep : ∀ k P, (∀ row, P row → row.status ≠ .queued) → Holds jobs k P → Holds jobs' k P)
    (more : results <+: results') (sub : returns ⊆ returns') : tick.Fits code jobs' results' returns' events := by
  have status {row : BacktestJob κ} {x : BacktestJobStatus} (eq : row.status = x) (ne : x ≠ .queued) :
      row.status ≠ .queued := by rw [eq]; exact ne
  cases tick with
  | taken => trivial
  | starting | opening => exact keep _ _ (fun _ p => status p (by decide)) h
  | opened => exact keep _ _ (fun _ p => status p.1 (by decide)) h
  | running => exact ⟨h.1, h.2.1, keep _ _ (fun _ p => status p.1 (by decide)) h.2.2⟩
  | storing => exact ⟨sub h.1, h.2.1, keep _ _ (fun _ p => status p.1 (by decide)) h.2.2⟩
  | stored | completing =>
    obtain ⟨row, get, running, own⟩ := keep _ _ (fun _ p => status p.1 (by decide)) h
    exact ⟨row, get, running, own.mono more sub⟩
  | completed => exact ⟨h.1, keep _ _ (fun _ p => status p (by decide)) h.2⟩
  | marking | marked => exact ⟨h.1, keep _ _ (fun _ p => status p (by decide)) h.2⟩
  | telling job mark =>
    refine ⟨h.1, h.2.1, keep _ _ (fun _ p => status p.1 ?_) h.2.2⟩
    cases mark with
    | failed => exact fun eq => (by cases eq)
    | cancelled => exact fun eq => (by cases eq)

lemma Mark.Fair.text_ne {mark : Mark} (fair : mark.Fair) (cancelled : mark.status = .cancelled) :
    mark.text ≠ beforeStart := by
  cases mark with
  | failed => cases cancelled
  | cancelled reason =>
    obtain ⟨bar, total, rfl⟩ := fair
    exact clip_atBar (by decide)

lemma Mark.Fair.event_ne {mark : Mark} (fair : mark.Fair) : mark.event ≠ .cancelled beforeStart := by
  cases mark with
  | failed => exact fun eq => (by cases eq)
  | cancelled reason =>
    obtain ⟨bar, total, rfl⟩ := fair
    intro eq
    exact clip_atBar (n := 512) (by decide) (EventKind.cancelled.inj eq)

lemma Tick.Fits.publish {tick : Tick κ β γ μ} {kind : EventKind} (h : tick.Fits code jobs results returns events)
    (told : Holds jobs k fun row => row.status = .cancelled ∧ row.errorText = some beforeStart) :
    tick.Fits code jobs results returns (⟨k, kind⟩ :: events) := by
  obtain ⟨row, get, cancelled, text⟩ := told
  cases tick with
  | taken | starting | opening | opened | running | storing | stored | completing | marking | marked => exact h
  | completed job =>
    refine ⟨?_, h.2⟩
    obtain ⟨row', get', completed⟩ := h.2
    intro e mem
    rcases mem_cons.1 mem with rfl | mem
    · rintro rfl
      obtain rfl := some.inj (get.symm.trans get')
      rw [cancelled] at completed
      cases completed
    · exact h.1 e mem
  | telling job mark =>
    refine ⟨h.1, ?_, h.2.2⟩
    obtain ⟨row', get', status, text'⟩ := h.2.2
    intro e mem
    rcases mem_cons.1 mem with rfl | mem
    · rintro rfl
      obtain rfl := some.inj (get.symm.trans get')
      exact h.1.text_ne (status.symm.trans cancelled) (some.inj (text'.symm.trans text))
    · exact h.2.1 e mem

lemma RowFits.mono (h : RowFits code results returns calls events job row) (more : results <+: results')
    (sub : returns ⊆ returns') : RowFits code results' returns' calls events job row :=
  ⟨h.fresh, h.silent, h.completed, fun rid named => (h.own rid named).mono more sub, h.once, h.reported, h.unrun⟩

lemma RowFits.call {call : Call β γ} (h : RowFits code results returns calls events job row)
    (running : call.job = job → row.status = .running) :
    RowFits code results returns (call :: calls) events job row := by
  refine ⟨?_, h.silent, h.completed, h.own, h.once, h.reported, ?_⟩
  · intro queued c mem
    rcases mem_cons.1 mem with rfl | mem
    · intro same
      rw [running same] at queued
      cases queued
    · exact h.fresh queued c mem
  · intro cancelled text c mem
    rcases mem_cons.1 mem with rfl | mem
    · intro same
      rw [running same] at cancelled
      cases cancelled
    · exact h.unrun cancelled text c mem

lemma RowFits.publish {kind : EventKind} (h : RowFits code results returns calls events job row)
    (ended : k = job → row.status.terminal = true ∧ (∀ e ∈ events, e.job ≠ job) ∧
      (kind = .cancelled beforeStart → row.status = .cancelled ∧ row.errorText = some beforeStart)) :
    RowFits code results returns calls (⟨k, kind⟩ :: events) job row := by
  refine ⟨h.fresh, ?_, h.completed, h.own, ?_, ?_, h.unrun⟩
  · intro open_ e mem
    rcases mem_cons.1 mem with rfl | mem
    · intro same
      rw [(ended same).1] at open_
      cases open_
    · exact h.silent open_ e mem
  · rw [filter_cons]
    split
    · rename_i same
      have none := (ended (of_decide_eq_true same)).2.1
      rw [filter_eq_nil_iff.2 fun e mem => by simpa using none e mem]
      exact le_rfl
    · exact h.once
  · intro mem
    rcases mem_cons.1 mem with eq | mem
    · obtain ⟨rfl, rfl⟩ := Event.mk.inj eq
      exact (ended rfl).2.2 rfl
    · exact h.reported mem

end

/-! ## The invariant over runs -/

section
variable {s t : Worker κ β γ μ}
variable {job : Nat}

lemma Inv.up {tick : Tick κ β γ μ} (h : Inv code s) (some_tick : s.tick = some tick) : s.phase = .up := by
  have fits := h.phase
  cases phase : s.phase with
  | up => rfl
  | booting =>
    rw [phase] at fits
    exact absurd (some_tick.symm.trans fits) (by simp)
  | reconciling orphans =>
    rw [phase] at fits
    exact absurd (some_tick.symm.trans fits.1) (by simp)

lemma Inv.at_ {tick : Tick κ β γ μ} (h : Inv code s) (up : s.phase = .up)
    (fits : tick.Fits code s.jobs s.results s.returns s.events) : Inv code (s.at_ tick) where
  rows := h.rows
  calls := h.calls
  events := h.events
  tick := fun _ eq => some.inj eq ▸ fits
  cancels := h.cancels
  apart := h.apart
  phase := by
    change s.phase.Fits s.jobs (some tick)
    rw [up]
    trivial

lemma Inv.idle (h : Inv code s) : Inv code { s with tick := none } where
  rows := h.rows
  calls := h.calls
  events := h.events
  tick := fun _ eq => (by cases eq)
  cancels := h.cancels
  apart := h.apart
  phase := by
    have fits := h.phase
    cases phase : s.phase with
    | up => trivial
    | booting => rfl
    | reconciling orphans =>
      rw [phase] at fits
      exact ⟨rfl, fits.2⟩

lemma Inv.leave (h : Inv code s) : Inv code (s.leave job) :=
  ⟨h.idle.rows, h.idle.calls, h.idle.events, h.idle.tick, h.idle.cancels, h.idle.apart, h.idle.phase⟩

lemma Inv.rows_amend {row : BacktestJob κ} {f : BacktestJob κ → BacktestJob κ} (h : Inv code s)
    (get : s.jobs[job]? = some row) (move : RowMove code s.results s.returns job row (f row)) (j : Nat)
    (r : BacktestJob κ) (get' : (Table.amend job f s.jobs)[j]? = some r) :
    RowFits code s.results s.returns s.calls s.events j r := by
  rw [getElem?_amend] at get'
  split at get'
  · rename_i same
    subst same
    rw [get] at get'
    obtain rfl := some.inj get'
    exact (h.rows job row get).move move
  · exact h.rows j r get'

lemma Inv.cancels_amend {row : BacktestJob κ} {f : BacktestJob κ → BacktestJob κ} (h : Inv code s)
    (get : s.jobs[job]? = some row) (ne : row.status ≠ .cancelled) (i : Nat) (cancel : Cancel)
    (at_i : s.cancels i = some cancel) : cancel.Fits (Table.amend job f s.jobs) s.events := by
  have fits := h.cancels i cancel at_i
  cases cancel with
  | writing => trivial
  | telling => exact ⟨fits.1, fits.2.amend get fun p => ne p.1⟩

lemma Inv.write_at {row : BacktestJob κ} {status : BacktestJobStatus}
    {edit : BacktestJob κ → BacktestJob κ} {tick : Tick κ β γ μ} (h : Inv code s) (up : s.phase = .up)
    (get : s.jobs[job]? = some row) (ne : row.status ≠ .cancelled)
    (move : RowMove code s.results s.returns job row { edit row with status })
    (fits : tick.Fits code (s.write job status edit).jobs s.results s.returns s.events) :
    Inv code ((s.write job status edit).at_ tick) where
  rows := h.rows_amend get move
  calls := fun call mem => (h.calls call mem).trans_eq length_amend.symm
  events := fun e mem => (h.events e mem).trans_eq length_amend.symm
  tick := fun _ eq => some.inj eq ▸ fits
  cancels := h.cancels_amend get ne
  apart := h.apart
  phase := by
    change s.phase.Fits _ _
    rw [up]
    trivial

lemma Worker.Queued.row (h : s.Queued job) : ∃ row, s.jobs[job]? = some row ∧ row.status = .queued := by
  obtain ⟨row, get, queued⟩ := (Option.any_eq_true _ _).1 h
  exact ⟨row, get, of_decide_eq_true queued⟩

lemma Worker.holds_of_any (seen : ((s.jobs[job]?).any fun row => row.status = .running) = true) :
    Holds s.jobs job fun row => row.status = .running := by
  obtain ⟨row, get, running⟩ := (Option.any_eq_true _ _).1 seen
  exact ⟨row, get, of_decide_eq_true running⟩

lemma Inv.markRunning (h : Inv code s) (up : s.phase = .up) (queued : s.Queued job) :
    Inv code ((s.write job .running id).at_ (.starting job)) := by
  obtain ⟨row, get, queued⟩ := queued.row
  exact h.write_at up get (by rw [queued]; decide) (.start queued) (holds_amend get rfl)

lemma Inv.complete {result : Nat} (h : Inv code s) (tick : s.tick = some (.completing job result)) :
    Inv code ((s.write job .completed fun row => { row with resultId := some result }).at_
      (.completed job result)) := by
  obtain ⟨row, get, running, own⟩ := h.tick _ tick
  apply h.write_at (h.up tick) get (by rw [running]; decide) (.complete running own)
  exact ⟨(h.rows job row get).silent (by rw [running]; rfl), holds_amend get rfl⟩

lemma Inv.commitMark {mark : Mark} (h : Inv code s) (tick : s.tick = some (.marked job mark)) :
    Inv code ((s.write job mark.status fun row => { row with errorText := some mark.text }).at_
      (.telling job mark)) := by
  obtain ⟨fair, row, get, running⟩ := h.tick _ tick
  have silent := (h.rows job row get).silent (by rw [running]; rfl)
  apply h.write_at (h.up tick) get (by rw [running]; decide)
  · cases mark with
    | failed => exact .fail running
    | cancelled => exact .stop running (fair.text_ne rfl)
  · exact ⟨fair, silent, holds_amend get ⟨rfl, rfl⟩⟩

lemma Inv.commitCancel {task : Nat} (h : Inv code s) (queued : s.Queued job) :
    Inv code ((s.write job .cancelled fun row => { row with errorText := some beforeStart }).setCancel task
      (some (.telling job))) := by
  obtain ⟨row, get, queued⟩ := queued.row
  have ne : row.status ≠ .cancelled := by rw [queued]; decide
  have silent := (h.rows job row get).silent (by rw [queued]; rfl)
  -- no other cancellation tells the job: it was QUEUED
  have alone (i : Nat) : s.cancels i ≠ some (.telling job) := by
    intro eq
    obtain ⟨row', get', cancelled, -⟩ := (h.cancels i _ eq).2
    exact ne (some.inj (get.symm.trans get') ▸ cancelled)
  constructor
  case rows => exact h.rows_amend get (.cancel queued)
  case calls => exact fun call mem => (h.calls call mem).trans_eq length_amend.symm
  case events => exact fun e mem => (h.events e mem).trans_eq length_amend.symm
  case tick =>
    intro tick eq
    refine (h.tick tick eq).mono ?_ prefix_rfl (List.Subset.refl _)
    exact fun k P left holds => holds.amend get fun p => left row p queued
  case cancels =>
    intro i cancel eq
    change Function.update s.cancels task (some (.telling job)) i = some cancel at eq
    rw [update_apply] at eq
    split at eq
    · obtain rfl := some.inj eq
      exact ⟨silent, holds_amend get ⟨rfl, rfl⟩⟩
    · exact h.cancels_amend get ne i cancel eq
  case apart =>
    intro i j k eq eq'
    change Function.update s.cancels task (some (.telling job)) i = _ at eq
    change Function.update s.cancels task (some (.telling job)) j = _ at eq'
    rw [update_apply] at eq eq'
    split at eq <;> split at eq'
    · rename_i hi hj
      exact hi.trans hj.symm
    · obtain rfl := Cancel.telling.inj (some.inj eq)
      exact absurd eq' (alone j)
    · obtain rfl := Cancel.telling.inj (some.inj eq')
      exact absurd eq (alone i)
    · exact h.apart i j k eq eq'
  case phase =>
    have fits := h.phase
    change s.phase.Fits _ s.tick
    cases phase : s.phase with
    | up => trivial
    | booting =>
      rw [phase] at fits
      exact fits
    | reconciling orphans =>
      rw [phase] at fits
      refine ⟨fits.1, fun o mem => (fits.2 o mem).amend get ?_⟩
      rw [queued]
      decide

lemma Inv.setCancel {task : Nat} {cancel : Option Cancel} (h : Inv code s)
    (quiet : ∀ job, cancel ≠ some (.telling job)) : Inv code (s.setCancel task cancel) where
  rows := h.rows
  calls := h.calls
  events := h.events
  tick := h.tick
  cancels := by
    intro i c eq
    change Function.update s.cancels task cancel i = some c at eq
    rw [update_apply] at eq
    split at eq
    · subst eq
      cases c with
      | writing => trivial
      | telling job => exact absurd rfl (quiet job)
    · exact h.cancels i c eq
  apart := by
    intro i j k eq eq'
    change Function.update s.cancels task cancel i = _ at eq
    change Function.update s.cancels task cancel j = _ at eq'
    rw [update_apply] at eq eq'
    split at eq
    · exact absurd eq (quiet k)
    · split at eq'
      · exact absurd eq' (quiet k)
      · exact h.apart i j k eq eq'
  phase := h.phase

lemma Inv.publishCancel {task : Nat} {sent : Bool} (h : Inv code s) (telling : s.cancels task = some (.telling job)) :
    Inv code ((s.publish job (.cancelled beforeStart) sent).setCancel task none) := by
  have quiet : ∀ k, (none : Option Cancel) ≠ some (.telling k) := fun _ eq => (by cases eq)
  cases sent with
  | false => exact h.setCancel quiet
  | true =>
    obtain ⟨silent, told⟩ := h.cancels task _ telling
    have others : Inv code (s.setCancel task none) := h.setCancel quiet
    constructor
    case rows =>
      intro k row get
      apply (h.rows k row get).publish
      rintro rfl
      obtain ⟨row', get', cancelled, text⟩ := told
      obtain rfl := some.inj (get.symm.trans get')
      exact ⟨by rw [cancelled]; rfl, silent, fun _ => ⟨cancelled, text⟩⟩
    case calls => exact h.calls
    case events =>
      intro e mem
      rcases mem_cons.1 mem with rfl | mem
      · exact told.lt
      · exact h.events e mem
    case tick => exact fun tick eq => (h.tick tick eq).publish told
    case cancels =>
      intro i c eq
      have fits := others.cancels i c eq
      cases c with
      | writing => trivial
      | telling k =>
        refine ⟨?_, fits.2⟩
        intro e mem
        rcases mem_cons.1 mem with rfl | mem
        · -- the task itself is done, and no other tells its job
          rintro rfl
          change Function.update s.cancels task none i = _ at eq
          rw [update_apply] at eq
          split at eq
          · cases eq
          · rename_i ne
            exact ne (h.apart i task _ eq telling)
        · exact fits.1 e mem
    case apart => exact others.apart
    case phase => exact others.phase

lemma Inv.publish {kind : EventKind} {sent : Bool} (h : Inv code s)
    (silent : ∀ e ∈ s.events, e.job ≠ job) (other : kind ≠ .cancelled beforeStart)
    (ended : Holds s.jobs job fun row => row.status.terminal = true ∧
      ¬ (row.status = .cancelled ∧ row.errorText = some beforeStart)) :
    Inv code ((s.publish job kind sent).leave job) := by
  cases sent with
  | false => exact h.leave
  | true =>
    have left : Inv code (s.leave job) := h.leave
    obtain ⟨row', get', terminal, apart⟩ := ended
    constructor
    case rows =>
      intro k row get
      apply (h.rows k row get).publish
      rintro rfl
      obtain rfl := some.inj (get.symm.trans get')
      exact ⟨terminal, silent, fun eq => absurd eq other⟩
    case calls => exact h.calls
    case events =>
      intro e mem
      rcases mem_cons.1 mem with rfl | mem
      · exact (List.getElem?_eq_some_iff.1 get').1
      · exact h.events e mem
    case tick => exact fun tick eq => (by cases eq)
    case cancels =>
      intro i c eq
      have fits := h.cancels i c eq
      cases c with
      | writing => trivial
      | telling k =>
        refine ⟨?_, fits.2⟩
        intro e mem
        rcases mem_cons.1 mem with rfl | mem
        · rintro rfl
          obtain ⟨row, get, told⟩ := fits.2
          exact apart (some.inj (get.symm.trans get') ▸ told)
        · exact fits.1 e mem
    case apart => exact left.apart
    case phase => exact left.phase

lemma Inv.submit {x : BacktestJob κ} (h : Inv code s) (queued : x.status = .queued) (none : x.resultId = none) :
    Inv code { s with jobs := s.jobs ++ [x] } where
  rows := by
    intro job row get
    rw [getElem?_append] at get
    split at get
    · exact h.rows job row get
    · rename_i new
      obtain ⟨rfl, rfl⟩ : job = s.jobs.length ∧ x = row := by
        have last := (List.getElem?_eq_some_iff.1 get).1
        rw [length_singleton] at last
        have eq : job - s.jobs.length = 0 := by omega
        rw [eq] at get
        exact ⟨by omega, some.inj get⟩
      have no_call : ∀ call ∈ s.calls, call.job ≠ s.jobs.length := fun call mem => (h.calls call mem).ne
      have no_event : ∀ e ∈ s.events, e.job ≠ s.jobs.length := fun e mem => (h.events e mem).ne
      refine ⟨fun _ => no_call, fun _ => no_event, ?_, ?_, ?_, ?_, fun _ _ => no_call⟩
      · simp [queued, none]
      · intro rid eq
        rw [none] at eq
        cases eq
      · rw [filter_eq_nil_iff.2 fun e mem => by simpa using no_event e mem]
        exact Nat.zero_le 1
      · exact fun mem => absurd rfl (no_event _ mem)
  calls := fun call mem => (h.calls call mem).trans_le (by simp)
  events := fun e mem => (h.events e mem).trans_le (by simp)
  tick := fun tick eq => (h.tick tick eq).mono (fun _ _ _ holds => holds.append) prefix_rfl (List.Subset.refl _)
  cancels := by
    intro i cancel eq
    have fits := h.cancels i cancel eq
    cases cancel with
    | writing => trivial
    | telling => exact ⟨fits.1, fits.2.append⟩
  apart := h.apart
  phase := by
    have fits := h.phase
    change s.phase.Fits _ s.tick
    cases phase : s.phase with
    | up => trivial
    | booting =>
      rw [phase] at fits
      exact fits
    | reconciling orphans =>
      rw [phase] at fits
      exact ⟨fits.1, fun o mem => (fits.2 o mem).append⟩

lemma Inv.call {row : BacktestJob κ} {call : Call β γ} (h : Inv code s)
    (tick : s.tick = some (.opened job row)) (prepared : call.job = job)
    (config : code.configFromDict row.config = .ok call.config) :
    Inv code { s.at_ (.running job row call) with calls := call :: s.calls } := by
  have holds := h.tick _ tick
  have next : Inv code (s.at_ (.running job row call)) := h.at_ (h.up tick) ⟨prepared, config, holds⟩
  obtain ⟨cur, get, running, -⟩ := id holds
  constructor
  case rows =>
    intro k r get'
    apply (h.rows k r get').call
    intro same
    obtain rfl : k = job := same.symm.trans prepared
    rwa [some.inj (get.symm.trans get')] at running
  case calls =>
    intro c mem
    rcases mem_cons.1 mem with rfl | mem
    · rw [prepared]
      exact (List.getElem?_eq_some_iff.1 get).1
    · exact h.calls c mem
  case events => exact next.events
  case tick => exact next.tick
  case cancels => exact next.cancels
  case apart => exact next.apart
  case phase => exact next.phase

lemma Inv.mono {results : List (BacktestResult β μ)} {returns : List (Nat × β × μ)} (h : Inv code s)
    (more : s.results <+: results) (sub : s.returns ⊆ returns) :
    Inv code { s with results := results, returns := returns } where
  rows := fun job row get => (h.rows job row get).mono more sub
  calls := h.calls
  events := h.events
  tick := fun tick eq => (h.tick tick eq).mono (fun _ _ _ holds => holds) more sub
  cancels := h.cancels
  apart := h.apart
  phase := h.phase

lemma Inv.returned {row : BacktestJob κ} {call : Call β γ} {metrics : μ} (h : Inv code s)
    (tick : s.tick = some (.running job row call)) : Inv code { s.at_ (.storing job row call.config metrics) with
               returns := (job, call.config, metrics) :: s.returns } := by
  obtain ⟨-, config, holds⟩ := h.tick _ tick
  have more := h.mono (prefix_refl s.results) (subset_cons_self (job, call.config, metrics) s.returns)
  have next := @Inv.at_ _ _ _ _ code _ (.storing job row call.config metrics) more (h.up tick)
    ⟨mem_cons_self, config, holds⟩
  exact ⟨next.rows, next.calls, next.events, next.tick, next.cancels, next.apart, next.phase⟩

lemma Inv.storeResult {row : BacktestJob κ} {config : β} {metrics : μ} (h : Inv code s)
    (tick : s.tick = some (.storing job row config metrics)) : Inv code { s.at_ (.stored job s.results.length) with
               results := s.results ++ [⟨row.strategyId, row.label, config, metrics⟩] } := by
  obtain ⟨mem, parsed, cur, get, running, same⟩ := h.tick _ tick
  have more := h.mono (prefix_append s.results [⟨row.strategyId, row.label, config, metrics⟩])
    (List.Subset.refl s.returns)
  have own : Own code (s.results ++ [⟨row.strategyId, row.label, config, metrics⟩]) s.returns job cur
      s.results.length := by
    refine ⟨⟨row.strategyId, row.label, config, metrics⟩, by simp, same.strategyId.symm, same.label.symm, ?_, mem⟩
    rw [same.config]
    exact parsed
  have next := @Inv.at_ _ _ _ _ code _ (.stored job s.results.length) more (h.up tick) ⟨cur, get, running, own⟩
  exact ⟨next.rows, next.calls, next.events, next.tick, next.cancels, next.apart, next.phase⟩

/-- What the start of a process does to an orphan. -/
def failOrphan (row : BacktestJob κ) : BacktestJob κ := { row with errorText := some abandoned, status := .failed }

lemma foldl_failOrphan {orphans : List Nat} : ∃ jobs : List (BacktestJob κ), jobs.length = s.jobs.length ∧
    (∀ j, jobs[j]? = if j ∈ orphans then s.jobs[j]?.map failOrphan else s.jobs[j]?) ∧
    orphans.foldl (fun s job => s.write job .failed fun row => { row with errorText := some abandoned }) s =
      { s with jobs := jobs } := by
  induction orphans generalizing s with
  | nil => exact ⟨s.jobs, rfl, fun j => by simp, rfl⟩
  | cons o orphans ih =>
    obtain ⟨jobs, length, rows, eq⟩ := @ih (s.write o .failed fun row => { row with errorText := some abandoned })
    refine ⟨jobs, length.trans length_amend, ?_, eq⟩
    intro j
    have written : (s.write o .failed fun row => { row with errorText := some abandoned }).jobs[j]? =
        if o = j then s.jobs[j]?.map failOrphan else s.jobs[j]? := getElem?_amend
    rw [rows, written]
    by_cases same : o = j
    · subst same
      simp only [mem_cons, true_or, if_true]
      split
      · cases s.jobs[o]? <;> rfl
      · rfl
    · have other : ¬ j = o := fun eq => same eq.symm
      simp only [mem_cons, other, same, false_or, if_false]

lemma Inv.failOrphans {orphans : List Nat} (h : Inv code s) (reconciling : s.phase = .reconciling orphans) :
    Inv code { orphans.foldl (fun s job => s.write job .failed fun row =>
      { row with errorText := some abandoned }) s with phase := .up } := by
  obtain ⟨jobs, length, rows, eq⟩ := @foldl_failOrphan κ β γ μ s orphans
  have fits := h.phase
  rw [reconciling] at fits
  rw [eq]
  constructor
  case rows =>
    intro j r get
    change jobs[j]? = some r at get
    rw [rows] at get
    split at get
    · rename_i orphan
      obtain ⟨row, get', running⟩ := fits.2 j orphan
      rw [get'] at get
      obtain rfl := some.inj get
      exact (h.rows j row get').move (.fail running)
    · exact h.rows j r get
  case calls => exact fun call mem => (h.calls call mem).trans_eq length.symm
  case events => exact fun e mem => (h.events e mem).trans_eq length.symm
  case tick =>
    intro tick some_tick
    have none : s.tick = none := fits.1
    exact absurd (some_tick.symm.trans none) (by simp)
  case cancels =>
    intro i cancel at_i
    have told := h.cancels i cancel at_i
    cases cancel with
    | writing => trivial
    | telling k =>
      obtain ⟨silent, row, get, cancelled⟩ := told
      refine ⟨silent, row, ?_, cancelled⟩
      change jobs[k]? = some row
      rw [rows, if_neg, get]
      intro orphan
      obtain ⟨row', get', running⟩ := fits.2 k orphan
      rw [← some.inj (get.symm.trans get'), cancelled.1] at running
      cases running
  case apart => exact h.apart
  case phase => trivial

lemma prepare_ok {row : BacktestJob κ} {strategy : Option StrategyRow} {call : Call β γ}
    (ok : prepare code job row strategy = .ok call) :
    call.job = job ∧ code.configFromDict row.config = .ok call.config := by
  unfold prepare at ok
  split at ok
  · cases ok
  · split at ok
    · cases ok
    · split at ok
      · cases ok
      · rename_i config parsed
        split at ok
        · cases ok
        · obtain rfl := Except.ok.inj ok
          exact ⟨rfl, parsed⟩

lemma Inv.step {l : Label κ μ} (h : Inv code s) (calm : Unraced s l) (step : (worker code).step s l = some t) :
    Inv code t := by
  cases l with
  | submit =>
    cases step
    exact h.submit rfl rfl
  | editStrategies =>
    cases step
    exact ⟨h.rows, h.calls, h.events, h.tick, h.cancels, h.apart, h.phase⟩
  | restart =>
    cases step
    exact ⟨h.rows, h.calls, h.events, fun _ eq => (by cases eq), fun _ _ eq => (by cases eq),
      fun _ _ _ eq => (by cases eq), rfl⟩
  | readOrphans =>
    simp only [worker] at step
    split at step
    · rename_i booting
      cases step
      have fits := h.phase
      rw [booting] at fits
      refine ⟨h.rows, h.calls, h.events, h.tick, h.cancels, h.apart, fits, ?_⟩
      intro job mem
      exact Worker.holds_of_any (mem_filter.1 mem).2
    · cases step
  | failOrphans =>
    simp only [worker] at step
    split at step
    · rename_i reconciling
      cases step
      exact h.failOrphans reconciling
    · cases step
  | dequeue =>
    simp only [worker] at step
    split at step
    · rename_i up _ _
      split at step
      · cases step
        exact h.at_ up trivial
      · cases step
    · cases step
  | markRunning =>
    simp only [worker] at step
    simp only [Unraced] at calm
    split at step
    · rename_i tick
      cases step
      rw [tick] at calm
      exact h.markRunning (h.up tick) calm
    · cases step
  | publishStarted =>
    simp only [worker] at step
    split at step
    · rename_i tick
      cases step
      have fits := h.tick _ tick
      exact h.at_ (h.up tick) fits
    · cases step
  | readJob =>
    simp only [worker] at step
    split at step
    · rename_i tick
      split at step
      · cases step
        exact h.leave
      · rename_i row get
        cases step
        obtain ⟨cur, get', running⟩ := h.tick _ tick
        obtain rfl := some.inj (get.symm.trans get')
        exact h.at_ (h.up tick) ⟨row, get, running, rfl, rfl, rfl⟩
    · cases step
  | readStrategy =>
    simp only [worker] at step
    split at step
    · rename_i tick
      obtain ⟨cur, get, running, -⟩ := h.tick _ tick
      split at step
      · cases step
        exact h.at_ (h.up tick) ⟨trivial, cur, get, running⟩
      · rename_i call prepared
        cases step
        obtain ⟨same, config⟩ := prepare_ok prepared
        exact h.call tick same config
    · cases step
  | harness outcome =>
    simp only [worker] at step
    split at step
    · rename_i tick
      obtain ⟨-, -, cur, get, running, -⟩ := h.tick _ tick
      cases outcome with
      | returned =>
        cases step
        exact h.returned tick
      | cancelled bar total =>
        dsimp only at step
        split at step
        · cases step
          exact h.at_ (h.up tick) ⟨⟨bar, total, rfl⟩, cur, get, running⟩
        · cases step
      | raised =>
        cases step
        exact h.at_ (h.up tick) ⟨trivial, cur, get, running⟩
    · cases step
  | storeResult =>
    simp only [worker] at step
    split at step
    · rename_i tick
      cases step
      exact h.storeResult tick
    · cases step
  | readCompleted =>
    simp only [worker] at step
    split at step
    · rename_i tick
      cases step
      have fits := h.tick _ tick
      exact h.at_ (h.up tick) fits
    · cases step
  | complete =>
    simp only [worker] at step
    split at step
    · rename_i tick
      cases step
      exact h.complete tick
    · cases step
  | publishCompleted =>
    simp only [worker] at step
    split at step
    · rename_i tick
      cases step
      obtain ⟨silent, cur, get, completed⟩ := h.tick _ tick
      apply h.publish silent (fun eq => (by cases eq))
      refine ⟨cur, get, by rw [completed]; rfl, ?_⟩
      rw [completed]
      exact fun told => (by cases told.1)
    · cases step
  | readMarked =>
    simp only [worker] at step
    split at step
    · rename_i tick
      split at step
      · cases step
        exact h.leave
      · cases step
        have fits := h.tick _ tick
        exact h.at_ (h.up tick) fits
    · cases step
  | commitMark =>
    simp only [worker] at step
    split at step
    · rename_i tick
      cases step
      exact h.commitMark tick
    · cases step
  | publishMark =>
    simp only [worker] at step
    split at step
    · rename_i job mark tick
      cases step
      obtain ⟨fair, silent, cur, get, status, text⟩ := h.tick _ tick
      apply h.publish silent fair.event_ne
      refine ⟨cur, get, ?_, ?_⟩
      · rw [status]
        cases mark <;> rfl
      · intro told
        exact fair.text_ne (status.symm.trans told.1) (some.inj (text.symm.trans told.2))
    · cases step
  | fault =>
    simp only [worker] at step
    split at step
    · cases step
      exact h.leave
    · cases step
      exact h.idle
    · cases step
  | requestCancel =>
    simp only [worker] at step
    split at step
    · split at step
      · cases step
        exact h
      · split at step
        · cases step
          exact h.setCancel fun _ eq => (by cases eq)
        · cases step
          exact ⟨h.rows, h.calls, h.events, h.tick, h.cancels, h.apart, h.phase⟩
        · cases step
          exact h
    · cases step
  | commitCancel task =>
    simp only [worker] at step
    simp only [Unraced] at calm
    split at step
    · rename_i writing
      cases step
      rw [writing] at calm
      exact h.commitCancel calm
    · cases step
  | publishCancel =>
    simp only [worker] at step
    split at step
    · rename_i telling
      cases step
      exact h.publishCancel telling
    · cases step
  | faultCancel =>
    simp only [worker] at step
    split at step
    · cases step
      exact h.setCancel fun _ eq => (by cases eq)
    · cases step

/-! ## What holds of the jobs -/

lemma Inv.lifecycle (h : Inv code s) : Lifecycle code s where
  beforeStart := by
    intro job told
    have ended : ∀ row, s.jobs[job]? = some row → row.status = .cancelled ∧ row.errorText = some beforeStart := by
      intro row get
      rcases told with mem | ⟨row', get', told⟩
      · exact (h.rows job row get).reported mem
      · exact some.inj (get.symm.trans get') ▸ told
    obtain ⟨row, get⟩ : ∃ row, s.jobs[job]? = some row := by
      rcases told with mem | ⟨row, get, -⟩
      · exact ⟨_, getElem?_eq_getElem (h.events _ mem)⟩
      · exact ⟨row, get⟩
    have fits := h.rows job row get
    obtain ⟨cancelled, text⟩ := ended row get
    refine ⟨fits.unrun cancelled text, ?_⟩
    intro row' get'
    obtain rfl := some.inj (get.symm.trans get')
    exact fits.resultId (by rw [cancelled]; decide)
  completed := fun job row get => (h.rows job row get).completed
  own := fun job row rid get => (h.rows job row get).own rid
  once := by
    intro job
    rcases Nat.lt_or_ge job s.jobs.length with known | unknown
    · exact (h.rows job _ (getElem?_eq_getElem known)).once
    · rw [filter_eq_nil_iff.2]
      · exact Nat.zero_le 1
      · intro e mem
        have := h.events e mem
        simp only [decide_eq_true_eq]
        omega

lemma movesOn_of_jobs (same : t.jobs = s.jobs) : s.MovesOn t :=
  fun _ row get => ⟨row, by rw [same]; exact get, Or.inl rfl⟩

lemma movesOn_of_amend {row : BacktestJob κ} {f : BacktestJob κ → BacktestJob κ}
    (jobs : t.jobs = Table.amend job f s.jobs) (get : s.jobs[job]? = some row)
    (next : row.status.next (f row).status = true) : s.MovesOn t := by
  intro j r get'
  rw [jobs, getElem?_amend, get']
  split
  · rename_i same
    subst same
    obtain rfl := some.inj (get.symm.trans get')
    exact ⟨_, rfl, Or.inr next⟩
  · exact ⟨r, rfl, Or.inl rfl⟩

lemma Inv.movesOn {l : Label κ μ} (h : Inv code s) (calm : Unraced s l)
    (step : (worker code).step s l = some t) : s.MovesOn t := by
  cases l with
  | submit =>
    cases step
    intro job row get
    refine ⟨row, ?_, Or.inl rfl⟩
    rw [getElem?_append_left (List.getElem?_eq_some_iff.1 get).1]
    exact get
  | failOrphans =>
    simp only [worker] at step
    split at step
    · rename_i orphans reconciling
      cases step
      have fits := h.phase
      rw [reconciling] at fits
      obtain ⟨jobs, -, rows, eq⟩ := @foldl_failOrphan κ β γ μ s orphans
      rw [eq]
      intro job row get
      change ∃ row', jobs[job]? = some row' ∧ _
      rw [rows, get]
      split
      · rename_i orphan
        obtain ⟨row', get', running⟩ := fits.2 job orphan
        obtain rfl := some.inj (get.symm.trans get')
        exact ⟨_, rfl, Or.inr (by rw [running]; rfl)⟩
      · exact ⟨row, rfl, Or.inl rfl⟩
    · cases step
  | markRunning =>
    simp only [worker] at step
    simp only [Unraced] at calm
    split at step
    · rename_i tick
      cases step
      rw [tick] at calm
      obtain ⟨row, get, queued⟩ := calm.row
      exact movesOn_of_amend rfl get (by rw [queued]; rfl)
    · cases step
  | complete =>
    simp only [worker] at step
    split at step
    · rename_i tick
      cases step
      obtain ⟨row, get, running, -⟩ := h.tick _ tick
      exact movesOn_of_amend rfl get (by rw [running]; rfl)
    · cases step
  | commitMark =>
    simp only [worker] at step
    split at step
    · rename_i job mark tick
      cases step
      obtain ⟨-, row, get, running⟩ := h.tick _ tick
      apply movesOn_of_amend rfl get
      rw [running]
      cases mark <;> rfl
    · cases step
  | commitCancel =>
    simp only [worker] at step
    simp only [Unraced] at calm
    split at step
    · rename_i writing
      cases step
      rw [writing] at calm
      obtain ⟨row, get, queued⟩ := calm.row
      exact movesOn_of_amend rfl get (by rw [queued]; rfl)
    · cases step
  | harness outcome =>
    simp only [worker] at step
    split at step
    · cases outcome with
      | returned =>
        cases step
        exact movesOn_of_jobs rfl
      | cancelled =>
        dsimp only at step
        split at step
        · cases step
          exact movesOn_of_jobs rfl
        · cases step
      | raised =>
        cases step
        exact movesOn_of_jobs rfl
    · cases step
  | editStrategies | restart =>
    cases step
    exact movesOn_of_jobs rfl
  | publishCompleted sent | publishMark sent | publishCancel _ sent =>
    simp only [worker] at step
    split at step
    · cases step
      cases sent <;> exact movesOn_of_jobs rfl
    · cases step
  | readOrphans | publishStarted | storeResult | readCompleted | faultCancel =>
    simp only [worker] at step
    split at step
    · cases step
      exact movesOn_of_jobs rfl
    · cases step
  | dequeue | readJob | readStrategy | readMarked =>
    simp only [worker] at step
    split at step
    · split at step
      · cases step
        exact movesOn_of_jobs rfl
      · cases step <;> exact movesOn_of_jobs rfl
    · cases step
  | fault =>
    simp only [worker] at step
    split at step
    · cases step
      exact movesOn_of_jobs rfl
    · cases step
      exact movesOn_of_jobs rfl
    · cases step
  | requestCancel =>
    simp only [worker] at step
    split at step
    · split at step
      · cases step
        exact movesOn_of_jobs rfl
      · split at step <;>
        · cases step
          exact movesOn_of_jobs rfl
    · cases step

end

lemma inv_start : Inv code ({} : Worker κ β γ μ) :=
  ⟨fun _ _ get => (by cases get), fun _ mem => (by cases mem), fun _ mem => (by cases mem), fun _ eq => (by cases eq),
    fun _ _ eq => (by cases eq), fun _ _ _ eq => (by cases eq), rfl⟩

/-- Whatever the interleaving, as long as what read a QUEUED row commits while it still is: in every state the jobs
are as they should be, and every step moves them on as `BacktestJobStatus` says. -/
theorem backtest_jobs_sound (code : Code κ β γ) (ls : List (Label κ μ)) (s : Worker κ β γ μ)
    (run : (worker code).run {} ls = some s) (calm : (worker code).Meets Unraced {} ls) :
    Lifecycle code s ∧ ∀ l t, Unraced s l → (worker code).step s l = some t → s.MovesOn t := by
  have inv : Inv code s := Machine.run_invariant (fun inv calm step => inv.step calm step) inv_start calm run
  exact ⟨inv.lifecycle, fun l t calm step => inv.movesOn calm step⟩

instance (s : Worker κ β γ μ) (job : Nat) : Decidable (s.Queued job) := inferInstanceAs (Decidable (_ = true))

instance (s : Worker κ β γ μ) : ∀ tick, Decidable (s.TakesQueued tick)
  | some (.taken job) => inferInstanceAs (Decidable (s.Queued job))
  | some (.starting _) | some (.opening _) | some (.opened _ _) | some (.running _ _ _) | some (.storing _ _ _ _)
  | some (.stored _ _) | some (.completing _ _) | some (.completed _ _) | some (.marking _ _) | some (.marked _ _)
  | some (.telling _ _) | none => isTrue trivial

instance (s : Worker κ β γ μ) : ∀ cancel, Decidable (s.CancelsQueued cancel)
  | some (.writing job) => inferInstanceAs (Decidable (s.Queued job))
  | some (.telling _) | none => isTrue trivial

instance (s : Worker κ β γ μ) : ∀ l : Label κ μ, Decidable (Unraced s l)
  | .markRunning => inferInstanceAs (Decidable (s.TakesQueued s.tick))
  | .commitCancel task => inferInstanceAs (Decidable (s.CancelsQueued (s.cancels task)))
  | .submit _ _ _ _ | .editStrategies _ | .restart | .readOrphans | .failOrphans | .dequeue _ | .publishStarted
  | .readJob | .readStrategy | .harness _ | .storeResult | .readCompleted | .complete | .publishCompleted _
  | .readMarked | .commitMark | .publishMark _ | .fault | .requestCancel _ _ | .publishCancel _ _ | .faultCancel _ =>
    isTrue trivial

def plainCode : Code Unit Unit Unit := ⟨fun _ => .ok (), fun _ => .ok (), fun _ => some ["SPY"]⟩

def submitted : List (Label Unit Unit) :=
  [.editStrategies (fun _ => some ⟨some "spy.py", ["SPY"]⟩), .readOrphans, .failOrphans, .submit 0 () "default" 0]

def ranThrough : List (Label Unit Unit) :=
  [.publishStarted, .readJob, .readStrategy, .harness (.returned ()), .storeResult, .readCompleted, .complete,
    .publishCompleted true]

/-- The theorem, at a job that is run. -/
theorem backtest_jobs_sound_ran : ∃ s : Worker Unit Unit Unit Unit,
    (s.jobs.map fun row => (row.status, row.resultId)) = [(.completed, some 0)] ∧ Lifecycle plainCode s ∧
      ∀ l t, Unraced s l → (worker plainCode).step s l = some t → s.MovesOn t := by
  obtain ⟨s, run⟩ := isSome_iff_exists.1
    (show ((worker plainCode).run ({} : Worker Unit Unit Unit Unit)
      (submitted ++ [.dequeue 0, .markRunning] ++ ranThrough)).isSome = true by decide +kernel)
  exact ⟨s, Machine.observe (f := fun s : Worker Unit Unit Unit Unit => s.jobs.map fun row =>
    (row.status, row.resultId))
    run (by decide +kernel), backtest_jobs_sound plainCode _ s run (by decide +kernel)⟩

/-- A cancellation reads QUEUED, the dequeue commits RUNNING, the cancellation commits, and the job runs and ends
COMPLETED: it was reported as cancelled before its start, and has two terminal events. -/
theorem not_backtest_jobs_sound :
    ¬ ∀ (ls : List (Label Unit Unit)) (s : Worker Unit Unit Unit Unit),
      (worker plainCode).run {} ls = some s → Lifecycle plainCode s := by
  intro all
  obtain ⟨s, run⟩ := isSome_iff_exists.1
    (show ((worker plainCode).run ({} : Worker Unit Unit Unit Unit)
      (submitted ++ [.requestCancel 0 0, .dequeue 0, .markRunning, .commitCancel 0, .publishCancel 0 true] ++
        ranThrough)).isSome = true by decide +kernel)
  have two : (s.events.filter fun e => e.job = 0).length = 2 :=
    Machine.observe (f := fun s : Worker Unit Unit Unit Unit => (s.events.filter fun e => e.job = 0).length) run
      (by decide +kernel)
  have once := (all _ s run).once 0
  rw [two] at once
  exact absurd once (by decide)

end Workbench.Services
