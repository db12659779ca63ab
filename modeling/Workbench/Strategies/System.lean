import Workbench.Lib.Machine
import Workbench.Strategies.Engine

/-!
# The strategy system

One process of `app/strategies/engine.py` with everything that reads or writes the status of a
strategy: any number of `register`, `unregister`, `reload`, shutdown and boot-resume calls, the five
dispatch paths and `on_fill`, the calls of `app/services/activation.py`, the trips and resets of the
circuit breaker, and operational holds. Every label of `engine` is what happens between two awaits of
one of them: a call arrives at a worker, or a worker goes on (`go`) with what the outside world
answers (`Input`). A run is therefore an interleaving at await points, with a restart anywhere.

What a coroutine remembers from one await to the next is its `Worker` constructor. Rows are loaded
once by a session and kept (`expire_on_commit=False`): a commit writes what was computed from the
loaded row, and only the columns that differ from it (`writeStatus`).

`log` is the record of what happened, newest first; no step reads it.
-/

set_option linter.dupNamespace false

namespace Workbench.Strategies
open Workbench.Lib List Function Option
variable {s s' : State}

/-- The paths into a strategy's hooks. -/
inductive Path where
  | barTick
  | overlayTick
  | eventBar
  | eventFallback
  | signal
  | fill
  deriving DecidableEq, Repr

/-- The paths that read the persisted status and the market session. -/
def Path.gated : Path → Bool
  | .barTick | .overlayTick | .eventBar => true
  | _ => false

/-- The paths that end in `on_bar`. -/
def Path.onBar : Path → Bool
  | .barTick | .eventBar | .eventFallback => true
  | _ => false

/-- Who wrote a status. -/
inductive Writer where
  | register (w : Nat)
  | unregister
  | exception
  | initiate
  | cancel
  | complete
  | deactivate
  | breaker
  deriving DecidableEq, Repr

/-- What is recorded of a run of the system. -/
inductive Event where
  | triggered (w : Nat)
  | statusRead (w strategyId : Nat) (status : Option StrategyStatus)
  | sessionRead (w strategyId : Nat) (allowed : Bool)
  | entered (w : Nat) (path : Path) (running : RunningStrategy) (mode : Option AccountMode)
      (status : Option StrategyStatus)
  | wrote (strategyId : Nat) (status : StrategyStatus) (writer : Writer) (time : Instant)
  | tripped (accountId : Nat) (bound : List Nat)
  | reset (accountId : Nat)
  | called (w strategyId : Nat)
  | opened (strategyId : Nat) (held : Bool)
  | started (strategyId : Nat) (held : Bool)
  | promoted (strategyId : Nat) (held : Bool)
  | put (strategyId : Nat) (overwrote : Bool)
  | registered (strategyId : Nat) (status : Option StrategyStatus)
  | reloaded (strategyId : Nat) (began : StrategyStatus) (ok : Bool) (status : Option StrategyStatus)
      (mode : Option AccountMode)
  | restarted (began : List StrategyStatus) (refused : List Nat)
      (settled : List (StrategyStatus × Option AccountMode))
  deriving DecidableEq, Repr

/-- What an engine call is part of: a request of its own, the two calls of a reload, one of the calls
    of `shutdown`, one of the calls of `resume_strategies_on_boot`. -/
inductive Caller where
  | request
  | unload (began : StrategyStatus)
  | reload (began : StrategyStatus)
  | shutdown (rest : List Nat) (began : List StrategyStatus)
  | resume (rest : List Nat) (began : Option (List StrategyStatus)) (refused : List Nat)
  deriving DecidableEq, Repr

/-- The awaits of `register`. -/
inductive Registering where
  | checking (intent : RegistrationIntent)
  | loading (intent : RegistrationIntent)
  | starting (intent : RegistrationIntent) (row : Strategy) (accountId : Nat)
  | rechecking (row : Strategy) (accountId : Nat) (cls : StrategyClass)
  | opening (row : Strategy) (accountId : Nat) (cls : StrategyClass)
  | committing (row : Strategy) (running : RunningStrategy)
  | putting (running : RunningStrategy)
  | returning
  | marking (loaded : StrategyStatus)
  deriving DecidableEq, Repr

/-- The awaits of a dispatch. -/
inductive Dispatching where
  | next
  | status (r : RunningStrategy)
  | session (r : RunningStrategy)
  | claim (r : RunningStrategy)
  | fetch (r : RunningStrategy) (symbols : List String)
  | hook (r : RunningStrategy) (symbols : List String)
  deriving DecidableEq, Repr

/-- The awaits of the activation service; `row` is the row as it was loaded. -/
inductive Activating where
  | initiating (row : Strategy)
  | stamped (row : Strategy) (stamp : Instant)
  | initiated
  | canceling (row : Strategy)
  | demoting (row : Strategy)
  | completing (row : Strategy)
  | promoting (row : Strategy)
  | promoted
  | deactivating (row : Strategy)
  deriving DecidableEq, Repr

/-- Where a worker stands. -/
inductive Worker where
  | idle
  | registering (c : Caller) (strategyId : Nat) (phase : Registering)
  | unloaded (strategyId : Nat) (began : StrategyStatus)
  | stopping (c : Caller) (running : RunningStrategy)
  | closing (c : Caller) (running : RunningStrategy) (loaded : Option StrategyStatus) (isOpen : Bool)
  | dispatching (path : Path) (pending : List RunningStrategy) (phase : Dispatching)
  | failing (path : Path) (pending : List RunningStrategy) (strategyId : Nat)
  | erroring (path : Path) (pending : List RunningStrategy) (strategyId : Nat)
      (loaded : StrategyStatus)
  | evicting (path : Path) (pending : List RunningStrategy) (strategyId : Nat)
  | activating (strategyId : Nat) (phase : Activating)
  | tripping (accountId : Nat) (halts : List Nat)
  | resetting (accountId : Nat)
  | shuttingDown (rest : List Nat) (began : List StrategyStatus)
  | stopped (began : List StrategyStatus)
  | booting (began : Option (List StrategyStatus))
  | resuming (rest : List Nat) (began : Option (List StrategyStatus)) (refused : List Nat)
  deriving DecidableEq, Repr

/-- The database, the process, and the record. -/
structure State where
  strategies : List Strategy
  accounts : Dict Nat Account
  runs : List StrategyRun := []
  holds : Nat → Bool := fun _ => false
  running : Dict Nat RunningStrategy := .empty
  workers : Nat → Worker := fun _ => .idle
  clock : Instant := 0
  log : List Event := []

namespace State

def status (s : State) (strategyId : Nat) : Option StrategyStatus :=
  s.strategies[strategyId]?.map (·.status)

/-- The mode of the account the registered instance is bound to. -/
def binding (s : State) (strategyId : Nat) : Option AccountMode :=
  (s.running.get strategyId).bind (boundMode s.accounts)

@[simps] def move (s : State) (w : Nat) (worker : Worker) : State :=
  { s with workers := Function.update s.workers w worker }

@[simps] def note (s : State) (e : Event) : State := { s with log := e :: s.log }

/-- Commit a status computed from a loaded row. -/
@[simps] def write (s : State) (strategyId : Nat) (loaded new : StrategyStatus) (writer : Writer) : State :=
  { s with
    strategies := writeStatus s.strategies strategyId loaded new
    log := (if new = loaded then [] else [.wrote strategyId new writer s.clock]) ++ s.log }

/-- Commit `live_activation_initiated_at`. -/
@[simps] def stamp (s : State) (strategyId : Nat) (time : Option Instant) : State :=
  { s with strategies :=
      Table.amend strategyId (fun row => { row with liveActivationInitiatedAt := time }) s.strategies }

@[simps] def openRun (s : State) (strategyId : Nat) (status : StrategyStatus) : State :=
  { s with runs := s.runs ++ [⟨strategyId, status, none⟩] }

@[simps] def close (s : State) (runId : Nat) (status : StrategyStatus) : State :=
  { s with runs := closeRun s.runs runId status s.clock }

/-- Store or drop an entry of `_running`. -/
@[simps] def setRunning (s : State) (running : Dict Nat RunningStrategy) : State := { s with running }

/-! ## Engine calls -/

/-- Go on after an engine call on `strategyId`, which returned (`ok`) or raised. -/
def returnTo (s : State) (w strategyId : Nat) (ok : Bool) : Caller → State
  | .request => s.move w .idle
  | .unload began => s.move w (.unloaded strategyId began)
  | .reload began =>
    (s.note (.reloaded strategyId began ok (s.status strategyId) (s.binding strategyId))).move w .idle
  | .shutdown rest began => s.move w (.shuttingDown rest began)
  | .resume rest began refused =>
    s.move w (.resuming rest began (if ok then refused else strategyId :: refused))

/-- A normal return of `register`. -/
def returned (s : State) (w strategyId : Nat) (c : Caller) : State :=
  (s.note (.registered strategyId (s.status strategyId))).returnTo w strategyId true c

/-- Python `register`, up to its first await. -/
def beginRegister (s : State) (w : Nat) (c : Caller) (strategyId : Nat) (intent : RegistrationIntent) :
    State :=
  match s.running.get strategyId with
  | some _ => s.returned w strategyId c
  | none => (s.note (.called w strategyId)).move w (.registering c strategyId (.checking intent))

/-- Python `unregister`, up to its first await. -/
def beginUnregister (s : State) (w : Nat) (c : Caller) (strategyId : Nat) : State :=
  match s.running.get strategyId with
  | none => s.returnTo w strategyId true c
  | some r => (s.setRunning (s.running.erase strategyId)).move w (.stopping c r)

end State

/-- What the outside world answers a worker: whether a database read succeeded, the factor-readiness
    verdict, the market session, whether the scheduled slot was free, whether there is a bar, whether a
    hook raised, and the strategy class (`none` when the loader, the capability check, the constructor
    or `on_init` raises). -/
structure Input where
  readable : Bool := true
  verdict : Bool := true
  session : MarketSessionType := .regular
  claimed : Bool := true
  bar : Bool := true
  raised : Bool := false
  cls : Option StrategyClass := some {}

/-- One await of `register`. -/
def goRegister (s : State) (w : Nat) (c : Caller) (sid : Nat) (inp : Input) : Registering → State
  | .checking intent =>
    -- `_block_if_on_hold`: a hold that cannot be read blocks too
    if !inp.readable || s.holds sid then s.returnTo w sid false c
    else s.move w (.registering c sid (.loading intent))
  | .loading intent =>
    match s.strategies[sid]? with
    | none => s.returnTo w sid false c
    | some row =>
      if row.type ≠ .python then s.returnTo w sid false c
      else match resolveAccount s.accounts row.userId (accountMode row.status) with
        | none => s.move w (.registering c sid (.marking row.status))
        | some accountId => s.move w (.registering c sid (.starting intent row accountId))
  | .starting intent row accountId =>
    match inp.cls with
    | none => s.move w (.registering c sid (.marking row.status))
    | some cls =>
      if intent = .activate && cls.requiresFactorReadiness && !inp.verdict then
        s.returnTo w sid false c
      else s.move w (.registering c sid (.rechecking row accountId cls))
  | .rechecking row accountId cls =>
    if !inp.readable || s.holds sid then s.returnTo w sid false c
    else s.move w (.registering c sid (.opening row accountId cls))
  | .opening row accountId cls =>
    ((s.openRun sid (runStatus row)).note (.opened sid (s.holds sid))).move w
      (.registering c sid (.committing row (newRunning sid accountId s.runs.length row cls)))
  | .committing row running =>
    ((s.write sid row.status (runStatus row) (.register w)).note (.started sid (s.holds sid))).move w
      (.registering c sid (.putting running))
  | .putting running =>
    ((s.setRunning (s.running.set sid running)).note (.put sid (s.running.contains sid))).move w
      (.registering c sid .returning)
  | .returning => s.returned w sid c
  | .marking loaded => (s.write sid loaded .error (.register w)).returnTo w sid false c

def enter (s : State) (w : Nat) (path : Path) (pending : List RunningStrategy) (r : RunningStrategy)
    (rest : List String) : State :=
  (s.note (.entered w path r (boundMode s.accounts r) (s.status r.strategyId))).move w
    (.dispatching path pending (.hook r rest))

@[grind] def goDispatch (s : State) (w : Nat) (path : Path) (pending : List RunningStrategy) (inp : Input) :
    Dispatching → State
  | .next =>
    match pending with
    | [] => s.move w .idle
    | r :: rest =>
      if path = .fill then enter s w path rest r []
      else if !factorReadinessOk r inp.verdict then s.move w (.dispatching path rest .next)
      else if path.gated then s.move w (.dispatching path rest (.status r))
      else if path = .eventFallback then s.move w (.dispatching path rest (.fetch r r.symbols))
      else enter s w path rest r []
  | .status r =>
    -- `_is_dispatchable_now`
    let status := if inp.readable then s.status r.strategyId else none
    (s.note (.statusRead w r.strategyId status)).move w (.dispatching path pending
      (if (status.map (·.runnable)).getD false then .session r else .next))
  | .session r =>
    let s' := s.note (.sessionRead w r.strategyId (dispatchAllowed r inp.session))
    if !dispatchAllowed r inp.session then s'.move w (.dispatching path pending .next)
    else if path = .barTick then s'.move w (.dispatching path pending (.claim r))
    else if path = .eventBar && !inp.bar then s'.move w (.dispatching path pending .next)
    else enter s' w path pending r []
  | .claim r =>
    s.move w (.dispatching path pending (if inp.claimed then .fetch r r.symbols else .next))
  | .fetch r symbols =>
    match symbols with
    | [] => s.move w (.dispatching path pending .next)
    | _ :: rest =>
      if inp.bar then enter s w path pending r rest
      else s.move w (.dispatching path pending (.fetch r rest))
  | .hook r symbols =>
    if inp.raised then s.move w (.failing path pending r.strategyId)
    else s.move w (.dispatching path pending (.fetch r symbols))

def goActivate (s : State) (w sid : Nat) (inp : Input) : Activating → State
  | .initiating row => s.move w (.activating sid (.stamped row s.clock))
  | .stamped row time =>
    ((s.stamp sid (some time)).write sid row.status .pendingLive .initiate).move w
      (.activating sid .initiated)
  -- the endpoint unregisters the paper instance
  | .initiated => s.beginUnregister w .request sid
  | .canceling row => ((s.stamp sid none).write sid row.status .idle .cancel).move w .idle
  | .demoting row => (s.write sid row.status .idle .complete).move w .idle
  | .completing row =>
    if !inp.readable || s.holds sid then s.move w .idle
    else match inp.cls with
      | none => s.move w .idle
      | some cls =>
        if cls.requiresFactorReadiness && !inp.verdict then s.move w .idle
        else s.move w (.activating sid (.promoting row))
  | .promoting row =>
    ((s.write sid row.status .live .complete).note (.promoted sid (s.holds sid))).move w
      (.activating sid .promoted)
  -- the job registers the strategy it completed
  | .promoted => s.beginRegister w .request sid .activate
  | .deactivating row => (s.write sid row.status .idle .deactivate).move w .idle

/-- What the registered instances bound to an account are. -/
def boundTo (s : State) (accountId : Nat) : List Nat :=
  (s.running.values.filter (·.accountId = accountId)).map (·.strategyId)

@[simps] def commitTrip (s : State) (accountId : Nat) (halts : List Nat) : State :=
  { s with
    accounts := s.accounts.mapMaybe fun k account =>
      some (if k = accountId then { account with circuitBreakerTrippedAt := some s.clock } else account)
    strategies := haltAll halts s.strategies
    log := .tripped accountId (boundTo s accountId) ::
      (halts.map (Event.wrote · .halted .breaker s.clock) ++ s.log) }

@[simps] def commitReset (s : State) (accountId : Nat) : State :=
  { s with
    accounts := s.accounts.mapMaybe fun k account =>
      some (if k = accountId then { account with circuitBreakerTrippedAt := none } else account)
    log := .reset accountId :: s.log }

def runnableIds (strategies : List Strategy) : List Nat :=
  (strategies.zipIdx.filter (·.1.status.runnable)).map (·.2)

/-- Every strategy's status and the mode its registered instance is bound to. -/
def settled (s : State) : List (StrategyStatus × Option AccountMode) :=
  s.strategies.zipIdx.map fun e => (e.1.status, s.binding e.2)

def go (s : State) (w : Nat) (inp : Input) : Worker → Option State
  | .idle => none
  | .registering c sid phase => some (goRegister s w c sid inp phase)
  | .unloaded sid began => some (s.beginRegister w (.reload began) sid .recover)
  | .stopping c r => some (s.move w (.closing c r (s.status r.strategyId)
      ((s.runs[r.runId]?.map (·.endedAt.isNone)).getD false)))
  | .closing c r loaded isOpen =>
    let s := if isOpen then s.close r.runId .idle else s
    let s := match loaded with
      | some status => if status.runnable then s.write r.strategyId status .idle .unregister else s
      | none => s
    some (s.returnTo w r.strategyId true c)
  | .dispatching path pending phase => some (goDispatch s w path pending inp phase)
  | .failing path pending sid =>
    match s.status sid with
    | none => some (s.move w (.evicting path pending sid))
    | some status => some (s.move w (.erroring path pending sid status))
  | .erroring path pending sid loaded =>
    let s := s.write sid loaded .error .exception
    let s := match latestOpenRun s.runs sid with
      | some runId => s.close runId .error
      | none => s
    some (s.move w (.evicting path pending sid))
  | .evicting path pending sid =>
    some ((s.setRunning (s.running.erase sid)).move w (.dispatching path pending .next))
  | .activating sid phase => some (goActivate s w sid inp phase)
  | .tripping accountId halts => some ((commitTrip s accountId halts).move w .idle)
  | .resetting accountId => some ((commitReset s accountId).move w .idle)
  | .shuttingDown rest began =>
    match rest with
    | [] => some (s.move w (.stopped began))
    | sid :: rest => some (s.beginUnregister w (.shutdown rest began) sid)
  | .stopped _ => none
  | .booting began => some (s.move w (.resuming (runnableIds s.strategies) began []))
  | .resuming rest began refused =>
    match rest with
    | [] => some ((match began with
        | some began => s.note (.restarted began refused (settled s))
        | none => s).move w .idle)
    | sid :: rest => some (s.beginRegister w (.resume rest began refused) sid .recover)

/-- What can happen. -/
inductive Label where
  | register (w strategyId : Nat) (intent : RegistrationIntent)
  | unregister (w strategyId : Nat)
  | reload (w strategyId : Nat)
  | shutdown (w : Nat)
  | restart (w : Nat)
  | barTick (w strategyId : Nat)
  | overlayTick (w strategyId : Nat)
  | eventBar (w : Nat) (symbol : String)
  | eventFallback (w : Nat)
  | signal (w strategyId : Nat)
  | fill (w strategyId : Nat)
  | initiate (w strategyId userId : Nat) (verified : Bool)
  | cancel (w strategyId userId : Nat)
  | complete (w strategyId : Nat)
  | deactivate (w strategyId userId : Nat)
  | trip (w accountId : Nat)
  | reset (w accountId userId : Nat) (text : String)
  | placeHold (strategyId : Nat)
  | clearHold (strategyId : Nat)
  | go (w : Nat) (inp : Input)
  | elapse (duration : Nat)

/-- A dispatch begins: the instances it concerns are read from `_running` here. -/
def beginDispatch (s : State) (w : Nat) (path : Path) (targets : List RunningStrategy) : State :=
  (s.note (.triggered w)).move w (.dispatching path targets .next)

def targetOf (s : State) (strategyId : Nat) : List RunningStrategy :=
  (s.running.get strategyId).toList

/-- Python `ActivationService.check_prerequisites`, as far as it reads the modelled tables. -/
def prerequisites (s : State) (row : Strategy) : Bool :=
  row.type = .python &&
    match resolveAccount s.accounts row.userId .live with
    | none => false
    | some accountId => ((s.accounts.get accountId).map (·.circuitBreakerTrippedAt.isNone)).getD false

/-- What an arriving call makes of the worker it arrives at. -/
def arrive (s : State) : Label → Option State
  | .register w sid intent => some (s.beginRegister w .request sid intent)
  | .unregister w sid => some (s.beginUnregister w .request sid)
  | .reload w sid =>
    match s.strategies[sid]? with
    | none => some s
    | some row =>
      if row.type ≠ .python || !row.status.active then some s
      else some (s.beginUnregister w (.unload row.status) sid)
  | .shutdown w => some (s.move w (.shuttingDown (s.running.entries.map (·.1))
      (s.strategies.map (·.status))))
  | .barTick w sid => some (beginDispatch s w .barTick (targetOf s sid))
  | .overlayTick w sid => some (beginDispatch s w .overlayTick (targetOf s sid))
  | .eventBar w symbol => some (beginDispatch s w .eventBar (eventTargets s.running symbol))
  | .eventFallback w => some (beginDispatch s w .eventFallback (fallbackTargets s.running))
  | .signal w sid => some (beginDispatch s w .signal (targetOf s sid))
  | .fill w sid => some (beginDispatch s w .fill (targetOf s sid))
  | .initiate w sid userId verified =>
    match s.strategies[sid]? with
    | none => some s
    | some row =>
      if row.userId = userId && (row.status = .idle || row.status = .paper) && verified &&
        prerequisites s row then some (s.move w (.activating sid (.initiating row)))
      else some s
  | .cancel w sid userId =>
    match s.strategies[sid]? with
    | none => some s
    | some row =>
      if row.userId = userId && row.status = .pendingLive then
        some (s.move w (.activating sid (.canceling row)))
      else some s
  | .complete w sid =>
    match s.strategies[sid]? with
    | none => some s
    | some row =>
      if row.status ≠ .pendingLive then some s
      else match row.liveActivationInitiatedAt with
        | none => some (s.move w (.activating sid (.demoting row)))
        | some initiatedAt =>
          if s.clock < initiatedAt + activationCooldown then some s
          else some (s.move w (.activating sid (.completing row)))
  | .deactivate w sid userId =>
    match s.strategies[sid]? with
    | none => some s
    | some row =>
      if row.userId = userId && (row.status = .live || row.status = .halted) then
        some (s.move w (.activating sid (.deactivating row)))
      else some s
  | .trip w accountId =>
    match s.accounts.get accountId with
    | none => some s
    | some account =>
      if account.circuitBreakerTrippedAt.isSome then some s
      else some (s.move w (.tripping accountId (haltedBy s.strategies account)))
  | .reset w accountId userId text =>
    match s.accounts.get accountId with
    | none => some s
    | some account =>
      if account.userId = userId && account.label = some text &&
        account.circuitBreakerTrippedAt.isSome then some (s.move w (.resetting accountId))
      else some s
  | _ => none

def Label.target : Label → Option Nat
  | .register w _ _ | .unregister w _ | .reload w _ | .shutdown w | .barTick w _ | .overlayTick w _
  | .eventBar w _ | .eventFallback w | .signal w _ | .fill w _ | .initiate w _ _ _ | .cancel w _ _
  | .complete w _ | .deactivate w _ _ | .trip w _ | .reset w _ _ _ => some w
  | _ => none

def step (s : State) (l : Label) : Option State :=
  match l with
  | .placeHold sid => some { s with holds := Function.update s.holds sid true }
  | .clearHold sid => some { s with holds := Function.update s.holds sid false }
  | .elapse duration => some { s with clock := s.clock + duration }
  | .go w inp => go s w inp (s.workers w)
  | .restart w =>
    -- the process ends: its map and its coroutines are gone, the next one resumes
    some { s with
      running := .empty
      workers := Function.update (fun _ => .idle) w (.booting
        (match s.workers w with | .stopped began => some began | _ => none)) }
  | l =>
    match l.target with
    | none => none
    | some w => if s.workers w = .idle then arrive s l else none

def engine : Machine State Label := ⟨step⟩

/-- Before the first call, with every strategy as it is created. -/
def start (strategies : List Strategy) (accounts : Dict Nat Account) (holds : Nat → Bool)
    (clock : Instant) : State where
  strategies := strategies.map fun row => { row with
    status := if row.status = .paperVariant then .paperVariant else .idle
    liveActivationInitiatedAt := none }
  accounts := accounts
  holds := holds
  clock := clock

/-! ## What a step does

The worker that moves is the only one that changes, and what it records is its own. Every branch of
the step function is a composition of the writes above, so this is shown of each of them. -/

@[grind] def Event.actor : Event → Option Nat
  | .triggered w | .statusRead w _ _ | .sessionRead w _ _ | .entered w _ _ _ _ | .called w _ => some w
  | _ => none

def Event.source : Event → Worker → Bool
  | .triggered _, worker => worker = .idle
  | .statusRead .., .dispatching .. | .sessionRead .., .dispatching .. | .entered .., .dispatching .. => true
  | .wrote _ _ (.register _) _, .registering .. | .wrote _ _ .unregister _, .closing .. => true
  | .wrote _ _ .exception _, .erroring .. | .wrote _ _ .breaker _, .tripping .. => true
  | .wrote _ _ .initiate _, .activating .. | .wrote _ _ .cancel _, .activating .. => true
  | .wrote _ _ .complete _, .activating .. | .wrote _ _ .deactivate _, .activating .. => true
  | .tripped .., .tripping .. | .reset .., .resetting .. => true
  | .opened .., .registering .. | .started .., .registering .. | .put .., .registering .. => true
  | .promoted .., .activating .. => true
  | .called .., _ | .registered .., _ | .reloaded .., _ | .restarted .., _ => true
  | _, _ => false

/-- An event that worker `w`, standing at `worker`, may record. -/
def Event.Of (w : Nat) (worker : Worker) (e : Event) : Prop :=
  (∀ w', e.actor = some w' → w' = w) ∧ e.source worker = true

/-- What a step of worker `w`, standing at `worker`, leaves alone. -/
structure Frame (w : Nat) (worker : Worker) (s s' : State) : Prop where
  workers : ∀ w', w' ≠ w → s'.workers w' = s.workers w'
  log : ∃ evs, s'.log = evs ++ s.log ∧ ∀ e ∈ evs, e.Of w worker
  holds : s'.holds = s.holds
  clock : s'.clock = s.clock
  modes : ∀ r, boundMode s'.accounts r = boundMode s.accounts r
  length : s'.strategies.length = s.strategies.length

namespace Frame
variable {c : Caller} {w sid : Nat} {s t : State} {worker worker' : Worker} {e : Event}

lemma refl : Frame w worker s s :=
  ⟨fun _ _ => rfl, ⟨[], rfl, by simp⟩, rfl, rfl, fun _ => rfl, rfl⟩

lemma move (h : Frame w worker s t) : Frame w worker s (t.move w worker') := by
  refine { h with workers := ?_ }
  intro w' ne
  rw [State.move_workers, update_of_ne ne]
  exact h.workers w' ne

lemma note (h : Frame w worker s t) (own : e.Of w worker) : Frame w worker s (t.note e) := by
  obtain ⟨evs, eq, all⟩ := h.log
  refine { h with log := ⟨e :: evs, by simp [eq], ?_⟩ }
  intro e' mem
  rcases mem_cons.1 mem with rfl | mem
  · exact own
  · exact all e' mem

lemma write {loaded new : StrategyStatus} {writer : Writer} (h : Frame w worker s t)
    (own : (Event.wrote sid new writer t.clock).source worker = true) :
    Frame w worker s (t.write sid loaded new writer) := by
  obtain ⟨evs, eq, all⟩ := h.log
  refine { h with log := ?_, length := by rw [State.write_strategies, length_writeStatus]; exact h.length }
  rw [State.write_log]
  split
  · exact ⟨evs, eq, all⟩
  · refine ⟨_ :: evs, by rw [eq]; rfl, ?_⟩
    intro e' mem
    rcases mem_cons.1 mem with rfl | mem
    · exact ⟨by simp [Event.actor], own⟩
    · exact all e' mem

lemma stamp {time : Option Instant} (h : Frame w worker s t) : Frame w worker s (t.stamp sid time) :=
  { h with length := by rw [State.stamp_strategies, Table.length_amend]; exact h.length }

lemma openRun {status : StrategyStatus} (h : Frame w worker s t) : Frame w worker s (t.openRun sid status) :=
  { h with }

lemma close {runId : Nat} {status : StrategyStatus} (h : Frame w worker s t) :
    Frame w worker s (t.close runId status) :=
  { h with }

lemma setRunning {running : Dict Nat RunningStrategy} (h : Frame w worker s t) :
    Frame w worker s (t.setRunning running) :=
  { h with }

lemma boundMode_breaker {accounts : Dict Nat Account} {a : Nat} {time : Option Instant} {r : RunningStrategy} :
    boundMode (accounts.mapMaybe fun k account =>
      some (if k = a then { account with circuitBreakerTrippedAt := time } else account)) r =
      boundMode accounts r := by
  simp only [boundMode, Dict.get_mapMaybe]
  cases accounts.get r.accountId with
  | none => rfl
  | some account =>
    simp only [bind_some, map_some]
    split <;> rfl

lemma trip {a : Nat} {halts : List Nat} : Frame w (.tripping a halts) s (commitTrip s a halts) := by
  refine ⟨fun _ _ => rfl, ⟨.tripped a (boundTo s a) :: halts.map (Event.wrote · .halted .breaker s.clock),
    rfl, ?_⟩, rfl, rfl, fun r => boundMode_breaker, length_haltAll⟩
  intro e mem
  rcases mem_cons.1 mem with rfl | mem
  · exact ⟨by simp [Event.actor], rfl⟩
  · obtain ⟨_, -, rfl⟩ := mem_map.1 mem
    exact ⟨by simp [Event.actor], rfl⟩

lemma reset {a : Nat} : Frame w (.resetting a) s (commitReset s a) := by
  refine ⟨fun _ _ => rfl, ⟨[.reset a], rfl, ?_⟩, rfl, rfl, fun r => boundMode_breaker, rfl⟩
  intro e mem
  rcases mem_singleton.1 mem with rfl
  exact ⟨by simp [Event.actor], rfl⟩

lemma returnTo {ok : Bool} (h : Frame w worker s t) : Frame w worker s (t.returnTo w sid ok c) := by
  cases c with
  | reload began => exact (h.note ⟨by simp [Event.actor], rfl⟩).move
  | _ => exact h.move

lemma returned (h : Frame w worker s t) : Frame w worker s (t.returned w sid c) :=
  (h.note ⟨by simp [Event.actor], rfl⟩).returnTo

lemma beginRegister {intent : RegistrationIntent} (h : Frame w worker s t) :
    Frame w worker s (t.beginRegister w c sid intent) := by
  unfold State.beginRegister
  split
  · exact h.returned
  · exact (h.note ⟨by simp [Event.actor], rfl⟩).move

lemma beginUnregister (h : Frame w worker s t) : Frame w worker s (t.beginUnregister w c sid) := by
  unfold State.beginUnregister
  split
  · exact h.returnTo
  · exact h.setRunning.move

lemma goRegister {inp : Input} {phase : Registering} :
    Frame w (.registering c sid phase) s (goRegister s w c sid inp phase) := by
  cases phase with
  | checking | rechecking => simp only [Strategies.goRegister]; split <;> [exact refl.returnTo; exact refl.move]
  | loading =>
    simp only [Strategies.goRegister]
    split
    · exact refl.returnTo
    · split
      · exact refl.returnTo
      · split <;> exact refl.move
  | starting =>
    simp only [Strategies.goRegister]
    split
    · exact refl.move
    · split <;> [exact refl.returnTo; exact refl.move]
  | opening => exact (refl.openRun.note ⟨by simp [Event.actor], rfl⟩).move
  | committing => exact ((refl.write rfl).note ⟨by simp [Event.actor], rfl⟩).move
  | putting => exact (refl.setRunning.note ⟨by simp [Event.actor], rfl⟩).move
  | returning => exact refl.returned
  | marking => exact (refl.write rfl).returnTo

lemma enter {path : Path} {pending : List RunningStrategy} {phase : Dispatching} {r : RunningStrategy}
    {pending' : List RunningStrategy} {rest : List String} (h : Frame w (.dispatching path pending phase) s t) :
    Frame w (.dispatching path pending phase) s (enter t w path pending' r rest) :=
  (h.note ⟨by simp [Event.actor], rfl⟩).move

lemma goDispatch {path : Path} {pending : List RunningStrategy} {inp : Input} {phase : Dispatching} :
    Frame w (.dispatching path pending phase) s (goDispatch s w path pending inp phase) := by
  cases phase with
  | next =>
    simp only [Strategies.goDispatch]
    split
    · exact refl.move
    · repeat' split
      all_goals first | exact refl.move | exact refl.enter
  | status => exact (refl.note ⟨by simp [Event.actor], rfl⟩).move
  | session r =>
    have own {b : Bool} :
        (Event.sessionRead w r.strategyId b).Of w (.dispatching path pending (.session r)) :=
      ⟨by simp [Event.actor], rfl⟩
    simp only [Strategies.goDispatch]
    repeat' split
    all_goals first | exact (refl.note own).move | exact (refl.note own).enter
  | claim => exact refl.move
  | fetch r symbols =>
    cases symbols with
    | nil => exact refl.move
    | cons => simp only [Strategies.goDispatch]; split <;> [exact refl.enter; exact refl.move]
  | hook => simp only [Strategies.goDispatch]; split <;> exact refl.move

lemma goActivate {inp : Input} {phase : Activating} :
    Frame w (.activating sid phase) s (goActivate s w sid inp phase) := by
  cases phase with
  | initiating => exact refl.move
  | stamped | canceling => exact (refl.stamp.write rfl).move
  | initiated => exact refl.beginUnregister
  | demoting | deactivating => exact (refl.write rfl).move
  | completing =>
    simp only [Strategies.goActivate]
    repeat' split
    all_goals exact refl.move
  | promoting => exact ((refl.write rfl).note ⟨by simp [Event.actor], rfl⟩).move
  | promoted => exact refl.beginRegister

end Frame

lemma go_frame {w : Nat} {inp : Input} {worker : Worker} (st : go s w inp worker = some s') : Frame w worker s s' := by
  revert st
  cases worker with
  | idle | stopped => simp [go]
  | registering => simp only [go]; rintro ⟨⟩; exact .goRegister
  | unloaded => simp only [go]; rintro ⟨⟩; exact Frame.refl.beginRegister
  | stopping => simp only [go]; rintro ⟨⟩; exact Frame.refl.move
  | closing =>
    simp only [go]
    rintro ⟨⟩
    repeat' split
    all_goals first
      | exact (Frame.refl.close.write rfl).returnTo | exact Frame.refl.close.returnTo
      | exact (Frame.refl.write rfl).returnTo | exact Frame.refl.returnTo
  | dispatching => simp only [go]; rintro ⟨⟩; exact .goDispatch
  | failing => simp only [go]; split <;> rintro ⟨⟩ <;> exact Frame.refl.move
  | erroring =>
    simp only [go]
    rintro ⟨⟩
    split <;> [exact (Frame.refl.write rfl).close.move; exact (Frame.refl.write rfl).move]
  | evicting => simp only [go]; rintro ⟨⟩; exact Frame.refl.setRunning.move
  | activating => simp only [go]; rintro ⟨⟩; exact .goActivate
  | tripping => simp only [go]; rintro ⟨⟩; exact Frame.trip.move
  | resetting => simp only [go]; rintro ⟨⟩; exact Frame.reset.move
  | shuttingDown rest =>
    cases rest <;> simp only [go] <;> rintro ⟨⟩ <;> [exact Frame.refl.move; exact Frame.refl.beginUnregister]
  | booting => simp only [go]; rintro ⟨⟩; exact Frame.refl.move
  | resuming rest began =>
    cases rest with
    | nil =>
      simp only [go]
      rintro ⟨⟩
      split <;> [exact (Frame.refl.note ⟨by simp [Event.actor], rfl⟩).move; exact Frame.refl.move]
    | cons => simp only [go]; rintro ⟨⟩; exact Frame.refl.beginRegister

lemma arrive_frame {l : Label} {w : Nat} (target : l.target = some w)
    (st : arrive s l = some s') : Frame w .idle s s' := by
  have dispatch {path : Path} {targets : List RunningStrategy} :
      Frame w .idle s (beginDispatch s w path targets) :=
    (Frame.refl.note ⟨by simp [Event.actor], rfl⟩).move
  revert st
  cases l <;> simp only [Label.target, some.injEq, reduceCtorEq] at target <;> subst target <;>
    simp only [arrive]
  case register => rintro ⟨⟩; exact Frame.refl.beginRegister
  case unregister => rintro ⟨⟩; exact Frame.refl.beginUnregister
  case reload =>
    repeat' split
    all_goals rintro ⟨⟩
    all_goals first | exact Frame.refl | exact Frame.refl.beginUnregister
  case shutdown => rintro ⟨⟩; exact Frame.refl.move
  case barTick | overlayTick | eventBar | eventFallback | signal | fill => rintro ⟨⟩; exact dispatch
  all_goals
    repeat' split
    all_goals rintro ⟨⟩
    all_goals first | exact Frame.refl | exact Frame.refl.move

lemma step_cases {l : Label} (st : step s l = some s') :
    (∃ sid b, s' = { s with holds := Function.update s.holds sid b } ∧
      l = if b then .placeHold sid else .clearHold sid) ∨
    (∃ d, l = .elapse d ∧ s' = { s with clock := s.clock + d }) ∨
    (∃ w, l = .restart w ∧ s' = { s with
      running := .empty
      workers := Function.update (fun _ => .idle) w (.booting
        (match s.workers w with | .stopped began => some began | _ => none)) }) ∨
    (∃ w inp, l = .go w inp ∧ go s w inp (s.workers w) = some s') ∨
    (∃ w, l.target = some w ∧ s.workers w = .idle ∧ arrive s l = some s') := by
  cases l with
  | placeHold sid => cases st; exact .inl ⟨sid, true, rfl, rfl⟩
  | clearHold sid => cases st; exact .inl ⟨sid, false, rfl, rfl⟩
  | elapse d => cases st; exact .inr (.inl ⟨d, rfl, rfl⟩)
  | restart w => cases st; exact .inr (.inr (.inl ⟨w, rfl, rfl⟩))
  | go w inp => exact .inr (.inr (.inr (.inl ⟨w, inp, rfl, st⟩)))
  | _ =>
    refine .inr (.inr (.inr (.inr ⟨_, rfl, ?_⟩)))
    simp only [step, Label.target, ite_none_right_eq_some] at st
    exact st

lemma restart_workers {w : Nat} (st : step s (.restart w) = some s') (w' : Nat) :
    s'.workers w' = .idle ∨ ∃ began, s'.workers w' = .booting began := by
  cases st
  by_cases eq : w' = w
  · subst eq
    exact .inr ⟨_, by simp [update_self]; rfl⟩
  · exact .inl (by simp [update_of_ne eq])

def Label.worker : Label → Option Nat
  | .go w _ | .restart w => some w
  | l => l.target

/-- Only worker `0` has been used. -/
def Solo (s : State) : Prop := ∀ w ≠ 0, s.workers w = .idle

lemma solo_step {l : Label} (solo : Solo s) (own : ∀ w, l.worker = some w → w = 0)
    (st : step s l = some s') : Solo s' := by
  replace st := step_cases st
  rcases st with ⟨_, _, rfl, -⟩ | ⟨_, -, rfl⟩ | ⟨w, rfl, rfl⟩ | ⟨w, inp, rfl, st⟩ | ⟨w, target, -, st⟩
  · exact solo
  · exact solo
  · intro w' ne
    have zero := own w rfl
    subst zero
    show Function.update (fun _ => Worker.idle) 0 _ w' = _
    rw [update_of_ne ne]
  · intro w' ne
    rw [(go_frame st).workers w' (own w rfl ▸ ne)]
    exact solo w' ne
  · intro w' ne
    have worker : l.worker = some w := by
      cases l <;> first | exact target | cases target
    rw [(arrive_frame target st).workers w' (own w worker ▸ ne)]
    exact solo w' ne

/-! ## Statuses and dispatches -/

section Statuses
variable {s s' : State} {w sid i : Nat} {worker : Worker}
variable {c : Caller}

lemma status_write {loaded new : StrategyStatus} {writer : Writer} :
    (s.write sid loaded new writer).status i =
      if new ≠ loaded ∧ i = sid then (s.status i).map fun _ => new else s.status i := by
  unfold State.status
  rw [State.write_strategies, getElem?_writeStatus]
  split <;> simp [comp_def]

lemma status_trip {a : Nat} {halts : List Nat} :
    (commitTrip s a halts).status i = if i ∈ halts then (s.status i).map fun _ => .halted else s.status i := by
  unfold State.status
  rw [commitTrip_strategies, getElem?_haltAll]
  split <;> simp [comp_def]

@[simp] lemma returnTo_fields {ok : Bool} :
    (s.returnTo w sid ok c).strategies = s.strategies ∧ (s.returnTo w sid ok c).accounts = s.accounts ∧
    (s.returnTo w sid ok c).runs = s.runs ∧ (s.returnTo w sid ok c).running = s.running := by
  cases c <;> exact ⟨rfl, rfl, rfl, rfl⟩

@[simp] lemma beginRegister_fields {intent : RegistrationIntent} :
    (s.beginRegister w c sid intent).strategies = s.strategies ∧
    (s.beginRegister w c sid intent).accounts = s.accounts ∧ (s.beginRegister w c sid intent).runs = s.runs ∧
    (s.beginRegister w c sid intent).running = s.running := by
  unfold State.beginRegister State.returned
  split <;> simp

@[simp] lemma beginUnregister_fields : (s.beginUnregister w c sid).strategies = s.strategies ∧
    (s.beginUnregister w c sid).accounts = s.accounts ∧ (s.beginUnregister w c sid).runs = s.runs := by
  unfold State.beginUnregister
  split <;> simp

lemma goDispatch_fields {path : Path} {pending : List RunningStrategy} {inp : Input} {phase : Dispatching} :
    (goDispatch s w path pending inp phase).strategies = s.strategies ∧
    (goDispatch s w path pending inp phase).accounts = s.accounts ∧
    (goDispatch s w path pending inp phase).runs = s.runs ∧
    (goDispatch s w path pending inp phase).running = s.running := by
  cases phase with
  | next | session | hook =>
    simp only [goDispatch]
    repeat' split
    all_goals exact ⟨rfl, rfl, rfl, rfl⟩
  | status | claim => exact ⟨rfl, rfl, rfl, rfl⟩
  | fetch r symbols =>
    cases symbols <;> simp only [goDispatch]
    · exact ⟨rfl, rfl, rfl, rfl⟩
    · split <;> exact ⟨rfl, rfl, rfl, rfl⟩

lemma arrive_fields {l : Label} (st : arrive s l = some s') :
    s'.strategies = s.strategies ∧ s'.accounts = s.accounts ∧ s'.runs = s.runs := by
  revert st
  cases l <;> simp only [arrive, reduceCtorEq, false_imp_iff]
  case register => rintro ⟨⟩; simp
  case unregister => rintro ⟨⟩; simp
  case reload =>
    repeat' split
    all_goals rintro ⟨⟩
    all_goals simp
  case shutdown | barTick | overlayTick | eventBar | eventFallback | signal | fill =>
    rintro ⟨⟩
    exact ⟨rfl, rfl, rfl⟩
  all_goals
    repeat' split
    all_goals rintro ⟨⟩
    all_goals exact ⟨rfl, rfl, rfl⟩

@[grind] def Worker.inDispatch : Worker → Bool
  | .dispatching .. | .failing .. | .erroring .. | .evicting .. => true
  | _ => false

@[simp] lemma inDispatch_returnTo {ok : Bool} : ((s.returnTo w sid ok c).workers w).inDispatch = false := by
  cases c <;> simp [State.returnTo, Worker.inDispatch]

@[simp] lemma inDispatch_beginRegister {intent : RegistrationIntent} :
    ((s.beginRegister w c sid intent).workers w).inDispatch = false := by
  unfold State.beginRegister State.returned
  split
  · exact inDispatch_returnTo
  · simp [Worker.inDispatch]

@[simp] lemma inDispatch_beginUnregister : ((s.beginUnregister w c sid).workers w).inDispatch = false := by
  unfold State.beginUnregister
  split
  · exact inDispatch_returnTo
  · simp [Worker.inDispatch]

lemma go_inDispatch {inp : Input} (off : worker.inDispatch = false) (st : go s w inp worker = some s') :
    (s'.workers w).inDispatch = false := by
  revert st
  cases worker with
  | idle | stopped => simp [go]
  | dispatching | failing | erroring | evicting => cases off
  | registering c sid phase =>
    simp only [go]
    rintro ⟨⟩
    cases phase <;> simp only [goRegister, State.returned]
    all_goals
      repeat' split
      all_goals first | exact inDispatch_returnTo | simp [Worker.inDispatch]
  | unloaded => simp only [go]; rintro ⟨⟩; exact inDispatch_beginRegister
  | closing => simp only [go]; rintro ⟨⟩; exact inDispatch_returnTo
  | stopping | tripping | resetting | booting =>
    simp only [go]
    rintro ⟨⟩
    simp [Worker.inDispatch]
  | activating sid phase =>
    simp only [go]
    rintro ⟨⟩
    cases phase <;> simp only [goActivate]
    all_goals
      repeat' split
      all_goals first
        | exact inDispatch_beginRegister | exact inDispatch_beginUnregister | simp [Worker.inDispatch]
  | shuttingDown rest =>
    cases rest <;> simp only [go] <;> rintro ⟨⟩ <;>
      [simp [Worker.inDispatch]; exact inDispatch_beginUnregister]
  | resuming rest =>
    cases rest <;> simp only [go] <;> rintro ⟨⟩ <;>
      [simp [Worker.inDispatch]; exact inDispatch_beginRegister]

lemma arrive_inDispatch {l : Label} (target : l.target = some w) (free : s.workers w = .idle)
    (st : arrive s l = some s') : (s'.workers w).inDispatch = false ∨
      ∃ path targets, (∀ r ∈ targets, ∃ k, s.running.get k = some r) ∧ s' = beginDispatch s w path targets := by
  have idle : (s.workers w).inDispatch = false := by rw [free]; rfl
  have one {sid : Nat} : ∀ r ∈ targetOf s sid, ∃ k, s.running.get k = some r := by
    intro r mem
    exact ⟨sid, mem_toList.1 mem⟩
  revert st
  cases l <;> simp only [Label.target, some.injEq, reduceCtorEq] at target <;> subst target <;>
    simp only [arrive]
  case register => rintro ⟨⟩; exact .inl inDispatch_beginRegister
  case unregister => rintro ⟨⟩; exact .inl inDispatch_beginUnregister
  case reload =>
    repeat' split
    all_goals rintro ⟨⟩
    all_goals first | exact .inl idle | exact .inl inDispatch_beginUnregister
  case barTick | overlayTick | signal | fill => rintro ⟨⟩; exact .inr ⟨_, _, one, rfl⟩
  case eventBar =>
    rintro ⟨⟩
    exact .inr ⟨_, _, fun r mem => Dict.mem_values.1 (mem_filter.1 mem).1, rfl⟩
  case eventFallback =>
    rintro ⟨⟩
    exact .inr ⟨_, _, fun r mem => Dict.mem_values.1 (mem_filter.1 mem).1, rfl⟩
  all_goals
    repeat' split
    all_goals rintro ⟨⟩
    all_goals first | exact .inl idle | exact .inl (by simp [Worker.inDispatch])

end Statuses

/-! ## A small system -/

def eventStrategy : Strategy := { userId := 1, symbols := ["AAPL"] }

def paperAccounts : Dict Nat Account := Dict.empty.set 7 { userId := 1, mode := .paper }

/-- A registration that goes through, by worker `0`. -/
def registration (sid : Nat) : List Label :=
  .register 0 sid .activate :: List.replicate 8 (.go 0 {})

def bothAccounts : Dict Nat Account :=
  (Dict.empty.set 7 { userId := 1, mode := .paper }).set 8 { userId := 1, mode := .live }

/-- An activation that goes through after its cooldown, by worker `0`. -/
def activation (sid : Nat) : List Label :=
  [Label.initiate 0 sid 1 true, .go 0 {}, .go 0 {}, .go 0 {}, .elapse activationCooldown, .complete 0 sid] ++
    List.replicate 11 (Label.go 0 {})

end Workbench.Strategies
