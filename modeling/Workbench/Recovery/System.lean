import Workbench.Lib.Machine
import Workbench.Risk.LossControl.Cooldown

/-!
# The recovery system

Everything that writes the loss-control tables: the triggers of the risk engine, any number of workers
of the recovery coordinator (`app/risk/loss_control/recovery.py`) and any number of cooldown
evaluations (`app/risk/loss_control/cooldown.py`). Every label of `recovery` is one database session
of one of them, so a run is an interleaving of sessions, with crashes between any two.

A transition is one step (`Workbench.LossControl.requests_linearizable`): `fire` writes it and returns its
result, `raise` is a transition whose caller sees an exception, after the commit or without it. What
a worker remembers from one session to the next is its `Worker` constructor; a preflight can have any
number of workers, since a retry resumes one that is still in the hands of another.

The log of check runs and of the passes that were committed is kept beside the database and read by no
step.
-/

namespace Workbench.Recovery
open Workbench.Lib Workbench.Risk.LossControl

/-- What a worker has read of the preflight it works on. -/
structure Job where
  accountId : Nat
  parentId : Nat
  role : ActorType
  version : Nat
  requestEventId : Option Nat
  deriving DecidableEq

/-- Where a worker stands: in `request_recovery` (`creating`), in `_advance` (`advancing` to
    `finding`), in `_run_checks_and_finalize` (`checking`), before a transition of a finalizer
    (`failing`, `passing`), before `_close_parent`, or before the transition of an evaluation. -/
inductive Worker where
  | idle
  | creating (accountId : Nat) (key : String) (userId : Nat) (role : ActorType) (origin : LossState)
      (version : Nat)
  | advancing (accountId parentId : Nat)
  | requesting (job : Job)
  | rereading (job : Job)
  | finding (job : Job)
  | checking (job : Job)
  | failing (job : Job) (origin : Option LossState) (verdict : CheckStatus)
  | passing (job : Job) (authorizer : ActorType) (approver : Option Nat) (origin : LossState)
      (tripCause : Option TripCause)
  | closing (job : Job) (closure : Closure)
  | evaluating (accountId : Nat) (trigger : LossTrigger) (version : Nat)

/-- A check run that was committed. -/
structure RunRecord where
  preflightId : Nat
  version : Nat
  results : List CheckResult

/-- A PREFLIGHT_PASS that was committed: for which account and as which event, on which preflight and
    on whose authority. -/
structure PassRecord where
  accountId : Nat
  sequenceNo : Nat
  preflightId : Nat
  authorizer : ActorType
  approver : Option Nat

/-- The database, the workers, and the record of what was checked and passed. -/
structure State where
  db : Db
  workers : Nat → Worker := fun _ => .idle
  runs : List RunRecord := []
  passes : List PassRecord := []

def State.move (s : State) (w : Nat) (worker : Worker) : State :=
  { s with workers := Function.update s.workers w worker }

/-- The job of a worker that has read a preflight. -/
def jobOf (accountId parentId : Nat) (parent : RiskRecoveryPreflight) : Job :=
  ⟨accountId, parentId, parent.requestedByActorType, parent.expectedStateVersion, parent.requestEventId⟩

/-- The transition a worker is about to request. RECOVERY_REQUEST has bumped the version of a preflight
    once when it comes to its end. -/
def Worker.request : Worker → Option TransitionRequest
  | .requesting job => some
      { accountId := job.accountId, trigger := .recoveryRequest, expectedStateVersion := job.version }
  | .failing job origin _ => some
      { accountId := job.accountId, trigger := .preflightFail
        expectedStateVersion := some (job.version + 1), recoveryOriginState := origin }
  | .passing job _ _ _ _ => some
      { accountId := job.accountId, trigger := .preflightPass
        expectedStateVersion := some (job.version + 1) }
  | .evaluating accountId trigger version => some { accountId, trigger, expectedStateVersion := version }
  | _ => none

/-- How a worker goes on after its transition; `none` is a transition that raised. -/
def Worker.after (result : Option TransitionResult) : Worker → Worker
  | .requesting job =>
    match result with
    | none => .closing job ⟨.commitFailed, none, none, none⟩
    | some r =>
      if r.outcome = .applied then .checking { job with requestEventId := r.eventId }
      else .rereading job
  | .failing job _ verdict =>
    .closing job ⟨if verdict = .fail then .failed else .incomplete, some verdict, result, none⟩
  | .passing job authorizer approver _ _ =>
    match result.filter (·.outcome = .applied) with
    | some r => .closing job ⟨.passed, some .pass, some r, some (authorizer, approver)⟩
    | none => .closing job ⟨.commitFailed, some .pass, none, none⟩
  | _ => .idle

/-- The record of a pass, if that is what the worker requested and it was applied. -/
def Worker.passRecord (result : TransitionResult) : Worker → List PassRecord
  | .passing job authorizer approver _ _ =>
    if result.outcome = .applied then
      [⟨job.accountId, result.sequenceNo.getD 0, job.parentId, authorizer, approver⟩]
    else []
  | _ => []

def finalize (job : Job) (run : CheckRun) : Worker :=
  if run.verdict ≠ .pass then .failing job run.origin run.verdict
  else match run.origin with
    | none => .idle
    | some origin =>
      if requiresExplicitApproval origin || !mayAuthorizePass origin run.tripCause job.role then
        .closing job ⟨.authorizationRequired, some .pass, none, none⟩
      else .passing job job.role none origin run.tripCause

/-- One session. -/
inductive Label where
  | trigger (accountId : Nat) (trigger : LossTrigger) (context : TransitionContext) (now : Instant)
  | request (w accountId : Nat) (key : String) (userId : Nat)
  | create (w : Nat)
  | advance (w : Nat)
  | fire (w : Nat) (now : Instant)
  | raise (w : Nat) (committed : Bool) (now : Instant)
  | reread (w : Nat)
  | find (w : Nat)
  | check (w : Nat) (findings : Findings)
  | close (w : Nat)
  | approve (w accountId preflightId userId : Nat)
  | evaluate (w accountId : Nat) (evidence : AccountEvidence)
  | crash (w : Nat)

def tripTrigger : LossTrigger → Bool
  | .dailyLossBreach | .breakerTrip | .integrityViolation => true
  | _ => false

/-- The version of an account's row, zero without one. -/
def versionOf (db : Db) (accountId : Nat) : Nat :=
  ((loadStateRow db accountId).map (·.stateVersion)).getD 0

def step (auth : Authority) (s : State) : Label → Option State
  | .trigger accountId trigger context now =>
    if tripTrigger trigger then
      some { s with db := (handleRequest s.db { accountId, trigger, context } now).1 }
    else none
  | .request w accountId key userId =>
    match s.workers w with
    | .idle =>
      match requestRecovery auth s.db accountId key userId with
      | .done _ => some s
      | .resume parentId => some (s.move w (.advancing accountId parentId))
      | .create role origin version =>
        some (s.move w (.creating accountId key userId role origin version))
    | _ => none
  | .create w =>
    match s.workers w with
    | .creating accountId key userId role origin version =>
      match insertParent s.db (newParent accountId key userId role origin version) with
      | some db => some ({ s with db }.move w (.advancing accountId s.db.preflights.length))
      | none =>
        match afterConflict s.db accountId key userId with
        | .resume parentId => some (s.move w (.advancing accountId parentId))
        | _ => some (s.move w .idle)
    | _ => none
  | .advance w =>
    match s.workers w with
    | .advancing accountId parentId =>
      match advanceRead s.db accountId parentId with
      | .done _ => some (s.move w .idle)
      | .fire parent => some (s.move w (.requesting (jobOf accountId parentId parent)))
      | .find parent => some (s.move w (.finding (jobOf accountId parentId parent)))
      | .close parent =>
        some (s.move w (.closing (jobOf accountId parentId parent) ⟨.failed, none, none, none⟩))
    | _ => none
  | .fire w now =>
    match (s.workers w).request with
    | none => none
    | some req =>
      let (db, result) := handleRequest s.db req now
      some ({ s with db, passes := s.passes ++ (s.workers w).passRecord result }.move w
        ((s.workers w).after (some result)))
  | .raise w committed now =>
    match (s.workers w).request with
    | none => none
    | some req =>
      if committed then
        let (db, result) := handleRequest s.db req now
        some ({ s with db, passes := s.passes ++ (s.workers w).passRecord result }.move w
          ((s.workers w).after none))
      else some (s.move w ((s.workers w).after none))
  | .reread w =>
    match s.workers w with
    | .rereading job =>
      if lossState s.db job.accountId = some .recoveryPreflight then some (s.move w (.finding job))
      else some (s.move w (.closing job ⟨.failed, none, none, none⟩))
    | _ => none
  | .find w =>
    match s.workers w with
    | .finding job => some (s.move w (.checking
        { job with requestEventId := job.requestEventId.or (findRequestEvent s.db job.accountId) }))
    | _ => none
  | .check w findings =>
    match s.workers w with
    | .checking job =>
      let run := checkRun s.db job.accountId job.requestEventId findings
      match writeParent s.db job.parentId run.record with
      | none => some (s.move w .idle)
      | some db =>
        let record : RunRecord := ⟨job.parentId, versionOf s.db job.accountId, run.results⟩
        some ({ s with db, runs := s.runs ++ [record] }.move w (finalize job run))
    | _ => none
  | .close w =>
    match s.workers w with
    | .closing job closure =>
      match writeParent s.db job.parentId closure.record with
      | none => some (s.move w .idle)
      | some db => some ({ s with db }.move w .idle)
    | _ => none
  | .approve w accountId preflightId userId =>
    match s.workers w with
    | .idle =>
      match approveRead auth s.db accountId preflightId userId with
      | .done _ => some s
      | .commit role parent origin =>
        some (s.move w (.passing (jobOf accountId preflightId parent) role (some userId) origin
          parent.tripCause))
    | _ => none
  | .evaluate w accountId evidence =>
    match s.workers w with
    | .idle =>
      match evaluateAccount s.db accountId evidence with
      | .fire trigger version => some (s.move w (.evaluating accountId trigger version))
      | _ => some s
    | _ => none
  | .crash w => some (s.move w .idle)

def recovery (auth : Authority) : Machine State Label := ⟨step auth⟩

def start (db : Db) : State :=
  { db := { db with lossControl := .empty, controlEvents := [], preflights := [] } }

/-! ## What a step does -/

/-- The state after worker `w` has written its transition. -/
def State.write (s : State) (w : Nat) (req : TransitionRequest) (now : Instant) : State :=
  { s with
    db := (handleRequest s.db req now).1
    passes := s.passes ++ (s.workers w).passRecord (handleRequest s.db req now).2 }

def runRecord (db : Db) (job : Job) (run : CheckRun) : RunRecord :=
  ⟨job.parentId, versionOf db job.accountId, run.results⟩

/-- Everything a step can do. -/
inductive Stepped (auth : Authority) (s : State) : Label → State → Prop where
  | trigger {a trig context now} (live : tripTrigger trig = true) :
      Stepped auth s (.trigger a trig context now)
        { s with db := (handleRequest s.db { accountId := a, trigger := trig, context } now).1 }
  | answered {w a key user outcome} (idle : s.workers w = .idle)
      (read : requestRecovery auth s.db a key user = .done outcome) :
      Stepped auth s (.request w a key user) s
  | resume {w a key user p} (idle : s.workers w = .idle)
      (read : requestRecovery auth s.db a key user = .resume p) :
      Stepped auth s (.request w a key user) (s.move w (.advancing a p))
  | prepare {w a key user role origin version} (idle : s.workers w = .idle)
      (read : requestRecovery auth s.db a key user = .create role origin version) :
      Stepped auth s (.request w a key user) (s.move w (.creating a key user role origin version))
  | insert {w a key user role origin version db}
      (at_ : s.workers w = .creating a key user role origin version)
      (inserted : insertParent s.db (newParent a key user role origin version) = some db) :
      Stepped auth s (.create w) ({ s with db }.move w (.advancing a s.db.preflights.length))
  | join {w a key user role origin version p}
      (at_ : s.workers w = .creating a key user role origin version)
      (read : afterConflict s.db a key user = .resume p) :
      Stepped auth s (.create w) (s.move w (.advancing a p))
  | lost {w a key user role origin version}
      (at_ : s.workers w = .creating a key user role origin version) :
      Stepped auth s (.create w) (s.move w .idle)
  | resolved {w a p outcome} (at_ : s.workers w = .advancing a p)
      (read : advanceRead s.db a p = .done outcome) : Stepped auth s (.advance w) (s.move w .idle)
  | locked {w a p parent} (at_ : s.workers w = .advancing a p)
      (read : advanceRead s.db a p = .fire parent) :
      Stepped auth s (.advance w) (s.move w (.requesting (jobOf a p parent)))
  | entered {w a p parent} (at_ : s.workers w = .advancing a p)
      (read : advanceRead s.db a p = .find parent) :
      Stepped auth s (.advance w) (s.move w (.finding (jobOf a p parent)))
  | ineligible {w a p parent} (at_ : s.workers w = .advancing a p)
      (read : advanceRead s.db a p = .close parent) :
      Stepped auth s (.advance w)
        (s.move w (.closing (jobOf a p parent) ⟨.failed, none, none, none⟩))
  | fire {w now req} (asks : (s.workers w).request = some req) :
      Stepped auth s (.fire w now) ((s.write w req now).move w
        ((s.workers w).after (some (handleRequest s.db req now).2)))
  | raiseCommitted {w now req} (asks : (s.workers w).request = some req) :
      Stepped auth s (.raise w true now) ((s.write w req now).move w ((s.workers w).after none))
  | raise {w now req} (asks : (s.workers w).request = some req) :
      Stepped auth s (.raise w false now) (s.move w ((s.workers w).after none))
  | applied {w job} (at_ : s.workers w = .rereading job)
      (state : lossState s.db job.accountId = some .recoveryPreflight) :
      Stepped auth s (.reread w) (s.move w (.finding job))
  | overtaken {w job} (at_ : s.workers w = .rereading job)
      (state : lossState s.db job.accountId ≠ some .recoveryPreflight) :
      Stepped auth s (.reread w) (s.move w (.closing job ⟨.failed, none, none, none⟩))
  | find {w job} (at_ : s.workers w = .finding job) :
      Stepped auth s (.find w) (s.move w (.checking { job with
        requestEventId := job.requestEventId.or (findRequestEvent s.db job.accountId) }))
  | check {w job findings run db} (at_ : s.workers w = .checking job)
      (ran : run = checkRun s.db job.accountId job.requestEventId findings)
      (written : writeParent s.db job.parentId run.record = some db) :
      Stepped auth s (.check w findings)
        ({ s with db, runs := s.runs ++ [runRecord s.db job run] }.move w (finalize job run))
  | checkRefused {w job findings} (at_ : s.workers w = .checking job) :
      Stepped auth s (.check w findings) (s.move w .idle)
  | close {w job closure db} (at_ : s.workers w = .closing job closure)
      (written : writeParent s.db job.parentId closure.record = some db) :
      Stepped auth s (.close w) ({ s with db }.move w .idle)
  | closeRefused {w job closure} (at_ : s.workers w = .closing job closure)
      (refused : writeParent s.db job.parentId closure.record = none) :
      Stepped auth s (.close w) (s.move w .idle)
  | unapproved {w a p user outcome} (idle : s.workers w = .idle)
      (read : approveRead auth s.db a p user = .done outcome) :
      Stepped auth s (.approve w a p user) s
  | approve {w a p user role parent origin} (idle : s.workers w = .idle)
      (read : approveRead auth s.db a p user = .commit role parent origin) :
      Stepped auth s (.approve w a p user)
        (s.move w (.passing (jobOf a p parent) role (some user) origin parent.tripCause))
  | held {w a evidence} (idle : s.workers w = .idle)
      (read : ∀ trigger version, evaluateAccount s.db a evidence ≠ .fire trigger version) :
      Stepped auth s (.evaluate w a evidence) s
  | evaluate {w a evidence trigger version} (idle : s.workers w = .idle)
      (read : evaluateAccount s.db a evidence = .fire trigger version) :
      Stepped auth s (.evaluate w a evidence) (s.move w (.evaluating a trigger version))
  | crash {w} : Stepped auth s (.crash w) (s.move w .idle)

lemma step_inv {auth : Authority} {s s' : State} {l : Label} (e : step auth s l = some s') : Stepped auth s l s' := by
  cases l with
  | trigger a trig context now =>
    dsimp only [step] at e
    split at e
    · rename_i live
      cases e
      exact .trigger live
    · cases e
  | request w a key user =>
    dsimp only [step] at e
    split at e
    · rename_i idle
      split at e <;> cases e
      · exact .answered idle ‹_›
      · exact .resume idle ‹_›
      · exact .prepare idle ‹_›
    · cases e
  | create w =>
    dsimp only [step] at e
    split at e
    · rename_i at_
      split at e
      · cases e
        exact .insert at_ ‹_›
      · split at e <;> cases e
        · exact .join at_ ‹_›
        · exact .lost at_
    · cases e
  | advance w =>
    dsimp only [step] at e
    split at e
    · rename_i at_
      split at e <;> cases e
      · exact .resolved at_ ‹_›
      · exact .locked at_ ‹_›
      · exact .entered at_ ‹_›
      · exact .ineligible at_ ‹_›
    · cases e
  | fire w now =>
    dsimp only [step] at e
    split at e
    · cases e
    · rename_i req asks
      cases e
      exact .fire asks
  | raise w committed now =>
    dsimp only [step] at e
    split at e
    · cases e
    · rename_i req asks
      cases committed with
      | true =>
        cases e
        exact .raiseCommitted asks
      | false =>
        cases e
        exact .raise asks
  | reread w =>
    dsimp only [step] at e
    split at e
    · rename_i at_
      split at e <;> cases e
      · exact .applied at_ ‹_›
      · exact .overtaken at_ ‹_›
    · cases e
  | find w =>
    dsimp only [step] at e
    split at e
    · rename_i at_
      cases e
      exact .find at_
    · cases e
  | check w findings =>
    dsimp only [step] at e
    split at e
    · rename_i at_
      split at e <;> cases e
      · exact .checkRefused at_
      · exact .check at_ rfl ‹_›
    · cases e
  | close w =>
    dsimp only [step] at e
    split at e
    · rename_i at_
      split at e <;> cases e
      · exact .closeRefused at_ ‹_›
      · exact .close at_ ‹_›
    · cases e
  | approve w a p user =>
    dsimp only [step] at e
    split at e
    · rename_i idle
      split at e <;> cases e
      · exact .unapproved idle ‹_›
      · exact .approve idle ‹_›
    · cases e
  | evaluate w a evidence =>
    dsimp only [step] at e
    split at e
    · rename_i idle
      split at e
      · cases e
        exact .evaluate idle ‹_›
      · rename_i other
        cases e
        exact .held idle other
    · cases e
  | crash w =>
    cases e
    exact .crash

end Workbench.Recovery
