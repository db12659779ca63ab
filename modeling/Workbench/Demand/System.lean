import Workbench.Lib.Machine
import Workbench.Demand.Registry

/-!
# The demand plane at work

The operations of `ConsumerRegistry` as tasks of any number of processes on one database. An operation reads
first; it takes the write lock with its first write, and what it does under the lock is one step, since no other
transaction writes meanwhile and none sees it before the commit. A process may crash between two steps.

`publish` reads the registration before it has the lock, and everything else under it. The operations that
revoke leases read them before they have it. `apply_artifact` revokes registrations in one transaction and
their leases in others; `unsettled` keeps the revocations whose leases are still to be revoked, until the next
`expire_due` that starts after them has run.
-/

namespace Workbench.Demand
open Workbench.Lib

/-- Who revokes leases. -/
inductive Origin where
  | runtime
  | apply
  | expiry (before : List (Nat × String))
deriving DecidableEq

/-- An operation under way. -/
inductive Task where
  | idle
  | publishing (now : Int) (consumerId : String) (nonce : Nat) (lease : DemandLease) (reg : Option Registration)
  | withdrawing (leaseId : Nat)
  | applying (now : Int) (entries : List Entry) (seen : Dict String Registration)
  | expiring (due : List Nat) (stopped : List String) (before : List (Nat × String))
  | revoking (origin : Origin) (consumers : List String)
  | revokingRead (origin : Origin) (ids : List Nat) (consumerId : String) (rest : List String)
  | done
  | dead

def Task.running : Task → Bool
  | .idle | .done => false
  | _ => true

/-- The tables, the clock, the grants that each process has minted, and the tasks. -/
structure State where
  clock : Int := 0
  registrations : Dict String Registration := .empty
  leases : List Lease := []
  grants : Nat → Dict String Nat := fun _ => .empty
  nonces : Nat := 0
  tasks : Nat → Task := fun _ => .idle
  unsettled : List (Nat × String) := []

/-- What may happen next. -/
inductive Label where
  | tick (span : Nat)
  | grant (process : Nat) (consumerId : String)
  | publish (t : Nat) (consumerId : String) (nonce : Nat) (lease : DemandLease)
  | accept (t : Nat) (policy : Option ℚ)
  | withdraw (t : Nat) (consumerId : String) (nonce leaseId : Nat)
  | withdrawn (t : Nat)
  | revoke (t : Nat) (consumerId : String) (nonce : Nat)
  | revokeForStrategy (t : Nat) (strategyId : Nat)
  | applyArtifact (t : Nat) (entries : List Entry)
  | applied (t : Nat)
  | expireDue (t : Nat) (runnable : Nat → Bool)
  | expired (t : Nat)
  | readLeases (t : Nat)
  | revokeLeases (t : Nat)
  | finish (t : Nat)
  | crash (process : Nat)

namespace State

def move (s : State) (t : Nat) (x : Task) : State := { s with tasks := Function.update s.tasks t x }

def revoked (s : State) (consumerId : String) : Prop :=
  ∃ reg, s.registrations.get consumerId = some reg ∧ reg.revokedAt ≠ none

/-- The consumers whose strategy is not runnable, each once. -/
def stopped (s : State) (runnable : Nat → Bool) : List String :=
  ((s.leases.filter fun l => l.status = .active ∧ s.clock < l.expiresAt).filterMap fun l =>
    (s.registrations.get l.consumerId).bind fun reg =>
      reg.strategyId.bind fun i => if runnable i then none else some l.consumerId).dedup

end State

/-- The demand plane; `home` is the process of a task. -/
def plane (config : DemandPlaneConfig) (home : Nat → Nat) : Machine State Label where
  step s
    | .tick span => some { s with clock := s.clock + span }
    | .grant p c =>
      match s.registrations.get c with
      | none => none
      | some reg =>
        if reg.revokedAt ≠ none then none
        else if (s.grants p).contains c then some s
        else some { s with grants := Function.update s.grants p ((s.grants p).set c s.nonces), nonces := s.nonces + 1 }
    | .publish t c nonce lease =>
      match s.tasks t with
      | .idle => some (s.move t (.publishing s.clock c nonce lease (s.registrations.get c)))
      | _ => none
    | .accept t policy =>
      match s.tasks t with
      | .publishing now c nonce lease reg =>
        match validate config s.leases c ((s.grants (home t)).get c = some nonce) reg lease policy now with
        | .error _ => some (s.move t .done)
        | .ok bound => some { s.move t .done with leases := supersede s.leases c lease bound now }
      | _ => none
    | .withdraw t c nonce i =>
      match s.tasks t with
      | .idle =>
        match s.leases[i]? with
        | some l =>
          if (s.grants (home t)).get c = some nonce ∧ l.consumerId = c ∧ l.status = .active then
            some (s.move t (.withdrawing i))
          else some (s.move t .done)
        | none => some (s.move t .done)
      | _ => none
    | .withdrawn t =>
      match s.tasks t with
      | .withdrawing i => some { s.move t .done with leases := setStatus [i] .withdrawn s.leases }
      | _ => none
    | .revoke t c nonce =>
      match s.tasks t with
      | .idle =>
        some (s.move t (if (s.grants (home t)).get c = some nonce then .revoking .runtime [c] else .done))
      | _ => none
    | .revokeForStrategy t i =>
      match s.tasks t with
      | .idle =>
        some (s.move t (.revoking .runtime
          ((s.registrations.entries.filter fun r => r.2.strategyId = some i).map (·.1))))
      | _ => none
    | .applyArtifact t entries =>
      match s.tasks t with
      | .idle => some (s.move t (.applying s.clock entries s.registrations))
      | _ => none
    | .applied t =>
      match s.tasks t with
      | .applying now entries seen =>
        match applyArtifact seen s.registrations entries now with
        | none => some (s.move t .done)
        | some regs =>
          some { s.move t (.revoking .apply (unlisted seen entries)) with
            registrations := regs
            -- the grants of the consumers that are revoked are dropped in this process
            grants := Function.update s.grants (home t)
              ((unlisted seen entries).foldl Dict.erase (s.grants (home t)))
            unsettled := s.unsettled ++ (unlisted seen entries).map (t, ·) }
      | _ => none
    | .expireDue t runnable =>
      match s.tasks t with
      | .idle =>
        some (s.move t (.expiring (activeIds s.leases fun l => l.expiresAt ≤ s.clock) (s.stopped runnable)
          s.unsettled))
      | _ => none
    | .expired t =>
      match s.tasks t with
      | .expiring due stopped before =>
        some { s.move t (.revoking (.expiry before) stopped) with leases := setStatus due .expired s.leases }
      | _ => none
    | .readLeases t =>
      match s.tasks t with
      | .revoking origin (c :: rest) =>
        some (s.move t (.revokingRead origin (activeIds s.leases fun l => l.consumerId = c) c rest))
      | _ => none
    | .revokeLeases t =>
      match s.tasks t with
      | .revokingRead origin ids c rest =>
        some { s.move t (.revoking origin rest) with
          leases := setStatus ids .revoked s.leases
          unsettled := if origin = .apply ∧ c ∉ rest then s.unsettled.filter (· ≠ (t, c)) else s.unsettled }
      | _ => none
    | .finish t =>
      match s.tasks t with
      | .revoking (.expiry before) [] =>
        some { s.move t .done with unsettled := s.unsettled.filter (· ∉ before) }
      | .revoking _ [] => some (s.move t .done)
      | _ => none
    | .crash p =>
      some { s with
        tasks := fun t => if home t = p ∧ (s.tasks t).running then .dead else s.tasks t
        grants := Function.update s.grants p .empty }

end Workbench.Demand
