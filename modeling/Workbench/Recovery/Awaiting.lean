import Workbench.Recovery.Stranded

/-!
# Preflights that await an approval

A preflight in AUTHORIZATION_REQUIRED is active, so it keeps every other request out, and only `approve`
resolves it, which asks for the account to be in RECOVERY_PREFLIGHT. Nothing closes it when the account
is moved elsewhere: an account that is taken into a lock while a preflight of it awaits an approval can
not be recovered from it. `Uninterrupted` says that no step does that; in a run of such steps, what
keeps a request out of a lock is a preflight that can be resumed.
-/

namespace Workbench.Recovery
open Workbench.Lib Workbench.Risk.LossControl List Machine

variable {auth : Authority} {s s' : State} {db db' : Db} {a b p w : Nat}
variable {job : Job} {worker : Worker} {P : RiskRecoveryPreflight} {closure : Closure}
variable {req : TransitionRequest} {now : Instant}

/-- A preflight of the account awaits an approval, or a worker is about to have one await it. -/
def Awaits (s : State) (a : Nat) : Prop :=
  (∃ P ∈ s.db.preflights, P.accountId = a ∧ P.status = .authorizationRequired) ∨
    ∃ w job closure, s.workers w = .closing job closure ∧ job.accountId = a ∧
      closure.status = .authorizationRequired

/-- The transition that a step commits, if it applies. -/
def Label.writes (s : State) : Label → Option TransitionRequest
  | .trigger a trig context _ => some { accountId := a, trigger := trig, context }
  | .fire w _ | .raise w true _ => (s.workers w).request
  | _ => none

/-- No step takes an account into a lock while a preflight of it awaits an approval. -/
def Uninterrupted (s : State) (l : Label) : Prop :=
  ∀ req t, l.writes s = some req →
    adjudicate ((loadStateRow s.db req.accountId).getD initialState) req = .ok t →
    recoveryOrigin t.toState = true → ¬ Awaits s req.accountId

def Locked (db : Db) (a : Nat) : Prop := (lossState db a).any recoveryOrigin = true

/-- No locked account has a preflight that awaits an approval. -/
def Clear (s : State) : Prop := ∀ a, Locked s.db a → ¬ Awaits s a

/-! ## What a step does to it -/

lemma locked_handleRequest (recorded : Recorded db req.accountId) (locked : Locked (handleRequest db req now).1 a) :
    Locked db a ∨ a = req.accountId ∧ ∃ t, adjudicate ((loadStateRow db req.accountId).getD initialState) req = .ok t ∧
        recoveryOrigin t.toState = true := by
  unfold Locked lossState loadStateRow at locked ⊢
  rcases handleRequest_cases recorded now with ⟨t, adjudicated, -, eq⟩ | ⟨outcome, -, -, eq⟩
  · rw [eq] at locked
    by_cases mine : a = req.accountId
    · subst mine
      refine .inr ⟨rfl, t, recorded.read ▸ adjudicated, ?_⟩
      simpa [casAdvance] using locked
    · rw [Dict.get_set_of_ne mine] at locked
      exact .inl locked
  · rw [eq] at locked
    unfold ensureStateRow at locked
    split at locked
    · exact .inl locked
    · rw [Dict.get_set] at locked
      split at locked
      · simp [initialState, recoveryOrigin] at locked
      · exact .inl locked

lemma Awaits.of_move (h : Awaits (s.move w worker) a) :
    Awaits s a ∨ ∃ job closure, worker = .closing job closure ∧ job.accountId = a ∧
      closure.status = .authorizationRequired := by
  rcases h with row | ⟨w', job, closure, at_, account, awaits⟩
  · exact .inl (.inl row)
  · change Function.update s.workers w worker w' = .closing job closure at at_
    by_cases eq : w' = w
    · rw [eq, Function.update_self] at at_
      exact .inr ⟨job, closure, at_, account, awaits⟩
    · rw [Function.update_of_ne eq] at at_
      exact .inl (.inr ⟨w', job, closure, at_, account, awaits⟩)

lemma Clear.move (h : Clear s) (may : ∀ job closure, worker = .closing job closure →
    closure.status = .authorizationRequired → ¬ Locked s.db job.accountId) : Clear (s.move w worker) := by
  intro a locked awaits
  rcases awaits.of_move with old | ⟨job, closure, at_, rfl, status⟩
  · exact h a locked old
  · exact may job closure at_ status locked

lemma Clear.write (h : Clear s) (recorded : Recorded s.db req.accountId)
    (eq : s'.db = (handleRequest s.db req now).1) (same : s'.workers = s.workers)
    (uninterrupted : ∀ t, adjudicate ((loadStateRow s.db req.accountId).getD initialState) req = .ok t →
      recoveryOrigin t.toState = true → ¬ Awaits s req.accountId) : Clear s' := by
  intro a locked awaits
  rw [Awaits, same, eq, handleRequest_preflights] at awaits
  rw [eq] at locked
  rcases locked_handleRequest recorded locked with old | ⟨rfl, t, adjudicated, lock⟩
  · exact h a old awaits
  · exact uninterrupted t adjudicated lock awaits

lemma Clear.amend (h : Clear s) {f : RiskRecoveryPreflight → RiskRecoveryPreflight}
    (eq : s'.db = { s.db with preflights := Table.amend p f s.db.preflights })
    (same : s'.workers = s.workers) (get : s.db.preflights[p]? = some P) (request : SameRequest P (f P))
    (may : (f P).status = .authorizationRequired → ¬ Locked s.db P.accountId) : Clear s' := by
  intro a locked awaits
  rw [eq] at locked
  have locked : Locked s.db a := locked
  rcases awaits with ⟨Q, mem, account, status⟩ | working
  · rw [eq] at mem
    obtain ⟨q, at_⟩ := getElem?_of_mem mem
    change (Table.amend p f s.db.preflights)[q]? = some Q at at_
    rw [Table.getElem?_amend] at at_
    split at at_
    · rename_i here
      subst here
      rw [get] at at_
      cases at_
      rw [request.accountId] at account
      exact may status (account ▸ locked)
    · exact h a locked (.inl ⟨Q, mem_of_getElem? at_, account, status⟩)
  · rw [same] at working
    exact h a locked (.inr working)

lemma clear_step {l : Label} (sound : Sound auth s) (h : Clear s) (uninterrupted : Uninterrupted s l)
    (e : step auth s l = some s') : Clear s' := by
  cases step_inv e with
  | trigger live =>
    exact h.write (sound.recorded _) rfl rfl fun t => uninterrupted _ t rfl
  | answered | unapproved | held => exact h
  | resume | prepare | join | lost | resolved | locked | entered | applied | find | checkRefused
  | closeRefused | approve | evaluate | crash | ineligible | overtaken => exact h.move (by simp)
  | @insert w a key user role origin version db at_ inserted =>
    obtain ⟨rfl, -⟩ := insertParent_some inserted
    have inserted : Clear { s with db := { s.db with
        preflights := s.db.preflights ++ [newParent a key user role origin version] } } := by
      intro b locked awaits
      rcases awaits with ⟨Q, mem, account, status⟩ | working
      · rcases mem_append.1 mem with old | new
        · exact h b locked (.inl ⟨Q, old, account, status⟩)
        · rw [mem_singleton.1 new] at status
          cases status
      · exact h b locked (.inr working)
    exact inserted.move (by simp)
  | @fire w now req asks =>
    have written : Clear (s.write w req now) :=
      h.write (sound.recorded _) rfl rfl fun t => uninterrupted _ t asks
    exact written.move fun job closure at_ awaits => absurd awaits (after_not_awaiting at_)
  | @raiseCommitted w now req asks =>
    have written : Clear (s.write w req now) :=
      h.write (sound.recorded _) rfl rfl fun t => uninterrupted _ t asks
    exact written.move fun job closure at_ awaits => absurd awaits (after_not_awaiting at_)
  | raise => exact h.move fun job closure at_ awaits => absurd awaits (after_not_awaiting at_)
  | @check w job findings run db at_ ran written =>
    obtain ⟨P, get, rfl, -⟩ := writeParent_some written
    have amended : Clear { s with
        db := { s.db with preflights := Table.amend job.parentId run.record s.db.preflights }
        runs := s.runs ++ [runRecord s.db job run] } :=
      h.amend rfl rfl get checkRun_record_same (by simp [CheckRun.record])
    refine amended.move fun job' closure at' _ locked => ?_
    have locked : Locked s.db job'.accountId := locked
    -- only a run that passes leads there, and it has found the account in RECOVERY_PREFLIGHT
    have passed : run.verdict = .pass ∧ job' = job := by
      unfold finalize at at'
      split at at'
      · cases at'
      · rename_i verdict
        split at at'
        · cases at'
        · split at at' <;> cases at'
          exact ⟨not_not.1 verdict, rfl⟩
    obtain ⟨verdict, rfl⟩ := passed
    rw [CheckRun.verdict, ran] at verdict
    obtain ⟨⟨row, loaded, state⟩, -⟩ := runPreflightChecks_pass verdict
    rw [Locked, lossState, loadStateRow, loaded, Option.map_some, state] at locked
    cases locked
  | @close w job closure db at_ written =>
    obtain ⟨P, get, rfl, -⟩ := writeParent_some written
    obtain ⟨P', get', account, -⟩ := (sound.standing at_).1.preflight
    rw [get] at get'
    cases get'
    have amended : Clear { s with
        db := { s.db with preflights := Table.amend job.parentId closure.record s.db.preflights } } :=
      h.amend rfl rfl get closure_record_same fun awaits locked =>
        h P.accountId locked (.inr ⟨w, job, closure, at_, account.symm, awaits⟩)
    exact amended.move (by simp)

lemma clear_start : Clear (start db) := by
  intro a locked
  cases locked

/-! ## A lock can be recovered from -/

lemma requestRecovery_kept_out {key : String} {user : Nat} (fresh : loadByKey db a key = none)
    (e : requestRecovery auth db a key user = .done (.rejected .failed .activePreflightExists)) :
    ∃ (p : Nat) (P : RiskRecoveryPreflight), db.preflights[p]? = some P ∧ P.accountId = a ∧ active P.status = true := by
  have found : (loadActive db a).isSome = true := by
    simp only [requestRecovery, fresh] at e
    split at e
    · cases e
    · split at e
      · cases e
      · split at e
        · split at e
          · cases e
          · split at e
            · assumption
            · cases e
        · split at e
          · split at e
            · split at e <;> simp [outcomeFrom] at e
            · cases e
          · cases e
  obtain ⟨found, loaded⟩ := Option.isSome_iff_exists.1 found
  obtain ⟨get, same⟩ := findPreflight_some loaded
  simp only [decide_eq_true_eq] at same
  exact ⟨found.2, found.1, get, same.1, same.2⟩

/-- In a run without interruption, a fresh request, of an operator as of anyone, is kept out of a lock
    only by a preflight that can still advance the account. -/
theorem lock_is_recoverable {ls : List Label} {key : String} {user : Nat}
    (uninterrupted : (recovery auth).Meets Uninterrupted (start db) ls)
    (run : (recovery auth).run (start db) ls = some s) (locked : Locked s.db a) (fresh : loadByKey s.db a key = none)
    (refused : requestRecovery auth s.db a key user = .done (.rejected .failed .activePreflightExists)) :
    ∃ (p : Nat) (P : RiskRecoveryPreflight), s.db.preflights[p]? = some P ∧ P.accountId = a ∧
      (resumable P.status = true ∨ P.status = .authorizationRequired ∧ Entered s.db a P.expectedStateVersion) := by
  obtain ⟨-, clear⟩ : Sound auth s ∧ Clear s :=
    run_invariant (C := Uninterrupted) (I := fun s => Sound auth s ∧ Clear s)
      (fun inv c e => ⟨sound_step inv.1 e, clear_step inv.1 inv.2 c e⟩)
      ⟨sound_start, clear_start⟩ uninterrupted run
  obtain ⟨p, P, get, account, up⟩ := requestRecovery_kept_out fresh refused
  refine ⟨p, P, get, account, .inl ?_⟩
  cases status : P.status with
  | authorizationRequired =>
    exact absurd (.inl ⟨P, mem_of_getElem? get, account, status⟩) (clear a locked)
  | requested | running => rfl
  | _ =>
    rw [status] at up
    cases up

/-- A second request while the first has created its preflight and not yet advanced it. -/
theorem second_request_waits_for_first : ∃ s, (recovery ⟨[9], fun _ => 7⟩).run
      (start { accounts := Dict.empty.set 1 ⟨1, .paper, none, none⟩ })
      [.trigger 1 .dailyLossBreach {} 0, .request 0 1 "recover" 9, .create 0] = some s ∧
    requestRecovery ⟨[9], fun _ => 7⟩ s.db 1 "again" 9 =
      .done (.rejected .failed .activePreflightExists) ∧
    ∃ (p : Nat) (P : RiskRecoveryPreflight), s.db.preflights[p]? = some P ∧ P.accountId = 1 ∧
      (resumable P.status = true ∨ P.status = .authorizationRequired ∧
        Entered s.db 1 P.expectedStateVersion) := by
  obtain ⟨s, run⟩ : ∃ s, (recovery ⟨[9], fun _ => 7⟩).run
      (start { accounts := Dict.empty.set 1 ⟨1, .paper, none, none⟩ })
      [.trigger 1 .dailyLossBreach {} 0, .request 0 1 "recover" 9, .create 0] = some s :=
    Option.isSome_iff_exists.1 (by decide +kernel)
  have meets : (recovery ⟨[9], fun _ => 7⟩).Meets Uninterrupted
      (start { accounts := Dict.empty.set 1 ⟨1, .paper, none, none⟩ })
      [.trigger 1 .dailyLossBreach {} 0, .request 0 1 "recover" 9, .create 0] := by
    refine meets_cons.2 ⟨?_, fun _ _ => meets_of_forall ?_⟩
    · intro req t _ _ _ awaits
      rcases awaits with ⟨P, mem, -⟩ | ⟨w, job, closure, at_, -⟩
      · cases mem
      · cases at_
    · simp [Uninterrupted, Label.writes]
  have locked : (lossState s.db 1).any recoveryOrigin = true :=
    Machine.observe (f := fun s => (lossState s.db 1).any recoveryOrigin) run (by decide +kernel)
  have fresh : loadByKey s.db 1 "again" = none := Machine.observe (f := fun s => loadByKey s.db 1 "again")
    run (by decide +kernel)
  have refused : requestRecovery ⟨[9], fun _ => 7⟩ s.db 1 "again" 9 =
      .done (.rejected .failed .activePreflightExists) :=
    Machine.observe (f := fun s => requestRecovery ⟨[9], fun _ => 7⟩ s.db 1 "again" 9) run
      (by decide +kernel)
  exact ⟨s, run, refused, lock_is_recoverable meets run locked fresh refused⟩

/-- An integrity violation stops an account whose preflight awaits the approval of an operator; from
    then on the preflight keeps every request out and cannot be approved. -/
theorem violation_during_approval_deadlocks :
    ¬ ∀ (auth : Authority) (db : Db) (ls : List Label) (s : State),
      (recovery auth).run (start db) ls = some s → ∀ a user key, Locked s.db a →
        auth.actorRole user a = some .riskOperator → loadByKey s.db a key = none →
        requestRecovery auth s.db a key user = .done (.rejected .failed .activePreflightExists) →
        ∃ P ∈ s.db.preflights, P.accountId = a ∧ (resumable P.status = true ∨
          P.status = .authorizationRequired ∧ Entered s.db a P.expectedStateVersion) := by
  intro claim
  obtain ⟨s, run⟩ : ∃ s, (recovery ⟨[9], fun _ => 7⟩).run
      (start { accounts := Dict.empty.set 1 ⟨1, .paper, none, none⟩ })
      [.trigger 1 .integrityViolation { tripCause := some .brokerStateUncertain } 0,
        .request 0 1 "recover" 9, .create 0, .advance 0, .fire 0 1, .check 0 {}, .close 0,
        .trigger 1 .integrityViolation { tripCause := some .staleMarketData } 2] = some s :=
    Option.isSome_iff_exists.1 (by decide +kernel)
  have locked : (lossState s.db 1).any recoveryOrigin = true :=
    Machine.observe (f := fun s => (lossState s.db 1).any recoveryOrigin) run (by decide +kernel)
  obtain ⟨P, mem, -, advances⟩ := claim _ _ _ s run 1 9 "again" locked
    (by decide) (Machine.observe (f := fun s => loadByKey s.db 1 "again") run (by decide +kernel))
    (Machine.observe (f := fun s => requestRecovery ⟨[9], fun _ => 7⟩ s.db 1 "again" 9) run
      (by decide +kernel))
  have stuck : s.db.preflights.any (fun P => resumable P.status) = false :=
    Machine.observe (f := fun s => s.db.preflights.any (fun P => resumable P.status)) run
      (by decide +kernel)
  have state : lossState s.db 1 = some .integrityStop :=
    Machine.observe (f := fun s => lossState s.db 1) run (by decide +kernel)
  rcases advances with open_ | ⟨-, entered, -⟩
  · rw [any_eq_false] at stuck
    exact stuck P mem open_
  · rw [state] at entered
    cases entered

end Workbench.Recovery
