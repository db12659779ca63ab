import Workbench.Demand.System

/-!
# What holds of the demand plane

At every commit a consumer has at most one active lease of a profile, the union of a profile fits its cap, no
active lease of a revoked consumer is left once its leases were to be revoked, and every LIVE lease carries a
bound of at least twice the interval. The third holds as long as a registration is still what `publish` read when the
lease is admitted, and `expire_due` does not end while the leases of a revoked consumer wait to be revoked
(`demand_plane_sound`).
-/

namespace Workbench.Demand
open Workbench.Lib List Dict
variable {ids : List Nat} {leases : List Lease} {c : String} {lease : DemandLease} {bound : Option ℚ} {s : State}
   {k : Nat} {x : Task}

variable {config : DemandPlaneConfig} {home : Nat → Nat}

/-- What is to hold at every commit. -/
structure Sound (config : DemandPlaneConfig) (s : State) : Prop where
  single : ∀ {i j : Nat} {l l' : Lease}, s.leases[i]? = some l → s.leases[j]? = some l' →
    l.status = .active → l'.status = .active → l.consumerId = l'.consumerId → l.profile = l'.profile → i = j
  capped : ∀ profile, (forProfile s.leases profile s.clock).symbols.card ≤ ((config.planeCap profile).getD 0).toNat
  settled : ∀ l ∈ s.leases, l.status = .active → s.revoked l.consumerId → ∃ t, (t, l.consumerId) ∈ s.unsettled
  bounded : ∀ l ∈ s.leases, l.status = .active → l.profile = .live → s.clock < l.expiresAt →
    ∀ interval ∈ liveIntervalSeconds (forProfile s.leases .live s.clock).strictestBoundS config,
      ∃ bound ∈ l.bound, 2 * interval ≤ bound

/-- A lease is admitted while its consumer, if it was live when `publish` read it, is not revoked; and on LIVE the
    bound is still twice the floor as it is read back. -/
def Task.AdmitsLive (config : DemandPlaneConfig) (s : State) (policy : Option ℚ) : Task → Prop
  | .publishing _ c _ lease reg =>
    ((reg.elim False fun r => r.revokedAt = none) → ¬ s.revoked c) ∧
      (lease.profile = .live → ∀ bound ∈ policy, ∀ floor ∈ config.liveMinIntervalS,
        2 * floor ≤ bound → 2 * floor ≤ thousandths bound)
  | _ => True

/-- When an `expire_due` ends, no revocation that was there when it began still has leases to revoke. -/
def Task.EndsSettled (s : State) : Task → Prop
  | .revoking (.expiry before) [] =>
    ∀ e ∈ before, e ∈ s.unsettled → ∀ l ∈ s.leases, l.status = .active → l.consumerId ≠ e.2
  | _ => True

def Undisturbed (config : DemandPlaneConfig) (s : State) : Label → Prop
  | .accept t policy => (s.tasks t).AdmitsLive config s policy
  | .finish t => (s.tasks t).EndsSettled s
  | _ => True

instance (s : State) (c : String) : Decidable (s.revoked c) :=
  decidable_of_iff (((s.registrations.get c).bind (·.revokedAt)).isSome = true) (by
    unfold State.revoked
    cases s.registrations.get c <;> simp [Option.isSome_iff_ne_none])

instance (reg : Option Registration) : Decidable (reg.elim False fun r => r.revokedAt = none) :=
  decidable_of_iff ((reg.map fun r => r.revokedAt.isNone) = some true) (by cases reg <;> simp)

instance (s : State) (policy : Option ℚ) : ∀ x : Task, Decidable (x.AdmitsLive config s policy)
  | .publishing _ _ _ _ _ => inferInstanceAs (Decidable (_ ∧ _))
  | .idle | .withdrawing _ | .applying _ _ _ | .expiring _ _ _ | .revoking _ _ | .revokingRead _ _ _ _
  | .done | .dead =>
    isTrue trivial

instance (s : State) : ∀ x : Task, Decidable (x.EndsSettled s)
  | .revoking (.expiry before) [] =>
    inferInstanceAs (Decidable (∀ e ∈ before, e ∈ s.unsettled → ∀ l ∈ s.leases, l.status = .active → l.consumerId ≠
      e.2))
  | .revoking (.expiry _) (_ :: _) | .revoking .apply _ | .revoking .runtime _ | .publishing _ _ _ _ _
  | .idle | .withdrawing _ | .applying _ _ _ | .expiring _ _ _ | .revokingRead _ _ _ _ | .done | .dead => isTrue trivial

instance (s : State) : ∀ l, Decidable (Undisturbed config s l)
  | .accept t policy => inferInstanceAs (Decidable ((s.tasks t).AdmitsLive config s policy))
  | .finish t => inferInstanceAs (Decidable ((s.tasks t).EndsSettled s))
  | .tick _ | .grant _ _ | .publish _ _ _ _ | .withdraw _ _ _ _ | .withdrawn _ | .revoke _ _ _ | .revokeForStrategy _ _
  | .applyArtifact _ _ | .applied _ | .expireDue _ _ | .expired _ | .readLeases _ | .revokeLeases _ | .crash _ =>
    isTrue trivial

/-! ## The tables -/

lemma getElem?_setStatus {status : LeaseStatus} {i : Nat} :
    (setStatus ids status leases)[i]? = leases[i]?.map fun l => if i ∈ ids then { l with status } else l := by
  rw [setStatus, getElem?_mapIdx]

lemma active_of_setStatus {status : LeaseStatus} {i : Nat} {l : Lease}
    (other : status ≠ .active) (get : (setStatus ids status leases)[i]? = some l) (active : l.status = .active) :
    leases[i]? = some l ∧ i ∉ ids := by
  rw [getElem?_setStatus] at get
  obtain ⟨l', get', eq⟩ := Option.map_eq_some_iff.1 get
  by_cases mem : i ∈ ids
  · rw [if_pos mem] at eq
    subst eq
    exact absurd active other
  · rw [if_neg mem] at eq
    subst eq
    exact ⟨get', mem⟩

lemma mem_activeIds {p : Lease → Bool} {i : Nat} :
    i ∈ activeIds leases p ↔ ∃ l, leases[i]? = some l ∧ l.status = .active ∧ p l = true := by
  simp only [activeIds, mem_map, mem_filter, Bool.decide_and, Bool.and_eq_true, decide_eq_true_eq,
    Bool.decide_eq_true]
  constructor
  · rintro ⟨⟨l, j⟩, ⟨mem, active, holds⟩, rfl⟩
    exact ⟨l, mem_zipIdx_iff_getElem?.1 mem, active, holds⟩
  · rintro ⟨l, get, active, holds⟩
    exact ⟨(l, i), ⟨mem_zipIdx_iff_getElem?.2 get, active, holds⟩, rfl⟩

/-- The active leases of a table are in the other, in the same places. -/
def Shrinks (leases leases' : List Lease) : Prop :=
  ∀ {i : Nat} {l : Lease}, leases'[i]? = some l → l.status = .active → leases[i]? = some l

lemma shrinks_setStatus {status : LeaseStatus} (other : status ≠ .active) :
    Shrinks leases (setStatus ids status leases) :=
  fun get active => (active_of_setStatus other get active).1

lemma active_of_supersede {now : Int} {i : Nat}
    {l : Lease} (get : (supersede leases c lease bound now)[i]? = some l) (active : l.status = .active) :
    (leases[i]? = some l ∧ ¬ (l.consumerId = c ∧ l.profile = lease.profile)) ∨
      (i = leases.length ∧ l.consumerId = c ∧ l.profile = lease.profile ∧ l.symbols = lease.symbols ∧
        l.maxAgeS = bound ∧ l.expiresAt = lease.expiresAt) := by
  have length : ∀ ids, (setStatus ids .superseded leases).length = leases.length := fun ids => length_mapIdx
  rw [supersede] at get
  by_cases old : i < leases.length
  · rw [getElem?_append_left (by rw [length]; exact old)] at get
    obtain ⟨before, kept⟩ := active_of_setStatus (by decide) get active
    rw [mem_activeIds] at kept
    refine Or.inl ⟨before, fun mine => kept ⟨l, before, active, ?_⟩⟩
    simpa using mine
  · rw [getElem?_append_right (by rw [length]; omega), length] at get
    have place : i - leases.length = 0 := by
      by_contra later
      rw [getElem?_eq_none (by simp; omega)] at get
      cases get
    rw [place] at get
    cases get
    exact Or.inr ⟨by omega, rfl, rfl, rfl, rfl, rfl⟩

/-! ## The union -/

lemma mem_symbols {profile : SipProfile} {now : Int} {x : String} :
    x ∈ (forProfile leases profile now).symbols ↔ ∃ (i : Nat) (l : Lease), leases[i]? = some l ∧
      l.status = .active ∧ l.profile = profile ∧ now < l.expiresAt ∧ x ∈ l.symbols := by
  simp only [forProfile, unexpired, mem_toFinset, mem_flatMap, mem_filter, decide_eq_true_eq]
  constructor
  · rintro ⟨l, ⟨mem, profile, active, unexpired⟩, symbol⟩
    obtain ⟨i, get⟩ := mem_iff_getElem?.1 mem
    exact ⟨i, l, get, active, profile, unexpired, symbol⟩
  · rintro ⟨i, l, get, active, profile, unexpired, symbol⟩
    exact ⟨l, ⟨mem_of_getElem? get, profile, active, unexpired⟩, symbol⟩

lemma symbols_subset {leases' : List Lease} {now now' : Int} {profile : SipProfile}
    (shrinks : Shrinks leases leases') (le : now ≤ now') :
    (forProfile leases' profile now').symbols ⊆ (forProfile leases profile now).symbols := by
  intro x mem
  obtain ⟨i, l, get, active, profile, unexpired, mem⟩ := mem_symbols.1 mem
  exact mem_symbols.2 ⟨i, l, shrinks get active, active, profile, by omega, mem⟩

lemma symbols_supersede_subset {now clock : Int} (le : now ≤ clock) :
    (forProfile (supersede leases c lease bound now) lease.profile clock).symbols ⊆
      activeSymbolsExcluding leases lease.profile c now ∪ lease.symbols.toFinset := by
  intro x mem
  obtain ⟨i, l, get, active, profile, unexpired, mem⟩ := mem_symbols.1 mem
  rw [Finset.mem_union]
  rcases active_of_supersede get active with ⟨old, other⟩ | ⟨-, -, -, symbols, -⟩
  · left
    simp only [activeSymbolsExcluding, mem_toFinset, mem_flatMap, mem_filter, decide_eq_true_eq]
    exact ⟨l, ⟨mem_of_getElem? old, profile, active, fun mine => other ⟨mine, profile⟩, by omega⟩, mem⟩
  · right
    rwa [mem_toFinset, ← symbols]

lemma symbols_supersede_other {now clock : Int} {profile : SipProfile} (other : profile ≠ lease.profile) :
    (forProfile (supersede leases c lease bound now) profile clock).symbols ⊆
      (forProfile leases profile clock).symbols := by
  intro x mem
  obtain ⟨i, l, get, active, same, unexpired, mem⟩ := mem_symbols.1 mem
  rcases active_of_supersede get active with ⟨old, -⟩ | ⟨-, -, mine, -⟩
  · exact mem_symbols.2 ⟨i, l, old, active, same, unexpired, mem⟩
  · exact absurd (same.symm.trans mine) other

/-! ## Admission -/

/-- What `_validate` has checked of a lease that it lets through. -/
structure Admitted (config : DemandPlaneConfig) (leases : List Lease) (c : String) (reg : Option Registration)
    (lease : DemandLease) (policy : Option ℚ) (now : Int) (bound : Option ℚ) : Prop where
  registered : ∃ r, reg = some r ∧ r.revokedAt = none
  symbols : lease.symbols ≠ []
  room : ∃ cap, config.planeCap lease.profile = some cap ∧
    (activeSymbolsExcluding leases lease.profile c now ∪ lease.symbols.toFinset).card ≤ cap
  bound : lease.profile = .live → ∃ b floor, policy = some b ∧ bound = some b ∧
    config.liveMinIntervalS = some floor ∧ 2 * floor ≤ b

lemma ite_error {α ε : Type*} {c : Prop} [Decidable c] {e : ε} {x : Except ε α} {a : α} :
    (if c then .error e else x) = .ok a ↔ ¬ c ∧ x = .ok a := by
  by_cases h : c
  · rw [if_pos h]
    exact ⟨nofun, fun eq => absurd h eq.1⟩
  · rw [if_neg h]
    exact ⟨fun eq => ⟨h, eq⟩, fun eq => eq.2⟩

lemma room_of_capDefect {reg : Registration} {now : Int} (fits : capDefect config leases c reg lease now = none) :
    ∃ cap, config.planeCap lease.profile = some cap ∧
      (activeSymbolsExcluding leases lease.profile c now ∪ lease.symbols.toFinset).card ≤ cap := by
  by_cases full : (if lease.profile = .live then reg.symbolCapLive else reg.symbolCapEod) < lease.symbols.length
  · rw [capDefect, if_pos full] at fits
    cases fits
  · rw [capDefect, if_neg full] at fits
    cases planeCap : config.planeCap lease.profile with
    | none =>
      rw [planeCap] at fits
      cases fits
    | some cap =>
      rw [planeCap] at fits
      refine ⟨cap, rfl, not_lt.1 fun exceeded => ?_⟩
      simp only [if_pos exceeded] at fits
      cases fits

lemma bound_of_boundOf {policy : Option ℚ} (ok : boundOf config lease policy = .ok bound)
    (live : lease.profile = .live) : ∃ b floor, policy = some b ∧ bound = some b ∧
      config.liveMinIntervalS = some floor ∧ 2 * floor ≤ b := by
  unfold boundOf at ok
  rw [live] at ok
  cases policy with
  | none => cases ok
  | some b =>
    obtain ⟨-, ok⟩ := ite_error.1 ok
    cases minimum : config.liveMinIntervalS with
    | none =>
      rw [minimum] at ok
      cases ok
    | some floor =>
      rw [minimum] at ok
      obtain ⟨le, ok⟩ := ite_error.1 ok
      cases ok
      exact ⟨b, floor, rfl, rfl, rfl, not_lt.1 le⟩

lemma admitted_of_validate {valid : Bool} {reg : Option Registration} {policy : Option ℚ} {now : Int}
    (ok : validate config leases c valid reg lease policy now = .ok bound) :
    Admitted config leases c reg lease policy now bound := by
  obtain ⟨-, ok⟩ := ite_error.1 ok
  cases reg with
  | none => cases ok
  | some r =>
    obtain ⟨live, ok⟩ := ite_error.1 ok
    obtain ⟨-, ok⟩ := ite_error.1 ok
    obtain ⟨symbols, ok⟩ := ite_error.1 ok
    obtain ⟨-, ok⟩ := ite_error.1 ok
    split at ok
    · cases ok
    · split at ok
      · cases ok
      · obtain ⟨-, ok⟩ := ite_error.1 ok
        obtain ⟨-, ok⟩ := ite_error.1 ok
        split at ok
        · cases ok
        · rename_i bounded
          split at ok
          · cases ok
          · rename_i fits
            cases ok
            exact ⟨⟨r, rfl, not_not.1 live⟩, symbols, room_of_capDefect fits, bound_of_boundOf bounded⟩

/-! ## The bound -/

lemma get_addBound_le {bounds : Dict String ℚ} {es : List (String × ℚ)} {x : String} {b : ℚ}
    (get : bounds.get x = some b) : ∃ b' ≤ b, (es.foldl addBound bounds).get x = some b' := by
  induction es generalizing bounds b with
  | nil => exact ⟨b, le_rfl, get⟩
  | cons e es ih =>
    rw [foldl_cons]
    by_cases mine : x = e.1
    · have step : (addBound bounds e).get x = some (min e.2 b) := by
        rw [addBound, ← mine, get, get_set_self]
        rfl
      obtain ⟨b', le, found⟩ := ih step
      exact ⟨b', le.trans (min_le_right _ _), found⟩
    · exact ih (by rw [addBound, get_set_of_ne mine, get])

lemma bounds_le {bounds : Dict String ℚ} {es : List (String × ℚ)} {e : String × ℚ} (mem : e ∈ es) :
    ∃ b ≤ e.2, (es.foldl addBound bounds).get e.1 = some b := by
  induction es generalizing bounds with
  | nil => cases mem
  | cons e' es ih =>
    rw [foldl_cons]
    rcases mem_cons.1 mem with rfl | mem
    · have step : (addBound bounds e).get e.1 = some (min e.2 ((bounds.get e.1).getD e.2)) := by
        rw [addBound, get_set_self]
      obtain ⟨b', le, found⟩ := @get_addBound_le _ es _ _ step
      exact ⟨b', le.trans (min_le_left _ _), found⟩
    · exact ih mem

lemma strictest_le {now : Int} {l : Lease} {b strictest : ℚ} (mem : l ∈ leases)
    (active : l.status = .active) (live : l.profile = .live) (unexpired : now < l.expiresAt)
      (some_symbol : l.symbols ≠ [])
    (bound : l.bound = some b) (eq : (forProfile leases .live now).strictestBoundS = some strictest) :
    strictest ≤ b := by
  obtain ⟨x, symbol⟩ := exists_mem_of_ne_nil _ some_symbol
  rw [forProfile, if_pos rfl] at eq
  have listed : (x, b) ∈ (Demand.unexpired leases .live now).flatMap fun l =>
      l.symbols.filterMap fun sym => l.bound.map (sym, ·) := by
    refine mem_flatMap.2 ⟨l, ?_, ?_⟩
    · simp [Demand.unexpired, mem, active, live, unexpired]
    · exact mem_filterMap.2 ⟨x, symbol, by rw [bound]; rfl⟩
  obtain ⟨b', le, found⟩ := @bounds_le .empty _ _ listed
  exact ((min?_eq_some_iff.1 eq).2 _ (mem_values_of_get found)).trans le

/-! ## The invariant -/

/-- A revocation still has a lease before it: it will read the leases of the consumer, or it has read this one. -/
def Task.Covers (c : String) (i : Nat) : Task → Prop
  | .dead => True
  | .revoking .apply consumers => c ∈ consumers
  | .revokingRead .apply ids c' rest => (c' = c ∧ i ∈ ids) ∨ c ∈ rest
  | _ => False

/-- The invariant: what holds of the tables, and of the tasks. -/
structure Inv (config : DemandPlaneConfig) (s : State) : Prop where
  single : ∀ {i j : Nat} {l l' : Lease}, s.leases[i]? = some l → s.leases[j]? = some l' →
    l.status = .active → l'.status = .active → l.consumerId = l'.consumerId → l.profile = l'.profile → i = j
  capped : ∀ profile, (forProfile s.leases profile s.clock).symbols.card ≤ ((config.planeCap profile).getD 0).toNat
  covered : ∀ {i : Nat} {l : Lease}, s.leases[i]? = some l → l.status = .active → s.revoked l.consumerId →
    ∃ t, (t, l.consumerId) ∈ s.unsettled ∧ (s.tasks t).Covers l.consumerId i
  floors : ∀ {i : Nat} {l : Lease}, s.leases[i]? = some l → l.status = .active → l.profile = .live →
    l.symbols ≠ [] ∧ ∃ b floor, l.bound = some b ∧ config.liveMinIntervalS = some floor ∧ 2 * floor ≤ b
  past : ∀ {t now c nonce lease reg}, s.tasks t = .publishing now c nonce lease reg → now ≤ s.clock

lemma Inv.sound (inv : Inv config s) : Sound config s where
  single := inv.single
  capped := inv.capped
  settled := by
    intro l mem active revoked
    obtain ⟨i, get⟩ := mem_iff_getElem?.1 mem
    obtain ⟨t, waiting, -⟩ := inv.covered get active revoked
    exact ⟨t, waiting⟩
  bounded := by
    intro l mem active live unexpired interval eq
    obtain ⟨i, get⟩ := mem_iff_getElem?.1 mem
    obtain ⟨some_symbol, b, floor, bound, minimum, twice⟩ := inv.floors get active live
    refine ⟨b, bound, ?_⟩
    cases strict : (forProfile s.leases .live s.clock).strictestBoundS with
    | none =>
      rw [strict] at eq
      cases eq
    | some strictest =>
      have le := strictest_le mem active live unexpired some_symbol bound strict
      cases maximum : config.liveMaxIntervalS with
      | none =>
        simp only [strict, liveIntervalSeconds, minimum, maximum] at eq
        cases eq
      | some ceiling =>
        simp only [strict, liveIntervalSeconds, minimum, maximum] at eq
        cases eq
        -- at the floor the lease was admitted, at half the strictest bound it is in the union
        have half := min_le_right ceiling (strictest / 2)
        rcases max_choice floor (min ceiling (strictest / 2)) with choice | choice
        · rw [choice]
          exact twice
        · rw [choice]
          linarith

lemma inv_start : Inv config {} where
  single := by
    intro i j l l' get
    cases get
  capped := by
    intro profile
    have nothing : (forProfile [] profile 0).symbols = ∅ := rfl
    show (forProfile [] profile 0).symbols.card ≤ _
    rw [nothing]
    exact Nat.zero_le _
  covered := by
    intro i l get
    cases get
  floors := by
    intro i l get
    cases get
  past := by
    intro t now c nonce lease reg task
    cases task

lemma Inv.of_shrinks {s' : State} (inv : Inv config s) (shrinks : Shrinks s.leases s'.leases)
    (clock : s.clock ≤ s'.clock)
    (covered : ∀ {i : Nat} {l : Lease}, s'.leases[i]? = some l → l.status = .active → s'.revoked l.consumerId →
      ∃ t, (t, l.consumerId) ∈ s'.unsettled ∧ (s'.tasks t).Covers l.consumerId i)
    (past : ∀ {t now c nonce lease reg}, s'.tasks t = .publishing now c nonce lease reg → now ≤ s'.clock) :
    Inv config s' where
  single get get' active active' := inv.single (shrinks get active) (shrinks get' active') active active'
  capped profile := (Finset.card_le_card (symbols_subset shrinks clock)).trans (inv.capped profile)
  covered := covered
  floors get active := inv.floors (shrinks get active) active
  past := past

lemma tasks_move {k' : Nat} : (s.move k x).tasks k' = if k' = k then x else s.tasks k' :=
  Function.update_apply _ _ _ _

lemma Inv.goesOn (inv : Inv config s) (shrinks : Shrinks s.leases leases)
    (covers : ∀ {i : Nat} {l : Lease}, leases[i]? = some l → l.status = .active →
      (s.tasks k).Covers l.consumerId i → x.Covers l.consumerId i)
    (past : ∀ {now c nonce lease reg}, x = .publishing now c nonce lease reg → now ≤ s.clock) :
    Inv config { s.move k x with leases := leases } := by
  apply Inv.of_shrinks inv
  · exact shrinks
  · exact le_rfl
  · intro i l get active revoked
    obtain ⟨k', waiting, covered⟩ := inv.covered (shrinks get active) active revoked
    refine ⟨k', waiting, ?_⟩
    show Task.Covers _ _ ((s.move k x).tasks k')
    rw [tasks_move]
    by_cases same : k' = k
    · subst same
      rw [if_pos rfl]
      exact covers get active covered
    · rw [if_neg same]
      exact covered
  · intro k' now c nonce lease reg task
    have task : (s.move k x).tasks k' = .publishing now c nonce lease reg := task
    rw [tasks_move] at task
    by_cases same : k' = k
    · rw [if_pos same] at task
      exact past task
    · rw [if_neg same] at task
      exact inv.past task

lemma Inv.move (inv : Inv config s) (covers : ∀ {c i}, (s.tasks k).Covers c i → x.Covers c i)
    (past : ∀ {now c nonce lease reg}, x = .publishing now c nonce lease reg → now ≤ s.clock) :
    Inv config (s.move k x) :=
  inv.goesOn (fun get _ => get) (fun _ _ => covers) past

lemma Inv.ended (inv : Inv config s) {status : LeaseStatus}
    (other : status ≠ .active) (covers : ∀ {c i}, (s.tasks k).Covers c i → i ∉ ids → x.Covers c i)
    (past : ∀ {now c nonce lease reg}, x = .publishing now c nonce lease reg → now ≤ s.clock) :
    Inv config { s.move k x with leases := setStatus ids status s.leases } :=
  inv.goesOn (shrinks_setStatus other)
    (fun get active covered => covers covered (active_of_setStatus other get active).2) past

/-! ## The steps -/

variable {s t : State}

lemma Inv.admitted (inv : Inv config s) {now : Int} {nonce : Nat}
    {reg : Option Registration} {policy : Option ℚ} (task : s.tasks k = .publishing now c nonce lease reg)
    (ok : Admitted config s.leases c reg lease policy now bound) (quiet : Undisturbed config s (.accept k policy)) :
    Inv config { s.move k .done with leases := supersede s.leases c lease bound now } := by
  have le := inv.past task
  have quiet : Task.AdmitsLive config s policy (s.tasks k) := quiet
  rw [task] at quiet
  obtain ⟨live, kept⟩ := quiet
  have moved : Inv config (s.move k .done) := inv.move (by rw [task]; exact False.elim) (fun eq => by cases eq)
  constructor
  · intro i j l l' get get' active active' consumer profile
    rcases active_of_supersede get active with ⟨old, other⟩ | ⟨new, mine, same, -⟩
    · rcases active_of_supersede get' active' with ⟨old', -⟩ | ⟨-, mine', same', -⟩
      · exact inv.single old old' active active' consumer profile
      · exact absurd ⟨consumer.trans mine', profile.trans same'⟩ other
    · rcases active_of_supersede get' active' with ⟨-, other'⟩ | ⟨new', -⟩
      · exact absurd ⟨consumer.symm.trans mine, profile.symm.trans same⟩ other'
      · exact new.trans new'.symm
  · intro profile
    by_cases same : profile = lease.profile
    · subst same
      obtain ⟨cap, planeCap, room⟩ := ok.room
      have fewer := Finset.card_le_card (@symbols_supersede_subset s.leases c lease bound now s.clock le)
      rw [planeCap]
      show (forProfile (supersede s.leases c lease bound now) lease.profile s.clock).symbols.card ≤ cap.toNat
      omega
    · exact (Finset.card_le_card (symbols_supersede_other same)).trans (inv.capped profile)
  · intro i l get active revoked
    rcases active_of_supersede get active with ⟨old, -⟩ | ⟨-, mine, -⟩
    · exact moved.covered old active revoked
    · -- the consumer of the new lease is not revoked
      rw [mine] at revoked
      obtain ⟨r, rfl, notRevoked⟩ := ok.registered
      exact absurd revoked (live notRevoked)
  · intro i l get active onLive
    rcases active_of_supersede get active with ⟨old, -⟩ | ⟨-, -, same, symbols, age, -⟩
    · exact inv.floors old active onLive
    · obtain ⟨b, floor, policyBound, rfl, minimum, twice⟩ := ok.bound (same.symm.trans onLive)
      refine ⟨symbols ▸ ok.symbols, thousandths b, floor, ?_, minimum, ?_⟩
      · rw [Lease.bound, age]
        rfl
      · exact kept (same.symm.trans onLive) b policyBound floor minimum twice
  · exact moved.past

/-! ### Artifacts -/

lemma get_applyEntry {seen regs regs' : Dict String Registration} {e : Entry} (ok : applyEntry seen regs e = some regs')
    {reg : Registration} (get : regs'.get c = some reg) (revoked : reg.revokedAt ≠ none) :
    ∃ reg', regs.get c = some reg' ∧ reg'.revokedAt ≠ none := by
  unfold applyEntry at ok
  split at ok
  · cases ok
    by_cases mine : c = e.consumerId
    · subst mine
      rw [get_set_self] at get
      cases get
      exact absurd rfl revoked
    · rw [get_set_of_ne mine] at get
      exact ⟨reg, get, revoked⟩
  · rename_i was now seen now'
    cases ok
    by_cases mine : c = e.consumerId
    · subst mine
      rw [get_set_self] at get
      cases get
      refine ⟨now, now', ?_⟩
      -- the column is written only to clear it
      intro clear
      apply revoked
      show writeColumn was.revokedAt none now.revokedAt = none
      rw [writeColumn]
      split
      · exact clear
      · rfl
    · rw [get_set_of_ne mine] at get
      exact ⟨reg, get, revoked⟩
  · cases ok

lemma get_revokeAt {now : Int} {regs : Dict String Registration} {consumers : List String}
    {reg : Registration} (get : (consumers.foldl (revokeAt now) regs).get c = some reg) (revoked : reg.revokedAt ≠
      none) : c ∈ consumers ∨ ∃ reg', regs.get c = some reg' ∧ reg'.revokedAt ≠ none := by
  induction consumers generalizing regs with
  | nil => exact Or.inr ⟨reg, get, revoked⟩
  | cons c' consumers ih =>
    rcases ih get with mem | ⟨reg', get', revoked'⟩
    · exact Or.inl (mem_cons_of_mem _ mem)
    · by_cases mine : c = c'
      · exact Or.inl (mine ▸ mem_cons_self)
      · right
        unfold revokeAt at get'
        split at get'
        · exact ⟨reg', get', revoked'⟩
        · rw [get_set_of_ne mine] at get'
          exact ⟨reg', get', revoked'⟩

lemma revoked_applyArtifact {seen regs regs' : Dict String Registration} {entries : List Entry} {now : Int}
    (ok : applyArtifact seen regs entries now = some regs') {reg : Registration}
    (get : regs'.get c = some reg) (revoked : reg.revokedAt ≠ none) :
    c ∈ unlisted seen entries ∨ ∃ reg', regs.get c = some reg' ∧ reg'.revokedAt ≠ none := by
  obtain ⟨mid, folded, rfl⟩ := Option.map_eq_some_iff.1 ok
  rcases get_revokeAt get revoked with mem | ⟨reg', get', revoked'⟩
  · exact Or.inl mem
  · right
    clear get ok
    generalize entries = es at folded
    induction es generalizing regs with
    | nil =>
      cases folded
      exact ⟨reg', get', revoked'⟩
    | cons e es ih =>
      rw [foldlM_cons] at folded
      obtain ⟨regs₁, first, rest⟩ := Option.bind_eq_some_iff.1 folded
      obtain ⟨reg₁, get₁, revoked₁⟩ := ih rest
      exact get_applyEntry first get₁ revoked₁

lemma Inv.applied (inv : Inv config s) {now : Int} {entries : List Entry} {seen regs : Dict String Registration}
    {grants : Nat → Dict String Nat} (task : s.tasks k = .applying now entries seen)
    (ok : applyArtifact seen s.registrations entries now = some regs) :
    Inv config { s.move k (.revoking .apply (unlisted seen entries)) with
      registrations := regs
      grants := grants
      unsettled := s.unsettled ++ (unlisted seen entries).map (k, ·) } := by
  have moved : Inv config (s.move k (.revoking .apply (unlisted seen entries))) :=
    inv.move (by rw [task]; exact False.elim) (fun eq => by cases eq)
  refine ⟨moved.single, moved.capped, ?_, moved.floors, moved.past⟩
  intro i l get active revoked
  obtain ⟨reg, found, isRevoked⟩ := revoked
  rcases revoked_applyArtifact ok found isRevoked with mem | before
  · refine ⟨k, mem_append_right _ (mem_map_of_mem mem), ?_⟩
    show Task.Covers _ _ ((s.move k _).tasks k)
    rw [tasks_move, if_pos rfl]
    exact mem
  · obtain ⟨k', waiting, covers⟩ := moved.covered get active before
    exact ⟨k', mem_append_left _ waiting, covers⟩

/-! ### Every step -/

lemma Inv.revokedLeases (inv : Inv config s) {origin : Origin}
    {rest : List String} (task : s.tasks k = .revokingRead origin ids c rest) :
    Inv config { s.move k (.revoking origin rest) with
      leases := setStatus ids .revoked s.leases
      unsettled := if origin = .apply ∧ c ∉ rest then s.unsettled.filter (· ≠ (k, c)) else s.unsettled } := by
  have ended : Inv config { s.move k (.revoking origin rest) with leases := setStatus ids .revoked s.leases } := by
    apply inv.ended (by decide)
    · intro c' i covers kept
      rw [task] at covers
      cases origin with
      | apply =>
        rcases covers with ⟨-, mem⟩ | mem
        · exact absurd mem kept
        · exact mem
      | runtime | expiry _ => exact covers.elim
    · intro now c' nonce lease reg eq
      cases eq
  refine ⟨ended.single, ended.capped, ?_, ended.floors, ended.past⟩
  intro i l get active revoked
  obtain ⟨k', waiting, covers⟩ := ended.covered get active revoked
  refine ⟨k', ?_, covers⟩
  show (k', l.consumerId) ∈ if origin = .apply ∧ c ∉ rest then s.unsettled.filter (· ≠ (k, c)) else s.unsettled
  split
  · rename_i own
    apply mem_filter.2 ⟨waiting, ?_⟩
    simp only [ne_eq, Prod.mk.injEq, not_and, decide_eq_true_eq]
    -- what this task still covers is not the consumer it is done with
    rintro rfl rfl
    have covers : Task.Covers l.consumerId i ((s.move k' (.revoking origin rest)).tasks k') := covers
    rw [tasks_move, if_pos rfl, own.1] at covers
    exact own.2 covers
  · exact waiting

lemma Inv.finished (inv : Inv config s) {before : List (Nat × String)}
    (task : s.tasks k = .revoking (.expiry before) []) (quiet : Undisturbed config s (.finish k)) :
    Inv config { s.move k .done with unsettled := s.unsettled.filter (· ∉ before) } := by
  have settled : Task.EndsSettled s (s.tasks k) := quiet
  rw [task] at settled
  have moved : Inv config (s.move k .done) := inv.move (by rw [task]; exact False.elim) (fun eq => by cases eq)
  refine ⟨moved.single, moved.capped, ?_, moved.floors, moved.past⟩
  intro i l get active revoked
  obtain ⟨k', waiting, covers⟩ := moved.covered get active revoked
  refine ⟨k', mem_filter.2 ⟨waiting, decide_eq_true fun mem => ?_⟩, covers⟩
  exact settled _ mem waiting l (mem_of_getElem? get) active rfl

lemma Inv.crashed (inv : Inv config s) {p : Nat} {grants : Nat → Dict String Nat} :
    Inv config { s with
      tasks := fun k => if home k = p ∧ (s.tasks k).running then .dead else s.tasks k
      grants := grants } := by
  refine ⟨inv.single, inv.capped, ?_, inv.floors, ?_⟩
  · intro i l get active revoked
    obtain ⟨k, waiting, covers⟩ := inv.covered get active revoked
    refine ⟨k, waiting, ?_⟩
    show Task.Covers _ _ (if home k = p ∧ (s.tasks k).running then .dead else s.tasks k)
    split
    · trivial
    · exact covers
  · intro k now c nonce lease reg task
    have task : (if home k = p ∧ (s.tasks k).running then .dead else s.tasks k) =
      .publishing now c nonce lease reg := task
    split at task
    · cases task
    · exact inv.past task

lemma Inv.moveOn (inv : Inv config s) {y : Task} (task : s.tasks k = y)
    (free : ∀ {c i}, ¬ y.Covers c i) (other : ∀ {now c nonce lease reg}, x ≠ .publishing now c nonce lease reg) :
    Inv config (s.move k x) :=
  inv.move (fun covers => absurd (task ▸ covers) free) (fun eq => absurd eq other)

lemma Inv.endedBy (inv : Inv config s) {y : Task} {status : LeaseStatus}
    (task : s.tasks k = y) (free : ∀ {c i}, ¬ y.Covers c i) (notActive : status ≠ .active)
    (other : ∀ {now c nonce lease reg}, x ≠ .publishing now c nonce lease reg) :
    Inv config { s.move k x with leases := setStatus ids status s.leases } :=
  inv.ended notActive (fun covers => absurd (task ▸ covers) free) (fun eq => absurd eq other)

lemma Inv.readLeases (inv : Inv config s) {origin : Origin} {rest : List String}
    (task : s.tasks k = .revoking origin (c :: rest)) :
    Inv config (s.move k (.revokingRead origin (activeIds s.leases fun l => l.consumerId = c) c rest)) := by
  apply inv.goesOn (fun get _ => get)
  · intro i l get active covers
    rw [task] at covers
    cases origin with
    | apply =>
      rcases mem_cons.1 covers with mine | mem
      · left
        exact ⟨mine.symm, mem_activeIds.2 ⟨l, get, active, decide_eq_true mine⟩⟩
      · exact Or.inr mem
    | runtime | expiry _ => exact covers.elim
  · intro now c nonce lease reg eq
    cases eq

lemma not_covers_nil {origin : Origin} {i : Nat} : ¬ (Task.revoking origin []).Covers c i := by
  cases origin with
  | apply => exact not_mem_nil
  | runtime | expiry _ => exact id

lemma Inv.step {l : Label} (inv : Inv config s) (quiet : Undisturbed config s l)
    (st : (plane config home).step s l = some t) : Inv config t := by
  cases l with
  | tick span =>
    cases st
    have later : s.clock ≤ s.clock + span := by omega
    apply Inv.of_shrinks inv
    · exact fun get _ => get
    · exact later
    · exact inv.covered
    · exact fun task => (inv.past task).trans later
  | grant p c =>
    simp only [plane] at st
    split at st
    · cases st
    · split at st
      · cases st
      · split at st
        · cases st
          exact inv
        · cases st
          exact ⟨inv.single, inv.capped, inv.covered, inv.floors, inv.past⟩
  | publish k c nonce lease =>
    simp only [plane] at st
    split at st
    · rename_i task
      cases st
      apply inv.move
      · intro c' i covers
        rw [task] at covers
        exact covers.elim
      · intro now c nonce lease reg eq
        cases eq
        exact le_rfl
    · cases st
  | accept k policy =>
    simp only [plane] at st
    split at st
    · rename_i task
      split at st
      · cases st
        exact inv.moveOn task id (by simp)
      · rename_i bound ok
        cases st
        exact inv.admitted task (admitted_of_validate ok) quiet
    · cases st
  | withdraw k c nonce i =>
    simp only [plane] at st
    split at st
    · rename_i task
      split at st
      · split at st
        · cases st
          exact inv.moveOn task id (by simp)
        · cases st
          exact inv.moveOn task id (by simp)
      · cases st
        exact inv.moveOn task id (by simp)
    · cases st
  | withdrawn k =>
    simp only [plane] at st
    split at st
    · rename_i task
      cases st
      exact inv.endedBy task id (by decide) (by simp)
    · cases st
  | revoke k c nonce =>
    simp only [plane] at st
    split at st
    · rename_i task
      cases st
      apply inv.moveOn task id
      intro now c nonce lease reg eq
      split at eq <;> cases eq
    · cases st
  | revokeForStrategy k i =>
    simp only [plane] at st
    split at st
    · rename_i task
      cases st
      exact inv.moveOn task id (by simp)
    · cases st
  | applyArtifact k entries =>
    simp only [plane] at st
    split at st
    · rename_i task
      cases st
      exact inv.moveOn task id (by simp)
    · cases st
  | applied k =>
    simp only [plane] at st
    split at st
    · rename_i task
      split at st
      · cases st
        exact inv.moveOn task id (by simp)
      · rename_i regs ok
        cases st
        exact inv.applied task ok
    · cases st
  | expireDue k runnable =>
    simp only [plane] at st
    split at st
    · rename_i task
      cases st
      exact inv.moveOn task id (by simp)
    · cases st
  | expired k =>
    simp only [plane] at st
    split at st
    · rename_i task
      cases st
      exact inv.endedBy task id (by decide) (by simp)
    · cases st
  | readLeases k =>
    simp only [plane] at st
    split at st
    · rename_i task
      cases st
      exact inv.readLeases task
    · cases st
  | revokeLeases k =>
    simp only [plane] at st
    split at st
    · rename_i task
      cases st
      exact inv.revokedLeases task
    · cases st
  | finish k =>
    simp only [plane] at st
    split at st
    · rename_i task
      cases st
      exact inv.finished task quiet
    · rename_i task
      cases st
      exact inv.moveOn task not_covers_nil (by simp)
    · cases st
  | crash p =>
    cases st
    exact inv.crashed

/-- The demand plane is sound in every run that is not disturbed. -/
theorem demand_plane_sound {ls : List Label} {s : State} (run : (plane config home).run {} ls = some s)
    (quiet : (plane config home).Meets (Undisturbed config) {} ls) : Sound config s :=
  (Machine.run_invariant Inv.step inv_start quiet run).sound

/-! ## Runs -/

def smallPlane : DemandPlaneConfig where
  livePlaneSymbolCap := some 3
  eodPlaneSymbolCap := some 3
  liveMaxLease := some 3600
  eodMaxLease := some 3600
  liveMinIntervalS := some 5
  liveMaxIntervalS := some 60

def service (consumerId : String) : Entry where
  consumerId := consumerId
  allowedProfiles := [.eod, .live]
  allowedReasons := [.held, .eodFeature]
  symbolCapEod := 2
  symbolCapLive := 2

def holding (symbols : List String) : DemandLease where
  profile := .live
  symbols := symbols
  reasons := symbols.map (·, .held)
  expiresAt := 600

/-- `apply_artifact`, up to its commit. -/
def artifact (t : Nat) (consumers : List String) : List Label := [.applyArtifact t (consumers.map service), .applied t]

/-- Two consumers, a renewal, an artifact that revokes one of them, and an `expire_due`. -/
def ordinary : List Label :=
  artifact 0 ["service:a", "service:b"] ++ ([.finish 0, .grant 1 "service:a", .grant 1 "service:b",
    .publish 1 "service:a" 0 (holding ["AAA", "BBB"]), .publish 3 "service:b" 1 (holding ["BBB", "CCC"]),
    .accept 3 (some 10), .accept 1 (some 30), .publish 5 "service:a" 0 (holding ["AAA"]),
    .accept 5 (some 20)] : List Label) ++
  artifact 7 ["service:a"] ++ ([.readLeases 7, .revokeLeases 7, .finish 7, .tick 10, .expireDue 9 (fun _ => true),
    .expired 9, .finish 9] : List Label)

def parity (t : Nat) : Nat := t % 2

theorem ordinary_sound :
    ∃ s, (plane smallPlane parity).run {} ordinary = some s ∧ s.leases.map (·.status) =
      [.revoked, .superseded, .active] ∧ Sound smallPlane s := by
  obtain ⟨s, run⟩ := Option.isSome_iff_exists.1
    (show ((plane smallPlane parity).run {} ordinary).isSome = true by decide +kernel)
  have statuses := Machine.observe (f := fun s => s.leases.map (·.status)) run
    (show ((plane smallPlane parity).run {} ordinary).map (fun s => s.leases.map (·.status)) =
      some [.revoked, .superseded, .active] by decide +kernel)
  exact ⟨s, run, statuses, demand_plane_sound run (by decide +kernel)⟩

def registered : List Label := artifact 0 ["service:a"] ++ [Label.finish 0, .grant 1 "service:a"]

/-- `publish` reads the registration, an artifact without the consumer is applied from end to end, and the lease is
    admitted. -/
def staleRegistration : List Label :=
  registered ++ ([.publish 1 "service:a" 0 (holding ["AAA"])] : List Label) ++ artifact 2 [] ++
    ([.readLeases 2, .revokeLeases 2, .finish 2, .accept 1 (some 10)] : List Label)

/-- A process crashes between the revocation of a consumer and that of its leases; `expire_due` runs after that. -/
def interrupted : List Label :=
  registered ++ ([.publish 1 "service:a" 0 (holding ["AAA"]), .accept 1 (some 10)] : List Label) ++ artifact 2 [] ++
    ([.crash 0, .expireDue 3 (fun _ => true), .expired 3, .finish 3] : List Label)

def finePlane : DemandPlaneConfig := { smallPlane with liveMinIntervalS := some (7 / 10000) }

def roundedBound : List Label :=
  registered ++ [Label.publish 1 "service:a" 0 (holding ["AAA"]), .accept 1 (some (14 / 10000))]

def leftOver (s : State) : Option LeaseStatus × Bool × List (Nat × String) :=
  (s.leases[0]?.bind fun l : Lease => if l.consumerId = "service:a" then some l.status else none,
    s.revoked "service:a", s.unsettled)

lemma not_sound_of_leftOver (eq : leftOver s = (some .active, true, [])) : ¬ Sound config s := by
  intro sound
  obtain ⟨first, rest⟩ := Prod.mk.inj eq
  obtain ⟨revoked, settled⟩ := Prod.mk.inj rest
  obtain ⟨l, get, eq⟩ := Option.bind_eq_some_iff.1 first
  obtain ⟨mine, active⟩ := Option.ite_none_right_eq_some.1 eq
  obtain ⟨t, waiting⟩ := sound.settled l (mem_of_getElem? get) (Option.some.inj active)
    (mine ▸ of_decide_eq_true revoked)
  rw [settled] at waiting
  cases waiting

def roundedDown (s : State) : Bool :=
  s.leases[0]?.any (fun l : Lease => l.status = .active ∧ l.profile = .live ∧ s.clock < l.expiresAt ∧
    l.bound = some (1 / 1000)) &&
    liveIntervalSeconds (forProfile s.leases .live s.clock).strictestBoundS finePlane = some (7 / 10000)

lemma not_sound_of_roundedDown (eq : roundedDown s = true) : ¬ Sound finePlane s := by
  intro sound
  obtain ⟨first, interval⟩ := Bool.and_eq_true_iff.1 eq
  obtain ⟨l, get, holds⟩ := (Option.any_eq_true _ _).1 first
  obtain ⟨active, live, unexpired, bound⟩ := of_decide_eq_true holds
  obtain ⟨b, mem, twice⟩ := sound.bounded l (mem_of_getElem? get) active live unexpired (7 / 10000)
    (of_decide_eq_true interval)
  rw [bound] at mem
  cases mem
  norm_num at twice

theorem leases_outlive_revocation :
    (∀ ls ∈ [staleRegistration, interrupted], ∃ s, (plane smallPlane parity).run {} ls = some s ∧
      ¬ Sound smallPlane s) ∧ ∃ s, (plane finePlane parity).run {} roundedBound = some s ∧ ¬ Sound finePlane s := by
  constructor
  · have evaluated : ∀ ls ∈ [staleRegistration, interrupted],
        ((plane smallPlane parity).run {} ls).map leftOver = some (some .active, true, []) := by
      decide +kernel
    intro ls mem
    obtain ⟨s, run, eq⟩ := Option.map_eq_some_iff.1 (evaluated ls mem)
    exact ⟨s, run, not_sound_of_leftOver eq⟩
  · have evaluated : ((plane finePlane parity).run {} roundedBound).map roundedDown = some true := by
      decide +kernel
    obtain ⟨s, run, eq⟩ := Option.map_eq_some_iff.1 evaluated
    exact ⟨s, run, not_sound_of_roundedDown eq⟩

end Workbench.Demand
