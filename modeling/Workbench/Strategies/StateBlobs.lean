import Workbench.Strategies.HoldBlob

/-!
# The state blobs of a strategy

A deployment blob and a hold record read back as they were written (`blobOf_toDict`, `recordOf_toDict`), what a loader
returns keeps the rules of its module (`consistent_of_loadDeploymentBlob`, `complete_of_loadHoldRecord`), and on an
object whose nested fields can be iterated it raises no exception but those of its module. -/

set_option linter.dupNamespace false

namespace Workbench.Strategies
open Workbench.Lib List Option

variable {φ : Type} {F : Floats φ}

/-! ## Errors of a module -/

section Typed
variable {ε α β : Type} {foreign e : ε}

/-- A computation does not raise an exception that is not its module's. -/
def Typed (foreign : ε) (x : Except ε α) : Prop := x ≠ .error foreign

lemma typed_ok {a : α} : Typed foreign (.ok a : Except ε α) := nofun

lemma typed_error (ne : e ≠ foreign) : Typed foreign (.error e : Except ε α) :=
  fun eq => ne (Except.error.inj eq)

lemma Typed.bind {x : Except ε α} {f : α → Except ε β} (first : Typed foreign x)
    (next : ∀ a, x = .ok a → Typed foreign (f a)) : Typed foreign (x >>= f) := by
  cases x with
  | error e => exact fun eq => first (Except.error.inj eq ▸ rfl)
  | ok a => exact next a rfl

lemma Typed.map {x : Except ε α} {f : α → β} (typed : Typed foreign x) : Typed foreign (x.map f) := by
  cases x with
  | error e => exact fun eq => typed (Except.error.inj eq ▸ rfl)
  | ok a => exact typed_ok

lemma typed_raiseIf {c : Prop} [Decidable c] (ne : e ≠ foreign) : Typed foreign (raiseIf c e) := by
  rw [raiseIf]
  split
  · exact typed_error ne
  · exact typed_ok

lemma typed_orRaise {x : Option α} (ne : e ≠ foreign) : Typed foreign (orRaise x e) := by
  cases x with
  | none => exact typed_error ne
  | some a => exact typed_ok

lemma typed_orRaise_of_isSome {x : Option α} (found : x.isSome) : Typed foreign (orRaise x e) := by
  obtain ⟨a, rfl⟩ := isSome_iff_exists.1 found
  exact typed_ok

end Typed

/-! ## The deployment blob -/

namespace DeploymentState
open Seed (SeedAttemptStatus)
variable {field : String} {b : DeploymentBlob φ} {fields : List (Text × Doc φ)}

lemma member_stateText {state : Seed.DeploymentState} :
    member (φ := φ) stateText states (.str (.of (stateText state))) = some state := by
  cases state with
  | neverDeployed | deploymentPending | deployed | intentionallyFlat =>
    simp [member, states, stateText, Text.of_eq_of]

lemma member_statusText {status : SeedAttemptStatus} :
    member (φ := φ) statusText statuses (.str (.of (statusText status))) = some status := by
  cases status with
  | prepared | submitting | ordersOpen | partiallyFilled | filled | terminallyUnfilled | reconciliationRequired =>
    simp [member, statuses, statusText, Text.of_eq_of]

lemma parseDt_iso {t : Option DateTime} : parseDt (iso (φ := φ) t) field = .ok t := by
  cases t with
  | none => rfl
  | some t =>
    have read : (Doc.ofDatetime t : Doc φ).datetime = some t := Doc.datetime_ofDatetime
    show (orRaise (Doc.ofDatetime t : Doc φ).datetime _).map some = _
    rw [read]
    rfl

lemma requireDt_ofDatetime {t : DateTime} : requireDt (Doc.ofDatetime t : Doc φ) field = .ok t := by
  have read : parseDt (Doc.ofDatetime t : Doc φ) field = .ok (some t) := parseDt_iso (t := some t)
  rw [requireDt, read]
  rfl

lemma attemptOf_toDict {a : SeedAttempt φ} : attemptOf a.toDict = .ok a := by
  simp [attemptOf, SeedAttempt.toDict, attemptKey, attemptItems, Doc.get, Doc.get?_cons, orRaise, Doc.toItems,
    requireDt_ofDatetime, member_statusText, parseDt_iso, Bind.bind, Except.bind, pure, Except.pure]

lemma activeOf_toDict : activeOf b.toDict = .ok b.activeSeedAttempt := by
  have field : Doc.get b.toDict "active_seed_attempt" =
      (b.activeSeedAttempt.map fun a => .obj a.toDict).getD .null := by
    simp [Doc.get, DeploymentBlob.toDict, Doc.get?_cons]
  rw [activeOf, field]
  cases b.activeSeedAttempt with
  | none => rfl
  | some a =>
    show (attemptOf a.toDict).map some = _
    rw [attemptOf_toDict]
    rfl

lemma consistent_iff : b.Consistent ↔ ¬(b.state = .deployed ∧ b.hasEverDeployed = false) ∧
      ¬(b.hasEverDeployed = true ∧ b.firstDeployedAt = none) ∧
      ¬(b.state = .deploymentPending ∧ b.activeSeedAttempt.isNone) ∧
      ¬(b.state = .neverDeployed ∧ b.activeSeedAttempt.any (!·.status.terminal)) := by
  constructor
  · intro consistent
    refine ⟨fun ⟨isDeployed, never⟩ => ?_, fun ⟨ever, missing⟩ => ?_, fun ⟨isPending, missing⟩ => ?_,
      fun ⟨isNever, unfinished⟩ => ?_⟩
    · simp [consistent.deployed isDeployed] at never
    · simpa [missing] using consistent.first ever
    · simpa [isNone_iff_eq_none.1 missing] using consistent.pending isPending
    · obtain ⟨a, active, unfinished⟩ := (Option.any_eq_true _ _).1 unfinished
      simp [consistent.never isNever a active] at unfinished
  · intro ⟨deployed, first, pending, never⟩
    refine ⟨fun isDeployed => ?_, fun ever => ?_, fun isPending => ?_, fun isNever a active => ?_⟩
    · simpa [isDeployed] using deployed
    · simpa [ever, isSome_iff_ne_none] using first
    · simpa [isPending, isSome_iff_ne_none] using pending
    · simpa [isNever, mem_def.1 active] using never

lemma blobOf_eq_ok : blobOf F fields = .ok b ↔
      (Doc.get fields "schema_version").equalsInt F 1 = true ∧ (Doc.get fields "_rev").asInt = some b.rev ∧
        (Doc.get? fields "state").bind (member stateText states) = some b.state ∧
        (Doc.get fields "has_ever_deployed").truthy F = b.hasEverDeployed ∧
        parseDt (Doc.get fields "first_deployed_at") "first_deployed_at" = .ok b.firstDeployedAt ∧
        activeOf fields = .ok b.activeSeedAttempt ∧ Doc.get fields "last_seed_attempt" = b.lastSeedAttempt ∧
        b.schemaVersion = 1 ∧ b.Consistent := by
  obtain ⟨rev, state, hasEver, first, active, last, version⟩ := b
  rw [consistent_iff]
  simp only [blobOf, bind_eq_ok, raiseIf_eq_ok, orRaise_eq_ok, exists_const, Bool.not_eq_false, pure, Except.pure,
    Except.ok.injEq, DeploymentBlob.mk.injEq]
  constructor
  · rintro ⟨supported, _, isRev, _, isState, _, isFirst, _, isActive, deployed, ever, pending, never, eqs⟩
    obtain ⟨rfl, rfl, rfl, rfl, rfl, rfl, rfl⟩ := eqs
    exact ⟨supported, isRev, isState, rfl, isFirst, isActive, rfl, rfl, deployed, ever, pending, never⟩
  · rintro ⟨supported, isRev, isState, isEver, isFirst, isActive, isLast, isVersion, deployed, ever, pending, never⟩
    subst isEver isLast isVersion
    exact ⟨supported, rev, isRev, state, isState, first, isFirst, active, isActive, deployed, ever, pending, never,
      rfl, rfl, rfl, rfl, rfl, rfl, rfl⟩

lemma blobOf_toDict (consistent : b.Consistent) (version : b.schemaVersion = 1) : blobOf F b.toDict = .ok b := by
  refine blobOf_eq_ok.2 ⟨?_, ?_, ?_, ?_, ?_, activeOf_toDict, ?_, version, consistent⟩
  · simp [Doc.get, DeploymentBlob.toDict, Doc.get?_cons, Doc.equalsInt, version]
  · simp [Doc.get, DeploymentBlob.toDict, Doc.get?_cons, Doc.asInt]
  · simp [DeploymentBlob.toDict, Doc.get?_cons, member_stateText]
  · simp [Doc.get, DeploymentBlob.toDict, Doc.get?_cons, Doc.truthy]
  · simp [Doc.get, DeploymentBlob.toDict, Doc.get?_cons, parseDt_iso]
  · simp [Doc.get, DeploymentBlob.toDict, Doc.get?_cons]

lemma consistent_of_loadDeploymentBlob {raw : Doc φ} (loaded : loadDeploymentBlob F raw = .ok b) :
    b.Consistent ∧ b.schemaVersion = 1 := by
  cases raw with
  | null | bool | int | float | str | arr => cases loaded
  | obj fields =>
    obtain ⟨-, -, -, -, -, -, -, version, consistent⟩ := blobOf_eq_ok.1 loaded
    exact ⟨consistent, version⟩

/-- The lists of an attempt are lists, where they are given, or strings or objects. -/
def ListsGiven (fields : List (Text × Doc φ)) : Prop :=
  ∀ k ∈ ["intended_symbols", "submitted_order_ids"], ∀ v, Doc.get? fields k = some v → v.toItems.isSome

/-- The active attempt of a blob, where there is one, is an object with its lists. -/
def AttemptGiven (raw : Doc φ) : Prop :=
  ∀ fields, raw = .obj fields → ∀ v, Doc.get? fields "active_seed_attempt" = some v →
    v = .null ∨ ∃ attempt, v = .obj attempt ∧ ListsGiven attempt

lemma invalid_ne {why : Invalid φ} : Raised.invalid why ≠ .typeError := nofun

lemma typed_parseDt {v : Doc φ} : Typed .typeError (parseDt v field) := by
  unfold parseDt
  split
  · exact typed_ok
  · exact (typed_orRaise invalid_ne).map

lemma typed_requireDt {v : Doc φ} : Typed .typeError (requireDt v field) :=
  typed_parseDt.bind fun _ _ => typed_orRaise invalid_ne

lemma typed_attemptKey {k : String} : Typed .typeError (attemptKey fields k) :=
  typed_orRaise invalid_ne

lemma typed_attemptItems {k : String}
    (given : ∀ v, Doc.get? fields k = some v → v.toItems.isSome) : Typed .typeError (attemptItems fields k) := by
  apply typed_orRaise_of_isSome
  cases found : Doc.get? fields k with
  | none => rfl
  | some v => exact given v found

lemma typed_attemptOf (given : ListsGiven fields) : Typed .typeError (attemptOf fields) := by
  have lists := forall_mem_cons.1 given
  apply typed_attemptKey.bind
  intro _ _
  apply typed_attemptKey.bind
  intro _ _
  apply typed_requireDt.bind
  intro _ _
  apply (typed_attemptItems lists.1).bind
  intro _ _
  apply typed_attemptKey.bind
  intro _ _
  apply (typed_attemptItems (forall_mem_singleton.1 lists.2)).bind
  intro _ _
  apply typed_attemptKey.bind
  intro _ _
  apply (typed_orRaise invalid_ne).bind
  intro _ _
  exact typed_parseDt.bind fun _ _ => typed_ok

lemma typed_activeOf (given : AttemptGiven (.obj fields)) : Typed .typeError (activeOf fields) := by
  rw [activeOf, Doc.get]
  cases found : Doc.get? fields "active_seed_attempt" with
  | none => exact typed_ok
  | some v =>
    obtain rfl | ⟨attempt, rfl, lists⟩ := given fields rfl v found
    · exact typed_ok
    · exact (typed_attemptOf lists).map

lemma typed_loadDeploymentBlob {raw : Doc φ} (given : AttemptGiven raw) :
    Typed .typeError (loadDeploymentBlob F raw) := by
  cases raw with
  | null | bool | int | float | str | arr => exact typed_error nofun
  | obj fields =>
    apply (typed_raiseIf invalid_ne).bind
    intro _ _
    apply (typed_orRaise invalid_ne).bind
    intro _ _
    apply (typed_orRaise invalid_ne).bind
    intro _ _
    apply typed_parseDt.bind
    intro _ _
    apply (typed_activeOf given).bind
    intro _ _
    apply (typed_raiseIf invalid_ne).bind
    intro _ _
    apply (typed_raiseIf invalid_ne).bind
    intro _ _
    apply (typed_raiseIf invalid_ne).bind
    intro _ _
    exact (typed_raiseIf invalid_ne).bind fun _ _ => typed_ok

end DeploymentState

/-! ## The hold record -/

namespace HoldBlob

lemma member_status {status : Hold.HoldStatus} :
    DeploymentState.member (φ := φ) Hold.HoldStatus.value statuses (.str (.of status.value)) = some status := by
  cases status with
  | active | cleared => simp [DeploymentState.member, statuses, Hold.HoldStatus.value, Text.of_eq_of]

lemma recordOf_eq_ok {fields : List (Text × Doc φ)} {r : HoldRecord φ} :
    recordOf F fields = .ok r ↔
      (Doc.get fields "schema_version").equalsInt F 1 = true ∧ ∃ rev, (Doc.get fields "_rev").asInt = some rev ∧
        ∃ status, (Doc.get? fields "status").bind (DeploymentState.member Hold.HoldStatus.value statuses) =
            some status ∧ (∀ req ∈ required, (Doc.get fields req).truthy F = true) ∧
            ∃ refs, (getD fields "evidence_refs" (.arr [])).toItems = some refs ∧
              .ofFields fields rev status refs = r := by
  have check : (required.find? fun req => !(Doc.get fields req).truthy F) = none ↔
      ∀ req ∈ required, (Doc.get fields req).truthy F = true := by
    simp [find?_eq_none]
  simp only [recordOf, raiseIf_bind_eq_ok, orRaise_bind_eq_ok, Bool.not_eq_false, ← check]
  cases required.find? fun req => !(Doc.get fields req).truthy F with
  | some req => simp
  | none => simp [pure, Except.pure]

lemma recordOf_toDict {r : HoldRecord φ} (complete : r.Complete F) (version : r.schemaVersion = 1) :
    recordOf F r.toDict = .ok r := by
  refine recordOf_eq_ok.2 ⟨?_, r.rev, ?_, r.status, ?_, ?_, r.evidenceRefs, ?_, ?_⟩
  · simp [Doc.get, HoldRecord.toDict, Doc.get?_cons, Doc.equalsInt, version]
  · simp [Doc.get, HoldRecord.toDict, Doc.get?_cons, Doc.asInt]
  · simp [HoldRecord.toDict, Doc.get?_cons, member_status]
  · simp [required, Doc.get, HoldRecord.toDict, Doc.get?_cons, complete.reasonCode, complete.effectiveAt,
      complete.placedAt]
  · simp [getD, HoldRecord.toDict, Doc.get?_cons, Doc.toItems]
  · obtain ⟨status, reasonCode, reason, effectiveAt, placedAt, placedBy, rev, refs, approval, source, clearedAt,
      clearedBy, schemaVersion⟩ := r
    subst version
    simp [HoldRecord.ofFields, getD, Doc.get, HoldRecord.toDict, Doc.get?_cons]

lemma complete_of_loadHoldRecord {raw : Doc φ} {r : HoldRecord φ} (loaded : loadHoldRecord F raw = .ok (some r)) :
    r.Complete F ∧ r.schemaVersion = 1 := by
  cases raw with
  | null | bool | int | float | str | arr => cases loaded
  | obj fields =>
    rw [loadHoldRecord] at loaded
    cases read : recordOf F fields with
    | error why =>
      rw [read] at loaded
      cases loaded
    | ok r' =>
      rw [read] at loaded
      cases loaded
      obtain ⟨-, rev, -, status, -, present, refs, -, rfl⟩ := recordOf_eq_ok.1 read
      simp only [required, forall_mem_cons] at present
      exact ⟨⟨present.1, present.2.1, present.2.2.1⟩, rfl⟩

/-- The evidence of a hold is a list, where it is given, or a string or an object. -/
def EvidenceGiven (raw : Doc φ) : Prop :=
  ∀ fields, raw = .obj fields → ∀ v, Doc.get? fields "evidence_refs" = some v → v.toItems.isSome

lemma invalid_ne {why : Invalid φ} : Raised.invalid why ≠ .typeError := nofun

lemma typed_loadHoldRecord {raw : Doc φ} (given : EvidenceGiven raw) : Typed .typeError (loadHoldRecord F raw) := by
  cases raw with
  | null => exact typed_ok
  | bool | int | float | str | arr => exact typed_error invalid_ne
  | obj fields =>
    apply Typed.map
    apply (typed_raiseIf invalid_ne).bind
    intro _ _
    apply (typed_orRaise invalid_ne).bind
    intro _ _
    apply (typed_orRaise invalid_ne).bind
    intro _ _
    split
    · exact typed_error invalid_ne
    · refine (typed_orRaise_of_isSome ?_).bind fun _ _ => typed_ok
      rw [getD]
      cases found : Doc.get? fields "evidence_refs" with
      | none => rfl
      | some v => exact given fields rfl v found

end HoldBlob

/-! ## Both blobs -/

def unnamedHold : HoldBlob.HoldRecord Unit where
  status := .active
  reasonCode := .str []
  reason := .str []
  effectiveAt := .str (.of "2026-01-05T14:30:00+00:00")
  placedAt := .str (.of "2026-01-05T14:30:00+00:00")
  placedBy := .str (.of "operator")
  rev := 1

def listedAttempt : Doc Unit :=
  .obj [(.of "schema_version", .int 1), (.of "_rev", .int 0), (.of "state", .str (.of "NEVER_DEPLOYED")),
    (.of "active_seed_attempt", .arr [])]

def sessionOpen : DateTime :=
  ⟨{ year := 2026, month := 1, day := 5, hour := 14, minute := 30, microsecond := 250000, utcoffset := some 0 },
    by decide⟩

/-- A blob whose seed is partly filled. -/
def deployedBlob : DeploymentState.DeploymentBlob Unit where
  rev := 3
  state := .deployed
  hasEverDeployed := true
  firstDeployedAt := some sessionOpen
  activeSeedAttempt := some
    { attemptId := .str (.of "attempt-1")
      createdAt := sessionOpen
      intendedSymbols := [.str (.of "AAPL"), .str (.of "MSFT")]
      clientOrderIdPrefix := .str (.of "seed-1")
      submittedOrderIds := [.int 7]
      status := .partiallyFilled
      lastReconciledFillAt := some sessionOpen
      lastReconciledFillId := .int 12 }

/-- A blob with an attempt whose creation is a date and a separator. -/
def untimedBlob : Doc Unit :=
  .obj [(.of "active_seed_attempt", .obj [(.of "created_at", .str (.of "2026-01-05T"))])]

end Workbench.Strategies
