import Workbench.Strategies.Hold
import Workbench.Lib.Machine

/-!
# The lifecycle of an operational hold

Calls of the four mutators on one strategy interleave: each reads the stored value, and if it has planned a
write, writes at some later moment under its compare-and-set. `history` records the writes that were applied.

`HoldLifecycle` is what the service is for. It holds in every run in which `clear` is applied only to holds
without provenance keys (the keys that a `HoldRecord` does not model). `clear` builds the cleared value from
the record and drops them, `legacy_marker` among them, after which the adoption no longer recognises itself;
`update_reason` carries them forward.
-/

set_option linter.dupNamespace false

namespace Workbench.Strategies.Hold
open Workbench.Lib List

/-! ## What a stored value says -/

/-- The fields of a value of the current schema. -/
def hold? : Option Json → Option Fields
  | some (.obj f) => if schemaOk f then some f else none
  | _ => none

/-- The revision of the persisted hold; what precedes the schema has none. -/
def revOf (v : Option Json) : Int := (hold? v).elim 0 fun f => ((Json.field f "_rev").asInt).getD 0

def Active (v : Option Json) : Prop := ∃ f, hold? v = some f ∧ Json.field f "status" = .str "ACTIVE"

def effectiveAt (v : Option Json) : Option Json := (hold? v).map (Json.field · "effective_at")

/-- The keys that a `HoldRecord` models, and the one that a relabelling rewrites. -/
def modelled : List String :=
  ["schema_version", "_rev", "status", "reason_code", "reason", "effective_at", "placed_at", "placed_by",
    "evidence_refs", "approval_ref", "source", "cleared_at", "cleared_by", "previous_reason_code"]

def extra (v : Option Json) (k : String) : Option Json :=
  (hold? v).bind fun f => if k ∈ modelled then none else f.lookup k

/-! ## Runs -/

/-- Where a call stands; a call that writes remembers the value it read. -/
inductive Phase where
  | reading
  | writing (read : Option Json) (w : Write)
  | returned (reply : Reply)

/-- An applied write. -/
structure Mutation where
  index : Nat
  call : Call
  before : Option Json
  after : Option Json
  audit : AuditRow

/-- The row of the strategy, its audit rows, and the calls. -/
structure State where
  value : Option Json
  audit : List AuditRow := []
  calls : List (Call × Phase) := []
  history : List Mutation := []

/-- What can happen: a call begins, reads, or writes; `ok` is false when the database fails. -/
inductive Label where
  | begin (call : Call)
  | read (i : Nat) (ok : Bool)
  | write (i : Nat) (ok : Bool)

def State.move (s : State) (i : Nat) (call : Call) (phase : Phase) : State :=
  { s with calls := s.calls.set i (call, phase) }

def Plan.phase (read : Option Json) : Plan → Phase
  | .reply r => .returned r
  | .write w => .writing read w

def State.apply (s : State) (i : Nat) (call : Call) (w : Write) : State :=
  { s.move i call (.returned w.reply) with
    value := some (.obj w.blob)
    audit := s.audit ++ [w.audit]
    history := s.history ++ [⟨i, call, s.value, some (.obj w.blob), w.audit⟩] }

def step (s : State) : Label → Option State
  | .begin call => some { s with calls := s.calls ++ [(call, .reading)] }
  | .read i ok =>
    match s.calls[i]? with
    | some (call, .reading) =>
      some (s.move i call (if ok then (call.plan s.value).phase s.value else .returned (.refused .unavailable)))
    | _ => none
  | .write i ok =>
    match s.calls[i]? with
    | some (call, .writing _ w) =>
      if !ok then some (s.move i call (.returned (.refused .crashed)))
      else if w.expect.met s.value then some (s.apply i call w)
      else some (s.move i call (.returned (.refused w.lost)))
    | _ => none

def service : Machine State Label := ⟨step⟩

/-- `clear`, when it is applied, meets a hold without provenance keys. -/
def ClearsPlain (s : State) : Label → Prop
  | .write i ok => ∀ a read w, s.calls[i]? = some (.clear a, .writing read w) → ok = true →
      w.expect.met s.value = true → ∀ k, extra s.value k = none
  | _ => True

def plain (v : Option Json) : Bool := ((hold? v).getD []).all (·.1 ∈ modelled)

lemma plain_iff {v : Option Json} : plain v = true ↔ ∀ k, extra v k = none := by
  unfold plain extra
  cases hold? v with
  | none => simp
  | some f =>
    simp only [Option.getD_some, all_eq_true, decide_eq_true_eq, Option.bind_some]
    constructor
    · intro all k
      split
      · rfl
      · rename_i other
        rw [lookup_eq_none_iff]
        intro e mem
        rw [bne_iff_ne]
        rintro rfl
        exact other (all e mem)
    · intro none e mem
      have found := none e.1
      split at found
      · assumption
      · exact absurd rfl (bne_iff_ne.1 (lookup_eq_none_iff.1 found e mem))

instance : ∀ s l, Decidable (ClearsPlain s l)
  | _, .begin _ | _, .read _ _ => isTrue trivial
  | s, .write i ok =>
    match get : s.calls[i]? with
    | some (.clear _, .writing _ w) =>
      decidable_of_iff (ok = true → w.expect.met s.value = true → plain s.value = true) <| by
        rw [plain_iff]
        constructor
        · intro h a read w' get'
          rw [get] at get'
          cases get'
          exact h
        · exact fun h => h _ _ w get
    | none | some (.place _, _) | some (.updateReason _, _) | some (.adopt _, _)
    | some (.clear _, .reading) | some (.clear _, .returned _) =>
      isTrue fun a read w get' => by rw [get] at get'; cases get'

/-! ## The lifecycle -/

/-- The values from one to another, one mutation after the other. -/
def Chain : Option Json → List Mutation → Option Json → Prop
  | v, [], v' => v = v'
  | v, m :: ms, v' => m.before = v ∧ Chain m.after ms v'

def Call.amends : Call → Bool
  | .updateReason _ | .clear _ => true
  | _ => false

/-- What holds of the service after any interleaving. -/
structure HoldLifecycle (v₀ : Option Json) (s : State) : Prop where
  chain : Chain v₀ s.history s.value
  rev : ∀ m ∈ s.history, revOf m.after = revOf m.before + 1
  audit : s.audit = s.history.map (·.audit)
  applied : ∀ i call reply, s.calls[i]? = some (call, .returned reply) →
    (reply.applied = true ↔ ∃ m ∈ s.history, m.index = i)
  leaves : ∀ m ∈ s.history, Active m.before → ¬ Active m.after →
    ∃ a, m.call = .clear a ∧ a.expectedRev = revOf m.before
  effective : ∀ earlier m later, s.history = earlier ++ m :: later → (∀ m' ∈ later, m'.call.amends = true) →
    (∃ a, m.call = .adopt a) → effectiveAt s.value = effectiveAt m.after ∧ ∀ k, extra s.value k = extra m.after k
  readopt : ∀ earlier m m' a b, s.history = earlier ++ [m, m'] → m.call = .adopt a → m'.call = .clear b →
    adopt a s.value = .reply .alreadyAdoptedAndCleared

/-! ## Fields -/

section Fields
variable {f blob raw : Fields} {k : String} {v : Option Json} {r : HoldRecord}

lemma lookup_carryForward : (carryForward blob raw).lookup k = (blob.lookup k).or (raw.lookup k) := by
  unfold carryForward
  induction raw generalizing blob with
  | nil => rw [foldl_nil, lookup_nil, Option.or_none]
  | cons e raw ih =>
    rw [foldl_cons, ih, Dict.lookup_cons]
    by_cases eq : k = e.1
    · subst eq
      cases found : blob.lookup e.1 with
      | some x => simp [found]
      | none => simp [lookup_append, found, Dict.lookup_cons]
    · rw [if_neg eq]
      split
      · rfl
      · rw [lookup_append, Dict.lookup_cons, if_neg eq, lookup_nil, Option.or_none]

lemma lookup_toDict (other : k ∉ modelled) : r.toDict.lookup k = none := by
  rw [lookup_eq_none_iff]
  intro e mem
  rw [bne_iff_ne]
  rintro rfl
  apply other
  simp only [HoldRecord.toDict, mem_cons, not_mem_nil, or_false] at mem
  rcases mem with rfl | rfl | rfl | rfl | rfl | rfl | rfl | rfl | rfl | rfl | rfl | rfl | rfl <;> simp [modelled]

lemma hold?_of_schemaOk (ok : schemaOk f = true) : hold? (some (.obj f)) = some f := if_pos ok

lemma revOf_eq (schema : f.lookup "schema_version" = some (.int 1)) (rev : f.lookup "_rev" = some (.int r.rev)) :
    hold? (some (.obj f)) = some f ∧ revOf (some (.obj f)) = r.rev := by
  have ok : schemaOk f = true := by simp [schemaOk, Json.field, schema, Json.asInt]
  refine ⟨hold?_of_schemaOk ok, ?_⟩
  rw [revOf, hold?_of_schemaOk ok]
  simp [Json.field, rev, Json.asInt]

lemma parse_active {x : Json} : HoldStatus.parse x = some .active ↔ x = .str "ACTIVE" := by
  constructor
  · intro h
    unfold HoldStatus.parse at h
    split at h
    · rfl
    · cases h
    · cases h
  · rintro rfl
    rfl

lemma loadFields_spec (load : loadFields f = .ok r) :
    hold? (some (.obj f)) = some f ∧ (Json.field f "_rev").asInt = some r.rev ∧
      (r.status = .active ↔ Json.field f "status" = .str "ACTIVE") ∧ r.effectiveAt = Json.field f "effective_at" := by
  unfold loadFields at load
  split at load
  · cases load
  rename_i schema
  split at load
  · cases load
  rename_i rev revEq
  split at load
  · cases load
  rename_i status statusEq
  split at load
  · cases load
  split at load
  · cases load
  cases load
  refine ⟨hold?_of_schemaOk (by simpa using schema), revEq, ?_, rfl⟩
  rw [← parse_active, statusEq]
  exact ⟨congrArg some, Option.some.inj⟩

lemma load_spec (load : loadHoldRecord v = .ok (some r)) : ∃ f, v = some (.obj f) ∧ loadFields f = .ok r := by
  unfold loadHoldRecord at load
  split at load
  · cases load
  · cases load
  · rename_i f
    cases fields : loadFields f with
    | error => rw [fields] at load; cases load
    | ok r' => rw [fields] at load; cases load; exact ⟨f, rfl, fields⟩
  · cases load

lemma load_none (load : loadHoldRecord v = .ok none) : v = none ∨ v = some .null := by
  unfold loadHoldRecord at load
  split at load
  · exact .inl rfl
  · exact .inr rfl
  · rename_i f
    cases fields : loadFields f with
    | error => rw [fields] at load; cases load
    | ok => rw [fields] at load; cases load
  · cases load

lemma revOf_load (load : loadFields f = .ok r) : revOf (some (.obj f)) = r.rev := by
  obtain ⟨schema, rev, -⟩ := loadFields_spec load
  rw [revOf, schema]
  simp [rev]

lemma active_load (load : loadFields f = .ok r) : Active (some (.obj f)) ↔ r.status = .active := by
  obtain ⟨schema, -, status, -⟩ := loadFields_spec load
  rw [status]
  unfold Active
  rw [schema]
  simp

lemma effectiveAt_load (load : loadFields f = .ok r) : effectiveAt (some (.obj f)) = some r.effectiveAt := by
  obtain ⟨schema, -, -, effective⟩ := loadFields_spec load
  rw [effectiveAt, schema, effective]
  rfl

lemma hold?_empty (empty : v = none ∨ v = some .null) : hold? v = none := by
  rcases empty with rfl | rfl <;> rfl

lemma revOf_unheld (unheld : hold? v = none) : revOf v = 0 := by
  rw [revOf, unheld]
  rfl

end Fields

/-! ## What a call plans -/

/-- What is known of a write and the value it was planned on. -/
structure Planned (call : Call) (v : Option Json) (w : Write) : Prop where
  reply : w.reply.applied = true
  schema : hold? (some (.obj w.blob)) = some w.blob
  rev : revOf (some (.obj w.blob)) = revOf v + 1
  exact : ∀ v', w.expect.met v' = true → ((hold? v).isSome = true → (hold? v').isSome = true) →
    (revOf v' = revOf v → v' = v) → v' = v
  leaves : Active v → ¬ Active (some (.obj w.blob)) → ∃ a, call = .clear a ∧ a.expectedRev = revOf v
  effective : call.amends = true → effectiveAt (some (.obj w.blob)) = effectiveAt v
  extras : ∀ a, call = .updateReason a → ∀ k, extra (some (.obj w.blob)) k = extra v k
  dropped : ∀ a, call = .clear a → ∀ k, extra (some (.obj w.blob)) k = none
  marked : ∀ a, call = .adopt a → extra (some (.obj w.blob)) "legacy_marker" ≠ none

section Planned
variable {v : Option Json} {w : Write} {r : HoldRecord} {f : Fields}

lemma exact_rev (load : loadFields f = .ok r) (v' : Option Json) (met : (Expect.rev r.rev).met v' = true)
    (schema : (hold? (some (.obj f))).isSome = true → (hold? v').isSome = true)
    (same : revOf v' = revOf (some (.obj f)) → v' = some (.obj f)) : v' = some (.obj f) := by
  apply same
  obtain ⟨ok, -⟩ := loadFields_spec load
  obtain ⟨f', hold⟩ := Option.isSome_iff_exists.1 (schema (by rw [ok]; rfl))
  rw [revOf_load load, revOf, hold]
  unfold hold? at hold
  split at hold
  · split at hold
    · cases hold
      have rev : (Json.field f' "_rev").asInt = some r.rev := by simpa [Expect.met] using met
      simp [rev]
    · cases hold
  · cases hold

lemma reading_write {next : Option HoldRecord → Plan} (plan : reading v next = .write w) :
    ((v = none ∨ v = some .null) ∧ next none = .write w) ∨
      ∃ f r, v = some (.obj f) ∧ loadFields f = .ok r ∧ next (some r) = .write w := by
  unfold reading at plan
  split at plan
  · cases plan
  · rename_i cur load
    cases cur with
    | none => exact .inl ⟨load_none load, plan⟩
    | some r =>
      obtain ⟨f, eq, fields⟩ := load_spec load
      exact .inr ⟨f, r, eq, fields, plan⟩

lemma toDict_value (r : HoldRecord) :
    hold? (some (.obj r.toDict)) = some r.toDict ∧ revOf (some (.obj r.toDict)) = r.rev ∧
    (Active (some (.obj r.toDict)) ↔ r.status = .active) ∧
    effectiveAt (some (.obj r.toDict)) = some r.effectiveAt ∧ ∀ k, extra (some (.obj r.toDict)) k = none := by
  obtain ⟨schema, rev⟩ := revOf_eq (f := r.toDict) (r := r) rfl rfl
  refine ⟨schema, rev, ?_, ?_, ?_⟩
  · unfold Active
    rw [schema]
    cases status : r.status <;> simp [HoldRecord.toDict, Json.field, Dict.lookup_cons, HoldStatus.value, status]
  · rw [effectiveAt, schema]
    rfl
  · intro k
    rw [extra, schema, Option.bind_some]
    split
    · rfl
    · rename_i other
      exact lookup_toDict other

lemma planned_place {a : Place} (plan : place a v = .write w) : Planned (.place a) v w := by
  rcases reading_write plan with ⟨empty, plan⟩ | ⟨f, r, rfl, load, plan⟩
  · cases plan
    obtain ⟨blobSchema, blobRev, -⟩ := toDict_value (placedRecord a 1)
    refine ⟨rfl, blobSchema, ?_, ?_, ?_, nofun, nofun, nofun, nofun⟩
    · rw [revOf_unheld (hold?_empty empty)]
      exact blobRev
    · intro v' met _ same
      apply same
      have absent : v' = none := by simpa [placeWrite, Expect.met] using met
      rw [revOf_unheld (hold?_empty empty), absent]
      rfl
    · rintro ⟨f, hold, -⟩
      rw [hold?_empty empty] at hold
      cases hold
  · dsimp only at plan
    split at plan
    · split at plan <;> cases plan
    rename_i inactive
    cases plan
    obtain ⟨blobSchema, blobRev, -⟩ := toDict_value (placedRecord a (r.rev + 1))
    refine ⟨rfl, blobSchema, ?_, exact_rev load, ?_, nofun, nofun, nofun, nofun⟩
    · rw [revOf_load load]
      exact blobRev
    · intro active
      exact absurd ((active_load load).1 active) inactive

lemma planned_clear {a : Clear} (plan : clear a v = .write w) : Planned (.clear a) v w := by
  rcases reading_write plan with ⟨-, plan⟩ | ⟨f, r, rfl, load, plan⟩
  · cases plan
  · dsimp only at plan
    split at plan
    · cases plan
    split at plan
    · cases plan
    rename_i rev
    cases plan
    obtain ⟨blobSchema, blobRev, -, blobEffective, blobExtra⟩ := toDict_value (clearedRecord a r)
    refine ⟨rfl, blobSchema, ?_, exact_rev load, ?_, ?_, nofun, fun _ _ => blobExtra, nofun⟩
    · rw [revOf_load load]
      exact blobRev
    · intro _ _
      exact ⟨a, rfl, by rw [revOf_load load]; exact (not_not.1 rev).symm⟩
    · intro _
      rw [effectiveAt_load load]
      exact blobEffective

lemma lookup_updateWrite {a : UpdateReason} {k : String} (other : k ≠ "previous_reason_code") :
    (updateWrite a f r).blob.lookup k = ((relabelled a r).toDict.lookup k).or (f.lookup k) := by
  show (Dict.setEntry _ _ _).lookup k = _
  rw [Dict.lookup_setEntry_of_ne other, lookup_carryForward]

lemma planned_updateReason {a : UpdateReason} (plan : updateReason a v = .write w) : Planned (.updateReason a) v w := by
  rcases reading_write plan with ⟨-, plan⟩ | ⟨f, r, rfl, load, plan⟩
  · cases plan
  · dsimp only at plan
    split at plan
    · cases plan
    split at plan
    · cases plan
    rename_i active
    split at plan
    · cases plan
      obtain ⟨schema, -⟩ := loadFields_spec load
      have field {k : String} {x : Json} (other : k ≠ "previous_reason_code")
          (mine : (relabelled a r).toDict.lookup k = some x) : (updateWrite a f r).blob.lookup k = some x := by
        rw [lookup_updateWrite other, mine, Option.some_or]
      obtain ⟨blobSchema, blobRev⟩ := revOf_eq (f := (updateWrite a f r).blob) (r := relabelled a r)
        (field (by decide) rfl) (field (by decide) rfl)
      refine ⟨rfl, blobSchema, ?_, ?_, ?_, ?_, ?_, nofun, nofun⟩
      · rw [revOf_load load]
        exact blobRev
      · intro v' met _ _
        simpa [updateWrite, Expect.met] using met
      · intro _ inactive
        refine absurd ⟨_, blobSchema, ?_⟩ inactive
        rw [Json.field, field (k := "status") (by decide) rfl]
        rfl
      · intro _
        rw [effectiveAt_load load, effectiveAt, blobSchema, Option.map_some, Json.field,
          field (k := "effective_at") (by decide) rfl]
        rfl
      · intro _ _ k
        rw [extra, extra, blobSchema, schema, Option.bind_some, Option.bind_some]
        split
        · rfl
        · rename_i other
          have ne : k ≠ "previous_reason_code" := by
            rintro rfl
            exact other (by decide)
          rw [lookup_updateWrite ne, lookup_toDict other, Option.none_or]
    · cases plan

lemma planned_adopt {a : Adopt} (plan : adopt a v = .write w) : Planned (.adopt a) v w := by
  unfold adopt at plan
  split at plan
  · rename_i raw
    split at plan
    · split at plan
      · cases plan
      · split at plan <;> cases plan
    rename_i legacy
    split at plan
    · cases plan
    split at plan
    · cases plan
      have unheld : hold? (some (.obj raw)) = none := if_neg legacy
      have field {k : String} (other : k ≠ "legacy_marker") :
          (adoptWrite a raw).blob.lookup k = (adoptedRecord a raw).toDict.lookup k :=
        Dict.lookup_setEntry_of_ne other
      obtain ⟨blobSchema, blobRev⟩ := revOf_eq (f := (adoptWrite a raw).blob) (r := adoptedRecord a raw)
        (field (by decide)) (field (by decide))
      refine ⟨rfl, blobSchema, ?_, ?_, ?_, nofun, nofun, nofun, ?_⟩
      · rw [revOf_unheld unheld]
        exact blobRev
      · intro v' met _ _
        simpa [adoptWrite, Expect.met] using met
      · rintro ⟨f, hold, -⟩
        rw [unheld] at hold
        cases hold
      · intro _ _
        rw [extra, blobSchema, Option.bind_some, if_neg (by decide)]
        show (Dict.setEntry _ _ _).lookup _ ≠ none
        rw [Dict.lookup_setEntry_self]
        exact Option.some_ne_none _
    · cases plan
  · cases plan

lemma unapplied_reply {call : Call} {reply : Reply} (plan : call.plan v = .reply reply) : reply.applied = false := by
  cases call with
  | place a =>
    simp only [Call.plan, place, reading] at plan
    split at plan
    · cases plan; rfl
    split at plan
    · split at plan
      · split at plan <;> cases plan <;> rfl
      · cases plan
    · cases plan
  | clear a =>
    simp only [Call.plan, clear, reading] at plan
    split at plan
    · cases plan; rfl
    split at plan
    · cases plan; rfl
    split at plan
    · cases plan; rfl
    split at plan
    · cases plan; rfl
    · cases plan
  | updateReason a =>
    simp only [Call.plan, updateReason, reading] at plan
    split at plan
    · cases plan; rfl
    split at plan
    · split at plan
      · cases plan; rfl
      split at plan
      · cases plan; rfl
      split at plan
      · cases plan
      · cases plan; rfl
    · cases plan; rfl
  | adopt a =>
    simp only [Call.plan, adopt] at plan
    split at plan
    · split at plan
      · split at plan
        · cases plan; rfl
        · split at plan <;> cases plan <;> rfl
      split at plan
      · cases plan; rfl
      split at plan
      · cases plan
      · cases plan; rfl
    · cases plan; rfl

lemma planned {call : Call} (plan : call.plan v = .write w) : Planned call v w := by
  cases call with
  | place => exact planned_place plan
  | clear => exact planned_clear plan
  | updateReason => exact planned_updateReason plan
  | adopt => exact planned_adopt plan

end Planned

/-! ## One step -/

/-- Since a value was read: a hold is still a hold, and at the same revision it is the same value. -/
structure Since (now read : Option Json) : Prop where
  schema : (hold? read).isSome = true → (hold? now).isSome = true
  rev : revOf read ≤ revOf now
  same : revOf now = revOf read → now = read

/-- What is known of an applied write. -/
structure Lawful (m : Mutation) : Prop where
  rev : revOf m.after = revOf m.before + 1
  leaves : Active m.before → ¬ Active m.after → ∃ a, m.call = .clear a ∧ a.expectedRev = revOf m.before
  amends : m.call.amends = true →
    effectiveAt m.after = effectiveAt m.before ∧ ∀ k, extra m.after k = extra m.before k
  plain : ∀ a, m.call = .clear a → ∀ k, extra m.before k = none
  marked : ∀ a, m.call = .adopt a → extra m.after "legacy_marker" ≠ none

/-- The invariant of the service. -/
structure Inv (v₀ : Option Json) (s : State) : Prop where
  chain : Chain v₀ s.history s.value
  lawful : ∀ m ∈ s.history, Lawful m
  audit : s.audit = s.history.map (·.audit)
  writing : ∀ (i : Nat) call read w, s.calls[i]? = some (call, .writing read w) →
    call.plan read = .write w ∧ Since s.value read
  applied : ∀ (i : Nat) call reply, s.calls[i]? = some (call, .returned reply) → reply.applied = true →
    ∃ m ∈ s.history, m.index = i
  history : ∀ m ∈ s.history, ∃ call reply, s.calls[m.index]? = some (call, .returned reply) ∧ reply.applied = true

section Step
variable {v₀ : Option Json} {s s' : State}
variable {i : Nat} {call : Call}

lemma Chain.concat {v v' : Option Json} {ms : List Mutation} {m : Mutation} (h : Chain v ms v')
    (before : m.before = v') : Chain v (ms ++ [m]) m.after := by
  induction ms generalizing v with
  | nil =>
    cases h
    exact ⟨before, rfl⟩
  | cons m' ms ih => exact ⟨h.1, ih h.2⟩

lemma Inv.apply_eq (h : Inv v₀ s) {read : Option Json} {w : Write}
    (get : s.calls[i]? = some (call, .writing read w)) (met : w.expect.met s.value = true) :
    s.value = read ∧ Planned call read w := by
  obtain ⟨plan, since⟩ := h.writing i call read w get
  have of := planned plan
  exact ⟨of.exact s.value met since.schema since.same, of⟩

lemma getElem?_move {j : Nat} {call' : Call} {phase phase' : Phase}
    (get : (s.move i call phase).calls[j]? = some (call', phase')) :
    j = i ∧ call' = call ∧ phase' = phase ∨ j ≠ i ∧ s.calls[j]? = some (call', phase') := by
  simp only [State.move, getElem?_set] at get
  split at get
  · rename_i eq
    split at get
    · cases get
      exact .inl ⟨eq.symm, rfl, rfl⟩
    · cases get
  · rename_i ne
    exact .inr ⟨Ne.symm ne, get⟩

lemma Inv.move (h : Inv v₀ s) {old phase : Phase} (get : s.calls[i]? = some (call, old))
    (unreturned : ∀ reply, old ≠ .returned reply)
    (writing : ∀ read w, phase = .writing read w → call.plan read = .write w ∧ Since s.value read)
    (unapplied : ∀ reply, phase = .returned reply → reply.applied = false) : Inv v₀ (s.move i call phase) := by
  refine ⟨h.chain, h.lawful, h.audit, ?_, ?_, ?_⟩
  · intro j call' read w get'
    rcases getElem?_move get' with ⟨-, rfl, eq⟩ | ⟨-, get'⟩
    · exact writing read w eq.symm
    · exact h.writing j call' read w get'
  · intro j call' reply get' applied
    rcases getElem?_move get' with ⟨-, -, eq⟩ | ⟨-, get'⟩
    · rw [unapplied reply eq.symm] at applied
      cases applied
    · exact h.applied j call' reply get' applied
  · intro m mem
    obtain ⟨call', reply, found, applied⟩ := h.history m mem
    refine ⟨call', reply, ?_, applied⟩
    have ne : i ≠ m.index := by
      rintro rfl
      rw [get] at found
      cases found
      exact unreturned reply rfl
    show (s.calls.set i _)[m.index]? = _
    rw [getElem?_set_ne ne]
    exact found

lemma Inv.applyWrite (h : Inv v₀ s) {read : Option Json} {w : Write}
    (get : s.calls[i]? = some (call, .writing read w)) (met : w.expect.met s.value = true)
    (plain : ∀ a, call = .clear a → ∀ k, extra s.value k = none) : Inv v₀ (s.apply i call w) := by
  obtain ⟨eq, of⟩ := h.apply_eq get met
  have lawful : Lawful ⟨i, call, s.value, some (.obj w.blob), w.audit⟩ := by
    refine ⟨eq ▸ of.rev, eq ▸ of.leaves, ?_, plain, of.marked⟩
    intro amends
    refine ⟨eq ▸ of.effective amends, ?_⟩
    intro k
    cases call with
    | place | adopt => cases amends
    | updateReason a => exact eq ▸ of.extras a rfl k
    | clear a => exact (of.dropped a rfl k).trans (plain a rfl k).symm
  refine ⟨h.chain.concat rfl, ?_, ?_, ?_, ?_, ?_⟩
  · intro m mem
    rcases mem_append.1 mem with mem | mem
    · exact h.lawful m mem
    · rw [mem_singleton.1 mem]
      exact lawful
  · show s.audit ++ [w.audit] = (s.history ++ [_]).map Mutation.audit
    rw [h.audit, map_append]
    rfl
  · intro j call' read' w' get'
    rcases getElem?_move get' with ⟨-, -, eq⟩ | ⟨-, get'⟩
    · cases eq
    · obtain ⟨plan, since⟩ := h.writing j call' read' w' get'
      have next : revOf (some (.obj w.blob)) = revOf s.value + 1 := lawful.rev
      have le := since.rev
      refine ⟨plan, ?_, ?_, ?_⟩
      · intro _
        show (hold? (some (.obj w.blob))).isSome = true
        rw [of.schema]
        rfl
      · show revOf read' ≤ revOf (some (.obj w.blob))
        omega
      · intro same
        have same : revOf (some (.obj w.blob)) = revOf read' := same
        omega
  · intro j call' reply get' applied
    rcases getElem?_move get' with ⟨rfl, -, -⟩ | ⟨-, get'⟩
    · exact ⟨_, mem_append_right _ mem_cons_self, rfl⟩
    · obtain ⟨m, mem, index⟩ := h.applied j call' reply get' applied
      exact ⟨m, mem_append_left _ mem, index⟩
  · intro m mem
    rcases mem_append.1 mem with mem | mem
    · obtain ⟨call', reply, found, applied⟩ := h.history m mem
      refine ⟨call', reply, ?_, applied⟩
      have ne : i ≠ m.index := by
        rintro rfl
        rw [get] at found
        cases found
      show (s.calls.set i _)[m.index]? = _
      rw [getElem?_set_ne ne]
      exact found
    · rw [mem_singleton.1 mem]
      refine ⟨call, w.reply, ?_, of.reply⟩
      show (s.calls.set i _)[i]? = _
      rw [getElem?_set_self (List.getElem?_eq_some_iff.1 get).1]

lemma inv_step {l : Label} (h : Inv v₀ s) (plain : ClearsPlain s l) (st : step s l = some s') : Inv v₀ s' := by
  cases l with
  | begin call =>
    cases st
    have found {j : Nat} {call' : Call} {phase : Phase}
        (get : (s.calls ++ [(call, .reading)])[j]? = some (call', phase)) :
        phase = .reading ∨ s.calls[j]? = some (call', phase) := by
      rcases Nat.lt_or_ge j s.calls.length with lt | ge
      · rw [getElem?_append_left lt] at get
        exact .inr get
      · rw [getElem?_append_right ge] at get
        cases mem_singleton.1 (mem_of_getElem? get)
        exact .inl rfl
    refine ⟨h.chain, h.lawful, h.audit, ?_, ?_, ?_⟩
    · intro j call' read w get
      rcases found get with eq | old
      · cases eq
      · exact h.writing j call' read w old
    · intro j call' reply get applied
      rcases found get with eq | old
      · cases eq
      · exact h.applied j call' reply old applied
    · intro m mem
      obtain ⟨call', reply, old, applied⟩ := h.history m mem
      refine ⟨call', reply, ?_, applied⟩
      show (s.calls ++ _)[m.index]? = _
      rw [getElem?_append_left (List.getElem?_eq_some_iff.1 old).1]
      exact old
  | read i ok =>
    simp only [step] at st
    split at st
    · rename_i call get
      cases st
      refine h.move get nofun ?_ ?_
      · intro read w eq
        split at eq
        · cases plan : call.plan s.value with
          | reply => rw [plan] at eq; cases eq
          | write w' =>
            rw [plan] at eq
            cases eq
            exact ⟨plan, fun schema => schema, le_rfl, fun _ => rfl⟩
        · cases eq
      · intro reply eq
        split at eq
        · cases plan : call.plan s.value with
          | reply => rw [plan] at eq; cases eq; exact unapplied_reply plan
          | write => rw [plan] at eq; cases eq
        · cases eq
          rfl
    · cases st
  | write i ok =>
    simp only [step] at st
    split at st
    · rename_i call read w get
      split at st
      · cases st
        refine h.move get nofun (fun _ _ eq => by cases eq) ?_
        intro reply eq
        cases eq
        rfl
      · rename_i good
        split at st
        · rename_i met
          cases st
          refine h.applyWrite get met ?_
          rintro a rfl
          exact plain a read w get (by simpa using good) met
        · cases st
          refine h.move get nofun (fun _ _ eq => by cases eq) ?_
          intro reply eq
          cases eq
          rfl
    · cases st

end Step

/-! ## Every run -/

section Lifecycle
variable {v₀ : Option Json} {s : State}

lemma Chain.amended {v v' : Option Json} {ms : List Mutation} (h : Chain v ms v') (lawful : ∀ m ∈ ms, Lawful m)
    (amends : ∀ m ∈ ms, m.call.amends = true) : effectiveAt v' = effectiveAt v ∧ ∀ k, extra v' k = extra v k := by
  induction ms generalizing v with
  | nil =>
    cases h
    exact ⟨rfl, fun _ => rfl⟩
  | cons m ms ih =>
    obtain ⟨before, rest⟩ := h
    obtain ⟨effective, extras⟩ := ih rest (fun m' mem => lawful m' (mem_cons_of_mem _ mem))
      fun m' mem => amends m' (mem_cons_of_mem _ mem)
    obtain ⟨effective', extras'⟩ := (lawful m mem_cons_self).amends (amends m mem_cons_self)
    rw [before] at effective' extras'
    exact ⟨effective.trans effective', fun k => (extras k).trans (extras' k)⟩

lemma Chain.split {v v' : Option Json} {earlier later : List Mutation} {m : Mutation}
    (h : Chain v (earlier ++ m :: later) v') : Chain m.after later v' := by
  induction earlier generalizing v with
  | nil => exact h.2
  | cons m' earlier ih => exact ih h.2

lemma Inv.lifecycle (h : Inv v₀ s) : HoldLifecycle v₀ s where
  chain := h.chain
  rev m mem := (h.lawful m mem).rev
  audit := h.audit
  applied i call reply get := by
    constructor
    · exact h.applied i call reply get
    · rintro ⟨m, mem, rfl⟩
      obtain ⟨call', reply', found, applied⟩ := h.history m mem
      rw [get] at found
      cases found
      exact applied
  leaves m mem := (h.lawful m mem).leaves
  effective earlier m later split amends _ := by
    have chain := h.chain
    rw [split] at chain
    refine chain.split.amended (fun m' mem => h.lawful m' ?_) amends
    rw [split]
    exact mem_append_right _ (mem_cons_of_mem _ mem)
  readopt earlier m m' a b split adopt clear := by
    -- the adopted hold carries its marker, and such a hold is not cleared
    have chain := h.chain
    rw [split] at chain
    obtain ⟨before, -⟩ := chain.split
    have marked := (h.lawful m (by rw [split]; simp)).marked a adopt
    have plain := (h.lawful m' (by rw [split]; simp)).plain b clear "legacy_marker"
    rw [before] at plain
    exact absurd plain marked

end Lifecycle

/-- In every interleaving of the mutators in which `clear` is applied only to holds without provenance keys,
    the lifecycle of the hold is as it should be. -/
theorem hold_lifecycle {v₀ : Option Json} {labels : List Label} {s : State}
    (plain : service.Meets ClearsPlain { value := v₀ } labels) (run : service.run { value := v₀ } labels = some s) :
    HoldLifecycle v₀ s := by
  have start : Inv v₀ { value := v₀ } := by
    refine ⟨rfl, ?_, rfl, ?_, ?_, ?_⟩
    · intro m mem
      cases mem
    · intro i call read w get
      cases get
    · intro i call reply get
      cases get
    · intro m mem
      cases mem
  exact (Machine.run_invariant (I := Inv v₀) inv_step start plain run).lifecycle

def legacyMarker : Json := .obj [("status", .str "PAUSED"), ("reason_code", .str "DRIFT"),
  ("paused_at", .str "2026-06-22T14:00:00Z"), ("reason", .str "baskets doubled")]

def adoptDrift : Adopt where
  expectedReasonCode := "DRIFT"
  expectedPausedAt := "2026-06-22T14:00:00Z"
  placedBy := "owner"
  now := "2026-07-01T09:00:00Z"

def relabelDrift : UpdateReason where
  expectedRev := 1
  expectedReasonCode := "DRIFT"
  newReasonCode := "ADJUDICATED"
  newReason := "under review"
  updatedAt := "2026-07-02T09:00:00Z"
  updatedBy := "owner"

def clearDrift : Clear where
  expectedRev := 1
  clearedAt := "2026-07-03T09:00:00Z"
  clearedBy := "owner"

/-- A marker is adopted and relabelled; a second relabelling of the same revision loses. -/
theorem adopted_and_relabelled :
    ∃ s, service.run { value := some legacyMarker } [.begin (.adopt adoptDrift), .read 0 true, .write 0 true,
        .begin (.updateReason relabelDrift), .begin (.updateReason relabelDrift), .read 1 true, .read 2 true,
        .write 2 true, .write 1 true] = some s ∧
      HoldLifecycle (some legacyMarker) s ∧ revOf s.value = 2 ∧ extra s.value "legacy_marker" = some legacyMarker := by
  obtain ⟨s, run⟩ := Option.isSome_iff_exists.1 (show (service.run { value := some legacyMarker }
    [.begin (.adopt adoptDrift), .read 0 true, .write 0 true, .begin (.updateReason relabelDrift),
      .begin (.updateReason relabelDrift), .read 1 true, .read 2 true, .write 2 true,
      .write 1 true]).isSome = true by decide)
  exact ⟨s, run, hold_lifecycle (by decide) run,
    Machine.observe (f := fun s => revOf s.value) run (by decide),
    Machine.observe (f := fun s => extra s.value "legacy_marker") run (by decide)⟩

/-- The adopted hold is cleared, and its marker with it: the same adoption is then refused. -/
theorem cleared_adoption_refused :
    ∃ s, service.run { value := some legacyMarker } [.begin (.adopt adoptDrift), .read 0 true, .write 0 true,
        .begin (.clear clearDrift), .read 1 true, .write 1 true] = some s ∧
      adopt adoptDrift s.value = .reply (.refused .adoptionRefused) ∧ extra s.value "legacy_marker" = none ∧
      ¬ HoldLifecycle (some legacyMarker) s := by
  obtain ⟨s, run⟩ := Option.isSome_iff_exists.1 (show (service.run { value := some legacyMarker }
    [.begin (.adopt adoptDrift), .read 0 true, .write 0 true, .begin (.clear clearDrift), .read 1 true,
      .write 1 true]).isSome = true by decide)
  have refused : adopt adoptDrift s.value = .reply (.refused .adoptionRefused) :=
    Machine.observe (f := fun s => adopt adoptDrift s.value) run rfl
  have calls : s.history.map (·.call) = [.adopt adoptDrift, .clear clearDrift] :=
    Machine.observe (f := fun s => s.history.map (·.call)) run rfl
  refine ⟨s, run, refused, Machine.observe (f := fun s => extra s.value "legacy_marker") run (by decide), ?_⟩
  intro lifecycle
  obtain ⟨m, rest, history, adopted, calls⟩ := map_eq_cons_iff.1 calls
  obtain ⟨m', rest, rfl, cleared, nil⟩ := map_eq_cons_iff.1 calls
  cases map_eq_nil_iff.1 nil
  have readopt := lifecycle.readopt [] m m' _ _ history adopted cleared
  rw [refused] at readopt
  cases readopt

end Workbench.Strategies.Hold
