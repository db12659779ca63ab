import Workbench.Governance.ResultsGuard
import Workbench.Governance.RunLifecycle

/-!
# The guard is sound

In every history of concurrent `authorize` calls over one registry, with files that change and processes that die at
any time, a run is granted at most once, two granted holdout runs have no day in common, what was required of the
predecessors held in the registry before the capability row, no granted date is exposed, a call that is refused before
it marks the holdout has created no token file, and a capability is worth nothing once its run is closed
(`results_guard_sound`).
-/

namespace Workbench.Governance
open Lib List Function Option

variable {ν : Type} [DecidableEq ν] {codec : Codec ν} {manifest : GovernanceManifest}
  {limits : Phase → Int → Prop} {n : Nat} {rs rs' : List (ChainRecord ν)} {ss ss' : List RunState} {row : Row ν}

/-! ## What the registry keeps -/

/-- What a run keeps for good. -/
structure RunState.Stays (r r' : RunState) : Prop where
  runId : r'.runId = r.runId
  phase : r'.phase = r.phase
  partition : r'.partition = r.partition
  spec : r'.specSha256 = r.specSha256
  window : r'.holdoutRange = r.holdoutRange
  marked : r.holdoutAuthorizedSeq.isSome → r'.holdoutAuthorizedSeq.isSome

lemma RunState.Stays.refl (r : RunState) : r.Stays r := ⟨rfl, rfl, rfl, rfl, rfl, id⟩

/-- The runs that are closed stay as they are, the others stay the runs they are. -/
structure Extends (ss ss' : List RunState) : Prop where
  closed : ∀ r ∈ ss, r.status ≠ .open → r ∈ ss'
  kept : ∀ r ∈ ss, ∃ r' ∈ ss', RunState.Stays r r'

omit [DecidableEq ν] in
lemma Grows.extends (trail : Trail codec.toDocuments limits rs ss)
    (grows : Grows codec.toDocuments limits n ss row ss') : Extends ss ss' := by
  have replaced : ∀ {run : RunState} {f : RunState → RunState}, run ∈ ss → run.status = .open →
      (∀ r : RunState, r.Stays (f r)) → Extends ss (replace run.runId f ss) := by
    intro run f its isOpen stays
    constructor
    · intro r mem closed
      refine mem_replace.2 ⟨r, mem, if_neg ?_⟩
      intro same
      rw [trail.eq_of_runId mem its same] at closed
      exact closed isOpen
    · intro r mem
      refine ⟨_, mem_replace.2 ⟨r, mem, rfl⟩, ?_⟩
      split
      · exact stays r
      · exact .refl r
  cases grows with
  | opened _ => exact ⟨fun r mem _ => mem_append_left _ mem, fun r mem => ⟨r, mem_append_left _ mem, .refl r⟩⟩
  | closed mem isOpen => exact replaced mem isOpen fun r => ⟨rfl, rfl, rfl, rfl, rfl, id⟩
  | selected mem isOpen => exact replaced mem isOpen fun r => ⟨rfl, rfl, rfl, rfl, rfl, id⟩
  | marked mem isOpen => exact replaced mem isOpen fun r => ⟨rfl, rfl, rfl, rfl, rfl, fun _ => rfl⟩
  | issued mem isOpen => exact replaced mem isOpen fun r => ⟨rfl, rfl, rfl, rfl, rfl, id⟩

/-! ## What a call knows -/

/-- The run of a request. -/
structure IsRun (req : AuthorizeRequest) (r : RunState) : Prop where
  runId : r.runId = req.runId
  spec : r.specSha256 = req.spec.specSha256
  phase : r.phase = req.phase
  partition : r.partition = req.partition

/-- An audit pack that was checked for a predecessor. -/
structure Packed (codec : Codec ν) (spec : String) (need : Required) (run : RunState) (pack : Bytes) : Prop where
  phase : run.phase = need.phase
  spec : run.specSha256 = spec
  completed : run.status = .completed
  capable : run.capabilityIssuedSeq.isSome
  selected : need.needsSelection → run.selectionRecordSeq.isSome
  authorized : need.needsHoldoutAuth → run.holdoutAuthorizedSeq.isSome
  hash : run.auditPackSha256 = some (codec.sha256 pack)
  header : parseAuditPackHeader codec pack = some (run.runId, run.specSha256)

/-- A selection record that was checked for a predecessor. -/
structure Selected (codec : Codec ν) (run : RunState) (body : Dict String ν) : Prop where
  hash : ∃ sha, codec.contentSha256 body = some sha ∧ run.selectionRecordSha256 = some sha
  runId : body.get "run_id" = some (codec.text run.runId)
  spec : body.get "spec_sha256" = some (codec.text run.specSha256)

/-- The artefacts of a predecessor that were checked. -/
structure Verifies (codec : Codec ν) (spec : String) (need : Required) (a : Artefact ν) : Prop where
  packed : Packed codec spec need a.run a.pack
  selected : need.needsSelection → ∃ body ∈ a.selection, Selected codec a.run body

/-- Some of the required predecessors are verified, and these are left. -/
structure Progress (codec : Codec ν) (req : AuthorizeRequest) (ss : List RunState) (todo : List Required)
    (done : List (Artefact ν)) : Prop where
  verified : ∃ needs, requiredPredecessors req.phase = needs ++ todo ∧
    List.Forall₂ (Verifies codec req.spec.specSha256) needs done
  runs : ∀ a ∈ done, a.run ∈ ss

def Stage.knowsRun : Stage → Bool
  | .findOpenRun => false
  | _ => true

/-- The stages at which the window of the run is known to be that of the spec. -/
def Stage.knowsWindow (partition : Partition) : Stage → Bool
  | .findOpenRun | .thisRun | .attemptLimit | .holdoutUnopened => false
  | .validate | .mark | .beginConsume | .commitConsume => true
  | .issue => partition = .holdout

def Stage.marked (partition : Partition) : Stage → Bool
  | .findOpenRun | .thisRun | .attemptLimit | .holdoutUnopened | .validate | .mark => false
  | .beginConsume | .commitConsume => true
  | .issue => partition = .holdout

def Stage.opens : Stage → Bool
  | .holdoutUnopened | .validate | .mark | .beginConsume | .commitConsume => true
  | .findOpenRun | .thisRun | .attemptLimit | .issue => false

/-- What a checked call knows of the registry. -/
structure Knows (codec : Codec ν) (ss : List RunState) (c : Checked ν) (run window marked : Bool) : Prop where
  progress : Progress codec c.req ss [] c.artefacts
  dates : dateRange c.req = .ok c.range
  exposure : checkExposure c.req c.range = .ok ()
  run : run → ∃ r ∈ ss, IsRun c.req r ∧ (window → r.holdoutRange = some c.req.spec.holdout) ∧
    (marked → r.holdoutAuthorizedSeq.isSome)

/-- The capability was issued by a row, and the predecessors were there before it. -/
structure Granted (codec : Codec ν) (rs : List (ChainRecord ν)) (ss : List RunState) (c : Checked ν) : Prop where
  knows : Knows codec ss c true (c.req.partition = .holdout) (c.req.partition = .holdout)
  issued : ∃ earlier r later, rs = earlier ++ r :: later ∧ r.row.issues = some c.req.runId ∧
    ∃ states, fold earlier = .ok states ∧ ∀ a ∈ c.artefacts, a.run ∈ states

def TaskOk (codec : Codec ν) (rs : List (ChainRecord ν)) (ss : List RunState) : Task ν → Prop
  | .reading req runs todo done => (∀ r ∈ runs, r.status = .completed → r ∈ ss) ∧ Progress codec req ss todo done
  | .selecting req runs todo done run pack => (∀ r ∈ runs, r.status = .completed → r ∈ ss) ∧
    ∃ need, Progress codec req ss (need :: todo) done ∧ Packed codec req.spec.specSha256 need run pack ∧ run ∈ ss
  | .checked c stage =>
    Knows codec ss c stage.knowsRun (stage.knowsWindow c.req.partition) (stage.marked c.req.partition) ∧
      (stage.opens → c.req.partition = .holdout)
  | .issued c | .returned c => Granted codec rs ss c
  | .idle | .ordering _ | .refused _ | .dead => True

/-- The task has marked the holdout, or may have. -/
def Task.past : Task ν → Bool
  | .idle | .ordering _ | .reading _ _ _ _ | .selecting _ _ _ _ _ _ => false
  | .checked c stage => stage.marked c.req.partition
  | .refused marked => marked
  | .issued _ | .returned _ | .dead => true

def Task.holds : Task ν → Option String
  | .issued c | .returned c => some c.req.runId
  | _ => none

/-! ## Knowledge is kept -/

lemma exists_of_forall₂_right {α β : Type*} {R : α → β → Prop} {as : List α} {bs : List β} {b : β}
    (h : List.Forall₂ R as bs) (mem : b ∈ bs) : ∃ a ∈ as, R a b := by
  induction h with
  | nil => cases mem
  | cons first _ ih =>
    cases mem with
    | head => exact ⟨_, mem_cons_self, first⟩
    | tail _ mem =>
      obtain ⟨a, mem, rel⟩ := ih mem
      exact ⟨a, mem_cons_of_mem _ mem, rel⟩

lemma exists_of_forall₂_left {α β : Type*} {R : α → β → Prop} {as : List α} {bs : List β} {a : α}
    (h : List.Forall₂ R as bs) (mem : a ∈ as) : ∃ b ∈ bs, R a b :=
  exists_of_forall₂_right h.flip mem

lemma Progress.extends {req : AuthorizeRequest} {todo : List Required} {done : List (Artefact ν)}
    (progress : Progress codec req ss todo done) (more : Extends ss ss') : Progress codec req ss' todo done := by
  refine ⟨progress.verified, fun a mem => more.closed _ (progress.runs a mem) ?_⟩
  obtain ⟨needs, -, verified⟩ := progress.verified
  obtain ⟨need, -, verifies⟩ := exists_of_forall₂_right verified mem
  rw [verifies.packed.completed]
  decide

lemma Knows.extends {c : Checked ν} {run window marked : Bool} (knows : Knows codec ss c run window marked)
    (more : Extends ss ss') : Knows codec ss' c run window marked := by
  refine ⟨knows.progress.extends more, knows.dates, knows.exposure, fun known => ?_⟩
  obtain ⟨r, mem, is, its_window, its_mark⟩ := knows.run known
  obtain ⟨r', mem', stays⟩ := more.kept r mem
  refine ⟨r', mem', ⟨stays.runId.trans is.runId, stays.spec.trans is.spec, stays.phase.trans is.phase,
    stays.partition.trans is.partition⟩, ?_, fun has => stays.marked (its_mark has)⟩
  exact fun has => stays.window.trans (its_window has)

lemma TaskOk.extends {task : Task ν} {more : List (ChainRecord ν)} (ok : TaskOk codec rs ss task)
    (ext : Extends ss ss') : TaskOk codec (rs ++ more) ss' task := by
  have completed : ∀ {r : RunState}, r ∈ ss → r.status = .completed → r ∈ ss' := by
    intro r mem completed
    refine ext.closed r mem ?_
    rw [completed]
    decide
  cases task with
  | reading req runs todo done =>
    exact ⟨fun r mem status => completed (ok.1 r mem status) status, ok.2.extends ext⟩
  | selecting req runs todo done run pack =>
    obtain ⟨old, need, progress, packed, mem⟩ := ok
    exact ⟨fun r mem status => completed (old r mem status) status, need, progress.extends ext, packed,
      completed mem packed.completed⟩
  | checked c stage => exact ⟨ok.1.extends ext, ok.2⟩
  | issued c | returned c =>
    obtain ⟨earlier, r, later, eq, rest⟩ := ok.issued
    exact ⟨ok.knows.extends ext, earlier, r, later ++ more, by rw [eq]; simp, rest⟩
  | idle | ordering _ | refused _ | dead => trivial

/-! ## What the checks establish -/

section Checks

variable {req : AuthorizeRequest} {runs : List RunState} {need : Required} {todo : List Required}
  {done : List (Artefact ν)} {c : Checked ν} {task : Task ν} {stage : Stage}

lemma pickPredecessor_ok {run : RunState} {item : PredecessorEvidence}
    (picked : pickPredecessor req runs need = .ok (run, item)) :
    run ∈ runs ∧ isPredecessor req.spec.specSha256 need run = true ∧
      (need.needsHoldoutAuth → run.holdoutAuthorizedSeq.isSome) := by
  simp only [pickPredecessor, bind_eq_ok, raiseIf_eq_ok, exists_const, orRaise_eq_ok] at picked
  obtain ⟨-, -, found⟩ := picked
  obtain ⟨r, mem, eq⟩ := exists_of_findSome?_eq_some found
  obtain ⟨_, -, eq⟩ := map_eq_some_iff.1 eq
  cases eq
  split at mem
  · rename_i needs
    obtain ⟨mem, authorized⟩ := mem_filter.1 mem
    obtain ⟨mem, is⟩ := mem_filter.1 mem
    exact ⟨mem, is, fun _ => authorized⟩
  · rename_i needs
    obtain ⟨mem, is⟩ := mem_filter.1 mem
    exact ⟨mem, is, fun has => absurd has needs⟩

lemma checkPack_ok {run : RunState} {raw : Option Bytes} {pack : Bytes} (checked : checkPack codec run raw = .ok pack) :
    run.auditPackSha256 = some (codec.sha256 pack) ∧
      parseAuditPackHeader codec pack = some (run.runId, run.specSha256) := by
  simp only [checkPack, bind_eq_ok, orRaise_eq_ok, raiseIf_eq_ok, exists_const, not_not] at checked
  obtain ⟨raw, -, hash, header, eq⟩ := checked
  cases eq
  exact ⟨hash, header⟩

lemma checkSelection_ok {run : RunState} {raw : Option Bytes} {body : Dict String ν}
    (checked : checkSelection codec run raw = .ok body) : Selected codec run body := by
  simp only [checkSelection, bind_eq_ok, orRaise_eq_ok, raiseIf_eq_ok, exists_const, not_not, not_or] at checked
  obtain ⟨raw, -, parsed, -, sha, hash, recorded, body', object, ⟨runId, spec⟩, eq⟩ := checked
  cases eq
  rw [Codec.contentSha256Of, object] at hash
  exact ⟨⟨sha, hash, recorded⟩, runId, spec⟩

lemma packed_of_checks {run : RunState} {item : PredecessorEvidence} {raw : Option Bytes} {pack : Bytes}
    (picked : pickPredecessor req runs need = .ok (run, item)) (checked : checkPack codec run raw = .ok pack) :
    Packed codec req.spec.specSha256 need run pack ∧ run ∈ runs := by
  obtain ⟨mem, is, authorized⟩ := pickPredecessor_ok picked
  obtain ⟨hash, header⟩ := checkPack_ok checked
  simp only [isPredecessor, Bool.and_eq_true, decide_eq_true_eq, Bool.or_eq_true, Bool.not_eq_true'] at is
  obtain ⟨⟨⟨⟨spec, phase⟩, completed⟩, capable⟩, selected⟩ := is
  refine ⟨⟨phase, spec, completed, capable, ?_, authorized, hash, header⟩, mem⟩
  intro needs
  rcases selected with no | has
  · rw [no] at needs
    cases needs
  · exact has

lemma Progress.next {a : Artefact ν} (progress : Progress codec req ss (need :: todo) done)
    (verifies : Verifies codec req.spec.specSha256 need a) (mem : a.run ∈ ss) :
    Progress codec req ss todo (done ++ [a]) := by
  obtain ⟨⟨needs, eq, verified⟩, runs⟩ := progress
  refine ⟨⟨needs ++ [need], by rw [eq]; simp, ?_⟩, ?_⟩
  · exact rel_append verified (.cons verifies .nil)
  · intro b mem'
    rcases mem_append.1 mem' with mem' | mem'
    · exact runs b mem'
    · rw [mem_singleton.1 mem']
      exact mem

lemma nextPredecessor_ok (old : ∀ r ∈ runs, r.status = .completed → r ∈ ss)
    (progress : Progress codec req ss todo done) (eq : nextPredecessor req runs todo done = .ok task) :
    TaskOk codec rs ss task ∧ task.holds = none := by
  cases todo with
  | nil =>
    simp only [nextPredecessor, resolve, bind_eq_ok] at eq
    obtain ⟨range, dates, _, exposure, eq⟩ := eq
    cases eq
    exact ⟨⟨⟨progress, dates, exposure, fun known => by cases known⟩, fun has => by cases has⟩, rfl⟩
  | cons need todo =>
    cases eq
    exact ⟨⟨old, progress⟩, rfl⟩

omit [DecidableEq ν] in
lemma readRuns_ok {f : List RunState → Except Refusal (Task ν)} (trail : Trail codec.toDocuments limits rs ss)
    (eq : readRuns rs f = .ok task) : f ss = .ok task := by
  rw [readRuns, trail.folds] at eq
  exact eq

lemma findOpenRun_ok {run : RunState} (found : findOpenRun ss req = .ok run) : run ∈ ss ∧ IsRun req run := by
  simp only [findOpenRun, bind_eq_ok, orRaise_eq_ok, raiseIf_eq_ok, exists_const, not_not, Prod.mk.injEq] at found
  obtain ⟨r, first, -, ⟨spec, phase, partition⟩, eq⟩ := found
  cases eq
  exact ⟨mem_of_find?_eq_some first, by simpa using find?_some first, spec, phase, partition⟩

omit [DecidableEq ν] in
lemma checkHoldoutUnopened_ok (trail : Trail codec.toDocuments limits rs ss)
    (checked : checkHoldoutUnopened ss req = .ok ()) {r : RunState} (mem : r ∈ ss) (is : IsRun req r) :
    r.holdoutRange = some req.spec.holdout := by
  simp only [checkHoldoutUnopened, bind_eq_ok, orRaise_eq_ok, raiseIf_eq_ok, exists_const, not_not] at checked
  obtain ⟨run, first, window, -⟩ := checked
  have same : run.runId = r.runId := by
    have this : run.runId = req.runId := by simpa using find?_some first
    rw [this, is.runId]
  rw [← trail.eq_of_runId (mem_of_find?_eq_some first) mem same]
  exact window

lemma look_ok (trail : Trail codec.toDocuments limits rs ss) (ok : TaskOk codec rs ss (.checked c stage))
    (eq : c.look manifest ss stage = .ok task) : TaskOk codec rs ss task ∧ task.holds = none := by
  obtain ⟨knows, opens⟩ := ok
  cases stage with
  | findOpenRun =>
    simp only [Checked.look, bind_eq_ok] at eq
    obtain ⟨run, found, eq⟩ := eq
    cases eq
    obtain ⟨mem, is⟩ := findOpenRun_ok found
    refine ⟨⟨⟨knows.progress, knows.dates, knows.exposure, fun _ => ⟨run, mem, is, ?_, ?_⟩⟩, ?_⟩, rfl⟩ <;>
      exact fun has => by cases has
  | thisRun =>
    simp only [Checked.look, bind_eq_ok] at eq
    obtain ⟨_, -, eq⟩ := eq
    cases eq
    exact ⟨⟨knows, fun has => by cases has⟩, rfl⟩
  | attemptLimit =>
    simp only [Checked.look, bind_eq_ok] at eq
    obtain ⟨limit, -, eq⟩ := eq
    cases eq
    obtain ⟨r, mem, is, -⟩ := knows.run rfl
    by_cases holdout : c.req.partition = .holdout
    · rw [if_pos holdout]
      refine ⟨⟨⟨knows.progress, knows.dates, knows.exposure, fun _ => ⟨r, mem, is, ?_, ?_⟩⟩, fun _ => holdout⟩, rfl⟩ <;>
        exact fun has => by cases has
    · rw [if_neg holdout]
      refine ⟨⟨⟨knows.progress, knows.dates, knows.exposure, fun _ => ⟨r, mem, is, ?_, ?_⟩⟩, fun has => by cases has⟩,
        rfl⟩ <;>
        exact fun has => absurd (of_decide_eq_true has) holdout
  | holdoutUnopened =>
    simp only [Checked.look, bind_eq_ok, raiseIf_eq_ok, exists_const] at eq
    obtain ⟨_, checked, -, eq⟩ := eq
    cases eq
    obtain ⟨r, mem, is, -⟩ := knows.run rfl
    refine ⟨⟨⟨knows.progress, knows.dates, knows.exposure, fun _ => ⟨r, mem, is, ?_, ?_⟩⟩, fun _ => opens rfl⟩, rfl⟩
    · exact fun _ => checkHoldoutUnopened_ok trail checked mem is
    · exact fun has => by cases has
  | validate | mark | beginConsume | commitConsume | issue => cases eq

end Checks

/-! ## The invariant -/

/-- What holds of the registry and of every call. -/
structure Inv (codec : Codec ν) (s : GuardState ν) (ss : List RunState) : Prop where
  trail : Trail codec.toDocuments (fun _ _ => True) s.registry.records ss
  tasks : ∀ k, TaskOk codec s.registry.records ss (s.tasks k)
  once : ∀ k k' id, (s.tasks k).holds = some id → (s.tasks k').holds = some id → k = k'
  created : ∀ e ∈ s.created, (s.tasks e.1).past = true

variable {s t : GuardState ν}

lemma guarded_inv {g : String} : Inv codec (guarded g : GuardState ν) [] where
  trail := .enrolled
  tasks := fun _ => trivial
  once := fun _ _ _ has => by cases has
  created := fun _ mem => absurd mem not_mem_nil

lemma Inv.update (inv : Inv codec s ss) {k : Nat} {task : Task ν} (ok : TaskOk codec s.registry.records ss task)
    (holds : ∀ id, task.holds = some id → ∀ k', k' ≠ k → (s.tasks k').holds ≠ some id)
    (past : (s.tasks k).past = true → task.past = true) :
    Inv codec { s with tasks := Function.update s.tasks k task } ss := by
  refine ⟨inv.trail, ?_, ?_, ?_⟩
  · intro k'
    by_cases eq : k' = k
    · subst eq
      simpa only [update_self] using ok
    · simpa only [update_of_ne eq] using inv.tasks k'
  · intro i j id has has'
    by_cases eq : i = k
    · by_cases eq' : j = k
      · rw [eq, eq']
      · rw [eq] at has
        simp only [update_self, update_of_ne eq'] at has has'
        exact absurd has' (holds id has j eq')
    · by_cases eq' : j = k
      · rw [eq'] at has'
        simp only [update_self, update_of_ne eq] at has has'
        exact absurd has (holds id has' i eq)
      · simp only [update_of_ne eq, update_of_ne eq'] at has has'
        exact inv.once i j id has has'
  · intro e mem
    by_cases eq : e.1 = k
    · simp only [eq, update_self]
      exact past (eq ▸ inv.created e mem)
    · simpa only [update_of_ne eq] using inv.created e mem

lemma Inv.move (inv : Inv codec s ss) {k : Nat} {marked : Bool} {next : Except Refusal (Task ν)}
    (ok : ∀ task, next = .ok task → TaskOk codec s.registry.records ss task ∧ task.holds = none)
    (past : (s.tasks k).past = true → marked = true ∧ ∀ task, next = .ok task → task.past = true) :
    Inv codec (s.move k marked next) ss := by
  cases next with
  | ok task =>
    obtain ⟨ok, none⟩ := ok task rfl
    refine inv.update ok ?_ fun was => (past was).2 task rfl
    intro id has
    rw [none] at has
    cases has
  | error e => exact inv.update trivial (fun id has => by cases has) fun was => (past was).1

lemma Inv.moveEarly (inv : Inv codec s ss) {k : Nat} {old : Task ν} {next : Except Refusal (Task ν)}
    (task : s.tasks k = old) (early : old.past = false)
    (ok : ∀ task, next = .ok task → TaskOk codec s.registry.records ss task ∧ task.holds = none) :
    Inv codec (s.move k false next) ss := by
  refine inv.move ok fun was => ?_
  rw [task, early] at was
  cases was

lemma Inv.grow (inv : Inv codec s ss) {c : Call ν} (built : build codec.toDocuments s.registry.records c = .ok row)
    (aborting : Nat → List String) :
    ∃ ss', Grows codec.toDocuments (fun _ _ => True) (s.registry.records.length + 1) ss row ss' ∧
      Extends ss ss' ∧ Inv codec { s with registry := ⟨append s.registry.records row, aborting⟩ } ss' := by
  obtain ⟨ss', grows⟩ := inv.trail.build built fun _ _ _ _ => trivial
  have ext := grows.extends inv.trail
  exact ⟨ss', grows, ext, inv.trail.grow grows, fun k => (inv.tasks k).extends ext, inv.once, inv.created⟩

lemma Inv.registry (inv : Inv codec s ss) {l : Label ν} {r : State ν}
    (st : (Governance.registry codec.toDocuments).step s.registry l = some r) :
    ∃ ss', Inv codec { s with registry := r } ss' := by
  rcases registry_step st with same | ⟨c, row, built, eq, -⟩
  · refine ⟨ss, by rw [same]; exact inv.trail, ?_, inv.once, inv.created⟩
    intro k
    rw [same]
    exact inv.tasks k
  · obtain ⟨ss', -, -, grown⟩ := inv.grow built r.aborting
    refine ⟨ss', by rw [eq]; exact grown.trail, ?_, inv.once, inv.created⟩
    intro k
    rw [eq]
    exact grown.tasks k

lemma Inv.create (inv : Inv codec s ss) {k d : Nat} {spec : String} {kind : TokenKind} {content : TokenFile}
    {whole : Bool} {next : Task ν} (was : (s.tasks k).past = true) (ok : TaskOk codec s.registry.records ss next)
    (holds : next.holds = none) (past : next.past = true) :
    Inv codec (s.create k d spec kind content whole next) ss := by
  rw [GuardState.create]
  split
  · exact inv.move (fun _ eq => by cases eq) fun _ => ⟨rfl, fun _ eq => by cases eq⟩
  · rename_i files _
    have more : Inv codec { s with stores := Function.update s.stores d files, created :=
        (k, d, kind) :: s.created } ss := by
      refine ⟨inv.trail, inv.tasks, inv.once, ?_⟩
      intro e mem
      cases mem with
      | head => exact was
      | tail _ mem => exact inv.created e mem
    refine more.move ?_ fun _ => ⟨rfl, ?_⟩
    · intro task eq
      cases whole with
      | true => cases eq; exact ⟨ok, holds⟩
      | false => cases eq
    · intro task eq
      cases whole with
      | true => cases eq; exact past
      | false => cases eq

lemma Inv.mark (inv : Inv codec s ss) {k : Nat} {c : Checked ν} (task : s.tasks k = .checked c .mark) :
    ∃ ss', Inv codec (s.append codec k false (.markHoldoutAuthorized c.req.runId) (.checked c .beginConsume)) ss' := by
  rw [GuardState.append]
  split
  · rename_i row built
    obtain ⟨ss', grows, ext, grown⟩ := inv.grow built s.registry.aborting
    refine ⟨ss', grown.update ?_ (fun id has => by cases has) fun _ => rfl⟩
    have ok := inv.tasks k
    rw [task] at ok
    obtain ⟨progress, dates, exposure, run⟩ := ok.1.extends ext
    refine ⟨⟨progress, dates, exposure, fun _ => ?_⟩, fun _ => ok.2 rfl⟩
    obtain ⟨r, mem, is, window, -⟩ := run rfl
    refine ⟨r, mem, is, window, fun _ => ?_⟩
    exact Trail.marks_sets grows (build_holdout_row built) mem is.runId
  · exact ⟨ss, inv.moveEarly task rfl fun _ eq => by cases eq⟩

lemma Inv.issue (inv : Inv codec s ss) {k : Nat} {c : Checked ν} {evidence : List Evidence}
    (task : s.tasks k = .checked c .issue) :
    ∃ ss', Inv codec (s.append codec k (c.req.partition = .holdout)
      (.markCapabilityIssued c.req.runId evidence (some manifest.sha256) c.limit) (.issued c)) ss' := by
  have knows : Knows codec ss c true (c.req.partition = .holdout) (c.req.partition = .holdout) := by
    have ok := inv.tasks k
    rw [task] at ok
    exact ok.1
  rw [GuardState.append]
  split
  · rename_i row built
    have issues := build_capability_row built
    obtain ⟨ss', grows, ext, grown⟩ := inv.grow built s.registry.aborting
    refine ⟨ss', grown.update ?_ ?_ fun _ => rfl⟩
    · refine ⟨knows.extends ext, s.registry.records, _, [], rfl, issues, ss, inv.trail.folds, ?_⟩
      exact knows.progress.runs
    · -- the run had no capability before, so no other task holds one
      intro id has k' _ has'
      cases has
      obtain ⟨run, mem, eq, none⟩ := Trail.issues_needs grows issues
      have granted : ∃ c', s.tasks k' = .issued c' ∨ s.tasks k' = .returned c' := by
        cases eq' : s.tasks k' with
        | issued c' => exact ⟨c', .inl rfl⟩
        | returned c' => exact ⟨c', .inr rfl⟩
        | _ => rw [eq'] at has'; cases has'
      obtain ⟨c', its⟩ := granted
      have ok := inv.tasks k'
      have other : Granted codec s.registry.records ss c' ∧ c'.req.runId = c.req.runId := by
        rcases its with its | its <;> rw [its] at ok has' <;> exact ⟨ok, some.inj has'⟩
      obtain ⟨earlier, r, later, split, issued, -⟩ := other.1.issued
      have has := inv.trail.has_capability (r := r) (by rw [split]; simp) issued mem (eq.trans other.2.symm)
      rw [none] at has
      cases has
  · refine ⟨ss, inv.move (fun _ eq => by cases eq) fun was => ?_⟩
    rw [task] at was
    exact ⟨was, fun _ eq => by cases eq⟩

lemma Inv.step {l : GuardLabel ν} (inv : Inv codec s ss) (st : (resultsGuard codec manifest).step s l = some t) :
    ∃ ss', Inv codec t ss' := by
  cases l with
  | registry l =>
    obtain ⟨r, step, rfl⟩ := map_eq_some_iff.1 st
    exact inv.registry step
  | authorize k req =>
    simp only [resultsGuard] at st
    split at st
    · rename_i task
      cases st
      refine ⟨ss, inv.moveEarly task rfl ?_⟩
      intro next eq
      cases passed : checkRequest manifest s.registry.records req with
      | ok _ => rw [passed] at eq; cases eq; exact ⟨trivial, rfl⟩
      | error _ => rw [passed] at eq; cases eq
    · cases st
  | order k =>
    simp only [resultsGuard] at st
    split at st
    · rename_i req task
      cases st
      refine ⟨ss, inv.moveEarly task rfl ?_⟩
      intro next eq
      refine nextPredecessor_ok (fun r mem _ => mem) ?_ (readRuns_ok inv.trail eq)
      exact ⟨⟨[], rfl, .nil⟩, fun a mem => absurd mem not_mem_nil⟩
    · cases st
  | readPack k raw =>
    simp only [resultsGuard] at st
    split at st
    · rename_i req runs need todo done task
      cases st
      refine ⟨ss, inv.moveEarly task rfl ?_⟩
      obtain ⟨old, progress⟩ : (∀ r ∈ runs, r.status = .completed → r ∈ ss) ∧
          Progress codec req ss (need :: todo) done := by
        have ok := inv.tasks k
        rw [task] at ok
        exact ok
      intro next eq
      simp only [bind_eq_ok, Prod.exists] at eq
      obtain ⟨run, item, picked, pack, checked, eq⟩ := eq
      obtain ⟨packed, mem⟩ := packed_of_checks picked checked
      have its := old run mem packed.completed
      split at eq
      · rename_i needs
        simp only [bind_eq_ok] at eq
        obtain ⟨_, -, eq⟩ := eq
        cases eq
        exact ⟨⟨old, need, progress, packed, its⟩, rfl⟩
      · rename_i needs
        exact nextPredecessor_ok old (progress.next ⟨packed, fun has => absurd has needs⟩ its) eq
    · cases st
  | readSelection k raw =>
    simp only [resultsGuard] at st
    split at st
    · rename_i req runs todo done run pack task
      cases st
      refine ⟨ss, inv.moveEarly task rfl ?_⟩
      have ok := inv.tasks k
      rw [task] at ok
      obtain ⟨old, need, progress, packed, its⟩ := ok
      intro next eq
      simp only [bind_eq_ok] at eq
      obtain ⟨body, checked, eq⟩ := eq
      refine nextPredecessor_ok old (progress.next ⟨packed, fun _ => ?_⟩ its) eq
      exact ⟨body, rfl, checkSelection_ok checked⟩
    · cases st
  | proceed k =>
    simp only [resultsGuard] at st
    split at st
    · rename_i c task
      cases st
      exact inv.mark task
    · rename_i c task
      cases st
      exact inv.issue task
    · rename_i c stage _ _ task
      split at st
      · rename_i mem
        cases st
        have ok := inv.tasks k
        rw [task] at ok
        refine ⟨ss, inv.moveEarly task ?_ fun next eq => look_ok inv.trail ok (readRuns_ok inv.trail eq)⟩
        cases stage with
        | findOpenRun | thisRun | attemptLimit | holdoutUnopened => rfl
        | validate | mark | beginConsume | commitConsume | issue => simp at mem
      · cases st
    · cases st
  | validate k view =>
    simp only [resultsGuard] at st
    split at st
    · rename_i c task
      cases st
      refine ⟨ss, inv.moveEarly task rfl ?_⟩
      have ok := inv.tasks k
      rw [task] at ok
      intro next eq
      simp only [bind_eq_ok] at eq
      obtain ⟨_, -, _, -, eq⟩ := eq
      cases eq
      exact ⟨⟨⟨ok.1.progress, ok.1.dates, ok.1.exposure, ok.1.run⟩, ok.2⟩, rfl⟩
    · cases st
  | beginConsume k view whole =>
    simp only [resultsGuard] at st
    split at st
    · rename_i c task
      have ok := inv.tasks k
      rw [task] at ok
      split at st
      · split at st
        · cases st
          exact ⟨ss, inv.create (by rw [task]; rfl) ok rfl rfl⟩
        · cases st
          exact ⟨ss, inv.move (fun _ eq => by cases eq) fun _ => ⟨rfl, fun _ eq => by cases eq⟩⟩
      · cases st
    · cases st
  | commitConsume k intent whole =>
    simp only [resultsGuard] at st
    split at st
    · rename_i c task
      have ok := inv.tasks k
      rw [task] at ok
      split at st
      · split at st
        · cases st
          have holdout := ok.2 rfl
          refine ⟨ss, inv.create (by rw [task]; rfl) ⟨?_, fun has => by cases has⟩ rfl (decide_eq_true holdout)⟩
          obtain ⟨r, mem, is, window, marked⟩ := ok.1.run rfl
          exact ⟨ok.1.progress, ok.1.dates, ok.1.exposure, fun _ => ⟨r, mem, is, fun _ => window rfl, fun _ =>
            marked rfl⟩⟩
        · cases st
          exact ⟨ss, inv.move (fun _ eq => by cases eq) fun _ => ⟨rfl, fun _ eq => by cases eq⟩⟩
      · cases st
    · cases st
  | giveBack k =>
    simp only [resultsGuard] at st
    split at st
    · rename_i c task
      cases st
      have ok := inv.tasks k
      rw [task] at ok
      refine ⟨ss, inv.update ok ?_ fun _ => rfl⟩
      intro id has k' ne has'
      exact ne (inv.once k' k id has' (by rw [task]; exact has))
    · cases st
  | crash k =>
    cases st
    exact ⟨ss, inv.update trivial (fun id has => by cases has) fun _ => rfl⟩
  | setStore d files =>
    cases st
    exact ⟨ss, inv.trail, inv.tasks, inv.once, inv.created⟩

/-! ## What is granted -/

/-- No date of a granted call is exposed; the ledger in use is the one whose digest the spec records. -/
structure Unexposed (c : Checked ν) : Prop where
  r2 : ∀ d ∈ c.range, d ∉ r2ExcludedWindow
  spec : ∀ w ∈ c.req.spec.exposed, ∀ d ∈ c.range, d ∉ w
  bound : c.req.spec.exposureLedgerSha256 = some c.req.exposureLedger.sha256
  ledger : ∀ e ∈ c.req.exposureLedger.entries, ∀ d ∈ c.range, d ∉ e.window

/-- What is claimed of the guard. -/
structure Sound (codec : Codec ν) (s : GuardState ν) : Prop where
  once : ∀ {k k' c c'}, s.tasks k = .returned c → s.tasks k' = .returned c' →
    (c.capability codec).runId = (c'.capability codec).runId → k = k'
  holdouts : ∀ {k k' c c'}, k ≠ k' → s.tasks k = .returned c → s.tasks k' = .returned c' →
    (c.capability codec).partition = .holdout → (c'.capability codec).partition = .holdout →
    ∃ states, fold s.registry.records = .ok states ∧ ∃ r ∈ states, ∃ r' ∈ states,
      r.runId = (c.capability codec).runId ∧ r'.runId = (c'.capability codec).runId ∧ r.Apart r' ∧
      (∀ w ∈ r.holdoutRange, ∀ d ∈ (c.capability codec).dateRange, d ∈ w)
  predecessors : ∀ {k c}, s.tasks k = .returned c → ∃ earlier r later,
    s.registry.records = earlier ++ r :: later ∧ r.row.issues = some (c.capability codec).runId ∧
      ∃ states, fold earlier = .ok states ∧ ∀ need ∈ requiredPredecessors (c.capability codec).phase,
        ∃ a ∈ c.artefacts, a.run ∈ states ∧ Verifies codec (c.capability codec).specSha256 need a
  exposure : ∀ {k c}, s.tasks k = .returned c → (c.capability codec).partition ≠ .replayRng001 → Unexposed c
  replay : ∀ {k c}, s.tasks k = .returned c → (c.capability codec).partition = .replayRng001 →
    ∀ d ∈ (c.capability codec).dateRange,
      d ∉ c.req.spec.selection ∧ d ∉ c.req.spec.confirmation ∧ d ∉ c.req.spec.holdout
  early : ∀ {k}, s.tasks k = .refused false → ∀ e ∈ s.created, e.1 ≠ k
  revoked : ∀ {k c}, s.tasks k = .returned c → ∀ r ∈ s.registry.records,
    r.row.closes = some (c.capability codec).runId →
      ∃ states, fold s.registry.records = .ok states ∧ requireCapability states (c.capability codec) = false

omit [DecidableEq ν] in
lemma unexposed_of_check {c : Checked ν} (passed : checkExposure c.req c.range = .ok ())
    (cited : c.req.partition ≠ .replayRng001) : Unexposed c := by
  have citable : citable c.req = true := decide_eq_true cited
  simp only [checkExposure, citable, if_true, bind_eq_ok, raiseIf_eq_ok, orRaise_eq_ok, exists_const, not_not] at passed
  obtain ⟨r2, spec, -, recorded, records, eq, ledger⟩ := passed
  rw [filter_eq_some_iff] at records
  refine ⟨?_, ?_, by rw [records.1, eq], ?_⟩
  · intro d mem mem'
    exact r2 (DateRange.overlaps_iff.2 ⟨d, mem, mem'⟩)
  · intro w exposed d mem mem'
    exact spec (any_eq_true.2 ⟨w, exposed, DateRange.overlaps_iff.2 ⟨d, mem, mem'⟩⟩)
  · intro e entry d mem mem'
    exact ledger (any_eq_true.2 ⟨e, entry, DateRange.overlaps_iff.2 ⟨d, mem', mem⟩⟩)

lemma replay_of_dates {req : AuthorizeRequest} {range : DateRange} (dates : dateRange req = .ok range)
    (replay : req.partition = .replayRng001) :
    ∀ d ∈ range, d ∉ req.spec.selection ∧ d ∉ req.spec.confirmation ∧ d ∉ req.spec.holdout := by
  simp only [dateRange, partitionRange, replay, bind_eq_ok, orRaise_eq_ok, checkFreeRange, raiseIf_eq_ok,
    exists_const] at dates
  obtain ⟨_, -, ⟨free, -⟩, eq⟩ := dates
  cases eq
  have clear : ∀ w ∈ [req.spec.selection, req.spec.confirmation, req.spec.holdout], ∀ d ∈ range, d ∉ w := by
    intro w mem d day day'
    exact free (any_eq_true.2 ⟨w, mem, DateRange.overlaps_iff.2 ⟨d, day, day'⟩⟩)
  exact fun d day => ⟨clear _ (by simp) d day, clear _ (by simp) d day, clear _ (by simp) d day⟩

lemma holdout_of_dates {req : AuthorizeRequest} {range : DateRange} (dates : dateRange req = .ok range)
    (holdout : req.partition = .holdout) : ∀ d ∈ range, d ∈ req.spec.holdout := by
  simp only [dateRange, partitionRange, holdout, bind_eq_ok, raiseIf_eq_ok, exists_const] at dates
  obtain ⟨within, eq⟩ := dates
  cases eq
  intro d mem
  cases requested : req.requestedRange with
  | none =>
    rw [requested] at mem
    exact mem
  | some r =>
    rw [requested] at mem within
    exact DateRange.mem_of_contains (by simpa using within) mem

lemma Inv.granted (inv : Inv codec s ss) {k : Nat} {c : Checked ν} (task : s.tasks k = .returned c) :
    Granted codec s.registry.records ss c := by
  have ok := inv.tasks k
  rw [task] at ok
  exact ok

lemma Inv.sound (inv : Inv codec s ss) : Sound codec s where
  once := by
    intro k k' c c' task task' eq
    refine inv.once k k' _ (by rw [task]; rfl) ?_
    rw [task']
    exact congrArg some eq.symm
  holdouts := by
    intro k k' c c' ne task task' holdout holdout'
    obtain ⟨r, mem, is, window, marked⟩ := (inv.granted task).knows.run rfl
    obtain ⟨r', mem', is', -, marked'⟩ := (inv.granted task').knows.run rfl
    have other : r.runId ≠ r'.runId := by
      intro same
      refine ne (inv.once k k' r.runId ?_ ?_)
      · rw [task, is.runId]
        rfl
      · rw [task', same, is'.runId]
        rfl
    refine ⟨ss, inv.trail.folds, r, mem, r', mem', is.runId, is'.runId, ?_, ?_⟩
    · exact inv.trail.apart r mem r' mem' other (marked (decide_eq_true holdout)) (marked' (decide_eq_true holdout'))
    · intro w its d day
      rw [window (decide_eq_true holdout)] at its
      cases its
      exact holdout_of_dates (inv.granted task).knows.dates holdout d day
  predecessors := by
    intro k c task
    obtain ⟨knows, earlier, r, later, split, issues, states, folds, runs⟩ := inv.granted task
    refine ⟨earlier, r, later, split, issues, states, folds, ?_⟩
    intro need mem
    obtain ⟨needs, eq, verified⟩ := knows.progress.verified
    rw [append_nil] at eq
    obtain ⟨a, mem', verifies⟩ := exists_of_forall₂_left verified (eq ▸ mem)
    exact ⟨a, mem', runs a mem', verifies⟩
  exposure := fun task cited => unexposed_of_check (inv.granted task).knows.exposure cited
  replay := fun task replay => replay_of_dates (inv.granted task).knows.dates replay
  early := by
    intro k task e mem eq
    have past := inv.created e mem
    rw [eq, task] at past
    cases past
  revoked := by
    intro k c _ r mem closes
    refine ⟨ss, inv.trail.folds, ?_⟩
    rw [requireCapability]
    cases found : ss.find? (·.runId = (c.capability codec).runId) with
    | none => rfl
    | some run =>
      have closed := inv.trail.not_open_of_closes mem closes (mem_of_find?_eq_some found)
        (by simpa using find?_some found)
      simp [closed]

/-- The guard is sound in every history. -/
theorem results_guard_sound {g : String} {ls : List (GuardLabel ν)} {s : GuardState ν}
    (run : (resultsGuard codec manifest).run (guarded g) ls = some s) : Sound codec s := by
  obtain ⟨ss, inv⟩ := Machine.run_invariant (I := fun s => ∃ ss, Inv codec s ss)
    (fun ⟨_, inv⟩ _ st => inv.step st) ⟨[], guarded_inv⟩ Machine.meets_true run
  exact inv.sound

/-! ## Two calls for one run -/

def plainCodec : Codec String where
  toDocuments := plainDocuments
  loads _ := none
  object _ := none
  otherSha256 _ := none
  asText s := some s
  int n := toString n
  dumps _ := []
  sha256 raw := toString raw.length

def sampleManifest : GovernanceManifest where
  approvedRegistryGenesisId := some "genesis"
  maxP3aAttempts := some 2
  maxP3bAttempts := some 2
  sha256 := letters 'b'

def sampleSpec : GuardSpecView where
  specSha256 := letters 'a'
  isSigned := true
  selection := selectionYears
  confirmation := ⟨⟨2022, 1, 1, by decide⟩, ⟨2023, 12, 31, by decide⟩, by decide⟩
  holdout := ⟨⟨2024, 1, 1, by decide⟩, ⟨2025, 12, 31, by decide⟩, by decide⟩
  p3Criteria := true
  exitsCandidates := true
  exitsSelection := true
  exposed := [⟨⟨2018, 1, 1, by decide⟩, ⟨2018, 3, 31, by decide⟩, by decide⟩]
  exposureLedgerSha256 := some (letters 'e')
  registryGenesisId := some "genesis"
  maxP3aAttempts := some 2
  maxP3bAttempts := some 2

def sampleRequest : AuthorizeRequest where
  spec := sampleSpec
  phase := .p3a
  partition := .developmentSelection
  runId := runIdText 2
  exposureLedger := ⟨[⟨"study", ⟨⟨2018, 2, 1, by decide⟩, ⟨2018, 6, 30, by decide⟩, by decide⟩⟩], true, letters 'e'⟩

def racingCalls : List (GuardLabel String) :=
  [.registry (.call (openP3a 'a')), .authorize 0 sampleRequest, .authorize 1 sampleRequest, .order 0, .order 1,
    .proceed 0, .proceed 1, .proceed 0, .proceed 1, .proceed 0, .proceed 1, .proceed 0, .proceed 1, .giveBack 0]

def Task.outcome : Task ν → String
  | .returned _ => "returned"
  | .refused _ => "refused"
  | _ => "running"

theorem racing_calls_sound :
    ∃ s, (resultsGuard plainCodec sampleManifest).run (guarded "genesis") racingCalls = some s ∧
      (s.tasks 0).outcome = "returned" ∧ (s.tasks 1).outcome = "refused" ∧ Sound plainCodec s := by
  obtain ⟨s, run⟩ := isSome_iff_exists.1
    (show ((resultsGuard plainCodec sampleManifest).run (guarded "genesis") racingCalls).isSome = true by
      decide +kernel)
  have first := Machine.observe (f := fun s => (s.tasks 0).outcome) (x := "returned") run (by decide +kernel)
  have second := Machine.observe (f := fun s => (s.tasks 1).outcome) (x := "refused") run (by decide +kernel)
  exact ⟨s, run, first, second, results_guard_sound run⟩

end Workbench.Governance
