import Workbench.Governance.RunRegistry

/-!
# The lifecycle of a run

What holds of every registry that its own calls wrote, whatever their order and whoever made them: the fold reads it,
a run is closed once and nothing names it after that, a completed run was authorized first, digests are not used
twice, a run has one capability, one selection and one holdout mark, the attempts of a phase keep their limit, and
no day is in the windows of two runs that were authorized to open the holdout (`run_registry_lifecycle`).
-/

namespace Workbench.Governance
open Lib List

variable {ν : Type} {docs : Documents ν}

/-! ## What a row does -/

def Row.closes : Row ν → Option String
  | .runClosed id _ _ => some id
  | _ => none

def Row.selects : Row ν → Option String
  | .selectionRecord id _ _ => some id
  | _ => none

/-- The run that a row authorizes to open the holdout. -/
def Row.marks : Row ν → Option String
  | .holdoutAuthorized id => some id
  | _ => none

/-- The run that a row issues a capability for. -/
def Row.issues : Row ν → Option String
  | .capabilityIssued p => some p.runId
  | _ => none

/-- What an append does to the states, by the row that it writes. Every row but the first of a run finds the run
    open; `limits` are the attempt limits that the calls passed. -/
inductive Grows (docs : Documents ν) (limits : Phase → Int → Prop) (seq : Nat) (ss : List RunState) :
    Row ν → List RunState → Prop
  | opened {req : OpenRequest} (passed : req.check = .ok ()) :
      Grows docs limits seq ss (.runOpened (req.payload (runIdText seq))) (ss ++ [req.state seq])
  | closed {run : RunState} {status : RunStatus} {audit : Option String} (mem : run ∈ ss) (isOpen : run.status = .open)
      (closing : status ≠ .open) (capable : status = .completed → run.capabilityIssuedSeq.isSome)
      (digest : status = .completed → audit.isSome)
      (unused : audit.isSome → ∀ s ∈ ss, s.runId ≠ run.runId → s.auditPackSha256 ≠ audit) :
      Grows docs limits seq ss (.runClosed run.runId status.value audit)
        (replace run.runId (RunState.close status audit) ss)
  | selected {run : RunState} {body : Dict String ν} {sha : String} (mem : run ∈ ss) (isOpen : run.status = .open)
      (phase : run.phase = .p3a) (first : run.selectionRecordSeq = none) (hash : docs.contentSha256 body = some sha)
      (embeds : body.get "run_id" = some (docs.text run.runId) ∧
        body.get "spec_sha256" = some (docs.text run.specSha256))
      (unused : ∀ s ∈ ss, s.selectionRecordSha256 ≠ some sha) :
      Grows docs limits seq ss (.selectionRecord run.runId body sha) (replace run.runId (RunState.select seq sha) ss)
  | marked {run : RunState} (mem : run ∈ ss) (isOpen : run.status = .open) (partition : run.partition = .holdout)
      (first : run.holdoutAuthorizedSeq = none) (free : ∀ other ∈ ss, blocks run other = false) :
      Grows docs limits seq ss (.holdoutAuthorized run.runId) (replace run.runId (RunState.mark seq) ss)
  | issued {run : RunState} {digests : List Evidence} {manifest : Option String} (mem : run ∈ ss)
      (isOpen : run.status = .open) (first : run.capabilityIssuedSeq = none)
      (budget : run.phase ∈ attemptPhases →
        ∃ limit, limits run.phase limit ∧ ((attemptsConsumed ss run).length : Int) < limit) :
      Grows docs limits seq ss
        (.capabilityIssued ⟨run.runId, run.phase.value, run.partition.value, run.specSha256, digests, manifest⟩)
        (replace run.runId (RunState.issue seq) ss)

/-- The registries that the calls write, with the states of their runs. -/
inductive Trail (docs : Documents ν) (limits : Phase → Int → Prop) : List (ChainRecord ν) → List RunState → Prop
  | enrolled {genesisId : String} : Trail docs limits (append [] (.registryGenesis genesisId)) []
  | grow {rs : List (ChainRecord ν)} {ss ss' : List RunState} {row : Row ν} (trail : Trail docs limits rs ss)
      (grows : Grows docs limits (rs.length + 1) ss row ss') : Trail docs limits (append rs row) ss'

variable {limits : Phase → Int → Prop} {n : Nat} {rs : List (ChainRecord ν)} {ss ss' : List RunState} {row : Row ν}
  {id : String} {f : RunState → RunState}

/-! ## States that are replaced -/

lemma mem_replace {s' : RunState} : s' ∈ replace id f ss ↔ ∃ s ∈ ss, (if s.runId = id then f s else s) = s' := by
  simp [replace]

lemma exists_of_mem_replace {α : Type*} {s' : RunState} (mem : s' ∈ replace id f ss) (key : RunState → α)
    (keeps : ∀ s, key (f s) = key s) : ∃ s ∈ ss, key s' = key s := by
  obtain ⟨s, old, rfl⟩ := mem_replace.1 mem
  refine ⟨s, old, ?_⟩
  split
  · exact keeps s
  · rfl

lemma holds_of_mem_replace {P : RunState → Prop} {s' : RunState} (mem : s' ∈ replace id f ss) (run : s'.runId = id)
    (sets : ∀ s, P (f s)) : P s' := by
  obtain ⟨s, -, rfl⟩ := mem_replace.1 mem
  split
  · exact sets s
  · rename_i ne
    rw [if_neg ne] at run
    exact absurd run ne

lemma map_runId_replace (keeps : ∀ s, (f s).runId = s.runId) : (replace id f ss).map (·.runId) = ss.map (·.runId) := by
  simp only [replace, map_map]
  apply map_congr_left
  intro s _
  simp only [Function.comp_apply]
  split
  · exact keeps s
  · rfl

lemma countP_replace_of {p : RunState → Bool} (keeps : ∀ s ∈ ss, s.runId = id → p (f s) = p s) :
    (replace id f ss).countP p = ss.countP p := by
  rw [replace, countP_map]
  apply countP_congr
  intro s mem
  simp only [Function.comp_apply]
  split
  · rename_i eq
    rw [keeps s mem eq]
  · rfl

lemma countP_replace_le {p : RunState → Bool} (nodup : (ss.map (·.runId)).Nodup) :
    (replace id f ss).countP p ≤ ss.countP (fun s => s.runId ≠ id && p s) + 1 := by
  induction ss with
  | nil => simp [replace]
  | cons s ss ih =>
    rw [map_cons, nodup_cons] at nodup
    rw [show replace id f (s :: ss) = (if s.runId = id then f s else s) :: replace id f ss from rfl]
    by_cases eq : s.runId = id
    · have others : replace id f ss = ss := by
        rw [replace]
        conv_rhs => rw [← map_id ss]
        apply map_congr_left
        intro t mem
        rw [if_neg, id_eq]
        intro same
        exact nodup.1 (mem_map.2 ⟨t, mem, same.trans eq.symm⟩)
      have same : ss.countP (fun s => s.runId ≠ id && p s) = ss.countP p := by
        apply countP_congr
        intro t mem
        have ne : t.runId ≠ id := fun same => nodup.1 (mem_map.2 ⟨t, mem, same.trans eq.symm⟩)
        simp [ne]
      rw [if_pos eq, others, countP_cons, countP_cons_of_neg (by simp [eq]), same]
      split <;> omega
    · have rest := ih nodup.2
      rw [if_neg eq, countP_cons, countP_cons]
      simp only [ne_eq, eq, not_false_eq_true, decide_true, Bool.true_and] at rest ⊢
      omega

/-! ## Run ids -/

lemma ofDigitChars_leftpad {k n : Nat} : Nat.ofDigitChars 10 ((Nat.toDigits 10 n).leftpad k '0') 0 = n := by
  have zeros : ∀ j l, Nat.ofDigitChars 10 (List.replicate j '0' ++ l) 0 = Nat.ofDigitChars 10 l 0 := by
    intro j l
    induction j with
    | zero => rfl
    | succ j ih => rw [replicate_succ, cons_append, Nat.ofDigitChars_cons]; exact ih
  rw [List.leftpad, zeros, Nat.ofDigitChars_ten_toDigits]

lemma runIdText_injective : Function.Injective runIdText := by
  intro m n eq
  have digits := congrArg String.toList eq
  simp only [runIdText, String.toList_append, String.toList_ofList, append_cancel_left_eq] at digits
  have value := congrArg (fun cs => Nat.ofDigitChars 10 cs 0) digits
  simpa only [ofDigitChars_leftpad] using value

/-! ## What a step keeps -/

/-- What no later row takes back. -/
structure RunState.Later (s s' : RunState) : Prop where
  runId : s'.runId = s.runId
  phase : s'.phase = s.phase
  closed : s.status ≠ .open → s'.status ≠ .open
  selected : s.selectionRecordSeq.isSome → s'.selectionRecordSeq.isSome
  marked : s.holdoutAuthorizedSeq.isSome → s'.holdoutAuthorizedSeq.isSome
  issued : s.capabilityIssuedSeq.isSome → s'.capabilityIssuedSeq.isSome

lemma RunState.Later.refl (s : RunState) : s.Later s := ⟨rfl, rfl, id, id, id, id⟩

lemma Grows.later (grows : Grows docs limits n ss row ss') {s' : RunState} (mem : s' ∈ ss') :
    (s'.runId = runIdText n ∧ s'.capabilityIssuedSeq = none) ∨ ∃ s ∈ ss, s.Later s' := by
  have replaced : ∀ {id : String} {f : RunState → RunState}, s' ∈ replace id f ss →
      (∀ s ∈ ss, s.runId = id → s.Later (f s)) → ∃ s ∈ ss, s.Later s' := by
    intro id f mem keeps
    obtain ⟨s, old, rfl⟩ := mem_replace.1 mem
    refine ⟨s, old, ?_⟩
    split
    · rename_i eq
      exact keeps s old eq
    · exact .refl s
  cases grows with
  | opened _ =>
    rcases mem_append.1 mem with mem | mem
    · exact .inr ⟨s', mem, .refl s'⟩
    · rw [mem_singleton.1 mem]
      exact .inl ⟨rfl, rfl⟩
  | closed _ _ closing =>
    exact .inr (replaced mem fun s _ _ => ⟨rfl, rfl, fun _ => closing, id, id, id⟩)
  | selected => exact .inr (replaced mem fun s _ _ => ⟨rfl, rfl, id, fun _ => rfl, id, id⟩)
  | marked => exact .inr (replaced mem fun s _ _ => ⟨rfl, rfl, id, id, fun _ => rfl, id⟩)
  | issued =>
    refine .inr (replaced mem fun s _ _ => ⟨rfl, rfl, id, id, id, ?_⟩)
    intro some
    rw [RunState.issue, Option.isSome_or, some, Bool.true_or]

lemma Grows.stays (grows : Grows docs limits n ss row ss') {s : RunState} (mem : s ∈ ss) :
    ∃ s' ∈ ss', s'.runId = s.runId ∧ s'.phase = s.phase := by
  have replaced : ∀ {id : String} {f : RunState → RunState}, (∀ s, (f s).runId = s.runId ∧ (f s).phase = s.phase) →
      ∃ s' ∈ replace id f ss, s'.runId = s.runId ∧ s'.phase = s.phase := by
    intro id f keeps
    refine ⟨_, mem_replace.2 ⟨s, mem, rfl⟩, ?_⟩
    split
    · exact keeps s
    · exact ⟨rfl, rfl⟩
  cases grows with
  | opened _ => exact ⟨s, mem_append_left _ mem, rfl, rfl⟩
  | closed | selected | marked | issued => exact replaced fun _ => ⟨rfl, rfl⟩

lemma Grows.ids (grows : Grows docs limits n ss row ss') :
    ss'.map (·.runId) = ss.map (·.runId) ∨ ss'.map (·.runId) = ss.map (·.runId) ++ [runIdText n] := by
  cases grows with
  | opened _ => exact .inr map_append
  | closed | selected | marked | issued => exact .inl (map_runId_replace fun _ => rfl)

lemma Grows.names (grows : Grows docs limits n ss row ss') (eq : row.runId = some id) :
    id = runIdText n ∨ ∃ run ∈ ss, run.runId = id ∧ run.status = .open := by
  cases grows with
  | opened _ => exact .inl (Option.some.inj eq).symm
  | closed mem isOpen | selected mem isOpen | marked mem isOpen | issued mem isOpen =>
    exact .inr ⟨_, mem, Option.some.inj eq, isOpen⟩

lemma Grows.named (grows : Grows docs limits n ss row ss') (eq : row.runId = some id) : id ∈ ss'.map (·.runId) := by
  cases grows with
  | opened _ =>
    cases eq
    rw [map_append]
    exact mem_append_right _ mem_cons_self
  | closed mem | selected mem | marked mem | issued mem =>
    cases eq
    rw [map_runId_replace (by intro s; rfl)]
    exact mem_map_of_mem mem

lemma getElem?_append_record {i : Nat} {r : ChainRecord ν} :
    (append rs row)[i]? = some r ↔ rs[i]? = some r ∨ i = rs.length ∧ (⟨rs.length + 1, row⟩ : ChainRecord ν) = r := by
  rw [append, getElem?_append]
  split
  · rename_i lt
    simp [Nat.ne_of_lt lt]
  · rename_i ge
    rw [@getElem?_eq_none _ rs _ (by omega), getElem?_singleton]
    by_cases eq : i = rs.length
    · simp [eq]
    · rw [if_neg (by omega)]
      simp [eq]

lemma RunStatus.value_injective : Function.Injective RunStatus.value := by
  intro a b eq
  have read := congrArg RunStatus.ofValue eq
  rw [ofValue_value, ofValue_value] at read
  exact Option.some.inj read

/-- The values of a column are of different runs. -/
def Unique (key : RunState → Option String) (ss : List RunState) : Prop :=
  ∀ s ∈ ss, ∀ t ∈ ss, (key s).isSome → key s = key t → s.runId = t.runId

lemma unique_nil {key : RunState → Option String} : Unique key [] := fun _ mem => absurd mem not_mem_nil

lemma Unique.append {key : RunState → Option String} (unique : Unique key ss) {s : RunState} (empty : key s = none) :
    Unique key (ss ++ [s]) := by
  intro t mem t' mem' has eq
  rcases mem_append.1 mem with mem | mem
  · rcases mem_append.1 mem' with mem' | mem'
    · exact unique t mem t' mem' has eq
    · rw [eq, mem_singleton.1 mem', empty] at has
      cases has
  · rw [mem_singleton.1 mem, empty] at has
    cases has

lemma Unique.kept {key : RunState → Option String} (unique : Unique key ss)
    (keeps : ∀ s, (f s).runId = s.runId ∧ key (f s) = key s) : Unique key (replace id f ss) := by
  intro s mem t mem' has eq
  have same : ∀ s, ((f s).runId, key (f s)) = (s.runId, key s) := fun s => Prod.ext (keeps s).1 (keeps s).2
  obtain ⟨s', old, eqs⟩ := exists_of_mem_replace mem (fun s => (s.runId, key s)) same
  obtain ⟨t', old', eqs'⟩ := exists_of_mem_replace mem' (fun s => (s.runId, key s)) same
  obtain ⟨run, value⟩ := Prod.mk.inj eqs
  obtain ⟨run', value'⟩ := Prod.mk.inj eqs'
  rw [run, run']
  exact unique s' old t' old' (value ▸ has) (value.symm.trans (eq.trans value'))

lemma Unique.set {key : RunState → Option String} {value : Option String} (unique : Unique key ss)
    (sets : ∀ s, (f s).runId = s.runId ∧ key (f s) = value)
    (unused : value.isSome → ∀ s ∈ ss, s.runId ≠ id → key s ≠ value) : Unique key (replace id f ss) := by
  intro s mem t mem' has eq
  obtain ⟨s, old, rfl⟩ := mem_replace.1 mem
  obtain ⟨t, old', rfl⟩ := mem_replace.1 mem'
  by_cases mine : s.runId = id
  · rw [if_pos mine, (sets s).2] at has eq
    by_cases mine' : t.runId = id
    · rw [if_pos mine, if_pos mine', (sets s).1, (sets t).1]
      exact mine.trans mine'.symm
    · rw [if_neg mine'] at eq
      exact absurd eq.symm (unused has t old' mine')
  · rw [if_neg mine] at has eq ⊢
    by_cases mine' : t.runId = id
    · rw [if_pos mine', (sets t).2] at eq
      exact absurd eq (unused (eq ▸ has) s old mine)
    · rw [if_neg mine'] at eq ⊢
      exact unique s old t old' has eq

/-- Two runs have different specs, and recorded windows without a common day. -/
structure RunState.Apart (s t : RunState) : Prop where
  spec : s.specSha256 ≠ t.specSha256
  windows : ∃ r ∈ s.holdoutRange, ∃ r' ∈ t.holdoutRange, ∀ d, d ∈ r → d ∉ r'

lemma RunState.Apart.symm {s t : RunState} (apart : s.Apart t) : t.Apart s := by
  obtain ⟨r, mem, r', mem', none⟩ := apart.windows
  exact ⟨apart.spec.symm, r', mem', r, mem, fun d day day' => none d day' day⟩

lemma RunState.apart_of_free {run other : RunState} (free : blocks run other = false) (ne : other.runId ≠ run.runId)
    (holdout : other.partition = .holdout) (marked : other.holdoutAuthorizedSeq.isSome)
    (window : run.holdoutRange.isSome) (window' : other.holdoutRange.isSome) : run.Apart other := by
  obtain ⟨r, range⟩ := Option.isSome_iff_exists.1 window
  obtain ⟨r', range'⟩ := Option.isSome_iff_exists.1 window'
  simp only [blocks, ne, ne_eq, not_false_eq_true, decide_true, holdout, marked, Bool.true_or, Bool.true_and,
    range, range', Bool.or_eq_false_iff, decide_eq_false_iff_not] at free
  refine ⟨fun eq => free.1 eq.symm, r, range, r', range', fun d day day' => ?_⟩
  rw [DateRange.overlaps_iff.2 ⟨d, day', day⟩] at free
  exact absurd free.2 (by decide)

lemma OpenRequest.window_of_check {req : OpenRequest} (passed : req.check = .ok ())
    (holdout : req.partition = .holdout) : req.holdoutRange.isSome := by
  simp only [OpenRequest.check, bind_eq_ok, raiseIf_eq_ok, exists_const, requireHex, orRaise_eq_ok] at passed
  obtain ⟨-, _, -, _, -, _, -, -, -, -, window, -⟩ := passed
  cases range : req.holdoutRange with
  | none => exact absurd ⟨holdout, by rw [range]; rfl⟩ window
  | some r => rfl

/-! ## The registries of the calls -/

namespace Trail

variable (trail : Trail docs limits rs ss)
include trail

lemma numbered {s : RunState} (mem : s ∈ ss) : ∃ m ≤ rs.length, s.runId = runIdText m := by
  induction trail generalizing s with
  | enrolled => cases mem
  | grow _ grows ih =>
    rw [append, length_append, length_singleton]
    rcases grows.later mem with ⟨new, -⟩ | ⟨s', mem', later⟩
    · exact ⟨_, le_rfl, new⟩
    · obtain ⟨m, le, eq⟩ := ih mem'
      exact ⟨m, by omega, later.runId.trans eq⟩

lemma fresh : runIdText (rs.length + 1) ∉ ss.map (·.runId) := by
  intro mem
  obtain ⟨s, mem, eq⟩ := mem_map.1 mem
  obtain ⟨m, le, eq'⟩ := trail.numbered mem
  have := runIdText_injective (eq.symm.trans eq')
  omega

lemma ids : (ss.map (·.runId)).Nodup := by
  induction trail with
  | enrolled => exact nodup_nil
  | grow trail grows ih =>
    rcases grows.ids with eq | eq
    · rw [eq]
      exact ih
    · rw [eq]
      exact nodup_append.2 ⟨ih, nodup_singleton _, fun a mem b mem' eq =>
        trail.fresh (by rw [← mem_singleton.1 mem', ← eq]; exact mem)⟩

lemma eq_of_runId {s t : RunState} (mem : s ∈ ss) (mem' : t ∈ ss) (eq : s.runId = t.runId) : s = t :=
  inj_on_of_nodup_map trail.ids mem mem' eq

lemma known {r : ChainRecord ν} (mem : r ∈ rs) (names : r.row.runId = some id) : id ∈ ss.map (·.runId) := by
  induction trail with
  | enrolled =>
    rw [append, nil_append, mem_singleton] at mem
    rw [mem] at names
    cases names
  | grow _ grows ih =>
    rcases mem_append.1 mem with mem | mem
    · have old := ih mem
      rcases grows.ids with eq | eq
      · rwa [eq]
      · rw [eq]
        exact mem_append_left _ old
    · rw [mem_singleton.1 mem] at names
      exact grows.named names

lemma holds {sel : Row ν → Option String} {P : RunState → Prop}
    (names : ∀ {row id}, sel row = some id → row.runId = some id) (keeps : ∀ {s s'}, s.Later s' → P s → P s')
    (sets : ∀ {n ss row ss'}, Grows docs limits n ss row ss' → ∀ {id}, sel row = some id →
      ∀ s' ∈ ss', s'.runId = id → P s') {r : ChainRecord ν} (mem : r ∈ rs) (eq : sel r.row = some id)
    {s : RunState} (mem' : s ∈ ss) (run : s.runId = id) : P s := by
  induction trail generalizing s with
  | enrolled => cases mem'
  | grow trail grows ih =>
    rcases mem_append.1 mem with mem | mem
    · rcases grows.later mem' with ⟨new, -⟩ | ⟨t, old, later⟩
      · rw [← run, new] at eq
        exact absurd (trail.known mem (names eq)) trail.fresh
      · exact keeps later (ih mem old (later.runId.symm.trans run))
    · rw [mem_singleton.1 mem] at eq
      exact sets grows eq s mem' run

lemma once {sel sel' : Row ν → Option String} {P : RunState → Prop}
    (names : ∀ {row id}, sel row = some id → row.runId = some id) (keeps : ∀ {s s'}, s.Later s' → P s → P s')
    (sets : ∀ {n ss row ss'}, Grows docs limits n ss row ss' → ∀ {id}, sel row = some id →
      ∀ s' ∈ ss', s'.runId = id → P s')
    (needs : ∀ {n ss row ss'}, Grows docs limits n ss row ss' → ∀ {id}, sel' row = some id →
      id = runIdText n ∨ ∃ s ∈ ss, s.runId = id ∧ ¬ P s) :
    rs.Pairwise fun r r' => ∀ id, sel r.row = some id → sel' r'.row ≠ some id := by
  induction trail with
  | enrolled => exact pairwise_singleton _ _
  | grow trail grows ih =>
    rw [append, pairwise_append]
    refine ⟨ih, pairwise_singleton _ _, ?_⟩
    intro r mem r' mem' id eq eq'
    rw [mem_singleton.1 mem'] at eq'
    rcases needs grows eq' with new | ⟨s, old, run, free⟩
    · rw [new] at eq
      exact trail.fresh (trail.known mem (names eq))
    · exact free (trail.holds names keeps sets mem eq old run)

omit trail in
lemma closes_runId {row : Row ν} {id : String} (eq : row.closes = some id) : row.runId = some id := by
  cases row <;> cases eq
  rfl

omit trail in
lemma closes_sets (grows : Grows docs limits n ss row ss') (eq : row.closes = some id) {s' : RunState}
    (mem : s' ∈ ss') (run : s'.runId = id) : s'.status ≠ .open := by
  cases grows with
  | closed _ _ closing =>
    cases eq
    exact holds_of_mem_replace (P := fun s => s.status ≠ .open) mem run fun _ => closing
  | opened | selected | marked | issued => cases eq

lemma not_open_of_closes {r : ChainRecord ν} (mem : r ∈ rs)
    (eq : r.row.closes = some id) {s : RunState} (mem' : s ∈ ss) (run : s.runId = id) : s.status ≠ .open :=
  trail.holds (P := fun s => s.status ≠ .open) closes_runId (fun later => later.closed)
    (fun grows _ eq _ mem run => closes_sets grows eq mem run) mem eq mem' run

lemma closed_once : rs.Pairwise fun r r' => ∀ id, r.row.closes = some id → r'.row.runId ≠ some id := by
  refine trail.once (P := fun s => s.status ≠ .open) closes_runId (fun later => later.closed)
    (fun grows _ eq _ mem run => closes_sets grows eq mem run) ?_
  intro n ss row ss' grows id eq
  rcases grows.names eq with new | ⟨run, mem, eq, isOpen⟩
  · exact .inl new
  · exact .inr ⟨run, mem, eq, fun closed => closed isOpen⟩

lemma selected_once : rs.Pairwise fun r r' => ∀ id, r.row.selects = some id → r'.row.selects ≠ some id := by
  refine trail.once (P := fun s => s.selectionRecordSeq.isSome) ?_ (fun later => later.selected) ?_ ?_
  · intro row id eq
    cases row <;> cases eq
    rfl
  · intro n ss row ss' grows id eq s' mem run
    cases grows with
    | selected =>
      cases eq
      exact holds_of_mem_replace (P := fun s => s.selectionRecordSeq.isSome) mem run fun _ => rfl
    | opened | closed | marked | issued => cases eq
  · intro n ss row ss' grows id eq
    cases grows with
    | selected mem _ _ first =>
      cases eq
      exact .inr ⟨_, mem, rfl, by simp [first]⟩
    | opened | closed | marked | issued => cases eq

omit trail in
lemma marks_sets (grows : Grows docs limits n ss row ss') (eq : row.marks = some id) {s' : RunState} (mem : s' ∈ ss')
    (run : s'.runId = id) : s'.holdoutAuthorizedSeq.isSome := by
  cases grows with
  | marked =>
    cases eq
    exact holds_of_mem_replace (P := fun s => s.holdoutAuthorizedSeq.isSome) mem run fun _ => rfl
  | opened | closed | selected | issued => cases eq

lemma marked_once : rs.Pairwise fun r r' => ∀ id, r.row.marks = some id → r'.row.marks ≠ some id := by
  refine trail.once (P := fun s => s.holdoutAuthorizedSeq.isSome) ?_ (fun later => later.marked)
    (fun grows _ eq _ mem run => marks_sets grows eq mem run) ?_
  · intro row id eq
    cases row <;> cases eq
    rfl
  · intro n ss row ss' grows id eq
    cases grows with
    | marked mem _ _ first =>
      cases eq
      exact .inr ⟨_, mem, rfl, by simp [first]⟩
    | opened | closed | selected | issued => cases eq

omit trail in
lemma issues_runId {row : Row ν} {id : String} (eq : row.issues = some id) : row.runId = some id := by
  cases row <;> cases eq
  rfl

omit trail in
lemma issues_sets (grows : Grows docs limits n ss row ss') (eq : row.issues = some id) {s' : RunState}
    (mem : s' ∈ ss') (run : s'.runId = id) : s'.capabilityIssuedSeq.isSome := by
  cases grows with
  | issued =>
    cases eq
    exact holds_of_mem_replace (P := fun s => s.capabilityIssuedSeq.isSome) mem run fun _ => by simp [RunState.issue]
  | opened | closed | selected | marked => cases eq

omit trail in
lemma issues_needs (grows : Grows docs limits n ss row ss') (eq : row.issues = some id) :
    ∃ run ∈ ss, run.runId = id ∧ run.capabilityIssuedSeq = none := by
  cases grows with
  | issued mem _ first =>
    cases eq
    exact ⟨_, mem, rfl, first⟩
  | opened | closed | selected | marked => cases eq

lemma has_capability {r : ChainRecord ν} (mem : r ∈ rs) (eq : r.row.issues = some id)
    {s : RunState} (mem' : s ∈ ss) (run : s.runId = id) : s.capabilityIssuedSeq.isSome :=
  trail.holds (P := fun s => s.capabilityIssuedSeq.isSome) issues_runId (fun later => later.issued)
    (fun grows _ eq _ mem run => issues_sets grows eq mem run) mem eq mem' run

lemma issued_once : rs.Pairwise fun r r' => ∀ id, r.row.issues = some id → r'.row.issues ≠ some id := by
  refine trail.once (P := fun s => s.capabilityIssuedSeq.isSome) issues_runId (fun later => later.issued)
    (fun grows _ eq _ mem run => issues_sets grows eq mem run) ?_
  intro n ss row ss' grows id eq
  obtain ⟨run, mem, eq, none⟩ := issues_needs grows eq
  exact .inr ⟨run, mem, eq, by simp [none]⟩

lemma selected_phase {r : ChainRecord ν} (mem : r ∈ rs)
    (eq : r.row.selects = some id) : ∃ s ∈ ss, s.runId = id ∧ s.phase = .p3a := by
  induction trail with
  | enrolled =>
    rw [append, nil_append, mem_singleton] at mem
    rw [mem] at eq
    cases eq
  | @grow rs ss ss' row trail grows ih =>
    have found : ∃ s ∈ ss, s.runId = id ∧ s.phase = .p3a := by
      rcases mem_append.1 mem with mem | mem
      · exact ih mem
      · rw [mem_singleton.1 mem] at eq
        cases grows with
        | selected old _ phase =>
          cases eq
          exact ⟨_, old, rfl, phase⟩
        | opened | closed | marked | issued => cases eq
    obtain ⟨s, old, run, phase⟩ := found
    obtain ⟨s', mem', run', phase'⟩ := grows.stays old
    exact ⟨s', mem', run'.trans run, phase'.trans phase⟩

lemma issued_by {s : RunState} (mem : s ∈ ss) (has : s.capabilityIssuedSeq.isSome) :
    ∃ r ∈ rs, r.row.issues = some s.runId := by
  induction trail generalizing s with
  | enrolled => cases mem
  | @grow rs ss ss' row trail grows ih =>
    have before : ∀ {t : RunState}, t ∈ ss → t.runId = s.runId → t.capabilityIssuedSeq.isSome →
        ∃ r ∈ append rs row, r.row.issues = some s.runId := by
      intro t mem run has
      obtain ⟨r, mem, eq⟩ := ih mem has
      exact ⟨r, mem_append_left _ mem, eq.trans (congrArg some run)⟩
    cases grows with
    | opened _ =>
      rcases mem_append.1 mem with mem | mem
      · exact before mem rfl has
      · rw [mem_singleton.1 mem] at has
        cases has
    | closed | selected | marked =>
      obtain ⟨t, mem, eq⟩ := exists_of_mem_replace mem (fun t => (t.runId, t.capabilityIssuedSeq)) fun _ => rfl
      obtain ⟨run, issued⟩ := Prod.mk.inj eq
      exact before mem run.symm (issued ▸ has)
    | @issued run =>
      obtain ⟨t, old, rfl⟩ := mem_replace.1 mem
      by_cases this : t.runId = run.runId
      · rw [if_pos this]
        exact ⟨_, mem_append_right _ mem_cons_self, congrArg some this.symm⟩
      · rw [if_neg this] at has before ⊢
        exact before old rfl has

lemma completed_issued {s : RunState} (mem : s ∈ ss) (completed : s.status = .completed) :
    s.capabilityIssuedSeq.isSome := by
  induction trail generalizing s with
  | enrolled => cases mem
  | grow trail grows ih =>
    cases grows with
    | opened _ =>
      rcases mem_append.1 mem with mem | mem
      · exact ih mem completed
      · rw [mem_singleton.1 mem] at completed
        cases completed
    | @closed run status audit its _ _ capable =>
      obtain ⟨t, old, rfl⟩ := mem_replace.1 mem
      by_cases this : t.runId = run.runId
      · rw [if_pos this] at completed ⊢
        rw [trail.eq_of_runId old its this]
        exact capable completed
      · rw [if_neg this] at completed ⊢
        exact ih old completed
    | selected | marked =>
      obtain ⟨t, mem, eq⟩ := exists_of_mem_replace mem (fun t => (t.status, t.capabilityIssuedSeq)) fun _ => rfl
      obtain ⟨status, issued⟩ := Prod.mk.inj eq
      rw [issued]
      exact ih mem (status.symm.trans completed)
    | issued =>
      obtain ⟨t, old, rfl⟩ := mem_replace.1 mem
      split
      · simp [RunState.issue]
      · rename_i ne
        rw [if_neg ne] at completed
        exact ih old completed

lemma completed_after {i : Nat} {r : ChainRecord ν} {audit : Option String}
    (get : rs[i]? = some r) (eq : r.row = .runClosed id RunStatus.completed.value audit) :
    ∃ j < i, ∃ q, rs[j]? = some q ∧ q.row.issues = some id := by
  induction trail with
  | enrolled =>
    rcases getElem?_append_record.1 get with old | ⟨-, rfl⟩
    · cases old
    · cases eq
  | grow trail grows ih =>
    rcases getElem?_append_record.1 get with old | ⟨rfl, rfl⟩
    · obtain ⟨j, before, q, get, issues⟩ := ih old
      exact ⟨j, before, q, getElem?_append_record.2 (.inl get), issues⟩
    · cases grows with
      | @closed run status audit mem _ _ capable =>
        obtain ⟨rfl, status, -⟩ := Row.runClosed.inj eq
        obtain ⟨q, mem, issues⟩ := trail.issued_by mem (capable (RunStatus.value_injective status))
        obtain ⟨j, lt, get⟩ := mem_iff_getElem.1 mem
        exact ⟨j, lt, q, getElem?_append_record.2 (.inl (List.getElem?_eq_some_iff.2 ⟨lt, get⟩)), issues⟩
      | opened | selected | marked | issued => cases eq

lemma audits : Unique (·.auditPackSha256) ss := by
  induction trail with
  | enrolled => exact unique_nil
  | grow _ grows ih =>
    cases grows with
    | opened _ => exact ih.append rfl
    | closed _ _ _ _ _ unused => exact ih.set (fun _ => ⟨rfl, rfl⟩) unused
    | selected | marked | issued => exact ih.kept fun _ => ⟨rfl, rfl⟩

lemma selections : Unique (·.selectionRecordSha256) ss := by
  induction trail with
  | enrolled => exact unique_nil
  | grow _ grows ih =>
    cases grows with
    | opened _ => exact ih.append rfl
    | selected _ _ _ _ _ _ unused => exact ih.set (fun _ => ⟨rfl, rfl⟩) fun _ s mem _ => unused s mem
    | closed | marked | issued => exact ih.kept fun _ => ⟨rfl, rfl⟩

lemma windowed {s : RunState} (mem : s ∈ ss) (holdout : s.partition = .holdout) : s.holdoutRange.isSome := by
  induction trail generalizing s with
  | enrolled => cases mem
  | grow _ grows ih =>
    cases grows with
    | opened passed =>
      rcases mem_append.1 mem with mem | mem
      · exact ih mem holdout
      · rw [mem_singleton.1 mem] at holdout ⊢
        exact OpenRequest.window_of_check passed holdout
    | closed | selected | marked | issued =>
      obtain ⟨t, old, key⟩ := exists_of_mem_replace mem (fun t => (t.partition, t.holdoutRange)) fun _ => rfl
      obtain ⟨partition, range⟩ := Prod.mk.inj key
      rw [range]
      exact ih old (partition.symm.trans holdout)

lemma marked_holdout {s : RunState} (mem : s ∈ ss)
    (marked : s.holdoutAuthorizedSeq.isSome) : s.partition = .holdout := by
  induction trail generalizing s with
  | enrolled => cases mem
  | grow trail grows ih =>
    cases grows with
    | opened _ =>
      rcases mem_append.1 mem with mem | mem
      · exact ih mem marked
      · rw [mem_singleton.1 mem] at marked
        cases marked
    | @marked run its _ holdout =>
      obtain ⟨t, old, rfl⟩ := mem_replace.1 mem
      by_cases this : t.runId = run.runId
      · rw [if_pos this, trail.eq_of_runId old its this]
        exact holdout
      · rw [if_neg this] at marked ⊢
        exact ih old marked
    | closed | selected | issued =>
      obtain ⟨t, old, key⟩ := exists_of_mem_replace mem (fun t => (t.partition, t.holdoutAuthorizedSeq)) fun _ => rfl
      obtain ⟨partition, mark⟩ := Prod.mk.inj key
      rw [partition]
      exact ih old (mark ▸ marked)

lemma apart : ∀ s ∈ ss, ∀ t ∈ ss, s.runId ≠ t.runId →
    s.holdoutAuthorizedSeq.isSome → t.holdoutAuthorizedSeq.isSome → s.Apart t := by
  induction trail with
  | enrolled => exact fun _ mem => absurd mem not_mem_nil
  | @grow rs ss ss' row trail grows ih =>
    intro s mem t mem' ne marked marked'
    cases grows with
    | opened _ =>
      rcases mem_append.1 mem with mem | mem
      · rcases mem_append.1 mem' with mem' | mem'
        · exact ih s mem t mem' ne marked marked'
        · rw [mem_singleton.1 mem'] at marked'
          cases marked'
      · rw [mem_singleton.1 mem] at marked
        cases marked
    | @marked run its _ holdout _ free =>
      have clear : ∀ t ∈ ss, t.runId ≠ run.runId → t.holdoutAuthorizedSeq.isSome → run.Apart t := by
        intro t mem ne marked
        have holdout' := trail.marked_holdout mem marked
        exact RunState.apart_of_free (free t mem) ne holdout' marked (trail.windowed its holdout)
          (trail.windowed mem holdout')
      obtain ⟨s, old, rfl⟩ := mem_replace.1 mem
      obtain ⟨t, old', rfl⟩ := mem_replace.1 mem'
      by_cases mine : s.runId = run.runId
      · by_cases mine' : t.runId = run.runId
        · rw [if_pos mine, if_pos mine'] at ne
          exact absurd (mine.trans mine'.symm) ne
        · rw [if_neg mine'] at marked' ⊢
          rw [if_pos mine, trail.eq_of_runId old its mine]
          exact ⟨(clear t old' mine' marked').spec, (clear t old' mine' marked').windows⟩
      · rw [if_neg mine] at marked ⊢
        by_cases mine' : t.runId = run.runId
        · rw [if_pos mine', trail.eq_of_runId old' its mine']
          have apart := (clear s old mine marked).symm
          exact ⟨apart.spec, apart.windows⟩
        · rw [if_neg mine'] at marked' ⊢
          rw [if_neg mine, if_neg mine'] at ne
          exact ih s old t old' ne marked marked'
    | closed | selected | issued =>
      obtain ⟨s', old, key⟩ := exists_of_mem_replace mem
        (fun t => (t.runId, t.specSha256, t.holdoutRange, t.holdoutAuthorizedSeq)) fun _ => rfl
      obtain ⟨t', old', key'⟩ := exists_of_mem_replace mem'
        (fun t => (t.runId, t.specSha256, t.holdoutRange, t.holdoutAuthorizedSeq)) fun _ => rfl
      simp only [Prod.mk.injEq] at key key'
      obtain ⟨run, spec, range, mark⟩ := key
      obtain ⟨run', spec', range', mark'⟩ := key'
      have apart := ih s' old t' old' (by rwa [← run, ← run']) (mark ▸ marked) (mark' ▸ marked')
      exact ⟨by rw [spec, spec']; exact apart.spec, by rw [range, range']; exact apart.windows⟩

lemma attempts {phase : Phase} (attempt : phase ∈ attemptPhases) {limit : Nat}
    (same : ∀ l, limits phase l → l = limit) :
    ss.countP (fun s => s.phase = phase && s.capabilityIssuedSeq.isSome) ≤ limit := by
  induction trail with
  | enrolled => exact Nat.zero_le _
  | grow trail grows ih =>
    cases grows with
    | opened _ => simpa [countP_append, OpenRequest.state] using ih
    | closed | selected | marked =>
      refine (countP_replace_of ?_).trans_le ih
      intro _ _ _
      rfl
    | @issued run _ _ its _ _ budget =>
      by_cases its_phase : run.phase = phase
      · obtain ⟨l, passed, room⟩ := budget (its_phase ▸ attempt)
        rw [same l (its_phase ▸ passed), attemptsConsumed, ← countP_eq_length_filter, its_phase] at room
        refine (countP_replace_le trail.ids).trans ?_
        have le : ∀ {a b : Nat}, (a : Int) < limit → b = a → b + 1 ≤ limit := by omega
        refine le room (countP_congr fun s _ => ?_)
        simp [Bool.and_assoc]
      · rw [countP_replace_of]
        · exact ih
        · intro s mem eq
          rw [trail.eq_of_runId mem its eq]
          simp [RunState.issue, its_phase]

end Trail

/-! ## The calls write such registries -/

lemma openedWindow_isoformat (r : Option DateRange) :
    openedWindow (r.map (·.start.isoformat)) (r.map (·.ends.isoformat)) = .ok r := by
  cases r with
  | none => rfl
  | some r =>
    simp only [Option.map_some, openedWindow, Date.fromisoformat_isoformat]
    exact dif_pos r.ordered

lemma opened_payload (req : OpenRequest) (seq : Nat) :
    RunState.opened seq (req.payload (runIdText seq)) = .ok (req.state seq) := by
  simp only [RunState.opened, OpenRequest.payload, Phase.ofValue_value, Partition.ofValue_value,
    openedWindow_isoformat]
  rfl

lemma replaceKnown_eq {run : RunState} (mem : run ∈ ss) : replaceKnown run.runId f ss = .ok
    (replace run.runId f ss) := by
  rw [replaceKnown, bind_eq_ok]
  exact ⟨(), raiseIf_eq_ok.2 fun out => out (mem_map_of_mem mem), rfl⟩

lemma foldRecord_eq (trail : Trail docs limits rs ss) (grows : Grows docs limits (rs.length + 1) ss row ss') :
    foldRecord ss ⟨rs.length + 1, row⟩ = .ok ss' := by
  cases grows with
  | opened _ =>
    simp only [foldRecord, raiseIf_bind_eq_ok, opened_payload]
    exact ⟨trail.fresh, rfl⟩
  | closed mem =>
    simp only [foldRecord, RunStatus.ofValue_value]
    exact replaceKnown_eq mem
  | selected mem | marked mem | issued mem => exact replaceKnown_eq mem

lemma Trail.folds (trail : Trail docs limits rs ss) : fold rs = .ok ss := by
  induction trail with
  | enrolled => rfl
  | grow trail grows ih =>
    rw [fold, append, foldlM_append, bind_eq_ok]
    refine ⟨_, ih, ?_⟩
    rw [foldlM_cons, foldRecord_eq trail grows]
    rfl

lemma findRun_eq_ok {run : RunState} : findRun ss id = .ok run → run ∈ ss ∧ run.runId = id := by
  intro found
  rw [findRun, orRaise_eq_ok] at found
  exact ⟨mem_of_find?_eq_some found, by simpa using find?_some found⟩

variable [DecidableEq ν]

lemma Trail.build (trail : Trail docs limits rs ss) {c : Call ν} (built : build docs rs c = .ok row)
    (passes : ∀ {id evidence manifest limit}, c = .markCapabilityIssued id evidence manifest (some limit) →
      ∀ run ∈ ss, run.runId = id → limits run.phase limit) : ∃ ss', Grows docs limits (rs.length + 1) ss row ss' := by
  cases c with
  | openRun req =>
    simp only [Governance.build, bind_eq_ok] at built
    obtain ⟨_, passed, built⟩ := built
    cases built
    exact ⟨_, .opened passed⟩
  | closeRun id status audit =>
    simp only [Governance.build, bind_eq_ok, trail.folds, Except.ok.injEq, exists_eq_left', buildClose, requireOpen,
      raiseIf_eq_ok, exists_const, checkClose] at built
    obtain ⟨⟨closing, digest⟩, run, found, isOpen, capable, unused, built⟩ := built
    obtain ⟨mem, rfl⟩ := findRun_eq_ok found
    cases built
    refine ⟨_, .closed mem (not_not.1 isOpen) closing ?_ ?_ ?_⟩
    · intro completed
      rw [← Option.not_isNone, Bool.not_eq_true']
      exact Bool.eq_false_iff.2 fun none => capable ⟨completed, none⟩
    · intro completed
      cases audit with
      | none => exact absurd ⟨.inl completed, rfl⟩ digest
      | some _ => rfl
    · intro has s mem ne eq
      exact unused ⟨has, any_eq_true.2 ⟨s, mem, by simp [ne, eq]⟩⟩
  | recordSelection id body =>
    simp only [Governance.build, bind_eq_ok, trail.folds, Except.ok.injEq, exists_eq_left', buildSelection, requireOpen,
      raiseIf_eq_ok, orRaise_eq_ok, exists_const] at built
    obtain ⟨-, sha, hash, -, run, found, isOpen, phase, first, embeds, unused, built⟩ := built
    obtain ⟨mem, rfl⟩ := findRun_eq_ok found
    cases built
    rw [not_or, not_not, not_not] at embeds
    refine ⟨_, .selected mem (not_not.1 isOpen) (not_not.1 phase) ?_ hash embeds ?_⟩
    · exact Option.not_isSome_iff_eq_none.1 first
    · intro s mem eq
      exact unused (any_eq_true.2 ⟨s, mem, by simp [eq]⟩)
  | markCapabilityIssued id evidence manifest limit =>
    simp only [Governance.build, bind_eq_ok, trail.folds, Except.ok.injEq, exists_eq_left', buildCapability,
      requireOpen,
      raiseIf_eq_ok, exists_const] at built
    obtain ⟨digests, -, run, found, isOpen, first, _, budget, built⟩ := built
    obtain ⟨mem, rfl⟩ := findRun_eq_ok found
    cases built
    refine ⟨_, .issued mem (not_not.1 isOpen) (Option.not_isSome_iff_eq_none.1 first) ?_⟩
    intro attempt
    simp only [checkAttempts, if_pos attempt, bind_eq_ok, orRaise_eq_ok, raiseIf_eq_ok, not_le] at budget
    obtain ⟨l, rfl, room⟩ := budget
    exact ⟨l, passes rfl run mem rfl, room⟩
  | markHoldoutAuthorized id =>
    simp only [Governance.build, bind_eq_ok, trail.folds, Except.ok.injEq, exists_eq_left', buildHoldout, requireOpen,
      raiseIf_eq_ok, exists_const] at built
    obtain ⟨run, found, isOpen, partition, first, free, built⟩ := built
    obtain ⟨mem, rfl⟩ := findRun_eq_ok found
    cases built
    refine ⟨_, .marked mem (not_not.1 isOpen) (not_not.1 partition) (Option.not_isSome_iff_eq_none.1 first) ?_⟩
    have none := find?_eq_none.1 (Option.not_isSome_iff_eq_none.1 free)
    intro other mem
    exact Bool.eq_false_iff.2 (none other mem)

lemma build_holdout_row {id : String} (built : build docs rs (.markHoldoutAuthorized id) = .ok row) :
    row.marks = some id := by
  simp only [build, bind_eq_ok, buildHoldout] at built
  obtain ⟨_, -, _, -, _, -, _, -, _, -, _, -, eq⟩ := built
  cases eq
  rfl

lemma build_capability_row {id : String} {evidence : List Evidence} {manifest : Option String} {limit : Option Int}
    (built : build docs rs (.markCapabilityIssued id evidence manifest limit) = .ok row) : row.issues = some id := by
  simp only [build, bind_eq_ok, buildCapability] at built
  obtain ⟨_, -, _, -, _, -, _, -, _, -, _, -, eq⟩ := built
  cases eq
  rfl

/-! ## Runs -/

/-- What is claimed of a registry and the states of its runs. -/
structure Lifecycle (records : List (ChainRecord ν)) (states : List RunState) : Prop where
  ids : (states.map (·.runId)).Nodup
  closed : records.Pairwise fun r r' => ∀ id, r.row.closes = some id → r'.row.runId ≠ some id
  completed : ∀ {i : Nat} {r : ChainRecord ν} {id : String} {audit : Option String}, records[i]? = some r →
    r.row = .runClosed id RunStatus.completed.value audit → ∃ j < i, ∃ q, records[j]? = some q ∧ q.row.issues = some id
  capable : ∀ s ∈ states, s.status = .completed → s.capabilityIssuedSeq.isSome
  audits : Unique (·.auditPackSha256) states
  selections : Unique (·.selectionRecordSha256) states
  issued : records.Pairwise fun r r' => ∀ id, r.row.issues = some id → r'.row.issues ≠ some id
  selected : records.Pairwise fun r r' => ∀ id, r.row.selects = some id → r'.row.selects ≠ some id
  selectedPhase : ∀ r ∈ records, ∀ id, r.row.selects = some id → ∃ s ∈ states, s.runId = id ∧ s.phase = .p3a
  marked : records.Pairwise fun r r' => ∀ id, r.row.marks = some id → r'.row.marks ≠ some id
  holdouts : ∀ s ∈ states, ∀ t ∈ states, s.runId ≠ t.runId → s.holdoutAuthorizedSeq.isSome →
    t.holdoutAuthorizedSeq.isSome → s.Apart t

omit [DecidableEq ν] in
lemma Trail.lifecycle (trail : Trail docs limits rs ss) : Lifecycle rs ss where
  ids := trail.ids
  closed := trail.closed_once
  completed := trail.completed_after
  capable := fun _ mem => trail.completed_issued mem
  audits := trail.audits
  selections := trail.selections
  issued := trail.issued_once
  selected := trail.selected_once
  selectedPhase := fun _ mem _ => trail.selected_phase mem
  marked := trail.marked_once
  holdouts := trail.apart

/-- A call for a run of the phase passes the limit. -/
def Passes (phase : Phase) (limit : Nat) (s : State ν) : Label ν → Prop
  | .call (.markCapabilityIssued id _ _ passed) =>
    ∀ states, fold s.records = .ok states → ∀ run ∈ states, run.runId = id → run.phase = phase →
      passed = some (limit : Int)
  | _ => True

lemma registry_step {s t : State ν} {l : Label ν} (st : (registry docs).step s l = some t) :
    t.records = s.records ∨ ∃ c row, build docs s.records c = .ok row ∧ t.records = append s.records row ∧
      (l = .call c ∨ ∃ id, c = .closeRun id .aborted none) := by
  cases l with
  | call c =>
    cases st
    simp only [call]
    split
    · rename_i row built
      exact .inr ⟨c, row, built, rfl, .inl rfl⟩
    · exact .inl rfl
  | abortOpenRuns k =>
    cases st
    exact .inl rfl
  | abortNext k =>
    simp only [registry] at st
    split at st
    · cases st
    · split at st
      · rename_i row built
        cases st
        exact .inr ⟨_, row, built, rfl, .inr ⟨_, rfl⟩⟩
      · cases st
        exact .inl rfl

lemma Trail.step {s t : State ν} {l : Label ν} (trail : ∃ ss, Trail docs limits s.records ss)
    (passes : ∀ {id evidence manifest limit}, l = .call (.markCapabilityIssued id evidence manifest (some limit)) →
      ∀ states, fold s.records = .ok states → ∀ run ∈ states, run.runId = id → limits run.phase limit)
    (st : (registry docs).step s l = some t) : ∃ ss, Trail docs limits t.records ss := by
  obtain ⟨ss, trail⟩ := trail
  rcases registry_step st with same | ⟨c, row, built, eq, by_call⟩
  · rw [same]
    exact ⟨ss, trail⟩
  · obtain ⟨ss', grows⟩ := trail.build built (by
      intro id evidence manifest limit eq
      rcases by_call with call | ⟨_, closes⟩
      · exact passes (call.trans (congrArg Label.call eq)) ss trail.folds
      · cases closes.symm.trans eq)
    rw [eq]
    exact ⟨ss', trail.grow grows⟩

lemma Trail.run (limits : Phase → Int → Prop) {g : String} {ls : List (Label ν)} {s : State ν}
    {C : State ν → Label ν → Prop}
    (passes : ∀ {s id evidence manifest limit}, C s (.call (.markCapabilityIssued id evidence manifest (some limit))) →
      ∀ states, fold s.records = .ok states → ∀ run ∈ states, run.runId = id → limits run.phase limit)
    (meets : (registry docs).Meets C (Governance.enrolled g) ls)
    (run : (registry docs).run (Governance.enrolled g) ls = some s) : ∃ ss, Trail docs limits s.records ss := by
  refine Machine.run_invariant (I := fun s => ∃ ss, Trail docs limits s.records ss) ?_ ⟨[], .enrolled⟩ meets run
  intro s l t trail cond st
  refine Trail.step trail ?_ st
  intro id evidence manifest limit eq
  rw [eq] at cond
  exact passes cond

/-- The lifecycle holds in every registry, and a limit that every call of a phase passes is kept. -/
theorem run_registry_lifecycle {g : String} {ls : List (Label ν)} {s : State ν}
    (run : (registry docs).run (enrolled g) ls = some s) :
    ∃ states, fold s.records = .ok states ∧ Lifecycle s.records states ∧
      ∀ phase ∈ attemptPhases, ∀ limit : Nat, (registry docs).Meets (Passes phase limit) (enrolled g) ls →
        states.countP (fun r => r.phase = phase && r.capabilityIssuedSeq.isSome) ≤ limit := by
  obtain ⟨ss, trail⟩ := Trail.run (fun _ _ => True) (fun _ _ _ _ _ _ => trivial) Machine.meets_true run
  refine ⟨ss, trail.folds, trail.lifecycle, ?_⟩
  intro phase attempt limit passes
  obtain ⟨ss', limited⟩ := Trail.run (fun p l => p = phase → l = limit) (by
    intro s id evidence manifest l passes states fold run mem eq phase
    exact Option.some.inj (passes states fold run mem eq phase)) passes run
  have same := limited.folds.symm.trans trail.folds
  cases same
  exact limited.attempts attempt fun l eq => eq rfl

/-! ## A registry in use -/

def plainDocuments : Documents String where
  text s := s
  contentSha256 body := some (String.join (body.entries.map fun e => e.1 ++ ":" ++ e.2 ++ ";"))
  dumpsLength body := (body.entries.map fun e => e.1.length + e.2.length).sum

def letters (c : Char) : String := String.ofList (List.replicate 64 c)

def selectionYears : DateRange := ⟨⟨2019, 1, 1, by decide⟩, ⟨2021, 12, 31, by decide⟩, by decide⟩

def openP3a (spec : Char) : Call String :=
  .openRun {
    phase := .p3a
    specSha256 := letters spec
    codeSha := letters 'c'
    dataManifestSha256 := letters 'd'
    partition := .developmentSelection
    seeds := [("main", 7)]
    exitCandidates := ["time"]
    protectedRange := some selectionYears }

def firstSelection : Dict String String :=
  (Dict.empty.set "run_id" (runIdText 2)).set "spec_sha256" (letters 'a')

def sampleCalls : List (Label String) :=
  [.call (openP3a 'a'), .call (.markCapabilityIssued (runIdText 2) [] none (some 1)),
    .call (.recordSelection (runIdText 2) firstSelection), .call (openP3a 'b'),
    .call (.markCapabilityIssued (runIdText 5) [] none (some 1)),
    .call (.closeRun (runIdText 2) .completed (some (letters 'e'))), .abortOpenRuns 0, .abortNext 0]

instance (phase : Phase) (limit : Nat) (s : State ν) : ∀ l : Label ν, Decidable (Passes phase limit s l)
  | .call (.markCapabilityIssued id _ _ passed) =>
    decidable_of_iff ((fold s.records).toOption.all (fun states => states.all fun run =>
        run.runId = id && run.phase = phase → passed = some (limit : Int)) = true) (by
      simp only [Passes]
      cases fold s.records with
      | error e => simp [Except.toOption]
      | ok states => simp [Except.toOption]; grind)
  | .call (.openRun _) | .call (.closeRun _ _ _) | .call (.recordSelection _ _) | .call (.markHoldoutAuthorized _)
  | .abortOpenRuns _ | .abortNext _ => isTrue trivial

theorem sample_lifecycle :
    ∃ s, (registry plainDocuments).run (enrolled "genesis") sampleCalls = some s ∧ s.records.length = 7 ∧
      ∃ states, fold s.records = .ok states ∧ Lifecycle s.records states ∧
        states.countP (fun r => r.phase = .p3a && r.capabilityIssuedSeq.isSome) ≤ 1 := by
  obtain ⟨s, run⟩ := Option.isSome_iff_exists.1
    (show ((registry plainDocuments).run (enrolled "genesis") sampleCalls).isSome = true by decide +kernel)
  have rows := Machine.observe (f := fun s => s.records.length) run
    (show ((registry plainDocuments).run (enrolled "genesis") sampleCalls).map (fun s => s.records.length) = some 7
      by decide +kernel)
  obtain ⟨states, folds, lifecycle, attempts⟩ := run_registry_lifecycle run
  exact ⟨s, run, rows, states, folds, lifecycle, attempts .p3a (by decide) 1 (by decide +kernel)⟩

end Workbench.Governance
