import Workbench.Research.Registry

/-!
# The history of the research registry

The transitions of an entity on an axis lead from the state it was registered with to the state it has, one
after the other, and a gate that returned left its result in the row of its experiment. A recording that
changes the state of a known id, a crash between the log row and the update it announces, and a gate without
enough evidence for an experiment that is no longer in RESEARCH break this; without them it holds.
-/

namespace Workbench.Research
open Lib Option Dict
variable {s : State} {qs : List Sql}

/-! ## Histories -/

/-- Transitions that lead from a state to a state. -/
def Leads : String → List TransitionRow → String → Prop
  | a, [], b => a = b
  | a, r :: rs, b => r.fromState = a ∧ Leads r.toState rs b

lemma Leads.concat {a b : String} {rs : List TransitionRow} {r : TransitionRow} (h : Leads a rs b)
    (source : r.fromState = b) : Leads a (rs ++ [r]) r.toState := by
  induction rs generalizing a with
  | nil =>
    cases h
    exact ⟨source, rfl⟩
  | cons x rs ih => exact ⟨h.1, ih h.2⟩

lemma Leads.last {a b : String} {rs : List TransitionRow} (h : Leads a rs b) :
    ((rs.map (·.toState)).getLast?).getD a = b := by
  induction rs generalizing a with
  | nil => exact h
  | cons r rs ih =>
    have rest := ih h.2
    cases rs with
    | nil => exact rest
    | cons x xs => exact rest

/-- The transitions of an entity on an axis lead from its registration to a state. -/
def Chained (s : State) (entityType : EntityType) (id : String) (axis : Axis) (state : String) : Prop :=
  ∃ first, s.registered.get (entityType, id, axis) = some first ∧ Leads first (rows s entityType id axis) state

/-- The log of an entity on an axis is the history of its state; an entity that is not stored has none. -/
structure SettledAt (s : State) (entityType : EntityType) (id : String) (axis : Axis) : Prop where
  chained : ∀ state, stored s entityType id axis = some state → Chained s entityType id axis state
  absent : stored s entityType id axis = none →
    rows s entityType id axis = [] ∧ s.registered.get (entityType, id, axis) = none

/-- The log is the history of the stored states. -/
def Settled (s : State) : Prop := ∀ entityType id axis, SettledAt s entityType id axis

/-- The row of a gated experiment has its result. -/
def Scored (s : State) (gated : Option (String × GateResult)) : Prop :=
  ∀ id result, gated = some (id, result) → ∃ row, s.experiments.get id = some row ∧
    row.researchState = result.researchState ∧ row.confidenceScore = some result.confidenceScore

/-- Between two calls the history is faithful and the result of a gate is in its row. -/
def Faithful (s : State) : Prop := s.pending = [] → Settled s ∧ Scored s s.gated

/-! ## The condition -/

/-- A recording keeps the states of a known id, a crash does not come between a log row and a change of state,
    and a gate has enough evidence unless the experiment is in RESEARCH. -/
def Careful (s : State) : Label → Prop
  | .call (.recordStrategy id row) => ∀ old, s.strategies.get id = some old → old = row
  | .call (.recordExperiment id row) => ∀ old, s.experiments.get id = some old → old.researchState = row.researchState
  | .call (.gateExperiment id profile metrics _ _) =>
    lacksEvidence (gateMetrics s id metrics) profile = true → stored s .experiment id .research = some "RESEARCH"
  | .crash =>
    match s.pending with
    | .setState entityType id axis state :: _ => stored s entityType id axis = some state
    | _ => True
  | _ => True

instance (s : State) : (l : Label) → Decidable (Careful s l)
  | .call (.recordStrategy id row) => match eq : s.strategies.get id with
    | none => isTrue fun _ h => by rw [eq] at h; cases h
    | some old => decidable_of_iff (old = row) ⟨fun h _ h' => by rw [eq] at h'; cases h'; exact h, fun h => h old eq⟩
  | .call (.recordExperiment id row) => match eq : s.experiments.get id with
    | none => isTrue fun _ h => by rw [eq] at h; cases h
    | some old => decidable_of_iff (old.researchState = row.researchState)
        ⟨fun h _ h' => by rw [eq] at h'; cases h'; exact h, fun h => h old eq⟩
  | .call (.gateExperiment id profile metrics _ _) => inferInstanceAs
      (Decidable (lacksEvidence (gateMetrics s id metrics) profile = true → stored s .experiment id .research =
        some "RESEARCH"))
  | .crash => match eq : s.pending with
    | .setState entityType id axis state :: _ =>
      decidable_of_iff (stored s entityType id axis = some state) (by simp [Careful, eq])
    | [] | .putStrategy .. :: _ | .putExperiment .. :: _ | .setConfidence .. :: _ | .insertTransition .. :: _ =>
      isTrue (by simp [Careful, eq])
  | .call (.transition ..) | .execute => isTrue trivial

/-! ## What the statements change -/

section Statements
variable {score : Int} {s : State} {k k' : EntityType} {id id' : String} {axis axis' : Axis} {state : String}

lemma stored_setState : stored (execute s (.setState k id axis state)) k' id' axis' =
    if k' = k ∧ id' = id ∧ axis' = axis then (stored s k id axis).map fun _ => state else stored s k' id' axis' := by
  by_cases same : id' = id
  · subst same
    cases k <;> cases axis <;> cases k' <;> cases axis' <;> simp only [execute] <;> (try split) <;>
      simp_all [stored]
  · cases k <;> cases axis <;> cases k' <;> cases axis' <;> simp only [execute] <;> (try split) <;>
      simp_all [stored, get_set]

lemma rows_setState : rows (execute s (.setState k id axis state)) k' id' axis' = rows s k' id' axis' := by
  cases k <;> cases axis <;> simp only [execute] <;> (try split) <;> rfl

lemma registered_setState : (execute s (.setState k id axis state)).registered = s.registered := by
  cases k <;> cases axis <;> simp only [execute] <;> (try split) <;> rfl

lemma stored_setConfidence : stored (execute s (.setConfidence id score)) k' id' axis' = stored s k' id' axis' := by
  simp only [execute]
  split
  · rfl
  · rename_i row found
    cases k' <;> cases axis' <;> simp only [stored]
    rw [get_set]
    split
    · rename_i same
      rw [same, found]
      rfl
    · rfl

lemma rows_setConfidence : rows (execute s (.setConfidence id score)) k' id' axis' = rows s k' id' axis' := by
  simp only [execute]
  split <;> rfl

lemma registered_setConfidence : (execute s (.setConfidence id score)).registered = s.registered := by
  simp only [execute]
  split <;> rfl

lemma get_register {d : Dict (EntityType × String × Axis) String} {x y : EntityType × String × Axis} :
    (register d x state).get y = if y = x then some ((d.get x).getD state) else d.get y := by
  unfold register Dict.contains
  cases found : d.get x with
  | none =>
    simp only [isSome_none, Bool.false_eq_true, if_false, get_set]
    rfl
  | some first =>
    simp only [isSome_some, if_true]
    split
    · rename_i same
      rw [same, found]
      rfl
    · rfl

lemma SettledAt.congr {t : State} (h : SettledAt s k id axis) (state : stored t k id axis = stored s k id axis)
    (log : rows t k id axis = rows s k id axis)
    (first : t.registered.get (k, id, axis) = s.registered.get (k, id, axis)) : SettledAt t k id axis := by
  refine ⟨?_, ?_⟩
  · intro x found
    rw [state] at found
    rw [Chained, log, first]
    exact h.chained x found
  · intro missing
    rw [state] at missing
    rw [log, first]
    exact h.absent missing

lemma SettledAt.recorded {t : State} (h : SettledAt s k id axis) (stored' : stored t k id axis = some state)
    (kept : ∀ old, stored s k id axis = some old → old = state) (log : rows t k id axis = rows s k id axis)
    (first : t.registered.get (k, id, axis) = some ((s.registered.get (k, id, axis)).getD state)) :
    SettledAt t k id axis := by
  refine ⟨?_, fun missing => by rw [stored'] at missing; cases missing⟩
  intro x found
  rw [stored'] at found
  cases found
  rw [Chained, log, first]
  refine ⟨_, rfl, ?_⟩
  cases old : stored s k id axis with
  | none =>
    rw [(h.absent old).1, (h.absent old).2]
    rfl
  | some old' =>
    obtain ⟨registered, eq, leads⟩ := h.chained old' old
    cases kept old' old
    rw [eq]
    exact leads

lemma Settled.putStrategy {row : StrategyRow} (h : Settled s) (kept : ∀ old, s.strategies.get id = some old →
    old = row) : Settled (execute s (.putStrategy id row)) := by
  intro k' id' axis'
  have stays {old : String} {f : StrategyRow → String} (found : (s.strategies.get id).map f = some old) : old =
      f row := by
    obtain ⟨r, get, rfl⟩ := map_eq_some_iff.1 found
    rw [kept r get]
  have column {f : StrategyRow → String} : ((s.strategies.set id row).get id).map f = some (f row) := by
    rw [get_set_self]
    rfl
  have first : (execute s (.putStrategy id row)).registered =
    register (register s.registered (.strategy, id, .research) row.researchState) (.strategy, id, .deployment)
      row.deploymentState := rfl
  cases k' with
  | experiment =>
    refine (h .experiment id' axis').congr (t := execute s (.putStrategy id row)) ?_ rfl ?_
    · cases axis' <;> rfl
    · rw [first, get_register, if_neg (by simp), get_register, if_neg (by simp)]
  | strategy =>
    by_cases same : id' = id
    · subst same
      cases axis' with
      | research =>
        refine (h .strategy id' .research).recorded (t := execute s (.putStrategy id' row)) column
          (fun _ => stays) rfl ?_
        rw [first, get_register, if_neg (by simp), get_register, if_pos rfl]
      | deployment =>
        refine (h .strategy id' .deployment).recorded (t := execute s (.putStrategy id' row)) column
          (fun _ => stays) rfl ?_
        rw [first, get_register, get_register]
        simp
    · refine (h .strategy id' axis').congr (t := execute s (.putStrategy id row)) ?_ rfl ?_
      · cases axis' <;> exact congrArg (Option.map _) (get_set_of_ne same)
      · rw [first, get_register, if_neg (by simp [same]), get_register, if_neg (by simp [same])]

lemma Settled.putExperiment {row : ExperimentRow} (h : Settled s)
    (kept : ∀ old, s.experiments.get id = some old → old.researchState = row.researchState) :
    Settled (execute s (.putExperiment id row)) := by
  intro k' id' axis'
  have first : (execute s (.putExperiment id row)).registered =
    register s.registered (.experiment, id, .research) row.researchState := rfl
  by_cases same : k' = .experiment ∧ id' = id ∧ axis' = .research
  · obtain ⟨rfl, rfl, rfl⟩ := same
    refine @SettledAt.recorded s .experiment id' .research row.researchState (execute s (.putExperiment id' row))
      (h _ _ _) ?_ ?_ rfl ?_
    · show ((s.experiments.set id' row).get id').map _ = _
      rw [get_set_self]
      rfl
    · intro old found
      obtain ⟨r, get, rfl⟩ := map_eq_some_iff.1 found
      exact kept r get
    · rw [first, get_register, if_pos rfl]
  · refine (h k' id' axis').congr (t := execute s (.putExperiment id row)) ?_ rfl ?_
    · cases k' with
      | strategy => cases axis' <;> rfl
      | experiment =>
        cases axis' with
        | deployment => rfl
        | research =>
          have ne : id' ≠ id := fun eq => same ⟨rfl, eq, rfl⟩
          exact congrArg (Option.map _) (get_set_of_ne ne)
    · rw [first, get_register, if_neg]
      intro eq
      cases eq
      exact same ⟨rfl, rfl, rfl⟩

lemma Settled.setConfidence (h : Settled s) : Settled (execute s (.setConfidence id score)) :=
  fun k' id' axis' => (h k' id' axis').congr stored_setConfidence rows_setConfidence (by rw [registered_setConfidence])

lemma Chained.inserted {r : TransitionRow} (h : Chained s r.entityType r.entityId r.axis r.fromState) :
    Chained (execute s (.insertTransition r)) r.entityType r.entityId r.axis r.toState := by
  obtain ⟨first, registered, leads⟩ := h
  refine ⟨first, registered, ?_⟩
  have log : rows (execute s (.insertTransition r)) r.entityType r.entityId r.axis =
      rows s r.entityType r.entityId r.axis ++ [r] := by
    simp only [rows, execute, List.filter_append]
    simp
  rw [log]
  exact leads.concat rfl

lemma SettledAt.inserted {r : TransitionRow} (h : SettledAt s k id axis)
    (other : ¬(k = r.entityType ∧ id = r.entityId ∧ axis = r.axis)) :
    SettledAt (execute s (.insertTransition r)) k id axis := by
  refine h.congr (t := execute s (.insertTransition r)) ?_ ?_ rfl
  · cases k <;> cases axis <;> rfl
  · have others : ¬(r.entityType = k ∧ r.entityId = id ∧ r.axis = axis) :=
      fun same => other ⟨same.1.symm, same.2.1.symm, same.2.2.symm⟩
    simp [rows, execute, List.filter_append, others]

lemma Settled.setState (others : ∀ k' id' axis', ¬(k' = k ∧ id' = id ∧ axis' = axis) → SettledAt s k' id' axis')
    (present : (stored s k id axis).isSome) (chain : Chained s k id axis state) :
    Settled (execute s (.setState k id axis state)) := by
  intro k' id' axis'
  by_cases same : k' = k ∧ id' = id ∧ axis' = axis
  · obtain ⟨rfl, rfl, rfl⟩ := same
    obtain ⟨old, found⟩ := isSome_iff_exists.1 present
    have now : stored (execute s (.setState k' id' axis' state)) k' id' axis' = some state := by
      rw [stored_setState, if_pos ⟨rfl, rfl, rfl⟩, found]
      rfl
    refine ⟨?_, fun missing => by rw [now] at missing; cases missing⟩
    intro x eq
    rw [now] at eq
    cases eq
    rw [Chained, rows_setState, registered_setState]
    exact chain
  · refine (others k' id' axis' same).congr (t := execute s (.setState k id axis state)) ?_ rows_setState ?_
    · rw [stored_setState, if_neg same]
    · rw [registered_setState]

end Statements

/-! ## The stages of a call -/

/-- A transition that a gate makes is of its experiment and leads to the state of its result, which has the
    confidence of the result. -/
def Announces (s : State) (k : EntityType) (id : String) (axis : Axis) (state : String)
    (gating : Option (String × GateResult)) :
    Prop :=
  ∀ id' result, gating = some (id', result) → (k = .experiment ∧ id = id' ∧ axis = .research ∧
    state = result.researchState) ∧ ∃ row, s.experiments.get id = some row ∧ row.confidenceScore =
      some result.confidenceScore

/-- What a call has left, and what is true until it goes on. -/
inductive Stage (s : State) : List Sql → Option (String × GateResult) → Prop
  | idle (settled : Settled s) : Stage s [] none
  | putStrategy {id : String} {row : StrategyRow} (settled : Settled s)
      (kept : ∀ old, s.strategies.get id = some old → old = row) : Stage s [.putStrategy id row] none
  | putExperiment {id : String} {row : ExperimentRow} (settled : Settled s)
      (kept : ∀ old, s.experiments.get id = some old → old.researchState = row.researchState) :
      Stage s [.putExperiment id row] none
  | score {id : String} {result : GateResult} (settled : Settled s)
      (reached : stored s .experiment id .research = some result.researchState) :
      Stage s [.setConfidence id result.confidenceScore] (some (id, result))
  | scoreFirst {id : String} {result : GateResult} {r : TransitionRow} (settled : Settled s)
      (source : stored s r.entityType r.entityId r.axis = some r.fromState)
      (ours : r.entityType = .experiment ∧ r.entityId = id ∧ r.axis = .research ∧ r.toState = result.researchState) :
      Stage s [.setConfidence id result.confidenceScore, .insertTransition r,
        .setState r.entityType r.entityId r.axis r.toState]
        (some (id, result))
  | insert {r : TransitionRow} {gating : Option (String × GateResult)} (settled : Settled s)
      (source : stored s r.entityType r.entityId r.axis = some r.fromState)
      (announced : Announces s r.entityType r.entityId r.axis r.toState gating) :
      Stage s [.insertTransition r, .setState r.entityType r.entityId r.axis r.toState] gating
  | update {k : EntityType} {id : String} {axis : Axis} {state : String} {gating : Option (String × GateResult)}
      (others : ∀ k' id' axis', ¬(k' = k ∧ id' = id ∧ axis' = axis) → SettledAt s k' id' axis')
      (present : (stored s k id axis).isSome) (chain : Chained s k id axis state)
      (announced : Announces s k id axis state gating) : Stage s [.setState k id axis state] gating

lemma SettledAt.move {t : State} {k : EntityType} {id : String} {axis : Axis} (h : SettledAt s k id axis)
    (strategies : t.strategies = s.strategies) (experiments : t.experiments = s.experiments)
    (transitions : t.transitions = s.transitions) (registered : t.registered = s.registered) :
      SettledAt t k id axis := by
  apply h.congr
  · simp only [stored, strategies, experiments]
  · simp only [rows, transitions]
  · rw [registered]

lemma Stage.move {t : State} {gating : Option (String × GateResult)} (h : Stage s qs gating)
    (strategies : t.strategies = s.strategies) (experiments : t.experiments = s.experiments)
    (transitions : t.transitions = s.transitions) (registered : t.registered = s.registered) : Stage t qs gating := by
  have moved (settled : Settled s) : Settled t :=
    fun k id axis => (settled k id axis).move strategies experiments transitions registered
  have same {k : EntityType} {id : String} {axis : Axis} : stored t k id axis = stored s k id axis := by
    simp only [stored, strategies, experiments]
  have announces {k : EntityType} {id : String} {axis : Axis} {state : String}
      (h : Announces s k id axis state gating) :
      Announces t k id axis state gating := by
    rw [Announces, experiments]
    exact h
  cases h with
  | idle settled => exact .idle (moved settled)
  | putStrategy settled kept =>
    apply Stage.putStrategy (moved settled)
    rw [strategies]
    exact kept
  | putExperiment settled kept =>
    apply Stage.putExperiment (moved settled)
    rw [experiments]
    exact kept
  | score settled reached => exact .score (moved settled) (same.trans reached)
  | scoreFirst settled source ours => exact .scoreFirst (moved settled) (same.trans source) ours
  | insert settled source announced => exact .insert (moved settled) (same.trans source) (announces announced)
  | update others present chain announced =>
    refine .update ?_ (same ▸ present) ?_ (announces announced)
    · intro k' id' axis' other
      exact (others k' id' axis' other).move strategies experiments transitions registered
    · rw [Chained, rows, registered, transitions]
      exact chain

lemma get_setConfidence {id : String} {score : Int} {state : String}
    (found : stored s .experiment id .research = some state) :
    ∃ row, (execute s (.setConfidence id score)).experiments.get id = some row ∧ row.researchState = state ∧
      row.confidenceScore = some score := by
  obtain ⟨row, get, rfl⟩ := map_eq_some_iff.1 found
  refine ⟨{ row with confidenceScore := some score }, ?_, rfl, rfl⟩
  simp only [execute, get]
  exact get_set_self

lemma Stage.execute {q : Sql} {gating : Option (String × GateResult)} (h : Stage s (q :: qs) gating) :
    if qs = [] then Settled (execute s q) ∧ Scored (execute s q) gating else Stage (execute s q) qs gating := by
  cases h with
  | putStrategy settled kept => exact ⟨settled.putStrategy kept, fun _ _ eq => nomatch eq⟩
  | putExperiment settled kept => exact ⟨settled.putExperiment kept, fun _ _ eq => nomatch eq⟩
  | score settled reached =>
    refine ⟨settled.setConfidence, ?_⟩
    intro id result eq
    cases eq
    exact get_setConfidence reached
  | @scoreFirst id result r settled source ours =>
    refine Stage.insert settled.setConfidence (stored_setConfidence.trans source) ?_
    intro id' result' eq
    cases eq
    refine ⟨ours, ?_⟩
    rw [ours.1, ours.2.1, ours.2.2.1] at source
    obtain ⟨row, get, -, score⟩ := get_setConfidence source
    exact ⟨row, ours.2.1 ▸ get, score⟩
  | @insert r _ settled source announced =>
    refine Stage.update ?_ ?_ ?_ ?_
    · intro k' id' axis' other
      exact (settled k' id' axis').inserted other
    · have same : stored (Research.execute s (.insertTransition r)) r.entityType r.entityId r.axis =
          stored s r.entityType r.entityId r.axis := by
        cases r.entityType <;> cases r.axis <;> rfl
      rw [same, source]
      rfl
    · exact ((settled _ _ _).chained _ source).inserted
    · exact announced
  | @update k id axis state _ others present chain announced =>
    refine ⟨Settled.setState others present chain, ?_⟩
    intro id' result eq
    obtain ⟨⟨rfl, rfl, rfl, rfl⟩, row, get, score⟩ := announced id' result eq
    refine ⟨{ row with researchState := result.researchState }, ?_, rfl, score⟩
    simp only [Research.execute, get]
    exact get_set_self

lemma Stage.crash {gating : Option (String × GateResult)} (h : Stage s s.pending gating)
    (careful : Careful s .crash) : Settled s := by
  simp only [Careful] at careful
  generalize s.pending = qs at h careful
  cases h with
  | idle settled | putStrategy settled | putExperiment settled | score settled | scoreFirst settled | insert settled =>
    exact settled
  | @update k id axis state _ others present chain announced =>
    intro k' id' axis'
    by_cases same : k' = k ∧ id' = id ∧ axis' = axis
    · obtain ⟨rfl, rfl, rfl⟩ := same
      refine ⟨?_, fun missing => by rw [careful] at missing; cases missing⟩
      intro x eq
      rw [careful] at eq
      cases eq
      exact chain
    · exact others k' id' axis' same

/-! ## The beginning of a call -/

lemma evaluate_state {metrics : Metrics} {profile : GateProfile} :
    lacksEvidence metrics profile = true ∧ (evaluate metrics profile).researchState = "RESEARCH" ∨
      (evaluate metrics profile).researchState = "VALIDATED" ∨ (evaluate metrics profile).researchState =
        "REJECTED" := by
  cases lacks : lacksEvidence metrics profile with
  | true => simp [evaluate, lacks]
  | false =>
    right
    simp only [evaluate, lacks, Bool.false_eq_true, if_false]
    split_ifs <;> simp

lemma transition_cases {k : EntityType} {id : String} {axis : Axis} {toState reason : String} {actor : Option String}
    (h : transition s k id axis toState reason actor = some qs) :
    ∃ r : TransitionRow, stored s k id axis = some r.fromState ∧ (r.entityType = k ∧ r.entityId = id ∧ r.axis = axis ∧
      r.toState = toState) ∧ qs = [.insertTransition r, .setState r.entityType r.entityId r.axis r.toState] := by
  simp only [transition] at h
  split at h
  · cases h
  · split at h
    · cases h
    · rename_i fromState found
      exact ⟨⟨k, id, axis, fromState, toState, reason, actor⟩, found, ⟨rfl, rfl, rfl, rfl⟩, (some.inj h).symm⟩

lemma gateExperiment_cases {id : String} {profile : GateProfile} {metrics : Option Metrics}
    {reasons : List String} {actor : String} {result : GateResult}
    (h : gateExperiment s id profile metrics reasons actor = some (result, qs)) :
    result = evaluate (gateMetrics s id metrics) profile ∧
      ((∃ reason actor moves, transition s .experiment id .research result.researchState reason actor = some moves ∧
          qs = .setConfidence id result.confidenceScore :: moves) ∨
        ¬(result.researchState = "VALIDATED" ∨ result.researchState = "REJECTED") ∧
          qs = [.setConfidence id result.confidenceScore]) := by
  simp only [gateExperiment] at h
  split at h
  · cases h
  · split at h
    · obtain ⟨moves, outcome, eq⟩ := map_eq_some_iff.1 h
      cases eq
      exact ⟨rfl, .inl ⟨_, _, moves, outcome, rfl⟩⟩
    · rename_i stays
      cases h
      exact ⟨rfl, .inr ⟨stays, rfl⟩⟩

lemma Stage.begin {c : Call} (settled : Settled s) (pending : s.pending = []) (gating : s.gating = none)
    (careful : Careful s (.call c)) : Stage (begin s c) (begin s c).pending (begin s c).gating := by
  have first {t : State} {qs : List Sql} {g : Option (String × GateResult)} (h : Stage s qs g)
      (eq : t = { s with pending := qs, gating := g }) : Stage t t.pending t.gating := by
    subst eq
    exact h.move rfl rfl rfl rfl
  cases c with
  | recordStrategy id row =>
    apply first (.putStrategy settled careful)
    rw [← gating]
    rfl
  | recordExperiment id row =>
    apply first (.putExperiment settled careful)
    rw [← gating]
    rfl
  | transition k id axis toState reason actor =>
    cases outcome : transition s k id axis toState reason actor with
    | none =>
      apply first (.idle settled)
      rw [← gating]
      simp only [Research.begin, outcome]
      rfl
    | some qs =>
      obtain ⟨r, source, ⟨rfl, rfl, rfl, rfl⟩, rfl⟩ := transition_cases outcome
      refine first (@Stage.insert s r none settled source fun _ _ eq => nomatch eq) ?_
      rw [← gating]
      simp only [Research.begin, outcome]
      rfl
  | gateExperiment id profile metrics reasons actor =>
    have raises (outcome : gateExperiment s id profile metrics reasons actor = none) :
        Stage (Research.begin s (.gateExperiment id profile metrics reasons actor))
          (Research.begin s (.gateExperiment id profile metrics reasons actor)).pending
          (Research.begin s (.gateExperiment id profile metrics reasons actor)).gating := by
      apply first (.idle settled)
      simp only [Research.begin, outcome]
      rw [← gating, ← pending]
    cases outcome : gateExperiment s id profile metrics reasons actor with
    | none => exact raises outcome
    | some returned =>
      obtain ⟨result, qs⟩ := returned
      have eq : Research.begin s (.gateExperiment id profile metrics reasons actor) =
          { s with pending := qs, gating := some (id, result) } := by
        simp only [Research.begin, outcome]
      obtain ⟨evaluated, ⟨reason, actor, moves, moved, rfl⟩ | ⟨stays, rfl⟩⟩ := gateExperiment_cases outcome
      · obtain ⟨r, source, ours, rfl⟩ := transition_cases moved
        refine first (.scoreFirst settled ?_ ours) eq
        rw [ours.1, ours.2.1, ours.2.2.1]
        exact source
      · refine first (.score settled ?_) eq
        -- a gate that makes no transition lacks evidence, and leaves an experiment that is in RESEARCH
        obtain ⟨lacks, state⟩ | moves := @evaluate_state (gateMetrics s id metrics) profile
        · rw [careful lacks, evaluated, state]
        · rw [← evaluated] at moves
          exact absurd moves stays

/-! ## Runs -/

/-- A call is at one of its stages, and the result that was returned last is in its row. -/
def Inv (s : State) : Prop := Stage s s.pending s.gating ∧ (s.pending = [] → Scored s s.gated)

lemma Inv.settled (h : Inv s) (pending : s.pending = []) : Settled s ∧ s.gating = none := by
  obtain ⟨stage, -⟩ := h
  rw [pending] at stage
  generalize s.gating = gating at stage
  cases stage with
  | idle settled => exact ⟨settled, rfl⟩

lemma gated_begin {c : Call} : (begin s c).gated = s.gated := by
  cases c with
  | gateExperiment id profile metrics reasons actor =>
    simp only [begin]
    split <;> rfl
  | recordStrategy | recordExperiment | transition => rfl

lemma gating_execute {q : Sql} : (execute s q).gating = s.gating := by
  cases q with
  | putStrategy | putExperiment | insertTransition => rfl
  | setConfidence id score =>
    simp only [execute]
    split <;> rfl
  | setState k id axis state => cases k <;> cases axis <;> simp only [execute] <;> (try split) <;> rfl

lemma Inv.step {t : State} {l : Label} (h : Inv s) (careful : Careful s l) (st : registry.step s l = some t) :
    Inv t := by
  cases l with
  | call c =>
    simp only [registry] at st
    split at st
    · rename_i pending
      cases st
      obtain ⟨settled, gating⟩ := h.settled pending
      have cleared : Settled { s with gated := none } := fun k id axis => (settled k id axis).move rfl rfl rfl rfl
      have careful' : Careful { s with gated := none } (.call c) := by
        cases c <;> exact careful
      refine ⟨Stage.begin cleared pending gating careful', ?_⟩
      intro _ id result eq
      rw [gated_begin] at eq
      cases eq
    · cases st
  | execute =>
    obtain ⟨stage, -⟩ := h
    simp only [registry] at st
    split at st
    · cases st
    · rename_i q pending
      cases st
      rw [pending] at stage
      obtain ⟨settled, scored⟩ : Settled (execute s q) ∧ Scored (execute s q) s.gating := stage.execute
      exact ⟨.idle fun k id axis => (settled k id axis).move rfl rfl rfl rfl, fun _ => scored⟩
    · rename_i q qs more pending
      cases st
      rw [pending] at stage
      have next := stage.execute
      rw [if_neg more] at next
      have gating : (execute s q).gating = s.gating := gating_execute
      refine ⟨?_, fun none => absurd none more⟩
      show Stage _ qs (execute s q).gating
      rw [gating]
      exact next.move rfl rfl rfl rfl
  | crash =>
    cases st
    have settled := h.1.crash careful
    exact ⟨.idle fun k id axis => (settled k id axis).move rfl rfl rfl rfl, fun _ _ _ eq => nomatch eq⟩

/-- Under the conditions on recordings, crashes and gates, the log is the history of the states and a gate leaves its
result. -/
theorem research_history_faithful {labels : List Label} {t : State} (met : registry.Meets Careful {} labels)
    (run : registry.run {} labels = some t) : Faithful t := by
  have start : Inv {} := by
    refine ⟨.idle ?_, fun _ _ _ eq => nomatch eq⟩
    intro k id axis
    refine ⟨?_, fun _ => ⟨rfl, rfl⟩⟩
    cases k <;> cases axis <;> exact fun _ eq => nomatch eq
  have inv : Inv t := Machine.run_invariant Inv.step start met run
  intro pending
  exact ⟨(inv.settled pending).1, inv.2 pending⟩

def trialProfile : GateProfile where
  name := "trial"
  criteria := [⟨"positive return", fun metrics => (metrics.lookup "return").any (0 < ·), 1⟩]
  evidenceKey := some "trades"
  evidenceFloor := 10
  evidenceStrong := 30

def trialLabels : List Label :=
  [.call (.recordExperiment "e" {}), .execute,
   .call (.gateExperiment "e" trialProfile (some [("return", 3), ("trades", 4)]) []), .execute, .crash,
   .call (.gateExperiment "e" trialProfile (some [("return", 3), ("trades", 40)]) []), .execute, .execute, .execute,
   .call (.recordExperiment "e" { researchState := "VALIDATED" }), .execute,
   .call (.gateExperiment "e" trialProfile (some [("return", -1), ("trades", 40)]) []), .execute, .execute, .execute]

theorem trial_faithful : ∃ t, registry.run {} trialLabels = some t ∧ Faithful t ∧
    stored t .experiment "e" .research = some "REJECTED" ∧ (rows t .experiment "e" .research).length = 2 := by
  obtain ⟨t, run⟩ := isSome_iff_exists.1 (show (registry.run {} trialLabels).isSome = true by decide +kernel)
  refine ⟨t, run, @research_history_faithful trialLabels t (by decide +kernel) run, ?_, ?_⟩
  · exact Machine.observe (t := t) (f := fun s => stored s .experiment "e" .research) run (by decide +kernel)
  · exact Machine.observe (t := t) (f := fun s => (rows s .experiment "e" .research).length) run (by decide +kernel)

def thinLabels : List Label :=
  [.call (.recordExperiment "e" {}), .execute,
   .call (.gateExperiment "e" trialProfile (some [("return", 3), ("trades", 40)]) []), .execute, .execute, .execute,
   .call (.gateExperiment "e" trialProfile (some [("return", 3), ("trades", 4)]) []), .execute]

def tornLabels : List Label :=
  [.call (.recordExperiment "e" {}), .execute,
   .call (.transition .experiment "e" .research "VALIDATED" "looks good" none), .execute, .crash]

def rerecordedLabels : List Label :=
  [.call (.recordExperiment "e" {}), .execute,
   .call (.transition .experiment "e" .research "VALIDATED" "looks good" none), .execute, .execute,
   .call (.recordExperiment "e" {}), .execute]

lemma not_faithful_of_last {k : EntityType} {id state last : String} {axis : Axis} (idle : s.pending = [])
    (found : stored s k id axis = some state) (log : ((rows s k id axis).map (·.toState)).getLast? = some last)
    (ne : last ≠ state) : ¬Faithful s := by
  intro faithful
  obtain ⟨first, -, leads⟩ := ((faithful idle).1 k id axis).chained state found
  have eq := leads.last
  rw [log] at eq
  exact ne eq

/-- Nothing is pending, and the experiment stands at another state than its last transition names. -/
lemma unfaithful_of_behind {labels : List Label} (behind : ((registry.run {} labels).map fun s =>
      (s.pending, stored s .experiment "e" .research, ((rows s .experiment "e" .research).map (·.toState)).getLast?)) =
    some ([], some "RESEARCH", some "VALIDATED")) : ∃ t, registry.run {} labels = some t ∧ ¬Faithful t := by
  obtain ⟨t, run, eq⟩ := map_eq_some_iff.1 behind
  obtain ⟨idle, eq⟩ := Prod.mk.inj eq
  obtain ⟨state, log⟩ := Prod.mk.inj eq
  exact ⟨t, run, not_faithful_of_last idle state log (by decide)⟩

theorem research_history_unfaithful : (∃ t, registry.run {} thinLabels = some t ∧ ¬Faithful t) ∧
    (∃ t, registry.run {} tornLabels = some t ∧ ¬Faithful t) ∧
    (∃ t, registry.run {} rerecordedLabels = some t ∧ ¬Faithful t) := by
  refine ⟨?_, ?_, ?_⟩
  · obtain ⟨t, run⟩ := isSome_iff_exists.1 (show (registry.run {} thinLabels).isSome = true by decide +kernel)
    refine ⟨t, run, fun faithful => ?_⟩
    have idle : t.pending = [] := Machine.observe (t := t) (f := (·.pending)) run (by decide +kernel)
    have gated : t.gated.map (fun g => (g.1, g.2.researchState)) = some ("e", "RESEARCH") :=
      Machine.observe (t := t) (f := fun s => s.gated.map fun g => (g.1, g.2.researchState)) run (by decide +kernel)
    have state : (t.experiments.get "e").map (·.researchState) = some "VALIDATED" :=
      Machine.observe (t := t) (f := fun s => (s.experiments.get "e").map (·.researchState)) run (by decide +kernel)
    obtain ⟨⟨id, result⟩, returned, eq⟩ := map_eq_some_iff.1 gated
    obtain ⟨rfl, eq⟩ := Prod.mk.inj eq
    obtain ⟨row, get, same, -⟩ := (faithful idle).2 _ _ returned
    rw [get, map_some, same, eq] at state
    exact absurd state (by decide)
  · exact @unfaithful_of_behind tornLabels (by decide +kernel)
  · exact @unfaithful_of_behind rerecordedLabels (by decide +kernel)

end Workbench.Research
