import Workbench.Validation.ForwardEvaluator
import Workbench.Validation.LedgerAccounting

/-!
# What the evaluator accepts and what it leaves behind

The records of the reference transition under the frozen sizing rule are accepted but for one: a selection at zero
gross, of which the reference keeps no weights. A record without a trade is accepted when the gate of the marked
reference does not fire. `evaluateSession_contract` has both, and what is left of a ledger when a session raises.
-/

set_option linter.dupNamespace false

namespace Workbench.Validation
open Lib ShadowLedger List Dict

/-- The frozen rule: equal weights, none above the cap. -/
def equalWeigh : WeighFn := fun target _ =>
  target.foldl (fun w ticker => w.set ticker (min (1 / (target.length : ℚ)) maxPositionPct)) .empty

/-- A selection that picks at most `max_names` distinct names. -/
def Selects (select : SelectFn) : Prop := ∀ ds held prev, (select ds held prev).Nodup ∧ (select ds held prev).length ≤
    maxNames

/-! ## Sizing -/

section Sizing

variable {target : List String} {d : Date} {g : ℚ}

lemma get_foldl_const {names : List String} {w : Dict String ℚ} {c : ℚ} {k : String} :
    (names.foldl (fun w ticker => w.set ticker c) w).get k = if k ∈ names then some c else w.get k := by
  induction names generalizing w with
  | nil => simp
  | cons name names ih =>
    rw [foldl_cons, ih, get_set]
    by_cases later : k ∈ names
    · simp [later]
    · simp [later]

lemma get_scaledWeights (positive : 0 < g) {k : String} : (scaledWeights equalWeigh target d g).get k =
    if k ∈ target then some (min (1 / (target.length : ℚ)) maxPositionPct * g) else none := by
  rw [scaledWeights]
  by_cases none_ : target = []
  · simp [none_]
  · rw [if_pos ⟨positive, none_⟩, get_mapMaybe, equalWeigh, get_foldl_const]
    split <;> rfl

lemma mem_keys_scaledWeights (positive : 0 < g) {k : String} :
    k ∈ keys (scaledWeights equalWeigh target d g) ↔ k ∈ target := by
  rw [ShadowLedger.keys, Dict.mem_keys, get_scaledWeights positive]
  split <;> simp [*]

lemma totalWeight_eq {weights : List (String × ℚ)} {total : ℚ} (long : ∀ e ∈ weights, 0 ≤ e.2) :
    totalWeight total weights = .ok (total + (weights.map (·.2)).sum) := by
  induction weights generalizing total with
  | nil => simp [totalWeight]
  | cons e weights ih =>
    obtain ⟨ticker, w⟩ := e
    rw [totalWeight, if_neg (not_lt.2 (long _ mem_cons_self)), ih fun e mem => long e (mem_cons_of_mem _ mem),
      map_cons, sum_cons, add_assoc]

lemma conforms_of_eq {weights : List (String × ℚ)} {expected : ℚ} (eq : ∀ e ∈ weights, e.2 = expected) :
    conforms expected weights = .ok () := by
  induction weights with
  | nil => rfl
  | cons e weights ih =>
    obtain ⟨ticker, w⟩ := e
    have same : w = expected := eq _ mem_cons_self
    rw [conforms, same, sub_self, abs_zero, if_neg (by norm_num [weightEps])]
    exact ih fun e mem => eq e (mem_cons_of_mem _ mem)

lemma scaled_of_mem {e : String × ℚ} (mem : e ∈ (scaledWeights equalWeigh target d g).entries) :
    0 < g ∧ e.2 = min (1 / (target.length : ℚ)) maxPositionPct * g := by
  have found := get_of_mem_entries mem
  by_cases positive : 0 < g
  · rw [get_scaledWeights positive] at found
    split at found
    next => exact ⟨positive, (Option.some.inj found).symm⟩
    next => cases found
  · rw [scaledWeights, if_neg fun both => positive both.1] at found
    cases found

lemma total_le (some_ : target ≠ []) (nodup : target.Nodup) (positive : 0 < g) :
    ((scaledWeights equalWeigh target d g).entries.map (·.2)).sum ≤ g := by
  have same : ∀ e ∈ (scaledWeights equalWeigh target d g).entries,
      e.2 = min (1 / (target.length : ℚ)) maxPositionPct * g := fun _ mem => (scaled_of_mem mem).2
  have length : (scaledWeights equalWeigh target d g).entries.length = target.length := by
    have perm : (keys (scaledWeights equalWeigh target d g)).Perm target :=
      (perm_ext_iff_of_nodup (scaledWeights equalWeigh target d g).nodup nodup).2
        fun k => mem_keys_scaledWeights positive
    rw [← perm.length_eq, ShadowLedger.keys, length_map]
  have count : (0 : ℚ) < target.length := by
    rw [Nat.cast_pos]
    exact length_pos_of_ne_nil some_
  rw [map_congr_left same, map_const', sum_replicate, length, nsmul_eq_mul]
  calc (target.length : ℚ) * (min (1 / (target.length : ℚ)) maxPositionPct * g)
      ≤ target.length * (1 / target.length * g) := by gcongr; exact min_le_left _ _
    _ = g := by field_simp

lemma validate_iff {rec : SeamRecord} (range : 0 ≤ rec.regimeGross ∧ rec.regimeGross ≤ 1)
    (nodup : rec.targetNames.Nodup) (few : rec.targetNames.length ≤ maxNames)
    (weights : rec.weights = scaledWeights equalWeigh rec.targetNames d rec.regimeGross) :
    validateDecisionValues rec = .ok () ↔ 0 < rec.regimeGross ∨ rec.targetNames = [] := by
  have cap : (0 : ℚ) ≤ maxPositionPct := by norm_num [maxPositionPct]
  have long : ∀ e ∈ rec.weights.entries, 0 ≤ e.2 := by
    intro e mem
    rw [weights] at mem
    obtain ⟨positive, eq⟩ := scaled_of_mem mem
    rw [eq]
    positivity
  have conform : conforms (min (1 / (rec.targetNames.length : ℚ)) maxPositionPct * rec.regimeGross)
      rec.weights.entries = .ok () := by
    apply conforms_of_eq
    intro e mem
    rw [weights] at mem
    exact (scaled_of_mem mem).2
  rw [validateDecisionValues]
  simp only [not_not.2 range, not_not.2 nodup, not_lt.2 few, if_false, totalWeight_eq long, zero_add]
  by_cases empty : rec.targetNames = []
  · have none_ : rec.weights = .empty := by rw [weights, scaledWeights, if_neg fun both => both.2 empty]
    have within : ¬ rec.regimeGross + weightEps < 0 := by
      have eps : (0 : ℚ) ≤ weightEps := by norm_num [weightEps]
      linarith [range.1]
    rw [none_, empty, if_neg (by simp [ShadowLedger.keys, Dict.empty])]
    simp [bind, Except.bind, Dict.empty, within]
  · rcases range.1.lt_or_eq with positive | zero
    · have total := total_le (d := d) empty nodup positive
      have names : (keys rec.weights).toFinset = rec.targetNames.toFinset := by
        ext k
        rw [mem_toFinset, mem_toFinset, weights, mem_keys_scaledWeights positive]
      have within : ¬ rec.regimeGross + weightEps < (rec.weights.entries.map (·.2)).sum := by
        have eps : (0 : ℚ) ≤ weightEps := by norm_num [weightEps]
        rw [weights]
        linarith
      simpa [names, bind, Except.bind, within, empty, positive, frozenWeighting] using conform
    · have none_ : rec.weights = .empty := by rw [weights, scaledWeights, if_neg fun both => zero.not_lt both.1]
      have names : (keys rec.weights).toFinset ≠ rec.targetNames.toFinset := by
        rw [none_]
        intro eq
        exact empty (toFinset_eq_empty_iff _ |>.1 eq.symm)
      simp [names, ← zero, empty]

end Sizing

/-! ## The gate -/

/-- The decision state of the reference, once it is marked. -/
def referenceState (cfg : LedgerConfig) (s : ShadowLedgerState) : InstrumentDecisionState where
  held := s.held
  currentWeights := s.sleeves.mapMaybe fun _ v => some (v / s.equity)
  lastAppliedTargetWeights := s.targetW
  priorAppliedGross := s.appliedGross
  sessionsSinceRebalance := s.since
  weightDriftThreshold := cfg.weightDriftPct
  backstopDays := cfg.backstopDays

section Gate

variable {cfg : LedgerConfig} {s : ShadowLedgerState} {rec : SeamRecord}

lemma lt_maxDrift {held : List String} {current target : String → ℚ} {threshold : ℚ} (some_ : held ≠ []) :
    threshold < maxDrift held current target ↔ ∃ ticker ∈ held, threshold < |current ticker - target ticker| := by
  induction held with
  | nil => exact absurd rfl some_
  | cons ticker held ih =>
    have max_eq : maxDrift (ticker :: held) current target =
        max |current ticker - target ticker| (maxDrift held current target) := rfl
    rw [max_eq, lt_max_iff]
    by_cases rest : held = []
    · subst rest
      have nonneg := abs_nonneg (current ticker - target ticker)
      constructor
      · rintro (here | none)
        · exact ⟨ticker, mem_cons_self, here⟩
        · exact ⟨ticker, mem_cons_self, lt_of_lt_of_le none nonneg⟩
      · rintro ⟨k, mem, drift⟩
        obtain rfl := mem_singleton.1 mem
        exact .inl drift
    · rw [ih rest]
      simp only [mem_cons, exists_eq_or_imp]

lemma conceal_eq_ok {st : InstrumentDecisionState} :
    assertNoConcealedTransition { rec with tradeInitiated := false } st = .ok () ↔
      rec.targetNames.toFinset = st.held.toFinset ∧ ¬ grossEps < |rec.regimeGross - st.priorAppliedGross| ∧
        ¬ st.backstopDays ≤ st.sessionsSinceRebalance ∧
        ¬ (st.held ≠ [] ∧ st.weightDriftThreshold <
          maxDrift st.held (weightOf st.currentWeights) (weightOf st.lastAppliedTargetWeights)) := by
  rw [assertNoConcealedTransition]
  simp only [Bool.false_eq_true, if_false]
  split
  next changed => exact ⟨fun eq => (by cases eq), fun all => absurd all.1 changed⟩
  next same =>
    rw [not_not] at same
    split
    next flip => exact ⟨fun eq => (by cases eq), fun all => absurd flip all.2.1⟩
    next steady =>
      split
      next due => exact ⟨fun eq => (by cases eq), fun all => absurd due all.2.2.1⟩
      next early =>
        split
        next drift => exact ⟨fun eq => (by cases eq), fun all => absurd drift all.2.2.2⟩
        next close => exact ⟨fun _ => ⟨same, steady, early, close⟩, fun _ => rfl⟩

lemma conceal_iff (positive : 0 < s.equity) (targets : s.held ≠ [] → keys s.targetW ≠ []) :
    assertNoConcealedTransition { rec with tradeInitiated := false } (referenceState cfg s) = .ok () ↔
      (triggers cfg s rec.targetNames rec.regimeGross).any (·.2) = false := by
  have weight (k : String) : weightOf (s.sleeves.mapMaybe fun _ v => some (v / s.equity)) k =
      weightOf s.sleeves k / s.equity := by
    rw [weightOf, get_mapMaybe, weightOf]
    cases s.sleeves.get k with
    | none => exact (zero_div _).symm
    | some v => rfl
  have drift : (s.held ≠ [] ∧ cfg.weightDriftPct < maxDrift s.held
      (weightOf (s.sleeves.mapMaybe fun _ v => some (v / s.equity))) (weightOf s.targetW)) ↔
      s.held ≠ [] ∧ 0 < s.equity ∧ keys s.targetW ≠ [] ∧ ∃ ticker ∈ s.held,
        cfg.weightDriftPct < |weightOf s.sleeves ticker / s.equity - weightOf s.targetW ticker| := by
    apply and_congr_right
    intro some_
    rw [lt_maxDrift some_]
    simp only [weight]
    exact ⟨fun found => ⟨positive, targets some_, found⟩, fun all => all.2.2⟩
  rw [conceal_eq_ok]
  simp only [referenceState, triggers, any_cons, any_nil, Bool.or_false, Bool.or_eq_false_iff,
    decide_eq_false_iff_not, not_not, ← drift, grossEps]
  tauto

end Gate

/-! ## What a session that raises leaves -/

section Raise

variable {s s₁ : ShadowLedgerState} {d : Date} {price : PriceFn}

/-- The state that a call ends in, well or not. -/
def endState {α : Type} : EStateM.Result Fault ShadowLedgerState α → ShadowLedgerState
  | .ok _ s => s
  | .error _ s => s

/-- A call does not change what is read of a ledger, however it ends. -/
def Keeps {α β : Type} (x : Booking α) (read : ShadowLedgerState → β) : Prop := ∀ s, read (endState (x s)) = read s

lemma Keeps.bind {α β γ : Type} {x : Booking α} {f : α → Booking β} {read : ShadowLedgerState → γ}
    (first : Keeps x read) (rest : ∀ a, Keeps (f a) read) : Keeps (x >>= f) read := by
  intro s
  have kept := first s
  cases ran : x s with
  | ok a t =>
    rw [ran] at kept
    rw [bind_of_ok ran, rest a t]
    exact kept
  | error fault t =>
    rw [ran] at kept
    rw [bind_of_error ran]
    exact kept

lemma Keeps.forM {γ : Type} {f : String → Booking Unit} {read : ShadowLedgerState → γ} {names : List String}
    (each : ∀ k ∈ names, Keeps (f k) read) : Keeps (names.forM f) read := by
  induction names with
  | nil => exact fun _ => rfl
  | cons k names ih =>
    have first : Keeps (f k) read := each k mem_cons_self
    exact first.bind fun _ => ih fun k mem => each k (mem_cons_of_mem _ mem)

lemma keeps_markName {γ : Type} {read : ShadowLedgerState → γ} {ticker : String}
    (blind : ∀ s v p, read { s with sleeves := s.sleeves.set ticker v, lastPx := s.lastPx.set ticker p } = read s)
    (blind' : ∀ s p, read { s with lastPx := s.lastPx.set ticker p } = read s) :
    Keeps (markName price d ticker) read := by
  intro s
  rw [markName]
  cases price ticker d with
  | error fault => rfl
  | ok quote =>
    cases quote with
    | none => rfl
    | some p =>
      simp only
      split
      next =>
        cases s.sleeves.get ticker with
        | none => rfl
        | some v => exact blind s _ _
      next => exact blind' s _

lemma keeps_markToMarket : Keeps (markToMarket price d) (·.sessionsProcessed) := by
  intro s
  by_cases idle : s.held = []
  · rw [markToMarket_of_nil idle]
    rfl
  · rw [markToMarket_of_held idle]
    have marks : Keeps (s.held.forM (markName price d)) (·.sessionsProcessed) :=
      Keeps.forM fun k _ => keeps_markName (fun _ _ _ => rfl) fun _ _ => rfl
    exact marks.bind (fun _ _ => rfl) s

lemma keeps_applyRebalance {bps : ℚ} {neww : Dict String ℚ} {g : ℚ} :
    Keeps (applyRebalance bps price d neww g) (·.sessionsProcessed) := by
  intro s
  have lifted : Keeps (MonadExcept.ofExcept (pricesOf price d .empty (keys neww)) : Booking _)
      (·.sessionsProcessed) := by
    intro s
    cases pricesOf price d .empty (keys neww) <;> rfl
  exact lifted.bind (fun _ _ => rfl) { s with
    equity := s.equity * (1 - bps / 10 ^ 4 * turnoverOf s neww)
    sleeves := neww.mapMaybe fun _ w => some (w * (s.equity * (1 - bps / 10 ^ 4 * turnoverOf s neww)))
    cash := cashWeight neww * (s.equity * (1 - bps / 10 ^ 4 * turnoverOf s neww)) }

lemma sessionsProcessed_of_raise {cfg : LedgerConfig} {record : SeamRecord} {fault : Fault}
    (raised : bookDecision cfg d record price s = .error fault s₁) : s₁.sessionsProcessed = s.sessionsProcessed := by
  have count := @keeps_markToMarket d price s
  cases marks : markToMarket price d s with
  | error fault' t =>
    rw [marks] at count
    rw [bookDecision_of_raised marks] at raised
    cases raised
    exact count
  | ok _ t =>
    rw [marks] at count
    rw [bookDecision_of_marked marks, conclude] at raised
    split at raised
    next =>
      have kept := @keeps_applyRebalance d price cfg.turnoverCostBps record.weights record.regimeGross t
      cases applied : applyRebalance cfg.turnoverCostBps price d record.weights record.regimeGross t with
      | ok _ u =>
        have done := raised.symm.trans (bind_of_ok applied)
        cases done
      | error fault' u =>
        have stopped := raised.symm.trans (bind_of_error applied)
        cases stopped
        rw [applied] at kept
        exact kept.trans count
    next => cases raised

end Raise

/-! ## A session tried again -/

section Retry

variable {s s₁ : ShadowLedgerState} {d : Date} {price : PriceFn} {quotes : String → Date → Option ℚ} {fault : Fault}

lemma markName_again {ticker : String} (marked : ∀ p, quotes ticker d = some p → 0 < p ∧ s.lastPx.get ticker = some p)
    (sleeve : (s.sleeves.get ticker).isSome = true) : markName (quoting quotes) d ticker s = .ok () s := by
  obtain ⟨v, sleeve⟩ := Option.isSome_iff_exists.1 sleeve
  rw [markName, quoting]
  cases quote : quotes ticker d with
  | none => rfl
  | some p =>
    obtain ⟨positive, last⟩ := marked p quote
    have still : v * (1 + (p / p - 1)) = v := by
      rw [div_self positive.ne']
      ring
    simp only [weightOf, last, Option.getD_some, positive, if_true, sleeve, still, set_of_get last,
      set_of_get sleeve]

lemma forM_retry {names : List String} (book : Book s) (nodup : names.Nodup) (held : ∀ k ∈ names, k ∈ s.held)
    (priced : ∀ k p, quotes k d = some p → 0 < p) (agree : ∀ k x, price k d = .ok x → x = quotes k d)
    (raised : names.forM (markName price d) s = .error fault s₁) :
    names.forM (markName (quoting quotes) d) s₁ = names.forM (markName (quoting quotes) d) s := by
  induction names generalizing s with
  | nil => cases raised
  | cons ticker names ih =>
    obtain ⟨new, nodup⟩ := nodup_cons.1 nodup
    cases quote : price ticker d with
    | error fault' =>
      have first : markName price d ticker s = .error fault' s := by rw [markName, quote]
      have stopped := raised.symm.trans (bind_of_error first)
      cases stopped
      rfl
    | ok x =>
      have same : markName price d ticker s = markName (quoting quotes) d ticker s := by
        rw [markName, markName, quote, quoting, agree ticker x quote]
      obtain ⟨s', one, book', frame, sleeves, marks⟩ :=
        markName_spec book (held ticker mem_cons_self) (priced ticker)
      have members : s'.held = s.held := by rw [frame]
      have raised : names.forM (markName price d) s' = .error fault s₁ :=
        (bind_of_ok (same.trans one)).symm.trans raised
      have rest := ih book' nodup (fun k mem => members ▸ held k (mem_cons_of_mem _ mem)) raised
      -- the other names do not touch this one
      have keeps : Keeps (names.forM (markName price d)) fun s => (s.sleeves.get ticker, s.lastPx.get ticker) := by
        apply Keeps.forM
        intro k mem
        have ne : ticker ≠ k := fun eq => new (eq ▸ mem)
        apply keeps_markName
        · intro s v p
          rw [get_set_of_ne ne, get_set_of_ne ne]
        · intro s p
          rw [get_set_of_ne ne]
      have kept := keeps s'
      rw [raised] at kept
      have sleeve : s₁.sleeves.get ticker = s'.sleeves.get ticker := (Prod.mk.inj kept).1
      have last : s₁.lastPx.get ticker = s'.lastPx.get ticker := (Prod.mk.inj kept).2
      have again : markName (quoting quotes) d ticker s₁ = .ok () s₁ := by
        apply markName_again
        · intro p known
          refine ⟨priced ticker p known, ?_⟩
          rw [last, marks, if_pos rfl, known, Option.some_or]
        · rw [sleeve, sleeves, if_pos rfl, Option.isSome_map]
          exact Dict.mem_keys.1 ((book.sleeves ticker).2 (held ticker mem_cons_self))
      have once : (ticker :: names).forM (markName (quoting quotes) d) s =
          names.forM (markName (quoting quotes) d) s' :=
        bind_of_ok one
      exact (bind_of_ok again).trans (rest.trans once.symm)

lemma bind_congr {α β : Type} {x : Booking α} {f : α → Booking β} (same : x s₁ = x s) : (x >>= f) s₁ = (x >>= f) s := by
  show EStateM.bind x f s₁ = EStateM.bind x f s
  rw [EStateM.bind, EStateM.bind, same]

lemma bookDecision_retry {cfg : LedgerConfig} {record : SeamRecord} (acc : Accounted s)
    (priced : ∀ k p, quotes k d = some p → 0 < p) (agree : ∀ k x, price k d = .ok x → x = quotes k d)
    (raised : markToMarket price d s = .error fault s₁) :
    bookDecision cfg d record (quoting quotes) s₁ = bookDecision cfg d record (quoting quotes) s := by
  by_cases idle : s.held = []
  · rw [markToMarket_of_nil idle] at raised
    cases raised
  · rw [markToMarket_of_held idle] at raised
    -- it is the loop that raises
    have stopped : s.held.forM (markName price d) s = .error fault s₁ := by
      cases ran : s.held.forM (markName price d) s with
      | ok _ t =>
        have done := raised.symm.trans (bind_of_ok ran)
        cases done
      | error fault' t => exact (bind_of_error ran).symm.trans raised
    have keeps : Keeps (s.held.forM (markName price d)) fun s => (s.held, s.equity) :=
      Keeps.forM fun k _ => keeps_markName (fun _ _ _ => rfl) fun _ _ => rfl
    have kept := keeps s
    rw [stopped] at kept
    have members : s₁.held = s.held := (Prod.mk.inj kept).1
    have equity : s₁.equity = s.equity := (Prod.mk.inj kept).2
    have marks : markToMarket (quoting quotes) d s₁ = markToMarket (quoting quotes) d s := by
      rw [markToMarket_of_held idle, markToMarket_of_held (members ▸ idle), members]
      exact bind_congr (forM_retry acc.toBook acc.nodup (fun _ mem => mem) priced agree stopped)
    show (markToMarket (quoting quotes) d >>= fun _ => conclude cfg (quoting quotes) d record s₁.equity) s₁ =
      (markToMarket (quoting quotes) d >>= fun _ => conclude cfg (quoting quotes) d record s.equity) s
    rw [equity]
    exact bind_congr marks

end Retry

/-! ## The contract -/

/-- What the session of a decision comes to: what is reported, the ledger, and the sessions that are processed. -/
def bookedOf : EStateM.Result EvaluationFault ForwardEvaluator SessionOutcome →
    Option (SessionOutcome × ShadowLedger × Finset String)
  | .ok outcome ev => some (outcome, ev.ledger, ev.processedSessions)
  | .error _ _ => none

/-- The records of the reference transition are accepted unless something is selected at zero gross; a record without a
    trade is accepted exactly when the gate does not fire; and a session that raises is not processed. -/
structure EvaluatorContract : Prop where
  sizing : ∀ cfg d ds g select price s o s', Selects select → 0 ≤ g ∧ g ≤ 1 →
    step cfg d ds g select equalWeigh price s = .ok o s' →
      (validateDecisionValues o.record = .ok () ↔ 0 < g ∨ o.record.targetNames = [])
  gate : ∀ cfg d ds g select weigh price s marked o s', markToMarket price d s = .ok () marked → 0 < marked.equity →
    (marked.held ≠ [] → keys marked.targetW ≠ []) → step cfg d (some ds) g select weigh price s = .ok o s' →
      (assertNoConcealedTransition { o.record with tradeInitiated := false } (referenceState cfg marked) = .ok () ↔
        o.record.tradeInitiated = false)
  notProcessed : ∀ provider price d ev fault ev', evaluateSession provider price d ev = .error fault ev' →
    ev'.processedSessions = ev.processedSessions ∧
      ev'.ledger.state.sessionsProcessed = ev.ledger.state.sessionsProcessed
  unbooked : ∀ provider price d ev fault ev', evaluateSession provider price d ev = .error fault ev' →
    (∀ f, fault ≠ .booking f) → ev'.ledger = ev.ledger
  retry : ∀ provider price d ev fault ev' quotes f marked, evaluateSession provider price d ev = .error fault ev' →
    markToMarket price d ev.ledger.state = .error f marked → Accounted ev.ledger.state →
    (∀ k p, quotes k d = some p → 0 < p) → (∀ k x, price k d = .ok x → x = quotes k d) →
      bookedOf (evaluateSession provider (quoting quotes) d ev') =
        bookedOf (evaluateSession provider (quoting quotes) d ev)
  once : ∀ provider price d ev outcome ev', evaluateSession provider price d ev = .ok outcome ev' →
    ∀ provider' price', evaluateSession provider' price' d ev' =
      .error (.refused (.alreadyEvaluated d.isoformat)) ev'

section Contract

variable {cfg : LedgerConfig} {d : Date} {ds : Option DayScores} {g : ℚ} {select : SelectFn} {weigh : WeighFn}
  {price : PriceFn} {s s' : ShadowLedgerState} {o : SessionOutcome}

lemma record_of_step (ok : step cfg d ds g select weigh price s = .ok o s') :
    ∃ marked, markToMarket price d s = .ok () marked ∧ o.record = match ds with
      | none => thinRecord d g
      | some ds => decided cfg marked d ds g select weigh := by
  obtain ⟨_, _, here, rest⟩ := bind_eq_ok.1 ok
  cases here
  obtain ⟨_, marked, marks, -⟩ := bind_eq_ok.1 rest
  refine ⟨marked, marks, ?_⟩
  rw [step_of_marked marks] at ok
  cases ds with
  | none => exact record_of_conclude ok
  | some ds => exact record_of_conclude ok

lemma sizing_of_step (selects : Selects select) (range : 0 ≤ g ∧ g ≤ 1)
    (ok : step cfg d ds g select equalWeigh price s = .ok o s') :
    validateDecisionValues o.record = .ok () ↔ 0 < g ∨ o.record.targetNames = [] := by
  obtain ⟨marked, -, record⟩ := record_of_step ok
  rw [record]
  cases ds with
  | none =>
    apply @validate_iff d _ range nodup_nil (Nat.zero_le _)
    simp [thinRecord, scaledWeights]
  | some ds =>
    obtain ⟨nodup, few⟩ := selects ds marked.held.toFinset marked.prevRank
    exact validate_iff range nodup few rfl

lemma gate_of_step {ds : DayScores} {marked : ShadowLedgerState} (marks : markToMarket price d s = .ok () marked)
    (positive : 0 < marked.equity) (targets : marked.held ≠ [] → keys marked.targetW ≠ [])
    (ok : step cfg d (some ds) g select weigh price s = .ok o s') :
    assertNoConcealedTransition { o.record with tradeInitiated := false } (referenceState cfg marked) = .ok () ↔
      o.record.tradeInitiated = false := by
  obtain ⟨marked', marks', record⟩ := record_of_step ok
  rw [marks] at marks'
  cases marks'
  rw [conceal_iff positive targets, record]
  rfl

end Contract

section Session

variable {provider : DecisionProvider} {price : PriceFn} {d : Date} {ev ev' : ForwardEvaluator}
  {fault : EvaluationFault}
  {outcome : SessionOutcome}

lemma of_evaluate_error (raised : evaluateSession provider price d ev = .error fault ev') :
    ∃ t last diagnostics, ev' = { ev with
        ledger := { ev.ledger with state := t }
        lastDecision := last
        shadowLedgerDriftDiagnostics := diagnostics } ∧
      (t = ev.ledger.state ∧ (∀ f, fault ≠ .booking f) ∨ ∃ f decision, fault = .booking f ∧
        bookDecision ev.ledger.toLedgerConfig d decision price ev.ledger.state = .error f t) := by
  rw [evaluateSession] at raised
  simp only at raised
  split at raised
  next =>
    cases raised
    exact ⟨_, _, _, rfl, .inl ⟨rfl, fun f eq => by cases eq⟩⟩
  next =>
    split at raised
    next =>
      cases raised
      exact ⟨_, _, _, rfl, .inl ⟨rfl, fun f eq => by cases eq⟩⟩
    next =>
      split at raised
      next =>
        cases raised
        exact ⟨_, _, _, rfl, .inl ⟨rfl, fun f eq => by cases eq⟩⟩
      next decision _ =>
        split at raised
        next =>
          cases raised
          exact ⟨_, _, _, rfl, .inl ⟨rfl, fun f eq => by cases eq⟩⟩
        next =>
          split at raised
          next f t booking =>
            cases raised
            exact ⟨_, _, _, rfl, .inr ⟨f, decision.record, rfl, booking⟩⟩
          next => cases raised

lemma bookedOf_congr {t : ShadowLedgerState} {last : Option ForwardDecision} {diagnostics : Dict String ℚ}
    (same : ∀ record, bookDecision ev.ledger.toLedgerConfig d record price t =
      bookDecision ev.ledger.toLedgerConfig d record price ev.ledger.state) :
    bookedOf (evaluateSession provider price d { ev with
      ledger := { ev.ledger with state := t }
      lastDecision := last
      shadowLedgerDriftDiagnostics := diagnostics }) = bookedOf (evaluateSession provider price d ev) := by
  rw [evaluateSession, evaluateSession]
  simp only
  split
  next => rfl
  next =>
    split
    next => rfl
    next =>
      cases provider d with
      | error text => rfl
      | ok decision =>
        -- the checks read the identities only
        have checks : ∀ ledger drift, boundaryChecks { ev with
            ledger := ledger
            lastDecision := some decision
            shadowLedgerDriftDiagnostics := drift } d.isoformat decision =
              boundaryChecks ev d.isoformat decision := fun _ _ => rfl
        simp only [checks]
        cases boundaryChecks ev d.isoformat decision with
        | error e => rfl
        | ok _ =>
          simp only [same]
          cases bookDecision ev.ledger.toLedgerConfig d decision.record price ev.ledger.state <;> rfl

end Session

/-- What is accepted of the reference, and what a session that raises leaves of the ledger. -/
theorem evaluateSession_contract : EvaluatorContract where
  sizing := fun _ _ _ _ _ _ _ _ _ => sizing_of_step
  gate := fun _ _ _ _ _ _ _ _ _ _ _ => gate_of_step
  notProcessed := by
    intro provider price d ev fault ev' raised
    obtain ⟨t, last, diagnostics, rfl, ⟨rfl, -⟩ | ⟨f, record, -, booking⟩⟩ := of_evaluate_error raised
    · exact ⟨rfl, rfl⟩
    · exact ⟨rfl, sessionsProcessed_of_raise booking⟩
  unbooked := by
    intro provider price d ev fault ev' raised other
    obtain ⟨t, last, diagnostics, rfl, ⟨rfl, -⟩ | ⟨f, record, eq, -⟩⟩ := of_evaluate_error raised
    · rfl
    · exact absurd eq (other f)
  retry := by
    intro provider price d ev fault ev' quotes f marked raised marks acc priced agree
    obtain ⟨t, last, diagnostics, rfl, ⟨rfl, -⟩ | ⟨f', record, -, booking⟩⟩ := of_evaluate_error raised
    · exact bookedOf_congr fun _ => rfl
    · apply bookedOf_congr
      intro record
      rw [bookDecision_of_raised marks] at booking
      cases booking
      exact bookDecision_retry acc priced agree marks
  once := by
    intro provider price d ev outcome ev' ok provider' price'
    have processed : d.isoformat ∈ ev'.processedSessions := by
      rw [evaluateSession] at ok
      simp only at ok
      split at ok
      next => cases ok
      next =>
        split at ok
        next => cases ok
        next =>
          split at ok
          next => cases ok
          next =>
            split at ok
            next => cases ok
            next =>
              split at ok
              next => cases ok
              next =>
                cases ok
                exact Finset.mem_insert_self _ _
    rw [evaluateSession]
    simp only [processed, if_true]

def oneName : DayScores where
  ranked := ["AAA"]
  score := Dict.empty.set "AAA" 1
  rank := Dict.empty.set "AAA" 1

def registeredEvaluator : ForwardEvaluator where
  ledger := registered
  shadowLedgerIdentity := "shadow"
  expectedSnapshotDigest := "digest"

def enters : ForwardDecision where
  record := { half monday 1 with weights := Dict.empty.set "AAA" (1 / 5) }
  instrumentIdentity := productionStrategyCommit
  durableStateId := "durable"
  instrumentState := referenceState registered.toLedgerConfig registered.state
  snapshotDigest := "digest"

/-- A selection at zero gross is refused; a drift does not show in the ledger before the mark; and where a price
raises, the cost and the sleeve of a bought name stay written. -/
theorem zero_gross_unmarked_unpriced :
    (match step registered.toLedgerConfig monday (some oneName) 0 (fun ds _ _ => ds.ranked) equalWeigh
        (quoting fun _ _ => some 100) registered.state with
      | .ok o _ => some (validateDecisionValues o.record)
      | .error _ _ => none) = some (.error (.otherNames [] ["AAA"])) ∧
    (match step registered.toLedgerConfig tuesday (some oneName) 1 (fun ds _ _ => ds.ranked) equalWeigh
        (quoting fun _ _ => some 200) atHundred with
      | .ok o _ => some (o.record.trigger,
          assertNoConcealedTransition { o.record with tradeInitiated := false }
            (referenceState registered.toLedgerConfig atHundred))
      | .error _ _ => none) = some ("drift", .ok ()) ∧
    (match evaluateSession (fun _ => .ok enters) (fun _ _ => .error (.price "no bar")) monday registeredEvaluator with
      | .error fault ev => some (fault, ev.ledger.state.equity, ev.ledger.state.sleeves, ev.ledger.state.held)
      | .ok _ _ => none) = some (.booking (.price "no bar"), 99980, Dict.empty.set "AAA" 19996, []) := by
  refine ⟨?_, ?_, ?_⟩
  · decide +kernel
  · decide +kernel
  · decide +kernel

end Workbench.Validation
