import Workbench.Lib.Machine
import Workbench.Validation.ShadowLedger

/-!
# The accounting of the shadow ledger

`Accounted` is what every session keeps: the equity is the cash and the sleeves, all of them long, and it stays
positive. `ledgerAccounting` adds what a session reports, that the records of a run, booked again, give the same ledger,
and how a name is marked after sessions without its price.
-/

set_option linter.dupNamespace false

namespace Workbench.Validation.ShadowLedger
open Lib List Dict Machine

lemma bind_of_ok {α β : Type} {x : Booking α} {f : α → Booking β} {s s' : ShadowLedgerState} {a : α}
    (ok : x s = .ok a s') : (x >>= f) s = f a s' := by
  show EStateM.bind x f s = _
  rw [EStateM.bind, ok]

lemma bind_of_error {α β : Type} {x : Booking α} {f : α → Booking β} {s s' : ShadowLedgerState} {fault : Fault}
    (raised : x s = .error fault s') : (x >>= f) s = .error fault s' := by
  show EStateM.bind x f s = _
  rw [EStateM.bind, raised]

/-- The sleeves of the held names, before the equity is refreshed. -/
structure Book (s : ShadowLedgerState) : Prop where
  nodup : s.held.Nodup
  sleeves : ∀ ticker, ticker ∈ keys s.sleeves ↔ ticker ∈ s.held
  targets : ∀ ticker, ticker ∈ keys s.targetW ↔ ticker ∈ s.held
  marks : ∀ ticker, ticker ∈ keys s.lastPx ↔ ticker ∈ s.held
  long : ∀ ticker v, s.sleeves.get ticker = some v → 0 ≤ v
  cash : 0 ≤ s.cash
  solvent : 0 < s.sleeves.values.sum + s.cash

/-- The books of a ledger are balanced. -/
structure Accounted (s : ShadowLedgerState) : Prop extends Book s where
  identity : s.equity = s.sleeves.values.sum + s.cash

lemma Accounted.positive {s : ShadowLedgerState} (acc : Accounted s) : 0 < s.equity := by
  rw [acc.identity]
  exact acc.solvent

/-- The factor by which a quote moves a sleeve that was last marked at a price. -/
def move (last : ℚ) (quote : Option ℚ) : ℚ :=
  match quote with
  | some p => if 0 < last then 1 + (p / last - 1) else 1
  | none => 1

lemma move_pos {last : ℚ} {quote : Option ℚ} (priced : ∀ p, quote = some p → 0 < p) : 0 < move last quote := by
  cases quote with
  | none => exact one_pos
  | some p =>
    rw [move]
    split
    next positive =>
      have ratio := div_pos (priced p rfl) positive
      linarith
    next => exact one_pos

/-! ## Marking to market -/

section Mark

variable {s : ShadowLedgerState} {price : String → Date → Option ℚ} {d : Date} {ticker : String}

lemma solvent_set {v factor cash : ℚ} {sleeves : Dict String ℚ} (found : sleeves.get ticker = some v)
    (long : ∀ k w, sleeves.get k = some w → 0 ≤ w) (cashLong : 0 ≤ cash) (positive : 0 < factor)
    (solvent : 0 < sleeves.values.sum + cash) : 0 < (sleeves.set ticker (v * factor)).values.sum + cash := by
  have before := sum_values id found
  have after := sum_values id (@get_set_self _ _ _ sleeves ticker (v * factor))
  rw [map_id, map_id, id] at before after
  rw [erase_set] at after
  have others : 0 ≤ (sleeves.erase ticker).values.sum := by
    apply sum_nonneg
    intro w mem
    obtain ⟨k, kept⟩ := mem_values.1 mem
    rw [get_erase] at kept
    split at kept
    next => cases kept
    next => exact long k w kept
  rw [before] at solvent
  rw [after]
  rcases (long ticker v found).lt_or_eq with some_ | none
  · have moved := mul_pos some_ positive
    linarith
  · rw [← none] at solvent ⊢
    linarith

lemma markName_spec (book : Book s) (held : ticker ∈ s.held) (priced : ∀ p, price ticker d = some p → 0 < p) :
    ∃ s', markName (quoting price) d ticker s = .ok () s' ∧ Book s' ∧
      s' = { s with sleeves := s'.sleeves, lastPx := s'.lastPx } ∧
      (∀ k, s'.sleeves.get k = if k = ticker then
        (s.sleeves.get k).map (· * move (weightOf s.lastPx k) (price k d)) else s.sleeves.get k) ∧
      (∀ k, s'.lastPx.get k = if k = ticker then (price k d).or (s.lastPx.get k) else s.lastPx.get k) := by
  obtain ⟨v, sleeve⟩ := Option.isSome_iff_exists.1 (Dict.mem_keys.1 ((book.sleeves ticker).2 held))
  have marked : ticker ∈ keys s.lastPx := (book.marks ticker).2 held
  cases quote : price ticker d with
  | none =>
    refine ⟨s, by rw [markName, quoting, quote], book, rfl, ?_, ?_⟩
    · intro k
      split
      next same =>
        rw [same, quote, move]
        simp
      next => rfl
    · intro k
      split
      next same => rw [same, quote, Option.none_or]
      next => rfl
  | some p =>
    have px (k : String) : (s.lastPx.set ticker p).get k =
        if k = ticker then (price k d).or (s.lastPx.get k) else s.lastPx.get k := by
      rw [get_set]
      split
      next same => rw [same, quote, Option.some_or]
      next => rfl
    by_cases last : 0 < weightOf s.lastPx ticker
    · refine ⟨{ s with
          sleeves := s.sleeves.set ticker (v * (1 + (p / weightOf s.lastPx ticker - 1)))
          lastPx := s.lastPx.set ticker p }, by rw [markName, quoting, quote]; simp only [last, if_true, sleeve], ?_,
            rfl,
        ?_, px⟩
      · have factor : move (weightOf s.lastPx ticker) (price ticker d) = 1 + (p / weightOf s.lastPx ticker - 1) := by
          rw [quote, move, if_pos last]
        refine ⟨book.nodup, ?_, book.targets, ?_, ?_, book.cash, ?_⟩
        · rw [keys, keys_set ((book.sleeves ticker).2 held)]
          exact book.sleeves
        · rw [keys, keys_set marked]
          exact book.marks
        · intro k w found
          rw [get_set] at found
          split at found
          next =>
            obtain rfl := Option.some.inj found
            rw [← factor]
            exact mul_nonneg (book.long ticker v sleeve) (move_pos priced).le
          next => exact book.long k w found
        · rw [← factor]
          exact solvent_set sleeve book.long book.cash (move_pos priced) book.solvent
      · intro k
        rw [get_set]
        split
        next same =>
          rw [same, sleeve, quote, move, if_pos last]
          rfl
        next => rfl
    · refine ⟨{ s with lastPx := s.lastPx.set ticker p }, by rw [markName, quoting, quote]; simp only [last, if_false],
        ⟨book.nodup, book.sleeves, book.targets, ?_, book.long, book.cash, book.solvent⟩, rfl, ?_, px⟩
      · rw [keys, keys_set marked]
        exact book.marks
      · intro k
        split
        next same =>
          rw [same, quote, move, if_neg last]
          simp
        next => rfl

lemma forM_markName_spec {names : List String} (book : Book s) (nodup : names.Nodup) (held : ∀ k ∈ names, k ∈ s.held)
    (priced : ∀ k p, price k d = some p → 0 < p) :
    ∃ s', names.forM (markName (quoting price) d) s = .ok () s' ∧ Book s' ∧
      s' = { s with sleeves := s'.sleeves, lastPx := s'.lastPx } ∧
      (∀ k, s'.sleeves.get k = if k ∈ names then
        (s.sleeves.get k).map (· * move (weightOf s.lastPx k) (price k d)) else s.sleeves.get k) ∧
      (∀ k, s'.lastPx.get k = if k ∈ names then (price k d).or (s.lastPx.get k) else s.lastPx.get k) := by
  induction names generalizing s with
  | nil => exact ⟨s, rfl, book, rfl, fun k => by simp, fun k => by simp⟩
  | cons ticker names ih =>
    obtain ⟨new, nodup⟩ := nodup_cons.1 nodup
    obtain ⟨s₁, one, book₁, frame₁, sleeves₁, marks₁⟩ := markName_spec book (held ticker mem_cons_self) (priced ticker)
    have same : s₁.held = s.held := by rw [frame₁]
    obtain ⟨s₂, all, book₂, frame₂, sleeves₂, marks₂⟩ :=
      ih book₁ nodup fun k mem => same ▸ held k (mem_cons_of_mem _ mem)
    refine ⟨s₂, ?_, book₂, ?_, ?_, ?_⟩
    · exact (bind_of_ok one).trans all
    · rw [frame₂, frame₁]
    · intro k
      rw [sleeves₂, sleeves₁, weightOf, weightOf, marks₁]
      by_cases first : k = ticker
      · simp [first, new]
      · simp [first]
    · intro k
      rw [marks₂, marks₁]
      by_cases first : k = ticker
      · simp [first, new]
      · simp [first]

lemma markToMarket_of_nil {price : PriceFn} (idle : s.held = []) : markToMarket price d s = .ok () s := by
  show (if s.held = [] then _ else _ : Booking Unit) s = _
  rw [if_pos idle]
  rfl

lemma markToMarket_of_held {price : PriceFn} (held : s.held ≠ []) : markToMarket price d s =
    (s.held.forM (markName price d) >>= fun _ => modify refresh) s := by
  show (if s.held = [] then _ else _ : Booking Unit) s = _
  rw [if_neg held]

lemma markToMarket_spec (acc : Accounted s) (priced : ∀ k p, price k d = some p → 0 < p) :
    ∃ s', markToMarket (quoting price) d s = .ok () s' ∧ Accounted s' ∧
      s' = { s with sleeves := s'.sleeves, lastPx := s'.lastPx, equity := s'.equity } ∧
      (∀ k, s'.sleeves.get k = (s.sleeves.get k).map (· * move (weightOf s.lastPx k) (price k d))) ∧
      (∀ k ∈ s.held, s'.lastPx.get k = (price k d).or (s.lastPx.get k)) := by
  have absent {k : String} (out : k ∉ s.held) : s.sleeves.get k = none := by
    rw [← acc.sleeves, keys, Dict.mem_keys] at out
    simpa using out
  by_cases idle : s.held = []
  · refine ⟨s, markToMarket_of_nil idle, acc, rfl, ?_, ?_⟩
    · intro k
      rw [absent (idle ▸ not_mem_nil)]
      rfl
    · intro k mem
      rw [idle] at mem
      cases mem
  · obtain ⟨s', all, book, frame, sleeves, marks⟩ := forM_markName_spec acc.toBook acc.nodup (fun _ mem => mem) priced
    refine ⟨{ s' with equity := s'.sleeves.values.sum + s'.cash }, ?_,
      ⟨⟨book.nodup, book.sleeves, book.targets, book.marks,
      book.long, book.cash, book.solvent⟩, rfl⟩, ?_, ?_, ?_⟩
    · exact (markToMarket_of_held idle).trans (bind_of_ok all)
    · rw [frame]
    · intro k
      show s'.sleeves.get k = _
      rw [sleeves]
      split
      next => rfl
      next out =>
        rw [absent out]
        rfl
    · intro k mem
      show s'.lastPx.get k = _
      rw [marks, if_pos mem]

end Mark

/-! ## Rebalancing -/

/-- Target weights are non-negative and sum to at most one. -/
structure ValidWeights (w : Dict String ℚ) : Prop where
  long : ∀ k v, w.get k = some v → 0 ≤ v
  total : w.values.sum ≤ 1

section Rebalance

variable {s : ShadowLedgerState} {price : String → Date → Option ℚ} {d : Date} {bps : ℚ} {neww : Dict String ℚ} {g : ℚ}

lemma weightOf_nonneg {w : Dict String ℚ} (long : ∀ k v, w.get k = some v → 0 ≤ v) (k : String) : 0 ≤ weightOf w k := by
  rw [weightOf]
  cases found : w.get k with
  | none => exact le_rfl
  | some v => exact long k v found

lemma sum_weightOf {w : Dict String ℚ} {names : Finset String} (all : ∀ k ∈ keys w, k ∈ names) :
    ∑ k ∈ names, weightOf w k = w.values.sum := by
  have sum := @sum_entries_of_support ℚ String ℚ _ _ w (fun _ v => v) names (by
    intro k v found out
    exact absurd (all k (Dict.mem_keys.2 (by rw [found]; rfl))) out)
  rw [Dict.values, sum]
  apply Finset.sum_congr rfl
  intro k _
  rw [weightOf]
  cases w.get k <;> rfl

lemma turnoverOf_mem (acc : Accounted s) (valid : ValidWeights neww) :
    0 ≤ turnoverOf s neww ∧ turnoverOf s neww ≤ 1 := by
  have positive := acc.positive
  have current (k : String) : currentWeight s k = weightOf s.sleeves k / s.equity := by rw [currentWeight,
      if_pos positive]
  have cash : 0 ≤ s.cash / s.equity := div_nonneg acc.cash positive.le
  have rest : 0 ≤ cashWeight neww := sub_nonneg.2 valid.total
  rw [turnoverOf, if_pos positive]
  constructor
  · have sum : 0 ≤ ∑ k ∈ moved s neww, |weightOf neww k - currentWeight s k| := Finset.sum_nonneg fun _ _ =>
      abs_nonneg _
    have part := abs_nonneg (cashWeight neww - s.cash / s.equity)
    linarith
  · -- each difference of two shares is at most their sum, and both books sum to one
    have bound : ∑ k ∈ moved s neww, |weightOf neww k - currentWeight s k| ≤
        ∑ k ∈ moved s neww, (weightOf neww k + currentWeight s k) := by
      apply Finset.sum_le_sum
      intro k _
      have new := weightOf_nonneg valid.long k
      have old : 0 ≤ currentWeight s k := by
        rw [current]
        exact div_nonneg (weightOf_nonneg acc.long k) positive.le
      rw [abs_le]
      constructor <;> linarith
    have new : ∑ k ∈ moved s neww, weightOf neww k = neww.values.sum :=
      sum_weightOf fun k mem => mem_toFinset.2 (mem_append_right _ mem)
    have sleeves : ∑ k ∈ moved s neww, weightOf s.sleeves k = s.sleeves.values.sum :=
      sum_weightOf fun k mem => mem_toFinset.2 (mem_append_left _ mem)
    have old : ∑ k ∈ moved s neww, currentWeight s k = s.sleeves.values.sum / s.equity := by
      rw [Finset.sum_congr rfl fun k _ => current k, ← Finset.sum_div, sleeves]
    have whole : s.sleeves.values.sum / s.equity + s.cash / s.equity = 1 := by
      rw [← add_div, ← acc.identity, div_self positive.ne']
    have part : |cashWeight neww - s.cash / s.equity| ≤ cashWeight neww + s.cash / s.equity := by
      rw [abs_le]
      constructor <;> linarith
    rw [Finset.sum_add_distrib, new, old] at bound
    rw [cashWeight] at part ⊢
    linarith

lemma pricesOf_quoting {px : Dict String ℚ} {names : List String} : ∃ px',
    pricesOf (quoting price) d px names = .ok px' ∧
      ∀ k, px'.get k = if k ∈ names then some ((price k d).getD 0) else px.get k := by
  induction names generalizing px with
  | nil => exact ⟨px, rfl, fun k => by simp⟩
  | cons name names ih =>
    obtain ⟨px', rest, get⟩ := @ih (px.set name ((price name d).getD 0))
    refine ⟨px', rest, ?_⟩
    intro k
    rw [get, get_set]
    by_cases first : k = name
    · simp [first]
    · simp [first]

lemma applyRebalance_quoting : ∃ px, applyRebalance bps (quoting price) d neww g s =
      .ok (turnoverOf s neww, s.equity - s.equity * (1 - bps / 10 ^ 4 * turnoverOf s neww)) { s with
        equity := s.equity * (1 - bps / 10 ^ 4 * turnoverOf s neww)
        sleeves := neww.mapMaybe fun _ w => some (w * (s.equity * (1 - bps / 10 ^ 4 * turnoverOf s neww)))
        cash := cashWeight neww * (s.equity * (1 - bps / 10 ^ 4 * turnoverOf s neww))
        lastPx := px
        targetW := neww
        held := (keys neww).insertionSort (· ≤ ·)
        appliedGross := g
        since := 0 } ∧
      ∀ k, px.get k = if k ∈ keys neww then some ((price k d).getD 0) else none := by
  obtain ⟨px, ok, get⟩ := @pricesOf_quoting price d .empty (keys neww)
  refine ⟨px, ?_, get⟩
  have lifted (t : ShadowLedgerState) :
      (MonadExcept.ofExcept (pricesOf (quoting price) d .empty (keys neww)) : Booking _) t = .ok px t := by
    rw [ok]
    rfl
  exact (bind_of_ok (lifted _)).trans rfl

end Rebalance

section Rebalance

variable {s : ShadowLedgerState} {price : String → Date → Option ℚ} {d : Date} {bps : ℚ} {neww : Dict String ℚ} {g : ℚ}

lemma values_mapMaybe {w : Dict String ℚ} {f : ℚ → ℚ} : (w.mapMaybe fun _ v => some (f v)).values = w.values.map f := by
  simp only [Dict.values, Dict.mapMaybe, Option.map_some, filterMap_eq_map', map_map]
  rfl

lemma cost_lt (bounds : 0 ≤ bps ∧ bps < 10000) {turnover : ℚ} (range : 0 ≤ turnover ∧ turnover ≤ 1) :
    bps / 10 ^ 4 * turnover < 1 := by
  have rate : bps / 10 ^ 4 < 1 := by
    rw [div_lt_one (by norm_num)]
    linarith [bounds.2]
  have nonneg : 0 ≤ bps / 10 ^ 4 := div_nonneg bounds.1 (by norm_num)
  calc bps / 10 ^ 4 * turnover ≤ bps / 10 ^ 4 * 1 := mul_le_mul_of_nonneg_left range.2 nonneg
    _ < 1 := by rwa [mul_one]

lemma accounted_rebalanced {s' : ShadowLedgerState} {equity : ℚ} (positive : 0 < equity) (valid : ValidWeights neww)
    (eq : s'.equity = equity) (sleeves : s'.sleeves = neww.mapMaybe fun _ w => some (w * equity))
    (cash : s'.cash = cashWeight neww * equity) (targets : s'.targetW = neww)
    (held : s'.held = (keys neww).insertionSort (· ≤ ·))
    (marks : ∀ k, (s'.lastPx.get k).isSome = true ↔ k ∈ keys neww) : Accounted s' := by
  have mem (k : String) : k ∈ s'.held ↔ k ∈ keys neww := by rw [held, mem_insertionSort]
  have whole : s'.sleeves.values.sum + s'.cash = equity := by
    rw [sleeves, cash, values_mapMaybe, sum_map_mul_right, map_id', cashWeight]
    ring
  refine ⟨⟨?_, ?_, ?_, ?_, ?_, ?_, ?_⟩, ?_⟩
  · rw [held]
    exact (perm_insertionSort _ _).nodup_iff.2 neww.nodup
  · intro k
    rw [mem, keys, keys, Dict.mem_keys, Dict.mem_keys, sleeves, get_mapMaybe]
    cases neww.get k <;> simp
  · intro k
    rw [mem, targets]
  · intro k
    rw [mem, keys, Dict.mem_keys, marks]
  · intro k v found
    rw [sleeves, get_mapMaybe] at found
    obtain ⟨w, weight, eq⟩ := Option.bind_eq_some_iff.1 found
    rw [← Option.some.inj eq]
    exact mul_nonneg (valid.long k w weight) positive.le
  · rw [cash]
    exact mul_nonneg (sub_nonneg.2 valid.total) positive.le
  · rw [whole]
    exact positive
  · rw [whole, eq]

end Rebalance

/-! ## Sessions -/

/-- One session of a run. -/
inductive Session where
  | step (ds : Option DayScores) (g : ℚ) (select : SelectFn) (weigh : WeighFn) (d : Date)
    (price : String → Date → Option ℚ)
  | book (record : SeamRecord) (d : Date) (price : String → Date → Option ℚ)

def Session.date : Session → Date
  | .step _ _ _ _ d _ => d
  | .book _ d _ => d

def Session.price : Session → String → Date → Option ℚ
  | .step _ _ _ _ _ price => price
  | .book _ _ price => price

def Session.quote (op : Session) (ticker : String) : Option ℚ := op.price ticker op.date

def Session.perform (cfg : LedgerConfig) : Session → Booking SessionOutcome
  | .step ds g select weigh d price => ShadowLedger.step cfg d ds g select weigh (quoting price)
  | .book record d price => bookDecision cfg d record (quoting price)

/-- What a session does to a ledger and what it reports. -/
structure Performed (cfg : LedgerConfig) (op : Session) (s s' : ShadowLedgerState) (o : SessionOutcome) : Prop where
  accounted : Accounted s'
  turnover : 0 ≤ o.turnover ∧ o.turnover ≤ 1
  cost : ∃ marked, markToMarket (quoting op.price) op.date s = .ok () marked ∧
    o.costDrag = marked.equity * (cfg.turnoverCostBps / 10 ^ 4) * o.turnover
  untraded : o.traded = false → s'.held = s.held ∧
    ∀ k, s'.sleeves.get k = (s.sleeves.get k).map (· * move (weightOf s.lastPx k) (op.quote k))
  marks : ∀ k ∈ s'.held, s'.lastPx.get k = match op.quote k with
    | some p => some p
    | none => if o.traded then some 0 else s.lastPx.get k

section Session

variable {cfg : LedgerConfig} {s : ShadowLedgerState} {price : String → Date → Option ℚ} {d : Date}
  {record : SeamRecord}
  {equityBefore : ℚ}

lemma idle_eq : idle record equityBefore s = .ok ⟨record, false, equityBefore, s.equity, ret equityBefore s.equity, 0,
    0⟩
    { s with since := s.since + 1, sessionsProcessed := s.sessionsProcessed + 1 } := rfl

/-- The rest of a session, once the ledger is marked. -/
def conclude (cfg : LedgerConfig) (price : PriceFn) (d : Date) (record : SeamRecord) (equityBefore : ℚ) :
    Booking SessionOutcome :=
  if record.tradeInitiated then rebalance cfg price d record equityBefore else idle record equityBefore

lemma rebalance_quoting : ∃ px, rebalance cfg (quoting price) d record equityBefore s =
    .ok ⟨record, true, equityBefore, s.equity * (1 - cfg.turnoverCostBps / 10 ^ 4 * turnoverOf s record.weights),
        ret equityBefore (s.equity * (1 - cfg.turnoverCostBps / 10 ^ 4 * turnoverOf s record.weights)),
        turnoverOf s record.weights,
        s.equity - s.equity * (1 - cfg.turnoverCostBps / 10 ^ 4 * turnoverOf s record.weights)⟩
      { s with
        equity := s.equity * (1 - cfg.turnoverCostBps / 10 ^ 4 * turnoverOf s record.weights)
        sleeves := record.weights.mapMaybe fun _ w =>
          some (w * (s.equity * (1 - cfg.turnoverCostBps / 10 ^ 4 * turnoverOf s record.weights)))
        cash := cashWeight record.weights *
          (s.equity * (1 - cfg.turnoverCostBps / 10 ^ 4 * turnoverOf s record.weights))
        lastPx := px
        targetW := record.weights
        held := (keys record.weights).insertionSort (· ≤ ·)
        appliedGross := record.regimeGross
        since := 0
        sessionsProcessed := s.sessionsProcessed + 1 } ∧
      ∀ k, px.get k = if k ∈ keys record.weights then some ((price k d).getD 0) else none := by
  obtain ⟨px, ok, get⟩ := @applyRebalance_quoting s price d cfg.turnoverCostBps record.weights record.regimeGross
  exact ⟨px, (bind_of_ok ok).trans rfl, get⟩

end Session

section Conclude

variable {cfg : LedgerConfig} {s : ShadowLedgerState} {price : String → Date → Option ℚ} {d : Date}
  {record : SeamRecord}
  {equityBefore : ℚ}

lemma conclude_spec (acc : Accounted s) (bounds : 0 ≤ cfg.turnoverCostBps ∧ cfg.turnoverCostBps < 10000) :
    ∃ o s', conclude cfg (quoting price) d record equityBefore s = .ok o s' ∧ o.record = record ∧
      (o.traded = false → s'.held = s.held ∧ s'.sleeves = s.sleeves ∧ s'.lastPx = s.lastPx) ∧
      ((o.traded = true → ValidWeights record.weights) → Accounted s' ∧ (0 ≤ o.turnover ∧ o.turnover ≤ 1) ∧
          o.costDrag = s.equity * (cfg.turnoverCostBps / 10 ^ 4) * o.turnover ∧
          ∀ k ∈ s'.held, s'.lastPx.get k = if o.traded then some ((price k d).getD 0) else s.lastPx.get k) := by
  rw [conclude]
  cases trade : record.tradeInitiated with
  | false =>
    refine ⟨_, _, idle_eq, rfl, fun _ => ⟨rfl, rfl, rfl⟩, ?_⟩
    intro _
    exact ⟨⟨⟨acc.nodup, acc.sleeves, acc.targets, acc.marks, acc.long, acc.cash, acc.solvent⟩, acc.identity⟩,
      ⟨le_rfl, zero_le_one⟩, by ring, fun k _ => rfl⟩
  | true =>
    obtain ⟨px, ok, get⟩ := @rebalance_quoting cfg s price d record equityBefore
    refine ⟨_, _, ok, rfl, ?_, ?_⟩
    · intro untraded
      cases untraded
    intro valid
    have valid := valid rfl
    have range := turnoverOf_mem acc valid
    have kept := sub_pos.2 (cost_lt bounds range)
    refine ⟨accounted_rebalanced (mul_pos acc.positive kept) valid rfl rfl rfl rfl rfl ?_, range, by ring, ?_⟩
    · intro k
      rw [get]
      split <;> simp [*]
    · intro k mem
      rw [mem_insertionSort] at mem
      show px.get k = _
      rw [get, if_pos mem]
      rfl

lemma step_of_marked {ds : Option DayScores} {g : ℚ} {select : SelectFn} {weigh : WeighFn} {marked : ShadowLedgerState}
    {price : PriceFn} (ok : markToMarket price d s = .ok () marked) :
    step cfg d ds g select weigh price s = match ds with
      | none => conclude cfg price d (thinRecord d g) s.equity marked
      | some ds => conclude cfg price d (decided cfg marked d ds g select weigh) s.equity
        { marked with prevRank := some ds.rank } := by
  refine (bind_of_ok ok).trans ?_
  cases ds <;> rfl

lemma bookDecision_of_marked {marked : ShadowLedgerState} {price : PriceFn}
    (ok : markToMarket price d s = .ok () marked) :
    bookDecision cfg d record price s = conclude cfg price d record s.equity marked :=
  bind_of_ok ok

lemma bookDecision_of_raised {raised : ShadowLedgerState} {fault : Fault} {price : PriceFn}
    (marks : markToMarket price d s = .error fault raised) : bookDecision cfg d record price s =
      .error fault raised := by
  show (markToMarket price d >>= fun _ => conclude cfg price d record s.equity) s = _
  exact bind_of_error marks

lemma perform_of_marked {op : Session} {marked : ShadowLedgerState}
    (ok : markToMarket (quoting op.price) op.date s = .ok () marked) :
    ∃ record r, op.perform cfg s =
      conclude cfg (quoting op.price) op.date record s.equity { marked with prevRank := r } := by
  cases op with
  | book record d price => exact ⟨record, marked.prevRank, bookDecision_of_marked ok⟩
  | step ds g select weigh d price =>
    cases ds with
    | none => exact ⟨thinRecord d g, marked.prevRank, @step_of_marked cfg s d none g select weigh marked
      (quoting price) ok⟩
    | some ds =>
      exact ⟨decided cfg marked d ds g select weigh, some ds.rank,
        @step_of_marked cfg s d (some ds) g select weigh marked (quoting price) ok⟩

lemma perform_spec {op : Session} (acc : Accounted s)
    (bounds : 0 ≤ cfg.turnoverCostBps ∧ cfg.turnoverCostBps < 10000) (priced : ∀ k p, op.quote k = some p → 0 < p) :
    ∃ o s', op.perform cfg s = .ok o s' ∧
      ((o.traded = true → ValidWeights o.record.weights) → Performed cfg op s s' o) := by
  obtain ⟨marked, ok, acc', frame, sleeves, marks⟩ := markToMarket_spec acc priced
  have members : marked.held = s.held := by rw [frame]
  obtain ⟨record, r, rest⟩ := @perform_of_marked cfg s op marked ok
  have acc'' : Accounted { marked with prevRank := r } :=
    ⟨⟨acc'.nodup, acc'.sleeves, acc'.targets, acc'.marks, acc'.long, acc'.cash, acc'.solvent⟩, acc'.identity⟩
  obtain ⟨o, s', done, same, untraded, spec⟩ := @conclude_spec cfg _ op.price op.date record s.equity acc'' bounds
  refine ⟨o, s', rest.trans done, ?_⟩
  intro valid
  rw [same] at valid
  obtain ⟨balanced, range, cost, last⟩ := spec valid
  refine ⟨balanced, range, ⟨marked, ok, cost⟩, ?_, ?_⟩
  · intro still
    obtain ⟨held, kept, -⟩ := untraded still
    refine ⟨held.trans members, ?_⟩
    intro k
    rw [kept]
    exact sleeves k
  · intro k mem
    rw [last k mem]
    cases trade : o.traded with
    | true =>
      show some ((op.quote k).getD 0) = _
      cases op.quote k <;> rfl
    | false =>
      show marked.lastPx.get k = _
      rw [(untraded trade).1] at mem
      rw [marks k (members ▸ mem)]
      show (op.quote k).or _ = _
      cases op.quote k <;> rfl

end Conclude

/-! ## Booking the records of a run -/

section Replay
variable {o : SessionOutcome}

variable {cfg : LedgerConfig} {s s' : ShadowLedgerState} {d : Date} {record : SeamRecord} {equityBefore : ℚ}

lemma bind_eq_ok {α β : Type} {x : Booking α} {f : α → Booking β} {b : β} :
    (x >>= f) s = .ok b s' ↔ ∃ a t, x s = .ok a t ∧ f a t = .ok b s' := by
  cases ran : x s with
  | ok a t =>
    rw [bind_of_ok ran]
    constructor
    · exact fun rest => ⟨a, t, rfl, rest⟩
    · rintro ⟨_, _, eq, rest⟩
      cases eq
      exact rest
  | error fault t =>
    rw [bind_of_error ran]
    constructor
    · intro eq
      cases eq
    · rintro ⟨_, _, eq, -⟩
      cases eq

/-- A call neither reads nor writes the ranks of the session before. -/
def Blind {α : Type} (x : Booking α) : Prop :=
  ∀ s r, x { s with prevRank := r } = match x s with
    | .ok a s' => .ok a { s' with prevRank := r }
    | .error fault s' => .error fault { s' with prevRank := r }

lemma Blind.bind {α β : Type} {x : Booking α} {f : α → Booking β} (first : Blind x) (rest : ∀ a, Blind (f a)) :
    Blind (x >>= f) := by
  intro s r
  have blind := first s r
  cases ran : x s with
  | ok a t =>
    rw [ran] at blind
    rw [bind_of_ok blind, bind_of_ok ran]
    exact rest a t r
  | error fault t =>
    rw [ran] at blind
    rw [bind_of_error blind, bind_of_error ran]

lemma blind_markName {price : PriceFn} {ticker : String} : Blind (markName price d ticker) := by
  intro s r
  simp only [markName]
  cases price ticker d with
  | error fault => rfl
  | ok quote =>
    cases quote with
    | none => rfl
    | some p =>
      simp only
      split
      next =>
        cases s.sleeves.get ticker <;> rfl
      next => rfl

lemma blind_forM {price : PriceFn} {names : List String} : Blind (names.forM (markName price d)) := by
  induction names with
  | nil => exact fun _ _ => rfl
  | cons ticker names ih => exact blind_markName.bind fun _ => ih

lemma blind_markToMarket {price : PriceFn} : Blind (markToMarket price d) := by
  intro s r
  by_cases idle : s.held = []
  · rw [markToMarket_of_nil idle]
    exact markToMarket_of_nil idle
  · rw [markToMarket_of_held idle]
    have blind : Blind (s.held.forM (markName price d) >>= fun _ => modify refresh) := blind_forM.bind fun _ _ _ => rfl
    exact (@markToMarket_of_held { s with prevRank := r } d price idle).trans (blind s r)

lemma blind_applyRebalance {bps : ℚ} {price : PriceFn} {neww : Dict String ℚ} {g : ℚ} :
    Blind (applyRebalance bps price d neww g) := by
  intro s r
  have lifted : Blind (MonadExcept.ofExcept (pricesOf price d .empty (keys neww)) : Booking _) := by
    intro s r
    cases pricesOf price d .empty (keys neww) <;> rfl
  exact lifted.bind (fun _ _ _ => rfl) { s with
    equity := s.equity * (1 - bps / 10 ^ 4 * turnoverOf s neww)
    sleeves := neww.mapMaybe fun _ w => some (w * (s.equity * (1 - bps / 10 ^ 4 * turnoverOf s neww)))
    cash := cashWeight neww * (s.equity * (1 - bps / 10 ^ 4 * turnoverOf s neww)) } r

lemma blind_conclude {price : PriceFn} : Blind (conclude cfg price d record equityBefore) := by
  rw [conclude]
  split
  · exact blind_applyRebalance.bind fun _ _ _ => rfl
  · exact fun _ _ => rfl

lemma record_of_conclude {price : PriceFn}
    (ok : conclude cfg price d record equityBefore s = .ok o s') : o.record = record := by
  rw [conclude] at ok
  split at ok
  · obtain ⟨_, t, -, rest⟩ := bind_eq_ok.1 ok
    cases rest
    rfl
  · cases ok
    rfl

lemma exists_marked {op : Session} (ok : op.perform cfg s = .ok o s') :
    ∃ marked, markToMarket (quoting op.price) op.date s = .ok () marked := by
  cases op with
  | book record d price =>
    obtain ⟨_, _, here, rest⟩ := bind_eq_ok.1 ok
    cases here
    obtain ⟨_, marked, marks, -⟩ := bind_eq_ok.1 rest
    exact ⟨marked, marks⟩
  | step ds g select weigh d price =>
    obtain ⟨_, _, here, rest⟩ := bind_eq_ok.1 ok
    cases here
    obtain ⟨_, marked, marks, -⟩ := bind_eq_ok.1 rest
    exact ⟨marked, marks⟩

lemma record_of_book {price : String → Date → Option ℚ}
    (ok : (Session.book record d price).perform cfg s = .ok o s') : o.record = record := by
  obtain ⟨marked, marks⟩ := exists_marked ok
  exact record_of_conclude ((@bookDecision_of_marked cfg s d record marked (quoting price) marks).symm.trans ok)

lemma perform_book {op : Session} (ok : op.perform cfg s = .ok o s') (r : Option (Dict String ℤ)) :
    (Session.book o.record op.date op.price).perform cfg { s with prevRank := r } =
      .ok o { s' with prevRank := r } := by
  obtain ⟨marked, marks⟩ := exists_marked ok
  obtain ⟨record, r', rest⟩ := @perform_of_marked cfg s op marked marks
  have done := rest.symm.trans ok
  have blind := @blind_markToMarket op.date (quoting op.price) s r
  rw [marks] at blind
  rw [record_of_conclude done]
  show bookDecision cfg op.date record (quoting op.price) _ = _
  rw [bookDecision_of_marked blind]
  have conclusion := @blind_conclude cfg op.date record s.equity (quoting op.price) { marked with prevRank := r' } r
  rw [done] at conclusion
  exact conclusion

end Replay

/-! ## Runs -/

/-- The ledger under sessions: one that raises is not taken. -/
def machine (cfg : LedgerConfig) : Machine ShadowLedgerState Session where
  step s op := match op.perform cfg s with
    | .ok _ s' => some s'
    | .error _ _ => none

/-- The prices of a session are positive, and so is what it rebalances to. -/
def Regular (cfg : LedgerConfig) (s : ShadowLedgerState) (op : Session) : Prop :=
  (∀ k p, op.quote k = some p → 0 < p) ∧
    ∀ o s', op.perform cfg s = .ok o s' → o.traded = true → ValidWeights o.record.weights

/-- A session without a price of a name and without a rebalance. -/
def Quiet (cfg : LedgerConfig) (ticker : String) (s : ShadowLedgerState) (op : Session) : Prop :=
  Regular cfg s op ∧ op.quote ticker = none ∧ ∀ o s', op.perform cfg s = .ok o s' → o.traded = false

/-- The records of a run, each to be booked at its session. -/
def booked (cfg : LedgerConfig) : ShadowLedgerState → List Session → List Session
  | _, [] => []
  | s, op :: ops =>
    match op.perform cfg s with
    | .ok o s' => .book o.record op.date op.price :: booked cfg s' ops
    | .error _ _ => []

/-- The accounting of a ledger over its runs. -/
structure LedgerAccounting (cfg : LedgerConfig) (init : ShadowLedgerState) : Prop where
  runs : ∀ ops, (machine cfg).Meets (Regular cfg) init ops → ∃ s, (machine cfg).run init ops = some s ∧ Accounted s ∧
    ∀ op, Regular cfg s op → ∃ o s', op.perform cfg s = .ok o s' ∧ Performed cfg op s s' o
  replay : ∀ ops s, (machine cfg).run init ops = some s →
    (machine cfg).run init (booked cfg init ops) = some { s with prevRank := init.prevRank }
  fullMove : ∀ ops s, (machine cfg).Meets (Regular cfg) init ops → (machine cfg).run init ops = some s →
    ∀ ticker ∈ s.held, ∀ last, s.lastPx.get ticker = some last →
    ∀ quiet s', (machine cfg).Meets (Quiet cfg ticker) s quiet → (machine cfg).run s quiet = some s' →
    ∀ d price p, (∀ k q, price k d = some q → 0 < q) → price ticker d = some p →
      ∃ marked, markToMarket (quoting price) d s' = .ok () marked ∧
        marked.sleeves.get ticker = (s.sleeves.get ticker).map (· * if 0 < last then p / last else 1)

section Runs

variable {cfg : LedgerConfig} {s s' : ShadowLedgerState}

lemma machine_step {op : Session} : (machine cfg).step s op = some s' ↔ ∃ o, op.perform cfg s = .ok o s' := by
  simp only [machine]
  cases op.perform cfg s with
  | ok o t => simp
  | error fault t => simp

lemma perform_regular {op : Session} (acc : Accounted s)
    (bounds : 0 ≤ cfg.turnoverCostBps ∧ cfg.turnoverCostBps < 10000) (regular : Regular cfg s op) :
    ∃ o s', op.perform cfg s = .ok o s' ∧ Performed cfg op s s' o := by
  obtain ⟨o, s', ok, spec⟩ := perform_spec acc bounds regular.1
  exact ⟨o, s', ok, spec (regular.2 o s' ok)⟩

lemma accounted_step {op : Session} (acc : Accounted s)
    (bounds : 0 ≤ cfg.turnoverCostBps ∧ cfg.turnoverCostBps < 10000) (regular : Regular cfg s op)
    (taken : (machine cfg).step s op = some s') : Accounted s' := by
  obtain ⟨o, s₁, ok, done⟩ := perform_regular acc bounds regular
  obtain ⟨o', ok'⟩ := machine_step.1 taken
  rw [ok] at ok'
  cases ok'
  exact done.accounted

lemma exists_run {ops : List Session} (acc : Accounted s)
    (bounds : 0 ≤ cfg.turnoverCostBps ∧ cfg.turnoverCostBps < 10000)
    (regular : (machine cfg).Meets (Regular cfg) s ops) : ∃ s', (machine cfg).run s ops = some s' := by
  induction ops generalizing s with
  | nil => exact ⟨s, rfl⟩
  | cons op ops ih =>
    rw [meets_cons] at regular
    obtain ⟨o, s₁, ok, done⟩ := perform_regular acc bounds regular.1
    have taken := machine_step.2 ⟨o, ok⟩
    obtain ⟨s', run⟩ := ih done.accounted (regular.2 s₁ taken)
    exact ⟨s', run_cons.2 ⟨s₁, taken, run⟩⟩

lemma run_booked {ops : List Session} (run : (machine cfg).run s ops = some s') (r : Option (Dict String ℤ)) :
    (machine cfg).run { s with prevRank := r } (booked cfg s ops) = some { s' with prevRank := r } := by
  induction ops generalizing s with
  | nil =>
    cases run
    rfl
  | cons op ops ih =>
    obtain ⟨s₁, taken, run⟩ := run_cons.1 run
    obtain ⟨o, ok⟩ := machine_step.1 taken
    rw [booked, ok]
    exact run_cons.2 ⟨_, machine_step.2 ⟨o, perform_book ok r⟩, ih run⟩

lemma quiet_run {ticker : String} {quiet : List Session} (acc : Accounted s)
    (bounds : 0 ≤ cfg.turnoverCostBps ∧ cfg.turnoverCostBps < 10000)
    (still : (machine cfg).Meets (Quiet cfg ticker) s quiet) (run : (machine cfg).run s quiet = some s')
    (held : ticker ∈ s.held) :
    Accounted s' ∧ ticker ∈ s'.held ∧ s'.sleeves.get ticker = s.sleeves.get ticker ∧
      s'.lastPx.get ticker = s.lastPx.get ticker := by
  induction quiet generalizing s with
  | nil =>
    cases run
    exact ⟨acc, held, rfl, rfl⟩
  | cons op quiet ih =>
    obtain ⟨s₁, taken, run⟩ := run_cons.1 run
    rw [meets_cons] at still
    obtain ⟨⟨regular, unpriced, untraded⟩, still⟩ := still
    obtain ⟨o, s₂, ok, done⟩ := perform_regular acc bounds regular
    obtain rfl : s₁ = s₂ := Option.some.inj (taken.symm.trans (machine_step.2 ⟨o, ok⟩))
    have idle := untraded o s₁ ok
    obtain ⟨members, sleeves⟩ := done.untraded idle
    have held₁ : ticker ∈ s₁.held := members ▸ held
    obtain ⟨acc', held', sleeve, mark⟩ := ih done.accounted (still s₁ taken) run held₁
    refine ⟨acc', held', ?_, ?_⟩
    · rw [sleeve, sleeves, unpriced, move]
      simp
    · rw [mark, done.marks ticker held₁, unpriced, idle]
      rfl

lemma accounted_start {capital bps drift : ℚ} {backstop : ℤ} {ledger : ShadowLedger}
    (started : start capital bps backstop drift = .ok ledger) : Accounted ledger.state := by
  rw [start] at started
  split at started
  next => cases started
  next positive =>
    split at started
    next => cases started
    next =>
      cases started
      have none {k : String} : k ∈ keys Dict.empty ↔ k ∈ ([] : List String) := Iff.rfl
      refine ⟨⟨nodup_nil, fun _ => none, fun _ => none, fun _ => none, ?_, (not_le.1 positive).le, ?_⟩, ?_⟩
      · intro k v found
        cases found
      · show (0 : ℚ) < 0 + capital
        rw [zero_add]
        exact not_le.1 positive
      · show capital = 0 + capital
        rw [zero_add]

end Runs

/-- The accounting of every ledger that is opened with a cost below the whole turnover. -/
theorem ledgerAccounting {capital bps drift : ℚ} {backstop : ℤ} {ledger : ShadowLedger}
    (started : start capital bps backstop drift = .ok ledger) (bounds : 0 ≤ bps ∧ bps < 10000) :
    LedgerAccounting ledger.toLedgerConfig ledger.state := by
  have acc := accounted_start started
  have bounds : 0 ≤ ledger.turnoverCostBps ∧ ledger.turnoverCostBps < 10000 := by
    rw [start] at started
    split_ifs at started
    cases started
    exact bounds
  have balanced {ops s} (regular : (machine ledger.toLedgerConfig).Meets (Regular _) ledger.state ops)
      (run : (machine ledger.toLedgerConfig).run ledger.state ops = some s) : Accounted s :=
    run_invariant (fun acc regular taken => accounted_step acc bounds regular taken) acc regular run
  refine ⟨?_, fun ops s run => run_booked run _, ?_⟩
  · intro ops regular
    obtain ⟨s, run⟩ := exists_run acc bounds regular
    exact ⟨s, run, balanced regular run, fun op => perform_regular (balanced regular run) bounds⟩
  · intro ops s regular run ticker held last mark quiet s' still run' d price p priced quote
    obtain ⟨acc', held', sleeve, mark'⟩ := quiet_run (balanced regular run) bounds still run' held
    obtain ⟨marked, ok, -, -, sleeves, -⟩ := @markToMarket_spec s' price d acc' priced
    refine ⟨marked, ok, ?_⟩
    rw [sleeves, sleeve, quote, weightOf, mark', mark, Option.getD_some, move]
    simp only [add_sub_cancel]

def registered : ShadowLedger where
  turnoverCostBps := 10
  backstopDays := 21
  weightDriftPct := 1 / 50
  state := {
    equity := 100000
    cash := 100000
    sleeves := .empty
    targetW := .empty
    lastPx := .empty
    held := []
    since := 0
    prevRank := none
    appliedGross := 1 }

lemma start_registered : start forwardStartingCapital registeredTurnoverCostBps 21 (1 / 50) = .ok registered := by
  rw [start, if_neg (by decide +kernel), if_neg (by decide +kernel)]
  rfl

/-- The registered ledger keeps its accounts. -/
theorem ledgerAccounting_registered : LedgerAccounting registered.toLedgerConfig registered.state :=
  ledgerAccounting start_registered (by decide +kernel)

/-! ## A rebalance without a price -/

def FullMove (cfg : LedgerConfig) (init : ShadowLedgerState) : Prop :=
  ∀ ops s, (machine cfg).Meets (Regular cfg) init ops → (machine cfg).run init ops = some s →
    ∀ op o s₁, Regular cfg s op → op.perform cfg s = .ok o s₁ →
    ∀ ticker ∈ s₁.held, ∀ last, op.quote ticker = some last →
    ∀ gap s₂, (machine cfg).Meets (fun t op => Regular cfg t op ∧ op.quote ticker = none ∧
      ∀ o t', op.perform cfg t = .ok o t' → ticker ∈ t'.held) s₁ gap → (machine cfg).run s₁ gap = some s₂ →
    ∀ d price p, (∀ k q, price k d = some q → 0 < q) → price ticker d = some p →
      ∃ marked, markToMarket (quoting price) d s₂ = .ok () marked ∧
        marked.sleeves.get ticker = (s₂.sleeves.get ticker).map (· * (p / last))

def half (d : Date) (g : ℚ) : SeamRecord where
  date := d.isoformat
  scores := .empty
  eligible := ["AAA"]
  ranking := ["AAA"]
  targetNames := ["AAA"]
  weights := Dict.empty.set "AAA" (1 / 2)
  regimeGross := g
  tradeInitiated := true

def monday : Date := ⟨2026, 1, 5, by decide⟩
def tuesday : Date := ⟨2026, 1, 6, by decide⟩
def wednesday : Date := ⟨2026, 1, 7, by decide⟩

def atHundred : ShadowLedgerState where
  equity := 99950
  cash := 49975
  sleeves := Dict.empty.set "AAA" 49975
  targetW := Dict.empty.set "AAA" (1 / 2)
  lastPx := Dict.empty.set "AAA" 100
  held := ["AAA"]
  since := 0
  prevRank := none
  appliedGross := 1
  sessionsProcessed := 1

def unpriced : ShadowLedgerState :=
  { atHundred with lastPx := Dict.empty.set "AAA" 0, sessionsProcessed := 2 }

/-- A name that a rebalance keeps at a session without its price loses its mark: a rise from 100 to 110 is not booked.
-/
theorem unpriced_rebalance_drops_mark : ¬ FullMove registered.toLedgerConfig registered.state := by
  intro fullMove
  have half_valid {d : Date} : ValidWeights (half d 1).weights := by
    constructor
    · intro k v found
      rw [half, get_set] at found
      split at found
      next =>
        cases found
        norm_num
      next => cases found
    · show (Dict.empty.set "AAA" (1 / 2 : ℚ)).values.sum ≤ 1
      decide +kernel
  have regular {d : Date} {price : String → Date → Option ℚ} (priced : ∀ k p, price k d = some p → 0 < p)
      (s : ShadowLedgerState) : Regular registered.toLedgerConfig s (.book (half d 1) d price) := by
    refine ⟨priced, ?_⟩
    intro o s' ok _
    rw [record_of_book ok]
    exact half_valid
  -- the book is opened at 100, and kept at a session without a price
  have opened : (machine registered.toLedgerConfig).step registered.state
      (.book (half monday 1) monday fun _ _ => some 100) = some atHundred := by decide +kernel
  have kept : (machine registered.toLedgerConfig).step atHundred
      (.book (half tuesday 1) tuesday fun _ _ => none) = some unpriced := by decide +kernel
  obtain ⟨o, ok⟩ := machine_step.1 opened
  obtain ⟨marked, marks, moved⟩ := fullMove [] registered.state trivial rfl _ o atHundred
    (regular (by simp) _) ok "AAA" (by decide) 100 rfl [.book (half tuesday 1) tuesday fun _ _ => none] unpriced
    (meets_cons.2 ⟨⟨regular (by simp) _, rfl, by
      intro o' t' ok'
      obtain rfl : unpriced = t' := Option.some.inj (kept.symm.trans (machine_step.2 ⟨o', ok'⟩))
      decide⟩, fun _ _ => trivial⟩)
    (run_cons.2 ⟨_, kept, rfl⟩) wednesday (fun _ _ => some 110) 110 (by simp) rfl
  have sleeve : (match markToMarket (quoting fun _ _ => some 110) wednesday unpriced with
      | .ok _ t => t.sleeves.get "AAA"
      | .error _ _ => none) = some 49975 := by decide +kernel
  rw [marks] at sleeve
  have lost : (some 49975 : Option ℚ) = (unpriced.sleeves.get "AAA").map (· * (110 / 100)) := sleeve.symm.trans moved
  revert lost
  decide +kernel

end Workbench.Validation.ShadowLedger
