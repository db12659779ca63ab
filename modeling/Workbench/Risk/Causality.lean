import Workbench.Risk.AccountSnapshot
import Mathlib.Data.String.Basic

/-!
# The causality test and time

The broker cursor is the largest of texts `YYYY-MM-DDTHH:MM:SS[.ffffff]Z`, the observed cursor the largest of texts
`YYYY-MM-DD HH:MM:SS[.ffffff]`. Texts of the two kinds are compared by their dates, and on one date the broker's is
the larger at its `T` (`zulu_lt_renderInstant_iff`): a read that is behind by less than a date is never stale
(`stale_agrees_iff`).
-/

namespace Workbench.Risk
open Workbench.Lib List

/-- The date an instant falls on, as the number of its day. -/
def dayOf (t : Instant) : Nat := t / 86400000000

/-- A UTC instant as `model_dump(mode="json")` writes it: `YYYY-MM-DDTHH:MM:SS[.ffffff]Z`. -/
def zuluInstant (t : Instant) : String :=
  let s := t / 1000000 % 86400
  String.ofList (DateTime.datePart (civil (t / 86400000000)) ++
    'T' :: (DateTime.clockText (s / 3600) (s / 60 % 60) (s % 60) ++
      (if t % 1000000 = 0 then [] else '.' :: DateTime.pad 6 (t % 1000000)) ++ ['Z']))

/-- A broker order that carries the given instants. -/
def stamped (o : BrokerOpenOrder) (times : List Instant) : BrokerOpenOrder :=
  { o with stamps := times.map zuluInstant }

/-- The instants of the local rows that the observed cursor looks at. -/
def localInstants (db : Db) (accountId : Nat) : List Instant :=
  (db.fills.filterMap fun f =>
    (db.orders[f.orderId]?).bind fun o => if o.accountId = accountId then some f.filledAt else none) ++
  db.orders.filterMap fun o =>
    if o.accountId = accountId ∧ o.status.terminal = false then some o.updatedAt else none

/-! ## Texts and days -/

section
variable {s t : Instant}

lemma datePart_lt_iff (hs : s < endOfTime) (ht : t < endOfTime) :
    DateTime.datePart (civil (s / 86400000000)) < DateTime.datePart (civil (t / 86400000000)) ↔ dayOf s < dayOf t := by
  rw [DateTime.datePart_lt_iff (civil_fields hs).2 (civil_fields ht).2, civil_eq, civil_eq,
    DateTime.ofOrdinal_lt_iff, Nat.add_lt_add_iff_right]
  rfl

lemma lt_of_dayOf {x y : String} {xs ys : List Char} (hs : s < endOfTime) (ht : t < endOfTime)
    (hx : x.toList = DateTime.datePart (civil (s / 86400000000)) ++ xs)
    (hy : y.toList = DateTime.datePart (civil (t / 86400000000)) ++ ys) :
    x < y ↔ dayOf s < dayOf t ∨ dayOf s = dayOf t ∧ xs < ys := by
  have width (d : Nat × Nat × Nat) : (DateTime.datePart d).length = 10 := by simp [DateTime.datePart]
  have same : DateTime.datePart (civil (s / 86400000000)) = DateTime.datePart (civil (t / 86400000000)) ↔
      dayOf s = dayOf t := by
    constructor
    · intro eq
      have hst : ¬ dayOf s < dayOf t := by
        rw [← datePart_lt_iff hs ht, eq]
        exact List.lt_irrefl _
      have hts : ¬ dayOf t < dayOf s := by
        rw [← datePart_lt_iff ht hs, eq]
        exact List.lt_irrefl _
      exact le_antisymm (not_lt.1 hts) (not_lt.1 hst)
    · intro eq
      rw [dayOf, dayOf] at eq
      rw [eq]
  rw [String.lt_iff, hx, hy, append_lt_append_iff (by rw [width, width]), datePart_lt_iff hs ht, same]

lemma zulu_lt_renderInstant_iff (hs : s < endOfTime) (ht : t < endOfTime) :
    zuluInstant s < renderInstant t ↔ dayOf s < dayOf t := by
  obtain ⟨rest, text⟩ := renderInstant_date ht
  have zulu : (zuluInstant s).toList = DateTime.datePart (civil (s / 86400000000)) ++ _ := String.toList_ofList
  rw [lt_of_dayOf hs ht zulu text]
  constructor
  · intro h
    apply h.resolve_right
    intro ⟨_, lt⟩
    -- on one date the letter of the broker's stamp is larger than the blank of the local one
    rcases cons_lt_cons_iff.1 lt with letter | ⟨letter, -⟩
    · exact absurd letter (by decide)
    · exact absurd letter (by decide)
  · exact Or.inl

lemma dayOf_le_of_zulu (hs : s < endOfTime) (ht : t < endOfTime) (le : zuluInstant s ≤ zuluInstant t) :
    dayOf s ≤ dayOf t := by
  apply not_lt.1
  intro lt
  exact not_lt.2 le ((lt_of_dayOf ht hs String.toList_ofList String.toList_ofList).2 (Or.inl lt))

lemma dayOf_le_of_render (hs : s < endOfTime) (ht : t < endOfTime) (le : renderInstant s ≤ renderInstant t) :
    dayOf s ≤ dayOf t := by
  obtain ⟨_, hx⟩ := renderInstant_date hs
  obtain ⟨_, hy⟩ := renderInstant_date ht
  apply not_lt.1
  intro lt
  exact not_lt.2 le ((lt_of_dayOf ht hs hy hx).2 (Or.inl lt))

lemma zuluInstant_ne_empty : zuluInstant t ≠ "" := by
  intro eq
  have := congrArg String.toList eq
  simp [zuluInstant, DateTime.datePart] at this

lemma dayOf_mono (le : s ≤ t) : dayOf s ≤ dayOf t := Nat.div_le_div_right le

end

/-! ## The cursors -/

lemma maxString_spec {ss : List String} :
    (maxString ss = none ↔ ss = []) ∧ ∀ m, maxString ss = some m → m ∈ ss ∧ ∀ s ∈ ss, s ≤ m := by
  induction ss using List.reverseRecOn with
  | nil => simp [maxString]
  | append_singleton ss s ih =>
    have step : maxString (ss ++ [s]) =
        (maxString ss).elim (some s) fun b => some (if b < s then s else b) := by
      simp only [maxString, foldl_append, foldl_cons, foldl_nil]
      generalize foldl _ none ss = best
      cases best <;> rfl
    rw [step]
    cases earlier : maxString ss with
    | none =>
      obtain rfl := ih.1.1 earlier
      simp
    | some b =>
      obtain ⟨mem, most⟩ := ih.2 b earlier
      refine ⟨by simp, ?_⟩
      intro m eq
      obtain rfl := Option.some.inj eq
      split
      · rename_i lt
        refine ⟨by simp, ?_⟩
        intro x hx
        rcases mem_append.1 hx with hx | hx
        · exact (most x hx).trans lt.le
        · exact (mem_singleton.1 hx).le
      · rename_i ge
        refine ⟨mem_append_left _ mem, ?_⟩
        intro x hx
        rcases mem_append.1 hx with hx | hx
        · exact most x hx
        · exact (mem_singleton.1 hx).le.trans (not_lt.1 ge)

section
variable {orders : List (BrokerOpenOrder × List Instant)}

lemma eventTime_stamped {o : BrokerOpenOrder} {times : List Instant} :
    (times = [] ∧ eventTime (stamped o times) = "") ∨
      ∃ t ∈ times, eventTime (stamped o times) = zuluInstant t ∧ ∀ s ∈ times, zuluInstant s ≤ zuluInstant t := by
  have all : (stamped o times).stamps.filter (· ≠ "") = times.map zuluInstant := by
    apply filter_eq_self.2
    intro s mem
    obtain ⟨t, -, rfl⟩ := mem_map.1 mem
    exact decide_eq_true zuluInstant_ne_empty
  rw [eventTime, all]
  cases newest : maxString (times.map zuluInstant) with
  | none => exact Or.inl ⟨map_eq_nil_iff.1 (maxString_spec.1.1 newest), rfl⟩
  | some m =>
    obtain ⟨mem, most⟩ := maxString_spec.2 m newest
    obtain ⟨t, ht, rfl⟩ := mem_map.1 mem
    exact Or.inr ⟨t, ht, rfl, fun s hs => most _ (mem_map_of_mem hs)⟩

lemma broker_cursor {t : Instant} (some_stamp : t ∈ orders.flatMap (·.2)) :
    ∃ u ∈ orders.flatMap (·.2), maxString ((orders.map fun p => stamped p.1 p.2).map eventTime) = some (zuluInstant u) ∧
      ∀ s ∈ orders.flatMap (·.2), zuluInstant s ≤ zuluInstant u := by
  obtain ⟨none_iff, spec⟩ := @maxString_spec ((orders.map fun p => stamped p.1 p.2).map eventTime)
  obtain ⟨p, hp, ht⟩ := mem_flatMap.1 some_stamp
  have below : ∀ m, maxString ((orders.map fun p => stamped p.1 p.2).map eventTime) = some m →
      ∀ s ∈ orders.flatMap (·.2), zuluInstant s ≤ m := by
    intro m largest s hs
    obtain ⟨q, hq, hs⟩ := mem_flatMap.1 hs
    rcases @eventTime_stamped q.1 q.2 with ⟨none, -⟩ | ⟨v, -, text, most⟩
    · rw [none] at hs
      cases hs
    · apply (most s hs).trans
      rw [← text]
      exact (spec m largest).2 _ (mem_map_of_mem (mem_map_of_mem hq))
  cases largest : maxString ((orders.map fun p => stamped p.1 p.2).map eventTime) with
  | none =>
    have empty := none_iff.1 largest
    rw [map_map, map_eq_nil_iff] at empty
    rw [empty] at hp
    cases hp
  | some m =>
    obtain ⟨mem, -⟩ := spec m largest
    rw [map_map] at mem
    obtain ⟨q, hq, text⟩ := mem_map.1 mem
    rcases @eventTime_stamped q.1 q.2 with ⟨-, empty⟩ | ⟨u, hu, text', -⟩
    · -- a cursor that is empty is below every stamp
      have low := below m largest t some_stamp
      obtain rfl : m = "" := text.symm.trans empty
      have least : "" ≤ zuluInstant t := not_lt.1 fun lt => not_lt_nil _ (String.lt_iff.1 lt)
      exact absurd (le_antisymm low least) zuluInstant_ne_empty
    · obtain rfl : m = zuluInstant u := text.symm.trans text'
      exact ⟨u, mem_flatMap.2 ⟨q, hq, hu⟩, rfl, below _ largest⟩

lemma dayOf_broker_cursor {b : Instant} (newest : (orders.flatMap (·.2)).max? = some b)
    (range : ∀ t ∈ orders.flatMap (·.2), t < endOfTime) :
    ∃ u ∈ orders.flatMap (·.2),
      maxString ((orders.map fun p => stamped p.1 p.2).map eventTime) = some (zuluInstant u) ∧ dayOf u = dayOf b := by
  obtain ⟨mem, most⟩ := max?_eq_some_iff.1 newest
  obtain ⟨u, hu, cursor, largest⟩ := broker_cursor mem
  refine ⟨u, hu, cursor, le_antisymm (dayOf_mono (most u hu)) ?_⟩
  exact dayOf_le_of_zulu (range b mem) (range u hu) (largest b mem)

end

lemma dayOf_maxString {ts : List Instant} {l : Instant} (mem : l ∈ ts) (most : ∀ t ∈ ts, t ≤ l)
    (range : ∀ t ∈ ts, t < endOfTime) :
    ∃ u ∈ ts, maxString (ts.map renderInstant) = some (renderInstant u) ∧ dayOf u = dayOf l := by
  obtain ⟨none_iff, spec⟩ := @maxString_spec (ts.map renderInstant)
  cases largest : maxString (ts.map renderInstant) with
  | none =>
    rw [map_eq_nil_iff.1 (none_iff.1 largest)] at mem
    cases mem
  | some m =>
    obtain ⟨stamp, above⟩ := spec m largest
    obtain ⟨u, hu, rfl⟩ := mem_map.1 stamp
    refine ⟨u, hu, rfl, le_antisymm (dayOf_mono (most u hu)) ?_⟩
    exact dayOf_le_of_render (range l mem) (range u hu) (above _ (mem_map_of_mem mem))

section
variable {db : Db} {accountId : Nat}

lemma observedCursor_eq : ∃ ts : List Instant, observedCursor db accountId = maxString (ts.map renderInstant) ∧
    (∀ t ∈ ts, t ∈ localInstants db accountId) ∧ ∀ l, (localInstants db accountId).max? = some l → l ∈ ts := by
  rw [localInstants, observedCursor]
  generalize (db.fills.filterMap fun f => (db.orders[f.orderId]?).bind fun o =>
    if o.accountId = accountId then some f.filledAt else none) = fills
  generalize (db.orders.filterMap fun o =>
    if o.accountId = accountId ∧ o.status.terminal = false then some o.updatedAt else none) = orders
  refine ⟨[fills.max?, orders.max?].filterMap id, ?_, ?_, ?_⟩
  · rw [map_filterMap]
    rfl
  · intro t mem
    obtain ⟨m, hm, eq⟩ := mem_filterMap.1 mem
    obtain rfl : m = some t := eq
    rcases mem_cons.1 hm with hm | hm
    · exact mem_append_left _ (max?_eq_some_iff.1 hm.symm).1
    · exact mem_append_right _ (max?_eq_some_iff.1 (mem_singleton.1 hm).symm).1
  · intro l newest
    obtain ⟨mem, most⟩ := max?_eq_some_iff.1 newest
    apply mem_filterMap.2
    rcases mem_append.1 mem with mem | mem
    · refine ⟨some l, ?_, rfl⟩
      have first := max?_eq_some_iff.2 ⟨mem, fun t ht => most t (mem_append_left _ ht)⟩
      rw [first]
      exact mem_cons_self
    · refine ⟨some l, ?_, rfl⟩
      have second := max?_eq_some_iff.2 ⟨mem, fun t ht => most t (mem_append_right _ ht)⟩
      rw [second]
      exact mem_cons_of_mem _ (mem_singleton_self _)

lemma dayOf_observedCursor {l : Instant} (newest : (localInstants db accountId).max? = some l)
    (range : ∀ t ∈ localInstants db accountId, t < endOfTime) :
    ∃ u, u < endOfTime ∧ observedCursor db accountId = some (renderInstant u) ∧ dayOf u = dayOf l := by
  obtain ⟨ts, cursor, local', keeps⟩ := @observedCursor_eq db accountId
  have most := (max?_eq_some_iff.1 newest).2
  obtain ⟨u, hu, largest, day⟩ := dayOf_maxString (keeps l newest) (fun t ht => most t (local' t ht))
    (fun t ht => range t (local' t ht))
  exact ⟨u, range u (local' u hu), cursor.trans largest, day⟩

lemma observedCursor_eq_none (empty : (localInstants db accountId).max? = none) :
    observedCursor db accountId = none := by
  obtain ⟨ts, cursor, local', -⟩ := @observedCursor_eq db accountId
  have nothing : ts = [] := by
    apply eq_nil_iff_forall_not_mem.2
    intro t mem
    have := local' t mem
    rw [max?_eq_none_iff.1 empty] at this
    cases this
  rw [cursor, nothing]
  rfl

end

/-! ## The test -/

/-- Instants that a `datetime` can hold: the broker's and the local ones. -/
structure InRange (db : Db) (accountId : Nat) (orders : List (BrokerOpenOrder × List Instant)) : Prop where
  broker : ∀ t ∈ orders.flatMap (·.2), t < endOfTime
  locals : ∀ t ∈ localInstants db accountId, t < endOfTime

lemma isCausallyComplete_stale {snap : AccountSnapshot} {cursor : String} {candidate : Option String}
    (complete : snap.complete = true) (broker : snap.brokerCursor = some cursor) :
    snap.isCausallyComplete candidate = some .snapshotStale ↔ ∃ o, snap.observedCursor = some o ∧ cursor < o := by
  simp only [AccountSnapshot.isCausallyComplete, complete, broker, Bool.not_true, Bool.false_eq_true, if_false]
  cases snap.observedCursor with
  | none =>
    simp only [reduceCtorEq, false_and, exists_false, iff_false]
    split <;> simp
  | some o =>
    dsimp only
    by_cases lt : cursor < o
    · rw [if_pos lt]
      exact ⟨fun _ => ⟨o, rfl, lt⟩, fun _ => rfl⟩
    · rw [if_neg lt]
      constructor
      · intro stale
        dsimp only at stale
        split at stale <;> cases stale
      · rintro ⟨_, eq, below⟩
        exact absurd (Option.some.inj eq ▸ below) lt

lemma fetchSnapshot_stale_iff {db : Db} {accountId : Nat} {read : BrokerRead} {reserved : Dict String ℚ}
    {orders : List (BrokerOpenOrder × List Instant)} {candidate : Option String} {b : Instant}
    (rows : read.orders = orders.map fun p => stamped p.1 p.2) (range : InRange db accountId orders)
    (newest : (orders.flatMap (·.2)).max? = some b) :
    (fetchSnapshot db accountId (some read) reserved).isCausallyComplete candidate = some .snapshotStale ↔
      ∃ l, (localInstants db accountId).max? = some l ∧ dayOf b < dayOf l := by
  obtain ⟨u, hu, cursor, day⟩ := dayOf_broker_cursor newest range.broker
  have broker : (fetchSnapshot db accountId (some read) reserved).brokerCursor = some (zuluInstant u) := by
    simp only [fetchSnapshot, rows, cursor, Option.getD_some, if_neg zuluInstant_ne_empty]
  rw [isCausallyComplete_stale rfl broker]
  change (∃ o, observedCursor db accountId = some o ∧ zuluInstant u < o) ↔ _
  cases local' : (localInstants db accountId).max? with
  | none => simp [observedCursor_eq_none local']
  | some l =>
    obtain ⟨v, v_lt, observed, day'⟩ := dayOf_observedCursor local' range.locals
    simp only [observed, Option.some.injEq, exists_eq_left', zulu_lt_renderInstant_iff (range.broker u hu) v_lt, day,
      day']

/-- The test agrees with time exactly when a newest local event that is later than the newest broker event is on a
later date. -/
theorem stale_agrees_iff (db : Db) (accountId : Nat) (read : BrokerRead) (reserved : Dict String ℚ)
    (orders : List (BrokerOpenOrder × List Instant)) (candidate : Option String) (b : Instant)
    (rows : read.orders = orders.map fun p => stamped p.1 p.2) (range : InRange db accountId orders)
    (newest : (orders.flatMap (·.2)).max? = some b) :
    ((fetchSnapshot db accountId (some read) reserved).isCausallyComplete candidate = some .snapshotStale ↔
      ∃ l, (localInstants db accountId).max? = some l ∧ b < l) ↔
    ∀ l, (localInstants db accountId).max? = some l → b < l → dayOf b < dayOf l := by
  rw [fetchSnapshot_stale_iff rows range newest]
  constructor
  · intro agrees l local' lt
    obtain ⟨l', local'', day⟩ := agrees.2 ⟨l, local', lt⟩
    obtain rfl := Option.some.inj (local'.symm.trans local'')
    exact day
  · intro dates
    constructor
    · intro ⟨l, local', day⟩
      refine ⟨l, local', ?_⟩
      apply not_le.1
      intro le
      exact not_lt.2 (dayOf_mono le) day
    · intro ⟨l, local', lt⟩
      exact ⟨l, local', dates l local' lt⟩

def elevenLocal : Db where
  orders := [{ userId := 1, accountId := 1, symbolId := 0, side := .sell, qty := 1, status := .submitted,
               createdAt := 20648 * 86400000000, updatedAt := 20648 * 86400000000 + 39600000000 }]

def tenBroker : BrokerOpenOrder := ⟨"b", "AAPL", .sell, 1, 0, []⟩

def ten : Instant := 20648 * 86400000000 + 36000000000

/-- The theorem, at a read that is an hour behind. -/
theorem stale_agrees_iff_hour :
    ((fetchSnapshot elevenLocal 1 (some { orders := [stamped tenBroker [ten]] }) .empty).isCausallyComplete none =
        some .snapshotStale ↔
      ∃ l, (localInstants elevenLocal 1).max? = some l ∧ ten < l) ↔
    ∀ l, (localInstants elevenLocal 1).max? = some l → ten < l → dayOf ten < dayOf l :=
  stale_agrees_iff elevenLocal 1 { orders := [stamped tenBroker [ten]] } .empty [(tenBroker, [ten])] none ten rfl
    ⟨by decide +kernel, by decide +kernel⟩ (by decide +kernel)

/-- A read that is an hour behind on one date is not stale. -/
theorem not_stale_agrees :
    ¬ ∀ (db : Db) (accountId : Nat) (read : BrokerRead) (orders : List (BrokerOpenOrder × List Instant)) (b : Instant),
      read.orders = orders.map (fun p => stamped p.1 p.2) → InRange db accountId orders →
      (orders.flatMap (·.2)).max? = some b →
      ((fetchSnapshot db accountId (some read)).isCausallyComplete none = some .snapshotStale ↔
        ∃ l, (localInstants db accountId).max? = some l ∧ b < l) := by
  intro all
  have agrees := all elevenLocal 1 { orders := [stamped tenBroker [ten]] } [(tenBroker, [ten])] ten rfl
    ⟨by decide +kernel, by decide +kernel⟩ (by decide +kernel)
  have later : ∃ l, (localInstants elevenLocal 1).max? = some l ∧ ten < l :=
    ⟨20648 * 86400000000 + 39600000000, by decide +kernel, by decide +kernel⟩
  exact absurd (agrees.2 later) (by decide +kernel)

end Workbench.Risk
