import Workbench.Demand.Cache

/-!
# What retention deletes

A `prune` deletes the rows of both profiles, and protects the symbols that its own tick was asked for. The newest
row of a leased symbol is kept as long as what it has read is still so, and each leased symbol has a newest row that
is not old, or is protected and is the newest by date as well (`retention_keeps_newest`). The newest timestamp
never goes back, where that holds of every symbol and a row is updated as it was read.
-/

namespace Workbench.Demand
open Workbench.Lib List Dict Machine
variable {cache : Cache} {deps : RefreshDeps}

/-- Every row has one of the same symbol and profile after it that is at least as new. -/
def Advances (cache cache' : Cache) : Prop :=
  ∀ (i : Nat) (r : CacheRow), cache.get i = some r →
    ∃ (j : Nat) (r' : CacheRow), cache'.get j = some r' ∧ r'.key = r.key ∧ r.sourceTimestamp ≤ r'.sourceTimestamp

/-- A row that `prune` does not delete: it is not old, or it is the newest by date of a protected symbol. -/
def Kept (cache : Cache) (before : Int) (protect : Finset String) (r : CacheRow) : Prop :=
  before ≤ r.tradingDate ∨
    r.symbol ∈ protect ∧ ∀ r' ∈ cache.values, r'.key = r.key → r'.tradingDate ≤ r.tradingDate

/-- What `prune` has read is still so, and of the rows that matter a newest is kept. -/
def Refresh.Keeps (cache : Cache) (p : CacheRow → Bool) : Refresh → Prop
  | .deleting before protect ids =>
    ids = victims (oldRows cache before) (newestDates protect cache.values) ∧
      ∀ r ∈ cache.values, p r → ∃ r' ∈ cache.values, r'.key = r.key ∧ r.sourceTimestamp ≤ r'.sourceTimestamp ∧
        Kept cache before protect r'
  | _ => True

/-- The row that is to be updated is as it was read. -/
def Pending.Unchanged (cache : Cache) : Pending → Prop
  | .update id was _ => cache.get id = some was
  | _ => True

/-- The row that a tick is to update is as it was read. -/
def Refresh.Unchanged (view : Option Cache) : Refresh → Prop
  | .writing _ _ _ _ pending => ∀ cache ∈ view, pending.Unchanged cache
  | _ => True

/-- The condition on the deletions: a newest row of each leased symbol is kept. -/
def KeepsLeased (s : RefreshState) : RefreshLabel → Prop
  | .delete t => (s.ticks t).Keeps s.rows s.leased
  | _ => True

/-- The condition on the updates: a row is updated as it was read. -/
def KeepsUpdates (s : RefreshState) : RefreshLabel → Prop
  | .look t | .store t => (s.ticks t).Unchanged (s.acquire t)
  | _ => True

/-- The condition on all writes: a newest row of each symbol is kept, and a row is updated as it was read. -/
def KeepsAll (s : RefreshState) : RefreshLabel → Prop
  | .delete t => (s.ticks t).Keeps s.rows fun _ => true
  | .look t | .store t => (s.ticks t).Unchanged (s.acquire t)
  | _ => True

instance (cache : Cache) (before : Int) (protect : Finset String) (r : CacheRow) : Decidable
    (Kept cache before protect r) :=
  inferInstanceAs (Decidable (_ ∨ _))

instance (cache : Cache) (p : CacheRow → Bool) : ∀ x : Refresh, Decidable (x.Keeps cache p)
  | .deleting _ _ _ => inferInstanceAs (Decidable (_ ∧ _))
  | .idle | .started _ _ | .demanded _ _ _ | .writing _ _ _ _ _ | .written _ _ _ | .pruning _ _ _ => isTrue trivial

instance (cache : Cache) : ∀ pending : Pending, Decidable (pending.Unchanged cache)
  | .update id was _ => inferInstanceAs (Decidable (cache.get id = some was))
  | .nothing | .insert _ => isTrue trivial

instance (view : Option Cache) : ∀ x : Refresh, Decidable (x.Unchanged view)
  | .writing _ _ _ _ pending => inferInstanceAs (Decidable (∀ cache ∈ view, pending.Unchanged cache))
  | .idle | .started _ _ | .demanded _ _ _ | .deleting _ _ _ | .written _ _ _ | .pruning _ _ _ => isTrue trivial

instance (s : RefreshState) : ∀ l, Decidable (KeepsLeased s l)
  | .delete t => inferInstanceAs (Decidable ((s.ticks t).Keeps s.rows s.leased))
  | .setClock _ | .setLeases _ | .start _ _ | .demand _ _ | .fetch _ _ | .look _ | .store _ | .readOld _ | .readAll _
  | .abort _ => isTrue trivial

instance (s : RefreshState) : ∀ l, Decidable (KeepsUpdates s l)
  | .look t | .store t => inferInstanceAs (Decidable ((s.ticks t).Unchanged (s.acquire t)))
  | .setClock _ | .setLeases _ | .start _ _ | .demand _ _ | .fetch _ _ | .readOld _ | .readAll _ | .delete _
  | .abort _ => isTrue trivial

instance (s : RefreshState) : ∀ l, Decidable (KeepsAll s l)
  | .delete t => inferInstanceAs (Decidable ((s.ticks t).Keeps s.rows fun _ => true))
  | .look t | .store t => inferInstanceAs (Decidable ((s.ticks t).Unchanged (s.acquire t)))
  | .setClock _ | .setLeases _ | .start _ _ | .demand _ _ | .fetch _ _ | .readOld _ | .readAll _ | .abort _ =>
    isTrue trivial

/-! ## Rows -/

lemma Advances.refl : Advances cache cache := fun i r get => ⟨i, r, get, rfl, le_rfl⟩

lemma Advances.trans {a b c : Cache} (ab : Advances a b) (bc : Advances b c) : Advances a c := by
  intro i r get
  obtain ⟨j, r', get', key, le⟩ := ab i r get
  obtain ⟨k, r'', get'', key', le'⟩ := bc j r' get'
  exact ⟨k, r'', get'', key'.trans key, le.trans le'⟩

lemma get_nextId : cache.get cache.nextId = none := by
  by_contra found
  have mem : cache.nextId ∈ cache.entries.map Prod.fst :=
    Dict.mem_keys.2 (Option.isSome_iff_ne_none.2 found)
  cases largest : (cache.entries.map Prod.fst).max? with
  | none =>
    rw [max?_eq_none_iff] at largest
    rw [largest] at mem
    cases mem
  | some m =>
    have le := (max?_eq_some_iff.1 largest).2 _ mem
    rw [Cache.nextId, largest] at le
    simp at le

lemma hasNewer_iff {r : CacheRow} : hasNewer cache r = true ↔
    ∃ (j : Nat) (r' : CacheRow), cache.get j = some r' ∧ r'.key = r.key ∧ r.sourceTimestamp ≤ r'.sourceTimestamp := by
  rw [hasNewer, any_eq_true]
  constructor
  · rintro ⟨⟨j, r'⟩, mem, holds⟩
    exact ⟨j, r', get_of_mem_entries mem, of_decide_eq_true holds⟩
  · rintro ⟨j, r', get, holds⟩
    exact ⟨(j, r'), mem_entries_of_get get, decide_eq_true holds⟩

lemma get_deleteRows {ids : List Nat} {i : Nat} :
    (deleteRows cache ids).get i = if i ∈ ids then none else cache.get i := by
  unfold deleteRows
  induction ids generalizing cache with
  | nil => simp
  | cons id ids ih =>
    rw [foldl_cons, ih, get_erase]
    by_cases mem : i ∈ ids
    · simp [mem]
    · by_cases mine : i = id
      · simp [mine]
      · simp [mem, mine]

/-! ## The newest dates -/

variable {protect : Finset String} {before : Int} {cache cache' : Cache}

lemma get_addDate {newest : Dict (String × SipProfile) Int} {r : CacheRow} {k : String × SipProfile} {d : Int}
    (get : (addDate protect newest r).get k = some d) : newest.get k = some d ∨ (k = r.key ∧ d = r.tradingDate) := by
  unfold addDate at get
  split at get
  · rw [get_set] at get
    split at get
    · rename_i mine
      exact Or.inr ⟨mine, (Option.some.inj get).symm⟩
    · exact Or.inl get
  · exact Or.inl get

lemma addDate_ge {newest : Dict (String × SipProfile) Int} {r : CacheRow} {k : String × SipProfile} {d : Int}
    (get : newest.get k = some d) : ∃ d' ≥ d, (addDate protect newest r).get k = some d' := by
  unfold addDate
  split
  · rename_i newer
    by_cases mine : k = r.key
    · subst mine
      rw [get] at newer
      have lt : d < r.tradingDate := by simpa using newer.2
      exact ⟨r.tradingDate, lt.le, get_set_self⟩
    · exact ⟨d, le_rfl, by rw [get_set_of_ne mine, get]⟩
  · exact ⟨d, le_rfl, get⟩

lemma addDate_self {newest : Dict (String × SipProfile) Int} {r : CacheRow} (mine : r.symbol ∈ protect) :
    ∃ d ≥ r.tradingDate, (addDate protect newest r).get r.key = some d := by
  unfold addDate
  by_cases newer : (newest.get r.key).all (· < r.tradingDate) = true
  · rw [if_pos ⟨mine, newer⟩]
    exact ⟨r.tradingDate, le_rfl, get_set_self⟩
  · rw [if_neg fun h => newer h.2]
    cases get : newest.get r.key with
    | none =>
      rw [get] at newer
      exact absurd rfl newer
    | some d =>
      rw [get] at newer
      exact ⟨d, by simpa using newer, rfl⟩

lemma newestDates_mem {rows : List CacheRow} {k : String × SipProfile} {d : Int}
    (get : (newestDates protect rows).get k = some d) : ∃ r ∈ rows, r.key = k ∧ r.tradingDate = d := by
  induction rows using List.reverseRecOn with
  | nil => cases get
  | append_singleton rows r ih =>
    rw [newestDates, foldl_append] at get
    rcases get_addDate get with old | ⟨rfl, rfl⟩
    · obtain ⟨r', mem, eq⟩ := ih old
      exact ⟨r', mem_append_left _ mem, eq⟩
    · exact ⟨r, by simp, rfl, rfl⟩

lemma newestDates_ge {rows : List CacheRow} {r : CacheRow} (mem : r ∈ rows) (mine : r.symbol ∈ protect) :
    ∃ d ≥ r.tradingDate, (newestDates protect rows).get r.key = some d := by
  induction rows using List.reverseRecOn with
  | nil => cases mem
  | append_singleton rows r' ih =>
    rw [newestDates, foldl_append]
    rcases mem_append.1 mem with old | new
    · obtain ⟨d, ge, get⟩ := ih old
      obtain ⟨d', ge', get'⟩ := @addDate_ge protect _ r' _ _ get
      exact ⟨d', ge.trans ge', get'⟩
    · rw [mem_singleton.1 new] at mine ⊢
      exact addDate_self mine

/-! ## What is deleted -/

lemma notMem_victims {j : Nat} {r : CacheRow} (get : cache.get j = some r) (kept : Kept cache before protect r) :
    j ∉ victims (oldRows cache before) (newestDates protect cache.values) := by
  intro mem
  obtain ⟨⟨i, r'⟩, found, rfl⟩ := mem_map.1 mem
  obtain ⟨old, other⟩ := mem_filter.1 found
  obtain ⟨listed, isOld⟩ := mem_filter.1 old
  have same : r' = r := Option.some.inj ((get_of_mem_entries listed).symm.trans get)
  subst same
  rcases kept with young | ⟨mine, newest⟩
  · have isOld : r'.tradingDate < before := of_decide_eq_true isOld
    omega
  · obtain ⟨d, ge, date⟩ := newestDates_ge (mem_values_of_get get) mine
    obtain ⟨r'', mem'', key, rfl⟩ := newestDates_mem date
    have le := newest r'' mem'' key
    have eq : r''.tradingDate = r'.tradingDate := by omega
    rw [eq] at date
    simp [date] at other

lemma hasNewer_delete {p : CacheRow → Bool} {ids : List Nat}
    (keeps : (Refresh.deleting before protect ids).Keeps cache p)
    {r : CacheRow} (mem : r ∈ cache.values) (matters : p r) : hasNewer (deleteRows cache ids) r = true := by
  obtain ⟨rfl, newest⟩ := keeps
  obtain ⟨r', mem', key, le, kept⟩ := newest r mem matters
  obtain ⟨j, get⟩ := mem_values.1 mem'
  rw [hasNewer_iff]
  refine ⟨j, r', ?_, key, le⟩
  rw [get_deleteRows, if_neg (notMem_victims get kept), get]

/-! ## What is written -/

/-- An update is to a later timestamp than was read. -/
def Pending.Later : Pending → Prop
  | .update _ was record => was.sourceTimestamp < record.sourceTimestamp
  | _ => True

lemma later_upsertOne {record : SipRecord} : (upsertOne cache record).Later := by
  unfold upsertOne
  split
  · trivial
  · split
    · trivial
    · split
      · trivial
      · rename_i gt
        exact not_le.1 gt

lemma advances_flush {pending : Pending} (later : pending.Later) (same : pending.Unchanged cache)
    (ok : pending.flush cache = some cache') : Advances cache cache' ∧ pending.setsBack cache = [] := by
  cases pending with
  | nothing =>
    cases ok
    exact ⟨Advances.refl, rfl⟩
  | insert record =>
    obtain ⟨-, eq⟩ := Option.ite_none_left_eq_some.1 ok
    cases eq
    refine ⟨fun i r get => ⟨i, r, ?_, rfl, le_rfl⟩, rfl⟩
    rw [get_set_of_ne, get]
    rintro rfl
    rw [get_nextId] at get
    cases get
  | update id was record =>
    have same : cache.get id = some was := same
    have later : was.sourceTimestamp < record.sourceTimestamp := later
    rw [Pending.flush, same] at ok
    cases ok
    refine ⟨fun i r get => ?_, ?_⟩
    · by_cases mine : i = id
      · subst mine
        rw [same] at get
        cases get
        exact ⟨i, _, get_set_self, rfl, later.le⟩
      · exact ⟨i, r, by rw [get_set_of_ne mine, get], rfl, le_rfl⟩
    · simp only [Pending.setsBack, same, if_neg (not_le.2 later)]

/-! ## Every run -/

variable {s t : RefreshState}

lemma starved_step {l : RefreshLabel} (none : s.starved = []) (keeps : KeepsLeased s l)
    (st : (refreshes deps).step s l = some t) : t.starved = [] := by
  cases l with
  | delete k =>
    simp only [refreshes] at st
    split at st
    · rename_i before protect ids tick free
      cases st
      have keeps : Refresh.Keeps s.rows s.leased (s.ticks k) := keeps
      rw [tick] at keeps
      show s.starved ++ _ = []
      rw [none, nil_append, filter_eq_nil_iff]
      intro r mem bad
      obtain ⟨leased, lost⟩ := of_decide_eq_true bad
      rw [hasNewer_delete keeps mem leased] at lost
      cases lost
    · cases st
  | setClock _ | setLeases _ | abort _ =>
    cases st
    exact none
  | start _ _ | fetch _ _ | readAll _ =>
    simp only [refreshes] at st
    split at st
    · first
        | (cases st; exact none)
        | (split at st <;> cases st <;> exact none)
    · cases st
  | demand _ _ =>
    simp only [refreshes] at st
    split at st
    · cases st
      exact none
    · cases st
  | readOld _ =>
    simp only [refreshes] at st
    split at st
    · split at st <;> cases st <;> exact none
    · cases st
  | look _ =>
    simp only [refreshes] at st
    split at st
    · cases st
      exact none
    · obtain ⟨view, -, eq⟩ := Option.bind_eq_some_iff.1 st
      obtain ⟨view', -, rfl⟩ := Option.map_eq_some_iff.1 eq
      exact none
    · cases st
  | store _ =>
    simp only [refreshes] at st
    split at st
    · obtain ⟨view, -, eq⟩ := Option.bind_eq_some_iff.1 st
      obtain ⟨view', -, rfl⟩ := Option.map_eq_some_iff.1 eq
      exact none
    · cases st

/-- An update that a tick is about to make is to a later timestamp than it read. -/
def Refresh.Later : Refresh → Prop
  | .writing _ _ _ _ pending => pending.Later
  | _ => True

/-- Every update is to a later timestamp, and none has set a row back. -/
structure Forward (s : RefreshState) : Prop where
  later : ∀ k, (s.ticks k).Later
  setBack : s.setBack = []

/-- The transaction that has the lock sees rows at least as new. -/
def Ahead (s : RefreshState) : Prop := ∀ w ∈ s.writer, Advances s.rows w.2

lemma KeepsAll.updates {l : RefreshLabel} (keeps : KeepsAll s l) : KeepsUpdates s l := by
  cases l with
  | look | store => exact keeps
  | _ => trivial

lemma Forward.move (inv : Forward s) {k : Nat} {x : Refresh} (later : x.Later) : Forward (s.move k x) := by
  refine ⟨fun k' => ?_, inv.setBack⟩
  by_cases same : k' = k
  · subst same
    rw [RefreshState.move]
    simpa using later
  · have other : (s.move k x).ticks k' = s.ticks k' := Function.update_of_ne same _ _
    rw [other]
    exact inv.later k'

lemma Ahead.acquire (ahead : Ahead s) {k : Nat} {view : Cache} (got : s.acquire k = some view) :
    Advances s.rows view := by
  unfold RefreshState.acquire at got
  split at got
  · rename_i w v held
    obtain ⟨-, eq⟩ := Option.ite_none_right_eq_some.1 got
    cases eq
    exact ahead _ held
  · cases got
    exact Advances.refl

lemma Forward.flush (inv : Forward s) {k : Nat} {profile : SipProfile} {now : Int} {symbols : Finset String}
    {todo : List SipRecord} {pending : Pending} (tick : s.ticks k = .writing profile now symbols todo pending)
    (same : (s.ticks k).Unchanged (s.acquire k)) {view view' : Cache} (got : s.acquire k = some view)
    (flushed : pending.flush view = some view') :
    Advances view view' ∧ s.setBack ++ pending.setsBack view = [] := by
  have later := inv.later k
  rw [tick] at same later
  obtain ⟨forward, fine⟩ := advances_flush later (same view got) flushed
  exact ⟨forward, by rw [inv.setBack, fine, nil_append]⟩

lemma Forward.step (inv : Forward s) {l : RefreshLabel} (keeps : KeepsUpdates s l)
    (st : (refreshes deps).step s l = some t) :
    Forward t ∧ (KeepsAll s l → Ahead s → Ahead t ∧ Advances s.rows t.rows) := by
  have still (ahead : Ahead s) : Ahead s ∧ Advances s.rows s.rows := ⟨ahead, Advances.refl⟩
  cases l with
  | setClock _ | setLeases _ =>
    cases st
    exact ⟨⟨inv.later, inv.setBack⟩, fun _ => still⟩
  | start k _ | demand k _ | fetch k _ | readOld k | readAll k =>
    simp only [refreshes] at st
    repeat' split at st
    all_goals cases st
    all_goals exact ⟨inv.move trivial, fun _ => still⟩
  | look k =>
    simp only [refreshes] at st
    split at st
    · cases st
      exact ⟨inv.move later_upsertOne, fun _ => still⟩
    · rename_i profile now symbols record todo pending _ tick
      obtain ⟨view, got, eq⟩ := Option.bind_eq_some_iff.1 st
      obtain ⟨view', flushed, rfl⟩ := Option.map_eq_some_iff.1 eq
      obtain ⟨forward, fine⟩ := inv.flush tick keeps got flushed
      have moved := inv.move (k := k) (x := .writing profile now symbols todo (upsertOne view' record)) later_upsertOne
      refine ⟨⟨moved.later, fine⟩, fun _ ahead => ⟨?_, Advances.refl⟩⟩
      intro w held
      cases held
      exact (ahead.acquire got).trans forward
    · cases st
  | store k =>
    simp only [refreshes] at st
    split at st
    · rename_i profile now symbols pending tick
      obtain ⟨view, got, eq⟩ := Option.bind_eq_some_iff.1 st
      obtain ⟨view', flushed, rfl⟩ := Option.map_eq_some_iff.1 eq
      obtain ⟨forward, fine⟩ := inv.flush tick keeps got flushed
      have moved := inv.move (k := k) (x := .written profile now symbols) trivial
      refine ⟨⟨moved.later, fine⟩, fun _ ahead => ⟨fun w held => ?_, (ahead.acquire got).trans forward⟩⟩
      cases held
    · cases st
  | delete k =>
    simp only [refreshes] at st
    split at st
    · rename_i before protect ids tick free
      cases st
      have moved := inv.move (k := k) (x := .idle) trivial
      refine ⟨⟨moved.later, moved.setBack⟩, fun keeps _ => ⟨fun w held => ?_, fun i r get => ?_⟩⟩
      · have held : s.writer = some w := held
        rw [free] at held
        cases held
      · have keeps : Refresh.Keeps s.rows (fun _ => true) (s.ticks k) := keeps
        rw [tick] at keeps
        exact hasNewer_iff.1 (hasNewer_delete keeps (mem_values_of_get get) rfl)
    · cases st
  | abort k =>
    cases st
    have moved := inv.move (k := k) (x := .idle) trivial
    exact ⟨⟨moved.later, moved.setBack⟩,
      fun _ ahead => ⟨fun w held => ahead w (Option.mem_filter_iff.1 held).1, Advances.refl⟩⟩

/-- No deletion starves a leased symbol, no update sets a row back and the newest timestamp of a symbol and profile does
    not go back: in every run that meets the condition on the deletions, that on the updates, and that on all writes. -/
theorem retention_keeps_newest {ls ls' : List RefreshLabel} {s s' : RefreshState}
    (run : (refreshes deps).run {} ls = some s) (run' : (refreshes deps).run s ls' = some s') :
    ((refreshes deps).Meets KeepsLeased {} (ls ++ ls') → s'.starved = []) ∧
      ((refreshes deps).Meets KeepsUpdates {} (ls ++ ls') → s'.setBack = []) ∧
      ((refreshes deps).Meets KeepsAll {} (ls ++ ls') → Advances s.rows s'.rows) := by
  have whole := run_append.2 ⟨s, run, run'⟩
  have start : Forward {} := ⟨fun _ => trivial, rfl⟩
  refine ⟨fun keeps => ?_, fun keeps => ?_, fun keeps => ?_⟩
  · exact run_invariant (I := fun s => s.starved = []) starved_step rfl keeps whole
  · have pres : ∀ {s l t}, Forward s → KeepsUpdates s l → (refreshes deps).step s l = some t → Forward t :=
      fun inv keeps st => (inv.step keeps st).1
    exact (run_invariant pres start keeps whole).setBack
  · obtain ⟨first, second⟩ := keeps.append run
    have pres : ∀ {s l t}, Forward s ∧ Ahead s → KeepsAll s l → (refreshes deps).step s l = some t →
        Forward t ∧ Ahead t := by
      intro s l t inv keeps st
      obtain ⟨forward, ahead⟩ := inv.1.step keeps.updates st
      exact ⟨forward, (ahead keeps inv.2).1⟩
    have inv := run_invariant pres ⟨start, nofun⟩ first run
    apply run_relation (R := fun s t => Advances s.rows t.rows) _ _ pres _ inv second run'
    · exact fun _ => Advances.refl
    · exact fun ab bc => Advances.trans ab bc
    · exact fun inv keeps st => ((inv.1.step keeps.updates st).2 keeps inv.2).2

/-! ## Runs -/

def shortRetention : RefreshDeps where
  liveRetentionHours := some 24
  eodRetentionDays := some 30
  tradingDate now := now / 86400000000

def leaseOf (profile : SipProfile) (symbol : String) : Lease where
  consumerId := "service:a"
  profile := profile
  symbols := [symbol]
  maxAgeS := if profile = .live then some 30 else none
  maxAgeTradingDays := none
  effectiveFrom := 0
  expiresAt := 864000000000

def tick (t : Nat) (profile : SipProfile) (quotes : List (String × Int × Bool)) : List RefreshLabel :=
  [RefreshLabel.start t profile, .demand t true, .fetch t (some quotes)] ++ quotes.map (fun _ => RefreshLabel.look t) ++
    [RefreshLabel.store t, .readOld t, .readAll t, .delete t]

def coveredSymbol : List RefreshLabel :=
  [RefreshLabel.setLeases [leaseOf .live "AAA", leaseOf .eod "AAA"]] ++ tick 0 .eod [("AAA", 5, true)] ++
    tick 1 .live [("AAA", 6, true)] ++ [RefreshLabel.setClock 259200000000] ++
      tick 2 .live [("AAA", 259200000001, true)]

theorem coveredSymbol_kept : ∃ s s', (refreshes shortRetention).run {} coveredSymbol = some s ∧
      (refreshes shortRetention).run s (tick 3 .eod [("AAA", 259200000002, true)]) = some s' ∧
      s.rows.values.length = 2 ∧ s'.starved = [] ∧ s'.setBack = [] ∧ Advances s.rows s'.rows := by
  obtain ⟨s, run⟩ := Option.isSome_iff_exists.1
    (show ((refreshes shortRetention).run {} coveredSymbol).isSome = true by decide +kernel)
  obtain ⟨s', whole⟩ := Option.isSome_iff_exists.1
    (show ((refreshes shortRetention).run {} (coveredSymbol ++ tick 3 .eod [("AAA", 259200000002, true)])).isSome = true
      by decide +kernel)
  have rows := Machine.observe (f := fun s => s.rows.values.length) run
    (show ((refreshes shortRetention).run {} coveredSymbol).map (fun s => s.rows.values.length) = some 2
      by decide +kernel)
  obtain ⟨s₁, run₁, run'⟩ := run_append.1 whole
  rw [run] at run₁
  cases run₁
  obtain ⟨starved, setBack, advances⟩ := retention_keeps_newest run run'
  exact ⟨s, s', run, run', rows, starved (by decide +kernel), setBack (by decide +kernel), advances (by decide +kernel)⟩

def otherProfile : List RefreshLabel :=
  [RefreshLabel.setLeases [leaseOf .live "BBB", leaseOf .eod "AAA"]] ++ tick 0 .eod [("AAA", 5, true)] ++
    [RefreshLabel.setClock 259200000000] ++ tick 1 .live [("BBB", 259200000001, true)]

def overtaken : List RefreshLabel :=
  [RefreshLabel.setLeases [leaseOf .live "AAA"]] ++ tick 0 .live [("AAA", 5, true)] ++
    [RefreshLabel.start 1 .live, .demand 1 true, .fetch 1 (some [("AAA", 6, true)]), .look 1,
      .start 2 .live, .demand 2 true, .fetch 2 (some [("AAA", 7, true)]), .look 2, .store 2, .store 1]

theorem newest_row_lost : (∃ s, (refreshes shortRetention).run {} otherProfile = some s ∧ s.starved ≠ []) ∧
      ∃ s, (refreshes shortRetention).run {} overtaken = some s ∧ s.setBack ≠ [] := by
  constructor
  · have evaluated : ((refreshes shortRetention).run {} otherProfile).map (fun s => s.starved.length) = some 1 := by
      decide +kernel
    obtain ⟨s, run, one⟩ := Option.map_eq_some_iff.1 evaluated
    refine ⟨s, run, fun nil => ?_⟩
    rw [nil] at one
    cases one
  · have evaluated : ((refreshes shortRetention).run {} overtaken).map (fun s => s.setBack.length) = some 1 := by
      decide +kernel
    obtain ⟨s, run, one⟩ := Option.map_eq_some_iff.1 evaluated
    refine ⟨s, run, fun nil => ?_⟩
    rw [nil] at one
    cases one

end Workbench.Demand
