import Workbench.Market.Session
import Workbench.Lib.Machine

/-!
# One run per scheduled slot

The slot claims of `_dispatch_bar_tick` (`app/strategies/engine.py`, `strategy_slot_claim.py`). Any number of
engine processes share the database; each tick of each of them is an entry of `ticks` and moves on its own,
await by await. The durable key of a claim is the local minute in which it is computed, not the one for which
the tick was scheduled, and the account in it may be NULL, which is equal to nothing.

`slot` is the UTC minute for which the trigger of the tick was due. `OneRunPerSlot` is the purpose of the
claims. It holds in every run in which each tick computes its key in the minute it was due for and the user
of the strategy has an account; the local hour that comes twice does no harm, since it is out of session.
-/

set_option linter.dupNamespace false

namespace Workbench.Strategies.Slots
open Workbench.Lib Workbench.Market List Option

/-- The columns of `strategies` that a claim is made from. -/
structure StrategyRow where
  userId : Nat
  version : String
  deriving DecidableEq, Repr

/-- Python `StrategySlotClaim`; `scheduledSlot` is the local minute that the key spells. -/
structure StrategySlotClaim where
  accountId : Option Nat
  strategyId : Nat
  scheduledSlot : Int
  strategyVersion : String
  retryGeneration : Nat := 0
  deriving DecidableEq, Repr

/-- `uq_strategy_slot_claim`: all columns equal, and none of them NULL. -/
def StrategySlotClaim.collides (a b : StrategySlotClaim) : Bool := a.accountId.isSome && a = b

/-- The awaits of `_dispatch_bar_tick`. -/
inductive Phase where
  | readiness
  | status
  | session
  | row (slot : Int)
  | account (slot : Int) (row : StrategyRow)
  | commit (claim : StrategySlotClaim)
  | fanOut (claim : Nat) (symbols : List String)
  | done
  deriving DecidableEq, Repr

/-- A tick of some process. -/
structure Tick where
  strategyId : Nat
  slot : Nat
  allowExtended : Bool
  symbols : List String
  phase : Phase := .readiness
  deriving DecidableEq, Repr

/-- A call of `on_bar`, by the tick that made it and the claim it holds. -/
structure Entry where
  tick : Nat
  claim : Nat
  strategyId : Nat
  slot : Nat
  version : String
  deriving DecidableEq, Repr

/-- A key that was computed, and for which slot. -/
structure KeyUse where
  strategyId : Nat
  slot : Nat
  key : Int
  deriving DecidableEq, Repr

/-- The database, the clock and the ticks. `accounts` are the owners by account id; `entered` and `keys` are
    what has happened. -/
structure State where
  now : Instant
  strategies : List StrategyRow
  accounts : List Nat
  claims : List StrategySlotClaim := []
  ticks : List Tick := []
  entered : List Entry := []
  keys : List KeyUse := []

/-- What an await comes back with: a check that passes, a statement that does not fail, a bar that is there,
    an `on_bar` that raises. -/
structure Input where
  ok : Bool := true
  bar : Bool := true
  raises : Bool := false
  deriving DecidableEq, Repr

/-- What can happen. -/
inductive Label where
  | clock (elapsed : Nat)
  | fire (strategyId slot : Nat) (allowExtended : Bool) (symbols : List String)
  | go (tick : Nat) (inp : Input)
  | crash (tick : Nat)
  | edit (strategyId : Nat) (version : String)
  | openAccount (userId : Nat)

def firstAccount (accounts : List Nat) (userId : Nat) : Option Nat := accounts.findIdx? (· = userId)

/-- `str(row.version or "0")`. -/
def strategyVersion (row : StrategyRow) : String := if row.version = "" then "0" else row.version

/-- Python `_slot_key`. -/
def slotKey (zone : Zone) (now : Instant) : Int := zone.localMinute (now / minute)

def State.move (s : State) (i : Nat) (tick : Tick) (phase : Phase) : State :=
  { s with ticks := s.ticks.set i { tick with phase } }

section
variable (zone : Zone) (calendar : Calendar)

def go (s : State) (i : Nat) (tick : Tick) (inp : Input) : State :=
  match tick.phase with
  | .readiness => s.move i tick (if inp.ok then .status else .done)
  | .status => s.move i tick (if inp.ok then .session else .done)
  | .session =>
    -- `_dispatch_allowed` and `_slot_key` run without an await between them
    if (classify zone calendar s.now).dispatchable tick.allowExtended then
      { s.move i tick (.row (slotKey zone s.now)) with
        keys := ⟨tick.strategyId, tick.slot, slotKey zone s.now⟩ :: s.keys }
    else s.move i tick .done
  | .row slot =>
    match s.strategies[tick.strategyId]? with
    | some row => s.move i tick (if inp.ok then .account slot row else .done)
    | none => s.move i tick .done
  | .account slot row =>
    s.move i tick (if inp.ok then
      .commit ⟨firstAccount s.accounts row.userId, tick.strategyId, slot, strategyVersion row, 0⟩
    else .done)
  | .commit claim =>
    -- the unique constraint refuses the second of two equal keys
    if inp.ok ∧ s.claims.all (! ·.collides claim) then
      { s.move i tick (.fanOut s.claims.length tick.symbols) with claims := s.claims ++ [claim] }
    else s.move i tick .done
  | .fanOut claim (_ :: rest) =>
    if inp.bar then
      { s.move i tick (if inp.raises then .done else .fanOut claim rest) with
        entered := ⟨i, claim, tick.strategyId, tick.slot,
          (s.claims[claim]?).elim "" (·.strategyVersion)⟩ :: s.entered }
    else s.move i tick (.fanOut claim rest)
  | .fanOut _ [] | .done => s.move i tick .done

/-- One step. A trigger does not fire before it is due. -/
def step (s : State) : Label → Option State
  | .clock elapsed => some { s with now := s.now + elapsed }
  | .fire strategyId slot allowExtended symbols =>
    if slot ≤ s.now / minute
      then some { s with ticks := s.ticks ++ [⟨strategyId, slot, allowExtended, symbols, .readiness⟩] }
    else none
  | .go i inp => (s.ticks[i]?).map fun tick => go zone calendar s i tick inp
  | .crash i => (s.ticks[i]?).map fun tick => s.move i tick .done
  | .edit strategyId version =>
    (s.strategies[strategyId]?).map fun row =>
      { s with strategies := s.strategies.set strategyId { row with version } }
  | .openAccount userId => some { s with accounts := s.accounts ++ [userId] }

def engines : Machine State Label := ⟨step zone calendar⟩

end

/-- At most one tick enters `on_bar` for a strategy, slot and version, and different slots of a strategy have
    different keys. -/
structure OneRunPerSlot (s : State) : Prop where
  once : ∀ e ∈ s.entered, ∀ e' ∈ s.entered, e.strategyId = e'.strategyId → e.slot = e'.slot →
    e.version = e'.version → e.tick = e'.tick
  apart : ∀ k ∈ s.keys, ∀ k' ∈ s.keys, k.strategyId = k'.strategyId → k.key = k'.key → k.slot = k'.slot

/-- The row whose user's account is looked up next. -/
def Phase.looksUp : Phase → Option StrategyRow
  | .account _ strategy => some strategy
  | _ => none

/-- A key is computed in the minute the tick was due for, and the account that is looked up is there. -/
def Punctual (zone : Zone) (calendar : Calendar) (s : State) : Label → Prop
  | .go i inp => ∀ tick ∈ s.ticks[i]?,
      (tick.phase = .session → (classify zone calendar s.now).dispatchable tick.allowExtended = true →
        s.now / minute = tick.slot) ∧
      ∀ row ∈ tick.phase.looksUp, inp.ok = true → (firstAccount s.accounts row.userId).isSome = true
  | _ => True

/-! ## What is kept -/

/-- The account a claim of a strategy is made for. -/
def AccountOf (s : State) (strategyId account : Nat) : Prop :=
  ∃ row, s.strategies[strategyId]? = some row ∧ firstAccount s.accounts row.userId = some account

def KeyOf (zone : Zone) (slot : Nat) (key : Int) : Prop :=
  key = zone.localMinute slot ∧ 4 ≤ zone.localMinute slot % dayMinutes / 60

/-- A claim as a punctual tick makes it. -/
structure ClaimOf (zone : Zone) (s : State) (strategyId slot : Nat) (claim : StrategySlotClaim) : Prop where
  strategy : claim.strategyId = strategyId
  key : KeyOf zone slot claim.scheduledSlot
  account : ∃ a, AccountOf s strategyId a ∧ claim.accountId = some a
  retry : claim.retryGeneration = 0

def TickOk (zone : Zone) (s : State) (tick : Tick) : Prop :=
  match tick.phase with
  | .row key => KeyOf zone tick.slot key
  | .account key row => KeyOf zone tick.slot key ∧
      ∃ row', s.strategies[tick.strategyId]? = some row' ∧ row'.userId = row.userId
  | .commit claim => ClaimOf zone s tick.strategyId tick.slot claim
  | .fanOut k _ => ∃ claim, s.claims[k]? = some claim ∧ ClaimOf zone s tick.strategyId tick.slot claim
  | _ => True

/-- What a tick that entered `on_bar` held. -/
def EntryOk (zone : Zone) (s : State) (e : Entry) : Prop :=
  ∃ claim, s.claims[e.claim]? = some claim ∧ ClaimOf zone s e.strategyId e.slot claim ∧
    claim.strategyVersion = e.version

def Holds (s : State) (i k : Nat) : Prop :=
  (∃ tick rest, s.ticks[i]? = some tick ∧ tick.phase = .fanOut k rest) ∨ ∃ e ∈ s.entered, e.tick = i ∧ e.claim = k

/-- The invariant: the rows satisfy the constraint, and every claim that is held is held by one tick. -/
structure Inv (zone : Zone) (s : State) : Prop where
  unique : s.claims.Pairwise fun a b => a.collides b = false
  ticks : ∀ (i : Nat) tick, s.ticks[i]? = some tick → TickOk zone s tick
  entered : ∀ e ∈ s.entered, EntryOk zone s e
  owner : ∀ i j k, Holds s i k → Holds s j k → i = j
  keys : ∀ k ∈ s.keys, KeyOf zone k.slot k.key

section Keeps
variable {zone : Zone} {calendar : Calendar} {s s' : State}
variable {slot strategyId i : Nat} {tick : Tick}

lemma slot_eq_of_key {slot' : Nat} {key : Int} (newYork : NewYork zone) (h : KeyOf zone slot key)
    (h' : KeyOf zone slot' key) : slot = slot' := by
  rcases newYork slot slot' (h.1.symm.trans h'.1) with eq | night
  · exact eq
  · have := h.2
    omega

/-- The rows a claim is made from: users stay, first accounts stay, claims stay. -/
structure Grows (s s' : State) : Prop where
  users : ∀ (k : Nat) row, s.strategies[k]? = some row → ∃ row', s'.strategies[k]? = some row' ∧ row'.userId =
    row.userId
  accounts : ∀ u a, firstAccount s.accounts u = some a → firstAccount s'.accounts u = some a
  claims : ∀ (k : Nat) claim, s.claims[k]? = some claim → s'.claims[k]? = some claim

lemma Grows.of_eq (strategies : s'.strategies = s.strategies) (accounts : s'.accounts = s.accounts)
    (claims : s'.claims = s.claims) : Grows s s' := by
  refine ⟨?_, ?_, ?_⟩
  · intro k row get
    exact ⟨row, strategies ▸ get, rfl⟩
  · intro u a first
    exact accounts ▸ first
  · intro k claim get
    exact claims ▸ get

lemma AccountOf.grows {a : Nat} (h : AccountOf s strategyId a) (grows : Grows s s') : AccountOf s' strategyId a := by
  obtain ⟨row, get, first⟩ := h
  obtain ⟨row', get', user⟩ := grows.users _ row get
  exact ⟨row', get', user ▸ grows.accounts _ a first⟩

lemma ClaimOf.grows {claim : StrategySlotClaim} (h : ClaimOf zone s strategyId slot claim)
    (grows : Grows s s') : ClaimOf zone s' strategyId slot claim := by
  obtain ⟨a, account, eq⟩ := h.account
  exact ⟨h.strategy, h.key, ⟨a, account.grows grows, eq⟩, h.retry⟩

lemma TickOk.grows (h : TickOk zone s tick) (grows : Grows s s') : TickOk zone s' tick := by
  unfold TickOk at *
  split
  · rename_i eq
    rw [eq] at h
    exact h
  · rename_i eq
    rw [eq] at h
    obtain ⟨key, row', get, user⟩ := h
    obtain ⟨row'', get', user'⟩ := grows.users _ row' get
    exact ⟨key, row'', get', user'.trans user⟩
  · rename_i eq
    rw [eq] at h
    exact ClaimOf.grows h grows
  · rename_i eq
    rw [eq] at h
    obtain ⟨claim, get, ok⟩ := h
    exact ⟨claim, grows.claims _ claim get, ok.grows grows⟩
  · trivial

lemma EntryOk.grows {e : Entry} (h : EntryOk zone s e) (grows : Grows s s') : EntryOk zone s' e := by
  obtain ⟨claim, get, ok, version⟩ := h
  exact ⟨claim, grows.claims _ claim get, ok.grows grows, version⟩

lemma Inv.grows (h : Inv zone s) (grows : Grows s s') (claims : s'.claims = s.claims) (ticks : s'.ticks = s.ticks)
    (entered : s'.entered = s.entered) (keys : ∀ k ∈ s'.keys, KeyOf zone k.slot k.key) : Inv zone s' := by
  refine ⟨claims ▸ h.unique, ?_, ?_, ?_, keys⟩
  · intro i tick get
    exact (h.ticks i tick (ticks ▸ get)).grows grows
  · intro e mem
    exact (h.entered e (entered ▸ mem)).grows grows
  · unfold Holds
    rw [ticks, entered]
    exact h.owner

lemma Inv.holds_lt (h : Inv zone s) {k : Nat} (holds : Holds s i k) : k < s.claims.length := by
  rcases holds with ⟨tick, rest, get, phase⟩ | ⟨e, mem, -, rfl⟩
  · have ok := h.ticks i tick get
    simp only [TickOk, phase] at ok
    obtain ⟨claim, row, -⟩ := ok
    exact (List.getElem?_eq_some_iff.1 row).1
  · obtain ⟨claim, row, -⟩ := h.entered e mem
    exact (List.getElem?_eq_some_iff.1 row).1

lemma getElem?_move {j : Nat} {tick' : Tick} {phase : Phase} (get : (s.move i tick phase).ticks[j]? = some tick') :
    j = i ∧ tick' = { tick with phase } ∨ j ≠ i ∧ s.ticks[j]? = some tick' := by
  simp only [State.move, getElem?_set] at get
  split at get
  · rename_i eq
    split at get
    · cases get
      exact .inl ⟨eq.symm, rfl⟩
    · cases get
  · rename_i ne
    exact .inr ⟨Ne.symm ne, get⟩

lemma Inv.move (h : Inv zone s) {phase : Phase}
    (ok : TickOk zone s { tick with phase }) (held : ∀ k rest, phase = .fanOut k rest → Holds s i k) :
    Inv zone (s.move i tick phase) := by
  have holds {j k : Nat} (new : Holds (s.move i tick phase) j k) : Holds s j k := by
    rcases new with ⟨tick', rest, get, eq⟩ | entry
    · rcases getElem?_move get with ⟨rfl, rfl⟩ | ⟨-, get⟩
      · exact held k rest eq
      · exact .inl ⟨tick', rest, get, eq⟩
    · exact .inr entry
  have grows : Grows s (s.move i tick phase) := .of_eq rfl rfl rfl
  refine ⟨h.unique, ?_, fun e mem => (h.entered e mem).grows grows,
    fun j j' k a b => h.owner j j' k (holds a) (holds b), h.keys⟩
  intro j tick' get
  rcases getElem?_move get with ⟨-, rfl⟩ | ⟨-, get⟩
  · exact ok.grows grows
  · exact (h.ticks j tick' get).grows grows

lemma Inv.fire (h : Inv zone s) {allowExtended : Bool} {symbols : List String} :
    Inv zone { s with ticks := s.ticks ++ [⟨strategyId, slot, allowExtended, symbols, .readiness⟩] } := by
  have grows (ticks : List Tick) : Grows s { s with ticks } := .of_eq rfl rfl rfl
  have found {j : Nat} {tick : Tick}
      (get : (s.ticks ++ [⟨strategyId, slot, allowExtended, symbols, .readiness⟩])[j]? = some tick) :
      tick.phase = .readiness ∨ s.ticks[j]? = some tick := by
    rcases Nat.lt_or_ge j s.ticks.length with lt | ge
    · rw [getElem?_append_left lt] at get
      exact .inr get
    · rw [getElem?_append_right ge] at get
      rw [mem_singleton.1 (mem_of_getElem? get)]
      exact .inl rfl
  have holds {j k : Nat}
      (new : Holds { s with ticks := s.ticks ++ [⟨strategyId, slot, allowExtended, symbols, .readiness⟩] } j k) :
      Holds s j k := by
    rcases new with ⟨tick, rest, get, eq⟩ | entry
    · rcases found get with first | old
      · rw [first] at eq
        cases eq
      · exact .inl ⟨tick, rest, old, eq⟩
    · exact .inr entry
  refine ⟨h.unique, ?_, fun e mem => (h.entered e mem).grows (grows _),
    fun j j' k a b => h.owner j j' k (holds a) (holds b), h.keys⟩
  intro j tick get
  rcases found get with first | old
  · simp only [TickOk, first]
  · exact (h.ticks j tick old).grows (grows _)

lemma Inv.finish (h : Inv zone s) : Inv zone (s.move i tick .done) :=
  h.move trivial fun _ _ eq => nomatch eq

lemma Inv.commit (h : Inv zone s) {claim : StrategySlotClaim} {symbols : List String}
    (ok : ClaimOf zone s tick.strategyId tick.slot claim) (free : s.claims.all (! ·.collides claim) = true) :
    Inv zone { s.move i tick (.fanOut s.claims.length symbols) with claims := s.claims ++ [claim] } := by
  have grows : Grows s { s.move i tick (.fanOut s.claims.length symbols) with claims := s.claims ++ [claim] } := by
    refine ⟨fun k row get => ⟨row, get, rfl⟩, fun u a first => first, ?_⟩
    intro k c get
    rw [getElem?_append_left (List.getElem?_eq_some_iff.1 get).1]
    exact get
  have holds {j k : Nat}
      (new : Holds { s.move i tick (.fanOut s.claims.length symbols) with claims := s.claims ++ [claim] } j k) :
      j = i ∧ k = s.claims.length ∨ Holds s j k := by
    rcases new with ⟨tick', rest, get, eq⟩ | entry
    · rcases getElem?_move get with ⟨rfl, rfl⟩ | ⟨-, get⟩
      · cases eq
        exact .inl ⟨rfl, rfl⟩
      · exact .inr (.inl ⟨tick', rest, get, eq⟩)
    · exact .inr (.inr entry)
  refine ⟨?_, ?_, fun e mem => (h.entered e mem).grows grows, ?_, h.keys⟩
  · rw [pairwise_append]
    refine ⟨h.unique, pairwise_singleton _ _, ?_⟩
    intro a mem b new
    rw [mem_singleton.1 new]
    simpa using all_eq_true.1 free a mem
  · intro j tick' get
    rcases getElem?_move get with ⟨-, rfl⟩ | ⟨-, get⟩
    · exact ⟨claim, by simp, ok.grows grows⟩
    · exact (h.ticks j tick' get).grows grows
  · intro j j' k a b
    -- the new row is held by nobody else
    rcases holds a with ⟨eq, new⟩ | held <;> rcases holds b with ⟨eq', new'⟩ | held'
    · rw [eq, eq']
    · exact absurd (h.holds_lt held') (by omega)
    · exact absurd (h.holds_lt held) (by omega)
    · exact h.owner j j' k held held'

lemma Inv.enter (h : Inv zone s) {k : Nat} {symbols : List String}
    (get : s.ticks[i]? = some tick) (phase : tick.phase = .fanOut k symbols) :
    Inv zone { s with entered := ⟨i, k, tick.strategyId, tick.slot,
      (s.claims[k]?).elim "" (·.strategyVersion)⟩ :: s.entered } := by
  have held : Holds s i k := .inl ⟨tick, symbols, get, phase⟩
  have ok := h.ticks i tick get
  simp only [TickOk, phase] at ok
  obtain ⟨claim, row, of⟩ := ok
  have grows (e : Entry) : Grows s { s with entered := e :: s.entered } := .of_eq rfl rfl rfl
  have holds {j k' : Nat} {e : Entry} (tick : e.tick = i) (claim : e.claim = k)
      (new : Holds { s with entered := e :: s.entered } j k') : Holds s j k' := by
    rcases new with tick' | ⟨e', mem, rfl, rfl⟩
    · exact .inl tick'
    · rcases mem_cons.1 mem with rfl | mem
      · rw [tick, claim]
        exact held
      · exact .inr ⟨e', mem, rfl, rfl⟩
  refine ⟨h.unique, fun j t get => (h.ticks j t get).grows (grows _), ?_,
    fun j j' k' a b => h.owner j j' k' (holds rfl rfl a) (holds rfl rfl b), h.keys⟩
  intro e mem
  rcases mem_cons.1 mem with rfl | mem
  · refine ⟨claim, row, of.grows (grows _), ?_⟩
    rw [row]
    rfl
  · exact (h.entered e mem).grows (grows _)

/-! ## Runs -/

lemma inv_go (exchange : Exchange calendar) {inp : Input} (h : Inv zone s)
    (get : s.ticks[i]? = some tick) (punctual : Punctual zone calendar s (.go i inp)) :
    Inv zone (go zone calendar s i tick inp) := by
  obtain ⟨onTime, account⟩ := punctual tick get
  have ok := h.ticks i tick get
  unfold go
  cases phase : tick.phase with
  | readiness | status =>
    dsimp only
    split
    · exact h.move trivial fun _ _ eq => nomatch eq
    · exact h.finish
  | session =>
    dsimp only
    split
    · rename_i open_
      have due := onTime phase open_
      have key : KeyOf zone tick.slot (slotKey zone s.now) := by
        refine ⟨by rw [slotKey, due], ?_⟩
        rw [← due]
        exact four_le_of_dispatchable exchange open_
      have moved : Inv zone (s.move i tick (.row (slotKey zone s.now))) := h.move key fun _ _ eq => nomatch eq
      refine moved.grows (.of_eq rfl rfl rfl) rfl rfl rfl ?_
      intro k mem
      rcases mem_cons.1 mem with rfl | mem
      · exact key
      · exact h.keys k mem
    · exact h.finish
  | row key =>
    simp only [TickOk, phase] at ok
    dsimp only
    split
    · rename_i row found
      split
      · exact h.move ⟨ok, row, found, rfl⟩ fun _ _ eq => nomatch eq
      · exact h.finish
    · exact h.finish
  | account key row =>
    simp only [TickOk, phase] at ok
    obtain ⟨ok, row', found, user⟩ := ok
    dsimp only
    split
    · rename_i good
      obtain ⟨a, first⟩ := isSome_iff_exists.1 (account row (by rw [phase]; rfl) good)
      refine h.move ⟨rfl, ok, ⟨a, ⟨row', found, user ▸ first⟩, first⟩, rfl⟩ fun _ _ eq => nomatch eq
    · exact h.finish
  | commit claim =>
    simp only [TickOk, phase] at ok
    dsimp only
    split
    · rename_i free
      exact h.commit ok free.2
    · exact h.finish
  | fanOut k symbols =>
    have held : Holds s i k := .inl ⟨tick, symbols, get, phase⟩
    simp only [TickOk, phase] at ok
    cases symbols with
    | nil => exact h.finish
    | cons symbol rest =>
      have next : TickOk zone s { tick with phase := .fanOut k rest } := ok
      dsimp only
      split
      · have entered := h.enter get phase
        split
        · exact entered.finish
        · exact entered.move (next.grows (.of_eq rfl rfl rfl)) fun _ _ eq => by
            cases eq
            exact .inl ⟨tick, _, get, phase⟩
      · exact h.move next fun _ _ eq => by cases eq; exact held
  | done => exact h.finish

lemma inv_step (exchange : Exchange calendar) {l : Label} (h : Inv zone s) (punctual : Punctual zone calendar s l)
    (st : step zone calendar s l = some s') : Inv zone s' := by
  cases l with
  | clock elapsed =>
    cases st
    exact h.grows (.of_eq rfl rfl rfl) rfl rfl rfl h.keys
  | fire strategyId slot allowExtended symbols =>
    simp only [step] at st
    split at st
    · cases st
      exact h.fire
    · cases st
  | go i inp =>
    obtain ⟨tick, get, rfl⟩ := map_eq_some_iff.1 st
    exact inv_go exchange h get punctual
  | crash i =>
    obtain ⟨tick, get, rfl⟩ := map_eq_some_iff.1 st
    exact h.finish
  | edit strategyId version =>
    obtain ⟨row, get, rfl⟩ := map_eq_some_iff.1 st
    refine h.grows ⟨?_, fun u a first => first, fun k claim get => get⟩ rfl rfl rfl h.keys
    intro k row' get'
    show ∃ row'', (s.strategies.set strategyId { row with version })[k]? = some row'' ∧ _
    rw [getElem?_set]
    split
    · rename_i eq
      subst eq
      rw [get] at get'
      cases get'
      exact ⟨_, if_pos (List.getElem?_eq_some_iff.1 get).1, rfl⟩
    · exact ⟨row', get', rfl⟩
  | openAccount userId =>
    cases st
    refine h.grows ⟨fun k row get => ⟨row, get, rfl⟩, ?_, fun k claim get => get⟩ rfl rfl rfl h.keys
    intro u a first
    unfold firstAccount at *
    rw [findIdx?_append, first]
    rfl

lemma ClaimOf.eq {claim claim' : StrategySlotClaim}
    (h : ClaimOf zone s strategyId slot claim) (h' : ClaimOf zone s strategyId slot claim')
    (version : claim.strategyVersion = claim'.strategyVersion) : claim = claim' := by
  obtain ⟨a, ⟨row, get, first⟩, account⟩ := h.account
  obtain ⟨a', ⟨row', get', first'⟩, account'⟩ := h'.account
  have rows : row' = row := some.inj (get'.symm.trans get)
  have accounts : a' = a := some.inj (by rw [← first', rows, first])
  obtain ⟨c1, c2, c3, c4, c5⟩ := claim
  obtain ⟨d1, d2, d3, d4, d5⟩ := claim'
  have keys : c3 = d3 := h.key.1.trans h'.key.1.symm
  have strategies : c2 = d2 := h.strategy.trans h'.strategy.symm
  have retries : c5 = d5 := h.retry.trans h'.retry.symm
  have owners : c1 = d1 := by
    rw [show c1 = some a from account, show d1 = some a' from account', accounts]
  rw [owners, strategies, keys, show c4 = d4 from version, retries]

lemma Inv.oneRunPerSlot (newYork : NewYork zone) (h : Inv zone s) : OneRunPerSlot s := by
  constructor
  · intro e mem e' mem' strategy slot version
    obtain ⟨claim, get, of, eq⟩ := h.entered e mem
    obtain ⟨claim', get', of', eq'⟩ := h.entered e' mem'
    rw [← strategy, ← slot] at of'
    have same : claim = claim' := of.eq of' (by rw [eq, eq', version])
    obtain ⟨a, -, account⟩ := of.account
    have collides : claim.collides claim = true := by simp [StrategySlotClaim.collides, account]
    -- two rows would violate the constraint, so both ticks held the same one
    have row : e.claim = e'.claim := by
      obtain ⟨bound, at_k⟩ := List.getElem?_eq_some_iff.1 get
      obtain ⟨bound', at_k'⟩ := List.getElem?_eq_some_iff.1 get'
      rcases lt_trichotomy e.claim e'.claim with lt | eq | lt
      · have apart := pairwise_iff_getElem.1 h.unique _ _ bound bound' lt
        rw [at_k, at_k', ← same, collides] at apart
        cases apart
      · exact eq
      · have apart := pairwise_iff_getElem.1 h.unique _ _ bound' bound lt
        rw [at_k, at_k', ← same, collides] at apart
        cases apart
    exact h.owner e.tick e'.tick e.claim (.inr ⟨e, mem, rfl, rfl⟩) (.inr ⟨e', mem', rfl, row.symm⟩)
  · intro k mem k' mem' _ key
    exact slot_eq_of_key newYork (h.keys k mem) (key ▸ h.keys k' mem')

end Keeps

def State.init (now : Instant) (strategies : List StrategyRow) (accounts : List Nat) : State :=
  { now, strategies, accounts }

/-- In every run in which each tick computes its key in the minute it was due for and finds an account, for
    every number of processes and every order of their awaits, a slot is run once and slots have their own
    keys. -/
theorem one_run_per_slot {zone : Zone} {calendar : Calendar} (newYork : NewYork zone) (exchange : Exchange calendar)
    {now : Instant} {strategies : List StrategyRow} {accounts : List Nat} {labels : List Label} {s : State}
    (punctual : (engines zone calendar).Meets (Punctual zone calendar) (.init now strategies accounts) labels)
    (run : (engines zone calendar).run (.init now strategies accounts) labels = some s) : OneRunPerSlot s := by
  have start : Inv zone (.init now strategies accounts) := by
    refine ⟨.nil, ?_, ?_, ?_, ?_⟩
    · intro i tick get
      cases get
    · intro e mem
      cases mem
    · rintro i j k (⟨tick, rest, get, -⟩ | ⟨e, mem, -⟩)
      · cases get
      · cases mem
    · intro k mem
      cases mem
  exact (Machine.run_invariant (I := Inv zone) (inv_step exchange) start punctual run).oneRunPerSlot newYork

/-! ## Small runs -/

def fallBack : Zone := ⟨fun m => if m < 29891880 then -240 else -300⟩

lemma newYork_fallBack : NewYork fallBack := by
  intro m m' same
  simp only [Zone.localMinute, fallBack, dayMinutes] at *
  split_ifs at * <;> omega

def weekdays : Calendar := fun d => if 5 ≤ (d + 3) % 7 then none else some ⟨timeOfDay 9 30, timeOfDay 16 0⟩

lemma exchange_weekdays : Exchange weekdays := by
  intro d sched eq
  unfold weekdays at eq
  split at eq
  · cases eq
  · cases eq
    decide

def tenOClock : Nat := 29893860

def oneStrategy (accounts : List Nat) : State := .init (tenOClock * minute) [⟨0, "0.1.0"⟩] accounts

def fireAtTen : Label := .fire 0 tenOClock false ["SPY"]

def finishTick (tick : Nat) : List Label := List.replicate 7 (.go tick {})

def twoProcesses : List Label := fireAtTen :: fireAtTen :: (finishTick 0 ++ finishTick 1)

instance decidablePunctual (zone : Zone) (calendar : Calendar) (s : State) :
    ∀ l, Decidable (Punctual zone calendar s l)
  | .go i _ => inferInstanceAs (Decidable (∀ tick ∈ s.ticks[i]?, _))
  | .clock _ | .fire .. | .crash _ | .edit .. | .openAccount _ => isTrue trivial

theorem second_process_refused :
    ∃ s, (engines fallBack weekdays).run (oneStrategy [0]) twoProcesses = some s ∧
      s.entered.map (·.tick) = [0] ∧ OneRunPerSlot s := by
  refine Machine.exists_run (by decide +kernel) fun s run => ?_
  exact ⟨Machine.observe (f := fun s => s.entered.map (·.tick)) run (by decide +kernel),
    one_run_per_slot newYork_fallBack exchange_weekdays (by decide +kernel) run⟩

lemma not_oneRunPerSlot_of_entered {s : State} {e e' : Entry} (entered : s.entered = [e, e'])
    (same : e.strategyId = e'.strategyId ∧ e.slot = e'.slot ∧ e.version = e'.version) (apart : e.tick ≠ e'.tick) :
    ¬ OneRunPerSlot s := by
  intro h
  exact apart (h.once e (by simp [entered]) e' (by simp [entered]) same.1 same.2.1 same.2.2)

/-- Without an account row two processes run the slot. With one, a tick that is held up past its minute runs
    the slot a second time, under the key of the next slot. -/
theorem slot_runs_twice :
    (∃ s, (engines fallBack weekdays).run (oneStrategy []) twoProcesses = some s ∧ ¬ OneRunPerSlot s) ∧
    ∃ s, (engines fallBack weekdays).run (oneStrategy [0])
        ([fireAtTen, fireAtTen] ++ finishTick 0 ++ [.clock minute] ++ finishTick 1) = some s ∧
      s.keys.map (·.key) = [fallBack.localMinute (tenOClock + 1), fallBack.localMinute tenOClock] ∧
      ¬ OneRunPerSlot s := by
  refine ⟨?_, ?_⟩
  · obtain ⟨s, run⟩ : ∃ s, (engines fallBack weekdays).run (oneStrategy []) twoProcesses = some s :=
      isSome_iff_exists.1 (by decide +kernel)
    have entered := Machine.observe (f := fun s => s.entered) run
      (x := [⟨1, 1, 0, tenOClock, "0.1.0"⟩, ⟨0, 0, 0, tenOClock, "0.1.0"⟩]) (by decide +kernel)
    exact ⟨s, run, not_oneRunPerSlot_of_entered entered ⟨rfl, rfl, rfl⟩ (by decide)⟩
  · obtain ⟨s, run⟩ : ∃ s, (engines fallBack weekdays).run (oneStrategy [0])
        ([fireAtTen, fireAtTen] ++ finishTick 0 ++ [.clock minute] ++ finishTick 1) = some s :=
      isSome_iff_exists.1 (by decide +kernel)
    have entered := Machine.observe (f := fun s => s.entered) run
      (x := [⟨1, 1, 0, tenOClock, "0.1.0"⟩, ⟨0, 0, 0, tenOClock, "0.1.0"⟩]) (by decide +kernel)
    have keys := Machine.observe (f := fun s => s.keys.map (·.key)) run
      (x := [fallBack.localMinute (tenOClock + 1), fallBack.localMinute tenOClock]) (by decide +kernel)
    exact ⟨s, run, keys, not_oneRunPerSlot_of_entered entered ⟨rfl, rfl, rfl⟩ (by decide)⟩

end Workbench.Strategies.Slots
