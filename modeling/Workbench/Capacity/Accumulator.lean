import Workbench.Capacity.System

/-!
# The capacity accumulator

`risk_capacity_state.reserved_qty` is meant to be the sum of the HELD reservations of its key. A claim
moves both by the same quantity; a settlement writes the state of the rows it loaded and returns their
capacity, without looking at the state again, so two settlers that both loaded a row as HELD return
its capacity twice (`settle_race_unbalances`).

`StillHeld` is the condition the writes miss: the rows a settler writes are still HELD when it writes
them. In every run that meets it the accumulators agree with the rows (`reservedQty_eq_heldQty`).
`SameRow` records the columns of a reservation that no step changes.
-/

namespace Workbench.Capacity
open Workbench.Lib Workbench.Risk Workbench.Orders List Option Table
variable {db db' : Db} {it : SettleItem}

/-- The accumulators agree with the HELD rows, and no row holds a negative quantity. -/
structure Balanced (db : Db) : Prop where
  pos : ∀ r ∈ db.reservations, 0 ≤ r.qty
  eq : ∀ a sym, db.reservedQty a sym = db.heldQty a sym

/-- Two versions of one reservation row. -/
structure SameRow (r r' : RiskReservation) : Prop where
  account : r'.accountId = r.accountId
  symbol : r'.symbol = r.symbol
  qty : r'.qty = r.qty

lemma SameRow.refl (r : RiskReservation) : SameRow r r := ⟨rfl, rfl, rfl⟩

lemma SameRow.trans {r r' r'' : RiskReservation} (h : SameRow r r') (h' : SameRow r' r'') : SameRow r r'' :=
  ⟨h'.account.trans h.account, h'.symbol.trans h.symbol, h'.qty.trans h.qty⟩

/-- Every row of `db` is still there in `db'`, under its key. -/
def RowsKept (db db' : Db) : Prop :=
  ∀ (i : Nat) r, db.reservations[i]? = some r → ∃ r', db'.reservations[i]? = some r' ∧ SameRow r r'

lemma RowsKept.of_eq (e : db'.reservations = db.reservations) : RowsKept db db' :=
  fun _ r get => ⟨r, by rw [e]; exact get, .refl r⟩

lemma RowsKept.trans {db'' : Db} (h : RowsKept db db') (h' : RowsKept db' db'') : RowsKept db db'' := by
  intro i r get
  obtain ⟨r', get', same⟩ := h i r get
  obtain ⟨r'', get'', same'⟩ := h' i r' get'
  exact ⟨r'', get'', same.trans same'⟩

lemma RowsKept.of_amend {i : Nat} {f : RiskReservation → RiskReservation}
    (same : ∀ r, SameRow r (f r)) (e : db'.reservations = Table.amend i f db.reservations) : RowsKept db db' := by
  intro j r get
  rw [e, getElem?_amend, get]
  split
  · exact ⟨f r, rfl, same r⟩
  · exact ⟨r, rfl, .refl r⟩

/-! ## Settling -/

lemma RowsKept.settleItem : RowsKept db (settleItem db it) :=
  .of_amend (f := fun r => { r with state := it.state, releaseReason := some it.reason })
    (fun _ => ⟨rfl, rfl, rfl⟩) settleItem_reservations

lemma RowsKept.settleWrite {items : List SettleItem} : RowsKept db (settleWrite db items) := by
  induction items generalizing db with
  | nil => exact .of_eq rfl
  | cons it items ih => exact RowsKept.settleItem.trans ih

/-- The item was loaded from a row of `db`, and takes it out of HELD. -/
structure Loaded (db : Db) (it : SettleItem) : Prop where
  row : ∃ r, db.reservations[it.id]? = some r ∧ SameRow it.row r
  leaves : it.state ≠ .held

lemma Loaded.mono (kept : RowsKept db db') (h : Loaded db it) : Loaded db' it := by
  obtain ⟨r, get, same⟩ := h.row
  obtain ⟨r', get', same'⟩ := kept _ _ get
  exact ⟨⟨r', get', same.trans same'⟩, h.leaves⟩

def HeldNow (db : Db) (it : SettleItem) : Prop :=
  ∃ r ∈ db.reservations[it.id]?, r.state = .held

instance (db : Db) (it : SettleItem) : Decidable (HeldNow db it) :=
  inferInstanceAs (Decidable (∃ r ∈ db.reservations[it.id]?, r.state = .held))

lemma Balanced.settleItem (bal : Balanced db) (ld : Loaded db it)
    (held : HeldNow db it) : Balanced (settleItem db it) := by
  obtain ⟨r, get, same⟩ := ld.row
  obtain ⟨r', get', st⟩ := held
  rw [get] at get'
  cases get'
  have mem : r ∈ db.reservations := mem_of_getElem? get
  refine ⟨?_, ?_⟩
  · rw [settleItem_reservations]
    intro x m
    obtain ⟨j, get_j⟩ := mem_iff_getElem?.1 m
    rw [getElem?_amend] at get_j
    split at get_j
    · obtain ⟨y, gy, rfl⟩ := map_eq_some_iff.1 get_j
      exact bal.pos y (mem_of_getElem? gy)
    · exact bal.pos x (mem_of_getElem? get_j)
  · intro a sym
    have held_eq : (Risk.settleItem db it).heldQty a sym =
        db.heldQty a sym - r.heldFor a sym := by
      rw [Db.heldQty, settleItem_reservations, total_amend get, Db.heldQty]
      simp [RiskReservation.heldFor, ld.leaves]
    have reserved_eq : (Risk.settleItem db it).reservedQty a sym =
        if (a, sym) = (r.accountId, r.symbol) then max (db.reservedQty a sym - r.qty) 0
        else db.reservedQty a sym := by
      unfold Risk.settleItem
      rw [← same.account, ← same.symbol, ← same.qty,
        returnCapacity_reservedQty (bal.pos r mem)]
      split
      · rename_i eq
        rw [(Prod.mk.inj eq).1, (Prod.mk.inj eq).2]
        rfl
      · rfl
    rw [reserved_eq, held_eq, bal.eq]
    split
    · rename_i eq
      obtain ⟨rfl, rfl⟩ := Prod.mk.inj eq
      have one : r.heldFor r.accountId r.symbol = r.qty := by simp [RiskReservation.heldFor, st]
      have le : r.heldFor r.accountId r.symbol ≤ db.heldQty r.accountId r.symbol := by
        refine le_total (fun x m => ?_) mem
        unfold RiskReservation.heldFor
        split
        · exact bal.pos x m
        · exact le_rfl
      rw [one] at le ⊢
      exact max_eq_left (by linarith)
    · rename_i ne
      have zero : r.heldFor a sym = 0 := by
        unfold RiskReservation.heldFor
        rw [if_neg]
        rintro ⟨rfl, rfl, -⟩
        exact ne rfl
      rw [zero, sub_zero]

lemma Balanced.settleWrite {items : List SettleItem} (bal : Balanced db)
    (distinct : items.Pairwise (·.id ≠ ·.id)) (ld : ∀ it ∈ items, Loaded db it)
    (held : ∀ it ∈ items, HeldNow db it) : Balanced (settleWrite db items) := by
  induction items generalizing db with
  | nil => exact bal
  | cons it items ih =>
    rw [pairwise_cons] at distinct
    refine ih (bal.settleItem (ld it mem_cons_self) (held it mem_cons_self)) distinct.2 ?_ ?_
    · exact fun x m => (ld x (mem_cons_of_mem _ m)).mono .settleItem
    · intro x m
      obtain ⟨r, get, st⟩ := held x (mem_cons_of_mem _ m)
      refine ⟨r, ?_, st⟩
      rw [settleItem_reservations, getElem?_amend_of_ne (distinct.1 x m)]
      exact get

/-! ## Every step keeps the rows -/

lemma RowsKept.of_append {rows : List RiskReservation}
    (e : db'.reservations = db.reservations ++ rows) : RowsKept db db' := by
  intro i r get
  refine ⟨r, ?_, .refl r⟩
  rw [e, getElem?_append_left (List.getElem?_eq_some_iff.1 get).1]
  exact get

lemma RowsKept.linkReservation {r o : Nat} : RowsKept db (linkReservation db r o) := by
  refine .of_amend (f := fun r => if r.orderId = none then { r with orderId := some o } else r) ?_ rfl
  intro r
  split
  · exact ⟨rfl, rfl, rfl⟩
  · exact .refl r

lemma Step.rowsKept {s t : State} {l : Label} (st : Step s l t) : RowsKept s.world.db t.world.db := by
  cases st with
  | decideWrite _ => exact .of_append decideWrite_reservations
  | link _ => exact .linkReservation
  | settleWrite _ => exact .settleWrite
  | _ => exact .of_eq rfl

/-! ## What a settler loads -/

/-- What a settling read returns: distinct rows of the database, taken out of HELD. -/
structure Selected (db : Db) (items : List SettleItem) : Prop where
  distinct : items.Pairwise (·.id ≠ ·.id)
  loaded : ∀ it ∈ items, Loaded db it

lemma Selected.nil : Selected db [] := ⟨.nil, by simp⟩

lemma Selected.single (get : db.reservations[it.id]? = some it.row) (leaves : it.state ≠ .held) : Selected db [it] := by
  refine ⟨by simp, ?_⟩
  intro x m
  rw [mem_singleton] at m
  subst m
  exact ⟨⟨_, get, .refl _⟩, leaves⟩

lemma Selected.reap {now : Instant} {older : Nat} : Selected db (reapOrphanedReservations db now older) := by
  refine ⟨?_, ?_⟩
  · -- the keys of `zipIdx` are distinct, and filtering keeps them so
    rw [reapOrphanedReservations, pairwise_filterMap]
    refine (List.Pairwise.filter _ ?_)
    have keys : (db.reservations.zipIdx.map Prod.snd).Nodup := by
      rw [zipIdx_map_snd]
      exact nodup_range'
    rw [List.Nodup, pairwise_map] at keys
    refine keys.imp ?_
    intro x y ne it e it' e'
    obtain ⟨_, -, rfl⟩ := map_eq_some_iff.1 e
    obtain ⟨_, -, rfl⟩ := map_eq_some_iff.1 e'
    exact ne
  · intro it m
    rw [reapOrphanedReservations] at m
    obtain ⟨⟨row, i⟩, mem, e⟩ := mem_filterMap.1 m
    obtain ⟨_, -, rfl⟩ := map_eq_some_iff.1 e
    have get := mem_zipIdx_iff_getElem?.1 (mem_filter.1 mem).1
    exact ⟨⟨row, get, .refl _⟩, by simp⟩

lemma Selected.read {call : SettleCall} : Selected db (call.read db) := by
  cases call with
  | release i reason =>
    simp only [SettleCall.read, releaseReservation]
    split
    · exact .nil
    · split
      · exact .nil
      · rename_i get
        split
        · exact .nil
        · exact .single get (by simp)
  | settle o filled reason =>
    simp only [SettleCall.read, settleReservationForOrder]
    split
    · exact .nil
    · split
      · exact .nil
      · rename_i get
        exact .single get (by cases filled <;> simp)
  | reap now older => exact .reap

/-! ## The invariant over runs -/

def Session.items : Session → List SettleItem
  | .settling items => items
  | _ => []

/-- The rows a settler writes are still HELD at its write. -/
def StillHeld (s : State) : Label → Prop
  | .settleWrite p => ∀ it ∈ (s.sessions p).items, HeldNow s.world.db it
  | _ => True

instance (s : State) : DecidablePred (StillHeld s)
  | .settleWrite p => inferInstanceAs (Decidable (∀ it ∈ (s.sessions p).items, HeldNow s.world.db it))
  | .decideRead .. | .decideWrite .. | .persist .. | .link .. | .submit .. | .abandon ..
  | .brokerFill .. | .brokerCancel .. | .ingest .. | .orderWrite .. | .settleRead .. =>
    isTrue trivial

/-- What a session remembers is sound for the database. -/
def Session.Sound (db : Db) : Session → Prop
  | .deciding _ action _ _ => action.action = .orderSubmit ∨ action.qty = none
  | .settling items => Selected db items
  | _ => True

lemma Session.Sound.mono {c : Session} (kept : RowsKept db db') (h : c.Sound db) : c.Sound db' := by
  cases c with
  | settling items => exact ⟨h.distinct, fun it m => (h.loaded it m).mono kept⟩
  | _ => exact h

/-- The accumulators are balanced and every session is sound. -/
structure AccumulatorInv (s : State) : Prop where
  balanced : Balanced s.world.db
  sound : ∀ p, (s.sessions p).Sound s.world.db

lemma grantedQty_pos {a : Nat} {snap : AccountSnapshot} {action : ProposedAction} {q : ℚ}
    (sub : action.action = .orderSubmit ∨ action.qty = none) (g : grantedQty db a snap action = some q) : 0 < q := by
  rw [grantedQty, filter_eq_some_iff] at g
  obtain ⟨qty, ok⟩ := g
  have submit : action.action = .orderSubmit := sub.resolve_right (by simp [qty])
  simp only [Bool.decide_and, Bool.and_eq_true, decide_eq_true_eq] at ok
  exact (classify_verified_submit submit qty ok.1).pos

lemma Balanced.decideWrite {a : Nat} {snap : AccountSnapshot} {action : ProposedAction}
    {args : DecideArgs} {now : Instant} (sub : action.action = .orderSubmit ∨ action.qty = none)
    (bal : Balanced db) : Balanced (decideWrite db a snap action args now).1 := by
  refine ⟨?_, ?_⟩
  · rw [decideWrite_reservations]
    intro r m
    rcases mem_append.1 m with m | m
    · exact bal.pos r m
    · rw [mem_toList] at m
      obtain ⟨q, g, rfl⟩ := map_eq_some_iff.1 m
      exact (grantedQty_pos sub g).le
  · intro a' sym
    rw [decideWrite_reservedQty, bal.eq, Db.heldQty, Db.heldQty, decideWrite_reservations,
      total_append]
    cases grantedQty db a snap action with
    | none => simp
    | some q =>
      simp only [getD_some, map_some, toList_some, total_cons,
        total_nil, add_zero, RiskReservation.heldFor, newReservation, Prod.mk.injEq]
      grind

lemma Balanced.link {r o : Nat} (bal : Balanced db) : Balanced (linkReservation db r o) := by
  refine ⟨?_, ?_⟩
  · intro x' m
    obtain ⟨j, get'⟩ := mem_iff_getElem?.1 m
    rw [linkReservation, getElem?_amend] at get'
    split at get'
    · obtain ⟨x, get, rfl⟩ := map_eq_some_iff.1 get'
      have pos := bal.pos x (mem_of_getElem? get)
      split <;> exact pos
    · exact bal.pos x' (mem_of_getElem? get')
  · intro a sym
    refine (bal.eq a sym).trans (total_amend_of_same fun r => ?_).symm
    split <;> rfl

lemma sound_move {s : State} {p : Nat} {c : Session} (sound : ∀ p, (s.sessions p).Sound db) (h : c.Sound db) :
    ∀ p', ((s.move p c).sessions p').Sound db := by
  intro p'
  simp only [State.move, Function.update_apply]
  split
  · exact h
  · exact sound p'

lemma AccumulatorInv.step {s t : State} {l : Label} (inv : AccumulatorInv s) (ok : StillHeld s l)
    (st : system.step s l = some t) : AccumulatorInv t := by
  have sound : ∀ p, (s.sessions p).Sound t.world.db :=
    fun p => (inv.sound p).mono (Step.of_step st).rowsKept
  cases Step.of_step st with
  | decideRead _ sub => exact ⟨inv.balanced, sound_move sound sub⟩
  | @decideWrite p args now account action view quote e =>
    have sub := inv.sound p
    rw [e] at sub
    refine ⟨inv.balanced.decideWrite sub, sound_move sound ?_⟩
    cases grantedQty s.world.db account (viewSnapshot view account quote) action <;> trivial
  | persist _ => exact ⟨⟨inv.balanced.pos, inv.balanced.eq⟩, sound_move sound trivial⟩
  | link _ => exact ⟨inv.balanced.link, sound_move sound trivial⟩
  | submit _ => exact ⟨inv.balanced, sound_move sound trivial⟩
  | abandon => exact ⟨inv.balanced, sound_move sound trivial⟩
  | brokerFill _ _ _ _ => exact ⟨inv.balanced, sound⟩
  | brokerCancel _ => exact ⟨inv.balanced, sound⟩
  | ingest => exact ⟨⟨inv.balanced.pos, inv.balanced.eq⟩, sound⟩
  | orderWrite => exact ⟨⟨inv.balanced.pos, inv.balanced.eq⟩, sound⟩
  | settleRead _ => exact ⟨inv.balanced, sound_move sound Selected.read⟩
  | @settleWrite p items e =>
    have sel := inv.sound p
    rw [e] at sel
    simp only [StillHeld, e, Session.items] at ok
    exact ⟨inv.balanced.settleWrite sel.distinct sel.loaded ok, sound_move sound trivial⟩

/-- In every run whose settlers write rows that are still HELD, every accumulator equals the sum of
    the HELD reservations of its key, in every state reached. -/
theorem reservedQty_eq_heldQty {s t : State} {ls : List Label}
    (balanced : Balanced s.world.db) (idle : ∀ p, s.sessions p = .idle)
    (held : system.Meets StillHeld s ls) (e : system.run s ls = some t) (a : Nat) (sym : String) :
    t.world.db.reservedQty a sym = t.world.db.heldQty a sym := by
  have init : AccumulatorInv s := ⟨balanced, fun p => by rw [idle p]; trivial⟩
  exact (Machine.run_invariant AccumulatorInv.step init held e).balanced.eq a sym

def longTwoHundred : State where
  world :=
    { db := { symbols := [⟨"AAPL", true⟩] }
      broker :=
        { listed := fun _ => ["AAPL"]
          long := fun a sym => if (a, sym) = (1, "AAPL") then 200 else 0 } }

/-- A sell of `qty` shares of that symbol. -/
def sellOf (qty : ℚ) : ProposedAction where
  action := .orderSubmit
  symbol := "AAPL"
  side := some .sell
  qty := some qty

def fifty : Quote where
  price _ := 50

def cancelOne : List Label :=
  [.decideRead 0 1 (sellOf 100) (some fifty), .decideWrite 0 {} 0,
    .decideRead 1 1 (sellOf 100) (some fifty), .decideWrite 1 {} 0,
    .persist 0 0 1 0, .link 0, .orderWrite 0 .canceled none 1]

def settleRace : List Label :=
  cancelOne ++
    [Label.settleRead 2 (.settle 0 false "ORDER_CANCELED_LOCAL"), .settleRead 3 (.reap 1 300),
      .settleWrite 2, .settleWrite 3]

/-- The race returns the capacity of one reservation twice. -/
theorem settle_race_unbalances : ∃ t, system.run longTwoHundred settleRace = some t ∧
    t.world.db.reservedQty 1 "AAPL" = 0 ∧ t.world.db.heldQty 1 "AAPL" = 100 := by
  have ran : (system.run longTwoHundred settleRace).map (fun t =>
      (t.world.db.reservedQty 1 "AAPL", t.world.db.heldQty 1 "AAPL")) = some (0, 100) := by
    decide +kernel
  obtain ⟨t, e, h⟩ := map_eq_some_iff.1 ran
  exact ⟨t, e, (Prod.mk.inj h).1, (Prod.mk.inj h).2⟩

/-- The same two settlers one after the other: the second finds nothing to settle. -/
theorem settle_in_turn_balances : ∃ t, system.run longTwoHundred
    (cancelOne ++ [.settleRead 2 (.settle 0 false "ORDER_CANCELED_LOCAL"), .settleWrite 2,
      .settleRead 3 (.reap 1 300), .settleWrite 3]) = some t ∧
    t.world.db.reservedQty 1 "AAPL" = t.world.db.heldQty 1 "AAPL" := by
  refine Machine.exists_run (by decide +kernel) fun t e => ?_
  refine reservedQty_eq_heldQty ?_ (fun _ => rfl) (by decide +kernel) e 1 "AAPL"
  exact ⟨by simp [longTwoHundred], fun _ _ => rfl⟩

end Workbench.Capacity
