import Workbench.Capacity.World

/-!
# No oversell across processes

`approvedUnfilled_le_long` is the law of the capacity row: in every run whose steps are `Orderly`,
the approved sells of a key never add up to more than the broker's long in it.

`Orderly` names what the code does not check: that a decision is not written after both an approval
and a filled settlement of its key since its read; that a reservation is settled only while it is
HELD and not live at the broker; that an order is submitted only while its reservation is HELD; and
that no fill is booked beyond what the broker executed. `stale_view_oversells` is a run that breaks the
first of them: the claim's own refresh re-points the row at the old snapshot.
-/

namespace Workbench.Capacity
open Workbench.Lib Workbench.Risk Workbench.Orders List Function Option Dict Table
variable {w : World} {c : Session}

/-! ## The condition -/

/-- Nothing of the item's reservation is live at the broker. -/
def NotLive (w : World) (it : SettleItem) : Prop :=
  ∀ r ∈ w.db.reservations[it.id]?, ∀ b ∈ w.placed r, b.live = false

instance {w : World} {it : SettleItem} : Decidable (NotLive w it) :=
  inferInstanceAs (Decidable (∀ r ∈ w.db.reservations[it.id]?, ∀ b ∈ w.placed r, b.live = false))

/-- What a session must find in the world when it makes its next write. -/
def Session.Orderly (w : World) : Session → Prop
  | .deciding a action v _ =>
    NoneApproved v w a (upper action.symbol) ∨ NoneSettled v w a (upper action.symbol)
  | .linked _ _ r _ => ∃ row ∈ w.db.reservations[r]?, row.state = .held
  | .settling items => ∀ it ∈ items, HeldNow w.db it ∧ NotLive w it
  | _ => True

instance {w : World} : DecidablePred (Session.Orderly w)
  | .deciding a action v _ => inferInstanceAs (Decidable
      (NoneApproved v w a (upper action.symbol) ∨ NoneSettled v w a (upper action.symbol)))
  | .linked _ _ r _ => inferInstanceAs (Decidable (∃ row ∈ w.db.reservations[r]?, row.state = .held))
  | .settling items => inferInstanceAs (Decidable (∀ it ∈ items, HeldNow w.db it ∧ NotLive w it))
  | .idle | .approved .. | .persisted .. => isTrue trivial

def Orderly (s : State) : Label → Prop
  | .decideWrite p _ _ | .submit p _ | .settleWrite p => (s.sessions p).Orderly s.world
  | .ingest fill => s.world.db.filledQty fill.orderId + fill.qty ≤
      ((s.world.broker.orders.get fill.orderId).map (·.filled)).getD 0
  | _ => True

instance (s : State) : DecidablePred (Orderly s)
  | .decideWrite p _ _ | .submit p _ | .settleWrite p =>
    inferInstanceAs (Decidable ((s.sessions p).Orderly s.world))
  | .ingest fill => inferInstanceAs (Decidable (s.world.db.filledQty fill.orderId + fill.qty ≤
      ((s.world.broker.orders.get fill.orderId).map (·.filled)).getD 0))
  | .decideRead .. | .persist .. | .link .. | .abandon .. | .brokerFill .. | .brokerCancel ..
  | .orderWrite .. | .settleRead .. => isTrue trivial

/-! ## Operations that move no shares -/

/-- `w'` has the rows of `w`, with nothing more executed or open, and the same longs. -/
structure Quiet (w w' : World) : Prop where
  length : w'.db.reservations.length = w.db.reservations.length
  rows : ∀ (i : Nat) r r', w.db.reservations[i]? = some r → w'.db.reservations[i]? = some r' →
    SameRow r r' ∧ w'.executed r' = w.executed r ∧ w'.unfilled r' ≤ w.unfilled r ∧
      (r.state ≠ .held → r'.state ≠ .held)
  long : w'.broker.long = w.broker.long
  listed : w'.broker.listed = w.broker.listed

namespace Quiet

variable {L : Nat → String → ℚ} {w w' : World}

lemma get (q : Quiet w w') {i : Nat} {r : RiskReservation} (e : w.db.reservations[i]? = some r) :
    ∃ r', w'.db.reservations[i]? = some r' := by
  have len := (List.getElem?_eq_some_iff.1 e).1
  rw [← q.length] at len
  exact ⟨_, getElem?_eq_getElem len⟩

lemma get' (q : Quiet w w') {i : Nat} {r' : RiskReservation} (e : w'.db.reservations[i]? = some r') :
    ∃ r, w.db.reservations[i]? = some r := by
  have len := (List.getElem?_eq_some_iff.1 e).1
  rw [q.length] at len
  exact ⟨_, getElem?_eq_getElem len⟩

lemma later (q : Quiet w w') : Later w w' := by
  intro i r e
  obtain ⟨r', e'⟩ := q.get e
  obtain ⟨same, ex, -, out⟩ := q.rows i r r' e e'
  exact ⟨r', e', same, ex.ge, fun h => ⟨out h, ex⟩⟩

lemma conserved (q : Quiet w w') (inv : WorldInv L w) (a : Nat) (sym : String) :
    w'.broker.long a sym + w'.sum a sym w'.executed = L a sym := by
  rw [← inv.conserved a sym, q.long]
  congr 1
  refine total_eq_of_getElem? q.length fun i r r' e e' => ?_
  obtain ⟨same, ex, -, -⟩ := q.rows i r r' e e'
  rw [same.account, same.symbol, ex]

lemma safe (q : Quiet w w') (inv : WorldInv L w) (a : Nat) (sym : String) :
    w'.approvedUnfilled a sym ≤ w'.broker.long a sym := by
  rw [q.long]
  refine le_trans (total_le_of_getElem? q.length.ge fun i r' e' => ?_) (inv.safe a sym)
  obtain ⟨r, e⟩ := q.get' e'
  obtain ⟨same, -, le, -⟩ := q.rows i r r' e e'
  rw [e, map_some, getD_some, same.account, same.symbol]
  split
  · exact le
  · exact le_rfl

lemma canonical (q : Quiet w w') (inv : WorldInv L w) : ∀ r ∈ w'.db.reservations, upper r.symbol = r.symbol := by
  intro r' m
  obtain ⟨i, e'⟩ := mem_iff_getElem?.1 m
  obtain ⟨r, e⟩ := q.get' e'
  rw [(q.rows i r r' e e').1.symbol]
  exact inv.canonical r (mem_of_getElem? e)

end Quiet

section Operations
variable {o : Nat} {L : Nat → String → ℚ} {w : World}

lemma WorldInv.orders (inv : WorldInv L w) {orders : List Order} (len : w.db.orders.length ≤ orders.length) :
    WorldInv L { w with db := { w.db with orders } } where
  balanced := ⟨inv.balanced.pos, inv.balanced.eq⟩
  canonical := inv.canonical
  linked := inv.linked
  persisted r m o e := (inv.persisted r m o e).trans_le len
  placed := inv.placed
  filled := inv.filled
  booked := inv.booked
  conserved := inv.conserved
  listed := inv.listed
  safe := inv.safe

lemma WorldInv.ingest (inv : WorldInv L w) {fill : Fill} (ok : w.db.filledQty fill.orderId + fill.qty ≤
      ((w.broker.orders.get fill.orderId).map (·.filled)).getD 0) :
    WorldInv L { w with db := { w.db with fills := w.db.fills ++ [fill] } } where
  balanced := ⟨inv.balanced.pos, inv.balanced.eq⟩
  canonical := inv.canonical
  linked := inv.linked
  persisted := inv.persisted
  placed := inv.placed
  filled := inv.filled
  booked o := by
    rw [Db.filledQty, total_insert]
    by_cases eq : fill.orderId = o
    · rw [if_pos eq]
      subst eq
      exact ok
    · rw [if_neg eq, add_zero]
      exact inv.booked o
  conserved := inv.conserved
  listed := inv.listed
  safe := inv.safe

/-- The broker's word on one order, which executes nothing of it. -/
lemma WorldInv.setOrder (inv : WorldInv L w) {b : BrokerOrder} (placed : ∃ r ∈ w.db.reservations, PlacedFor o b r)
    (bounds : 0 ≤ b.filled ∧ b.filled ≤ b.qty) (same : b.filled = ((w.broker.orders.get o).map (·.filled)).getD 0)
    (unfilled : ∀ (i : Nat) r, w.db.reservations[i]? = some r → r.orderId = some o →
      (if b.live then b.qty - b.filled else 0) ≤ w.unfilled r) :
    WorldInv L { w with broker := w.broker.accept o b } ∧ Quiet w { w with broker := w.broker.accept o b } := by
  have orders : ∀ o', (w.broker.accept o b).orders.get o' = if o' = o then some b else w.broker.orders.get o' :=
    fun o' => get_set
  have quiet : Quiet w { w with broker := w.broker.accept o b } := by
    refine ⟨rfl, ?_, rfl, rfl⟩
    intro i r r' e e'
    rw [e] at e'
    cases e'
    refine ⟨.refl r, ?_, ?_, fun h => h⟩
    · unfold World.executed World.placed
      cases r.orderId with
      | none => rfl
      | some o' =>
        simp only [bind_some, orders]
        split
        · rename_i eq; rw [eq]; exact same
        · rfl
    · cases link : r.orderId with
      | none => simp [World.unfilled, World.placed, link]
      | some o' =>
        by_cases eq : o' = o
        · refine le_of_eq_of_le ?_ (unfilled i r e (eq ▸ link))
          simp [World.unfilled, World.placed, link, orders, eq]
        · simp [World.unfilled, World.placed, link, orders, eq]
  refine ⟨?_, quiet⟩
  refine
    { balanced := inv.balanced
      canonical := inv.canonical
      linked := inv.linked
      persisted := inv.persisted
      placed := ?_
      filled := ?_
      booked := ?_
      conserved := quiet.conserved inv
      listed := inv.listed
      safe := quiet.safe inv }
  · intro o' b' e
    rw [orders] at e
    split at e
    · rename_i eq
      cases e
      exact eq ▸ placed
    · exact inv.placed o' b' e
  · intro o' b' e
    rw [orders] at e
    split at e
    · cases e
      exact bounds
    · exact inv.filled o' b' e
  · intro o'
    refine (inv.booked o').trans (le_of_eq ?_)
    rw [orders]
    split
    · rename_i eq; rw [eq]; exact same.symm
    · rfl

lemma WorldInv.cancel (inv : WorldInv L w) {b : BrokerOrder} (get : w.broker.orders.get o = some b) :
    WorldInv L { w with broker := w.broker.cancel o b } ∧
      Quiet w { w with broker := w.broker.cancel o b } := by
  obtain ⟨r, m, pf⟩ := inv.placed o b get
  refine inv.setOrder (b := { b with live := false }) ⟨r, m, ⟨pf.order, pf.account, pf.symbol, pf.qty, by simp⟩⟩
    (inv.filled o b get) ?_ fun i r' e _ => ?_
  · rw [get]
    rfl
  · exact inv.unfilled_nonneg (mem_of_getElem? e)

lemma WorldInv.accept (inv : WorldInv L w) {i : Nat} {b : BrokerOrder} {row : RiskReservation}
    (get : w.db.reservations[i]? = some row) (pf : PlacedFor o b row) (held : row.state = .held)
    (fresh : w.broker.orders.get o = none) (unfilled : b.filled = 0) (live : b.live = true) :
    WorldInv L { w with broker := w.broker.accept o b } ∧
      Quiet w { w with broker := w.broker.accept o b } := by
  have mem := mem_of_getElem? get
  refine inv.setOrder ⟨row, mem, pf⟩ ?_ ?_ fun j r e link => ?_
  · rw [unfilled, ← pf.qty]
    exact ⟨le_rfl, inv.balanced.pos row mem⟩
  · rw [fresh, unfilled]
    rfl
  · have one := inv.linked j i r row o e get link pf.order
    rw [one, get] at e
    cases e
    simp [World.unfilled, World.placed, link, fresh, live, unfilled, held, pf.qty]

lemma WorldInv.link (inv : WorldInv L w) {i : Nat} {row : RiskReservation}
    (get : w.db.reservations[i]? = some row) (unlinked : row.orderId = none)
    (fresh : ∀ r ∈ w.db.reservations, r.orderId ≠ some o) (here : o < w.db.orders.length) :
    WorldInv L { w with db := linkReservation w.db i o } ∧
      Quiet w { w with db := linkReservation w.db i o } := by
  have absent : w.broker.orders.get o = none := by
    cases e : w.broker.orders.get o with
    | none => rfl
    | some b =>
      obtain ⟨r, m, pf⟩ := inv.placed o b e
      exact absurd pf.order (fresh r m)
  have rows : ∀ (j : Nat) r, w.db.reservations[j]? = some r →
      (linkReservation w.db i o).reservations[j]? =
        some (if j = i then { r with orderId := some o } else r) := by
    intro j r e
    rw [linkReservation, getElem?_amend, e]
    by_cases eq : j = i
    · subst eq
      rw [get] at e
      cases e
      simp [unlinked]
    · rw [if_neg (Ne.symm eq), if_neg eq]
  have quiet : Quiet w { w with db := linkReservation w.db i o } := by
    refine ⟨by simp [linkReservation], ?_, rfl, rfl⟩
    intro j r r' e e'
    rw [show (linkReservation w.db i o).reservations[j]? = _ from rows j r e] at e'
    cases e'
    by_cases eq : j = i
    · subst eq
      rw [get] at e
      cases e
      rw [if_pos rfl]
      refine ⟨⟨rfl, rfl, rfl⟩, ?_, ?_, fun h => h⟩
      · simp [World.executed, World.placed, unlinked, absent]
      · simp [World.unfilled, World.placed, unlinked, absent]
    · rw [if_neg eq]
      exact ⟨.refl r, rfl, le_rfl, fun h => h⟩
  have back : ∀ (j : Nat) r', (linkReservation w.db i o).reservations[j]? = some r' →
      ∃ r, w.db.reservations[j]? = some r ∧
        r' = if j = i then { r with orderId := some o } else r := by
    intro j r' e'
    obtain ⟨r, e⟩ := quiet.get' e'
    rw [rows j r e] at e'
    exact ⟨r, e, (some.inj e').symm⟩
  refine ⟨?_, quiet⟩
  refine
    { balanced := inv.balanced.link
      canonical := quiet.canonical inv
      linked := ?_
      persisted := ?_
      placed := ?_
      filled := inv.filled
      booked := inv.booked
      conserved := quiet.conserved inv
      listed := inv.listed
      safe := quiet.safe inv }
  · intro j k r r' o' ej ek lj lk
    obtain ⟨x, ex, rfl⟩ := back j r ej
    obtain ⟨y, ey, rfl⟩ := back k r' ek
    by_cases hj : j = i <;> by_cases hk : k = i
    · rw [hj, hk]
    · rw [if_pos hj] at lj
      rw [if_neg hk] at lk
      cases lj
      exact absurd lk (fresh y (mem_of_getElem? ey))
    · rw [if_neg hj] at lj
      rw [if_pos hk] at lk
      cases lk
      exact absurd lj (fresh x (mem_of_getElem? ex))
    · rw [if_neg hj] at lj
      rw [if_neg hk] at lk
      exact inv.linked j k x y o' ex ey lj lk
  · intro r' m o' e
    obtain ⟨j, ej⟩ := mem_iff_getElem?.1 m
    obtain ⟨x, ex, rfl⟩ := back j r' ej
    split at e
    · cases e; exact here
    · exact inv.persisted x (mem_of_getElem? ex) o' e
  · intro o' b e
    obtain ⟨r, m, pf⟩ := inv.placed o' b e
    obtain ⟨j, ej⟩ := mem_iff_getElem?.1 m
    have ne : j ≠ i := by
      rintro rfl
      rw [get] at ej
      cases ej
      exact absurd pf.order (by simp [unlinked])
    have ej' := rows j r ej
    rw [if_neg ne] at ej'
    exact ⟨r, mem_of_getElem? ej', pf⟩

lemma WorldInv.settleItem (inv : WorldInv L w) {it : SettleItem} (ld : Loaded w.db it)
    (held : HeldNow w.db it) (dead : NotLive w it) :
    WorldInv L { w with db := settleItem w.db it } ∧
      Quiet w { w with db := settleItem w.db it } := by
  have rows : ∀ (j : Nat) r, w.db.reservations[j]? = some r →
      (Risk.settleItem w.db it).reservations[j]? = some (if j = it.id then
        { r with state := it.state, releaseReason := some it.reason } else r) := by
    intro j r e
    rw [settleItem_reservations, getElem?_amend, e]
    by_cases eq : j = it.id
    · rw [if_pos eq.symm, if_pos eq]; rfl
    · rw [if_neg (Ne.symm eq), if_neg eq]
  have quiet : Quiet w { w with db := Risk.settleItem w.db it } := by
    refine ⟨by simp [settleItem_reservations], ?_, rfl, rfl⟩
    intro j r r' e e'
    rw [show (Risk.settleItem w.db it).reservations[j]? = _ from rows j r e] at e'
    cases e'
    by_cases eq : j = it.id
    · rw [if_pos eq]
      refine ⟨⟨rfl, rfl, rfl⟩, rfl, ?_, fun _ => ld.leaves⟩
      have pos := inv.unfilled_nonneg (mem_of_getElem? e)
      rw [eq] at e
      have closed := dead r e
      unfold World.unfilled World.placed at pos ⊢
      cases p : r.orderId.bind w.broker.orders.get with
      | none => rw [p] at pos; simpa [p, ld.leaves] using pos
      | some b =>
        have shut : b.live = false := closed b p
        simp [shut]
    · rw [if_neg eq]
      exact ⟨.refl r, rfl, le_rfl, fun h => h⟩
  have back : ∀ (j : Nat) r', (Risk.settleItem w.db it).reservations[j]? = some r' →
      ∃ r, w.db.reservations[j]? = some r ∧ r'.orderId = r.orderId := by
    intro j r' e'
    obtain ⟨r, e⟩ := quiet.get' e'
    rw [rows j r e] at e'
    refine ⟨r, e, ?_⟩
    rw [← some.inj e']
    split <;> rfl
  refine ⟨?_, quiet⟩
  refine
    { balanced := inv.balanced.settleItem ld held
      canonical := quiet.canonical inv
      linked := ?_
      persisted := ?_
      placed := ?_
      filled := inv.filled
      booked := ?_
      conserved := quiet.conserved inv
      listed := inv.listed
      safe := quiet.safe inv }
  · intro j k r r' o ej ek lj lk
    obtain ⟨x, ex, ox⟩ := back j r ej
    obtain ⟨y, ey, oy⟩ := back k r' ek
    exact inv.linked j k x y o ex ey (ox ▸ lj) (oy ▸ lk)
  · intro r' m o e
    obtain ⟨j, ej⟩ := mem_iff_getElem?.1 m
    obtain ⟨x, ex, ox⟩ := back j r' ej
    have len := inv.persisted x (mem_of_getElem? ex) o (ox ▸ e)
    rw [settleItem_frame]
    exact len
  · intro o b e
    obtain ⟨r, m, pf⟩ := inv.placed o b e
    obtain ⟨j, ej⟩ := mem_iff_getElem?.1 m
    refine ⟨_, mem_of_getElem? (rows j r ej), ?_⟩
    by_cases eq : j = it.id
    · rw [if_pos eq]
      refine ⟨pf.order, pf.account, pf.symbol, pf.qty, fun live => ?_⟩
      rw [eq] at ej
      have closed := dead r ej b (by simp [World.placed, pf.order]; exact e)
      rw [closed] at live
      cases live
    · rw [if_neg eq]
      exact pf
  · intro o
    rw [settleItem_frame]
    exact inv.booked o

lemma Quiet.trans {w w' w'' : World} (q : Quiet w w') (q' : Quiet w' w'') : Quiet w w'' := by
  refine ⟨q'.length.trans q.length, ?_, q'.long.trans q.long, q'.listed.trans q.listed⟩
  intro i r r'' e e''
  obtain ⟨r', e'⟩ := q.get e
  obtain ⟨s1, x1, u1, o1⟩ := q.rows i r r' e e'
  obtain ⟨s2, x2, u2, o2⟩ := q'.rows i r' r'' e' e''
  exact ⟨s1.trans s2, x2.trans x1, u2.trans u1, fun h => o2 (o1 h)⟩

lemma Quiet.refl (w : World) : Quiet w w := by
  refine ⟨rfl, ?_, rfl, rfl⟩
  intro i r r' e e'
  rw [e] at e'
  cases e'
  exact ⟨.refl r, rfl, le_rfl, fun h => h⟩

lemma WorldInv.settleWrite (inv : WorldInv L w) {items : List SettleItem}
    (sel : Selected w.db items) (ok : ∀ it ∈ items, HeldNow w.db it ∧ NotLive w it) :
    WorldInv L { w with db := settleWrite w.db items } ∧
      Quiet w { w with db := settleWrite w.db items } := by
  induction items generalizing w with
  | nil => exact ⟨inv, .refl w⟩
  | cons it items ih =>
    obtain ⟨distinct, loaded⟩ := sel
    rw [pairwise_cons] at distinct
    obtain ⟨held, dead⟩ := ok it mem_cons_self
    obtain ⟨inv', quiet⟩ := inv.settleItem (loaded it mem_cons_self) held dead
    have rest : ∀ x ∈ items, (Risk.settleItem w.db it).reservations[x.id]? =
        w.db.reservations[x.id]? := fun x m => by
      rw [settleItem_reservations, getElem?_amend_of_ne (distinct.1 x m)]
    obtain ⟨inv'', quiet'⟩ := ih inv'
      ⟨distinct.2, fun x m => (loaded x (mem_cons_of_mem _ m)).mono .settleItem⟩
      (fun x m => by
        obtain ⟨h, d⟩ := ok x (mem_cons_of_mem _ m)
        refine ⟨?_, ?_⟩
        · unfold HeldNow at h ⊢; rw [rest x m]; exact h
        · unfold NotLive at d ⊢; rw [rest x m]; exact d)
    exact ⟨inv'', quiet.trans quiet'⟩

lemma WorldInv.fill (inv : WorldInv L w) {b : BrokerOrder} {qty : ℚ}
    (get : w.broker.orders.get o = some b) (live : b.live = true) (pos : 0 < qty) (fits : b.filled + qty ≤ b.qty) :
    WorldInv L { w with broker := w.broker.fill o b qty } ∧
      Later w { w with broker := w.broker.fill o b qty } := by
  set w' : World := { w with broker := w.broker.fill o b qty } with def_w'
  have orders : ∀ o', w'.broker.orders.get o' = if o' = o then some { b with
      filled := b.filled + qty, live := b.filled + qty < b.qty } else w.broker.orders.get o' :=
    fun o' => get_set
  have long : ∀ a sym, w'.broker.long a sym =
      if (a, sym) = (b.accountId, b.symbol) then w.broker.long a sym - qty
      else w.broker.long a sym := fun _ _ => rfl
  obtain ⟨row, m, pf⟩ := inv.placed o b get
  obtain ⟨i, ei⟩ := mem_iff_getElem?.1 m
  -- what one row gains and what it loses
  let part (r : RiskReservation) : ℚ := if r.orderId = some o then qty else 0
  have executed : ∀ r, w'.executed r = w.executed r + part r := by
    intro r
    unfold World.executed World.placed
    cases link : r.orderId with
    | none => simp [part, link]
    | some o' =>
      simp only [bind_some, orders, part, link, some.injEq]
      split
      · rename_i eq; rw [eq, get]; rfl
      · simp
  have unfilled : ∀ r ∈ w.db.reservations, w'.unfilled r = w.unfilled r - part r := by
    intro r _
    unfold World.unfilled World.placed
    cases link : r.orderId with
    | none => simp [part, link]
    | some o' =>
      simp only [bind_some, orders, part, link, some.injEq]
      by_cases eq : o' = o
      · simp only [eq, get, if_true, live]
        split
        · ring
        · rename_i full
          have : b.filled + qty = b.qty := le_antisymm fits (not_lt.1 (by simpa using full))
          linarith
      · rw [if_neg eq, if_neg eq, sub_zero]
  have moved : ∀ a sym, w.sum a sym part =
      if (a, sym) = (b.accountId, b.symbol) then qty else 0 := by
    intro a sym
    unfold World.sum
    rw [total_single ei]
    · simp only [part, pf.order, if_true, pf.account, pf.symbol, Prod.mk.injEq]
      grind
    · intro j r' e' ne
      have : r'.orderId ≠ some o := fun link => ne (inv.linked j i r' row o e' ei link pf.order)
      simp [part, this]
  have later : Later w w' := by
    intro j r e
    refine ⟨r, e, .refl r, ?_, fun out => ⟨out, ?_⟩⟩
    · rw [executed]
      have : 0 ≤ part r := by unfold part; split <;> linarith
      linarith
    · rw [executed]
      have : r.orderId ≠ some o := by
        intro link
        have same := inv.linked j i r row o e ei link pf.order
        rw [same, ei] at e
        cases e
        exact out (pf.held live)
      simp [part, this]
  refine ⟨?_, later⟩
  refine
    { balanced := inv.balanced
      canonical := inv.canonical
      linked := inv.linked
      persisted := inv.persisted
      placed := ?_
      filled := ?_
      booked := ?_
      conserved := ?_
      listed := inv.listed
      safe := ?_ }
  · intro o' b' e
    rw [orders] at e
    split at e
    · rename_i eq
      cases e
      rw [eq]
      exact ⟨row, m, ⟨pf.order, pf.account, pf.symbol, pf.qty, fun _ => pf.held live⟩⟩
    · exact inv.placed o' b' e
  · intro o' b' e
    rw [orders] at e
    split at e
    · cases e
      exact ⟨by linarith [(inv.filled o b get).1], fits⟩
    · exact inv.filled o' b' e
  · intro o'
    refine (inv.booked o').trans ?_
    rw [orders]
    split
    · rename_i eq; rw [eq, get]; simpa using pos.le
    · exact le_rfl
  · intro a sym
    have split : w'.sum a sym w'.executed = w.sum a sym w.executed + w.sum a sym part := by
      rw [← sum_add]
      exact total_congr fun r _ => by rw [executed]
    rw [split, moved, long, ← inv.conserved a sym]
    grind
  · intro a sym
    have split : w'.approvedUnfilled a sym + w.sum a sym part = w.approvedUnfilled a sym := by
      rw [World.approvedUnfilled, World.approvedUnfilled, World.sum, World.sum, World.sum,
        ← total_add]
      refine total_congr fun r m => ?_
      rw [unfilled r m]
      split <;> ring
    have safe := inv.safe a sym
    rw [moved] at split
    rw [long]
    grind

lemma WorldInv.decideWrite (inv : WorldInv L w) {a : Nat} {snap : AccountSnapshot}
    {action : ProposedAction} {args : DecideArgs} {now : Instant}
    (sub : action.action = .orderSubmit ∨ action.qty = none) (room : ∀ q, grantedQty w.db a snap action = some q →
      w.approvedUnfilled a (upper action.symbol) + q ≤ w.broker.long a (upper action.symbol)) :
    WorldInv L { w with db := (decideWrite w.db a snap action args now).1 } ∧
      Later w { w with db := (decideWrite w.db a snap action args now).1 } := by
  set db' := (Risk.decideWrite w.db a snap action args now).1 with def_db'
  set w' : World := { w with db := db' } with def_w'
  set new := ((grantedQty w.db a snap action).map
    (newReservation w.db a (upper action.symbol) · snap now)).toList with def_new
  have rows : db'.reservations = w.db.reservations ++ new := decideWrite_reservations
  obtain ⟨c, rs, l, frame⟩ := @decideWrite_frame w.db a snap action args now
  -- the new row is HELD, unlinked and in upper case
  have fresh : ∀ r ∈ new, r.orderId = none ∧ r.state = .held ∧ upper r.symbol = r.symbol := by
    intro r m
    rw [def_new, mem_toList] at m
    obtain ⟨q, -, rfl⟩ := map_eq_some_iff.1 m
    exact ⟨rfl, rfl, upper_upper _⟩
  have old : ∀ (i : Nat) r o, db'.reservations[i]? = some r → r.orderId = some o →
      w.db.reservations[i]? = some r := by
    intro i r o e link
    rw [rows, getElem?_append] at e
    split at e
    · exact e
    · exact absurd link (by simp [(fresh r (mem_of_getElem? e)).1])
  have sums : ∀ a' sym f, w'.sum a' sym f = w.sum a' sym f +
      Table.total (fun r => if r.accountId = a' ∧ r.symbol = sym then f r else 0) new := by
    intro a' sym f
    show Table.total _ db'.reservations = _
    rw [rows, total_append]
    rfl
  have later : Later w w' := by
    intro i r e
    refine ⟨r, ?_, .refl r, le_rfl, fun out => ⟨out, rfl⟩⟩
    show db'.reservations[i]? = some r
    rw [rows, getElem?_append_left (List.getElem?_eq_some_iff.1 e).1]
    exact e
  refine ⟨?_, later⟩
  refine
    { balanced := inv.balanced.decideWrite sub
      canonical := ?_
      linked := ?_
      persisted := ?_
      placed := ?_
      filled := inv.filled
      booked := ?_
      conserved := ?_
      listed := inv.listed
      safe := ?_ }
  · intro r m
    rw [show w'.db.reservations = _ from rows] at m
    rcases mem_append.1 m with m | m
    · exact inv.canonical r m
    · exact (fresh r m).2.2
  · intro i j r r' o ei ej li lj
    exact inv.linked i j r r' o (old i r o ei li) (old j r' o ej lj) li lj
  · intro r m o link
    obtain ⟨i, ei⟩ := mem_iff_getElem?.1 m
    have len := inv.persisted r (mem_of_getElem? (old i r o ei link)) o link
    have same : db'.orders = w.db.orders := by rw [def_db', frame]
    rw [← same] at len
    exact len
  · intro o b e
    obtain ⟨r, m, pf⟩ := inv.placed o b e
    refine ⟨r, ?_, pf⟩
    show r ∈ db'.reservations
    rw [rows]
    exact mem_append_left _ m
  · intro o
    have same : db'.filledQty o = w.db.filledQty o := by
      unfold Db.filledQty
      rw [def_db', frame]
    exact same.le.trans (inv.booked o)
  · intro a' sym
    have zero : Table.total (fun r : RiskReservation =>
        if r.accountId = a' ∧ r.symbol = sym then w'.executed r else 0) new = 0 := by
      rw [Table.total, sum_eq_zero]
      intro x m
      obtain ⟨r, mr, rfl⟩ := mem_map.1 m
      simp [World.executed, World.placed, (fresh r mr).1]
    rw [sums, zero, add_zero]
    exact inv.conserved a' sym
  · intro a' sym
    have safe := inv.safe a' sym
    have open_eq : w'.approvedUnfilled a' sym = w.approvedUnfilled a' sym + Table.total
        (fun r => if r.accountId = a' ∧ r.symbol = sym then w.unfilled r else 0) new := sums a' sym _
    rw [open_eq]
    refine le_trans ?_ (le_refl (w.broker.long a' sym))
    cases g : grantedQty w.db a snap action with
    | none =>
      rw [def_new, g]
      simpa using safe
    | some q =>
      have le := room q g
      have part : w.unfilled (newReservation w.db a (upper action.symbol) q snap now) = q := rfl
      rw [def_new, g]
      simp only [map_some, toList_some, total_cons, total_nil, add_zero, part]
      by_cases key : a = a' ∧ upper action.symbol = sym
      · obtain ⟨rfl, rfl⟩ := key
        simpa [newReservation] using le
      · have other : ¬((newReservation w.db a (upper action.symbol) q snap now).accountId = a' ∧
            (newReservation w.db a (upper action.symbol) q snap now).symbol = sym) := key
        rw [if_neg other, add_zero]
        exact safe

end Operations

/-! ## Sessions -/

def Session.reservation : Session → Option Nat
  | .approved _ _ r | .persisted _ _ r _ | .linked _ _ r _ => some r
  | _ => none

def Session.order : Session → Option Nat
  | .persisted _ _ _ o | .linked _ _ _ o => some o
  | _ => none

/-- The row was reserved for this action. -/
structure ReservedFor (a : Nat) (action : ProposedAction) (row : RiskReservation) : Prop where
  account : row.accountId = a
  symbol : row.symbol = upper action.symbol
  qty : action.qty = some row.qty

/-- What a session remembers is true of the world. -/
def Session.Ok (L : Nat → String → ℚ) (w : World) : Session → Prop
  | .idle => True
  | .deciding _ action v _ =>
    (action.action = .orderSubmit ∨ action.qty = none) ∧ WorldInv L v ∧ Later v w
  | .approved a action r =>
    ∃ row, w.db.reservations[r]? = some row ∧ ReservedFor a action row ∧ row.orderId = none
  | .persisted a action r o =>
    (∃ row, w.db.reservations[r]? = some row ∧ ReservedFor a action row ∧ row.orderId = none) ∧
      o < w.db.orders.length ∧ ∀ row ∈ w.db.reservations, row.orderId ≠ some o
  | .linked a action r o =>
    (∃ row, w.db.reservations[r]? = some row ∧ ReservedFor a action row ∧ row.orderId = some o) ∧
      w.broker.orders.get o = none
  | .settling items => Selected w.db items

/-- The world moved from `w` to `w'` without touching what a session is placing. -/
structure Undisturbed (c : Session) (w w' : World) : Prop where
  later : Later w w'
  link : ∀ r, c.reservation = some r → ∀ row, w.db.reservations[r]? = some row →
    ∃ row', w'.db.reservations[r]? = some row' ∧ SameRow row row' ∧ row'.orderId = row.orderId
  orders : w.db.orders.length ≤ w'.db.orders.length
  unlinked : ∀ o, c.order = some o → (∀ row ∈ w.db.reservations, row.orderId ≠ some o) →
    ∀ row ∈ w'.db.reservations, row.orderId ≠ some o
  unplaced : ∀ o, c.order = some o → w.broker.orders.get o = none → w'.broker.orders.get o = none

lemma ReservedFor.same {a : Nat} {action : ProposedAction} {row row' : RiskReservation}
    (h : ReservedFor a action row) (same : SameRow row row') : ReservedFor a action row' :=
  ⟨same.account.trans h.account, same.symbol.trans h.symbol, by rw [same.qty]; exact h.qty⟩

lemma Later.rowsKept {v : World} (h : Later v w) : RowsKept v.db w.db := by
  intro i r e
  obtain ⟨r', e', same, -⟩ := h i r e
  exact ⟨r', e', same⟩

lemma Session.Ok.mono {L : Nat → String → ℚ} {w' : World} (ok : c.Ok L w) (u : Undisturbed c w w') : c.Ok L w' := by
  cases c with
  | idle => trivial
  | deciding a action v quote => exact ⟨ok.1, ok.2.1, ok.2.2.trans u.later⟩
  | approved a action r =>
    obtain ⟨row, e, rf, link⟩ := ok
    obtain ⟨row', e', same, link'⟩ := u.link r rfl row e
    exact ⟨row', e', rf.same same, link'.trans link⟩
  | persisted a action r o =>
    obtain ⟨⟨row, e, rf, link⟩, here, fresh⟩ := ok
    obtain ⟨row', e', same, link'⟩ := u.link r rfl row e
    exact ⟨⟨row', e', rf.same same, link'.trans link⟩, here.trans_le u.orders, u.unlinked o rfl fresh⟩
  | linked a action r o =>
    obtain ⟨⟨row, e, rf, link⟩, absent⟩ := ok
    obtain ⟨row', e', same, link'⟩ := u.link r rfl row e
    exact ⟨⟨row', e', rf.same same, link'.trans link⟩, u.unplaced o rfl absent⟩
  | settling items => exact ⟨ok.distinct, fun it m => (ok.loaded it m).mono u.later.rowsKept⟩

/-- The invariant of the system. -/
structure OversellInv (L : Nat → String → ℚ) (s : State) : Prop where
  world : WorldInv L s.world
  ok : ∀ p, (s.sessions p).Ok L s.world
  reservations : ∀ p p' r, (s.sessions p).reservation = some r →
    (s.sessions p').reservation = some r → p = p'
  orders : ∀ p p' o, (s.sessions p).order = some o → (s.sessions p').order = some o → p = p'

lemma OversellInv.move {L : Nat → String → ℚ} {s : State} {w' : World} {p : Nat}
    (inv : OversellInv L s) (world : WorldInv L w') (ok : c.Ok L w')
    (others : ∀ p', p' ≠ p → Undisturbed (s.sessions p') s.world w')
    (res : ∀ r, c.reservation = some r → ∀ p', p' ≠ p → (s.sessions p').reservation ≠ some r)
    (ord : ∀ o, c.order = some o → ∀ p', p' ≠ p → (s.sessions p').order ≠ some o) :
    OversellInv L ⟨w', Function.update s.sessions p c⟩ := by
  refine ⟨world, ?_, ?_, ?_⟩
  · intro p'
    show (Function.update s.sessions p c p').Ok L w'
    rw [update_apply]
    split
    · exact ok
    · rename_i ne; exact (inv.ok p').mono (others p' ne)
  · intro p1 p2 r e1 e2
    simp only [update_apply] at e1 e2
    split at e1 <;> split at e2 <;> rename_i h1 h2
    · rw [h1, h2]
    · exact absurd e2 (res r e1 p2 h2)
    · exact absurd e1 (res r e2 p1 h1)
    · exact inv.reservations p1 p2 r e1 e2
  · intro p1 p2 o e1 e2
    simp only [update_apply] at e1 e2
    split at e1 <;> split at e2 <;> rename_i h1 h2
    · rw [h1, h2]
    · exact absurd e2 (ord o e1 p2 h2)
    · exact absurd e1 (ord o e2 p1 h1)
    · exact inv.orders p1 p2 o e1 e2

/-- The order each reservation is linked to, in order. -/
def links (db : Db) : List (Option Nat) := db.reservations.map (·.orderId)

lemma Undisturbed.of_links {w' : World} {n : Nat} (later : Later w w')
    (eq : links w'.db = links w.db ++ List.replicate n none) (orders : w.db.orders.length ≤ w'.db.orders.length)
    (unplaced : ∀ o, c.order = some o → w.broker.orders.get o = none →
      w'.broker.orders.get o = none) : Undisturbed c w w' := by
  refine ⟨later, ?_, orders, ?_, unplaced⟩
  · intro r _ row e
    obtain ⟨row', e', same, -⟩ := later r row e
    refine ⟨row', e', same, ?_⟩
    have at_r : (links w'.db)[r]? = some row'.orderId := by simp [links, e']
    have len : r < (links w.db).length := by
      simpa [links] using (List.getElem?_eq_some_iff.1 e).1
    rw [eq, getElem?_append_left len] at at_r
    simpa [links, e] using at_r.symm
  · intro o _ fresh row' m link
    have mem : some o ∈ links w'.db := by
      rw [← link]
      exact mem_map_of_mem m
    rw [eq] at mem
    rcases mem_append.1 mem with mem | mem
    · obtain ⟨row, mr, e⟩ := mem_map.1 mem
      exact fresh row mr e
    · exact absurd (eq_of_mem_replicate mem) (by simp)

lemma links_settleWrite {db : Db} {items : List SettleItem} : links (settleWrite db items) = links db := by
  induction items generalizing db with
  | nil => rfl
  | cons it items ih =>
    refine ih.trans ?_
    unfold links
    rw [settleItem_reservations]
    refine ext_getElem? fun j => ?_
    rw [getElem?_map, getElem?_map, getElem?_amend]
    split
    · cases db.reservations[j]? <;> rfl
    · rfl

lemma links_decideWrite {db : Db} {a : Nat} {snap : AccountSnapshot} {action : ProposedAction}
    {args : DecideArgs} {now : Instant} :
    ∃ n, links (decideWrite db a snap action args now).1 = links db ++ List.replicate n none := by
  unfold links
  rw [decideWrite_reservations, map_append]
  cases grantedQty db a snap action with
  | none => exact ⟨0, rfl⟩
  | some q => exact ⟨1, rfl⟩

lemma Undisturbed.of_link {i o : Nat} (later : Later w { w with db := linkReservation w.db i o })
    (res : c.reservation ≠ some i) (ord : c.order ≠ some o) :
    Undisturbed c w { w with db := linkReservation w.db i o } := by
  refine ⟨later, ?_, le_rfl, ?_, fun _ _ h => h⟩
  · intro r own x e
    refine ⟨x, ?_, .refl x, rfl⟩
    have ne : i ≠ r := fun h => res (h ▸ own)
    show (Table.amend _ _ _)[r]? = _
    rw [getElem?_amend_of_ne ne]
    exact e
  · intro o' own fresh x m link
    obtain ⟨j, e⟩ := mem_iff_getElem?.1 m
    change (Table.amend _ _ _)[j]? = _ at e
    rw [getElem?_amend] at e
    split at e
    · obtain ⟨y, ey, rfl⟩ := map_eq_some_iff.1 e
      split at link
      · cases link; exact ord own
      · exact fresh y (mem_of_getElem? ey) link
    · exact fresh x (mem_of_getElem? e) link

section Steps
variable {r a : Nat} {action : ProposedAction} {L : Nat → String → ℚ} {s : State} {p : Nat}

lemma Session.Ok.reservation_lt {c : Session} {w : World} (ok : c.Ok L w)
    (own : c.reservation = some r) : r < w.db.reservations.length := by
  cases c with
  | approved a action r' =>
    cases own
    obtain ⟨row, get, -⟩ := ok
    exact (List.getElem?_eq_some_iff.1 get).1
  | persisted a action r' o =>
    cases own
    obtain ⟨⟨row, get, -⟩, -⟩ := ok
    exact (List.getElem?_eq_some_iff.1 get).1
  | linked a action r' o =>
    cases own
    obtain ⟨⟨row, get, -⟩, -⟩ := ok
    exact (List.getElem?_eq_some_iff.1 get).1
  | _ => cases own

lemma Session.Ok.order_lt {c : Session} {w : World} {o : Nat} (inv : WorldInv L w) (ok : c.Ok L w)
    (own : c.order = some o) : o < w.db.orders.length := by
  cases c with
  | persisted a action r o' => cases own; exact ok.2.1
  | linked a action r o' =>
    cases own
    obtain ⟨⟨row, get, -, link⟩, -⟩ := ok
    exact inv.persisted row (mem_of_getElem? get) _ link
  | _ => cases own

lemma OversellInv.park (inv : OversellInv L s) {c : Session} (ok : c.Ok L s.world)
    (res : c.reservation = none) (ord : c.order = none) : OversellInv L (s.move p c) := by
  refine inv.move inv.world ok ?_ (by simp [res]) (by simp [ord])
  exact fun _ _ => .of_links (n := 0) (.refl _) (by simp) le_rfl fun _ _ h => h

lemma OversellInv.decideWrite {args : DecideArgs} {now : Instant}
    {v : World} {quote : Option Quote} (inv : OversellInv L s) (e : s.sessions p = .deciding a action v quote)
    (ok : NoneApproved v s.world a (upper action.symbol) ∨
      NoneSettled v s.world a (upper action.symbol)) : OversellInv L
      ((s.setDb (decideWrite s.world.db a (viewSnapshot v a quote) action args now).1).move p
        (afterDecision a action ((grantedQty s.world.db a (viewSnapshot v a quote) action).map
          fun _ => s.world.db.reservations.length))) := by
  have here := inv.ok p
  rw [e] at here
  obtain ⟨sub, iv, later⟩ := here
  obtain ⟨world, later'⟩ := @WorldInv.decideWrite L s.world inv.world a (viewSnapshot v a quote)
    action args now sub (fun q g => WorldInv.approve iv inv.world later sub g ok)
  obtain ⟨c, rs, l, frame⟩ := @decideWrite_frame s.world.db a (viewSnapshot v a quote) action args now
  obtain ⟨n, eq⟩ := @links_decideWrite s.world.db a (viewSnapshot v a quote) action args now
  have orders : (Risk.decideWrite s.world.db a (viewSnapshot v a quote) action args now).1.orders =
    s.world.db.orders := by rw [frame]
  have rows := @decideWrite_reservations s.world.db a (viewSnapshot v a quote) action args now
  have others : ∀ p', p' ≠ p → Undisturbed (s.sessions p') s.world
      ⟨(Risk.decideWrite s.world.db a (viewSnapshot v a quote) action args now).1, s.world.broker⟩ :=
    fun _ _ => .of_links later' eq (by rw [orders]) fun _ _ h => h
  cases g : grantedQty s.world.db a (viewSnapshot v a quote) action with
  | none =>
    exact inv.move world trivial others (by simp [afterDecision, Session.reservation])
      (by simp [afterDecision, Session.order])
  | some q =>
    refine inv.move world ⟨newReservation s.world.db a (upper action.symbol) q
      (viewSnapshot v a quote) now, ?_, ⟨rfl, rfl, ?_⟩, rfl⟩ others ?_
      (by simp [afterDecision, Session.order])
    · show (Risk.decideWrite s.world.db a _ action args now).1.reservations[_]? = _
      rw [rows, g]
      simp
    · rw [grantedQty, filter_eq_some_iff] at g
      exact g.1
    · -- the new reservation has a fresh id, so no other session can be placing it
      intro r own p' _ other
      cases own
      exact absurd ((inv.ok p').reservation_lt other) (lt_irrefl _)

lemma OversellInv.persist {symbolId userId : Nat} {now : Instant} (inv : OversellInv L s)
    (e : s.sessions p = .approved a action r) : OversellInv L ((s.setDb { s.world.db with
      orders := s.world.db.orders ++ [newOrder a action symbolId userId now] }).move p
        (.persisted a action r s.world.db.orders.length)) := by
  have here := inv.ok p
  rw [e] at here
  have len : s.world.db.orders.length ≤
      (s.world.db.orders ++ [newOrder a action symbolId userId now]).length := by simp
  refine inv.move (inv.world.orders len) ⟨here, by simp, ?_⟩
    (fun _ _ => .of_links (n := 0) (.refl _) (by simp [links]) len fun _ _ h => h) ?_ ?_
  · intro row m link
    exact absurd (inv.world.persisted row m _ link) (lt_irrefl _)
  · intro r' own p' ne other
    cases own
    exact ne (inv.reservations p' p r other (by rw [e]; rfl))
  · intro o own p' ne other
    cases own
    exact absurd ((inv.ok p').order_lt inv.world other) (lt_irrefl _)

lemma OversellInv.link {o : Nat} (inv : OversellInv L s) (e : s.sessions p = .persisted a action r o) :
    OversellInv L ((s.setDb (linkReservation s.world.db r o)).move p (.linked a action r o)) := by
  have here := inv.ok p
  rw [e] at here
  obtain ⟨⟨row, get, rf, unlinked⟩, hereO, fresh⟩ := here
  obtain ⟨world, quiet⟩ := inv.world.link get unlinked fresh hereO
  have res : ∀ p', p' ≠ p → (s.sessions p').reservation ≠ some r :=
    fun p' ne other => ne (inv.reservations p' p r other (by rw [e]; rfl))
  have ord : ∀ p', p' ≠ p → (s.sessions p').order ≠ some o :=
    fun p' ne other => ne (inv.orders p' p o other (by rw [e]; rfl))
  refine inv.move world
    ⟨⟨{ row with orderId := some o }, ?_, ⟨rf.account, rf.symbol, rf.qty⟩, rfl⟩, ?_⟩
    (fun p' ne => .of_link quiet.later (res p' ne) (ord p' ne)) ?_ ?_
  · show (Table.amend _ _ _)[r]? = _
    rw [getElem?_amend_self get, if_pos unlinked]
  · cases g : s.world.broker.orders.get o with
    | none => exact g
    | some b =>
      obtain ⟨x, m, pf⟩ := inv.world.placed o b g
      exact absurd pf.order (fresh x m)
  · intro r' own
    cases own
    exact res
  · intro o' own
    cases own
    exact ord

lemma OversellInv.submit {bid : String} {o : Nat} (inv : OversellInv L s) (e : s.sessions p = .linked a action r o)
    (ok : ∃ row ∈ s.world.db.reservations[r]?, row.state = .held) :
    OversellInv L ((s.setBroker (s.world.broker.accept o
      ⟨bid, a, upper action.symbol, action.qty.getD 0, 0, true⟩)).move p .idle) := by
  have here := inv.ok p
  rw [e] at here
  obtain ⟨⟨row, get, rf, link⟩, absent⟩ := here
  simp only [get, mem_def, some.injEq, exists_eq_left'] at ok
  have pf : PlacedFor o ⟨bid, a, upper action.symbol, action.qty.getD 0, 0, true⟩ row :=
    ⟨link, rf.account, rf.symbol, by simp [rf.qty], fun _ => ok⟩
  obtain ⟨world, quiet⟩ := inv.world.accept get pf ok absent rfl rfl
  refine inv.move world trivial ?_ (by simp [Session.reservation]) (by simp [Session.order])
  intro p' ne
  refine .of_links (n := 0) quiet.later (by simp) le_rfl ?_
  intro o' own h
  have other : o' ≠ o := fun eq => ne (inv.orders p' p o (eq ▸ own) (by rw [e]; rfl))
  show (s.world.broker.orders.set o _).get o' = none
  rw [get_set_of_ne other]
  exact h

lemma OversellInv.settleWrite {items : List SettleItem} (inv : OversellInv L s) (e : s.sessions p = .settling items)
    (ok : ∀ it ∈ items, HeldNow s.world.db it ∧ NotLive s.world it) :
    OversellInv L ((s.setDb (settleWrite s.world.db items)).move p .idle) := by
  have sel := inv.ok p
  rw [e] at sel
  obtain ⟨world, quiet⟩ := inv.world.settleWrite sel ok
  refine inv.move world trivial ?_ (by simp [Session.reservation]) (by simp [Session.order])
  intro p' _
  refine .of_links (n := 0) quiet.later (by simp [links_settleWrite]) ?_ fun _ _ h => h
  exact (congrArg List.length settleWrite_orders).ge

lemma OversellInv.outside {w' : World} (inv : OversellInv L s) (world : WorldInv L w')
    (later : Later s.world w') (eq : links w'.db = links s.world.db)
    (orders : s.world.db.orders.length ≤ w'.db.orders.length)
    (unplaced : ∀ o, s.world.broker.orders.get o = none → w'.broker.orders.get o = none) :
    OversellInv L ⟨w', s.sessions⟩ :=
  ⟨world, fun p => (inv.ok p).mono (.of_links (n := 0) later (by simpa using eq) orders
    fun o _ => unplaced o), inv.reservations, inv.orders⟩

end Steps

lemma get_set_none {d : Dict Nat BrokerOrder} {o o' : Nat} {b b' : BrokerOrder}
    (get : d.get o = some b) (h : d.get o' = none) : (d.set o b').get o' = none := by
  rw [get_set_of_ne, h]
  rintro rfl
  rw [get] at h
  cases h

lemma OversellInv.step {L : Nat → String → ℚ} {s t : State} {l : Label} (inv : OversellInv L s)
    (ok : Orderly s l) (st : system.step s l = some t) : OversellInv L t := by
  cases Step.of_step st with
  | decideRead e sub => exact inv.park ⟨sub, inv.world, .refl _⟩ rfl rfl
  | decideWrite e =>
    simp only [Orderly, e, Session.Orderly] at ok
    exact inv.decideWrite e ok
  | persist e => exact inv.persist e
  | link e => exact inv.link e
  | submit e =>
    simp only [Orderly, e, Session.Orderly] at ok
    exact inv.submit e ok
  | abandon => exact inv.park trivial rfl rfl
  | brokerFill get live pos fits =>
    obtain ⟨world, later⟩ := inv.world.fill get live pos fits
    exact inv.outside world later rfl le_rfl fun o h => get_set_none get h
  | brokerCancel get =>
    obtain ⟨world, quiet⟩ := inv.world.cancel get
    exact inv.outside world quiet.later rfl le_rfl fun o h => get_set_none get h
  | ingest => exact inv.outside (inv.world.ingest ok) (.refl _) rfl le_rfl fun _ h => h
  | orderWrite =>
    exact inv.outside (inv.world.orders (by simp)) (.refl _) rfl (by simp) fun _ h => h
  | settleRead e => exact inv.park Selected.read rfl rfl
  | settleWrite e =>
    simp only [Orderly, e, Session.Orderly] at ok
    exact inv.settleWrite e ok

/-- A start: long positions only, nothing reserved, placed or filled, and every session idle. -/
structure Start (s : State) : Prop where
  idle : ∀ p, s.sessions p = .idle
  reservations : s.world.db.reservations = []
  fills : s.world.db.fills = []
  capacity : ∀ a sym, s.world.db.reservedQty a sym = 0
  orders : s.world.broker.orders = .empty
  listed : ∀ a, ∀ sym ∈ s.world.broker.listed a, upper sym = sym
  long : ∀ a sym, 0 ≤ s.world.broker.long a sym

lemma Start.inv {s : State} (start : Start s) : OversellInv s.world.broker.long s := by
  refine ⟨?_, ?_, ?_, ?_⟩
  · refine
      { balanced := ⟨?_, ?_⟩
        canonical := ?_
        linked := ?_
        persisted := ?_
        placed := ?_
        filled := ?_
        booked := ?_
        conserved := ?_
        listed := start.listed
        safe := ?_ }
    · simp [start.reservations]
    · intro a sym
      rw [start.capacity, Db.heldQty, start.reservations, total_nil]
    · simp [start.reservations]
    · simp [start.reservations]
    · simp [start.reservations]
    · simp [start.orders]
    · simp [start.orders]
    · simp [start.orders, start.fills, Db.filledQty]
    · intro a sym
      rw [World.sum, start.reservations, total_nil, add_zero]
    · intro a sym
      rw [World.approvedUnfilled, World.sum, start.reservations, total_nil]
      exact start.long a sym
  · intro p
    rw [start.idle p]
    trivial
  · intro p p' r own
    rw [start.idle p] at own
    cases own
  · intro p p' o own
    rw [start.idle p] at own
    cases own

/-- In every run of orderly steps, the approved sells of a key that are still to be filled never add
    up to more than the broker's long in it. -/
theorem approvedUnfilled_le_long {s t : State} {ls : List Label} (start : Start s)
    (orderly : system.Meets Orderly s ls) (e : system.run s ls = some t) (a : Nat) (sym : String) :
    t.world.approvedUnfilled a sym ≤ t.world.broker.long a sym :=
  (Machine.run_invariant OversellInv.step start.inv orderly e).world.safe a sym

lemma longTwoHundred_start : Start longTwoHundred := by
  refine ⟨fun _ => rfl, rfl, rfl, fun _ _ => rfl, rfl, ?_, ?_⟩
  · intro a sym m
    rw [mem_singleton.1 m]
    decide +kernel
  · intro a sym
    simp only [longTwoHundred]
    split <;> norm_num

def sellAll : List Label :=
  [.decideRead 1 1 (sellOf 200) (some fifty), .decideWrite 1 {} 0,
    .persist 1 0 1 0, .link 1, .submit 1 "b-1", .orderWrite 0 .submitted (some "b-1") 1,
    .brokerFill 0 200, .ingest ⟨0, some (.execution "e-1"), 200, 50, 2⟩,
    .orderWrite 0 .filled (some "b-1") 3,
    .settleRead 3 (.settle 0 true "ORDER_FILLED"), .settleWrite 3]

/-- A session that read before all of this still sells the position it saw. -/
theorem stale_view_oversells : ∃ t, system.run longTwoHundred
    ([.decideRead 2 1 (sellOf 200) (some fifty)] ++ sellAll ++ [.decideWrite 2 {} 4]) = some t ∧
    t.world.broker.long 1 "AAPL" = 0 ∧ t.world.approvedUnfilled 1 "AAPL" = 200 := by
  have ran : (system.run longTwoHundred
      ([.decideRead 2 1 (sellOf 200) (some fifty)] ++ sellAll ++ [.decideWrite 2 {} 4])).map
      (fun t => (t.world.broker.long 1 "AAPL", t.world.approvedUnfilled 1 "AAPL")) =
        some (0, 200) := by
    decide +kernel
  obtain ⟨t, e, h⟩ := map_eq_some_iff.1 ran
  exact ⟨t, e, (Prod.mk.inj h).1, (Prod.mk.inj h).2⟩

/-- Read again after the sale, the same decision finds no position. -/
theorem fresh_view_does_not_oversell : ∃ t, system.run longTwoHundred
    (sellAll ++ [.decideRead 2 1 (sellOf 200) (some fifty), .decideWrite 2 {} 4]) = some t ∧
    t.world.approvedUnfilled 1 "AAPL" ≤ t.world.broker.long 1 "AAPL" := by
  refine Machine.exists_run (by decide +kernel) fun t e => ?_
  exact approvedUnfilled_le_long longTwoHundred_start (by decide +kernel) e 1 "AAPL"

end Workbench.Capacity
