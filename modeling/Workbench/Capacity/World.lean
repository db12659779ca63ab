import Workbench.Capacity.Accumulator

/-!
# What the approved sells may still execute

`approvedUnfilled w a sym` is what is still to be filled of the approved sells of a key: the HELD
reservations that are not at the broker, and the remaining quantity of the live orders of the others.
`WorldInv` is the invariant of a world in which it never exceeds the broker's long; `Later` relates a
world to the one a session read before.

The main lemma is `WorldInv.approve`: a claim that is granted against an older world leaves room for
every approved sell of the current one, unless a reservation was approved *and* a filled one was
settled since the read.
-/

namespace Workbench.Capacity
open Workbench.Lib Workbench.Risk Workbench.Orders List Option Table

namespace World

/-- The broker order of a reservation, once its order was accepted. -/
def placed (w : World) (r : RiskReservation) : Option BrokerOrder := r.orderId.bind w.broker.orders.get

/-- What the broker has executed of a reservation. -/
def executed (w : World) (r : RiskReservation) : ℚ := ((w.placed r).map (·.filled)).getD 0

/-- What is still to be filled of an approved sell. -/
def unfilled (w : World) (r : RiskReservation) : ℚ :=
  match w.placed r with
  | some b => if b.live then b.qty - b.filled else 0
  | none => if r.state = .held then r.qty else 0

/-- `SUM(f)` over the reservations of `(account, symbol)`. -/
def sum (w : World) (a : Nat) (sym : String) (f : RiskReservation → ℚ) : ℚ :=
  Table.total (fun r => if r.accountId = a ∧ r.symbol = sym then f r else 0) w.db.reservations

/-- What is still to be filled of all approved sells of `(account, symbol)`. -/
def approvedUnfilled (w : World) (a : Nat) (sym : String) : ℚ := w.sum a sym w.unfilled

end World

def heldPart (r : RiskReservation) : ℚ := if r.state = .held then r.qty else 0

lemma heldQty_eq_sum {w : World} {a : Nat} {sym : String} : w.db.heldQty a sym = w.sum a sym heldPart := by
  refine total_congr fun r _ => ?_
  simp only [RiskReservation.heldFor, heldPart]
  grind

/-- The reservation an accepted order was placed for; a live order has a HELD one. -/
structure PlacedFor (o : Nat) (b : BrokerOrder) (r : RiskReservation) : Prop where
  order : r.orderId = some o
  account : r.accountId = b.accountId
  symbol : r.symbol = b.symbol
  qty : r.qty = b.qty
  held : b.live = true → r.state = .held

/-- The invariant of a world; `L` is what each account was long at the start. -/
structure WorldInv (L : Nat → String → ℚ) (w : World) : Prop where
  balanced : Balanced w.db
  canonical : ∀ r ∈ w.db.reservations, upper r.symbol = r.symbol
  linked : ∀ (i j : Nat) r r' o, w.db.reservations[i]? = some r → w.db.reservations[j]? = some r' →
    r.orderId = some o → r'.orderId = some o → i = j
  persisted : ∀ r ∈ w.db.reservations, ∀ o, r.orderId = some o → o < w.db.orders.length
  placed : ∀ o b, w.broker.orders.get o = some b → ∃ r ∈ w.db.reservations, PlacedFor o b r
  filled : ∀ o b, w.broker.orders.get o = some b → 0 ≤ b.filled ∧ b.filled ≤ b.qty
  booked : ∀ o, w.db.filledQty o ≤ ((w.broker.orders.get o).map (·.filled)).getD 0
  conserved : ∀ a sym, w.broker.long a sym + w.sum a sym w.executed = L a sym
  listed : ∀ a, ∀ sym ∈ w.broker.listed a, upper sym = sym
  safe : ∀ a sym, w.approvedUnfilled a sym ≤ w.broker.long a sym

namespace WorldInv

variable {L : Nat → String → ℚ} {w : World} {r : RiskReservation}

lemma placedFor (inv : WorldInv L w) (m : r ∈ w.db.reservations) {b : BrokerOrder}
    (e : w.placed r = some b) : ∃ o, PlacedFor o b r := by
  obtain ⟨o, link, get⟩ := bind_eq_some_iff.1 e
  obtain ⟨r', m', pf⟩ := inv.placed o b get
  obtain ⟨i, get_i⟩ := mem_iff_getElem?.1 m
  obtain ⟨j, get_j⟩ := mem_iff_getElem?.1 m'
  have eq := inv.linked i j r r' o get_i get_j link pf.order
  rw [eq, get_j] at get_i
  cases get_i
  exact ⟨o, pf⟩

lemma executed_bounds (inv : WorldInv L w) (m : r ∈ w.db.reservations) : 0 ≤ w.executed r ∧ w.executed r ≤ r.qty := by
  unfold World.executed
  cases e : w.placed r with
  | none => exact ⟨le_rfl, inv.balanced.pos r m⟩
  | some b =>
    obtain ⟨o, pf⟩ := inv.placedFor m e
    obtain ⟨o', -, get⟩ := bind_eq_some_iff.1 e
    rw [pf.qty]
    exact inv.filled o' b get

lemma unfilled_le_of_held (inv : WorldInv L w) (m : r ∈ w.db.reservations) (held : r.state = .held) :
    w.unfilled r + w.executed r ≤ r.qty := by
  have bounds := (inv.executed_bounds m).2
  unfold World.unfilled
  unfold World.executed at bounds ⊢
  cases e : w.placed r with
  | none => simp [held]
  | some b =>
    obtain ⟨o, pf⟩ := inv.placedFor m e
    simp only [e, map_some, getD_some] at bounds ⊢
    split
    · rw [pf.qty]; linarith
    · linarith

lemma unfilled_of_settled (inv : WorldInv L w) (m : r ∈ w.db.reservations) (out : r.state ≠ .held) :
    w.unfilled r = 0 := by
  unfold World.unfilled
  cases e : w.placed r with
  | none => simp [out]
  | some b =>
    obtain ⟨o, pf⟩ := inv.placedFor m e
    have dead : b.live = false := by
      by_contra live
      exact out (pf.held (by simpa using live))
    simp [dead]

lemma unfilled_nonneg (inv : WorldInv L w) (m : r ∈ w.db.reservations) : 0 ≤ w.unfilled r := by
  unfold World.unfilled
  cases e : w.placed r with
  | none =>
    dsimp only
    split
    · exact inv.balanced.pos r m
    · exact le_rfl
  | some b =>
    obtain ⟨o, -, get⟩ := bind_eq_some_iff.1 e
    dsimp only
    split
    · linarith [(inv.filled o b get).2]
    · exact le_rfl

lemma long_nonneg (inv : WorldInv L w) (a : Nat) (sym : String) : 0 ≤ w.broker.long a sym := by
  refine le_trans (total_nonneg fun r m => ?_) (inv.safe a sym)
  split
  · exact inv.unfilled_nonneg m
  · exact le_rfl

end WorldInv

/-! ## What a session read -/

/-- `w` is what the world `v` has become: rows keep their identity, what the broker executed only
    grows, and a reservation that had left HELD is finished. -/
def Later (v w : World) : Prop :=
  ∀ (i : Nat) r, v.db.reservations[i]? = some r → ∃ r', w.db.reservations[i]? = some r' ∧
    SameRow r r' ∧ v.executed r ≤ w.executed r' ∧
    (r.state ≠ .held → r'.state ≠ .held ∧ w.executed r' = v.executed r)

lemma Later.refl (w : World) : Later w w :=
  fun _ r get => ⟨r, get, .refl r, le_rfl, fun out => ⟨out, rfl⟩⟩

lemma Later.trans {u v w : World} (h : Later u v) (h' : Later v w) : Later u w := by
  intro i r get
  obtain ⟨r', get', same, le, done⟩ := h i r get
  obtain ⟨r'', get'', same', le', done'⟩ := h' i r' get'
  refine ⟨r'', get'', same.trans same', le.trans le', ?_⟩
  intro out
  obtain ⟨out', eq⟩ := done out
  obtain ⟨out'', eq'⟩ := done' out'
  exact ⟨out'', eq'.trans eq⟩

lemma Later.length_le {v w : World} (h : Later v w) : v.db.reservations.length ≤ w.db.reservations.length := by
  by_contra lt
  obtain ⟨r', get, -⟩ := h _ _ (getElem?_eq_getElem (not_le.1 lt))
  exact absurd (List.getElem?_eq_some_iff.1 get).1 (lt_irrefl _)

section View

variable {L : Nat → String → ℚ} {v : World} {a : Nat} {sym : String} {quote : Option Quote}

/-- What the broker executed of the reservations that are HELD, and of the others. -/
def World.heldExecuted (w : World) (r : RiskReservation) : ℚ :=
  if r.state = .held then w.executed r else 0

/-- What the broker executed of a reservation that left HELD. -/
def World.settledExecuted (w : World) (r : RiskReservation) : ℚ :=
  if r.state = .held then 0 else w.executed r

lemma viewSnapshot_positionQty (inv : WorldInv L v) :
    (viewSnapshot v a quote).positionQty sym = v.broker.long a sym ∨ (viewSnapshot v a quote).positionQty sym = 0 := by
  unfold AccountSnapshot.positionQty
  cases quote with
  | none => exact .inr rfl
  | some q =>
    have positions : (viewSnapshot v a (some q)).positions =
      snapshotPositions (v.broker.read a q) := rfl
    rw [positions]
    cases e : (snapshotPositions (v.broker.read a q)).get sym with
    | none => exact .inr rfl
    | some x =>
      left
      refine @snapshotPositions_get _ (fun k n => n = v.broker.long a k) ?_ _ _ e
      intro p m
      obtain ⟨k, mk, rfl⟩ := mem_map.1 m
      have canon := inv.listed a k (mem_filter.1 mk).1
      simp [signedQty, canon]

lemma heldExecuted_nonneg (inv : WorldInv L v) : 0 ≤ v.sum a sym v.heldExecuted := by
  refine total_nonneg fun r m => ?_
  have pos := (inv.executed_bounds m).1
  unfold World.heldExecuted
  split
  · split
    · exact pos
    · exact le_rfl
  · exact le_rfl

lemma absorbed_le (inv : WorldInv L v) (snap : AccountSnapshot) :
    ((absorbedReservedFillBySymbol snap v.db a).get sym).getD 0 ≤ v.sum a sym v.heldExecuted := by
  have fills : Table.total (·.capped) (absorptionRowsOf v.db a sym) ≤ v.sum a sym v.heldExecuted := by
    rw [absorptionRowsOf, total_filter, total_filterMap, heldRows, total_filter]
    refine total_le_total fun r m => ?_
    have bounds := inv.executed_bounds m
    have canon := inv.canonical r m
    have booked : (r.orderId.map v.db.filledQty).getD 0 ≤ v.executed r := by
      unfold World.executed World.placed
      cases r.orderId with
      | none => exact le_rfl
      | some o => exact inv.booked o
    unfold World.heldExecuted absorptionRow
    simp only [Bool.decide_and, Bool.and_eq_true, decide_eq_true_eq, canon]
    by_cases key : r.accountId = a ∧ r.symbol = sym
    · by_cases held : r.state = .held
      · cases r.positionQtyAtReservation with
        | none => simpa [key, held] using bounds.1
        | some anchor =>
          simp only [key, held, and_self, if_true, map_some, elim_some,
            AbsorptionRow.capped]
          exact (min_le_right _ _).trans (max_le bounds.1 booked)
      · simp [held]
    · cases r.positionQtyAtReservation <;> simp <;> grind
  rw [absorbed_get]
  cases leastAnchor (absorptionRowsOf v.db a sym) with
  | none => exact heldExecuted_nonneg inv
  | some anchor =>
    rw [map_some, getD_some]
    refine max_le (heldExecuted_nonneg inv) (le_trans ?_ fills)
    exact (min_le_left _ _).trans (min_le_left _ _)

lemma claimable_view_le (inv : WorldInv L v) (canon : upper sym = sym) :
    claimableReducibleQuantity (viewSnapshot v a quote) sym ≤ v.broker.long a sym + v.sum a sym v.heldExecuted := by
  have long := inv.long_nonneg a sym
  have credit := @absorbed_le L v a sym inv
    (fetchSnapshot v.db a (quote.map (v.broker.read a)) (reservedBySymbol v.db a))
  have nonneg := @heldExecuted_nonneg L v a sym inv
  refine claimable_le.trans (max_le (by linarith) ?_)
  rw [canon]
  refine add_le_add ?_ credit
  rcases viewSnapshot_positionQty inv with e | e
  · exact e.le
  · exact e.le.trans long

end View

/-! ## Approving against an older world -/

/-- No reservation of the key was approved since `v`. -/
def NoneApproved (v w : World) (a : Nat) (sym : String) : Prop :=
  ∀ r ∈ w.db.reservations.drop v.db.reservations.length, ¬(r.accountId = a ∧ r.symbol = sym)

/-- No reservation of the key that the broker executed anything of was settled since `v`. -/
def NoneSettled (v w : World) (a : Nat) (sym : String) : Prop :=
  ∀ x ∈ w.db.reservations.zipIdx, x.1.accountId = a ∧ x.1.symbol = sym → x.1.state ≠ .held →
    (∃ r ∈ v.db.reservations[x.2]?, r.state ≠ .held) ∨ w.executed x.1 = 0

instance {v w : World} {a : Nat} {sym : String} : Decidable (NoneApproved v w a sym) :=
  inferInstanceAs (Decidable (∀ r ∈ w.db.reservations.drop _, ¬(r.accountId = a ∧ r.symbol = sym)))

instance {v w : World} {a : Nat} {sym : String} : Decidable (NoneSettled v w a sym) :=
  inferInstanceAs (Decidable (∀ x ∈ w.db.reservations.zipIdx, x.1.accountId = a ∧ x.1.symbol = sym →
    x.1.state ≠ .held → (∃ r ∈ v.db.reservations[x.2]?, r.state ≠ .held) ∨ w.executed x.1 = 0))

section Approve

variable {L : Nat → String → ℚ} {v w : World} {a : Nat} {sym : String}

lemma sum_add {f g : RiskReservation → ℚ} : w.sum a sym (fun r => f r + g r) = w.sum a sym f + w.sum a sym g := by
  unfold World.sum
  rw [← total_add]
  refine total_congr fun r _ => ?_
  split <;> simp

lemma executed_split : w.sum a sym w.executed = w.sum a sym w.heldExecuted + w.sum a sym w.settledExecuted := by
  rw [← sum_add]
  refine total_congr fun r _ => ?_
  simp only [World.heldExecuted, World.settledExecuted]
  grind

lemma sum_le_sum {f g : RiskReservation → ℚ} (later : Later v w)
    (le : ∀ (i : Nat) r r', v.db.reservations[i]? = some r → w.db.reservations[i]? = some r' →
      SameRow r r' → r'.accountId = a ∧ r'.symbol = sym → f r' ≤ g r)
    (fresh : ∀ (i : Nat) r', v.db.reservations[i]? = none → w.db.reservations[i]? = some r' →
      r'.accountId = a ∧ r'.symbol = sym → f r' ≤ 0) : w.sum a sym f ≤ v.sum a sym g := by
  refine total_le_of_getElem? later.length_le ?_
  intro i r' get'
  cases get : v.db.reservations[i]? with
  | none =>
    rw [map_none, getD_none]
    split
    · rename_i key; exact fresh i r' get get' key
    · exact le_rfl
  | some r =>
    obtain ⟨r'', get'', same, -⟩ := later i r get
    rw [get'] at get''
    cases get''
    rw [map_some, getD_some, same.account, same.symbol]
    split
    · rename_i key; exact le i r r' get get' same (by rw [same.account, same.symbol]; exact key)
    · exact le_rfl

lemma open_le_of_noneApproved (iw : WorldInv L w) (later : Later v w) (none : NoneApproved v w a sym) :
    w.approvedUnfilled a sym + w.sum a sym w.executed ≤ v.sum a sym heldPart + v.sum a sym v.settledExecuted := by
  rw [World.approvedUnfilled, ← sum_add, ← sum_add]
  refine sum_le_sum later ?_ ?_
  · intro i r r' get get' same _
    obtain ⟨r'', get'', -, -, done⟩ := later i r get
    rw [get'] at get''
    cases get''
    have m' := mem_of_getElem? get'
    have bounds := iw.executed_bounds m'
    rw [same.qty] at bounds
    unfold heldPart World.settledExecuted
    by_cases held : r.state = .held
    · rw [if_pos held, if_pos held, add_zero]
      by_cases held' : r'.state = .held
      · rw [← same.qty]; exact iw.unfilled_le_of_held m' held'
      · rw [iw.unfilled_of_settled m' held']; linarith
    · obtain ⟨out, eq⟩ := done held
      rw [if_neg held, if_neg held, iw.unfilled_of_settled m' out, eq]
  · intro i r' get get' key
    refine absurd key (none r' ?_)
    have len := List.getElem?_eq_none_iff.1 get
    rw [mem_iff_getElem?]
    refine ⟨i - v.db.reservations.length, ?_⟩
    rw [getElem?_drop, Nat.add_sub_cancel' len]
    exact get'

lemma open_le_of_noneSettled (iv : WorldInv L v) (iw : WorldInv L w) (later : Later v w)
    (none : NoneSettled v w a sym) :
    w.approvedUnfilled a sym + w.sum a sym w.executed ≤ w.sum a sym heldPart + v.sum a sym v.settledExecuted := by
  have rows : w.sum a sym (fun r => w.unfilled r + w.executed r + -heldPart r) ≤
      v.sum a sym v.settledExecuted := by
    refine sum_le_sum later ?_ ?_
    · intro i r r' get get' same key
      obtain ⟨r'', get'', -, -, done⟩ := later i r get
      rw [get'] at get''
      cases get''
      have m' := mem_of_getElem? get'
      have nonneg := (iv.executed_bounds (mem_of_getElem? get)).1
      unfold heldPart World.settledExecuted
      by_cases held' : r'.state = .held
      · have le := iw.unfilled_le_of_held m' held'
        rw [if_pos held']
        split
        · linarith
        · linarith
      · rw [if_neg held', iw.unfilled_of_settled m' held']
        rcases none (r', i) (mem_zipIdx_iff_getElem?.2 get') key held' with ⟨x, mx, out⟩ | zero
        · rw [mem_def, get] at mx
          cases mx
          rw [if_neg out, (done out).2]
          linarith
        · rw [show w.executed r' = 0 from zero]
          split <;> linarith
    · intro i r' get get' key
      have m' := mem_of_getElem? get'
      unfold heldPart
      by_cases held' : r'.state = .held
      · have le := iw.unfilled_le_of_held m' held'
        rw [if_pos held']
        linarith
      · rw [if_neg held', iw.unfilled_of_settled m' held']
        rcases none (r', i) (mem_zipIdx_iff_getElem?.2 get') key held' with ⟨x, mx, out⟩ | zero
        · rw [mem_def, get] at mx
          cases mx
        · rw [show w.executed r' = 0 from zero]
          linarith
  have split : w.sum a sym (fun r => w.unfilled r + w.executed r + -heldPart r) +
      w.sum a sym heldPart = w.approvedUnfilled a sym + w.sum a sym w.executed := by
    rw [World.approvedUnfilled, ← sum_add, ← sum_add]
    refine total_congr fun r _ => ?_
    split <;> ring
  linarith

/-- A claim granted against an older world leaves room for every approved sell of the current one,
    unless a reservation was approved and a filled one was settled since the read. -/
lemma WorldInv.approve {action : ProposedAction} {quote : Option Quote} {q : ℚ}
    (iv : WorldInv L v) (iw : WorldInv L w) (later : Later v w) (sub : action.action = .orderSubmit ∨ action.qty = none)
    (g : grantedQty w.db a (viewSnapshot v a quote) action = some q)
    (ok : NoneApproved v w a (upper action.symbol) ∨ NoneSettled v w a (upper action.symbol)) :
    w.approvedUnfilled a (upper action.symbol) + q ≤ w.broker.long a (upper action.symbol) := by
  rw [grantedQty, filter_eq_some_iff] at g
  obtain ⟨qty, verified⟩ := g
  simp only [Bool.decide_and, Bool.and_eq_true, decide_eq_true_eq] at verified
  obtain ⟨verified, guard⟩ := verified
  have submit : action.action = .orderSubmit := sub.resolve_right (by simp [qty])
  have vs := classify_verified_submit submit qty verified
  have claim := @claimable_view_le L v a _ quote iv (upper_upper action.symbol)
  have cv := iv.conserved a (upper action.symbol)
  have cw := iw.conserved a (upper action.symbol)
  rw [executed_split] at cv
  rcases ok with none | none
  · -- the classifier already subtracted everything reserved at the read
    have fits := open_le_of_noneApproved iw later none
    have available := vs.available
    unfold availableReducibleQuantity at available
    have reserved : ((viewSnapshot v a quote).reservedReducingQty.get (upper action.symbol)).getD 0 =
        v.sum a (upper action.symbol) heldPart := by
      rw [← heldQty_eq_sum, ← reservedBySymbol_get]
      have complete := vs.complete
      cases quote with
      | none => exact absurd complete (by simp [viewSnapshot, decisionSnapshot, fetchSnapshot])
      | some _ => rfl
    rw [upper_upper, reserved, le_max_iff] at available
    rcases available with neg | available
    · exact absurd vs.pos (not_lt.2 neg)
    · linarith
  · -- the guard subtracts everything reserved now
    have fits := open_le_of_noneSettled iv iw later none
    rw [iw.balanced.eq, heldQty_eq_sum] at guard
    linarith

end Approve

end Workbench.Capacity
