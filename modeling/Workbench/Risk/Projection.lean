import Workbench.Risk.RiskEffect

/-!
# The recorded projection

What `classify` records of an allowed submission, against the state it projects. The after-position carries the
price of the action and the gross exposure before it the mark of the position, so the recorded gross exposure is
`held · (mark - price)` off the one of the state whose hash is recorded (`gross_off`): the record is right exactly
when the two prices are one (`projection_faithful_iff`).
-/

namespace Workbench.Risk
open Workbench.Lib Option Dict
variable {snap : AccountSnapshot} {sym : String} {q p : ℚ}

/-- The price that the projection uses: the price of the action, or else the mark of the position. -/
def usedPrice (action : ProposedAction) (mark : ℚ) : ℚ := (truthy action.price).getD mark

/-- The record of a decision describes a state whose hash it carries. -/
structure FaithfulProjection (snap : AccountSnapshot) (sym : String) (d : RiskEffectDecision) : Prop where
  reduces : ∃ after, d.positionQtyAfter = some after ∧ 0 ≤ after ∧ after < d.positionQtyBefore
  shrinks : ∃ after, d.grossExposureAfter = some after ∧ 0 ≤ after ∧ after < d.grossExposureBefore
  projected : ∃ state : AccountSnapshot, d.projectedAfterStateHash = some state.stateHash ∧
    d.grossExposureAfter = some state.grossExposure ∧
    d.positionQtyAfter = some (state.positionQty sym) ∧
    ∀ other, other ≠ sym → state.positions.get other = snap.positions.get other

/-! ## The state behind a hash -/

lemma AccountSnapshot.grossExposure_of_stateHash {s t : AccountSnapshot} (same : s.stateHash = t.stateHash) :
    s.grossExposure = t.grossExposure := by
  have rows (u : AccountSnapshot) : u.grossExposure =
      (u.stateHash.positions.map fun p => |p.2.1| * p.2.2).sum := by
    have perm := ((u.positions.values.map fun p => (p.symbol, p.qty, p.price)).mergeSort_perm
      fun p q => p.1 ≤ q.1).map fun p => |p.2.1| * p.2.2
    rw [AccountSnapshot.stateHash, perm.sum_eq, List.map_map]
    rfl
  rw [rows s, rows t, same]

lemma afterSnapshot_get_other {other : String} {left : ℚ} (ne : other ≠ sym) :
    (afterSnapshot snap sym q p left).positions.get other = snap.positions.get other := by
  rw [afterSnapshot]
  split
  · rw [get_erase, if_neg ne]
  · exact get_set_of_ne ne

lemma afterSnapshot_positionQty {left : ℚ} : (afterSnapshot snap sym q p left).positionQty sym = left := by
  rw [AccountSnapshot.positionQty, afterSnapshot]
  split
  · rename_i none
    rw [get_erase, if_pos rfl, none]
    rfl
  · rw [get_set_self]
    rfl

lemma afterSnapshot_grossExposure {held : SnapshotPosition} {left : ℚ}
    (found : snap.positions.get sym = some held) (left_nonneg : 0 ≤ left) :
    (afterSnapshot snap sym q p left).grossExposure = snap.grossExposure - |held.qty| * held.price + left * p := by
  have before := sum_values (fun h : SnapshotPosition => |h.qty| * h.price) found
  rw [AccountSnapshot.grossExposure, AccountSnapshot.grossExposure, before, afterSnapshot]
  split
  · rename_i none
    rw [none]
    ring
  · have stored := sum_values (d := snap.positions.set sym ⟨sym, left, p⟩)
      (fun h : SnapshotPosition => |h.qty| * h.price) get_set_self
    rw [stored, erase_set, abs_of_nonneg left_nonneg]
    ring

/-! ## What an allowed submission records -/

/-- What `classify` has established of a submission that it allows, and what it records. -/
structure Allowed (snap : AccountSnapshot) (action : ProposedAction) (held : SnapshotPosition) (q : ℚ) : Prop where
  found : snap.positions.get (upper action.symbol) = some held
  pos : 0 < q
  within : q ≤ held.qty
  price : 0 < usedPrice action held.price
  result : classify snap action = emit snap action .riskReducing .allow [.verifiedReduction]
    (some (held.qty - q)) (some (snap.grossExposure - q * usedPrice action held.price))
    (some (availableReducibleQuantity snap (upper action.symbol)))
    (some (afterSnapshot snap (upper action.symbol) q (usedPrice action held.price) (held.qty - q)).stateHash)

lemma orElse_price {action : ProposedAction} {mark : ℚ}
    (price : ((truthy action.price).orElse fun _ => some mark) = some p) : usedPrice action mark = p := by
  rw [usedPrice]
  cases given : truthy action.price with
  | none => simpa [given] using price
  | some x => simpa [given] using price

lemma classifySubmit_allow {action : ProposedAction} (allow : (classifySubmit snap action q).decision = .allow) :
    ∃ held, snap.positions.get (upper action.symbol) = some held ∧ q ≤ held.qty ∧ 0 < usedPrice action held.price ∧
      classifySubmit snap action q = emit snap action .riskReducing .allow [.verifiedReduction]
        (some (held.qty - q)) (some (snap.grossExposure - q * usedPrice action held.price))
        (some (availableReducibleQuantity snap (upper action.symbol)))
        (some (afterSnapshot snap (upper action.symbol) q (usedPrice action held.price) (held.qty - q)).stateHash) := by
  have verified : (classifySubmit snap action q).isVerifiedReduction = true := by
    simp only [classifySubmit] at allow ⊢
    split at allow
    · split at allow <;> cases allow
    · split at allow
      · cases allow
      · split at allow
        · cases allow
        · split at allow
          · cases allow
          · split at allow
            · cases allow
            · split at allow
              · cases allow
              · split at allow
                · cases allow
                · simp only [if_neg, *, not_false_eq_true]
                  rfl
  obtain ⟨notBuy, long, within, available⟩ := classifySubmit_verified verified
  cases found : snap.positions.get (upper action.symbol) with
  | none => simp [AccountSnapshot.positionQty, found] at long
  | some held =>
    have qty : snap.positionQty (upper action.symbol) = held.qty := by
      simp [AccountSnapshot.positionQty, found]
    rw [qty] at long within
    refine ⟨held, rfl, within, ?_⟩
    simp only [classifySubmit, found, qty, if_neg notBuy, if_neg (not_le.2 long),
      if_neg (not_lt.2 (sub_nonneg.2 within)), if_neg (not_lt.2 available), map_some] at allow ⊢
    split at allow
    · cases allow
    · rename_i p price
      have used := orElse_price price
      split at allow
      · cases allow
      · rename_i positive
        rw [used, if_neg positive]
        split at allow
        · cases allow
        · rename_i lower
          exact ⟨not_le.1 positive, if_neg lower⟩

lemma classify_allow {action : ProposedAction} (submit : action.action = .orderSubmit)
    (allow : (classify snap action).decision = .allow) :
    ∃ held q, action.qty = some q ∧ Allowed snap action held q := by
  simp only [classify, submit] at allow
  split at allow
  · cases allow
  · rename_i complete
    split at allow
    · cases allow
    · rename_i q qty
      split at allow
      · cases allow
      · rename_i pos
        obtain ⟨held, found, within, price, eq⟩ := classifySubmit_allow allow
        refine ⟨held, q, qty, found, not_le.1 pos, within, price, ?_⟩
        simp only [classify, submit, complete, qty, if_neg pos]
        exact eq

section
variable {snap : AccountSnapshot} {action : ProposedAction} {held : SnapshotPosition} {q : ℚ}

lemma Allowed.gross_off (a : Allowed snap action held q) :
    snap.grossExposure - q * usedPrice action held.price =
      (afterSnapshot snap (upper action.symbol) q (usedPrice action held.price) (held.qty - q)).grossExposure +
        held.qty * (held.price - usedPrice action held.price) := by
  have long : 0 ≤ held.qty := by linarith [a.pos, a.within]
  rw [afterSnapshot_grossExposure a.found (sub_nonneg.2 a.within), abs_of_nonneg long]
  ring

lemma Allowed.reduces (a : Allowed snap action held q) :
    ∃ after, (classify snap action).positionQtyAfter = some after ∧ 0 ≤ after ∧
      after < (classify snap action).positionQtyBefore := by
  have before : snap.positionQty (upper action.symbol) = held.qty := by
    rw [AccountSnapshot.positionQty, a.found]
    rfl
  rw [a.result]
  refine ⟨held.qty - q, rfl, sub_nonneg.2 a.within, ?_⟩
  change held.qty - q < snap.positionQty (upper action.symbol)
  rw [before]
  exact sub_lt_self _ a.pos

lemma Allowed.shrinks (a : Allowed snap action held q)
    (covered : q * usedPrice action held.price ≤ snap.grossExposure) :
    ∃ after, (classify snap action).grossExposureAfter = some after ∧ 0 ≤ after ∧
      after < (classify snap action).grossExposureBefore := by
  rw [a.result]
  exact ⟨_, rfl, sub_nonneg.2 covered, sub_lt_self _ (mul_pos a.pos a.price)⟩

lemma Allowed.faithful_iff (a : Allowed snap action held q) :
    FaithfulProjection snap (upper action.symbol) (classify snap action) ↔
      usedPrice action held.price = held.price ∧ q * held.price ≤ snap.grossExposure := by
  constructor
  · intro faithful
    obtain ⟨state, hash, gross, -, -⟩ := faithful.projected
    obtain ⟨after, recorded, nonneg, -⟩ := faithful.shrinks
    rw [a.result] at hash gross recorded
    have same := AccountSnapshot.grossExposure_of_stateHash (some.inj hash)
    have eq : snap.grossExposure - q * usedPrice action held.price = state.grossExposure := some.inj gross
    have off : held.qty * (held.price - usedPrice action held.price) = 0 := by
      linarith [a.gross_off]
    have long : held.qty ≠ 0 := by
      have := a.pos.trans_le a.within
      exact this.ne'
    have price : usedPrice action held.price = held.price := by
      have := (mul_eq_zero.1 off).resolve_left long
      linarith
    refine ⟨price, ?_⟩
    obtain rfl : snap.grossExposure - q * usedPrice action held.price = after := some.inj recorded
    rw [price] at nonneg
    exact sub_nonneg.1 nonneg
  · intro h
    obtain ⟨price, covered⟩ := h
    refine ⟨a.reduces, a.shrinks (price.symm ▸ covered), ?_⟩
    have gross := a.gross_off
    rw [price, sub_self, mul_zero, add_zero] at gross
    rw [a.result, price]
    exact ⟨_, rfl, congrArg some gross, congrArg some afterSnapshot_positionQty.symm,
      fun other ne => afterSnapshot_get_other ne⟩

end

lemma covered_of_marks {held : SnapshotPosition} (found : snap.positions.get sym = some held) (within : q ≤ held.qty)
    (marks : ∀ k p, snap.positions.get k = some p → 0 ≤ p.price) : q * held.price ≤ snap.grossExposure := by
  have others : 0 ≤ (((snap.positions.erase sym).values.map fun p => |p.qty| * p.price)).sum := by
    apply List.sum_nonneg
    intro x mem
    obtain ⟨p, stored, rfl⟩ := List.mem_map.1 mem
    obtain ⟨k, at_k⟩ := mem_values.1 stored
    rw [get_erase] at at_k
    split at at_k
    · cases at_k
    · exact mul_nonneg (abs_nonneg _) (marks k p at_k)
  have sum := sum_values (fun p : SnapshotPosition => |p.qty| * p.price) found
  have share : q * held.price ≤ |held.qty| * held.price :=
    mul_le_mul_of_nonneg_right (within.trans (le_abs_self _)) (marks sym held found)
  rw [AccountSnapshot.grossExposure]
  linarith

/-- The record of an allowed submission describes the projected state exactly when the projection used the mark of
the position and the gross exposure before covers the reduction, which it does when no mark is negative. -/
theorem projection_faithful_iff (snap : AccountSnapshot) (action : ProposedAction)
    (submit : action.action = .orderSubmit) (allow : (classify snap action).decision = .allow) :
    ∃ held q, snap.positions.get (upper action.symbol) = some held ∧ action.qty = some q ∧
      (FaithfulProjection snap (upper action.symbol) (classify snap action) ↔
        usedPrice action held.price = held.price ∧ q * held.price ≤ snap.grossExposure) ∧
      ((∀ k p, snap.positions.get k = some p → 0 ≤ p.price) → q * held.price ≤ snap.grossExposure) := by
  obtain ⟨held, q, qty, a⟩ := classify_allow submit allow
  exact ⟨held, q, a.found, qty, a.faithful_iff, covered_of_marks a.found a.within⟩

def longTen : AccountSnapshot where
  accountId := 1
  positions := Dict.empty.set "AAPL" ⟨"AAPL", 10, 100⟩
  openOrders := []
  cash := 0
  equity := 1000
  brokerCursor := none

def sellFourAtNinety : ProposedAction where
  action := .orderSubmit
  symbol := "AAPL"
  side := some .sell
  qty := some 4
  price := some 90

/-- The theorem, at a sell below the mark. -/
theorem projection_faithful_iff_ninety :
    ∃ held q, longTen.positions.get (upper sellFourAtNinety.symbol) = some held ∧ sellFourAtNinety.qty = some q ∧
      (FaithfulProjection longTen (upper sellFourAtNinety.symbol) (classify longTen sellFourAtNinety) ↔
        usedPrice sellFourAtNinety held.price = held.price ∧ q * held.price ≤ longTen.grossExposure) ∧
      ((∀ k p, longTen.positions.get k = some p → 0 ≤ p.price) → q * held.price ≤ longTen.grossExposure) :=
  projection_faithful_iff longTen sellFourAtNinety rfl (by decide +kernel)

/-- An allowed sell below the mark records a gross exposure of 640, and the hash of a state whose gross exposure
is 540. -/
theorem not_projection_faithful :
    ¬ ∀ (snap : AccountSnapshot) (action : ProposedAction), action.action = .orderSubmit →
      (classify snap action).decision = .allow →
        FaithfulProjection snap (upper action.symbol) (classify snap action) := by
  intro all
  have faithful := all longTen sellFourAtNinety rfl (by decide +kernel)
  obtain ⟨state, hash, gross, -, -⟩ := faithful.projected
  have recorded : (classify longTen sellFourAtNinety).projectedAfterStateHash =
      some (afterSnapshot longTen "AAPL" 4 90 6).stateHash := by decide +kernel
  have same := AccountSnapshot.grossExposure_of_stateHash (some.inj (hash.symm.trans recorded))
  rw [same] at gross
  exact absurd gross (by decide +kernel)

end Workbench.Risk
