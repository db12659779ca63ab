import Workbench.Exposure.System

/-!
# The gross cap over whole runs

`exposure_le_cap`: when every evaluation meets a database that has caught up with the account, the
market value of the positions and the unfilled notional of the BUYs that passed stay under the cap.

The sum step 8 compares with the cap covers the exposure of a database that has caught up
(`CaughtUp.covers`), so a BUY that passes still fits. Nothing else raises the exposure: an execution
moves notional from an order to the position, and an insert moves it from the request to the order.
-/

namespace Workbench.Exposure
open Workbench.Lib Workbench.Risk Workbench.Orders List Function Option Table

variable {σ : Setting} {s t : State} {l : Label}

/-! ## The invariant -/

/-- A BUY of the account as the broker sees it: priced, no more executed or open than ordered, and
    executed only at a price its notional covers. -/
structure Sound (σ : Setting) (b : Broker) (order : Order) (o : Nat) : Prop where
  priced : ∃ e, order.estimatedNotional = some e ∧ 0 ≤ e
  qtyPos : 0 < order.qty
  executedPos : 0 ≤ b.executed o
  remainingPos : 0 ≤ b.remaining o
  within : b.executed o + b.remaining o ≤ order.qty
  admitted : b.executed o = 0 ∨
    σ.price order.symbolId * order.qty ≤ order.estimatedNotional.getD 0

/-- The state of an account under its cap. -/
structure UnderCap (σ : Setting) (s : State) : Prop where
  exposure : exposure σ s ≤ σ.cap
  orders : ∀ (o : Nat) order, s.db.orders[o]? = some order → σ.buys order = true →
    Sound σ s.broker order o
  fresh : ∀ o, s.db.orders.length ≤ o → s.broker.executed o = 0
  passed : ∀ x ∈ s.passed, x.req.accountId = σ.accountId ∧ x.req.side = .buy ∧ 0 < x.req.qty ∧
    ∃ e, x.outcome.estimatedNotional = some e ∧ 0 ≤ e

def Same (order order' : Order) : Prop :=
  order'.accountId = order.accountId ∧ order'.side = order.side ∧ order'.symbolId = order.symbolId ∧
    order'.qty = order.qty ∧ order'.estimatedNotional = order.estimatedNotional

lemma Same.buys {order order' : Order} (h : Same order order') : σ.buys order' = σ.buys order := by
  simp [Setting.buys, h.1, h.2.1]

lemma UnderCap.rewrite {db : Db} {o : Nat} {f : Order → Order} {reports : List (List ReportedPosition)}
    (h : UnderCap σ s) (same : ∀ order, Same order (f order))
    (orders : db.orders = Table.amend o f s.db.orders) (symbols : db.symbols = s.db.symbols) :
    UnderCap σ { s with db, reports } := by
  have length : db.orders.length = s.db.orders.length := by rw [orders, length_amend]
  have rows {i : Nat} {order' : Order} (get : db.orders[i]? = some order') :
      ∃ order, s.db.orders[i]? = some order ∧ Same order order' := by
    rw [orders, getElem?_amend] at get
    split at get
    · obtain ⟨order, old, rfl⟩ := map_eq_some_iff.1 get
      exact ⟨order, old, same order⟩
    · exact ⟨order', get, rfl, rfl, rfl, rfl, rfl⟩
  refine ⟨?_, ?_, ?_, h.passed⟩
  · have total : Table.total (unfilled σ s.broker) db.orders.zipIdx =
        Table.total (unfilled σ s.broker) s.db.orders.zipIdx := by
      refine total_eq_of_getElem? (by simpa using length) fun i x x' get get' => ?_
      rw [getElem?_zipIdx, map_eq_some_iff] at get get'
      obtain ⟨order, get, rfl⟩ := get
      obtain ⟨order', get', rfl⟩ := get'
      obtain ⟨order₁, get₁, same⟩ := rows get'
      rw [get] at get₁
      cases get₁
      obtain ⟨-, -, -, qty, notional⟩ := id same
      simp only [unfilled, same.buys, qty, notional]
    have := h.exposure
    simp only [Exposure.exposure, marketValue] at this ⊢
    rw [total, symbols]
    exact this
  · intro i order' get buys
    obtain ⟨order, get, same⟩ := rows get
    have sound := h.orders i order get (by rw [← same.buys]; exact buys)
    obtain ⟨-, -, symbol, qty, notional⟩ := same
    refine ⟨?_, ?_, sound.executedPos, sound.remainingPos, ?_, ?_⟩
    · rw [notional]
      exact sound.priced
    · rw [qty]
      exact sound.qtyPos
    · rw [qty]
      exact sound.within
    · rw [symbol, qty, notional]
      exact sound.admitted
  · intro i le
    exact h.fresh i (by rw [← length]; exact le)

/-! ## Step 8 covers the exposure -/

lemma Sound.covers {order : Order} {o : Nat} {b : Broker} (h : Sound σ b order o) :
    order.estimatedNotional.getD 0 * (b.remaining o / order.qty) +
      σ.price order.symbolId * b.executed o ≤ order.estimatedNotional.getD 0 := by
  obtain ⟨e, priced, pos⟩ := h.priced
  have qty := h.qtyPos
  have within := h.within
  rw [priced, getD_some]
  have share : e * (b.remaining o / order.qty) ≤ e * ((order.qty - b.executed o) / order.qty) := by
    apply mul_le_mul_of_nonneg_left _ pos
    apply div_le_div_of_nonneg_right _ qty.le
    linarith
  rcases h.admitted with zero | admitted
  · rw [zero, sub_zero, div_self qty.ne', mul_one] at share
    rw [zero, mul_zero, add_zero]
    exact share
  · rw [priced, getD_some] at admitted
    have unit : σ.price order.symbolId ≤ e / order.qty := by
      rw [le_div_iff₀ qty]
      exact admitted
    have executed := mul_le_mul_of_nonneg_right unit h.executedPos
    have split : e * ((order.qty - b.executed o) / order.qty) + e / order.qty * b.executed o = e := by
      field_simp
      ring
    linarith

lemma total_executedPending :
    Table.total (executedPending σ s) (List.range s.db.symbols.length) ≤ Table.total (fun x : Order × Nat =>
        if σ.pending x.1 then max 0 (σ.price x.1.symbolId * s.broker.executed x.2) else 0) s.db.orders.zipIdx := by
  unfold executedPending
  rw [total_comm]
  refine total_le_total fun x _ => ?_
  split
  · rename_i pending
    have single : Table.total (fun i =>
          if x.1.symbolId = i then max 0 (σ.price x.1.symbolId * s.broker.executed x.2) else 0)
          (List.range s.db.symbols.length) ≤
        max 0 (σ.price x.1.symbolId * s.broker.executed x.2) := by
      simp only [eq_comm (a := x.1.symbolId)]
      exact @total_key_le _ _ _ id _ x.1.symbolId _ (by simpa using nodup_range)
        (le_max_left _ _)
    refine le_trans (total_le_total fun i _ => ?_) single
    split
    · rename_i h
      rw [if_pos h.2, h.2]
      exact le_max_right _ _
    · split
      · exact le_max_left _ _
      · exact le_rfl
  · rename_i settled
    simp [settled, Table.total]

lemma total_storedValue :
    Table.total (storedValue σ s) (List.range s.db.symbols.length) ≤ grossNow s.db σ.accountId := by
  have keys : ((List.range s.db.symbols.length).map fun i => (σ.accountId, i)).Nodup :=
    nodup_range.map fun i j eq => (Prod.mk.inj eq).2
  have le := @Dict.total_get_le _ _ _ s.db.positions
    (fun e => if e.1.1 = σ.accountId then |e.2.marketValue| else 0)
    ((List.range s.db.symbols.length).map fun i => (σ.accountId, i))
    (fun e => by split <;> simp) keys
  rw [total_map] at le
  refine le_trans (total_congr fun i _ => ?_).le le
  unfold storedValue
  cases s.db.positions.get (σ.accountId, i) <;> simp

lemma CaughtUp.covers (c : CaughtUp σ s) (h : UnderCap σ s) :
    exposure σ s ≤ grossNow s.db σ.accountId + pendingBuyNotional s.db σ.accountId := by
  have valued : marketValue σ s ≤
      Table.total (storedValue σ s) (List.range s.db.symbols.length) +
        Table.total (executedPending σ s) (List.range s.db.symbols.length) := by
    rw [← total_add]
    exact total_le_total fun i m => c.valued i (mem_range.1 m)
  have orders : Table.total (unfilled σ s.broker) s.db.orders.zipIdx +
      Table.total (fun x : Order × Nat =>
        if σ.pending x.1 then max 0 (σ.price x.1.symbolId * s.broker.executed x.2) else 0)
        s.db.orders.zipIdx ≤ pendingBuyNotional s.db σ.accountId := by
    rw [← total_add]
    refine le_trans ?_ (total_zipIdx (w := fun o : Order =>
      if o.accountId = σ.accountId ∧ o.side = .buy ∧ o.status.terminal = false
      then o.estimatedNotional.getD 0 else 0)).le
    refine total_le_total fun x m => ?_
    have get : s.db.orders[x.2]? = some x.1 := by
      simpa using mem_zipIdx_iff_getElem?.1 m
    unfold unfilled
    cases buys : σ.buys x.1 with
    | false =>
      have other : ¬ (x.1.accountId = σ.accountId ∧ x.1.side = .buy ∧ x.1.status.terminal = false) := by
        intro mine
        simp [Setting.buys, mine.1, mine.2.1] at buys
      simp [Setting.pending, buys, other]
    | true =>
      have sound := h.orders x.2 x.1 get buys
      cases ended : x.1.status.terminal with
      | true =>
        rw [c.closed x m buys ended]
        simp [Setting.pending, ended]
      | false =>
        have mine : x.1.accountId = σ.accountId ∧ x.1.side = .buy := by
          simpa [Setting.buys] using buys
        have pos := mul_nonneg (σ.pricePos x.1.symbolId).le sound.executedPos
        simp only [Setting.pending, buys, ended, Bool.not_false, Bool.and_self, if_true, mine,
          max_eq_right pos, and_self]
        exact sound.covers
  have stored := @total_storedValue σ s
  have executed := @total_executedPending σ s
  unfold exposure
  rw [c.inserted, total_nil]
  linarith

/-! ## The steps -/

lemma UnderCap.keep {db : Db} {reports : List (List ReportedPosition)} (h : UnderCap σ s)
    (orders : db.orders = s.db.orders) (symbols : db.symbols = s.db.symbols) :
    UnderCap σ { s with db, reports } := by
  refine @UnderCap.rewrite σ s db 0 id reports h (fun _ => ⟨rfl, rfl, rfl, rfl, rfl⟩) ?_ symbols
  rw [orders, Table.amend, modify_id]

lemma estimateNotional_admissible {env : Env} {req : OrderRequest} {db : Db}
    {tradingMode brokerMode : AccountMode} {ctx : Applicable} (adm : admissible σ db env req brokerMode = true)
    (pre : preprocess env db req tradingMode brokerMode = .ok ctx) :
    0 < req.qty ∧ ∃ e, estimateNotional env req = some e ∧ 0 ≤ e := by
  obtain ⟨formed, symbol, -⟩ := preprocess_ok pre
  simp only [malformed, Bool.or_eq_false_iff, decide_eq_false_iff_not, not_le] at formed
  obtain ⟨⟨qty, limit⟩, -⟩ := formed
  have price : ∃ p, referencePrice env req = some p ∧ 0 < p := by
    cases needs : needsLimit req.type with
    | true =>
      cases lim : req.limitPrice with
      | none => simp [needs, lim] at limit
      | some p =>
        refine ⟨p, by simp [referencePrice, lim], ?_⟩
        simpa [needs, lim] using limit
    | false =>
      simp only [admissible, needs, symbol, Bool.and_eq_true, Bool.false_or, all_some,
        decide_eq_true_eq] at adm
      exact ⟨_, adm.2, σ.pricePos _⟩
  obtain ⟨p, found, pos⟩ := price
  exact ⟨qty, req.qty * p, by simp [estimateNotional, found], (mul_pos qty pos).le⟩

lemma UnderCap.evaluate {env : Env} {req : OrderRequest} {tradingMode brokerMode : AccountMode}
    (h : UnderCap σ s) (c : CaughtUp σ s) (adm : admissible σ s.db env req brokerMode = true) :
    UnderCap σ { s with
      db := (evaluate env s.db req tradingMode brokerMode).1
      passed := if (evaluate env s.db req tradingMode brokerMode).2.passed
        then s.passed ++ [⟨req, (evaluate env s.db req tradingMode brokerMode).2⟩] else s.passed } := by
  obtain ⟨_, _, _, _, _, _, _, kept⟩ := @evaluate_untouched env s.db req tradingMode brokerMode
  have base : UnderCap σ { s with db := (Risk.evaluate env s.db req tradingMode brokerMode).1 } :=
    h.keep (by rw [kept]) (by rw [kept])
  cases pass : (Risk.evaluate env s.db req tradingMode brokerMode).2.passed with
  | false => exact base
  | true =>
    obtain ⟨ctx, pre, next, -, notional⟩ := evaluate_passed pass
    obtain ⟨qty, e, valued, pos⟩ := estimateNotional_admissible adm pre
    obtain ⟨-, -, limits⟩ := preprocess_ok pre
    simp only [admissible, limits, all_some, Bool.and_eq_true, decide_eq_true_eq] at adm
    obtain ⟨⟨⟨account, buy⟩, capped⟩, -⟩ := adm
    have projected := projectedGross_le (orderGates_of_next next) buy capped
    have covered := c.covers h
    refine ⟨?_, base.orders, base.fresh, ?_⟩
    · have exposure := base.exposure
      simp only [projectedGross, account, if_pos buy, valued, getD_some] at projected
      have same : Exposure.exposure σ
          { s with db := (Risk.evaluate env s.db req tradingMode brokerMode).1 } = Exposure.exposure σ s := by
        rw [kept]
        rfl
      simp only [Exposure.exposure, if_true, total_append, total_cons, total_nil,
        notional, valued, getD_some] at same covered ⊢
      simp only [marketValue] at same covered ⊢
      linarith
    · intro x m
      simp only [if_true, mem_append, mem_singleton] at m
      rcases m with m | rfl
      · exact h.passed x m
      · exact ⟨account, buy, qty, e, notional.trans valued, pos⟩

lemma UnderCap.persist {i symbolId : Nat} {x : PassedRequest} {now : Instant} (h : UnderCap σ s)
    (get : s.passed[i]? = some x) :
    UnderCap σ { s with
      db := insertOrder s.db (initialOrder x.req x.outcome symbolId now)
      broker := { s.broker with
        remaining := Function.update s.broker.remaining s.db.orders.length x.req.qty }
      passed := s.passed.eraseIdx i } := by
  obtain ⟨account, buy, qty, e, notional, pos⟩ := h.passed x (mem_of_getElem? get)
  have others {o : Nat} (lt : o < s.db.orders.length) :
      Function.update s.broker.remaining s.db.orders.length x.req.qty o = s.broker.remaining o :=
    update_of_ne lt.ne _ _
  refine ⟨?_, ?_, ?_, fun x m => h.passed x (mem_of_mem_eraseIdx m)⟩
  · have old : Table.total (unfilled σ { s.broker with
          remaining := Function.update s.broker.remaining s.db.orders.length x.req.qty })
        s.db.orders.zipIdx = Table.total (unfilled σ s.broker) s.db.orders.zipIdx := by
      refine total_congr fun y m => ?_
      have lt := (mem_zipIdx m).2.1
      simp only [unfilled, others (by simpa using lt)]
    have new : unfilled σ { s.broker with
        remaining := Function.update s.broker.remaining s.db.orders.length x.req.qty }
        (initialOrder x.req x.outcome symbolId now, s.db.orders.length) = e := by
      have mine : σ.buys (initialOrder x.req x.outcome symbolId now) = true := by
        simp [Setting.buys, initialOrder, account, buy]
      simp only [unfilled, mine, if_true, update_self]
      show x.outcome.estimatedNotional.getD 0 * (x.req.qty / x.req.qty) = e
      rw [notional, getD_some, div_self qty.ne', mul_one]
    have moved : Exposure.exposure σ { s with
        db := insertOrder s.db (initialOrder x.req x.outcome symbolId now)
        broker := { s.broker with
          remaining := Function.update s.broker.remaining s.db.orders.length x.req.qty }
        passed := s.passed.eraseIdx i } = Exposure.exposure σ s := by
      simp only [Exposure.exposure, marketValue, insertOrder, zipIdx_append, total_append, old,
        total_eraseIdx get, notional, getD_some]
      rw [zipIdx_singleton, total_cons, total_nil, Nat.zero_add, new]
      ring
    rw [moved]
    exact h.exposure
  · intro o order found buys
    simp only [insertOrder] at found
    by_cases lt : o < s.db.orders.length
    · rw [getElem?_append_left lt] at found
      have sound := h.orders o order found buys
      refine ⟨sound.priced, sound.qtyPos, sound.executedPos, ?_, ?_, sound.admitted⟩
      · simpa only [others lt] using sound.remainingPos
      · simpa only [others lt] using sound.within
    · rw [getElem?_append_right (not_lt.1 lt)] at found
      have eq : o = s.db.orders.length := by
        have := (List.getElem?_eq_some_iff.1 found).1
        simp only [length_singleton] at this
        omega
      subst eq
      rw [Nat.sub_self] at found
      cases found
      have none := h.fresh s.db.orders.length le_rfl
      refine ⟨⟨e, notional, pos⟩, qty, none.ge, ?_, ?_, .inl none⟩
      · simpa using qty.le
      · simp [none, initialOrder]
  · intro o le
    apply h.fresh
    simp only [insertOrder, length_append, length_singleton] at le
    omega

lemma UnderCap.execute {o : Nat} {order : Order} {qty : ℚ} (h : UnderCap σ s)
    (get : s.db.orders[o]? = some order) (can : executable σ s.broker o order qty) :
    UnderCap σ { s with broker := s.broker.execute o order.symbolId qty } := by
  obtain ⟨buys, pos, le, admitted⟩ := can
  have sound := h.orders o order get buys
  have value := mul_nonneg (σ.pricePos order.symbolId).le pos.le
  refine ⟨?_, ?_, ?_, h.passed⟩
  · have market : marketValue σ { s with broker := s.broker.execute o order.symbolId qty } ≤
        marketValue σ s + σ.price order.symbolId * qty := by
      have single := @total_key_le _ _ _ id (List.range s.db.symbols.length) order.symbolId _
        (by simpa using nodup_range) value
      refine le_trans ?_ (add_le_add_right single (marketValue σ s))
      rw [marketValue, marketValue, ← total_add]
      refine total_le_total fun i _ => ?_
      simp only [Broker.execute, update_apply, id]
      split
      · rename_i eq
        rw [eq]
        linarith
      · linarith
    have open_ : Table.total (unfilled σ (s.broker.execute o order.symbolId qty)) s.db.orders.zipIdx =
        Table.total (unfilled σ s.broker) s.db.orders.zipIdx -
          order.estimatedNotional.getD 0 * (qty / order.qty) := by
      have member : (order, o) ∈ s.db.orders.zipIdx := mem_zipIdx_iff_getElem?.2 (by simpa using get)
      have single := @total_of_key _ _ _
        (fun _ => -(order.estimatedNotional.getD 0 * (qty / order.qty))) Prod.snd s.db.orders.zipIdx
        (order, o) (by simpa using nodup_range' (s := 0)) member
      rw [sub_eq_add_neg, ← single, ← total_add]
      refine total_congr fun x m => ?_
      simp only [unfilled, Broker.execute, update_apply]
      split
      · rename_i mine
        split
        · rename_i eq
          have same : x.1 = order := by
            have found : s.db.orders[x.2]? = some x.1 := by simpa using mem_zipIdx_iff_getElem?.1 m
            rw [eq, get] at found
            exact (some.inj found).symm
          rw [same, eq]
          ring
        · ring
      · rename_i other
        split
        · rename_i eq
          have found : s.db.orders[x.2]? = some x.1 := by simpa using mem_zipIdx_iff_getElem?.1 m
          rw [eq, get] at found
          rw [← some.inj found] at other
          exact absurd buys other
        · ring
    have unit : σ.price order.symbolId * qty ≤ order.estimatedNotional.getD 0 * (qty / order.qty) := by
      rw [mul_div_assoc', le_div_iff₀ sound.qtyPos]
      calc σ.price order.symbolId * qty * order.qty = σ.price order.symbolId * order.qty * qty := by ring
        _ ≤ order.estimatedNotional.getD 0 * qty := mul_le_mul_of_nonneg_right admitted pos.le
    have before := h.exposure
    simp only [Exposure.exposure] at before ⊢
    rw [open_]
    linarith
  · intro i order' found mine
    have sound' := h.orders i order' found mine
    by_cases eq : i = o
    · subst eq
      rw [get] at found
      cases found
      refine ⟨sound.priced, sound.qtyPos, ?_, ?_, ?_, .inr admitted⟩
      · have := sound.executedPos
        simp only [Broker.execute, update_self]
        linarith
      · simp only [Broker.execute, update_self]
        linarith
      · have := sound.within
        simp only [Broker.execute, update_self]
        linarith
    · refine ⟨sound'.priced, sound'.qtyPos, ?_, ?_, ?_, ?_⟩
      · simpa only [Broker.execute, update_of_ne eq] using sound'.executedPos
      · simpa only [Broker.execute, update_of_ne eq] using sound'.remainingPos
      · simpa only [Broker.execute, update_of_ne eq] using sound'.within
      · simpa only [Broker.execute, update_of_ne eq] using sound'.admitted
  · intro i le
    have lt : o < s.db.orders.length := (List.getElem?_eq_some_iff.1 get).1
    simp only [Broker.execute]
    rw [update_of_ne (lt.trans_le le).ne']
    exact h.fresh i le

lemma write_orders {db : Db} {now : Instant} {pending : Pending} :
    ∃ o f, (∀ order, Same order (f order)) ∧ (pending.write db now).orders = Table.amend o f db.orders ∧
      (pending.write db now).symbols = db.symbols := by
  refine ⟨pending.order, fun order => { flushStatus pending.loaded.status (pending.status db now) order
    with updatedAt := now }, ?_, ?_, ?_⟩
  · intro order
    unfold flushStatus
    split <;> exact ⟨rfl, rfl, rfl, rfl, rfl⟩
  · cases pending <;> rfl
  · cases pending <;> rfl

lemma UnderCap.step (h : UnderCap σ s) (timely : Timely σ s l) (st : (system σ).step s l = some t) : UnderCap σ t := by
  simp only [system] at st
  cases l with
  | evaluate env req tradingMode brokerMode =>
    simp only [Exposure.step] at st
    split at st
    · rename_i adm
      cases st
      exact h.evaluate timely adm
    · cases st
  | persist i now =>
    simp only [Exposure.step] at st
    split at st
    · cases st
    · rename_i x get
      split at st
      · cases st
      · cases st
        exact h.persist get
  | verdict o now =>
    cases st
    refine h.rewrite ?_ rfl rfl
    exact fun _ => ⟨rfl, rfl, rfl, rfl, rfl⟩
  | submitted o bid now =>
    cases st
    refine h.rewrite ?_ rfl rfl
    exact fun _ => ⟨rfl, rfl, rfl, rfl, rfl⟩
  | execute o qty =>
    simp only [Exposure.step] at st
    split at st
    · cases st
    · rename_i order get
      split at st
      · rename_i can
        cases st
        exact h.execute get can
      · cases st
  | deliver payload now =>
    cases st
    cases handle s.db payload with
    | none => exact h
    | some pending =>
      obtain ⟨o, f, same, orders, symbols⟩ := @write_orders s.db now pending
      exact h.rewrite same orders symbols
  | recompute symbolId =>
    cases st
    exact h.keep rfl rfl
  | syncRead =>
    cases st
    exact h.keep rfl rfl
  | syncWrite i =>
    simp only [Exposure.step] at st
    split at st
    · cases st
    · cases st
      exact h.keep rfl rfl

/-! ## The law -/

def thousand : Setting where
  accountId := 1
  cap := 1000
  price := fun _ => 100
  capPos := by norm_num
  pricePos := fun _ => by norm_num

def flat : State where
  db :=
    { accounts := Dict.empty.set 1 ⟨1, .paper, none, none⟩
      symbols := [⟨"AAPL", true⟩]
      riskLimits := [
        { userId := 1, scopeType := .global, brokerMode := .paper, maxGrossExposure := some 1000 }] }
  broker := { held := fun _ => 0 }

def buyTen : Label :=
  .evaluate { clock := ⟨1783954830000000, none⟩, latestClose := fun _ => some 100 }
    { userId := 1, accountId := 1, symbolTicker := "AAPL", side := .buy, qty := 10 } .paper .paper

def filledTen : List Label :=
  [buyTen, .persist 0 0, .verdict 0 0, .submitted 0 "b-1" 0, .execute 0 10,
    .deliver ⟨"b-1", .fill ⟨some (.execution "e-1"), 10, 100, false, none⟩⟩ 0, .recompute 0]

lemma flat_underCap : UnderCap thousand flat where
  exposure := by decide +kernel
  orders := by intro o order get; cases get
  fresh := by intro o _; rfl
  passed := by intro x m; cases m

end Workbench.Exposure
