import Workbench.Risk.Engine
import Workbench.Risk.LockState
import Workbench.Orders.Router

/-!
# Which adapter classifies and which one trades

Model of `OrderRouter._resolve_adapter` and `OrderRouter._gate_cancellation`
(`app/orders/router.py`). Orders reach the broker through the adapter registered under the account id
(or the default adapter); the classifier of a locked account, for a submission
(`permitsVerifiedReduction`) as for a cancellation (`gateCancellation`), reads the adapter registered
under the user id.

Whether the two are the same is a question about every broker state at once, so that is how
`OnTradedAccount` puts it: whatever the adapters answer, the decision is FAIL_CLOSED or it is the
decision that the answer of the trading adapter leads to.
-/

set_option linter.dupNamespace false

namespace Workbench.Orders
open Workbench.Lib Workbench.Risk Workbench.Brokers List

/-- The collaborators of Python `OrderRouter` that decide which adapter is used. -/
structure OrderRouter where
  adapter : Adapter
  registry : Option BrokerRegistry

/-- Python `_resolve_adapter`, for an account id and whether its row was loaded. -/
def OrderRouter.resolveAdapter (router : OrderRouter) (db : Db) (accountId : Nat) : Adapter :=
  match db.accounts.get accountId with
  | none => router.adapter
  | some _ => ((router.registry.bind (·.get accountId))).getD router.adapter

/-- The action a cancellation is classified as. -/
def cancellation (db : Db) (order : Order) : ProposedAction where
  action := .orderCancel
  symbol := upper ((db.ticker order).getD "")
  targetOrderId := order.brokerOrderId

/-- What `_gate_cancellation` did: nothing (the account is not locked), a decision by the classifier,
    or a refusal because there is no registry to read the broker through. -/
inductive CancelGate where
  | unlocked
  | decided (result : RiskEffectDecision)
  | noRegistry

/-- Python `_gate_cancellation`. -/
def gateCancellation (router : OrderRouter) (reads : BrokerReads) (db : Db) (order : Order)
    (now : Instant) : Db × CancelGate :=
  match db.accounts.get order.accountId with
  | none => (db, .unlocked)
  | some account =>
    let lock := currentLockState db order.accountId order.userId account.mode
    if lock.lockState = .unlocked then (db, .unlocked)
    else match router.registry with
      | none => (db, .noRegistry)
      | some registry =>
        let (db, decided) := decide db order.accountId
          (decisionRead reads (registry.get order.userId)) (cancellation db order)
          ⟨lock.lockState, lock.lockReason, lock.dailyPnl⟩ now
        (db, .decided decided.result)

/-- The reasons of the `CancelRejectedByRisk` that the gate raises, `none` when it lets the
    cancellation through. -/
def CancelGate.rejection : CancelGate → Option (List RiskEffectReason)
  | .unlocked => none
  | .noRegistry => some [.snapshotIncomplete]
  | .decided result => if permitsWhileLocked result then none else some result.reasons

/-! ## Decisions on an adapter -/

section Decisions

variable {db : Db} {a : Nat} {read : Option BrokerRead} {action : ProposedAction}
variable {args args' : DecideArgs} {now now' : Instant}

lemma decide_result : (decide db a read action args now).2.result = (decide db a read action args' now').2.result := by
  simp only [Risk.decide, decideWrite]
  split
  · split <;> rfl
  · rfl

lemma decide_ledger : ∃ row : LedgerRow, (row.accountId = a ∧ row.action = action) ∧
    row.result = (decide db a read action args now).2.result ∧
    (decide db a read action args now).1.ledger = db.ledger ++ [row] := by
  unfold Risk.decide
  rcases decideWrite_cases db a (decisionSnapshot db a read) action args now with
    ⟨q, db', v, -, claim, e⟩ | ⟨-, db', result, rfl | rfl, e⟩
  · rw [claimCapacity_frame claim] at e
    rw [e]
    exact ⟨_, ⟨rfl, rfl⟩, rfl, rfl⟩
  · rw [e]
    exact ⟨_, ⟨rfl, rfl⟩, rfl, rfl⟩
  · rw [e]
    exact ⟨_, ⟨rfl, rfl⟩, rfl, rfl⟩

lemma decide_classify (unclaimed : (classify (decisionSnapshot db a read) action).isVerifiedReduction =
    false ∨ action.qty = none) :
    (decide db a read action args now).2.result = classify (decisionSnapshot db a read) action := by
  simp only [Risk.decide, decideWrite]
  rcases unclaimed with unverified | unsized
  · rw [unverified]
  · rw [unsized]
    split
    · rename_i eq
      cases eq
    · rfl

lemma decide_unread : (decide db a none action args now).2.result.decision = .failClosed := by
  have incomplete : classify (decisionSnapshot db a none) action =
      emit (decisionSnapshot db a none) action .indeterminate .failClosed [.snapshotIncomplete]
        none none none none := rfl
  have refused : (classify (decisionSnapshot db a none) action).isVerifiedReduction = false := by
    rw [incomplete]
    rfl
  rw [decide_classify (.inl refused), incomplete]
  rfl

end Decisions

/-- The decision on an action that the answer of `adapter` leads to. -/
def decisionOn (db : Db) (accountId : Nat) (action : ProposedAction) (reads : BrokerReads)
    (adapter : Option Adapter) : RiskEffectDecision :=
  (decide db accountId (decisionRead reads adapter) action {} 0).2.result

/-- Every decision logged between `db` and `db'` fails closed, or is the one that the answer of the
    trading adapter leads to. -/
def OnTradedAccount (db db' : Db) (accountId : Nat) (action : ProposedAction) (reads : BrokerReads)
    (traded : Adapter) : Prop :=
  ∀ row ∈ db'.ledger.drop db.ledger.length, row.result.decision = .failClosed ∨
    row.result = decisionOn db accountId action reads (some traded)

/-- An action that some answer of the broker gets past the fail-closed checks. -/
def Answerable (db : Db) (accountId : Nat) (action : ProposedAction) : Prop :=
  ∃ read, (decide db accountId (some read) action {} 0).2.result.decision ≠ .failClosed

section Asked

variable {db : Db} {a : Nat} {action : ProposedAction} {asked : Option Adapter} {traded : Adapter}

lemma OnTradedAccount.of_agree (agree : ∀ x, asked = some x → x = traded) {reads : BrokerReads}
    {args : DecideArgs} {now : Instant} :
    OnTradedAccount db (decide db a (decisionRead reads asked) action args now).1 a action reads traded := by
  intro row mem
  obtain ⟨row', -, result, logged⟩ := @decide_ledger db a (decisionRead reads asked) action args now
  rw [logged, drop_left, mem_singleton] at mem
  subst mem
  rw [result]
  cases asked with
  | none => exact .inl decide_unread
  | some x =>
    cases agree x rfl
    exact .inr decide_result

lemma OnTradedAccount.of_closed {read : Option BrokerRead} {reads : BrokerReads} {args : DecideArgs}
    {now : Instant} (closed : (decide db a read action args now).2.result.decision = .failClosed) :
    OnTradedAccount db (decide db a read action args now).1 a action reads traded := by
  intro row mem
  obtain ⟨row', -, result, logged⟩ := @decide_ledger db a read action args now
  rw [logged, drop_left, mem_singleton] at mem
  subst mem
  rw [result]
  exact .inl closed

lemma OnTradedAccount.agree (answerable : Answerable db a action) {args : DecideArgs} {now : Instant}
    (h : ∀ reads, OnTradedAccount db (decide db a (decisionRead reads asked) action args now).1
      a action reads traded) : ∀ x, asked = some x → x = traded := by
  intro x eq
  subst eq
  by_contra ne
  obtain ⟨read, open_⟩ := answerable
  -- the classified adapter answers, the trading one does not
  let reads : BrokerReads := fun y _ => if y = x then some read else none
  have answers : decisionRead reads (some x) = some read := if_pos rfl
  have silent : decisionRead reads (some traded) = none := if_neg (Ne.symm ne)
  obtain ⟨row, -, result, logged⟩ := @decide_ledger db a (decisionRead reads (some x)) action args now
  have mem : row ∈ (decide db a (decisionRead reads (some x)) action args now).1.ledger.drop
      db.ledger.length := by
    rw [logged, drop_left]
    exact mem_singleton_self row
  rw [answers, @decide_result db a (some read) action args {} now 0] at result
  rcases h reads row mem with closed | same
  · rw [result] at closed
    exact open_ closed
  · have closed : (decisionOn db a action reads (some traded)).decision = .failClosed := by
      rw [decisionOn, silent]
      exact decide_unread
    rw [← same, result] at closed
    exact open_ closed

end Asked

/-! ## Every order that matters is answerable -/

/-- A broker answer with no position and one open order, stamped no earlier than anything seen
    locally. -/
def probe (db : Db) (accountId : Nat) (id : String) : BrokerRead where
  orders := [
    { id, symbol := "", side := .buy, qty := 0, filledQty := 0,
      stamps := [(observedCursor db accountId).getD "", "9"] }]

/-- The open order of a probe, as the snapshot has it. -/
def probeOrder (id : String) : SnapshotOpenOrder := ⟨id, upper "", .buy, 0, false, false⟩

section Probe

variable {db : Db} {a : Nat} {id : String}

lemma probe_openOrders : (decisionSnapshot db a (some (probe db a id))).openOrders = [probeOrder id] := by
  simp [decisionSnapshot, fetchSnapshot, probe, probeOrder, snapshotOpenOrder, snapshotPositions]

lemma probe_cursor : ∃ cursor, (decisionSnapshot db a (some (probe db a id))).brokerCursor = some cursor ∧
      ∀ seen, observedCursor db a = some seen → ¬ cursor < seen := by
  have event : ∀ seen : String, ∃ cursor, cursor ≠ "" ∧ ¬ cursor < seen ∧
      (maxString ([seen, "9"].filter (· ≠ ""))).getD "" = cursor := by
    intro seen
    by_cases empty : seen = ""
    · subst empty
      exact ⟨"9", by decide, by decide, rfl⟩
    · have kept : [seen, "9"].filter (· ≠ "") = [seen, "9"] := by simp [empty]
      rw [kept]
      by_cases later : seen < "9"
      · exact ⟨"9", by decide, String.lt_asymm later, congrArg (Option.getD · "") (congrArg some (if_pos later))⟩
      · exact ⟨seen, empty, String.lt_irrefl seen, congrArg (Option.getD · "") (congrArg some (if_neg later))⟩
  obtain ⟨cursor, ne, notBehind, e⟩ := event ((observedCursor db a).getD "")
  refine ⟨cursor, ?_, ?_⟩
  · have : (decisionSnapshot db a (some (probe db a id))).brokerCursor =
        if (maxString ([(observedCursor db a).getD "", "9"].filter (· ≠ ""))).getD "" = "" then none
        else some ((maxString ([(observedCursor db a).getD "", "9"].filter (· ≠ ""))).getD "") := rfl
    rw [this, e, if_neg ne]
  · intro seen eq
    rw [eq] at notBehind
    exact notBehind

lemma probe_complete {candidate : Option String} :
    (decisionSnapshot db a (some (probe db a id))).isCausallyComplete candidate = none := by
  obtain ⟨cursor, e, notBehind⟩ := @probe_cursor db a id
  have seen : (decisionSnapshot db a (some (probe db a id))).observedCursor = observedCursor db a := rfl
  have complete : (decisionSnapshot db a (some (probe db a id))).complete = true := rfl
  unfold AccountSnapshot.isCausallyComplete
  rw [complete, e, seen, probe_openOrders]
  cases observed : observedCursor db a with
  | none => rfl
  | some x => simp [notBehind x observed, probeOrder]

lemma answerable_submission {req : OrderRequest} (pos : 0 < req.qty) : Answerable db a (submission req) := by
  refine ⟨probe db a "", ?_⟩
  have result : (classify (decisionSnapshot db a (some (probe db a ""))) (submission req)).decision =
      .reject := by
    unfold classify
    rw [probe_complete]
    simp only [submission, not_le.2 pos, if_false]
    exact classifySubmit_flat rfl
  have refused : (classify (decisionSnapshot db a (some (probe db a "")))
      (submission req)).isVerifiedReduction = false := by
    simp [RiskEffectDecision.isVerifiedReduction, result]
  rw [decide_classify (.inl refused), result]
  simp

lemma answerable_cancellation {order : Order} (sent : order.brokerOrderId = some id) :
    Answerable db a (cancellation db order) := by
  refine ⟨probe db a id, ?_⟩
  have result : (classify (decisionSnapshot db a (some (probe db a id)))
      (cancellation db order)).decision = .allow := by
    unfold classify
    rw [probe_complete]
    simp [cancellation, classifyCancel, probe_openOrders, probeOrder, sent, emit]
  rw [decide_classify (.inr rfl), result]
  simp

lemma cancellation_unsent {order : Order} (unsent : order.brokerOrderId = none)
    {read : Option BrokerRead} {args : DecideArgs} {now : Instant} :
    (decide db a read (cancellation db order) args now).2.result.decision = .failClosed := by
  have missing : ∀ snap : AccountSnapshot,
      snap.openOrders.find? (fun o => some o.orderId == (cancellation db order).targetOrderId) = none := by
    intro snap
    simp [cancellation, unsent]
  rw [decide_classify (.inr rfl)]
  unfold classify
  split
  · rfl
  · show (classifyCancel _ _).decision = _
    rw [classifyCancel, missing]
    rfl

end Probe

/-! ## The account classified and the account traded -/

/-- The adapter registered under the user id, if there is one, is the one that trades the account. -/
def KeysAgree (router : OrderRouter) (db : Db) (userId accountId : Nat) : Prop :=
  ∀ x, router.registry.bind (·.get userId) = some x → x = router.resolveAdapter db accountId

/-- Whatever the broker answers, a submission on a locked account is decided on the account it will
    be sent to. -/
def SubmittedOnTradedAccount (router : OrderRouter) (db : Db) (req : OrderRequest) : Prop :=
  ∀ (env : Env) (args : DecideArgs), env.registry = router.registry →
    OnTradedAccount db (permitsVerifiedReduction env req args ⟨db, {}⟩).1.db req.accountId
      (submission req) env.reads (router.resolveAdapter db req.accountId)

/-- Whatever the broker answers, a cancellation is decided on the account it will be sent to. -/
def CanceledOnTradedAccount (router : OrderRouter) (db : Db) (order : Order) : Prop :=
  ∀ (reads : BrokerReads) (now : Instant),
    OnTradedAccount db (gateCancellation router reads db order now).1 order.accountId
      (cancellation db order) reads (router.resolveAdapter db order.accountId)

/-- The account of an order is locked, as the cancellation gate sees it. -/
def cancelLocked (db : Db) (order : Order) : Bool :=
  (db.accounts.get order.accountId).any fun account =>
    (currentLockState db order.accountId order.userId account.mode).lockState ≠ .unlocked

section Keys

variable {router : OrderRouter} {db : Db}

lemma OnTradedAccount.of_none {a : Nat} {action : ProposedAction} {reads : BrokerReads}
    {traded : Adapter} : OnTradedAccount db db a action reads traded := by
  intro row mem
  rw [drop_length] at mem
  cases mem

lemma submission_nonpositive {req : OrderRequest} (nonpos : req.qty ≤ 0) {read : Option BrokerRead}
    {args : DecideArgs} {now : Instant} {a : Nat} :
    (decide db a read (submission req) args now).2.result.decision = .failClosed := by
  have closed : (classify (decisionSnapshot db a read) (submission req)).decision = .failClosed := by
    unfold classify
    split
    · rfl
    · simp only [submission, if_pos nonpos]
      rfl
  have unverified : (classify (decisionSnapshot db a read)
      (submission req)).isVerifiedReduction = false := by
    simp [RiskEffectDecision.isVerifiedReduction, closed]
  rw [decide_classify (.inl unverified), closed]

lemma submittedOnTradedAccount_iff {req : OrderRequest} :
    SubmittedOnTradedAccount router db req ↔ req.qty ≤ 0 ∨ KeysAgree router db req.userId req.accountId := by
  unfold SubmittedOnTradedAccount KeysAgree
  cases reg : router.registry with
  | none =>
    refine iff_of_true ?_ (.inr (by simp))
    intro env args wired
    unfold permitsVerifiedReduction
    rw [wired]
    exact .of_none
  | some registry =>
    have decides (env : Env) (args : DecideArgs) (wired : env.registry = some registry) :
        (permitsVerifiedReduction env req args ⟨db, {}⟩).1.db =
          (decide db req.accountId (decisionRead env.reads (registry.get req.userId))
            (submission req) args env.clock.now).1 := by
      unfold permitsVerifiedReduction
      rw [wired]
      rfl
    constructor
    · intro h
      refine or_iff_not_imp_left.2 fun pos => ?_
      refine @OnTradedAccount.agree db req.accountId (submission req) _ _
        (answerable_submission (not_le.1 pos)) {} 0 fun reads => ?_
      have := h { clock := ⟨0, none⟩, registry := some registry, reads := reads } {} rfl
      rw [decides _ _ rfl] at this
      exact this
    · intro h env args wired
      rw [decides env args wired]
      rcases h with nonpos | agree
      · exact .of_closed (submission_nonpositive nonpos)
      · exact .of_agree agree

lemma canceledOnTradedAccount_iff {order : Order} :
    CanceledOnTradedAccount router db order ↔ cancelLocked db order = false ∨ order.brokerOrderId = none ∨
        KeysAgree router db order.userId order.accountId := by
  unfold CanceledOnTradedAccount cancelLocked KeysAgree gateCancellation
  cases row : db.accounts.get order.accountId with
  | none => exact iff_of_true (fun _ _ => .of_none) (.inl rfl)
  | some account =>
    dsimp only
    by_cases lock : (currentLockState db order.accountId order.userId account.mode).lockState = .unlocked
    · refine iff_of_true (fun _ _ => ?_) (.inl (by simp [lock]))
      rw [if_pos lock]
      exact .of_none
    · simp only [if_neg lock]
      cases reg : router.registry with
      | none => exact iff_of_true (fun _ _ => .of_none) (.inr (.inr (by simp)))
      | some registry =>
        have locked : (some account).any (fun account => Decidable.decide
            ((currentLockState db order.accountId order.userId account.mode).lockState ≠ .unlocked)) ≠
            false := by simp [lock]
        rw [or_iff_right locked]
        constructor
        · intro h
          cases sent : order.brokerOrderId with
          | none => exact .inl rfl
          | some id =>
            exact .inr (OnTradedAccount.agree (answerable_cancellation sent) fun reads => h reads 0)
        · intro h reads now
          rcases h with unsent | agree
          · exact .of_closed (cancellation_unsent unsent)
          · exact .of_agree agree

end Keys

/-- The account that a locked-account decision is taken on is the one that is traded, or the decision fails closed,
exactly when the adapter registered under the user id is the trading one, the cases apart in which no order goes out.
-/
theorem classified_account_is_traded_iff (router : OrderRouter) (db : Db) :
    (∀ req : OrderRequest, SubmittedOnTradedAccount router db req ↔
      req.qty ≤ 0 ∨ KeysAgree router db req.userId req.accountId) ∧
    (∀ order : Order, CanceledOnTradedAccount router db order ↔
      cancelLocked db order = false ∨ order.brokerOrderId = none ∨ KeysAgree router db order.userId order.accountId) :=
  ⟨fun _ => submittedOnTradedAccount_iff, fun _ => canceledOnTradedAccount_iff⟩

def twoAccounts : Db where
  accounts := (Dict.empty.set 1 ⟨1, .paper, none, none⟩).set 2 ⟨1, .paper, none, some 1783954800000000⟩
  symbols := [⟨"AAPL", true⟩]

def twoAdapters : OrderRouter where
  adapter := ⟨1⟩
  registry := some ((Dict.empty.set 1 ⟨1⟩).set 2 ⟨2⟩)

def oneLongOneFlat : BrokerReads := fun adapter _ =>
  if adapter.id = 1 then some { positions := [{ symbol := "AAPL", qty := 100, currentPrice := 180 }] }
  else some {}

def sellFromSecond : OrderRequest where
  userId := 1
  accountId := 2
  symbolTicker := "AAPL"
  side := .sell
  qty := 40

/-- The sell is approved as a verified reduction of account 1 and then sent to account 2, which holds
    nothing: on account 2's own position it is a rejected short. -/
theorem reduction_of_another_account_approved :
    (permitsVerifiedReduction
        { clock := ⟨1783954800000000, none⟩, registry := twoAdapters.registry, reads := oneLongOneFlat }
        sellFromSecond {} ⟨twoAccounts, {}⟩).2 = true ∧
      twoAdapters.resolveAdapter twoAccounts sellFromSecond.accountId = ⟨2⟩ ∧
      (decisionOn twoAccounts sellFromSecond.accountId (submission sellFromSecond) oneLongOneFlat
        (some ⟨2⟩)).decision = .reject ∧
      ¬ SubmittedOnTradedAccount twoAdapters twoAccounts sellFromSecond := by
  refine ⟨by decide +kernel, rfl, by decide +kernel, ?_⟩
  rw [submittedOnTradedAccount_iff]
  rintro (nonpos | agree)
  · exact absurd nonpos (by decide)
  · exact absurd (agree ⟨1⟩ rfl) (by decide)

end Workbench.Orders
