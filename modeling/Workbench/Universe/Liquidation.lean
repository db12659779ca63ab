import Workbench.Universe.Ownership

/-!
# Strategy position liquidation

Model of `app/universe/liquidation.py`, and when its orders are for shares of the strategy alone. A BUY is seen
under the security that its ticker denotes on the date of its first fill, and nothing is denoted past the
frontier of the identity table; and an order that the router returns counts as a liquidation whatever its
status.
-/

set_option linter.dupNamespace false

namespace Workbench.Universe
open Lib Market List

/-! ## The liquidator -/

/-- Python `LiquidationDisposition`. -/
inductive LiquidationDisposition where
  | liquidated | excludedAmbiguous | excludedUnclaimed | excludedIdentityUnresolved | excludedEvidenceMissing | error
deriving DecidableEq, Repr

/-- Python `LiquidationLine`. -/
structure LiquidationLine where
  ticker : String
  disposition : LiquidationDisposition
  securityId : Option String := none
  qty : Option ℚ := none
  orderId : Option Nat := none
  detail : Option String := none
deriving DecidableEq

/-- What is read of a position of the broker. -/
structure BrokerPosition where
  symbol : Option String
  qty : Option ℚ
deriving DecidableEq

/-- What is read of the `OrderRequest`; the rest of it is the same for every order. -/
structure OrderRequest where
  accountId : Nat
  symbolTicker : String
  side : OrderSide
  qty : ℚ
  sourceType : OrderSourceType
  confirmationText : String
deriving DecidableEq

/-- An order that the router returns. -/
structure RouterOrder where
  id : Option Nat
  status : OrderStatus
deriving DecidableEq

/-- A line, and the order that was submitted for it with what the router returned, unless it raised. -/
structure Handled where
  line : LiquidationLine
  submitted : Option (OrderRequest × Option RouterOrder) := none
deriving DecidableEq

/-- Python `_excluded_line`. -/
def excludedLine (symbol : String) : Option ExcludedHolding → LiquidationLine
  | none => { ticker := symbol, disposition := .excludedEvidenceMissing, detail := some "not_in_position_store" }
  | some exclusion =>
    match exclusion.reason with
    | .ownershipAmbiguous => { ticker := symbol, detail := exclusion.detail
                               disposition := if exclusion.detail = some "identity_unresolved"
                                 then .excludedIdentityUnresolved else .excludedAmbiguous }
    | .ownershipUnclaimed => { ticker := symbol, disposition := .excludedUnclaimed, detail := exclusion.detail }
    | .ownershipEvidenceMissing => { ticker := symbol, disposition := .excludedEvidenceMissing, detail :=
      exclusion.detail }

def BrokerPosition.ticker (pos : BrokerPosition) : String := upper (pos.symbol.getD "")

def closingOrder (account : Nat) (symbol : String) (qty : ℚ) : OrderRequest where
  accountId := account
  symbolTicker := symbol
  side := if 0 < qty then .sell else .buy
  qty := |qty|
  sourceType := .manual
  confirmationText := symbol

/-- The body of the loop of `liquidate`, with what the router does with an order for the position. -/
def liquidateOne (owned : OwnedHoldings) (account : Nat) (pos : BrokerPosition) (answer : Option RouterOrder) :
    Option Handled :=
  let symbol := pos.ticker
  match pos.qty with
  | none => none
  | some qty =>
    if symbol = "" then none
    else if qty = 0 then none
    else match owned.holdings.find? (·.ticker = symbol) with
      | none => some ⟨excludedLine symbol (owned.excluded.find? (·.ticker = symbol)), none⟩
      | some holding =>
        let req := closingOrder account symbol qty
        match answer with
        | none => some ⟨{ ticker := symbol, disposition := .error, securityId := some holding.securityId },
          some (req, none)⟩
        | some order => some ⟨{ ticker := symbol, disposition := .liquidated, securityId := some holding.securityId,
                                qty := some |qty|, orderId := order.id }, some (req, some order)⟩

/-- Python `liquidate`; `books` are the tables, unless the resolution raises. -/
def liquidate (books : Option Books) (account strategy : Nat) (positions : List (BrokerPosition × Option RouterOrder)) :
    List Handled :=
  match books with
  | none => []
  | some books => positions.filterMap fun p => liquidateOne (resolveHoldings books account strategy) account p.1 p.2

/-! ## What it should do -/

section Claim

variable (books : Books) (account strategy : Nat)

def Mine (order : OrderRow) : Prop := order.sourceType = .strategy ∧ order.sourceId.getD "" = toString strategy

/-- A filled BUY of a security: one of its fills is on a date on which its ticker denotes the security; past the
    frontier it denotes what it denotes at the frontier. -/
def BuyOf (identity : String) (order : OrderRow) : Prop :=
  FilledBuy account order ∧ ∃ fill ∈ order.fills, ∃ frontier ∈ identityCoverageDate books.table,
    permatickerAsof books.table (upper order.ticker) (min (marketDate books.zone fill) frontier) = some identity

/-- The security of a symbol was bought by the strategy and by nobody else. -/
def OnlyOurs (symbol : String) : Prop :=
  ∃ frontier ∈ identityCoverageDate books.table, ∃ identity ∈ permatickerAsof books.table symbol frontier,
    (∃ order ∈ books.orders, BuyOf books account identity order ∧ Mine strategy order) ∧
      ∀ order ∈ books.orders, BuyOf books account identity order → Mine strategy order

end Claim

def BrokerPosition.NonZero (pos : BrokerPosition) : Prop := ∃ qty ∈ pos.qty, qty ≠ 0

instance (pos : BrokerPosition) : Decidable pos.NonZero := match eq : pos.qty with
  | none => isFalse (by simp [BrokerPosition.NonZero, eq])
  | some qty => decidable_of_iff (qty ≠ 0) (by simp [BrokerPosition.NonZero, eq])

/-- Every order is for shares of the strategy alone, every position that is not flat has its line, and a line is
    LIQUIDATED only when its order was not rejected. -/
structure Sound (books : Option Books) (account strategy : Nat)
    (positions : List (BrokerPosition × Option RouterOrder)) :
    Prop where
  ours : ∀ h ∈ liquidate books account strategy positions, ∀ req answer, h.submitted = some (req, answer) →
    ∃ b ∈ books, OnlyOurs b account strategy req.symbolTicker
  lines : (liquidate books account strategy positions).map (·.line.ticker) =
    (positions.filter (·.1.NonZero)).map (·.1.ticker)
  accepted : ∀ h ∈ liquidate books account strategy positions, h.line.disposition = .liquidated →
    ∃ req order, h.submitted = some (req, some order) ∧ order.status ≠ .rejected

/-! ## When it does -/

section Condition

variable (books : Books) (account strategy : Nat)

/-- The ticker of a filled BUY denotes the security on the date of its first fill. -/
def Acquires (identity : String) (order : OrderRow) : Prop :=
  FilledBuy account order ∧
    permatickerAsof books.table (upper order.ticker) (acquisitionOf books.zone order).acquiredOn = some identity

/-- A held symbol denotes a security that the strategy acquired. -/
def Claimed (symbol identity : String) : Prop :=
  symbol ∈ heldTickers books.positions account ∧
    (∃ frontier ∈ identityCoverageDate books.table, permatickerAsof books.table symbol frontier = some identity) ∧
      ∃ order ∈ books.orders, Acquires books account identity order ∧ Mine strategy order

def Contested (identity : String) : Prop :=
  ∃ order ∈ books.orders, Acquires books account identity order ∧ ¬Mine strategy order

end Condition

/-- The resolution does not raise when there is something to report, positions have a symbol, others who bought
    a claimed security acquired it (not only past the frontier), and the router rejects no order for a security
    that only the strategy acquired. -/
structure Clean (books : Option Books) (account strategy : Nat)
    (positions : List (BrokerPosition × Option RouterOrder)) :
    Prop where
  resolved : books = none → ∀ p ∈ positions, ¬p.1.NonZero
  named : ∀ p ∈ positions, p.1.NonZero → p.1.ticker ≠ ""
  seen : ∀ b ∈ books, ∀ p ∈ positions, p.1.NonZero → ∀ identity, Claimed b account strategy p.1.ticker identity →
    (∃ order ∈ b.orders, BuyOf b account identity order ∧ ¬Mine strategy order) → Contested b account strategy identity
  routed : ∀ b ∈ books, ∀ p ∈ positions, p.1.NonZero → ∀ identity, Claimed b account strategy p.1.ticker identity →
    ¬Contested b account strategy identity → ∀ order ∈ p.2, order.status ≠ .rejected

/-! ## Identities and sources -/

lemma permatickerAsof_some {table : List TickerRow} {ticker identity : String} {asOf : Int}
    (found : permatickerAsof table ticker asOf = some identity) :
    identity ≠ "" ∧ ∃ row ∈ table, ∃ last, row.permaticker = some identity ∧ row.lastpricedate = some last ∧
      asOf ≤ last := by
  simp only [permatickerAsof] at found
  split at found
  · rename_i _ ticker' permaticker first last rows
    split at found
    · rename_i within
      cases found
      have mem : (⟨ticker', some identity, some first, some last⟩ : TickerRow) ∈ table := by
        apply mem_of_mem_filter
        rw [rows]
        exact mem_singleton.2 rfl
      exact ⟨within.1, _, mem, last, rfl, rfl, within.2.2⟩
    · cases found
  · cases found

lemma asOf_le_frontier {table : List TickerRow} {ticker identity : String} {asOf frontier : Int}
    (found : permatickerAsof table ticker asOf = some identity) (covers : identityCoverageDate table = some frontier) :
    asOf ≤ frontier := by
  obtain ⟨-, row, mem, last, permaticker, lastpricedate, le⟩ := permatickerAsof_some found
  apply le.trans
  apply (max?_le_iff covers).1 le_rfl
  refine mem_filterMap.2 ⟨row, mem_filter.2 ⟨mem, ?_⟩, lastpricedate⟩
  rw [permaticker]
  rfl

lemma sourceValue_colon {t : OrderSourceType} : ':' ∉ (sourceValue t).toList := by
  cases t <;> decide

lemma sourceValue_injective : Function.Injective sourceValue := by
  intro a b eq
  cases a <;> cases b <;> first | rfl | simp [sourceValue] at eq

lemma sourceText_injective {a b : OrderSourceType} {x y : String} (eq : sourceText a x = sourceText b y) : a = b ∧
    x = y := by
  have chars := congrArg String.toList eq
  simp only [sourceText, String.toList_append, append_assoc] at chars
  have before {t : OrderSourceType} {rest : List Char} :
      ((sourceValue t).toList ++ (":".toList ++ rest)).takeWhile (· ≠ ':') = (sourceValue t).toList := by
    rw [takeWhile_append_of_pos]
    · simp
    · intro c mem
      have ne : c ≠ ':' := fun eq => sourceValue_colon (eq ▸ mem)
      simpa using ne
  have same : a = b := by
    apply sourceValue_injective
    apply String.toList_injective
    rw [← @before a x.toList, chars, before]
  subst same
  have rest := append_cancel_left (append_cancel_left chars)
  exact ⟨rfl, String.toList_injective rest⟩

/-! ## The ownership of a security -/

section Ownership

variable {books : Books} {account strategy : Nat} {identity : String}

def groupOf (books : Books) (account : Nat) (identity : String) : List Acquisition :=
  (acquisitions books.zone books.orders account).filter fun a => identityKey books.table a = (true, identity)

lemma identityKey_resolved {table : List TickerRow} {a : Acquisition} :
    identityKey table a = (true, identity) ↔ permatickerAsof table a.ticker a.acquiredOn = some identity := by
  simp only [identityKey]
  cases permatickerAsof table a.ticker a.acquiredOn with
  | none => simp
  | some other => simp

lemma mem_groupOf {a : Acquisition} :
    a ∈ groupOf books account identity ↔ ∃ order ∈ books.orders, Acquires books account identity order ∧
      acquisitionOf books.zone order = a := by
  simp only [groupOf, acquisitions, mem_filter, mem_map, decide_eq_true_eq, identityKey_resolved]
  constructor
  · rintro ⟨⟨order, ⟨mem, filled⟩, rfl⟩, denotes⟩
    exact ⟨order, mem, ⟨filled, denotes⟩, rfl⟩
  · rintro ⟨order, mem, ⟨filled, denotes⟩, rfl⟩
    exact ⟨⟨order, ⟨mem, filled⟩, rfl⟩, denotes⟩

lemma source_mine {order : OrderRow} :
    (acquisitionOf books.zone order).source = strategySource strategy ↔ Mine strategy order := by
  constructor
  · intro eq
    exact sourceText_injective eq
  · rintro ⟨sourceType, sourceId⟩
    simp only [acquisitionOf, strategySource, sourceType, sourceId]

lemma classify_owned {acqs : List Acquisition} {mine : String} :
    (classify true identity acqs mine).status = .owned ↔
      (∃ a ∈ acqs, a.source = mine) ∧ ∀ a ∈ acqs, a.source = mine ∧ a.sourceType = .strategy := by
  simp only [classify]
  split
  · rename_i nobody
    simp only [filter_eq_nil_iff, decide_eq_true_eq] at nobody
    simp only [reduceCtorEq, false_iff]
    rintro ⟨⟨a, mem, eq⟩, -⟩
    exact nobody a mem eq
  · rename_i some_
    have acquired : ∃ a ∈ acqs, a.source = mine := by
      obtain ⟨a, mem⟩ := exists_mem_of_ne_nil _ some_
      obtain ⟨mem, eq⟩ := mem_filter.1 mem
      exact ⟨a, mem, of_decide_eq_true eq⟩
    simp only [Bool.not_true, Bool.false_eq_true, if_false]
    split
    · rename_i others
      simp only [reduceCtorEq, false_iff]
      rintro ⟨-, sole⟩
      rw [Bool.or_eq_true, any_eq_true, any_eq_true] at others
      obtain ⟨a, mem, other⟩ | ⟨a, mem, other⟩ := others
      · exact (of_decide_eq_true other).1 (sole a mem).1
      · exact of_decide_eq_true other (sole a mem).2
    · rename_i sole
      simp only [Bool.or_eq_true, any_eq_true, not_or, not_exists, not_and] at sole
      simp only [true_iff]
      refine ⟨acquired, ?_⟩
      intro a mem
      have strategic : a.sourceType = .strategy := by
        have other := sole.2 a mem
        simpa using other
      have other := sole.1 a mem
      refine ⟨?_, strategic⟩
      simpa [strategic] using other

lemma foldl_group {acqs : List Acquisition} {group : Option (List Acquisition)} :
    acqs.foldl (fun group a => some (group.getD [] ++ [a])) group =
      if acqs = [] then group else some (group.getD [] ++ acqs) := by
  induction acqs generalizing group with
  | nil => rfl
  | cons a acqs ih =>
    rw [foldl_cons, ih]
    cases acqs with
    | nil => rfl
    | cons b acqs => simp

lemma get_byIdentity : (byIdentity books.table (acquisitions books.zone books.orders account)).get (true, identity) =
    if groupOf books account identity = [] then none else some (groupOf books account identity) := by
  rw [byIdentity, Dict.get_groupBy]
  exact foldl_group

lemma classify_securityId {resolved : Bool} {key mine : String} {acqs : List Acquisition}
    (is : (classify resolved key acqs mine).securityId = some identity) : resolved = true ∧ key = identity := by
  simp only [classify] at is
  cases resolved with
  | true =>
    refine ⟨rfl, ?_⟩
    split at is
    · exact Option.some.inj is
    · split at is
      · cases is
      · split at is
        · exact Option.some.inj is
        · exact Option.some.inj is
  | false =>
    split at is
    · cases is
    · cases is

lemma classify_resolved {mine : String} {acqs : List Acquisition} : (classify true identity acqs mine).securityId =
    some identity := by
  simp only [classify]
  split
  · rfl
  · split
    · rename_i absurd_
      cases absurd_
    · split
      · rfl
      · rfl

lemma getLast?_of_forall {α : Type*} {l : List α} {x : α} (same : ∀ y ∈ l, y = x) (some_ : l ≠ []) : l.getLast? =
    some x := by
  rw [getLast?_eq_some_getLast some_, same _ (getLast_mem some_)]

lemma securityOf_resolveOwned (named : identity ≠ "") :
    securityOf (resolveOwned books.zone books.table books.orders account strategy) identity =
      if groupOf books account identity = [] then none
      else some (classify true identity (groupOf books account identity) (strategySource strategy)) := by
  have group := @get_byIdentity books account identity
  -- what is stored under the identity is the classified group
  have stored {s : OwnedSecurity} (mem : s ∈ resolveOwned books.zone books.table books.orders account strategy)
      (is : s.securityId = some identity) : groupOf books account identity ≠ [] ∧
        s = classify true identity (groupOf books account identity) (strategySource strategy) := by
    obtain ⟨⟨⟨resolved, key⟩, acqs⟩, entry, rfl⟩ := mem_map.1 ((mem_insertionSort _).1 mem)
    obtain ⟨rfl, rfl⟩ := classify_securityId is
    have found := Dict.get_of_mem_entries entry
    rw [group] at found
    split at found
    · cases found
    · rename_i some_
      exact ⟨some_, by rw [Option.some.inj found]⟩
  simp only [securityOf]
  split
  · rename_i nobody
    rw [getLast?_eq_none_iff, filter_eq_nil_iff]
    intro s mem is
    exact (stored mem (of_decide_eq_true is).1).1 nobody
  · rename_i some_
    apply getLast?_of_forall
    · intro s mem
      obtain ⟨mem, is⟩ := mem_filter.1 mem
      exact (stored mem (of_decide_eq_true is).1).2
    · rw [if_neg some_] at group
      have entry := Dict.mem_entries_of_get group
      apply ne_nil_of_mem
      refine mem_filter.2 ⟨(mem_insertionSort _).2 (mem_map_of_mem entry), ?_⟩
      simp [classify_resolved, named]

lemma holdingOf_inl {securities : List OwnedSecurity} {ticker : String} {denoted : Option String} {h : OwnedHolding} :
    holdingOf securities ticker denoted = .inl h ↔
      ∃ id ∈ denoted, (∃ s ∈ securityOf securities id, s.status = .owned) ∧ h = ⟨ticker, id⟩ := by
  simp only [holdingOf]
  cases denoted with
  | none => simp
  | some id =>
    cases found : securityOf securities id with
    | none => simp [found]
    | some s =>
      simp only [Option.mem_def, Option.some.injEq, exists_eq_left', found]
      cases status : s.status <;> simp [eq_comm]

lemma owned_iff (named : identity ≠ "") :
    (∃ s ∈ securityOf (resolveOwned books.zone books.table books.orders account strategy) identity, s.status = .owned) ↔
      (∃ order ∈ books.orders, Acquires books account identity order ∧ Mine strategy order) ∧
        ¬Contested books account strategy identity := by
  rw [securityOf_resolveOwned named]
  have classified : (∃ a ∈ groupOf books account identity, a.source = strategySource strategy) ∧
      (∀ a ∈ groupOf books account identity, a.source = strategySource strategy ∧ a.sourceType = .strategy) ↔
      (∃ order ∈ books.orders, Acquires books account identity order ∧ Mine strategy order) ∧
        ¬Contested books account strategy identity := by
    constructor
    · rintro ⟨⟨a, mem, mine⟩, sole⟩
      obtain ⟨order, placed, acquires, rfl⟩ := mem_groupOf.1 mem
      refine ⟨⟨order, placed, acquires, source_mine.1 mine⟩, ?_⟩
      rintro ⟨other, mem, acquires, foreign⟩
      exact foreign (source_mine.1 (sole _ (mem_groupOf.2 ⟨other, mem, acquires, rfl⟩)).1)
    · rintro ⟨⟨order, mem, acquires, mine⟩, sole⟩
      refine ⟨⟨_, mem_groupOf.2 ⟨order, mem, acquires, rfl⟩, source_mine.2 mine⟩, ?_⟩
      intro a mem
      obtain ⟨other, placed, acquires, rfl⟩ := mem_groupOf.1 mem
      have mine : Mine strategy other := by
        by_contra foreign
        exact sole ⟨other, placed, acquires, foreign⟩
      exact ⟨source_mine.2 mine, mine.1⟩
  split
  · rename_i nobody
    rw [nobody] at classified
    rw [← classified]
    simp
  · rw [← classified, ← @classify_owned identity]
    simp

lemma mem_holdings {symbol : String} : ⟨symbol, identity⟩ ∈ (resolveHoldings books account strategy).holdings ↔
    Claimed books account strategy symbol identity ∧ ¬Contested books account strategy identity := by
  simp only [resolveHoldings]
  cases covers : identityCoverageDate books.table with
  | none => simp [Claimed, covers]
  | some frontier =>
    simp only [mem_filterMap, mem_map, exists_exists_and_eq_and]
    constructor
    · rintro ⟨ticker, held, left⟩
      obtain ⟨id, denotes, owned, eq⟩ := holdingOf_inl.1 (Sum.getLeft?_eq_some_iff.1 left)
      cases eq
      obtain ⟨acquired, sole⟩ := (owned_iff (permatickerAsof_some denotes).1).1 owned
      exact ⟨⟨held, ⟨frontier, covers, denotes⟩, acquired⟩, sole⟩
    · rintro ⟨⟨held, ⟨frontier', covers', denotes⟩, acquired⟩, sole⟩
      rw [covers] at covers'
      cases covers'
      refine ⟨symbol, held, Sum.getLeft?_eq_some_iff.2 (holdingOf_inl.2 ⟨identity, denotes, ?_, rfl⟩)⟩
      exact (owned_iff (permatickerAsof_some denotes).1).2 ⟨acquired, sole⟩

lemma Acquires.buyOf {order : OrderRow} (h : Acquires books account identity order) :
    BuyOf books account identity order := by
  obtain ⟨filled, denotes⟩ := h
  obtain ⟨-, row, mem, last, permaticker, lastpricedate, -⟩ := permatickerAsof_some denotes
  have usable : last ∈ (books.table.filter (·.permaticker.isSome)).filterMap (·.lastpricedate) := by
    refine mem_filterMap.2 ⟨row, mem_filter.2 ⟨mem, ?_⟩, lastpricedate⟩
    rw [permaticker]
    rfl
  obtain ⟨frontier, covers⟩ := Option.isSome_iff_exists.1 (isSome_max?_of_mem usable)
  obtain ⟨first, earliest⟩ := Option.isSome_iff_exists.1 (isSome_min?_of_ne_nil filled.2.2)
  have acquired : (acquisitionOf books.zone order).acquiredOn = marketDate books.zone first := by
    simp only [acquisitionOf, earliest, Option.getD_some]
  refine ⟨filled, first, min?_mem earliest, frontier, covers, ?_⟩
  rw [acquired] at denotes
  rw [min_eq_left (asOf_le_frontier denotes covers)]
  exact denotes

end Ownership

/-! ## The lines -/

section Lines

variable {owned : OwnedHoldings} {account : Nat} {pos : BrokerPosition} {answer : Option RouterOrder} {h : Handled}

lemma liquidateOne_isSome : (liquidateOne owned account pos answer).isSome = true ↔ pos.NonZero ∧ pos.ticker ≠ "" := by
  simp only [liquidateOne, BrokerPosition.NonZero]
  cases pos.qty with
  | none => simp
  | some qty =>
    by_cases named : pos.ticker = ""
    · simp [named]
    · by_cases flat : qty = 0
      · simp [named, flat]
      · simp only [named, flat, if_false]
        split
        · simp [flat, named]
        · split <;> simp [flat, named]

lemma excludedLine_ticker {symbol : String} {exclusion : Option ExcludedHolding} :
    (excludedLine symbol exclusion).ticker = symbol ∧ (excludedLine symbol exclusion).disposition ≠ .liquidated := by
  cases exclusion with
  | none => exact ⟨rfl, nofun⟩
  | some exclusion =>
    simp only [excludedLine]
    cases exclusion.reason with
    | ownershipAmbiguous =>
      refine ⟨rfl, ?_⟩
      dsimp only
      split <;> nofun
    | ownershipUnclaimed | ownershipEvidenceMissing => exact ⟨rfl, nofun⟩

lemma liquidateOne_cases (eq : liquidateOne owned account pos answer = some h) : h.line.ticker = pos.ticker ∧
    ((h.submitted = none ∧ h.line.disposition ≠ .liquidated ∧ ∀ held ∈ owned.holdings, held.ticker ≠ pos.ticker) ∨
      ∃ identity qty, ⟨pos.ticker, identity⟩ ∈ owned.holdings ∧
        h.submitted = some (closingOrder account pos.ticker qty, answer) ∧
        (h.line.disposition = .liquidated ↔ answer.isSome = true)) := by
  simp only [liquidateOne] at eq
  split at eq
  · cases eq
  · rename_i qty _
    split at eq
    · cases eq
    · split at eq
      · cases eq
      · split at eq
        · rename_i missing
          cases eq
          refine ⟨excludedLine_ticker.1, .inl ⟨rfl, excludedLine_ticker.2, ?_⟩⟩
          intro held mem same
          exact find?_eq_none.1 missing held mem (decide_eq_true same)
        · rename_i holding found
          have ticker : holding.ticker = pos.ticker := by
            have key := find?_some found
            simpa using key
          have mem : ⟨pos.ticker, holding.securityId⟩ ∈ owned.holdings := by
            rw [← ticker]
            exact mem_of_find?_eq_some found
          split at eq
          · cases eq
            exact ⟨rfl, .inr ⟨_, qty, mem, rfl, by simp⟩⟩
          · cases eq
            exact ⟨rfl, .inr ⟨_, qty, mem, rfl, by simp⟩⟩

lemma liquidateOne_holding {identity : String} (nonZero : pos.NonZero) (named : pos.ticker ≠ "")
    (mem : ⟨pos.ticker, identity⟩ ∈ owned.holdings) : ∃ h qty, liquidateOne owned account pos answer = some h ∧
      h.submitted = some (closingOrder account pos.ticker qty, answer) ∧
      (h.line.disposition = .liquidated ↔ answer.isSome = true) := by
  obtain ⟨h, eq⟩ := Option.isSome_iff_exists.1 (liquidateOne_isSome.2 ⟨nonZero, named⟩)
  obtain ⟨-, ⟨-, -, nobody⟩ | ⟨_, qty, -, submitted, liquidated⟩⟩ := liquidateOne_cases eq
  · exact absurd rfl (nobody _ mem)
  · exact ⟨h, qty, eq, submitted, liquidated⟩

end Lines

/-! ## The condition is exact -/

section Exact

variable {books : Books} {account strategy : Nat} {positions : List (BrokerPosition × Option RouterOrder)}

lemma mem_liquidate {h : Handled} : h ∈ liquidate (some books) account strategy positions ↔
    ∃ p ∈ positions, liquidateOne (resolveHoldings books account strategy) account p.1 p.2 = some h :=
  mem_filterMap

lemma liquidate_lines (named : ∀ p ∈ positions, p.1.NonZero → p.1.ticker ≠ "") :
    (liquidate (some books) account strategy positions).map (·.line.ticker) =
      (positions.filter (·.1.NonZero)).map (·.1.ticker) := by
  simp only [liquidate]
  induction positions with
  | nil => rfl
  | cons p positions ih =>
    have rest := ih fun q mem => named q (mem_cons_of_mem _ mem)
    rw [filterMap_cons]
    by_cases nonZero : p.1.NonZero
    · obtain ⟨h, eq⟩ :=
        Option.isSome_iff_exists.1 (@liquidateOne_isSome (resolveHoldings books account strategy) account
        p.1 p.2 |>.2 ⟨nonZero, named p mem_cons_self nonZero⟩)
      rw [eq, filter_cons_of_pos (by simpa using nonZero), map_cons, map_cons, rest,
        (liquidateOne_cases eq).1]
    · have none_ : liquidateOne (resolveHoldings books account strategy) account p.1 p.2 = none := by
        rw [← Option.not_isSome_iff_eq_none, liquidateOne_isSome]
        exact fun h => nonZero h.1
      rw [none_, filter_cons_of_neg (by simpa using nonZero), rest]

/-- The liquidation is sound if and only if the resolution does not raise when there is something to report, the
positions have symbols, others acquired what they claim, and the router rejects no order. -/
theorem liquidation_sound_iff {books : Option Books} : Sound books account strategy positions ↔
    Clean books account strategy positions := by
  cases books with
  | none =>
    have nothing (flat : ∀ p ∈ positions, ¬p.1.NonZero) : positions.filter (·.1.NonZero) = [] := by
      rw [filter_eq_nil_iff]
      intro p mem
      simpa using flat p mem
    constructor
    · intro sound
      have flat : ∀ p ∈ positions, ¬p.1.NonZero := by
        intro p mem nonZero
        have lines := sound.lines.symm
        simp only [liquidate, map_nil, map_eq_nil_iff, filter_eq_nil_iff] at lines
        exact lines p mem (decide_eq_true nonZero)
      exact ⟨fun _ => flat, fun p mem nonZero => absurd nonZero (flat p mem), nofun, nofun⟩
    · intro clean
      refine ⟨fun _ mem => absurd mem not_mem_nil, ?_, fun _ mem => absurd mem not_mem_nil⟩
      rw [nothing (clean.resolved rfl)]
      rfl
  | some books =>
    constructor
    · intro sound
      have named : ∀ p ∈ positions, p.1.NonZero → p.1.ticker ≠ "" := by
        intro p mem nonZero empty
        have line : p.1.ticker ∈ (liquidate (some books) account strategy positions).map (·.line.ticker) := by
          rw [sound.lines]
          exact mem_map.2 ⟨p, mem_filter.2 ⟨mem, decide_eq_true nonZero⟩, rfl⟩
        obtain ⟨h, handled, ticker⟩ := mem_map.1 line
        obtain ⟨q, -, eq⟩ := mem_liquidate.1 handled
        have some_ := (liquidateOne_isSome.1 (Option.isSome_iff_exists.2 ⟨h, eq⟩)).2
        rw [← (liquidateOne_cases eq).1, ticker] at some_
        exact some_ empty
      refine ⟨nofun, named, ?_, ?_⟩
      · intro b is p mem nonZero identity claimed ⟨order, placed, bought, foreign⟩
        cases is
        by_contra sole
        obtain ⟨h, qty, eq, submitted, -⟩ := @liquidateOne_holding _ account p.1 p.2 identity nonZero
            (named p mem nonZero)
          (mem_holdings.2 ⟨claimed, sole⟩)
        obtain ⟨b, is, frontier, covers, other, denotes, -, ours⟩ :=
          sound.ours h (mem_liquidate.2 ⟨p, mem, eq⟩) _ _ submitted
        cases is
        obtain ⟨-, ⟨frontier', covers', denotes'⟩, -⟩ := claimed
        obtain rfl : frontier = frontier' := Option.some.inj (covers.symm.trans covers')
        obtain rfl : other = identity := Option.some.inj (denotes.symm.trans denotes')
        exact foreign (ours order placed bought)
      · intro b is p mem nonZero identity claimed sole order answer
        cases is
        obtain ⟨h, qty, eq, submitted, liquidated⟩ := @liquidateOne_holding _ account p.1 p.2 identity nonZero
          (named p mem nonZero) (mem_holdings.2 ⟨claimed, sole⟩)
        obtain ⟨req, returned, submitted', accepted⟩ := sound.accepted h (mem_liquidate.2 ⟨p, mem, eq⟩)
          (liquidated.2 (Option.isSome_iff_exists.2 ⟨order, answer⟩))
        rw [submitted, Option.mem_def.1 answer] at submitted'
        cases submitted'
        exact accepted
    · intro clean
      have submittedFor {h : Handled} (handled : h ∈ liquidate (some books) account strategy positions) {req :
          OrderRequest}
          {answer : Option RouterOrder} (submitted : h.submitted = some (req, answer)) :
          ∃ p ∈ positions, p.1.NonZero ∧ req.symbolTicker = p.1.ticker ∧ p.2 = answer ∧ ∃ identity,
            Claimed books account strategy p.1.ticker identity ∧ ¬Contested books account strategy identity := by
        obtain ⟨p, mem, eq⟩ := mem_liquidate.1 handled
        obtain ⟨-, ⟨none_, -, -⟩ | ⟨identity, qty, holding, submitted', -⟩⟩ := liquidateOne_cases eq
        · rw [none_] at submitted
          cases submitted
        · rw [submitted'] at submitted
          cases submitted
          exact ⟨p, mem, (liquidateOne_isSome.1 (Option.isSome_iff_exists.2 ⟨h, eq⟩)).1, rfl, rfl, identity,
            mem_holdings.1 holding⟩
      refine ⟨?_, liquidate_lines clean.named, ?_⟩
      · intro h handled req answer submitted
        obtain ⟨p, mem, nonZero, symbol, -, identity, claimed, sole⟩ := submittedFor handled submitted
        refine ⟨books, rfl, ?_⟩
        rw [symbol]
        obtain ⟨-, ⟨frontier, covers, denotes⟩, order, placed, acquires, mine⟩ := id claimed
        refine ⟨frontier, covers, identity, denotes, ⟨order, placed, acquires.buyOf, mine⟩, ?_⟩
        intro other placed' bought
        by_contra foreign
        exact sole (clean.seen books rfl p mem nonZero identity claimed ⟨other, placed', bought, foreign⟩)
      · intro h handled liquidated
        obtain ⟨p, mem, eq⟩ := mem_liquidate.1 handled
        obtain ⟨-, ⟨-, not, -⟩ | ⟨identity, qty, holding, submitted, iff⟩⟩ := liquidateOne_cases eq
        · exact absurd liquidated not
        · obtain ⟨order, answer⟩ := Option.isSome_iff_exists.1 (iff.1 liquidated)
          obtain ⟨claimed, sole⟩ := mem_holdings.1 holding
          have nonZero := (liquidateOne_isSome.1 (Option.isSome_iff_exists.2 ⟨h, eq⟩)).1
          rw [answer] at submitted
          exact ⟨_, order, submitted, clean.routed books rfl p mem nonZero identity claimed sole order answer⟩

end Exact

def bought (others : List OrderRow) : Books where
  zone := ⟨fun _ => 0⟩
  table := [⟨"AAPL", some "199059", some 0, some 20⟩]
  orders := ⟨1, 6, .buy, .strategy, some "8", 10 * 1440 * minute, "AAPL", [10 * 1440 * minute]⟩ :: others
  positions := [⟨6, "AAPL", 10⟩]

def manualBuy : OrderRow := ⟨2, 6, .buy, .manual, none, 21 * 1440 * minute, "AAPL", [21 * 1440 * minute]⟩

theorem liquidation_unsound : ¬Sound (some (bought [manualBuy])) 6 8
    [(⟨some "AAPL", some 10⟩, some ⟨some 77, .submitted⟩)] ∧
    ¬Sound (some (bought [])) 6 8 [(⟨some "AAPL", some 10⟩, some ⟨some 77, .rejected⟩)] := by
  refine ⟨?_, ?_⟩
  · intro sound
    have handled : liquidate (some (bought [manualBuy])) 6 8 [(⟨some "AAPL", some 10⟩, some ⟨some 77, .submitted⟩)] =
        [⟨{ ticker := "AAPL", disposition := .liquidated, securityId := some "199059", qty := some 10, orderId :=
          some 77 },
          some (closingOrder 6 "AAPL" 10, some ⟨some 77, .submitted⟩)⟩] := by decide +kernel
    obtain ⟨b, is, frontier, covers, identity, denotes, -, ours⟩ := sound.ours _ (handled ▸ mem_singleton.2 rfl) _ _ rfl
    cases is
    have covered : identityCoverageDate (bought [manualBuy]).table = some 20 := by decide +kernel
    obtain rfl : frontier = 20 := Option.some.inj (covers.symm.trans covered)
    have denoted : permatickerAsof (bought [manualBuy]).table "AAPL" 20 = some "199059" := by decide +kernel
    obtain rfl : identity = "199059" := Option.some.inj (denotes.symm.trans denoted)
    have buy : BuyOf (bought [manualBuy]) 6 "199059" manualBuy :=
      ⟨by decide +kernel, 21 * 1440 * minute, mem_singleton.2 rfl, 20, covered, by decide +kernel⟩
    have mine := ours manualBuy (mem_cons_of_mem _ mem_cons_self) buy
    exact absurd mine.1 (by decide)
  · intro sound
    have handled : liquidate (some (bought [])) 6 8 [(⟨some "AAPL", some 10⟩, some ⟨some 77, .rejected⟩)] =
        [⟨{ ticker := "AAPL", disposition := .liquidated, securityId := some "199059", qty := some 10, orderId :=
          some 77 },
          some (closingOrder 6 "AAPL" 10, some ⟨some 77, .rejected⟩)⟩] := by decide +kernel
    obtain ⟨req, order, submitted, accepted⟩ := sound.accepted _ (handled ▸ mem_singleton.2 rfl) rfl
    cases submitted
    exact accepted rfl

end Workbench.Universe
