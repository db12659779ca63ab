import Workbench.Audit.Chain

/-!
# Tamper evidence

Two tables that verify, and share a row, say the same up to that row in its chain: the same rows in the same
order, each up to the spelling of its columns (`upto_said`). An edit before a row that is left alone is
therefore found, unless nothing that is hashed changes.
-/

namespace Workbench.Audit
open Workbench.Lib List
variable {t : AuditTable} {c : Row}

/-! ## What a row says -/

/-- What is hashed of a row, up to spelling, and its hash. -/
structure Said where
  content : Content
  ts : Option (List Char)
  link : Option String
  rowHash : String

/-- What a row says: a payload that is missing is empty, a timestamp counts in its canonical form. -/
def Row.said (row : Row) : Said where
  content := { row.toContent with payloadJson := some (row.payloadJson.getD "") }
  ts := canonTs (.text row.ts)
  link := row.link
  rowHash := row.rowHash

lemma orNone_getD {x : Option String} : orNone (some (x.getD "")) = orNone x := by
  cases x with
  | none => rfl
  | some s => rfl

lemma Json.ofOption_injective {a b : Option String} (h : Json.ofOption a = Json.ofOption b) : a = b := by
  cases a <;> cases b <;> cases h <;> rfl

lemma canonical_injective {c d : Content} {ts ts' : List Char} {p q : Option String}
    (h : canonical c ts p = canonical d ts' q) :
    { c with payloadJson := some (c.payloadJson.getD "") } = { d with payloadJson := some (d.payloadJson.getD "") } ∧
      ts = ts' ∧ orNone p = orNone q := by
  simp only [canonical, Json.obj.injEq, List.cons.injEq, Prod.mk.injEq, Json.str.injEq, true_and, and_true] at h
  obtain ⟨action, actorId, actorType, payload, prev, targetId, targetType, ts, user⟩ := h
  refine ⟨?_, String.ofList_injective ts, ?_⟩
  · have user : c.userId = d.userId := by
      cases hc : c.userId <;> cases hd : d.userId <;> simp_all
    rw [Content.mk.injEq]
    exact ⟨user, actorType, Json.ofOption_injective actorId, action, Json.ofOption_injective targetType,
      Json.ofOption_injective targetId, congrArg some payload⟩
  · rw [← orNone_getD, prev, orNone_getD]

variable {sha : Sha256}

lemma said_of_rowHash (inj : Function.Injective sha.hexdigest) {a b : Row} (sealeda : a.Sealed sha)
    (sealedb : b.Sealed sha) (eq : a.rowHash = b.rowHash) : a.said = b.said := by
  obtain ⟨ts, canon, hash⟩ := Option.map_eq_some_iff.1 sealeda
  obtain ⟨ts', canon', hash'⟩ := Option.map_eq_some_iff.1 sealedb
  have same := inj ((hash.trans eq).trans hash'.symm)
  obtain ⟨content, rfl, link⟩ := canonical_injective (Json.dumps_injective same)
  rw [Row.said, Row.said, Said.mk.injEq]
  exact ⟨content, canon.trans canon'.symm, link, eq⟩

lemma sealed_iff {row : Row} : row.Sealed sha ↔
    row.said.ts.map (fun ts => hashCanonical sha row.said.content ts row.said.link) = some row.said.rowHash := by
  have same : ∀ ts, canonical row.toContent ts row.prevHash = canonical row.said.content ts row.said.link := by
    intro ts
    have link : row.prevHash.getD "" = row.link.getD "" := by
      rw [Row.link]
      cases row.prevHash with
      | none => rfl
      | some s =>
        by_cases empty : s = ""
        · rw [empty]
          rfl
        · rw [orNone_some empty]
    rw [canonical, canonical, link]
    rfl
  rw [Row.Sealed, computeRowHash]
  simp only [hashCanonical, same]
  rfl

lemma verify_congr {t' : AuditTable} (same : t.rows.map Row.said = t'.rows.map Row.said)
    (ok : verify sha t = some 0) : verify sha t' = some 0 := by
  obtain ⟨sealed, linked⟩ := verify_eq_zero.1 ok
  rw [verify_eq_zero]
  constructor
  · intro row mem
    obtain ⟨row', mem', eq⟩ := mem_map.1 (same ▸ mem_map_of_mem mem)
    rw [sealed_iff, ← eq, ← sealed_iff]
    exact sealed row' mem'
  · intro user
    have said : (t.chain user).map Row.said = (t'.chain user).map Row.said := by
      have rows := congrArg (List.filter fun x : Said => x.content.userId = user) same
      rwa [filter_map, filter_map] at rows
    have both := congrArg (List.map fun x : Said => (x.link, x.rowHash)) said
    rw [map_map, map_map] at both
    exact (linked user).congr both

/-! ## Up to a row -/

def AuditTable.upto (t : AuditTable) (c : Row) : List Row :=
  t.rows.filter fun r => r.userId = c.userId ∧ r.id ≤ c.id

lemma upto_eq (mem : c ∈ t.rows) : ∃ as bs, t.chain c.userId = as ++ c :: bs ∧ t.upto c = as ++ [c] := by
  obtain ⟨xs, ys, eq⟩ := append_of_mem mem
  have sorted := t.sorted
  rw [eq, pairwise_append, pairwise_cons] at sorted
  obtain ⟨-, ⟨after, -⟩, before⟩ := sorted
  refine ⟨xs.filter (·.userId = c.userId), ys.filter (·.userId = c.userId), ?_, ?_⟩
  · rw [AuditTable.chain, eq, filter_append, filter_cons_of_pos (by simp)]
  · rw [AuditTable.upto, eq, filter_append, filter_cons_of_pos (by simp)]
    congr 1
    · apply filter_congr
      intro r mem
      simp [(before r mem c mem_cons_self).le]
    · rw [filter_eq_nil_iff.2]
      intro r mem
      simp [after r mem]

lemma linked_upto (ok : verify sha t = some 0) (mem : c ∈ t.rows) : Linked Row.link (·.rowHash) none (t.upto c) := by
  obtain ⟨as, bs, chain, upto⟩ := upto_eq mem
  have linked := (verify_eq_zero.1 ok).2 c.userId
  rw [chain, show as ++ c :: bs = (as ++ [c]) ++ bs by simp, linked_append, ← upto] at linked
  exact linked.1

/-- Tables that verify and share a row say the same up to it. -/
theorem upto_said (inj : Function.Injective sha.hexdigest) {t' : AuditTable}
    (ok : verify sha t = some 0) (ok' : verify sha t' = some 0) (mem : c ∈ t.rows) (mem' : c ∈ t'.rows) :
    (t.upto c).map Row.said = (t'.upto c).map Row.said := by
  have chained := linked_upto ok mem
  have chained' := linked_upto ok' mem'
  obtain ⟨as, -, -, upto⟩ := upto_eq mem
  obtain ⟨bs, -, -, upto'⟩ := upto_eq mem'
  rw [upto] at chained
  rw [upto'] at chained'
  rw [upto, upto']
  apply Linked.determined _ _ chained chained' rfl
  · intro x memx y memy eq
    rw [← upto] at memx
    rw [← upto'] at memy
    exact said_of_rowHash inj ((verify_eq_zero.1 ok).1 x (mem_filter.1 memx).1)
      ((verify_eq_zero.1 ok').1 y (mem_filter.1 memy).1) eq
  · intro x y eq
    exact congrArg Said.link eq

lemma upto_nodup (inj : Function.Injective sha.hexdigest)
    (ok : verify sha t = some 0) (mem : c ∈ t.rows) : ((t.upto c).map Row.said).Nodup := by
  have sealed := (verify_eq_zero.1 ok).1
  apply Linked.keys_nodup _ _ _ (linked_upto ok mem)
  · intro x memx y memy eq
    exact said_of_rowHash inj (sealed x (mem_filter.1 memx).1) (sealed y (mem_filter.1 memy).1) eq
  · intro x y eq
    exact congrArg Said.rowHash eq
  · intro x y eq
    exact congrArg Said.link eq

/-! ## Edits -/

/-- One row is written over; its id and its hash may change as well. -/
def Changed (t t' : AuditTable) (old new : Row) : Prop :=
  old ∈ t.rows ∧ t'.rows.Perm (new :: t.rows.erase old)

def Deleted (t t' : AuditTable) (old : Row) : Prop := old ∈ t.rows ∧ t'.rows.Perm (t.rows.erase old)

def Inserted (t t' : AuditTable) (new : Row) : Prop := t'.rows.Perm (new :: t.rows)

/-- `a'` is `a` in the place of `b`; it may have been hashed again. -/
def Row.MovedTo (a' a b : Row) : Prop :=
  a' = { a with id := b.id, rowHash := a'.rowHash, prevHash := a'.prevHash }

def Swapped (t t' : AuditTable) (a b a' b' : Row) : Prop :=
  a ∈ t.rows ∧ b ∈ t.rows ∧ a ≠ b ∧ a'.MovedTo a b ∧ b'.MovedTo b a ∧
    t'.rows.Perm (a' :: b' :: (t.rows.erase a).erase b)

/-- A row stays between the same rows of its chain. -/
def KeepsPlace (t : AuditTable) (old new : Row) : Prop :=
  ∀ r ∈ t.rows, r ≠ old → r.userId = old.userId → (r.id < old.id ↔ r.id < new.id)

/-! ### The order of two elements -/

lemma not_both_orders {α : Type*} {x y : α} {l : List α} (nodup : l.Nodup) (xy : [x, y].Sublist l)
    (yx : [y, x].Sublist l) : False := by
  obtain ⟨r₁, r₂, eq, memx, resty⟩ := cons_sublist_iff.1 xy
  obtain ⟨q₁, q₂, eq', memy, restx⟩ := cons_sublist_iff.1 yx
  rw [singleton_sublist] at resty restx
  rw [eq] at nodup eq'
  have disjoint := (nodup_append.1 nodup).2.2
  rcases append_eq_append_iff.1 eq' with ⟨m, rfl, rfl⟩ | ⟨m, rfl, rfl⟩
  · exact disjoint x memx x (mem_append_right _ restx) rfl
  · exact disjoint y (mem_append_left _ memy) y resty rfl

lemma sublist_pair {l : List Row} (sorted : l.Pairwise (·.id < ·.id)) {a b : Row} (mema : a ∈ l) (memb : b ∈ l)
    (lt : a.id < b.id) : [a, b].Sublist l := by
  obtain ⟨xs, ys, rfl⟩ := append_of_mem mema
  have before := (pairwise_append.1 sorted).2.2
  have after : b ∈ ys := by
    rcases mem_append.1 memb with mem | mem
    · have := before b mem a mem_cons_self
      omega
    · rcases mem_cons.1 mem with rfl | mem
      · omega
      · exact mem
  apply List.Sublist.trans _ (sublist_append_right xs _)
  apply List.Sublist.cons_cons
  exact singleton_sublist.2 after

lemma sorted_upto : (t.upto c).Pairwise (·.id < ·.id) := t.sorted.filter _

lemma replaced (inj : Function.Injective sha.hexdigest) {t' : AuditTable} {old new : Row} {rest : List Row}
    (ok : verify sha t = some 0) (ok' : verify sha t' = some 0) (mem : c ∈ t.rows) (mem' : c ∈ t'.rows)
    (was : (t.upto c).Perm (old :: rest))
    (is : (t'.upto c).Perm ((if new.userId = c.userId ∧ new.id ≤ c.id then [new] else []) ++ rest)) :
    new.said = old.said ∧ new.id ≤ c.id ∧ ∀ r ∈ rest, (r.id < old.id ↔ r.id < new.id) := by
  have said := upto_said inj ok ok' mem mem'
  have nodup := upto_nodup inj ok mem
  -- the chain is as long as it was
  have inside : new.userId = c.userId ∧ new.id ≤ c.id := by
    by_contra outside
    rw [if_neg outside] at is
    have lengths := congrArg List.length said
    rw [length_map, length_map, was.length_eq, is.length_eq] at lengths
    simp at lengths
  rw [if_pos inside] at is
  have rows := ((is.map Row.said).symm.trans (by rw [← said])).trans (was.map Row.said)
  have same : new.said = old.said := by
    have eq := Multiset.coe_eq_coe.2 rows
    simp only [cons_append, nil_append, map_cons, ← Multiset.cons_coe] at eq
    exact (Multiset.cons_inj_left _).1 eq
  refine ⟨same, inside.2, fun r memr => ?_⟩
  have memr₁ : r ∈ t.upto c := was.mem_iff.2 (mem_cons_of_mem _ memr)
  have memr₂ : r ∈ t'.upto c := is.mem_iff.2 (mem_append_right _ memr)
  have memold : old ∈ t.upto c := was.mem_iff.2 mem_cons_self
  have memnew : new ∈ t'.upto c := is.mem_iff.2 (by simp)
  have ids : ((t.upto c).map (·.id)).Nodup := pairwise_map.2 (sorted_upto.imp fun lt => ne_of_lt lt)
  have ids' : ((t'.upto c).map (·.id)).Nodup := pairwise_map.2 (sorted_upto.imp fun lt => ne_of_lt lt)
  have ne : r.id ≠ old.id := by
    have := (was.map (·.id)).nodup_iff.1 ids
    rw [map_cons, nodup_cons] at this
    intro eq
    exact this.1 (eq ▸ mem_map_of_mem memr)
  have ne' : r.id ≠ new.id := by
    have := (is.map (·.id)).nodup_iff.1 ids'
    rw [map_append, map_singleton, singleton_append, nodup_cons] at this
    intro eq
    exact this.1 (eq ▸ mem_map_of_mem memr)
  constructor
  · intro lt
    by_contra gt
    have was := (sublist_pair sorted_upto memr₁ memold lt).map Row.said
    have is := (sublist_pair sorted_upto memnew memr₂ (by omega)).map Row.said
    rw [← said] at is
    simp only [map_cons, map_nil, same] at was is
    exact not_both_orders nodup was is
  · intro lt
    by_contra gt
    have was := (sublist_pair sorted_upto memold memr₁ (by omega)).map Row.said
    have is := (sublist_pair sorted_upto memr₂ memnew lt).map Row.said
    rw [← said] at is
    simp only [map_cons, map_nil, same] at was is
    exact not_both_orders nodup was is

/-! ## What is found -/

def Later (t : AuditTable) (c old : Row) : Prop := c ∈ t.rows ∧ c.userId = old.userId ∧ old.id < c.id

/-- The edits of a table that `verify` accepts. A row that is written over says what it said, between the same
    rows of its chain; no row is deleted or inserted; of two rows of one chain that change places each is hashed
    again and says what the other said, and two rows of different chains keep their places in them. -/
structure TamperEvident (sha : Sha256) (t : AuditTable) : Prop where
  change : ∀ {t' old new c}, Changed t t' old new → Later t c old → verify sha t' = some 0 →
    new.said = old.said ∧ KeepsPlace t old new
  delete : ∀ {t' old c}, Deleted t t' old → Later t c old → verify sha t' ≠ some 0
  insert : ∀ {t' new c}, Inserted t t' new → Later t c new → verify sha t' ≠ some 0
  swap : ∀ {t' a b a' b' c}, Swapped t t' a b a' b' → a.userId = b.userId → Later t c a → Later t c b →
    verify sha t' = some 0 →
    (a'.said = b.said ∧ a'.rowHash ≠ a.rowHash) ∧ b'.said = a.said ∧ b'.rowHash ≠ b.rowHash
  swapUsers : ∀ {t' a b a' b' c d}, Swapped t t' a b a' b' → a.userId ≠ b.userId → Later t c a → Later t d b →
    verify sha t' = some 0 → (a'.said = a.said ∧ KeepsPlace t a a') ∧ b'.said = b.said ∧ KeepsPlace t b b'

variable {t t' : AuditTable} {a b a' b' c d old new : Row}

lemma filter_cons_append {p : Row → Bool} {r : Row} {rows : List Row} :
    (r :: rows).filter p = (if p r then [r] else []) ++ rows.filter p := by
  rw [filter_cons]
  split <;> rfl

lemma Later.ne (later : Later t c old) : c ≠ old := by
  rintro rfl
  exact lt_irrefl _ later.2.2

lemma Later.upto (later : Later t c old) (mem : old ∈ t.rows) :
    (t.upto c).Perm (old :: (t.rows.erase old).filter fun r => r.userId = c.userId ∧ r.id ≤ c.id) := by
  have perm := (perm_cons_erase mem).filter fun r => decide (r.userId = c.userId ∧ r.id ≤ c.id)
  rwa [filter_cons_of_pos (by simpa using ⟨later.2.1.symm, later.2.2.le⟩)] at perm

lemma keepsPlace_of_upto (later : Later t c old) (le : new.id ≤ c.id)
    (same : ∀ r ∈ (t.rows.erase old).filter fun r => r.userId = c.userId ∧ r.id ≤ c.id,
      (r.id < old.id ↔ r.id < new.id)) : KeepsPlace t old new := by
  intro r mem ne mine
  by_cases before : r.id ≤ c.id
  · apply same r
    simpa [mine.trans later.2.1.symm, before] using (mem_erase_of_ne ne).2 mem
  · have lt := later.2.2
    omega

lemma change_found (inj : Function.Injective sha.hexdigest) (ok : verify sha t = some 0)
    (edit : Changed t t' old new) (later : Later t c old) (ok' : verify sha t' = some 0) :
    new.said = old.said ∧ KeepsPlace t old new := by
  obtain ⟨mem, perm⟩ := edit
  have mem' : c ∈ t'.rows := perm.mem_iff.2 (mem_cons_of_mem _ ((mem_erase_of_ne later.ne).2 later.1))
  have is := perm.filter fun r => decide (r.userId = c.userId ∧ r.id ≤ c.id)
  rw [filter_cons_append] at is
  obtain ⟨said, le, same⟩ := replaced inj ok ok' later.1 mem' (later.upto mem)
    (show (t'.upto c).Perm _ by simpa [AuditTable.upto] using is)
  exact ⟨said, keepsPlace_of_upto later le same⟩

lemma delete_found (inj : Function.Injective sha.hexdigest) (ok : verify sha t = some 0)
    (edit : Deleted t t' old) (later : Later t c old) : verify sha t' ≠ some 0 := by
  intro ok'
  obtain ⟨mem, perm⟩ := edit
  have mem' : c ∈ t'.rows := perm.mem_iff.2 ((mem_erase_of_ne later.ne).2 later.1)
  have lengths := congrArg List.length (upto_said inj ok ok' later.1 mem')
  have is := (perm.filter fun r => decide (r.userId = c.userId ∧ r.id ≤ c.id)).length_eq
  have was := (later.upto mem).length_eq
  rw [length_map, length_map, was, length_cons, AuditTable.upto, is] at lengths
  omega

lemma insert_found (inj : Function.Injective sha.hexdigest) (ok : verify sha t = some 0)
    (edit : Inserted t t' new) (later : Later t c new) : verify sha t' ≠ some 0 := by
  intro ok'
  have mem' : c ∈ t'.rows := edit.mem_iff.2 (mem_cons_of_mem _ later.1)
  have lengths := congrArg List.length (upto_said inj ok ok' later.1 mem')
  have is := (edit.filter fun r => decide (r.userId = c.userId ∧ r.id ≤ c.id)).length_eq
  rw [filter_cons_of_pos (by simpa using ⟨later.2.1.symm, later.2.2.le⟩), length_cons] at is
  rw [length_map, length_map, AuditTable.upto, AuditTable.upto, is] at lengths
  omega

lemma Row.MovedTo.userId (moved : a'.MovedTo a b) : a'.userId = a.userId := by rw [moved]

lemma Row.MovedTo.id (moved : a'.MovedTo a b) : a'.id = b.id := by rw [moved]

lemma Swapped.symm (edit : Swapped t t' a b a' b') : Swapped t t' b a b' a' := by
  obtain ⟨mema, memb, ne, moved, moved', perm⟩ := edit
  refine ⟨memb, mema, ne.symm, moved', moved, perm.trans ?_⟩
  rw [erase_comm]
  exact List.Perm.swap _ _ _

lemma Swapped.mem (edit : Swapped t t' a b a' b') (mem : c ∈ t.rows) (nea : c ≠ a) (neb : c ≠ b) : c ∈ t'.rows := by
  obtain ⟨-, -, -, -, -, perm⟩ := edit
  rw [perm.mem_iff]
  apply mem_cons_of_mem
  apply mem_cons_of_mem
  exact (mem_erase_of_ne neb).2 ((mem_erase_of_ne nea).2 mem)

lemma swapUsers_found (inj : Function.Injective sha.hexdigest) (ok : verify sha t = some 0)
    (edit : Swapped t t' a b a' b') (other : a.userId ≠ b.userId) (later : Later t c a)
    (ok' : verify sha t' = some 0) : a'.said = a.said ∧ KeepsPlace t a a' := by
  have neb : c ≠ b := by
    rintro rfl
    exact other later.2.1.symm
  have mem' := edit.mem later.1 later.ne neb
  obtain ⟨mema, memb, ne, moved, moved', perm⟩ := edit
  have is := perm.filter fun r => decide (r.userId = c.userId ∧ r.id ≤ c.id)
  have outside : b.userId ≠ c.userId := fun eq => other (later.2.1.symm.trans eq.symm)
  -- the other row is in neither chain
  have rest : ((b' :: (t.rows.erase a).erase b).filter fun r => r.userId = c.userId ∧ r.id ≤ c.id).Perm
      ((t.rows.erase a).filter fun r => r.userId = c.userId ∧ r.id ≤ c.id) := by
    have all := (perm_cons_erase ((mem_erase_of_ne ne.symm).2 memb)).filter
      fun r => decide (r.userId = c.userId ∧ r.id ≤ c.id)
    rw [filter_cons_of_neg (by simp [outside])] at all
    rw [filter_cons_of_neg (by simp [moved'.userId, outside])]
    exact all.symm
  rw [filter_cons_append] at is
  have is := is.trans (rest.append_left _)
  obtain ⟨said, le, same⟩ := replaced inj ok ok' later.1 mem' (later.upto mema)
    (show (t'.upto c).Perm _ by simpa [AuditTable.upto] using is)
  exact ⟨said, keepsPlace_of_upto later le same⟩

/-- The rows of a table, two of them in each other's place. -/
def exchange (a b a' b' r : Row) : Row := if r = a then b' else if r = b then a' else r

lemma exchange_left : exchange a b a' b' a = b' := if_pos rfl

lemma exchange_right (ne : a ≠ b) : exchange a b a' b' b = a' := (if_neg ne.symm).trans (if_pos rfl)

lemma exchange_other {r : Row} (nea : r ≠ a) (neb : r ≠ b) : exchange a b a' b' r = r :=
  (if_neg nea).trans (if_neg neb)

lemma exchange_id {r : Row} (moved : a'.MovedTo a b) (moved' : b'.MovedTo b a) : (exchange a b a' b' r).id = r.id := by
  unfold exchange
  split
  · rename_i eq
    rw [eq, moved'.id]
  · split
    · rename_i eq
      rw [eq, moved.id]
    · rfl

lemma swap_found (inj : Function.Injective sha.hexdigest) (ok : verify sha t = some 0)
    (edit : Swapped t t' a b a' b') (latera : Later t c a) (laterb : Later t c b) (ok' : verify sha t' = some 0) :
    (a'.said = b.said ∧ a'.rowHash ≠ a.rowHash) ∧ b'.said = a.said ∧ b'.rowHash ≠ b.rowHash := by
  have mem' := edit.mem latera.1 latera.ne laterb.ne
  obtain ⟨mema, memb, ne, moved, moved', perm⟩ := edit
  have was : (t.upto c).Perm (a :: b :: ((t.rows.erase a).erase b).filter
      fun r => r.userId = c.userId ∧ r.id ≤ c.id) := by
    apply (latera.upto mema).trans
    apply List.Perm.cons
    have rest := (perm_cons_erase ((mem_erase_of_ne ne.symm).2 memb)).filter
      fun r => decide (r.userId = c.userId ∧ r.id ≤ c.id)
    rwa [filter_cons_of_pos (by simpa using ⟨laterb.2.1.symm, laterb.2.2.le⟩)] at rest
  have is : (t'.upto c).Perm (a' :: b' :: ((t.rows.erase a).erase b).filter
      fun r => r.userId = c.userId ∧ r.id ≤ c.id) := by
    have rows := perm.filter fun r => decide (r.userId = c.userId ∧ r.id ≤ c.id)
    rwa [filter_cons_of_pos (by simpa [moved.userId, moved.id] using ⟨latera.2.1.symm, laterb.2.2.le⟩),
      filter_cons_of_pos (by simpa [moved'.userId, moved'.id] using ⟨laterb.2.1.symm, latera.2.2.le⟩)] at rows
  have nodup : t.rows.Nodup := t.sorted.imp fun lt eq => by
    rw [eq] at lt
    exact lt_irrefl _ lt
  have others : (((t.rows.erase a).erase b).filter fun r => r.userId = c.userId ∧ r.id ≤ c.id).map
      (exchange a b a' b') = ((t.rows.erase a).erase b).filter fun r => r.userId = c.userId ∧ r.id ≤ c.id := by
    apply (map_congr_left _).trans (map_id _)
    intro r mem
    obtain ⟨neb, mem⟩ := (nodup.erase a).mem_erase_iff.1 (mem_filter.1 mem).1
    exact exchange_other (nodup.mem_erase_iff.1 mem).1 neb
  have places : (t'.upto c) = (t.upto c).map (exchange a b a' b') := by
    have sorted : ((t.upto c).map (exchange a b a' b')).Pairwise (·.id < ·.id) := by
      rw [pairwise_map]
      exact sorted_upto.imp fun lt => by rwa [exchange_id moved moved', exchange_id moved moved']
    apply List.Perm.eq_of_pairwise _ sorted_upto sorted
    · apply is.trans
      apply List.Perm.trans _ (was.map (exchange a b a' b')).symm
      rw [map_cons, map_cons, exchange_left, exchange_right ne, others]
      exact List.Perm.swap _ _ _
    · intro x y _ _ lt gt
      omega
  have said := upto_said inj ok ok' latera.1 mem'
  rw [places, map_map, map_inj_left] at said
  have saida := said a (was.mem_iff.2 mem_cons_self)
  have saidb := said b (was.mem_iff.2 (mem_cons_of_mem _ mem_cons_self))
  simp only [Function.comp_apply, exchange_left, exchange_right ne] at saida saidb
  -- two rows of a chain have different hashes
  have differ : a.rowHash ≠ b.rowHash := by
    intro eq
    have sealed := (verify_eq_zero.1 ok).1
    have same := said_of_rowHash inj (sealed a mema) (sealed b memb) eq
    exact ne (inj_on_of_nodup_map (upto_nodup inj ok latera.1) (was.mem_iff.2 mem_cons_self)
      (was.mem_iff.2 (mem_cons_of_mem _ mem_cons_self)) same)
  refine ⟨⟨saidb.symm, ?_⟩, saida.symm, ?_⟩
  · rw [show a'.rowHash = b.rowHash from congrArg Said.rowHash saidb.symm]
    exact differ.symm
  · rw [show b'.rowHash = a.rowHash from congrArg Said.rowHash saida.symm]
    exact differ

/-- Every edit before a row of the same chain is found, up to the spelling of what is hashed; and what the hook
    computes from the values that are written is what is recomputed from the row that is stored. -/
theorem tampering_found (sha : Sha256) (inj : Function.Injective sha.hexdigest) {t : AuditTable}
    (ok : verify sha t = some 0) :
    TamperEvident sha t ∧ ∀ (seen : AuditTable) (draft : Draft) (id : Int),
      Row.Sealed sha ⟨fillHashChain sha seen draft, id⟩ where
  left :=
    { change := fun edit later ok' => change_found inj ok edit later ok'
      delete := fun edit later => delete_found inj ok edit later
      insert := fun edit later => insert_found inj ok edit later
      swap := fun edit _ latera laterb ok' => swap_found inj ok edit latera laterb ok'
      swapUsers := fun edit other latera laterb ok' =>
        ⟨swapUsers_found inj ok edit other latera ok', swapUsers_found inj ok edit.symm other.symm laterb ok'⟩ }
  right := fun _ _ _ => sealed_fillHashChain

/-! ## Tables -/

lemma plainDigest_injective : Function.Injective plainDigest.hexdigest := by
  intro a b eq
  exact (List.cons.inj (String.ofList_injective eq)).2

def written (drafts : List Draft) : AuditTable :=
  drafts.foldl (fun t d => t.insert (fillHashChain plainDigest t d)) .empty

lemma verify_written {drafts : List Draft} (users : ∀ d ∈ drafts, d.userId ≠ none) :
    verify plainDigest (written drafts) = some 0 := by
  unfold written
  induction drafts using List.reverseRecOn with
  | nil => exact verify_empty
  | append_singleton drafts d ih =>
    rw [foldl_append]
    apply verify_insert (ih fun d mem => users d (mem_append_left _ mem)) sealed_fillHashChain
    exact if_neg (users d (by simp))

def first : Draft := audited (some 1) "SIP_DEMAND_REQUESTED" "a"
def second : Draft := audited (some 2) "SIP_DEMAND_REQUESTED" "b"
def third : Draft := audited (some 1) "SIP_DEMAND_ADMITTED" "a"
def fourth : Draft := audited (some 2) "SIP_DEMAND_ADMITTED" "b"

def honest : AuditTable := written [first, second, third, fourth]

def swapped : AuditTable := written [second, first, third, fourth]

def entry1 : Entry := fillHashChain plainDigest .empty first
def entry2 : Entry := fillHashChain plainDigest .empty second
def entry3 : Entry := fillHashChain plainDigest (written [first]) third
def entry4 : Entry := fillHashChain plainDigest (written [second]) fourth

lemma honest_rows : honest.rows = [⟨entry1, 1⟩, ⟨entry2, 2⟩, ⟨entry3, 3⟩, ⟨entry4, 4⟩] := rfl

lemma swapped_rows : swapped.rows = [⟨entry2, 1⟩, ⟨entry1, 2⟩, ⟨entry3, 3⟩, ⟨entry4, 4⟩] := rfl

lemma honest_ok : verify plainDigest honest = some 0 := verify_written (by decide)

lemma swapped_ok : verify plainDigest swapped = some 0 := verify_written (by decide)

def respelledRow : Row := ⟨{ entry1 with ts := "2026-09-24T13:30:00.25Z" }, 1⟩

def respelled : AuditTable where
  rows := [respelledRow, ⟨entry2, 2⟩, ⟨entry3, 3⟩, ⟨entry4, 4⟩]
  sorted := by simp [respelledRow]

lemma respelled_ok : verify plainDigest respelled = some 0 := by
  apply verify_congr _ honest_ok
  have said : Row.said ⟨entry1, 1⟩ = respelledRow.said := by
    have ts : canonTs (.text entry1.ts) = canonTs (.text "2026-09-24T13:30:00.25Z") := by decide +kernel
    rw [Row.said, Row.said, Said.mk.injEq]
    exact ⟨rfl, ts, rfl, rfl⟩
  rw [honest_rows, map_cons, said]
  rfl

/-- Two rows of different users change places, and a timestamp is written in another way: both are accepted,
    with a later row of each chain left alone. -/
theorem edits_accepted :
    verify plainDigest honest = some 0 ∧ (Swapped honest swapped ⟨entry1, 1⟩ ⟨entry2, 2⟩ ⟨entry1, 2⟩ ⟨entry2, 1⟩ ∧
        Later honest ⟨entry3, 3⟩ ⟨entry1, 1⟩ ∧ Later honest ⟨entry4, 4⟩ ⟨entry2, 2⟩ ∧
        verify plainDigest swapped = some 0) ∧
      Changed honest respelled ⟨entry1, 1⟩ respelledRow ∧ respelledRow.ts ≠ entry1.ts ∧
        verify plainDigest respelled = some 0 := by
  have later3 : Later honest ⟨entry3, 3⟩ ⟨entry1, 1⟩ := ⟨by simp [honest_rows], rfl, by decide⟩
  have later4 : Later honest ⟨entry4, 4⟩ ⟨entry2, 2⟩ := ⟨by simp [honest_rows], rfl, by decide⟩
  have ne : (⟨entry1, 1⟩ : Row) ≠ ⟨entry2, 2⟩ := fun eq => by cases congrArg Row.id eq
  refine ⟨honest_ok, ⟨⟨by simp [honest_rows], by simp [honest_rows], ne, rfl, rfl, ?_⟩, later3, later4, swapped_ok⟩,
    ⟨by simp [honest_rows], ?_⟩, by decide +kernel, respelled_ok⟩
  · rw [swapped_rows, honest_rows, erase_cons_head, erase_cons_head]
    exact List.Perm.swap _ _ _
  · rw [honest_rows, erase_cons_head]
    exact List.Perm.refl _

def beheaded : AuditTable where
  rows := [⟨entry2, 2⟩, ⟨entry3, 3⟩, ⟨entry4, 4⟩]
  sorted := by simp

theorem deletion_found : TamperEvident plainDigest honest ∧ verify plainDigest beheaded ≠ some 0 := by
  have deleted : Deleted honest beheaded ⟨entry1, 1⟩ := by
    refine ⟨by simp [honest_rows], ?_⟩
    rw [honest_rows, erase_cons_head]
    exact List.Perm.refl _
  have later : Later honest ⟨entry3, 3⟩ ⟨entry1, 1⟩ := ⟨by simp [honest_rows], rfl, by decide⟩
  have evident := (tampering_found plainDigest plainDigest_injective honest_ok).1
  exact ⟨evident, evident.delete deleted later⟩

end Workbench.Audit
