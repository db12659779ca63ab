import Mathlib.Data.List.MinMax
import Mathlib.Algebra.Order.Group.Defs
import Mathlib.Tactic

/-!
# Books with displacement

A book is a list of distinct names, filled from ranked entrants up to a cap; then each entrant outside the book may
take the place of its weakest name, when it is better by an advantage. `Offer` is what one entrant does to the book.
`displace_eq_self` says when nothing is displaced; `refused` and `beaten` say why an entrant is not in the book in the
end, and why a name has left it.

`select` lists the names of such a book in rank order, up to the cap. Selecting again with what was selected is a fixed
point: `select_again`.
-/

namespace Workbench.Lib.Displacement
open List

variable {σ K : Type*} [DecidableEq σ]

/-- Append entrants that are not in the book, up to the cap. -/
@[grind] def fill (cap : Nat) : List σ → List σ → List σ
  | [], book => book
  | t :: entrants, book =>
    if cap ≤ book.length then book
    else if t ∈ book then fill cap entrants book
    else fill cap entrants (book ++ [t])

def replace (book : List σ) (weakest t : σ) : List σ := book.set (book.idxOf weakest) t

/-- Each entrant outside the book displaces its weakest name when it is better by the advantage. -/
@[grind] def displace [LinearOrder K] [Add K] (score : σ → K) (advantage : K) : List σ → List σ → List σ
  | [], book => book
  | t :: entrants, book =>
    if t ∈ book then displace score advantage entrants book
    else match book.argmin score with
      | none => book
      | some weakest =>
        if score weakest + advantage ≤ score t then displace score advantage entrants (replace book weakest t)
        else displace score advantage entrants book

/-! ## Filling -/

section Fill
variable {cap : Nat} {entrants book : List σ} {x : σ}

lemma mem_fill_of_mem (mem : x ∈ book) : x ∈ fill cap entrants book := by
  induction entrants generalizing book with
  | nil => exact mem
  | cons t entrants ih =>
    rw [fill]
    split
    · exact mem
    · split
      · exact ih mem
      · exact ih (mem_append_left _ mem)

lemma mem_or_mem_of_fill (mem : x ∈ fill cap entrants book) : x ∈ book ∨ x ∈ entrants := by
  induction entrants generalizing book with
  | nil => exact .inl mem
  | cons t entrants ih =>
    rw [fill] at mem
    split at mem
    · exact .inl mem
    · split at mem
      · exact (ih mem).imp_right (mem_cons_of_mem _)
      · obtain old | new := ih mem
        · obtain old | last := mem_append.1 old
          · exact .inl old
          · exact .inr (mem_singleton.1 last ▸ mem_cons_self)
        · exact .inr (mem_cons_of_mem _ new)

lemma nodup_fill (distinct : book.Nodup) : (fill cap entrants book).Nodup := by
  induction entrants generalizing book with
  | nil => exact distinct
  | cons t entrants ih =>
    rw [fill]
    split
    · exact distinct
    · split
      · exact ih distinct
      · rename_i new
        exact ih (nodup_append.2 ⟨distinct, nodup_singleton t, fun a mem b last => by
          rw [mem_singleton.1 last]
          exact fun eq => new (eq ▸ mem)⟩)

lemma length_fill (within : book.length ≤ cap) : (fill cap entrants book).length ≤ cap := by
  induction entrants generalizing book with
  | nil => exact within
  | cons t entrants ih =>
    rw [fill]
    split
    · exact within
    · rename_i room
      split
      · exact ih within
      · apply ih
        rw [length_append, length_singleton]
        omega

lemma mem_fill_of_room (room : (fill cap entrants book).length < cap) : ∀ t ∈ entrants, t ∈ fill cap entrants book := by
  induction entrants generalizing book with
  | nil => exact nofun
  | cons t entrants ih =>
    rw [fill] at room ⊢
    split at room
    · rename_i full
      exact absurd room full.not_gt
    · rename_i room'
      rw [if_neg room']
      split at room
      · rename_i old
        rw [if_pos old]
        exact forall_mem_cons.2 ⟨mem_fill_of_mem old, ih room⟩
      · rename_i new
        rw [if_neg new]
        exact forall_mem_cons.2 ⟨mem_fill_of_mem (mem_append_right _ mem_cons_self), ih room⟩

lemma fill_eq_self (done : cap ≤ book.length ∨ ∀ t ∈ entrants, t ∈ book) : fill cap entrants book = book := by
  induction entrants with
  | nil => rfl
  | cons t entrants ih =>
    rw [fill]
    split
    · rfl
    · rename_i room
      have all := done.resolve_left room
      rw [if_pos (all t mem_cons_self)]
      exact ih (.inr fun u mem => all u (mem_cons_of_mem _ mem))

lemma fill_eq_append (distinct : entrants.Nodup) :
    fill cap entrants book = book ++ (entrants.filter (· ∉ book)).take (cap - book.length) := by
  induction entrants generalizing book with
  | nil => rw [fill, filter_nil, take_nil, append_nil]
  | cons t entrants ih =>
    obtain ⟨once, rest⟩ := nodup_cons.1 distinct
    rw [fill]
    split
    · rename_i full
      rw [Nat.sub_eq_zero_of_le full, take_zero, append_nil]
    · rename_i room
      split
      · rename_i old
        rw [filter_cons_of_neg (by simpa using old), ih rest]
      · rename_i new
        have others : entrants.filter (· ∉ book ++ [t]) = entrants.filter (· ∉ book) := by
          apply filter_congr
          intro u mem
          have ne : u ≠ t := fun eq => once (eq ▸ mem)
          simp [ne]
        have left : cap - book.length = cap - (book ++ [t]).length + 1 := by
          rw [length_append, length_singleton]
          omega
        rw [filter_cons_of_pos (by simpa using new), ih rest, others, left, take_succ_cons, append_assoc]
        rfl

end Fill

/-! ## Displacing -/

section Replace
variable {book : List σ} {weakest t x : σ}

lemma length_replace : (replace book weakest t).length = book.length := length_set

lemma mem_replace (distinct : book.Nodup) (mem : weakest ∈ book) :
    x ∈ replace book weakest t ↔ x = t ∨ (x ∈ book ∧ x ≠ weakest) := by
  induction book with
  | nil => cases mem
  | cons a book ih =>
    obtain ⟨new, rest⟩ := nodup_cons.1 distinct
    rw [replace]
    by_cases eq : a = weakest
    · subst eq
      rw [idxOf_cons_self, set_cons_zero, mem_cons, mem_cons]
      constructor
      · intro h
        obtain rfl | old := h
        · exact .inl rfl
        · exact .inr ⟨.inr old, fun eq => new (eq ▸ old)⟩
      · intro h
        obtain rfl | ⟨old, ne⟩ := h
        · exact .inl rfl
        · exact .inr (old.resolve_left ne)
    · have later : weakest ∈ book := (mem_cons.1 mem).resolve_left (Ne.symm eq)
      rw [idxOf_cons_ne _ eq, set_cons_succ, mem_cons, mem_cons]
      have step := ih rest later
      rw [replace] at step
      rw [step]
      constructor
      · intro h
        obtain rfl | rfl | ⟨old, ne⟩ := h
        · exact .inr ⟨.inl rfl, eq⟩
        · exact .inl rfl
        · exact .inr ⟨.inr old, ne⟩
      · intro h
        obtain rfl | ⟨rfl | old, ne⟩ := h
        · exact .inr (.inl rfl)
        · exact .inl rfl
        · exact .inr (.inr ⟨old, ne⟩)

lemma nodup_replace (distinct : book.Nodup) (mem : weakest ∈ book) (new : t ∉ book) :
    (replace book weakest t).Nodup := by
  induction book with
  | nil => cases mem
  | cons a book ih =>
    obtain ⟨other, rest⟩ := nodup_cons.1 distinct
    rw [mem_cons, not_or] at new
    rw [replace]
    by_cases eq : a = weakest
    · subst eq
      rw [idxOf_cons_self, set_cons_zero]
      exact nodup_cons.2 ⟨new.2, rest⟩
    · have later : weakest ∈ book := (mem_cons.1 mem).resolve_left (Ne.symm eq)
      rw [idxOf_cons_ne _ eq, set_cons_succ]
      apply nodup_cons.2
      refine ⟨fun again => ?_, ih rest later new.2⟩
      obtain rfl | ⟨old, -⟩ := (mem_replace rest later).1 again
      · exact new.1 rfl
      · exact other old

end Replace

section Displace
variable [AddCommGroup K] [LinearOrder K]
variable {score : σ → K} {advantage : K} {entrants book book' : List σ} {t x : σ}

/-- What an entrant does to the book. -/
inductive Offer (score : σ → K) (advantage : K) (t : σ) (book : List σ) : List σ → Prop
  | known (old : t ∈ book) : Offer score advantage t book book
  | refused (worse : ∀ b ∈ book, score t < score b + advantage) : Offer score advantage t book book
  | taken {weakest : σ} (mem : weakest ∈ book) (new : t ∉ book) (better : score weakest + advantage ≤ score t) :
      Offer score advantage t book (replace book weakest t)

lemma displace_nil : displace score advantage entrants [] = [] := by
  cases entrants <;> rfl

namespace Offer

lemma length (offer : Offer score advantage t book book') : book'.length = book.length := by
  cases offer with
  | known | refused => rfl
  | taken => exact length_replace

lemma nodup (offer : Offer score advantage t book book') (distinct : book.Nodup) : book'.Nodup := by
  cases offer with
  | known | refused => exact distinct
  | taken mem new => exact nodup_replace distinct mem new

lemma mem_or_eq (offer : Offer score advantage t book book') (mem : x ∈ book') : x ∈ book ∨ x = t := by
  cases offer with
  | known | refused => exact .inl mem
  | taken => exact mem_or_eq_of_mem_set mem

end Offer

section Ordered
variable [IsOrderedAddMonoid K]

lemma displace_cons (score : σ → K) (advantage : K) (t : σ) (entrants book : List σ) :
    ∃ book', Offer score advantage t book book' ∧
      displace score advantage (t :: entrants) book = displace score advantage entrants book' := by
  rw [displace]
  split
  · rename_i old
    exact ⟨book, .known old, rfl⟩
  · rename_i new
    cases least : book.argmin score with
    | none =>
      obtain rfl := argmin_eq_none.1 least
      exact ⟨[], .refused nofun, displace_nil.symm⟩
    | some weakest =>
      have mem := argmin_mem least
      dsimp only
      split
      · rename_i better
        exact ⟨_, .taken mem new better, rfl⟩
      · rename_i worse
        refine ⟨book, .refused fun b inside => ?_, rfl⟩
        have floor : score weakest ≤ score b := le_of_mem_argmin inside least
        calc score t < score weakest + advantage := not_le.1 worse
          _ ≤ score b + advantage := add_le_add_left floor advantage

lemma mem_or_mem_of_displace (mem : x ∈ displace score advantage entrants book) : x ∈ book ∨ x ∈ entrants := by
  induction entrants generalizing book with
  | nil => exact .inl mem
  | cons t entrants ih =>
    obtain ⟨book', offer, eq⟩ := displace_cons score advantage t entrants book
    rw [eq] at mem
    obtain old | later := ih mem
    · obtain old | rfl := offer.mem_or_eq old
      · exact .inl old
      · exact .inr mem_cons_self
    · exact .inr (mem_cons_of_mem _ later)

lemma length_displace : (displace score advantage entrants book).length = book.length := by
  induction entrants generalizing book with
  | nil => rfl
  | cons t entrants ih =>
    obtain ⟨book', offer, eq⟩ := displace_cons score advantage t entrants book
    rw [eq, ih, offer.length]

lemma nodup_displace (distinct : book.Nodup) : (displace score advantage entrants book).Nodup := by
  induction entrants generalizing book with
  | nil => exact distinct
  | cons t entrants ih =>
    obtain ⟨book', offer, eq⟩ := displace_cons score advantage t entrants book
    rw [eq]
    exact ih (offer.nodup distinct)

lemma displace_eq_self (settled : ∀ t ∈ entrants, t ∉ book → ∀ b ∈ book, score t < score b + advantage) :
    displace score advantage entrants book = book := by
  induction entrants with
  | nil => rfl
  | cons t entrants ih =>
    rw [forall_mem_cons] at settled
    obtain ⟨book', offer, eq⟩ := displace_cons score advantage t entrants book
    rw [eq]
    cases offer with
    | known | refused => exact ih settled.2
    | taken mem new better => exact absurd better (settled.1 new _ mem).not_ge

lemma floor_of_displace {P : K → Prop} (up : ∀ a b, a ≤ b → P a → P b) (pos : 0 ≤ advantage) (distinct : book.Nodup)
    (floor : ∀ b ∈ book, P (score b)) : ∀ b ∈ displace score advantage entrants book, P (score b) := by
  induction entrants generalizing book with
  | nil => exact floor
  | cons t entrants ih =>
    obtain ⟨book', offer, eq⟩ := displace_cons score advantage t entrants book
    rw [eq]
    apply ih (offer.nodup distinct)
    intro b inside
    cases offer with
    | known | refused => exact floor b inside
    | taken mem new better =>
      obtain rfl | ⟨old, -⟩ := (mem_replace distinct mem).1 inside
      · exact up _ _ ((le_add_of_nonneg_right pos).trans better) (floor _ mem)
      · exact floor b old

lemma mem_displace_of_le (pos : 0 < advantage) (distinct : book.Nodup) (mem : x ∈ book)
    (outscored : ∀ t ∈ entrants, score t ≤ score x) : x ∈ displace score advantage entrants book := by
  induction entrants generalizing book with
  | nil => exact mem
  | cons t entrants ih =>
    rw [forall_mem_cons] at outscored
    obtain ⟨book', offer, eq⟩ := displace_cons score advantage t entrants book
    rw [eq]
    apply ih (offer.nodup distinct) _ outscored.2
    cases offer with
    | known | refused => exact mem
    | taken weakMem new better =>
      refine (mem_replace distinct weakMem).2 (.inr ⟨mem, ?_⟩)
      intro eq
      -- the weakest name would be outscored by the entrant
      have lt : score x < score t := lt_of_lt_of_le (lt_add_of_pos_right _ pos) (eq ▸ better)
      exact lt.not_ge outscored.1

lemma refused (pos : 0 < advantage) (ranked : entrants.Pairwise fun t u => score u ≤ score t)
    (distinct : book.Nodup) (mem : t ∈ entrants) (out : t ∉ displace score advantage entrants book) :
    ∀ b ∈ displace score advantage entrants book, score t < score b + advantage := by
  induction entrants generalizing book with
  | nil => cases mem
  | cons u entrants ih =>
    obtain ⟨first, ranked⟩ := pairwise_cons.1 ranked
    obtain ⟨book', offer, eq⟩ := displace_cons score advantage u entrants book
    rw [eq] at out ⊢
    have distinct' := offer.nodup distinct
    obtain rfl | later := mem_cons.1 mem
    · cases offer with
      | known old => exact absurd (mem_displace_of_le pos distinct' old first) out
      | refused worse =>
        have up : ∀ a b, a ≤ b → score t < a + advantage → score t < b + advantage := fun a b le lt =>
          lt.trans_le (add_le_add_left le advantage)
        exact floor_of_displace up pos.le distinct worse
      | taken weakMem new better =>
        have taken := (mem_replace distinct weakMem).2 (.inl (rfl : t = t))
        exact absurd (mem_displace_of_le pos distinct' taken first) out
    · exact ih ranked distinct' later out

lemma displace_filter {keep : List σ} (pos : 0 < advantage)
    (settled : ∀ u ∈ keep, u ∈ book ∨ ∀ b ∈ book, score u < score b + advantage) :
    displace score advantage (entrants.filter (· ∉ keep)) book = displace score advantage entrants book := by
  induction entrants generalizing book with
  | nil => rfl
  | cons t entrants ih =>
    by_cases kept : t ∈ keep
    · rw [filter_cons_of_neg (by simpa using kept), ih settled, displace]
      split
      · rfl
      · rename_i out
        cases least : book.argmin score with
        | none =>
          obtain rfl := argmin_eq_none.1 least
          exact displace_nil
        | some weakest =>
          have worse := (settled t kept).resolve_left out weakest (argmin_mem least)
          dsimp only
          rw [if_neg (not_le.2 worse)]
    · rw [filter_cons_of_pos (by simpa using kept), displace, displace]
      split
      · exact ih settled
      · cases least : book.argmin score with
        | none => rfl
        | some weakest =>
          dsimp only
          split
          · rename_i better
            apply ih
            intro u mem
            rcases settled u mem with inside | beaten
            · by_cases eq : u = weakest
              · -- the one that loses its place is weaker than all that stay and than the one that takes it
                right
                intro b inside'
                rcases mem_or_eq_of_mem_set inside' with old | rfl
                · have floor : score weakest ≤ score b := le_of_mem_argmin old least
                  rw [eq]
                  exact lt_of_le_of_lt floor (lt_add_of_pos_right _ pos)
                · rw [eq]
                  exact lt_of_lt_of_le (lt_add_of_pos_right _ pos) (better.trans (le_add_of_nonneg_right pos.le))
              · left
                have idx : book.idxOf weakest < book.length := idxOf_lt_length_iff.2 (argmin_mem least)
                obtain ⟨i, lt, rfl⟩ := mem_iff_getElem.1 inside
                have ne : book.idxOf weakest ≠ i := by
                  rintro rfl
                  exact eq (getElem_idxOf idx)
                have inRange : i < (replace book weakest t).length := by
                  rw [length_replace]
                  exact lt
                have stays : (replace book weakest t)[i] = book[i] := getElem_set_ne ne _
                exact stays ▸ getElem_mem _
            · right
              intro b inside'
              rcases mem_or_eq_of_mem_set inside' with old | rfl
              · exact beaten b old
              · calc score u < score weakest + advantage := beaten weakest (argmin_mem least)
                  _ ≤ score b := better
                  _ ≤ score b + advantage := le_add_of_nonneg_right pos.le
          · exact ih settled

lemma beaten (pos : 0 < advantage) (ranked : entrants.Pairwise fun t u => score u ≤ score t)
    (distinct : book.Nodup) (mem : x ∈ book) (out : x ∉ displace score advantage entrants book) :
    ∃ t ∈ displace score advantage entrants book, score x + advantage ≤ score t := by
  induction entrants generalizing book with
  | nil => exact absurd mem out
  | cons u entrants ih =>
    obtain ⟨first, ranked⟩ := pairwise_cons.1 ranked
    obtain ⟨book', offer, eq⟩ := displace_cons score advantage u entrants book
    rw [eq] at out ⊢
    have distinct' := offer.nodup distinct
    cases offer with
    | known | refused => exact ih ranked distinct' mem out
    | @taken weakest weakMem new better =>
      by_cases eq : x = weakest
      · have taken := (mem_replace distinct weakMem).2 (.inl (rfl : u = u))
        exact ⟨u, mem_displace_of_le pos distinct' taken first, eq ▸ better⟩
      · exact ih ranked distinct' ((mem_replace distinct weakMem).2 (.inr ⟨mem, eq⟩)) out

end Ordered

end Displace

/-! ## Selecting -/

section Select
variable [AddCommGroup K] [LinearOrder K]
variable {score : σ → K} {advantage : K} {cap k : Nat} {ranked keep : List σ} {x t : σ}

/-- The book that the first `k` of the ranked names make of the kept ones. -/
def book (score : σ → K) (advantage : K) (cap k : Nat) (ranked keep : List σ) : List σ :=
  displace score advantage (ranked.take k) (fill cap (ranked.take k) keep)

def select (score : σ → K) (advantage : K) (cap k : Nat) (ranked keep : List σ) : List σ :=
  (ranked.filter (· ∈ book score advantage cap k ranked keep)).take cap

lemma length_select_le : (select score advantage cap k ranked keep).length ≤ cap := length_take_le _ _

lemma select_sublist : (select score advantage cap k ranked keep).Sublist ranked :=
  (take_sublist _ _).trans filter_sublist

lemma mem_book_of_mem_select (mem : x ∈ select score advantage cap k ranked keep) :
    x ∈ book score advantage cap k ranked keep :=
  of_decide_eq_true (mem_filter.1 (mem_of_mem_take mem)).2

lemma filter_mem_of_sublist {part whole : List σ} (sub : part.Sublist whole) (nodup : whole.Nodup) :
    whole.filter (· ∈ part) = part := by
  symm
  apply List.Sublist.eq_of_length
  · have own : part.filter (· ∈ part) = part := filter_eq_self.2 fun a mem => decide_eq_true mem
    have kept := sub.filter (· ∈ part)
    rwa [own] at kept
  · apply List.Perm.length_eq
    rw [perm_ext_iff_of_nodup (nodup.sublist sub) (nodup.filter _)]
    intro a
    rw [mem_filter, decide_eq_true_eq]
    exact ⟨fun mem => ⟨sub.subset mem, mem⟩, And.right⟩

lemma select_eq_of_settled {again : List σ} (sub : keep.Sublist ranked) (nodup : ranked.Nodup)
    (within : keep.length ≤ cap) (same : ∀ a, a ∈ again ↔ a ∈ keep)
    (settled : book score advantage cap k ranked again = again) : select score advantage cap k ranked again = keep := by
  rw [select, settled]
  simp only [same]
  rw [filter_mem_of_sublist sub nodup]
  exact take_of_length_le within

lemma score_le_of_cut (descending : ranked.Pairwise fun t u => score u ≤ score t)
    (mem : t ∈ ranked.filter (· ∈ book score advantage cap k ranked keep))
    (cut : t ∉ select score advantage cap k ranked keep) :
    ∀ b ∈ select score advantage cap k ranked keep, score t ≤ score b := by
  have sorted := descending.filter (· ∈ book score advantage cap k ranked keep)
  rw [select] at cut ⊢
  rw [← take_append_drop cap (ranked.filter _)] at mem sorted
  obtain first | last := mem_append.1 mem
  · exact absurd first cut
  · exact fun b selected => (pairwise_append.1 sorted).2.2 b selected t last

section Ordered
variable [IsOrderedAddMonoid K]

lemma mem_or_mem_of_book (mem : x ∈ book score advantage cap k ranked keep) : x ∈ keep ∨ x ∈ ranked.take k := by
  obtain filled | entrant := mem_or_mem_of_displace mem
  · exact mem_or_mem_of_fill filled
  · exact .inr entrant

lemma nodup_book (distinct : keep.Nodup) : (book score advantage cap k ranked keep).Nodup :=
  nodup_displace (nodup_fill distinct)

lemma length_filter_book (nodup : ranked.Nodup) (distinct : keep.Nodup) (known : ∀ b ∈ keep, b ∈ ranked) :
    (ranked.filter (· ∈ book score advantage cap k ranked keep)).length =
      (book score advantage cap k ranked keep).length := by
  apply List.Perm.length_eq
  rw [perm_ext_iff_of_nodup (nodup.filter _) (nodup_book distinct)]
  intro b
  rw [mem_filter, decide_eq_true_eq]
  refine ⟨And.right, fun mem => ⟨?_, mem⟩⟩
  exact (mem_or_mem_of_book mem).elim (known b) mem_of_mem_take

lemma select_of_room (nodup : ranked.Nodup) (distinct : keep.Nodup) (known : ∀ b ∈ keep, b ∈ ranked)
    (room : keep.length ≤ cap) :
    select score advantage cap k ranked keep = ranked.filter (· ∈ book score advantage cap k ranked keep) := by
  apply take_of_length_le
  rw [length_filter_book nodup distinct known, book, length_displace]
  exact length_fill room

/-- Selecting again, with what was selected as the kept names, selects the same. -/
theorem select_again {again : List σ} (pos : 0 < advantage) (nodup : ranked.Nodup)
    (descending : ranked.Pairwise fun t u => score u ≤ score t) (distinct : keep.Nodup)
    (known : ∀ b ∈ keep, b ∈ ranked) (distinct' : again.Nodup)
    (same : ∀ a, a ∈ again ↔ a ∈ select score advantage cap k ranked keep) :
    select score advantage cap k ranked again = select score advantage cap k ranked keep := by
  apply select_eq_of_settled select_sublist nodup length_select_le same
  have length : again.length = (select score advantage cap k ranked keep).length :=
    ((perm_ext_iff_of_nodup distinct' (nodup.sublist select_sublist)).2 same).length_eq
  have entrants := descending.sublist (take_sublist k ranked)
  by_cases full : cap ≤ (select score advantage cap k ranked keep).length
  · -- A full book is not filled, and an entrant outside it was refused or cut off.
    rw [book, fill_eq_self (.inl (length ▸ full))]
    apply displace_eq_self
    intro t entrant out b inside
    rw [same] at out inside
    by_cases mem : t ∈ book score advantage cap k ranked keep
    · have listed : t ∈ ranked.filter (· ∈ book score advantage cap k ranked keep) :=
        mem_filter.2 ⟨mem_of_mem_take entrant, decide_eq_true mem⟩
      have le := score_le_of_cut descending listed out b inside
      exact le.trans_lt (lt_add_of_pos_right _ pos)
    · exact refused pos entrants (nodup_fill distinct) entrant mem b (mem_book_of_mem_select inside)
  · -- A book with room has every entrant.
    have whole : select score advantage cap k ranked keep =
        ranked.filter (· ∈ book score advantage cap k ranked keep) := by
      apply take_of_length_le
      rw [select, length_take] at full
      omega
    have room : (fill cap (ranked.take k) keep).length < cap := by
      have size : (ranked.filter (· ∈ book score advantage cap k ranked keep)).length =
          (book score advantage cap k ranked keep).length := length_filter_book nodup distinct known
      rw [whole, size, book, length_displace] at full
      exact not_le.1 full
    have all := mem_fill_of_room room
    have quiet : book score advantage cap k ranked keep = fill cap (ranked.take k) keep :=
      displace_eq_self fun t entrant out => absurd (all t entrant) out
    have inside : ∀ t ∈ ranked.take k, t ∈ again := by
      intro t entrant
      rw [same, whole, mem_filter, decide_eq_true_eq, quiet]
      exact ⟨mem_of_mem_take entrant, all t entrant⟩
    rw [book, fill_eq_self (.inr inside)]
    exact displace_eq_self fun t entrant out => absurd (inside t entrant) out

/-- A kept name that is not selected, where the kept names do not overfill the book, is beaten by a selected one. -/
theorem beaten_of_not_mem_select (pos : 0 < advantage) (nodup : ranked.Nodup)
    (descending : ranked.Pairwise fun t u => score u ≤ score t) (distinct : keep.Nodup)
    (known : ∀ b ∈ keep, b ∈ ranked) (room : keep.length ≤ cap) (mem : x ∈ keep)
    (out : x ∉ select score advantage cap k ranked keep) :
    ∃ t ∈ select score advantage cap k ranked keep, score x + advantage ≤ score t := by
  rw [select_of_room nodup distinct known room] at out ⊢
  have left : x ∉ book score advantage cap k ranked keep :=
    fun inside => out (mem_filter.2 ⟨known x mem, decide_eq_true inside⟩)
  obtain ⟨t, inside, better⟩ := beaten pos (descending.sublist (take_sublist k ranked)) (nodup_fill distinct)
    (mem_fill_of_mem mem) left
  refine ⟨t, mem_filter.2 ⟨?_, decide_eq_true inside⟩, better⟩
  exact (mem_or_mem_of_book inside).elim (known t) mem_of_mem_take

end Ordered

end Select

end Workbench.Lib.Displacement
