import Mathlib.Tactic

/-!
# Hash chains

A sequence is linked when the first element links to a given hash, or to nothing, and every other element to
the hash of the one before it. Where the hash of an element determines its content, and the content its link,
the hash of the last element determines the whole sequence (`Linked.determined`).
-/

namespace Workbench.Lib
open List

variable {α κ η : Type*} (prev : α → Option η) (hash : α → η)

def Linked : Option η → List α → Prop
  | _, [] => True
  | p, a :: as => prev a = p ∧ Linked (some (hash a)) as

def tip (p : Option η) (as : List α) : Option η := as.foldl (fun _ a => some (hash a)) p

variable {prev hash}

@[simp] lemma linked_nil {p : Option η} : Linked prev hash p [] := trivial

lemma linked_cons {p : Option η} {a : α} {as : List α} :
    Linked prev hash p (a :: as) ↔ prev a = p ∧ Linked prev hash (some (hash a)) as := Iff.rfl

@[simp] lemma tip_nil {p : Option η} : tip hash p [] = p := rfl

@[simp] lemma tip_cons {p : Option η} {a : α} {as : List α} :
    tip hash p (a :: as) = tip hash (some (hash a)) as := rfl

@[simp] lemma tip_concat {p : Option η} {a : α} {as : List α} : tip hash p (as ++ [a]) = some (hash a) := by
  simp [tip]

lemma linked_append {p : Option η} {as bs : List α} :
    Linked prev hash p (as ++ bs) ↔ Linked prev hash p as ∧ Linked prev hash (tip hash p as) bs := by
  induction as generalizing p with
  | nil => simp
  | cons a as ih => simp [linked_cons, ih, and_assoc]

lemma linked_concat {p : Option η} {as : List α} {a : α} :
    Linked prev hash p (as ++ [a]) ↔ Linked prev hash p as ∧ prev a = tip hash p as := by
  simp [linked_append, linked_cons]

lemma Linked.congr {β : Type*} {prev' : β → Option η} {hash' : β → η} {as : List α} {bs : List β} {p : Option η}
    (same : as.map (fun a => (prev a, hash a)) = bs.map fun b => (prev' b, hash' b))
    (linked : Linked prev hash p as) : Linked prev' hash' p bs := by
  induction as generalizing bs p with
  | nil =>
    cases bs with
    | nil => trivial
    | cons b bs => cases same
  | cons a as ih =>
    cases bs with
    | nil => cases same
    | cons b bs =>
      obtain ⟨head, tail⟩ := List.cons.inj same
      obtain ⟨eqp, eqh⟩ := Prod.mk.inj head
      refine ⟨eqp ▸ linked.1, ?_⟩
      rw [← eqh]
      exact ih tail linked.2

/-- The hash of the last element determines the sequence. -/
theorem Linked.determined {key : α → κ} {as bs : List α} {a b : α}
    (hashes : ∀ x ∈ as ++ [a], ∀ y ∈ bs ++ [b], hash x = hash y → key x = key y)
    (links : ∀ {x y : α}, key x = key y → prev x = prev y)
    (linked : Linked prev hash none (as ++ [a])) (linked' : Linked prev hash none (bs ++ [b]))
    (eq : hash a = hash b) : (as ++ [a]).map key = (bs ++ [b]).map key := by
  induction as using List.reverseRecOn generalizing bs a b with
  | nil =>
    have keys := hashes a (by simp) b (by simp) eq
    cases bs using List.reverseRecOn with
    | nil => simp [keys]
    | append_singleton bs b' =>
      have first : prev a = none := linked.1
      rw [links keys, (linked_concat.1 linked').2, tip_concat] at first
      cases first
  | append_singleton as a' ih =>
    have keys := hashes a (by simp) b (by simp) eq
    obtain ⟨linked, link⟩ := linked_concat.1 linked
    obtain ⟨linked', link'⟩ := linked_concat.1 linked'
    have same := links keys
    rw [link, link', tip_concat] at same
    cases bs using List.reverseRecOn with
    | nil => cases same
    | append_singleton bs b' =>
      rw [tip_concat] at same
      have before := ih (fun x memx y memy => hashes x (mem_append_left _ memx) y
        (mem_append_left _ memy)) linked linked' (Option.some.inj same)
      rw [map_append, before, map_append]
      simp [keys]

/-- No two elements of a sequence have the same content. -/
theorem Linked.keys_nodup {key : α → κ} {as : List α} (hashes : ∀ x ∈ as, ∀ y ∈ as, hash x = hash y → key x = key y)
    (content : ∀ {x y : α}, key x = key y → hash x = hash y) (links : ∀ {x y : α}, key x = key y → prev x = prev y)
    (linked : Linked prev hash none as) : (as.map key).Nodup := by
  induction as using List.reverseRecOn with
  | nil => simp
  | append_singleton as a ih =>
    have linked' := (linked_concat.1 linked).1
    rw [map_append, nodup_append]
    refine ⟨ih (fun x memx y memy => hashes x (by simp [memx]) y (by simp [memy])) linked', by simp, ?_⟩
    rintro k memk k' memk' rfl
    obtain ⟨b, memb, rfl⟩ := mem_map.1 memk
    obtain ⟨bs, cs, rfl⟩ := append_of_mem memb
    -- the sequence up to the earlier element is as long as the whole
    have whole : bs ++ b :: cs = (bs ++ [b]) ++ cs := by simp
    have linkedb : Linked prev hash none (bs ++ [b]) := (linked_append.1 (whole ▸ linked')).1
    have same : key b = key a := by simpa using memk'
    have eq : (bs ++ [b]).map key = ((bs ++ b :: cs) ++ [a]).map key := Linked.determined
      (fun x memx y memy => hashes x (by
        rw [whole]
        exact mem_append_left _ (mem_append_left _ memx)) y memy) links linkedb linked (content same)
    have lengths := congrArg List.length eq
    simp only [length_map, length_append, length_cons, length_nil] at lengths
    omega

end Workbench.Lib
