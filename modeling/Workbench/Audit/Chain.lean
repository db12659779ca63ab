import Workbench.Lib.Machine
import Workbench.Audit.Hash

/-!
# The chain under concurrent writers

Any number of connections write audit rows: rows are added to a session, a flush runs the hook of each of them
and then emits their INSERTs, and a transaction takes the write lock with its first write. A hook reads
what is committed, and what its own transaction has inserted.

The table always verifies as long as the rows of one flush are of different users, no other transaction adds a
row for one of them between the hook and the INSERT, and there is one row without a user
(`audit_log_verifies`).
-/

namespace Workbench.Audit
open Workbench.Lib List Option
variable {t : AuditTable}

/-- A session: the rows that were added, and those whose hook has run, with the rows it had in sight. -/
structure Session where
  pending : List Draft := []
  hooked : List (Draft × AuditTable) := []

/-- The committed rows, the transaction that holds the write lock with the rows in its sight, the sessions. -/
structure State where
  table : AuditTable := .empty
  writer : Option (Nat × AuditTable) := none
  sessions : Nat → Session := fun _ => {}

/-- What may happen next. -/
inductive Label where
  | write (c : Nat) (d : Draft)
  | lock (c : Nat)
  | hook (c : Nat)
  | insert (c : Nat)
  | commit (c : Nat)
  | rollback (c : Nat)

namespace State

def visible (s : State) (c : Nat) : AuditTable :=
  match s.writer with
  | some (w, t) => if w = c then t else s.table
  | none => s.table

/-- The rows that a connection sees once it has the write lock; `none` when another has it. -/
def acquire (s : State) (c : Nat) : Option AuditTable :=
  match s.writer with
  | some (w, t) => if w = c then some t else none
  | none => some s.table

def move (s : State) (c : Nat) (x : Session) : State := { s with sessions := Function.update s.sessions c x }

end State

variable (sha : Sha256)

def emit (t : AuditTable) (hooked : List (Draft × AuditTable)) : AuditTable :=
  hooked.foldl (fun t h => t.insert (fillHashChain sha h.2 h.1)) t

def writers : Machine State Label where
  step s
    | .write c d =>
      -- a session is not used while it is flushed
      if (s.sessions c).hooked = [] then
        some (s.move c { s.sessions c with pending := (s.sessions c).pending ++ [d] })
      else none
    | .lock c => (s.acquire c).map fun t => { s with writer := some (c, t) }
    | .hook c =>
      match (s.sessions c).pending with
      | [] => none
      | d :: ds => some (s.move c ⟨ds, (s.sessions c).hooked ++ [(d, s.visible c)]⟩)
    | .insert c =>
      -- all hooks of a flush run before its first INSERT
      if (s.sessions c).pending = [] then
        (s.acquire c).map fun t =>
          { s.move c {} with writer := some (c, emit sha t (s.sessions c).hooked) }
      else none
    | .commit c =>
      if (s.sessions c).pending = [] ∧ (s.sessions c).hooked = [] then
        match s.writer with
        | some (w, t) => some (if w = c then { s with table := t, writer := none } else s)
        | none => some s
      else none
    | .rollback c =>
      some { s.move c {} with writer := s.writer.filter (·.1 ≠ c) }

/-- The rows that are about to be inserted are of different users, none of whom got a row since the hook ran;
    one without a user is the first of its kind. -/
def Fresh (t : AuditTable) (hooked : List (Draft × AuditTable)) : Prop :=
  (hooked.map (·.1.userId)).Nodup ∧
    ∀ h ∈ hooked, t.chain h.1.userId = if h.1.userId = none then [] else h.2.chain h.1.userId

instance (t : AuditTable) (hooked : List (Draft × AuditTable)) : Decidable (Fresh t hooked) :=
  inferInstanceAs (Decidable (_ ∧ _))

/-- The condition on a run: what a flush inserts is fresh. -/
def OneRowEach (s : State) : Label → Prop
  | .insert c => Fresh (s.visible c) (s.sessions c).hooked
  | _ => True

instance (s : State) : ∀ l, Decidable (OneRowEach s l)
  | .insert _ => inferInstanceAs (Decidable (Fresh _ _))
  | .write _ _ | .lock _ | .hook _ | .commit _ | .rollback _ => isTrue trivial

/-! ## One row more -/

lemma chain_insert {e : Entry} {user : Option Int} :
    (t.insert e).chain user = t.chain user ++ if e.userId = user then [⟨e, t.lastId + 1⟩] else [] := by
  rw [AuditTable.chain, AuditTable.insert, filter_append]
  by_cases mine : e.userId = user
  · rw [if_pos mine, filter_cons_of_pos (by simpa using mine)]
    rfl
  · rw [if_neg mine, filter_cons_of_neg (by simpa using mine)]
    rfl

lemma tip_chain {rows : List Row} : tip (·.rowHash) none rows = rows.getLast?.map (·.rowHash) := by
  cases rows using List.reverseRecOn with
  | nil => rfl
  | append_singleton rows row => simp

variable {sha}

lemma verify_insert {e : Entry} (ok : verify sha t = some 0)
    (sealed : computeRowHash sha e.toContent (.text e.ts) e.prevHash = some e.rowHash)
    (link : e.prevHash = t.lastHash e.userId) : verify sha (t.insert e) = some 0 := by
  obtain ⟨rows, chains⟩ := verify_eq_zero.1 ok
  rw [verify_eq_zero]
  constructor
  · intro row mem
    rcases mem_append.1 mem with old | new
    · exact rows row old
    · rw [mem_singleton.1 new]
      exact sealed
  · intro user
    rw [chain_insert]
    by_cases mine : e.userId = user
    · subst mine
      rw [if_pos rfl, linked_concat, tip_chain]
      refine ⟨chains e.userId, ?_⟩
      show orNone e.prevHash = _
      rw [link, AuditTable.lastHash]
      cases last : (t.chain e.userId).getLast? with
      | none => rfl
      | some row =>
        have mem : row ∈ t.rows := (mem_filter.1 (mem_of_getLast? last)).1
        exact orNone_some (rows row mem).rowHash_ne
    · rw [if_neg mine, append_nil]
      exact chains user

lemma sealed_fillHashChain {d : Draft} :
    computeRowHash sha (fillHashChain sha t d).toContent (.text (fillHashChain sha t d).ts)
      (fillHashChain sha t d).prevHash = some (fillHashChain sha t d).rowHash :=
  computeRowHash_stored sha d.utc _ _

lemma verify_emit {hooked : List (Draft × AuditTable)} (ok : verify sha t = some 0)
    (fresh : Fresh t hooked) : verify sha (emit sha t hooked) = some 0 := by
  induction hooked generalizing t with
  | nil => exact ok
  | cons h hooked ih =>
    obtain ⟨d, seen⟩ := h
    obtain ⟨nodup, current⟩ := fresh
    rw [map_cons, nodup_cons] at nodup
    have link : (fillHashChain sha seen d).prevHash = t.lastHash d.userId := by
      have now := current (d, seen) mem_cons_self
      show (if d.userId = none then none else seen.lastHash d.userId) = _
      rw [AuditTable.lastHash, AuditTable.lastHash, now]
      by_cases system : d.userId = none
      · simp [system]
      · simp [system]
    apply ih (verify_insert ok sealed_fillHashChain link)
    refine ⟨nodup.2, fun h' mem => ?_⟩
    -- the row before is of another user
    have other : (fillHashChain sha seen d).userId ≠ h'.1.userId := by
      intro eq
      exact nodup.1 (mem_map.2 ⟨h', mem, eq.symm⟩)
    rw [chain_insert, if_neg other, append_nil]
    exact current h' (mem_cons_of_mem _ mem)

/-! ## Every run -/

/-- What is committed verifies, and so does what the open transaction sees. -/
structure Intact (sha : Sha256) (s : State) : Prop where
  table : verify sha s.table = some 0
  writer : ∀ w ∈ s.writer, verify sha w.2 = some 0

lemma verify_empty : verify sha .empty = some 0 := rfl

lemma intact_start : Intact sha {} := ⟨verify_empty, by simp⟩

lemma acquire_eq {s : State} {c : Nat} (h : s.acquire c = some t) : t = s.visible c := by
  unfold State.acquire at h
  unfold State.visible
  split at h
  · split at h
    · rename_i mine
      rw [if_pos mine]
      exact (some.inj h).symm
    · cases h
  · exact (some.inj h).symm

lemma Intact.visible {s : State} (inv : Intact sha s) {c : Nat} : verify sha (s.visible c) = some 0 := by
  unfold State.visible
  split
  · rename_i w t held
    split
    · exact inv.writer (w, t) held
    · exact inv.table
  · exact inv.table

lemma Intact.step {s t : State} {l : Label} (inv : Intact sha s) (fresh : OneRowEach s l)
    (st : (writers sha).step s l = some t) : Intact sha t := by
  cases l with
  | write c d =>
    obtain ⟨-, eq⟩ := ite_none_right_eq_some.1 st
    cases eq
    exact ⟨inv.table, inv.writer⟩
  | lock c =>
    obtain ⟨view, got, rfl⟩ := map_eq_some_iff.1 st
    refine ⟨inv.table, fun w held => ?_⟩
    cases held
    rw [acquire_eq got]
    exact inv.visible
  | hook c =>
    simp only [writers] at st
    split at st
    · cases st
    · cases st
      exact ⟨inv.table, inv.writer⟩
  | insert c =>
    obtain ⟨-, eq⟩ := ite_none_right_eq_some.1 st
    obtain ⟨view, got, rfl⟩ := map_eq_some_iff.1 eq
    refine ⟨inv.table, fun w held => ?_⟩
    cases held
    rw [acquire_eq got]
    exact verify_emit inv.visible fresh
  | commit c =>
    obtain ⟨-, eq⟩ := ite_none_right_eq_some.1 st
    split at eq
    · rename_i w view held
      cases eq
      split
      · exact ⟨inv.writer (w, view) held, by simp⟩
      · exact inv
    · cases eq
      exact inv
  | rollback c =>
    cases st
    refine ⟨inv.table, fun w held => ?_⟩
    exact inv.writer w ((mem_filter_iff.1 held).1)

variable (sha)

/-- The audit log verifies after every commit, when what each flush inserts is fresh. -/
theorem audit_log_verifies {ls : List Label} {s : State} (run : (writers sha).run {} ls = some s)
    (fresh : (writers sha).Meets OneRowEach {} ls) : verify sha s.table = some 0 :=
  (Machine.run_invariant Intact.step intact_start fresh run).table

/-! ## Runs -/

def plainDigest : Sha256 where
  hexdigest text := String.ofList ('#' :: text)
  nonempty text eq := by
    have nil := congrArg String.toList eq
    rw [String.toList_ofList] at nil
    cases nil

def halfPastNine : DateTimeFields where
  year := 2026
  month := 9
  day := 24
  hour := 13
  minute := 30
  microsecond := 250000
  utcoffset := some 0

/-- A row as `ConsumerRegistry` and the scheduler write it. -/
def audited (userId : Option Int) (action targetId : String) : Draft where
  userId := userId
  actorType := "SYSTEM"
  actorId := some "sip_demand"
  action := action
  targetType := some "sip_consumer"
  targetId := some targetId
  payloadJson := some "{}"
  now := ⟨halfPastNine, by decide⟩
  utc := rfl

def alone (c : Nat) (d : Draft) : List Label := [.write c d, .hook c, .insert c, .commit c]

def quiet : List Label :=
  alone 0 (audited none "SIP_DEMAND_UNION_MATERIALIZED" "LIVE") ++
    [Label.write 1 (audited (some 1) "SIP_DEMAND_REQUESTED" "a"), .hook 1, .insert 1,
      .write 2 (audited (some 2) "SIP_DEMAND_WITHDRAWN" "b"), .hook 2,
      .write 1 (audited (some 1) "SIP_DEMAND_ADMITTED" "a"), .hook 1, .insert 1, .commit 1, .insert 2, .commit 2]

theorem quiet_verifies :
    ∃ s, (writers plainDigest).run {} quiet = some s ∧ s.table.rows.length = 4 ∧
      verify plainDigest s.table = some 0 := by
  obtain ⟨s, run⟩ := isSome_iff_exists.1
    (show ((writers plainDigest).run {} quiet).isSome = true by decide)
  have rows := Machine.observe (f := fun s => s.table.rows.length) run
    (show ((writers plainDigest).run {} quiet).map (fun s => s.table.rows.length) = some 4 by decide)
  exact ⟨s, run, rows, audit_log_verifies plainDigest run (by decide +kernel)⟩

/-- `apply_artifact` with two consumers of one user. -/
def twoGrants : List Label :=
  [.write 0 (audited (some 1) "SIP_CONSUMER_GRANT_ISSUED" "a"),
    .write 0 (audited (some 1) "SIP_CONSUMER_GRANT_ISSUED" "b"), .hook 0, .hook 0, .insert 0, .commit 0]

def racingWriters : List Label :=
  [.write 0 (audited (some 1) "SIP_DEMAND_WITHDRAWN" "a"), .write 1 (audited (some 1) "SIP_DEMAND_WITHDRAWN" "b"),
    .hook 0, .hook 1, .insert 0, .commit 0, .insert 1, .commit 1]

def twoTicks : List Label :=
  alone 0 (audited none "SIP_DEMAND_UNION_MATERIALIZED" "LIVE") ++
    alone 0 (audited none "SIP_DEMAND_UNION_MATERIALIZED" "LIVE")

lemma unlinked_rejected {sha : Sha256} {user : Option Int}
    (rows : t.rows.map (fun row => (row.userId, row.link)) = [(user, none), (user, none)]) : verify sha t ≠ some 0 := by
  intro ok
  have linked := (verify_eq_zero.1 ok).2 user
  rw [AuditTable.chain] at linked
  rcases eq : t.rows with _ | ⟨first, _ | ⟨second, _ | ⟨third, rest⟩⟩⟩
  · rw [eq] at rows
    simp at rows
  · rw [eq] at rows
    simp at rows
  · rw [eq] at rows linked
    simp only [map_cons, map_nil, List.cons.injEq, Prod.mk.injEq, and_true] at rows
    obtain ⟨⟨mine, -⟩, mine', unlinked⟩ := rows
    rw [filter_cons_of_pos (by simpa using mine), filter_cons_of_pos (by simpa using mine')] at linked
    cases unlinked.symm.trans linked.2.1
  · rw [eq] at rows
    simp at rows

lemma run_rejected {ls : List Label} {user : Option Int}
    (rows : ((writers plainDigest).run {} ls).map (fun s => s.table.rows.map fun row => (row.userId, row.link)) =
      some [(user, none), (user, none)]) :
    ∃ s, (writers plainDigest).run {} ls = some s ∧ verify plainDigest s.table ≠ some 0 := by
  obtain ⟨s, run, rows⟩ := map_eq_some_iff.1 rows
  exact ⟨s, run, unlinked_rejected rows⟩

theorem committed_rows_rejected :
    (∃ s, (writers plainDigest).run {} twoGrants = some s ∧ verify plainDigest s.table ≠ some 0) ∧
      (∃ s, (writers plainDigest).run {} racingWriters = some s ∧ verify plainDigest s.table ≠ some 0) ∧
      ∃ s, (writers plainDigest).run {} twoTicks = some s ∧ verify plainDigest s.table ≠ some 0 := by
  refine ⟨?_, ?_, ?_⟩
  · exact @run_rejected _ (some 1) (by decide)
  · exact @run_rejected _ (some 1) (by decide)
  · exact @run_rejected _ none (by decide)

end Workbench.Audit
