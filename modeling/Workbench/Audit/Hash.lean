import Workbench.Lib.HashChain
import Workbench.Lib.IsoTime
import Workbench.Lib.JsonText

/-!
# The audit log and its hash chain

Model of `app/observability/audit_hash.py`, of the columns of `app/db/models/audit_log.py`, of
`AuditLogger.write`, and of `scripts/verify_audit_integrity.py`. SHA-256 stands as a `Sha256`: of the text
that is hashed it is known that the digest is not empty.

A stored timestamp is text. A datetime is stored without its zone and hashed with it, so the two paths meet
in `canonTs` (`computeRowHash_stored`).
-/

namespace Workbench.Audit
open Workbench.Lib List Option

/-- `hashlib.sha256(...).hexdigest()` of a text. -/
structure Sha256 where
  hexdigest : List Char → String
  nonempty : ∀ text, hexdigest text ≠ ""

/-! ## The canonical row -/

/-- What `ts` may be: a `datetime` on the write path, a string on the verify path. -/
inductive Stamp where
  | none
  | datetime (t : DateTime)
  | text (s : String)

def canonDatetime (t : DateTime) : List Char :=
  (if t.1.utcoffset = none then t.inUtc else t).isoformat

/-- `ts.replace("Z", "+00:00")`. -/
def replaceZ (cs : List Char) : List Char :=
  cs.flatMap fun c => if c = 'Z' then ['+', '0', '0', ':', '0', '0'] else [c]

/-- Python `_canon_ts`; `none` is a `ValueError`. -/
def canonTs : Stamp → Option (List Char)
  | .none => some []
  | .datetime t => some (canonDatetime t)
  | .text s => if s = "" then some [] else (DateTime.fromisoformat (replaceZ s.toList)).map canonDatetime

/-- The columns that are hashed as they are. -/
structure Content where
  userId : Option Int := none
  actorType : String
  actorId : Option String := none
  action : String
  targetType : Option String := none
  targetId : Option String := none
  payloadJson : Option String := none
deriving DecidableEq

/-- The dictionary that is serialized, its keys sorted. -/
def canonical (c : Content) (ts : List Char) (prevHash : Option String) : Json :=
  .obj [("action", .str c.action), ("actor_id", .ofOption c.actorId), ("actor_type", .str c.actorType),
    ("payload_json", .str (c.payloadJson.getD "")), ("prev_hash", .str (prevHash.getD "")),
    ("target_id", .ofOption c.targetId), ("target_type", .ofOption c.targetType),
    ("ts", .str (String.ofList ts)), ("user_id", (c.userId.map Json.int).getD .null)]

variable (sha : Sha256)

/-- The hash of a row whose timestamp is in canonical form. -/
def hashCanonical (c : Content) (ts : List Char) (prevHash : Option String) : String :=
  sha.hexdigest (Json.dumps (canonical c ts prevHash))

/-- Python `compute_row_hash`; `none` when the timestamp does not parse. -/
def computeRowHash (c : Content) (ts : Stamp) (prevHash : Option String) : Option String :=
  (canonTs ts).map fun ts => hashCanonical sha c ts prevHash

/-! ## Rows -/

/-- A row of `audit_log` before it has an id. -/
structure Entry extends Content where
  ts : String
  ip : Option String := none
  rowHash : String
  prevHash : Option String
deriving DecidableEq

/-- A row of `audit_log`. -/
structure Row extends Entry where
  id : Int
deriving DecidableEq

/-- The table in the order of its ids, which are a primary key. -/
structure AuditTable where
  rows : List Row
  sorted : rows.Pairwise (·.id < ·.id)

namespace AuditTable

def empty : AuditTable := ⟨[], List.Pairwise.nil⟩

def lastId (t : AuditTable) : Int := (t.rows.getLast?.map (·.id)).getD 0

lemma le_lastId {t : AuditTable} {r : Row} (mem : r ∈ t.rows) : r.id ≤ t.lastId := by
  obtain ⟨rows, sorted⟩ := t
  cases rows using List.reverseRecOn with
  | nil => cases mem
  | append_singleton rows last =>
    simp only [lastId, getLast?_append, getLast?_singleton, some_or, map_some,
      getD_some]
    rcases mem_append.1 mem with mem | mem
    · exact ((pairwise_append.1 sorted).2.2 r mem last (by simp)).le
    · rw [mem_singleton.1 mem]

/-- `INSERT`: the row gets the next id. -/
def insert (t : AuditTable) (e : Entry) : AuditTable where
  rows := t.rows ++ [⟨e, t.lastId + 1⟩]
  sorted := by
    rw [pairwise_append]
    refine ⟨t.sorted, pairwise_singleton _ _, ?_⟩
    intro r mem r' mem'
    rw [mem_singleton.1 mem']
    exact Int.lt_add_one_of_le (le_lastId mem)

/-- The rows of one user; those without a user are a chain of their own. -/
def chain (t : AuditTable) (user : Option Int) : List Row := t.rows.filter (·.userId = user)

/-- `SELECT row_hash FROM audit_log WHERE user_id = :uid ORDER BY id DESC LIMIT 1`. -/
def lastHash (t : AuditTable) (user : Option Int) : Option String := (t.chain user).getLast?.map (·.rowHash)

end AuditTable

/-! ## The write path -/

/-- What is passed to `AuditLogger.write`; the payload is serialized, the time is `datetime.now(UTC)`. -/
structure Draft extends Content where
  now : DateTime
  utc : now.1.utcoffset = some 0
  ip : Option String := none

/-- Python `_audit_log_fill_hash_chain`, in sight of the rows of a table. -/
def fillHashChain (t : AuditTable) (d : Draft) : Entry :=
  let prevHash := if d.userId = none then none else t.lastHash d.userId
  { d.toContent with
    ts := String.ofList d.now.storedText
    ip := d.ip
    prevHash
    rowHash := hashCanonical sha d.toContent (canonDatetime d.now) prevHash }

/-! ## The verify path -/

/-- `x or None`. -/
def orNone (x : Option String) : Option String := x.filter (· ≠ "")

/-- What `verify` carries from row to row. -/
structure Walk where
  perUserLast : Dict (Option Int) String := .empty
  errors : Nat := 0

/-- The body of the loop of `verify`. -/
def checkRow (w : Walk) (row : Row) : Option Walk := do
  let prevErrors := if orNone row.prevHash ≠ orNone (w.perUserLast.get row.userId) then 1 else 0
  let expected ← computeRowHash sha row.toContent (.text row.ts) row.prevHash
  let hashErrors := if row.rowHash ≠ expected then 1 else 0
  some ⟨w.perUserLast.set row.userId row.rowHash, w.errors + prevErrors + hashErrors⟩

/-- Python `verify`: the exit code; `none` when a timestamp does not parse. -/
def verify (t : AuditTable) : Option Nat :=
  (t.rows.foldlM (checkRow sha) {}).map fun w => if w.errors = 0 then 0 else 1

/-! ## What `verify` checks -/

/-- The stored hash is the hash of the stored columns. -/
def Row.Sealed (row : Row) : Prop :=
  computeRowHash sha row.toContent (.text row.ts) row.prevHash = some row.rowHash

instance (row : Row) : Decidable (row.Sealed sha) := inferInstanceAs (Decidable (_ = _))

/-- The link of a row; an empty string is none. -/
def Row.link (row : Row) : Option String := orNone row.prevHash

variable {sha}

lemma Row.Sealed.rowHash_ne {row : Row} (h : row.Sealed sha) : row.rowHash ≠ "" := by
  obtain ⟨ts, -, eq⟩ := map_eq_some_iff.1 h
  rw [← eq]
  exact sha.nonempty _

lemma orNone_some {s : String} (ne : s ≠ "") : orNone (some s) = some s := by
  rw [orNone, filter_some]
  exact if_pos (decide_eq_true ne)

lemma checkRow_clean {w : Walk} {row : Row} :
    (∃ w', checkRow sha w row = some w' ∧ w'.errors = w.errors) ↔
      row.Sealed sha ∧ row.link = orNone (w.perUserLast.get row.userId) := by
  unfold checkRow Row.Sealed Row.link
  cases eq : computeRowHash sha row.toContent (.text row.ts) row.prevHash with
  | none => simp
  | some expected =>
    simp only [bind_eq_bind, bind_some, some.injEq, exists_eq_left']
    constructor
    · intro same
      constructor
      · by_contra ne
        rw [if_pos (Ne.symm ne)] at same
        omega
      · by_contra ne
        rw [if_pos ne] at same
        omega
    · rintro ⟨rfl, link⟩
      simp [link]

lemma checkRow_last {w w' : Walk} {row : Row} (h : checkRow sha w row = some w') :
    w'.perUserLast = w.perUserLast.set row.userId row.rowHash ∧ w.errors ≤ w'.errors := by
  unfold checkRow at h
  cases eq : computeRowHash sha row.toContent (.text row.ts) row.prevHash with
  | none => simp [eq] at h
  | some expected =>
    simp only [eq, bind_eq_bind, bind_some, some.injEq] at h
    subst h
    exact ⟨rfl, (Nat.le_add_right _ _).trans (Nat.le_add_right _ _)⟩

lemma walk_errors {rows : List Row} {w w' : Walk} (h : rows.foldlM (checkRow sha) w = some w') :
    w.errors ≤ w'.errors := by
  induction rows generalizing w with
  | nil =>
    cases h
    exact le_rfl
  | cons row rows ih =>
    rw [foldlM_cons] at h
    obtain ⟨w₁, step, rest⟩ := bind_eq_some_iff.1 h
    exact (checkRow_last step).2.trans (ih rest)

lemma walk_clean {rows : List Row} {w : Walk} :
    (∃ w', rows.foldlM (checkRow sha) w = some w' ∧ w'.errors = w.errors) ↔ (∀ row ∈ rows, row.Sealed sha) ∧
        ∀ user, Linked Row.link (·.rowHash) (orNone (w.perUserLast.get user)) (rows.filter (·.userId = user)) := by
  induction rows generalizing w with
  | nil => simp
  | cons row rows ih =>
    have step : (∃ w', (row :: rows).foldlM (checkRow sha) w = some w' ∧ w'.errors = w.errors) ↔
        ∃ w₁, (checkRow sha w row = some w₁ ∧ w₁.errors = w.errors) ∧
          ∃ w', rows.foldlM (checkRow sha) w₁ = some w' ∧ w'.errors = w₁.errors := by
      simp only [foldlM_cons, bind_eq_bind, bind_eq_some_iff]
      constructor
      · rintro ⟨w', ⟨w₁, first, rest⟩, same⟩
        have le := (checkRow_last first).2
        have le' := walk_errors rest
        exact ⟨w₁, ⟨first, by omega⟩, w', rest, by omega⟩
      · rintro ⟨w₁, ⟨first, same⟩, w', rest, same'⟩
        exact ⟨w', ⟨w₁, first, rest⟩, same'.trans same⟩
    rw [step]
    constructor
    · rintro ⟨w₁, ⟨first, same⟩, rest⟩
      obtain ⟨sealed, link⟩ := checkRow_clean.1 ⟨w₁, first, same⟩
      obtain ⟨sealed', linked⟩ := ih.1 rest
      refine ⟨forall_mem_cons.2 ⟨sealed, sealed'⟩, fun user => ?_⟩
      have linked := linked user
      rw [(checkRow_last first).1, Dict.get_set] at linked
      by_cases mine : row.userId = user
      · rw [if_pos mine.symm, orNone_some sealed.rowHash_ne] at linked
        rw [filter_cons_of_pos (by simpa using mine)]
        exact ⟨mine ▸ link, linked⟩
      · rw [if_neg (Ne.symm mine)] at linked
        rwa [filter_cons_of_neg (by simpa using mine)]
    · rintro ⟨sealed, linked⟩
      have first := linked row.userId
      rw [filter_cons_of_pos (by simp)] at first
      have sealed₀ := sealed row mem_cons_self
      obtain ⟨w₁, check, same⟩ := checkRow_clean.2 ⟨sealed₀, first.1⟩
      refine ⟨w₁, ⟨check, same⟩, ih.2 ⟨fun r mem => sealed r (mem_cons_of_mem _ mem), fun user => ?_⟩⟩
      rw [(checkRow_last check).1, Dict.get_set]
      by_cases mine : row.userId = user
      · subst mine
        rw [if_pos rfl, orNone_some sealed₀.rowHash_ne]
        exact first.2
      · rw [if_neg (Ne.symm mine)]
        have whole := linked user
        rwa [filter_cons_of_neg (by simpa using mine)] at whole

/-- What `verify` accepts: sealed rows, and for each user a linked chain. -/
theorem verify_eq_zero {t : AuditTable} :
    verify sha t = some 0 ↔
      (∀ row ∈ t.rows, row.Sealed sha) ∧ ∀ user, Linked Row.link (·.rowHash) none (t.chain user) := by
  have clean := @walk_clean sha t.rows {}
  simp only [Dict.get_empty] at clean
  rw [show orNone none = none from rfl] at clean
  simp only [AuditTable.chain]
  rw [← clean, verify, map_eq_some_iff]
  constructor
  · rintro ⟨w, walk, zero⟩
    refine ⟨w, walk, ?_⟩
    split at zero
    · assumption
    · cases zero
  · rintro ⟨w, walk, zero⟩
    exact ⟨w, walk, if_pos zero⟩

/-! ## The two paths agree -/

lemma replaceZ_of_no_z {cs : List Char} (plain : 'Z' ∉ cs) : replaceZ cs = cs := by
  induction cs with
  | nil => rfl
  | cons c cs ih =>
    rw [mem_cons, not_or] at plain
    rw [replaceZ, flatMap_cons, if_neg (Ne.symm plain.1)]
    exact congrArg (c :: ·) (ih plain.2)

lemma canonDatetime_naive {t : DateTime} (utc : t.1.utcoffset = some 0) : canonDatetime t.naive = canonDatetime t := by
  have same : t.naive.inUtc = t := by
    obtain ⟨f, valid⟩ := t
    apply Subtype.ext
    show ({ f with utcoffset := some 0 } : DateTimeFields) = f
    rw [← utc]
  rw [canonDatetime, canonDatetime, if_pos (show t.naive.1.utcoffset = none from rfl), same,
    if_neg (by rw [utc]; simp)]

lemma canonTs_stored {t : DateTime} (utc : t.1.utcoffset = some 0) :
    canonTs (.text (String.ofList t.storedText)) = some (canonDatetime t) := by
  have some_text : String.ofList t.storedText ≠ "" := by
    intro eq
    apply t.storedText_ne_nil
    rw [← String.toList_ofList (l := t.storedText), eq]
    rfl
  rw [canonTs, if_neg some_text, String.toList_ofList, replaceZ_of_no_z t.z_notMem_storedText,
    DateTime.fromisoformat_storedText, map_some, canonDatetime_naive utc]

variable (sha)

/-- The hash recomputed from the stored text is the hash computed when the row was written. -/
theorem computeRowHash_stored {t : DateTime} (utc : t.1.utcoffset = some 0) (c : Content) (prevHash : Option String) :
    computeRowHash sha c (.text (String.ofList t.storedText)) prevHash =
      computeRowHash sha c (.datetime t) prevHash := by
  rw [computeRowHash, canonTs_stored utc]
  rfl

end Workbench.Audit
