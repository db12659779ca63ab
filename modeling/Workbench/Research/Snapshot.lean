import Workbench.Lib.JsonPayload
import Workbench.Lib.Timestamp

/-!
# Candidate snapshots

Model of `app/research/disc001/snapshot.py`: one JSON file for each as-of date, stamped, hashed and written in canonical
form, then a prune of the directory; and what is read back. The prune protects the newest date and the dates that the
pins file lists at that moment, and drops of the others those before the cutoff and those beyond the budget, from the
newest on.

Python → Lean naming: `snapshot_sha256` → `sha256Of` of a payload and `sha256Of'` of a document that was read. A date
in a payload is its `str`, and no other object is in it that `default=str` would write. Files are removed without an
`OSError`; the interpreter's recursion limit is left out.
-/

namespace Workbench.Research.Snapshot
open Workbench.Lib

/-- What the interpreter and its libraries compute. -/
structure Codec (φ : Type) where
  floats : Floats φ
  /-- `hashlib.sha256(text.encode()).hexdigest()` -/
  sha256 : List Char → Text
  /-- `str(v)` of a JSON value -/
  str : Doc φ → Text

/-- A digest is not empty and has no surrogates. -/
structure Codec.Lawful {φ : Type} (C : Codec φ) : Prop where
  floats : C.floats.Lawful
  nonempty : ∀ cs, C.sha256 cs ≠ []
  plain : ∀ cs, ∀ c ∈ C.sha256 cs, c.val < 55296

/-! ## Constants -/

def screenId : Text := Text.of "DISC-001-WATCHLIST"
def screenVersion : Text := Text.of "v0.3.0"
def universeId : Text := Text.of "SEP-liquid-v0"
def schemaVersion : Int := 1
def retentionDays : Nat := 90
def maxFiles : Nat := 90

variable {φ : Type} (C : Codec φ)

/-! ## Payloads -/

abbrev Payload (φ : Type) := Dict Text (PyValue φ)

def Payload.value (p : Payload φ) : PyValue φ := .dict (strEntries p.entries)

/-- `bool(v)` -/
def truthy : PyValue φ → Bool
  | .null => false
  | .bool b => b
  | .int n => n ≠ 0
  | .float x => !Doc.equalsInt C.floats 0 (.float x)
  | .str s => !s.isEmpty
  | .date _ => true
  | .list vs => !vs.isEmpty
  | .tuple vs => !vs.isEmpty
  | .dict es => !es.isEmpty
  | .object => true

/-- `str(payload["as_of"])`, of a string or a date. -/
def asOf (p : Payload φ) : Option Text :=
  match p.get (Text.of "as_of") with
  | some (.str s) => some s
  | some (.date s) => some s
  | _ => none

/-- Python `_canonical`. -/
def canonical (v : PyValue φ) : Except DumpError (List Char) :=
  (v.encode C.floats).map fun d => d.text C.floats .compact

/-- Python `snapshot_sha256`. -/
def sha256Of (p : Payload φ) : Except DumpError Text :=
  (canonical C (Payload.value (p.erase (Text.of "sha256")))).map C.sha256

/-- Python `snapshot_sha256`, of a document that was read. -/
def sha256Of' (fields : List (Text × Doc φ)) : Except DumpError Text :=
  (Doc.canonical C.floats (.obj (fields.filter (·.1 ≠ Text.of "sha256")))).map C.sha256

/-- What `write_snapshot` adds to a payload before its digest. -/
def stamp (now : DateTime) (payload : Payload φ) : Payload φ :=
  let p := payload.set (Text.of "schema_version") (.int schemaVersion)
  let p := p.set (Text.of "screen_id") ((p.get (Text.of "screen_id")).getD (.str screenId))
  let p := p.set (Text.of "screen_version") ((p.get (Text.of "screen_version")).getD (.str screenVersion))
  let p := p.set (Text.of "universe_id") ((p.get (Text.of "universe_id")).getD (.str universeId))
  let builtAt := (p.get (Text.of "built_at")).getD .null
  p.set (Text.of "built_at") (if truthy C builtAt then builtAt else .str (ofChars now.isoformat))

/-! ## The directory -/

/-- The snapshot files by as-of date, and the pins file. -/
structure Directory where
  files : Dict Text (List Char)
  pins : Option (List Char)

/-- `\d{4}-\d{2}-\d{2}` -/
def dateForm : List (Option Char) :=
  [none, none, none, none, some '-', none, none, some '-', none, none]

/-- The date of a snapshot's name matches `_FILE_RE`. -/
def isDate (s : Text) : Bool := s.length = 10 && Timestamp.isOf dateForm s

/-- Python `list_snapshot_dates`, the newest first. -/
def listSnapshotDates (d : Directory) : List Text :=
  ((d.files.entries.map Prod.fst).filter isDate).insertionSort (· ≥ ·)

/-- Python `load_pinned_as_of`: no dates where the file is missing, unreadable or of another form. -/
def loadPinnedAsOf (d : Directory) : Finset Text :=
  match d.pins with
  | none => ∅
  | some content =>
    match loads (Hooks.plain C.floats) content with
    | .error _ => ∅
    | .ok data =>
      let raw := match data with
        | .obj fields => Doc.get fields "as_of"
        | data => data
      match raw with
      | .arr items => (items.map C.str).toFinset
      | _ => ∅

def ordinal (t : DateTime) : Nat :=
  DateTime.daysBefore t.1.year + ((List.range' 1 (t.1.month - 1)).map (daysInMonth t.1.year)).sum + t.1.day

/-- `(now.date() - timedelta(days=SNAPSHOT_RETENTION_DAYS)).isoformat()` -/
def cutoff (now : DateTime) : Text :=
  let (year, month, day) := DateTime.ofOrdinal (ordinal now - retentionDays)
  ofChars (DateTime.dateText { year, month, day })

/-- `protected`, the newest date and the pinned ones. -/
def shielded (d : Directory) : Finset Text := (listSnapshotDates d).head?.toFinset ∪ loadPinnedAsOf C d

/-- The dates that a prune may drop, the newest first. -/
def unpinned (d : Directory) : List Text := (listSnapshotDates d).filter (· ∉ shielded C d)

/-- `keep_budget` -/
def keepBudget (d : Directory) : Nat := maxFiles - (shielded C d).card

def dropped (now : DateTime) (d : Directory) : List Text :=
  (unpinned C d).filter (· < cutoff now) ++ ((unpinned C d).filter (cutoff now ≤ ·)).drop (keepBudget C d)

/-- Python `prune_snapshots`: what is left, and the dates removed. -/
def pruneSnapshots (now : DateTime) (d : Directory) : Directory × List Text :=
  if listSnapshotDates d = [] then (d, [])
  else ({ d with files := (dropped C now d).foldl (fun files a => files.erase a) d.files }, dropped C now d)

/-! ## Writing and reading -/

/-- How a write fails before it touches the directory: without a date, or in `json.dumps`. -/
inductive WriteError where
  | asOf
  | dump (e : DumpError)

/-- The payload that is written: stamped, with its digest. -/
def signed (now : DateTime) (payload : Payload φ) : Except DumpError (Payload φ) := do
  let p := stamp C now payload
  let digest ← sha256Of C p
  return p.set (Text.of "sha256") (.str digest)

/-- Python `write_snapshot`. -/
def writeSnapshot (now : DateTime) (d : Directory) (payload : Payload φ) : Except WriteError Directory := do
  let a ← orRaise (asOf payload) .asOf
  let p ← (signed C now payload).mapError .dump
  let text ← (canonical C p.value).mapError .dump
  return (pruneSnapshots C now { d with files := d.files.set a (text ++ ['\n']) }).1

/-- `recorded == digest` -/
def records (digest : Text) : Doc φ → Bool
  | .str s => s = digest
  | _ => false

/-- Python `read_snapshot`; without a date, that of the newest. -/
def readSnapshot (d : Directory) (a : Option Text) : Except DumpError (Option (List (Text × Doc φ))) :=
  match (a.or (listSnapshotDates d).head?).bind d.files.get with
  | none => .ok none
  | some content =>
    match loads (Hooks.plain C.floats) content with
    | .ok (.obj fields) => do
      let recorded := Doc.get fields "sha256"
      if recorded.truthy C.floats then
        let digest ← sha256Of' C fields
        return if records digest recorded then some fields else none
      else return some fields
    | .ok _ => .ok none
    | .error _ => .ok none

end Workbench.Research.Snapshot
