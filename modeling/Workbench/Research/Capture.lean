import Workbench.Lib.Json
import Workbench.Lib.Machine

/-!
# The capture store

Model of one partition of `app/research/capture/store.py`, and of how `MdqFeatureReader` of
`app/research/disc_mdq/reader.py` reads it. Any number of processes append, write, freeze and read, one label
for each access to the file system; a file is known by its path in the partition.
-/

namespace Workbench.Research.Capture
open Lib

abbrev Bytes := List UInt8

/-- Python `PartitionRef`, with the session as its ISO date. -/
structure PartitionRef where
  feed : String
  session : String
deriving DecidableEq

/-- Python `KINDS`. -/
def kinds : List String := ["quotes", "trades", "bars"]

/-- An entry of the `files` of a manifest. -/
structure FileEntry where
  path : String
  sha256 : String
  bytes : Nat
deriving DecidableEq

/-- A manifest: its `files`, and its other fields. -/
structure Manifest where
  fields : Dict String Json
  files : List FileEntry
deriving DecidableEq

/-- The suffix of a path is `.tmp`. -/
def isTmp (path : String) : Bool := ".tmp".toList.isSuffixOf path.toList

def manifestPath : String := "manifest.json"

def quotesPath : String := "quotes" ++ "/" ++ "samples.jsonl"

/-- The partition: its files, the manifest apart. -/
structure Disk where
  files : Dict String Bytes := .empty
  manifest : Option Manifest := none
deriving DecidableEq

/-- The paths that `freeze` hashes: all but the temporary files, and the manifest when there is one by then. -/
def Disk.listing (d : Disk) : List String :=
  (d.files.entries.map Prod.fst).filter (!isTmp ·) ++ if d.manifest.isSome then [manifestPath] else []

section Store

variable (sha : Bytes → String) (render : Manifest → Bytes) (ref : PartitionRef)

def Disk.read (d : Disk) (path : String) : Option Bytes :=
  if path = manifestPath then d.manifest.map render else d.files.get path

/-- The manifest of `freeze`: the provenance is merged over its first fields. -/
def manifestOf (provenance : Dict String Json) (frozenAt : String) (hashed : List (String × Bytes)) : Manifest where
  fields :=
    let own : Dict String Json :=
        (((((Dict.empty.set "schema" (.str "mdq-capture-manifest/1")).set "feed" (.str ref.feed)).set
      "session" (.str ref.session)).set "collector_version" (.str "mdq-collector/0.1.0")).set "frozen_at"
        (.str frozenAt))
    (provenance.entries.foldl (fun d e => d.set e.1 e.2) own).erase "files"
  files := hashed.map fun e => ⟨e.1, sha e.2, e.2.length⟩

/-- Python `CaptureStore.verify`. -/
def verify (d : Disk) : List String :=
  match d.manifest with
  | none => ["no manifest for " ++ ref.feed ++ "/" ++ ref.session]
  | some manifest =>
    let mismatched := manifest.files.filterMap fun entry =>
      match d.read render entry.path with
      | none => some ("missing file: " ++ entry.path)
      | some content => if sha content ≠ entry.sha256 then some ("hash mismatch: " ++ entry.path) else none
    let unlisted := (d.files.entries.map Prod.fst).filter fun path =>
      path ≠ manifestPath ∧ !isTmp path ∧ path ∉ manifest.files.map (·.path)
    mismatched ++ unlisted.map ("unmanifested file: " ++ ·)

end Store

/-- What a temporary file is renamed to; `hashed` is what the freeze read. -/
inductive Target where
  | parquet (path : String) (content : Bytes)
  | manifest (m : Manifest) (hashed : List (String × Bytes))

/-- Where a process stands. -/
inductive Phase where
  | idle
  | opening (path : String) (data : Bytes)
  | appending (path : String) (data : Bytes)
  | staging (tmp : String) (target : Target)
  | staged (tmp : String) (target : Target)
  | listing (provenance : Dict String Json) (frozenAt : String)
  | hashing (provenance : Dict String Json) (frozenAt : String) (todo : List String) (hashed : List (String × Bytes))
  | reading (m : Manifest)

/-- The partition, the processes, and what the readers parsed under which manifest. -/
structure State where
  disk : Disk := {}
  phases : Nat → Phase := fun _ => .idle
  parsed : List (Manifest × Bytes) := []

def State.move (s : State) (p : Nat) (phase : Phase) : State := { s with phases := Function.update s.phases p phase }

def State.store (s : State) (path : String) (content : Bytes) : State :=
  { s with disk := { s.disk with files := s.disk.files.set path content } }

def State.delete (s : State) (path : String) : State :=
  { s with disk := { s.disk with files := s.disk.files.erase path } }

/-- The calls and their accesses. A `name` has no directory, and a `tmp` is the random part of a temporary name. -/
inductive Label where
  | appendJsonl (p : Nat) (kind : String) (data : Bytes)
  | openAppend (p : Nat)
  | write (p n : Nat)
  | writeParquet (p : Nat) (kind name : String) (content : Bytes) (tmp : String)
  | stage (p : Nat)
  | rename (p : Nat)
  | unlink (p : Nat)
  | freeze (p : Nat) (provenance : Dict String Json) (frozenAt : String)
  | list (p : Nat)
  | hash (p : Nat)
  | publish (p : Nat) (tmp : String)
  | check (p : Nat) (verifyIntegrity : Bool)
  | parse (p : Nat)
  | crash (p : Nat)

/-- Python `_writable_dir`: whether it does not raise. -/
def writable (d : Disk) (kind : String) : Bool := kinds.contains kind && d.manifest.isNone

@[grind] def step (sha : Bytes → String) (render : Manifest → Bytes) (ref : PartitionRef) (s : State) : Label →
    Option State
  | .appendJsonl p kind data =>
    match s.phases p with
    | .idle => some (if writable s.disk kind then s.move p (.opening (kind ++ "/" ++ "samples.jsonl") data) else s)
    | _ => none
  | .openAppend p =>
    match s.phases p with
    | .opening path data =>
      let s := if s.disk.files.contains path then s else s.store path []
      some (s.move p (if data = [] then .idle else .appending path data))
    | _ => none
  | .write p n =>
    match s.phases p with
    | .appending path data =>
      if n = 0 then none
      else some ((s.store path ((s.disk.files.get path).getD [] ++ data.take n)).move p
        (if data.drop n = [] then .idle else .appending path (data.drop n)))
    | _ => none
  | .writeParquet p kind name content tmp =>
    match s.phases p with
    | .idle => some (if writable s.disk kind then
        s.move p (.staging (kind ++ "/" ++ tmp ++ ".tmp") (.parquet (kind ++ "/" ++ name ++ ".parquet") content))
          else s)
    | _ => none
  | .stage p =>
    match s.phases p with
    | .staging tmp target =>
      let content := match target with
        | .parquet _ content => content
        | .manifest m _ => render m
      some ((s.store tmp content).move p (.staged tmp target))
    | _ => none
  | .rename p =>
    match s.phases p with
    | .staged tmp (.parquet path content) => some (((s.delete tmp).store path content).move p .idle)
    | .staged tmp (.manifest m _) =>
      let s := s.delete tmp
      some ({ s with disk := { s.disk with manifest := some m } }.move p .idle)
    | _ => none
  | .unlink p =>
    match s.phases p with
    | .staging tmp _ | .staged tmp _ => some ((s.delete tmp).move p .idle)
    | _ => none
  | .freeze p provenance frozenAt =>
    match s.phases p with
    | .idle => some (if s.disk.manifest.isSome then s else s.move p (.listing provenance frozenAt))
    | _ => none
  | .list p =>
    match s.phases p with
    | .listing provenance frozenAt =>
      -- nothing captured is refused
      some (s.move p (if s.disk.listing = [] then .idle else .hashing provenance frozenAt s.disk.listing []))
    | _ => none
  | .hash p =>
    match s.phases p with
    | .hashing provenance frozenAt (path :: todo) hashed =>
      match s.disk.read render path with
      | none => some (s.move p .idle)
      | some content => some (s.move p (.hashing provenance frozenAt todo (hashed ++ [(path, content)])))
    | _ => none
  | .publish p tmp =>
    match s.phases p with
    | .hashing provenance frozenAt [] hashed =>
      some (s.move p (.staging (tmp ++ ".tmp") (.manifest (manifestOf sha ref provenance frozenAt hashed) hashed)))
    | _ => none
  | .check p verifyIntegrity =>
    match s.phases p, s.disk.manifest with
    | .idle, some m =>
      some (if (!verifyIntegrity || verify sha render ref s.disk = []) && s.disk.files.contains quotesPath then
        s.move p (.reading m) else s)
    | .idle, none => some s
    | _, _ => none
  | .parse p =>
    match s.phases p with
    | .reading m =>
      match s.disk.files.get quotesPath with
      | none => some (s.move p .idle)
      | some content => some { s.move p .idle with parsed := s.parsed ++ [(m, content)] }
    | _ => none
  | .crash p => some (s.move p .idle)

def partition (sha : Bytes → String) (render : Manifest → Bytes) (ref : PartitionRef) : Machine State Label :=
  ⟨step sha render ref⟩

end Workbench.Research.Capture
