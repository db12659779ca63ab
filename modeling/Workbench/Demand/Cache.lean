import Workbench.Lib.Machine
import Workbench.Demand.Registry

/-!
# The operational cache

Model of `upsert` and `prune` of `app/market_data/sip/cache.py` and of the refresh ticks of
`app/market_data/sip/scheduler.py` that call them, any number of which are under way at once on one database. An
`upsert` reads the row of each record before it writes it, and what it has written is flushed, under the write
lock, before the next read. A `prune` reads twice and deletes in a transaction after that.

A row has a primary key, and one of a symbol, profile and date is there once. Dates are days, instants
microseconds since 1970.
-/

namespace Workbench.Demand
open Workbench.Lib

/-! ## The cache -/

/-- A row of `sip_cache_records`. -/
structure CacheRow where
  symbol : String
  profile : SipProfile
  tradingDate : Int
  sourceTimestamp : Int
deriving DecidableEq

/-- What rows are compared by: the symbol and the profile. -/
def CacheRow.key (r : CacheRow) : String × SipProfile := (r.symbol, r.profile)

/-- An observation of the provider; it is authentic when the feed that was served is the one that was asked for. -/
structure SipRecord extends CacheRow where
  feedIsAuthentic : Bool := true

abbrev Cache := Dict Nat CacheRow

def Cache.nextId (cache : Cache) : Nat := ((cache.entries.map Prod.fst).max?.getD 0) + 1

/-- What `upsert` is about to write for one record. -/
inductive Pending where
  | nothing
  | insert (record : SipRecord)
  | update (id : Nat) (was : CacheRow) (record : SipRecord)

/-- The body of the loop of `upsert`. -/
def upsertOne (cache : Cache) (record : SipRecord) : Pending :=
  if record.feedIsAuthentic = false then .nothing
  else
    match cache.entries.find? fun e => e.2.key = record.key ∧ e.2.tradingDate = record.tradingDate with
    | none => .insert record
    | some (id, existing) =>
      if record.sourceTimestamp ≤ existing.sourceTimestamp then .nothing else .update id existing record

/-- The flush of a pending write; `none` when the row is there already, or is gone. -/
def Pending.flush (cache : Cache) : Pending → Option Cache
  | .nothing => some cache
  | .insert record =>
    if cache.entries.any fun e => e.2.key = record.key ∧ e.2.tradingDate = record.tradingDate then none
    else some (cache.set cache.nextId record.toCacheRow)
  | .update id _ record =>
    (cache.get id).map fun now => cache.set id { now with sourceTimestamp := record.sourceTimestamp }

/-- The date before which `prune` deletes. -/
def cutoff (now : Int) (retentionDays : Int) : Int := (now - retentionDays * 86400000000) / 86400000000

/-- The newest date so far of each symbol that is protected, with one row more. -/
def addDate (protect : Finset String) (newest : Dict (String × SipProfile) Int) (r : CacheRow) :
    Dict (String × SipProfile) Int :=
  if r.symbol ∈ protect ∧ (newest.get r.key).all (· < r.tradingDate) then newest.set r.key r.tradingDate else newest

/-- The newest date of each symbol that is protected, by profile. -/
def newestDates (protect : Finset String) (rows : List CacheRow) : Dict (String × SipProfile) Int :=
  rows.foldl (addDate protect) .empty

def oldRows (cache : Cache) (before : Int) : List (Nat × CacheRow) := cache.entries.filter (·.2.tradingDate < before)

/-- The ids of the old rows that are deleted: the newest of a protected symbol is not. -/
def victims (old : List (Nat × CacheRow)) (newest : Dict (String × SipProfile) Int) : List Nat :=
  (old.filter fun e => newest.get e.2.key ≠ some e.2.tradingDate).map Prod.fst

def deleteRows (cache : Cache) (ids : List Nat) : Cache := ids.foldl Dict.erase cache

/-- Python `latest_for_profile`: each symbol's newest row. -/
def latestForProfile (cache : Cache) (profile : SipProfile) : Dict String CacheRow :=
  (cache.values.filter (·.profile = profile)).foldl (fun latest r =>
    if (latest.get r.symbol).all fun l => l.sourceTimestamp < r.sourceTimestamp then latest.set r.symbol r else latest)
    .empty

/-! ## The ticks -/

/-- Retention, and the date of an instant at the exchange. -/
structure RefreshDeps where
  liveRetentionHours : Option Int
  eodRetentionDays : Option Int
  tradingDate : Int → Int

/-- The days that a tick of a profile passes to `prune`; hours count as whole days, at least one. -/
def RefreshDeps.retentionDays (deps : RefreshDeps) : SipProfile → Option Int
  | .live => deps.liveRetentionHours.map fun hours => max 1 (-(-hours / 24))
  | .eod => deps.eodRetentionDays

/-- A tick under way. -/
inductive Refresh where
  | idle
  | started (profile : SipProfile) (now : Int)
  | demanded (profile : SipProfile) (now : Int) (symbols : Finset String)
  | writing (profile : SipProfile) (now : Int) (symbols : Finset String) (todo : List SipRecord) (pending : Pending)
  | written (profile : SipProfile) (now : Int) (symbols : Finset String)
  | pruning (before : Int) (protect : Finset String) (old : List (Nat × CacheRow))
  | deleting (before : Int) (protect : Finset String) (ids : List Nat)

/-- The clock, the leases, the rows that are committed, the transaction that has the write lock with the rows in its
    sight, and the ticks. `starved` keeps the leased rows whose deletion left no row as new, `setBack` the
    updates of a row to a timestamp that is not later. -/
structure RefreshState where
  clock : Int := 0
  leases : List Lease := []
  rows : Cache := .empty
  writer : Option (Nat × Cache) := none
  ticks : Nat → Refresh := fun _ => .idle
  starved : List CacheRow := []
  setBack : List (CacheRow × SipRecord) := []

/-- What may happen next. -/
inductive RefreshLabel where
  | setClock (now : Int)
  | setLeases (leases : List Lease)
  | start (t : Nat) (profile : SipProfile)
  | demand (t : Nat) (go : Bool)
  | fetch (t : Nat) (quotes : Option (List (String × Int × Bool)))
  | look (t : Nat)
  | store (t : Nat)
  | readOld (t : Nat)
  | readAll (t : Nat)
  | delete (t : Nat)
  | abort (t : Nat)

namespace RefreshState

def move (s : RefreshState) (t : Nat) (x : Refresh) : RefreshState := { s with ticks := Function.update s.ticks t x }

/-- The rows in sight of a tick that has, or takes, the write lock. -/
def acquire (s : RefreshState) (t : Nat) : Option Cache :=
  match s.writer with
  | some (w, view) => if w = t then some view else none
  | none => some s.rows

/-- A row of a symbol under an unexpired active lease of its profile. -/
def leased (s : RefreshState) (r : CacheRow) : Bool := r.symbol ∈ (forProfile s.leases r.profile s.clock).symbols

end RefreshState

/-- There is a row of the same symbol and profile that is at least as new. -/
def hasNewer (cache : Cache) (r : CacheRow) : Bool :=
  cache.entries.any fun e => e.2.key = r.key ∧ r.sourceTimestamp ≤ e.2.sourceTimestamp

/-- The update of a row that does not make it newer. -/
def Pending.setsBack (cache : Cache) : Pending → List (CacheRow × SipRecord)
  | .update id _ record =>
    match cache.get id with
    | some now => if record.sourceTimestamp ≤ now.sourceTimestamp then [(now, record)] else []
    | none => []
  | _ => []

def refreshes (deps : RefreshDeps) : Machine RefreshState RefreshLabel where
  step s
    | .setClock now => some { s with clock := now }
    | .setLeases leases => some { s with leases }
    | .start t profile =>
      match s.ticks t with
      | .idle => some (s.move t (.started profile s.clock))
      | _ => none
    | .demand t go =>
      -- `go`: the session is regular, or has settled with attempts left
      match s.ticks t with
      | .started profile now =>
        let symbols := (forProfile s.leases profile s.clock).symbols
        let present := symbols.filter fun x => profile = .eod ∧
          ((latestForProfile s.rows .eod).get x).any (·.tradingDate = deps.tradingDate now)
        some (s.move t (if go = false ∨ symbols = ∅ ∨ present = symbols then .idle else .demanded profile now symbols))
      | _ => none
    | .fetch t quotes =>
      match s.ticks t with
      | .demanded profile now symbols =>
        match quotes with
        | none => some (s.move t (.written profile now symbols))
        | some quotes =>
          some (s.move t (.writing profile now symbols (quotes.map fun q =>
            ⟨⟨q.1, profile, deps.tradingDate now, q.2.1⟩, q.2.2⟩) .nothing))
      | _ => none
    | .look t =>
      match s.ticks t with
      | .writing profile now symbols (record :: todo) .nothing =>
        -- nothing to flush: the read needs no lock
        let view := match s.writer with
          | some (w, view) => if w = t then view else s.rows
          | none => s.rows
        some (s.move t (.writing profile now symbols todo (upsertOne view record)))
      | .writing profile now symbols (record :: todo) pending =>
        (s.acquire t).bind fun view => (pending.flush view).map fun view' =>
          { s.move t (.writing profile now symbols todo (upsertOne view' record)) with
            writer := some (t, view'), setBack := s.setBack ++ pending.setsBack view }
      | _ => none
    | .store t =>
      match s.ticks t with
      | .writing profile now symbols [] pending =>
        (s.acquire t).bind fun view => (pending.flush view).map fun view' =>
          { s.move t (.written profile now symbols) with
            rows := view', writer := none, setBack := s.setBack ++ pending.setsBack view }
      | _ => none
    | .readOld t =>
      match s.ticks t with
      | .written profile now symbols =>
        match deps.retentionDays profile with
        | none => some (s.move t .idle)
        | some days =>
          some (s.move t (if days ≤ 0 then .idle
            else .pruning (cutoff now days) symbols (oldRows s.rows (cutoff now days))))
      | _ => none
    | .readAll t =>
      match s.ticks t with
      | .pruning before protect old =>
        some (s.move t (.deleting before protect (victims old (newestDates protect s.rows.values))))
      | _ => none
    | .delete t =>
      match s.ticks t, s.writer with
      | .deleting _ _ ids, none =>
        let rows := deleteRows s.rows ids
        some { s.move t .idle with
          rows
          starved := s.starved ++ s.rows.values.filter fun r => s.leased r ∧ hasNewer rows r = false }
      | _, _ => none
    | .abort t => some { s.move t .idle with writer := s.writer.filter (·.1 ≠ t) }

end Workbench.Demand
