import Mathlib.Data.List.Sort
import Workbench.Lib.Calendar
import Workbench.Lib.Dict
import Workbench.Lib.Holes
import Workbench.Strategies.Crontab

/-!
# Security identity resolution

Model of `app/validation/security_lineage.py`: the resolution of a ticker to one permanent lineage over the TICKERS,
ACTIONS and SEP tables, the assessment of a universe, the filter of one session, and the bridge risk of what was
excluded. A query returns the rows of its table in the order in which they are stored, and `ORDER BY date` keeps that
order among equal dates.

Python → Lean naming: `resolve_lineage` → `resolveLineage`, its stages `activeLineage`, `crossing` and `priceRefusal`;
`SessionLineageFilter.filter` → `SessionLineageFilter.filter`; `_decide` → `SessionLineageFilter.decision`.
-/

set_option linter.dupNamespace false

namespace Workbench.Validation
open Lib

/-! ## The store -/

/-- A row of TICKERS, as far as it is read. -/
structure TickerRow where
  ticker : String
  permaticker : Option String
  firstpricedate : Option Date
  lastpricedate : Option Date
deriving DecidableEq

/-- A row of ACTIONS. -/
structure ActionRow where
  date : Option Date
  action : String
  ticker : String
  contraticker : Option String
deriving DecidableEq

/-- A row of SEP. -/
structure SepRow where
  ticker : String
  date : Date
  closeadj : Option ℚ
deriving DecidableEq

/-- The governed store, with the columns that its TICKERS has. -/
structure LineageStore where
  columns : List String := ["ticker", "permaticker", "firstpricedate", "lastpricedate"]
  tickers : List TickerRow
  actions : List ActionRow
  sep : List SepRow
deriving DecidableEq

/-- `str(value).strip()` -/
def strip (s : String) : String :=
  String.ofList ((s.toList.dropWhile Strategies.Crontab.isSpace).reverse.dropWhile Strategies.Crontab.isSpace).reverse

/-! ## Decisions -/

/-- Python `LineageRefusal`. -/
inductive LineageRefusal where
  | noActiveLineage | multipleActiveLineages | missingPermanentId | lookbackCrossesLineage | metadataPriceDisagree
  | unresolvedRemapGap | ambiguousEffectiveInterval
deriving DecidableEq, Repr

/-- A part of a `detail`: its text, or a value that is put in. -/
inductive Piece where
  | text (s : String)
  | date (d : Date)
  | name (s : Option String)
  | names (ss : List String)
  | count (n : ℕ)
deriving DecidableEq

/-- Python `LineageDecision`. -/
structure LineageDecision where
  ticker : String
  eligible : Bool
  permaticker : Option String := none
  refusal : Option LineageRefusal := none
  detail : List Piece := []
  predecessorPermaticker : Option String := none
  boundaryDate : Option Date := none
deriving DecidableEq

def refuse (ticker : String) (permaticker : Option String) (refusal : LineageRefusal) (detail : List Piece) :
    LineageDecision where
  ticker := ticker
  eligible := false
  permaticker := permaticker
  refusal := some refusal
  detail := detail

/-! ## Resolution -/

/-- `LINEAGE_GAP_SESSIONS` -/
def lineageGapSessions : ℕ := 20

/-- `LATE_START_SESSIONS` -/
def lateStartSessions : ℕ := 20

/-- Python `_sessions_between`. -/
def sessionsBetween (sep : List SepRow) (start stop : Date) : List Date :=
  ((sep.map (·.date)).filter fun d => start ≤ d ∧ d ≤ stop).dedup.mergeSort (· ≤ ·)

def marksBetween (sep : List SepRow) (ticker : String) (start stop : Date) : List Date :=
  (sep.filter fun r => r.ticker = ticker ∧ (start ≤ r.date ∧ r.date ≤ stop) ∧ r.closeadj.isSome).map (·.date)

/-- The lineages whose effective interval contains the session: their permanent id and the interval. -/
def activeAt (rows : List TickerRow) (session : Date) : List (Option String × Date × Date) :=
  rows.filterMap fun r =>
    match r.firstpricedate, r.lastpricedate with
    | some first, some last => if first ≤ session ∧ session ≤ last then some (r.permaticker, first, last) else none
    | _, _ => none

/-- The one lineage that is active at the session, or the refusal. -/
def activeLineage (store : LineageStore) (ticker : String) (session : Date) :
    Except LineageDecision (String × Date × Date) :=
  match store.tickers.filter (·.ticker = ticker) with
  | [] => .error (refuse ticker none .noActiveLineage [.text "no TICKERS record for this symbol"])
  | row :: rows =>
    match activeAt (row :: rows) session with
    | [] => .error (refuse ticker none .noActiveLineage
        [.text "no lineage's effective interval contains ", .date session])
    | [(permaticker, first, last)] =>
      match permaticker.map strip with
      | none | some "" => .error (refuse ticker none .missingPermanentId
          [.text "the active lineage carries no permanent identifier"])
      | some perma =>
        if last < first then .error (refuse ticker perma .ambiguousEffectiveInterval
          [.text "effective interval is inverted: ", .date first, .text "..", .date last])
        else .ok (perma, first, last)
    | active => .error (refuse ticker none .multipleActiveLineages
        [.count active.length, .text " lineages are simultaneously active at ", .date session, .text ": ",
          .names ((active.map fun r => r.1.getD "None").mergeSort (· ≤ ·))])

/-- The renames onto a symbol inside the lookback: their dates and the predecessor symbols, those of a day as stored. -/
def changes (store : LineageStore) (ticker : String) (lookback session : Date) : List (Date × Option String) :=
  (store.actions.filterMap fun a =>
    match a.date with
    | some date =>
      if a.action = "tickerchangefrom" ∧ a.ticker = ticker ∧ lookback < date ∧ date ≤ session then
        some (date, a.contraticker)
      else none
    | none => none).mergeSort fun c c' => c.1 ≤ c'.1

/-- The permanent id of a predecessor symbol: that of its first row. -/
def priorPerma (store : LineageStore) (predecessor : Option String) : Option String :=
  (store.tickers.find? (·.ticker = predecessor.getD "None")).bind (·.permaticker.map strip)

/-- The first rename from a predecessor that resolves to a different permanent id. -/
def crossing (store : LineageStore) (ticker perma : String) (lookback session : Date) :
    Option (Date × Option String × String) :=
  (changes store ticker lookback session).findSome? fun (changedOn, predecessor) =>
    (priorPerma store predecessor).bind fun prior =>
      if prior ≠ perma then some (changedOn, predecessor, prior) else none

def lateStart (present : List Bool) : ℕ := (present.takeWhile (!·)).length

/-- The longest run of sessions without a mark. -/
def worstGap (present : List Bool) : ℕ :=
  (present.foldl (fun (s : ℕ × ℕ) ok => let run := if ok then 0 else s.1 + 1; (run, max s.2 run)) (0, 0)).2

/-- The refusal where prices and the claimed interval disagree. -/
def priceRefusal (store : LineageStore) (ticker perma : String) (first last lookback session : Date)
    (sessions : Option (List Date)) : Option LineageDecision :=
  let spanStart := max lookback first
  let spanEnd := min session last
  if spanEnd < spanStart then
    some (refuse ticker perma .ambiguousEffectiveInterval
      [.text "effective interval ", .date first, .text "..", .date last, .text " does not intersect the lookback ",
        .date lookback, .text "..", .date session])
  else
    let governed := sessions.getD (sessionsBetween store.sep spanStart spanEnd)
    let window := governed.filter fun d => spanStart ≤ d ∧ d ≤ spanEnd
    if window = [] then
      some (refuse ticker perma .metadataPriceDisagree [.text "no governed session falls inside the claimed interval"])
    else
      let marks := marksBetween store.sep ticker spanStart spanEnd
      if marks = [] then
        some (refuse ticker perma .metadataPriceDisagree
          [.text "metadata claims the lineage traded ", .date spanStart, .text "..", .date spanEnd,
            .text " but SEP holds no mark for the symbol in that span"])
      else
        let present := window.map fun d => decide (d ∈ marks)
        if lateStartSessions ≤ lateStart present then
          some (refuse ticker perma .metadataPriceDisagree
            [.text "metadata claims trading from ", .date spanStart, .text " but the first mark is ",
              .count (lateStart present),
              .text " governed session(s) later; the earlier history belongs to another lineage"])
        else if lineageGapSessions ≤ worstGap present then
          some (refuse ticker perma .unresolvedRemapGap
            [.count (worstGap present),
              .text " consecutive governed sessions have no mark inside the interval the metadata claims (",
              .date spanStart, .text "..", .date spanEnd,
              .text "); a vendor remap this leaves cannot be resolved without a historical corpus correction"])
        else none

/-- Python `resolve_lineage`. -/
def resolveLineage (store : LineageStore) (ticker : String) (session lookback : Date)
    (sessions : Option (List Date)) : LineageDecision :=
  match activeLineage store ticker session with
  | .error refusal => refusal
  | .ok (perma, first, last) =>
    match crossing store ticker perma lookback session with
    | some (changedOn, predecessor, prior) =>
      { refuse ticker perma .lookbackCrossesLineage
          [.text "symbol was renamed from ", .name predecessor, .text " on ", .date changedOn,
            .text ", inside the lookback beginning ", .date lookback, .text "; predecessor resolves to ",
            .name (some prior), .text ", not ", .name (some perma)] with
        predecessorPermaticker := some prior
        boundaryDate := some changedOn }
    | none =>
      match priceRefusal store ticker perma first last lookback session sessions with
      | some refusal => refusal
      | none =>
        { ticker := ticker
          eligible := true
          permaticker := some perma
          detail := [.text "single lineage ", .name (some perma), .text " spans ", .date (max lookback first),
            .text "..", .date (min session last)] }

/-! ## The universe of a session -/

/-- Python `LineageAssessment`. -/
structure LineageAssessment where
  sessionDate : Date
  lookbackStart : Date
  contract : String
  considered : ℕ
  eligibleTickers : List String
  excluded : List LineageDecision
deriving DecidableEq

/-- `SECURITY_IDENTITY_CONTRACT` -/
def securityIdentityContract : String := "PERMATICKER_EFFECTIVE_INTERVAL_V1"

/-- Python `require_permanent_identifier`: the text of `SecurityIdentityUnavailable`. -/
def requirePermanentIdentifier (store : LineageStore) : Except (List Piece) Unit :=
  let cols := store.columns.map (·.toLower)
  if cols = [] then .error [.text "the store has no `tickers` table"]
  else if "permaticker" ∉ cols then
    .error [.text "the governed TICKERS table carries no `permaticker` column (has ", .names (cols.mergeSort (· ≤ ·)),
      .text ("); PERMATICKER_EFFECTIVE_INTERVAL_V1 requires a vendor permanent identifier " ++
        "and never falls back to ticker identity")]
  else .ok ()

/-- Python `assess_universe`. -/
def assessUniverse (store : LineageStore) (candidates : List String) (session lookback : Date) :
    Except (List Piece) LineageAssessment := do
  requirePermanentIdentifier store
  let sessions := sessionsBetween store.sep lookback session
  let resolved := fun t => resolveLineage store t session lookback (some sessions)
  return {
    sessionDate := session
    lookbackStart := lookback
    contract := securityIdentityContract
    considered := candidates.length
    eligibleTickers := candidates.filter fun t => (resolved t).eligible
    excluded := (candidates.map resolved).filter fun d => !d.eligible }

/-- Python `SessionLineageFilter`. -/
structure SessionLineageFilter where
  store : LineageStore
  sessionDate : Date
  lookbackStart : Date
  decisions : Dict String LineageDecision := .empty
  rawSeen : List String := []
  sessions : List Date

namespace SessionLineageFilter

/-- Python `__init__`. -/
def start (store : LineageStore) (session lookback : Date) : Except (List Piece) SessionLineageFilter := do
  requirePermanentIdentifier store
  return {
    store := store
    sessionDate := session
    lookbackStart := lookback
    sessions := sessionsBetween store.sep lookback session }

/-- Python `_decide`. -/
def decision (f : SessionLineageFilter) (ticker : String) : LineageDecision × SessionLineageFilter :=
  match f.decisions.get ticker with
  | some cached => (cached, f)
  | none =>
    let decision := resolveLineage f.store ticker f.sessionDate f.lookbackStart (some f.sessions)
    (decision, { f with decisions := f.decisions.set ticker decision })

/-- The comprehension of `filter`. -/
def keep (f : SessionLineageFilter) : List String → List String × SessionLineageFilter
  | [] => ([], f)
  | t :: candidates =>
    let (decision, f) := f.decision t
    let (kept, f) := f.keep candidates
    (if decision.eligible then t :: kept else kept, f)

/-- Python `filter`. -/
def filter (f : SessionLineageFilter) (candidates : List String) : List String × SessionLineageFilter :=
  { f with rawSeen := f.rawSeen ++ candidates.filter (· ∉ f.rawSeen) }.keep candidates

/-- One call of `filter` after the other: the results. -/
def calls (f : SessionLineageFilter) : List (List String) → List (List String)
  | [] => []
  | candidates :: rest => (f.filter candidates).1 :: (f.filter candidates).2.calls rest

end SessionLineageFilter

/-! ## Bridge risk -/

/-- Python `BridgeRisk`. -/
structure BridgeRisk where
  ticker : String
  permaticker : Option String
  holeSessions : ℕ
  holeStart : Date
  holeEnd : Date
  lastMarkBefore : Date
  firstMarkAfter : Date
deriving DecidableEq

/-- The risk of one symbol, over the window in order. -/
def bridgeRisk (decision : LineageDecision) (ordered marks : List Date) (minHoleSessions : ℤ) : Option BridgeRisk :=
  if marks = [] then none
  else
    let present := ordered.map fun d => decide (d ∈ marks)
    let scan := Holes.scan present
    if scan.worst < minHoleSessions ∨ scan.worstEnd < 0 then none
    else
      let worstStart := (scan.worstEnd - scan.worst + 1).toNat
      let before := ((ordered.zip present).take worstStart).filter (·.2)
      let after := ((ordered.zip present).drop (scan.worstEnd + 1).toNat).filter (·.2)
      match before.getLast?, after.head?, ordered[worstStart]?, ordered[scan.worstEnd.toNat]? with
      | some last, some first, some holeStart, some holeEnd =>
        some ⟨decision.ticker, decision.permaticker, scan.worst, holeStart, holeEnd, last.1, first.1⟩
      | _, _, _, _ => none

/-- Python `assess_bridge_risk`. -/
def assessBridgeRisk (store : LineageStore) (excluded : List LineageDecision) (window : List Date)
    (minHoleSessions : ℤ) : List BridgeRisk :=
  let ordered := window.mergeSort (· ≤ ·)
  match ordered.head?, ordered.getLast? with
  | some start, some stop => excluded.filterMap fun decision =>
      bridgeRisk decision ordered (marksBetween store.sep decision.ticker start stop) minHoleSessions
  | _, _ => []

end Workbench.Validation
