import Mathlib.Data.Finset.Union
import Mathlib.Order.Interval.Finset.Nat
import Mathlib.Tactic

/-!
# Crontab weekdays

Model of `_normalize_crontab_dow` and of the schedule that `register` builds with it (`app/strategies/engine.py`).
A crontab counts its weekdays from Sunday, 0 or 7; the scheduler library counts them from Monday and knows their names.
What the library makes of a text is a parameter, `Apscheduler`, of which `Documented` says what the code relies on.
-/

namespace Workbench.Strategies.Crontab

abbrev Text := List Char

/-! ## Reading and writing texts -/

/-- `c.isspace()`. -/
def isSpace (c : Char) : Bool :=
  (9 ≤ c.toNat && c.toNat ≤ 13) || (28 ≤ c.toNat && c.toNat ≤ 32) || (8192 ≤ c.toNat && c.toNat ≤ 8202) ||
    c.toNat ∈ [133, 160, 5760, 8232, 8233, 8239, 8287, 12288]

/-- `s.split()`. -/
def words (s : Text) : List Text := (s.splitOnP isSpace).filter (· ≠ [])

/-- `sep.join(parts)`, for a separator of one character. -/
def join (sep : Char) (parts : List Text) : Text := [sep].intercalate parts

/-- `s.isdigit()`, of an ASCII text. -/
def isDigits (s : Text) : Bool := s ≠ [] && s.all Char.isDigit

/-- `int(s)`, of digits. -/
def intOf (s : Text) : Nat := s.foldl (fun n c => 10 * n + (c.toNat - 48)) 0

/-! ## The rewrite -/

def dayNames : List Text :=
  [['m', 'o', 'n'], ['t', 'u', 'e'], ['w', 'e', 'd'], ['t', 'h', 'u'], ['f', 'r', 'i'], ['s', 'a', 't'],
    ['s', 'u', 'n']]

/-- `_CRON_DOW_NAMES[n]`: 0 and 7 are Sunday. -/
def cronDowNames : Nat → Text
  | 1 => ['m', 'o', 'n']
  | 2 => ['t', 'u', 'e']
  | 3 => ['w', 'e', 'd']
  | 4 => ['t', 'h', 'u']
  | 5 => ['f', 'r', 'i']
  | 6 => ['s', 'a', 't']
  | _ => ['s', 'u', 'n']

/-- The name of an endpoint, if it is a clean number. -/
def endpointName (n : Text) : Option Text :=
  if isDigits n ∧ intOf n ≤ 7 then some (cronDowNames (intOf n)) else none

/-- `_token`. -/
def token (tok : Text) : Text :=
  match (tok.splitOn '-').mapM endpointName with
  | some names => join '-' names
  | none => tok

/-- Python `_normalize_crontab_dow`. -/
def normalizeCrontabDow (expr : Text) : Text :=
  match words expr with
  | [minute, hour, day, month, dow] =>
    if '*' ∈ dow ∨ '/' ∈ dow then expr
    else join ' ' [minute, hour, day, month, join ',' ((dow.splitOn ',').map token)]
  | _ => expr

/-! ## The library -/

/-- What the scheduler library makes of crontab fields: the first four together, and the weekdays. -/
structure Apscheduler (τ : Type*) where
  times : Text → Text → Text → Text → Option τ
  days : Text → Option (Finset Nat)
  stepLimit : Nat → Nat → Nat

/-- `CronTrigger.from_crontab`: the times, and the weekdays counted from Monday. -/
def fromCrontab {τ : Type*} (lib : Apscheduler τ) (expr : Text) : Option (τ × Finset Nat) :=
  match words expr with
  | [minute, hour, day, month, dow] =>
    (lib.times minute hour day month).bind fun times => (lib.days dow).map fun days => (times, days)
  | _ => none

/-- How a registered strategy is dispatched. -/
inductive Cadence (τ : Type*) where
  | event
  | cron (times : τ) (days : Finset Nat)
  | everyMinute
  deriving DecidableEq

/-- The schedule of `register`: an expression that is rejected becomes `*/1 * * * *`. -/
def registerCadence {τ : Type*} (lib : Apscheduler τ) (schedule : Text) : Cadence τ :=
  if schedule = ['e', 'v', 'e', 'n', 't'] then .event
  else match fromCrontab lib (normalizeCrontabDow schedule) with
    | some (times, days) => .cron times days
    | none => .everyMinute

/-! ## Weekday fields -/

/-- A number as it is written. -/
structure Digits where
  chars : Text
  digits : isDigits chars = true

def Digits.value (d : Digits) : Nat := intOf d.chars

/-- An item of a weekday field. -/
inductive Item where
  | number (d : Digits)
  | range (first last : Digits)
  | stepped (first last step : Digits)
  | every
  | everyNth (step : Digits)
  | name (day : Fin 7)
  | nameRange (first last : Fin 7)

namespace Item

def nameOf (day : Fin 7) : Text := dayNames.getD day []

def text : Item → Text
  | number d => d.chars
  | range first last => first.chars ++ '-' :: last.chars
  | stepped first last step => first.chars ++ '-' :: last.chars ++ '/' :: step.chars
  | every => ['*']
  | everyNth step => '*' :: '/' :: step.chars
  | name day => nameOf day
  | nameRange first last => nameOf first ++ '-' :: nameOf last

/-- An item of a standard crontab: numbers from 0 to 7, ranges that do not run backwards, positive steps. -/
def Standard : Item → Prop
  | number d => d.value ≤ 7
  | range first last => first.value ≤ last.value ∧ last.value ≤ 7
  | stepped first last step => first.value ≤ last.value ∧ last.value ≤ 7 ∧ 0 < step.value
  | every => True
  | everyNth step => 0 < step.value
  | name _ | nameRange _ _ => False

/-- A number of a crontab as a day counted from Monday. -/
def cronDay (n : Nat) : Nat := (n + 6) % 7

/-- The standard meaning of an item, as days counted from Monday. -/
def standardDays : Item → Finset Nat
  | number d => {cronDay d.value}
  | range first last => (Finset.Icc first.value last.value).image cronDay
  | stepped first last step =>
    ((Finset.Icc first.value last.value).filter fun n => (n - first.value) % step.value = 0).image cronDay
  | every => Finset.range 7
  | everyNth step => ((Finset.Icc 0 7).filter fun n => n % step.value = 0).image cronDay
  | name day => {day.val}
  | nameRange first last => Finset.Icc first.val last.val

/-- What the library reads in an item; `none` is a `ValueError`. -/
def read (stepLimit : Nat → Nat → Nat) : Item → Option (Finset Nat)
  | number d => if d.value ≤ 6 then some {d.value} else none
  | range first last =>
    if first.value ≤ last.value ∧ last.value ≤ 6 then some (Finset.Icc first.value last.value) else none
  | stepped first last step =>
    if first.value ≤ last.value ∧ last.value ≤ 6 ∧ 0 < step.value ∧ step.value ≤ stepLimit first.value last.value then
      some ((Finset.Icc first.value last.value).filter fun n => (n - first.value) % step.value = 0)
    else none
  | every => some (Finset.range 7)
  | everyNth step =>
    if 0 < step.value ∧ step.value ≤ stepLimit 0 6 then some ((Finset.range 7).filter fun n => n % step.value = 0)
    else none
  | name day => some {day.val}
  | nameRange first last => if first ≤ last then some (Finset.Icc first.val last.val) else none

end Item

def fieldText (field : List Item) : Text := join ',' (field.map Item.text)

def allDays (sets : List (Finset Nat)) : Finset Nat := sets.foldr (· ∪ ·) ∅

def fieldDays (field : List Item) : Finset Nat := allDays (field.map Item.standardDays)

/-- What the code relies on of the library: numbers and names are days counted from Monday, a range that runs backwards
or past Sunday is rejected, a list is read item by item. -/
structure Apscheduler.Documented {τ : Type*} (lib : Apscheduler τ) : Prop where
  item : ∀ item : Item, lib.days item.text = item.read lib.stepLimit
  list : ∀ texts : List Text, texts ≠ [] → (∀ t ∈ texts, ',' ∉ t ∧ ' ' ∉ t) →
    (∀ t ∈ texts, (lib.days t).isSome = true) →
      lib.days (join ',' texts) = some (allDays (texts.map fun t => (lib.days t).getD ∅))
  rejects : ∀ texts : List Text, (∀ t ∈ texts, ',' ∉ t ∧ ' ' ∉ t) →
    ∀ t ∈ texts, lib.days t = none → lib.days (join ',' texts) = none

end Workbench.Strategies.Crontab
