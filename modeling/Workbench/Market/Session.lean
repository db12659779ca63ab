import Workbench.Db.Enums

/-!
# Market sessions

Model of `app/market/session.py`: an instant is classified by its local time in New York and the schedule
of its local day. The time zone database and the exchange calendar are outside of the repository: a `Zone`
is the offset of each UTC minute, a calendar gives the schedule of a day, and `NewYork` and `Exchange` state
what is used of them.
-/

namespace Workbench.Market

def minute : Nat := 60000000

def dayMinutes : Int := 1440

/-- A time zone: the offset of its local time, in minutes, at a UTC minute. -/
structure Zone where
  offset : Nat → Int

namespace Zone

def localMinute (zone : Zone) (m : Nat) : Int := m + zone.offset m

def date (zone : Zone) (t : Instant) : Int := zone.localMinute (t / minute) / dayMinutes

/-- The local time of the day, in microseconds. -/
def time (zone : Zone) (t : Instant) : Int :=
  zone.localMinute (t / minute) % dayMinutes * minute + (t % minute : Nat)

end Zone

def timeOfDay (hours minutes : Int) : Int := (hours * 60 + minutes) * minute

/-- Python `PRE_MARKET_OPEN`. -/
def preMarketOpen : Int := timeOfDay 4 0

/-- Python `AFTER_HOURS_CLOSE`. -/
def afterHoursClose : Int := timeOfDay 20 0

/-- Python `_DaySchedule`. -/
structure DaySchedule where
  opens : Int
  closes : Int
  deriving DecidableEq, Repr

/-- The schedule of a local date; `none` is not a trading day. -/
abbrev Calendar := Int → Option DaySchedule

/-- Python `classify`, its session. -/
def classify (zone : Zone) (calendar : Calendar) (now : Instant) : MarketSessionType :=
  match calendar (zone.date now) with
  | none => .closed
  | some sched =>
    let t := zone.time now
    if sched.opens ≤ t ∧ t < sched.closes then .regular
    else if preMarketOpen ≤ t ∧ t < sched.opens then .preMarket
    else if sched.closes ≤ t ∧ t < afterHoursClose then .afterHours
    else .closed

/-- What New York time does: a local minute that comes twice is between one and two at night. -/
def NewYork (zone : Zone) : Prop :=
  ∀ m m', zone.localMinute m = zone.localMinute m' → m = m' ∨ zone.localMinute m % dayMinutes / 60 = 1

/-- What the exchange does: no session opens before the pre-market. -/
def Exchange (calendar : Calendar) : Prop :=
  ∀ d sched, calendar d = some sched → preMarketOpen ≤ sched.opens ∧ sched.opens ≤ sched.closes

lemma four_le_of_dispatchable {zone : Zone} {calendar : Calendar} {now : Instant} {extended : Bool}
    (exchange : Exchange calendar) (open_ : (classify zone calendar now).dispatchable extended = true) :
    4 ≤ zone.localMinute (now / minute) % dayMinutes / 60 := by
  have late : preMarketOpen ≤ zone.time now := by
    unfold classify at open_
    split at open_
    · cases open_
    · rename_i sched day
      obtain ⟨early, order⟩ := exchange _ sched day
      dsimp only at open_
      split at open_
      · rename_i regular
        exact early.trans regular.1
      · split at open_
        · rename_i pre
          exact pre.1
        · split at open_
          · rename_i after
            exact (early.trans order).trans after.1
          · cases open_
  unfold Zone.time preMarketOpen timeOfDay minute at late
  unfold minute
  omega

end Workbench.Market
