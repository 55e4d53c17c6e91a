import Gazette.Time.Calendar

/-!
# Instants

An instant is a count of seconds since the first of January 1970 in universal time, and of
nanoseconds within the second. A leap second is kept as the second before it with a thousand million
nanoseconds or more.
-/

namespace Gazette.Time

structure Instant where
  seconds : Int
  nanos : Nat
  deriving Repr, DecidableEq, Inhabited

/-- The hands of a clock with 24 hours; `second` is 60 in a leap second. -/
structure Clock where
  hour : Nat
  minute : Nat
  second : Nat
  deriving Repr, DecidableEq

namespace Instant

def secondsPerDay : Int := 86400

def nanosPerSecond : Nat := 1000000000

def firstSecond : Int := -8334601228800

def lastSecond : Int := 8210266876799

theorem firstSecond_eq : firstSecond = (Date.mk (-262143) 1 1).toDays * secondsPerDay := by decide

theorem lastSecond_eq :
    lastSecond = (Date.mk 262142 12 31).toDays * secondsPerDay + (secondsPerDay - 1) := by decide

def InRange (seconds : Int) : Prop := firstSecond ≤ seconds ∧ seconds ≤ lastSecond

instance (seconds : Int) : Decidable (InRange seconds) := inferInstanceAs (Decidable (_ ∧ _))

/-- The instant at which a second begins, if it can be represented. -/
def ofSeconds? (seconds : Int) : Option Instant :=
  if InRange seconds then some ⟨seconds, 0⟩ else none

def compare (a b : Instant) : Ordering :=
  (Ord.compare a.seconds b.seconds).then (Ord.compare a.nanos b.nanos)

/-- The day, counted from the first of January 1970. -/
def days (at' : Instant) : Int := at'.seconds / secondsPerDay

def date (at' : Instant) : Date := Date.ofDays at'.days

def clock (at' : Instant) : Clock :=
  let second := (at'.seconds % secondsPerDay).toNat
  ⟨second / 3600, second / 60 % 60, second % 60 + at'.nanos / nanosPerSecond⟩

def shift (at' : Instant) (seconds : Int) : Instant := { at' with seconds := at'.seconds + seconds }

end Instant

end Gazette.Time
