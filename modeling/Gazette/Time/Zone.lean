import Gazette.Time.Pattern

/-!
# Time zones

A zone is known by its name and by how far its clocks are from universal time at each instant. A site
can be given any zones; a few are built in. Of these, the ones for Central Europe and New York follow
the rules for summer time that have held since 1996 and 2007, and the others keep one offset all year.
-/

namespace Gazette.Time

structure Zone where
  name : String
  /-- How many seconds the clocks are ahead of universal time, at a second of universal time. -/
  offset : Int → Int

namespace Zone

/-- The instant whose universal date and time are those of this instant in the zone. -/
def localize (zone : Zone) (at' : Instant) : Instant := at'.shift (zone.offset at'.seconds)

/-- The date of a byline: the medium date in the zone. -/
def bylineDate (zone : Zone) (at' : Instant) : List Char :=
  Pattern.mediumDate.format (zone.localize at')

/-! ### Built-in zones -/

def hourOf (date : Date) (hour : Int) : Int := date.toDays * Instant.secondsPerDay + hour * 3600

/-- Whether summer time is in force in Central Europe: from the last Sunday of March to the last of
October, both at one o'clock universal time. -/
def isEuropeanSummer (seconds : Int) : Bool :=
  let year := (Instant.mk seconds 0).date.year
  hourOf (lastSunday year 3) 1 ≤ seconds && seconds < hourOf (lastSunday year 10) 1

/-- Whether summer time is in force in New York: from the second Sunday of March to the first of
November, both at two o'clock local time. -/
def isNewYorkSummer (seconds : Int) : Bool :=
  let year := (Instant.mk seconds 0).date.year
  hourOf (nthSunday 2 year 3) 7 ≤ seconds && seconds < hourOf (nthSunday 1 year 11) 6

/-- A zone with one offset all year. -/
def fixed (name : String) (offset : Int) : Zone := ⟨name, fun _ => offset⟩

def utc : Zone := fixed "UTC" 0

def berlin : Zone :=
  ⟨"Europe/Berlin", fun seconds => if isEuropeanSummer seconds then 7200 else 3600⟩

def newYork : Zone :=
  ⟨"America/New_York", fun seconds => if isNewYorkSummer seconds then -14400 else -18000⟩

def tokyo : Zone := fixed "Asia/Tokyo" 32400

def kolkata : Zone := fixed "Asia/Kolkata" 19800

def builtIn : List Zone := [utc, berlin, newYork, tokyo, kolkata]

/-- The built-in zone of a name. -/
def ofName? (name : String) : Option Zone := builtIn.find? (·.name == name)

end Zone

end Gazette.Time
