/-!
# Days and times

The date and the time of day of a count of seconds since the start of 1970, in universal time, as
journals are named and events are stamped with them.
-/

namespace SeedScript.Log

structure Date where
  year : Nat
  month : Nat
  day : Nat
deriving DecidableEq, Repr

namespace Date

/-- The date of a count of days since the start of 1970. Years are counted from March on, so that a
leap day is the last day of its year, in periods of 400 years or 146097 days. -/
def ofDays (days : Nat) : Date :=
  let shifted := days + 719468
  let inPeriod := shifted % 146097
  let yearInPeriod := (inPeriod - inPeriod / 1460 + inPeriod / 36524 - inPeriod / 146096) / 365
  let dayOfYear := inPeriod - (365 * yearInPeriod + yearInPeriod / 4 - yearInPeriod / 100)
  let marchMonth := (5 * dayOfYear + 2) / 153
  let month := if marchMonth < 10 then marchMonth + 3 else marchMonth - 9
  { year := yearInPeriod + 400 * (shifted / 146097) + (if month ≤ 2 then 1 else 0)
    month
    day := dayOfYear - (153 * marchMonth + 2) / 5 + 1 }

end Date

def padded (width n : Nat) : String :=
  let digits := toString n
  String.ofList (List.replicate (width - digits.length) '0') ++ digits

def dayText (seconds : Nat) : String :=
  let d := Date.ofDays (seconds / 86400)
  padded 4 d.year ++ padded 2 d.month ++ padded 2 d.day

def stampText (seconds microseconds : Nat) : String :=
  let d := Date.ofDays (seconds / 86400)
  let s := seconds % 86400
  padded 4 d.year ++ "-" ++ padded 2 d.month ++ "-" ++ padded 2 d.day ++ "T" ++
    padded 2 (s / 3600) ++ ":" ++ padded 2 (s / 60 % 60) ++ ":" ++ padded 2 (s % 60) ++ "." ++
    padded 6 microseconds ++ "Z"

end SeedScript.Log
