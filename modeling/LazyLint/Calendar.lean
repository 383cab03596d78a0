/-!
# Dates and times of day

The proleptic Gregorian calendar from year 1 on, as far as it is needed to say whether a date and a
time of day exist.
-/

namespace LazyLint.Calendar

/-- Why a date or a time does not exist. -/
inductive Fault where
  | year (n : Nat)
  | month
  | day
  | hour
  | minute
  | second
  /-- An offset from universal time of a day or more, in seconds. -/
  | offset (seconds : Int)
  deriving Repr, DecidableEq

/-- A span of time in whole days and the seconds beyond them. -/
def spanText (seconds : Int) : String :=
  let days := seconds.fdiv 86400
  let rest := seconds.fmod 86400
  let parts :=
    (if days = 0 then [] else ["days=" ++ toString days]) ++
    (if rest = 0 then [] else ["seconds=" ++ toString rest])
  "datetime.timedelta(" ++ ", ".intercalate parts ++ ")"

def Fault.message : Fault → String
  | .year n => "year " ++ toString n ++ " is out of range"
  | .month => "month must be in 1..12"
  | .day => "day is out of range for month"
  | .hour => "hour must be in 0..23"
  | .minute => "minute must be in 0..59"
  | .second => "second must be in 0..59"
  | .offset seconds =>
    "offset must be a timedelta strictly between -timedelta(hours=24) and timedelta(hours=24), not " ++
      spanText seconds ++ "."

def isLeap (year : Nat) : Bool :=
  year % 4 = 0 && (year % 100 ≠ 0 || year % 400 = 0)

def daysIn (year month : Nat) : Nat :=
  if month = 2 then if isLeap year then 29 else 28
  else if month ∈ [4, 6, 9, 11] then 30
  else 31

/-- What is wrong with a date, if anything is. -/
def dateFault? (year month day : Nat) : Option Fault :=
  if year = 0 then some (.year year)
  else if month = 0 || 12 < month then some .month
  else if day = 0 || daysIn year month < day then some .day
  else none

def timeFault? (hour minute second : Nat) : Option Fault :=
  if 23 < hour then some .hour
  else if 59 < minute then some .minute
  else if 59 < second then some .second
  else none

def offsetFault? (seconds : Int) : Option Fault :=
  if seconds.natAbs < 86400 then none else some (.offset seconds)

end LazyLint.Calendar
