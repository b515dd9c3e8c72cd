/-!
Days of the calendar and moments of a day, with their two texts: one to read and one that spells
out how the value is built.
-/

namespace ImportOrder

structure Date where
  year : Nat
  month : Nat
  day : Nat
deriving DecidableEq

structure Moment where
  date : Date
  hour : Nat
  minute : Nat
  second : Nat
  microsecond : Nat
  /-- Seconds ahead of universal time, if the moment says so. -/
  offset : Option Int
deriving DecidableEq

namespace Date

def isLeap (year : Nat) : Bool := year % 4 == 0 && (year % 100 != 0 || year % 400 == 0)

def daysIn (year month : Nat) : Nat :=
  if month == 2 then (if isLeap year then 29 else 28)
  else if [4, 6, 9, 11].contains month then 30
  else 31

/-- A day that the calendar has, in the years 1 to 9999. -/
def isValid (d : Date) : Bool :=
  1 ≤ d.year && d.year ≤ 9999 && 1 ≤ d.month && d.month ≤ 12 && 1 ≤ d.day &&
    d.day ≤ daysIn d.year d.month

def padded (width n : Nat) : String :=
  let digits := Nat.toDigits 10 n
  String.ofList (List.replicate (width - digits.length) '0' ++ digits)

def toText (d : Date) : String :=
  padded 4 d.year ++ "-" ++ padded 2 d.month ++ "-" ++ padded 2 d.day

def fields (d : Date) : String :=
  toString d.year ++ ", " ++ toString d.month ++ ", " ++ toString d.day

def quoted (d : Date) : String := "datetime.date(" ++ d.fields ++ ")"

end Date

namespace Moment

def isValid (m : Moment) : Bool :=
  m.date.isValid && m.hour < 24 && m.minute < 60 && m.second < 60 &&
    m.offset.all fun o => o.natAbs < 86400

def offsetText (o : Int) : String :=
  let n := o.natAbs
  (if o < 0 then "-" else "+") ++ Date.padded 2 (n / 3600) ++ ":" ++ Date.padded 2 (n / 60 % 60)

def toText (m : Moment) : String :=
  m.date.toText ++ " " ++ Date.padded 2 m.hour ++ ":" ++ Date.padded 2 m.minute ++ ":" ++
    Date.padded 2 m.second ++
    (if m.microsecond == 0 then "" else "." ++ Date.padded 6 m.microsecond) ++
    (m.offset.map offsetText).getD ""

def offsetQuoted (o : Int) : String :=
  if o == 0 then "datetime.timezone.utc"
  else
    let days := o / 86400
    let seconds := o % 86400
    let days := if days == 0 then [] else ["days=" ++ toString days]
    let seconds := if seconds == 0 then [] else ["seconds=" ++ toString seconds]
    "datetime.timezone(datetime.timedelta(" ++ ", ".intercalate (days ++ seconds) ++ "))"

def quoted (m : Moment) : String :=
  "datetime.datetime(" ++ m.date.fields ++ ", " ++ toString m.hour ++ ", " ++ toString m.minute ++
    (if m.second == 0 && m.microsecond == 0 then "" else ", " ++ toString m.second) ++
    (if m.microsecond == 0 then "" else ", " ++ toString m.microsecond) ++
    (m.offset.map fun o => ", tzinfo=" ++ offsetQuoted o).getD "" ++ ")"

end Moment
end ImportOrder
