import ImportOrder.Value.Date

/-!
Moments counted in microseconds from the start of 1970, in universal time.
-/

namespace ImportOrder.Clock

/-- The day so many days after the first of March of the year 0. In years that start with March a
leap day comes last, so each month starts at a fixed day of its year. -/
def dateOfDay (day : Nat) : Date :=
  let era := day / 146097
  let dayOfEra := day % 146097
  let yearOfEra := (dayOfEra - dayOfEra / 1460 + dayOfEra / 36524 - dayOfEra / 146096) / 365
  let dayOfYear := dayOfEra - (365 * yearOfEra + yearOfEra / 4 - yearOfEra / 100)
  let march := (5 * dayOfYear + 2) / 153
  let month := if march < 10 then march + 3 else march - 9
  let year := era * 400 + yearOfEra + if march < 10 then 0 else 1
  ⟨year, month, dayOfYear - (153 * march + 2) / 5 + 1⟩

/-- The days from the first of March of the year 0 to the start of 1970. -/
def epoch : Nat := 719468

def timestamp (microseconds : Nat) : String :=
  let seconds := microseconds / 1000000
  let fraction := microseconds % 1000000
  let date := dateOfDay (epoch + seconds / 86400)
  let second := seconds % 86400
  date.toText ++ "T" ++ Date.padded 2 (second / 3600) ++ ":" ++
    Date.padded 2 (second / 60 % 60) ++ ":" ++ Date.padded 2 (second % 60) ++
    (if fraction == 0 then "" else "." ++ Date.padded 6 fraction) ++ "+00:00"

end ImportOrder.Clock
