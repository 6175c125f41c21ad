import Tatami.Lib.Calendar
import Tatami.Lib.Checked

/-! # Timestamps

RFC 3339 timestamps (`rfc3339` and `civil_from_days` of `server.rs`, and again of
`quic_diag/time.rs`). A date is found by the era of 400 years, the year of the era from March 1 on,
and the month of that year; every operation on `i64` may overflow. The dates are those of the
calendar (`timestamps_exact`). -/

namespace Tatami.Report

open Calendar

/-! ### Timestamps -/

/-- What is printed of a time. -/
structure Timestamp where
  date : Date
  hour : Nat
  minute : Nat
  second : Nat
  millis : Nat

/-- A number with at least so many characters, filled up with zeros. -/
def padded (width : Nat) (n : Int) : String :=
  let sign := if n < 0 then "-" else ""
  let digits := toString n.natAbs
  sign ++ "".pushn '0' (width - sign.length - digits.length) ++ digits

/-- The text of a timestamp. -/
def Timestamp.text (t : Timestamp) : String :=
  padded 4 t.date.year ++ "-" ++ padded 2 t.date.month ++ "-" ++ padded 2 t.date.day ++ "T" ++
    padded 2 t.hour ++ ":" ++ padded 2 t.minute ++ ":" ++ padded 2 t.second ++ "." ++
    padded 3 t.millis ++ "Z"

/-- The parts of a timestamp down to the second, the largest first. -/
def Timestamp.parts (t : Timestamp) : List Int :=
  [t.date.year, t.date.month, t.date.day, t.hour, t.minute, t.second]

end Tatami.Report
