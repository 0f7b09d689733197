import Relay.Calendar.DateTime
import Relay.Numeric.Binary64
import Relay.Python.Exceptions

/-!
Python's aware `datetime` in UTC, as microseconds since 1970-01-01T00:00:00.

Of the ISO 8601 forms that `datetime.fromisoformat` reads, `fromisoformat` has
the one that Salesforce and Relay write: an extended date, any separator, hours,
minutes and seconds, a fraction and an offset `+hh:mm`, of which the last two may
be missing. The process runs in UTC, so a text without an offset is one in UTC.
-/

namespace Relay.Python

open Relay.Calendar Relay.Numeric

/-- The microseconds within the second. -/
def microsecond (us : Int) : Nat := (us % 1000000).toNat

/-- `t.isoformat()`. -/
def isoformat (us : Int) : String :=
  String.ofList ((DateTime.ofSeconds (us / 1000000)).text ++
    ((if microsecond us = 0 then [] else '.' :: fixed 6 (microsecond us)) ++ "+00:00".toList))

/-- The instants between the years 1 and 9999 that a `datetime` can hold. -/
def InRange (us : Int) : Prop := 1 ≤ yearOf (us / 1000000) ∧ yearOf (us / 1000000) ≤ 9999

instance (us : Int) : Decidable (InRange us) := by
  unfold InRange
  infer_instance

/-- The magnitude of the nearest double, with the sign put back. -/
def roundSigned (q : ℚ) : ℚ := if q < 0 then -round64 (-q) else round64 q

/-- `t.timestamp()`. -/
def timestamp (us : Int) : ℚ := roundSigned ((us : ℚ) / 1000000)

/-- `int(x)` of a finite float: towards zero. -/
def truncate (q : ℚ) : Int := if q < 0 then -⌊-q⌋ else ⌊q⌋

/-- `t.strftime("%Y-%m-%dT%H:%M:%S")`. -/
def strftime (us : Int) : List Char := (DateTime.ofSeconds (us / 1000000)).text

/-! ### `fromisoformat` -/

/-- A separator and the digits of a fraction, of which six are kept. -/
def isoFraction : List Char → Option (Nat × List Char)
  | c :: rest =>
      if c = '.' ∨ c = ',' then
        let digits := rest.takeWhile Char.isDigit
        if digits = [] then none
        else some (Nat.ofDigitChars 10 ((digits ++ ['0', '0', '0', '0', '0']).take 6) 0,
          rest.dropWhile Char.isDigit)
      else some (0, c :: rest)
  | [] => some (0, [])

/-- An offset in seconds, less than a day. -/
def isoOffset : List Char → Option Int
  | [] => some 0
  | sign :: text => do
      let (hours, text) ← readDigits 2 0 text
      let text ← skip ':' text
      let (minutes, text) ← readDigits 2 0 text
      if text ≠ [] ∨ 86400 ≤ (hours * 60 + minutes) * 60 then none
      else if sign = '+' then some ((hours * 60 + minutes) * 60 : Nat)
      else if sign = '-' then some (-((hours * 60 + minutes) * 60 : Nat))
      else none

/-- The date and time, and what follows them. -/
def isoFields (text : List Char) : Option (DateTime × List Char) := do
  let (year, text) ← readDigits 4 0 text
  let text ← skip '-' text
  let (month, text) ← readDigits 2 0 text
  let text ← skip '-' text
  let (day, text) ← readDigits 2 0 text
  let text := text.drop 1
  let (hour, text) ← readDigits 2 0 text
  let text ← skip ':' text
  let (minute, text) ← readDigits 2 0 text
  let text ← skip ':' text
  let (second, text) ← readDigits 2 0 text
  return (⟨⟨year, month, day⟩, hour, minute, second⟩, text)

/-- The microseconds in UTC that a text denotes, years apart. -/
def isoInstant (text : List Char) : Option Int := do
  let (t, text) ← isoFields text
  let (us, text) ← isoFraction text
  let offset ← isoOffset text
  if t.Valid ∧ 1 ≤ t.date.year then some (1000000 * (t.toSeconds - offset) + us) else none

/-- `datetime.fromisoformat(text).astimezone(UTC)`. -/
def fromisoformat (text : List Char) : Except Exn Int :=
  match isoInstant text with
  | none => .error (.other "ValueError" ("Invalid isoformat string: '" ++ String.ofList text ++ "'"))
  | some us =>
      if InRange us then .ok us else .error (.other "OverflowError" "date value out of range")

end Relay.Python
