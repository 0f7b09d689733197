import Relay.Salesforce.Datetime
import Relay.Salesforce.Org

/-!
The SystemModstamp texts that both sides read.

A `Stamp` is a whole second of local time with an offset, in the form the REST
API returns (`+0200`) or in one of the two RFC 3339 forms (`+02:00`, `Z`).
`textAt` is one with milliseconds. `parseDateTime_textAt` and
`parseDateTime_wireText` say what instants Go reads.
-/

namespace Relay.Salesforce

open Relay.Calendar

/-- An offset from UTC. -/
structure Offset where
  west : Bool
  hours : Nat
  minutes : Nat
  hours_lt : hours < 24
  minutes_lt : minutes < 60

def Offset.sign (o : Offset) : Char := if o.west then '-' else '+'

def Offset.seconds (o : Offset) : Int :=
  if o.west then -(((o.hours * 60 + o.minutes) * 60 : Nat) : Int)
  else ((o.hours * 60 + o.minutes) * 60 : Nat)

inductive Zone where
  /-- `Z` -/
  | utc
  /-- `+0200` -/
  | plain (o : Offset)
  /-- `+02:00` -/
  | colon (o : Offset)

def Zone.text : Zone → List Char
  | utc => ['Z']
  | plain o => o.sign :: (fixed 2 o.hours ++ fixed 2 o.minutes)
  | colon o => o.sign :: (fixed 2 o.hours ++ (':' :: fixed 2 o.minutes))

def Zone.seconds : Zone → Int
  | utc => 0
  | plain o => o.seconds
  | colon o => o.seconds

/-- A whole second of local time between the years 1 and 9999. -/
structure Stamp where
  time : DateTime
  zone : Zone
  valid : time.Valid
  year : 1 ≤ time.date.year ∧ time.date.year ≤ 9999

/-- `2026-09-15T09:00:00.000+0000` -/
def Stamp.text (s : Stamp) : String :=
  String.ofList (s.time.text ++ ('.' :: (fixed 3 0 ++ s.zone.text)))

/-- The second with milliseconds: `2026-09-15T09:00:00.125+0000`. -/
def Stamp.textAt (s : Stamp) (ms : Nat) : String :=
  String.ofList (s.time.text ++ ('.' :: (fixed 3 ms ++ s.zone.text)))

/-- Seconds since 1970-01-01T00:00:00Z. -/
def Stamp.seconds (s : Stamp) : Int := s.time.toSeconds - s.zone.seconds

theorem offsetOf_offset (o : Offset) :
    offsetOf o.sign (fixed 2 o.hours) (fixed 2 o.minutes) = some o.seconds := by
  rw [offsetOf_fixed o.hours_lt o.minutes_lt, Offset.sign, Offset.seconds]
  cases o.west <;> rfl

theorem Offset.sign_noDigit (o : Offset) : o.sign.isDigit = false := by
  unfold Offset.sign
  split <;> rfl

theorem Zone.text_noDigit (z : Zone) : ∃ c rest, z.text = c :: rest ∧ c.isDigit = false := by
  cases z with
  | utc => exact ⟨'Z', [], rfl, rfl⟩
  | plain o => exact ⟨_, _, rfl, o.sign_noDigit⟩
  | colon o => exact ⟨_, _, rfl, o.sign_noDigit⟩

/-- Go reads every stamp, to the millisecond. -/
theorem parseDateTime_textAt (s : Stamp) {ms : Nat} (fits : ms < 1000) :
    parseDateTime (s.textAt ms) = some (nanosPerSecond * s.seconds + 1000000 * ms) := by
  have inside : FourDigits s.time := ⟨by have := s.year.1; omega, s.year.2⟩
  have wire := fraction_wire fits s.zone.text
  have general : fraction .rfc3339Nano ('.' :: (fixed 3 ms ++ s.zone.text)) =
      some ((ms * 1000000 : Int), s.zone.text) := by
    obtain ⟨c, rest, shape, noDigit⟩ := s.zone.text_noDigit
    rw [shape, fraction_rfc3339Nano fits noDigit]
  rw [parseDateTime, Stamp.textAt, String.toList_ofList, parse_text s.valid, parse_text s.valid,
    if_pos inside, if_pos inside, wire, general, Stamp.seconds, Int.mul_comm 1000000]
  simp only [Option.bind_some]
  cases s.zone with
  | utc => simp [Zone.text, zone, Zone.seconds]
  | plain o => simp [Zone.text, zone_wire, offsetOf_offset, Zone.seconds]
  | colon o =>
      have notWire : zone .wire (o.sign :: (fixed 2 o.hours ++ (':' :: fixed 2 o.minutes))) = none :=
        rfl
      simp [Zone.text, notWire, zone_rfc3339Nano, offsetOf_offset, Zone.seconds]

theorem parseDateTime_text (s : Stamp) :
    parseDateTime s.text = some (nanosPerSecond * s.seconds) := by
  have read := parseDateTime_textAt s (show 0 < 1000 by decide)
  rwa [Int.natCast_zero, Int.mul_zero, Int.add_zero] at read

/-- Go reads the stamp of a deal, or nothing when its year has not four digits. -/
theorem parseDateTime_wireText (ms : Int) :
    parseDateTime (wireText ms) =
      if FourDigits (.ofSeconds (ms / 1000)) then some (1000000 * ms) else none := by
  have valid := ofSeconds_valid (ms / 1000)
  have wire := fraction_wire (show (ms % 1000).toNat < 1000 by omega) "+0000".toList
  have utc : zone .wire "+0000".toList = some 0 := by decide
  rw [parseDateTime, wireText, String.toList_ofList, parse_text valid, parse_text valid]
  by_cases inside : FourDigits (.ofSeconds (ms / 1000))
  · simp only [if_pos inside, wire, utc, Option.bind_some, Option.map_some, Option.some_or,
      toSeconds_ofSeconds, nanosPerSecond, Option.some.injEq]
    omega
  · simp only [if_neg inside, Option.none_or]

end Relay.Salesforce
