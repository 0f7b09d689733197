import Relay.Json.Print
import Relay.Python.Decimal
import Relay.Python.Float

/-!
Python values that `json.loads` makes, and their `str` and `repr`.

A number that is not an integer is a `Decimal` or a `float`. What `repr` escapes
depends on the Unicode character database; `printable` stands for
`str.isprintable` of one character.
-/

namespace Relay.Python

open Relay.Json Relay.Numeric

/-- A number of a decoded document, integers apart. -/
inductive PyNum where
  | decimal (d : Dec)
  | float (x : Binary64)
deriving DecidableEq

/-- A decoded document. -/
abbrev Obj := Json.Value PyNum

def intText (i : Int) : List Char := (NumText.ofInt i).text

/-- `str(d)`: scientific notation where the exponent is positive or the number
is below `0.000001`. -/
def Dec.text (d : Dec) : List Char :=
  let digits := Nat.toDigits 10 d.coeff
  let left := d.exp + digits.length
  let place := if d.exp ≤ 0 ∧ -6 < left then left else 1
  let body :=
    if place ≤ 0 then '0' :: '.' :: (List.replicate (-place).toNat '0' ++ digits)
    else if digits.length ≤ place then
      digits ++ List.replicate (place.toNat - digits.length) '0'
    else digits.take place.toNat ++ '.' :: digits.drop place.toNat
  let exponent :=
    if left = place then []
    else if left < place then 'E' :: intText (left - place)
    else 'E' :: '+' :: intText (left - place)
  (if d.neg then ['-'] else []) ++ body ++ exponent

/-- `str(x)` of a float. -/
def floatText : Binary64 → List Char
  | .finite neg x => (reprFinite neg x).text
  | .infinity false => "inf".toList
  | .infinity true => "-inf".toList
  | .nan => "nan".toList

def PyNum.text : PyNum → List Char
  | .decimal d => d.text
  | .float x => floatText x

def PyNum.repr : PyNum → List Char
  | .decimal d => "Decimal('".toList ++ d.text ++ "')".toList
  | .float x => floatText x

/-! ### `repr` of a string -/

def hex2 (n : Nat) : List Char := [hexDigit (n / 16), hexDigit (n % 16)]

def reprChar (printable : Char → Bool) (quote c : Char) : List Char :=
  if c = quote ∨ c = '\\' then ['\\', c]
  else if c = '\t' then ['\\', 't']
  else if c = '\n' then ['\\', 'n']
  else if c = '\r' then ['\\', 'r']
  else if printable c then [c]
  else if c.toNat < 0x100 then '\\' :: 'x' :: hex2 c.toNat
  else if c.toNat < 0x10000 then '\\' :: 'u' :: hex4 c.toNat
  else '\\' :: 'U' :: (hex4 (c.toNat / 0x10000) ++ hex4 (c.toNat % 0x10000))

/-- `repr(s)`: in double quotes when it holds a single quote and no double one. -/
def reprString (printable : Char → Bool) (s : String) : List Char :=
  let quote := if '\'' ∈ s.toList ∧ '"' ∉ s.toList then '"' else '\''
  quote :: (s.toList.flatMap (reprChar printable quote) ++ [quote])

mutual

/-- `repr(value)`. -/
def repr (printable : Char → Bool) : Obj → List Char
  | .null => "None".toList
  | .bool true => "True".toList
  | .bool false => "False".toList
  | .int i => intText i
  | .num x => x.repr
  | .str s => reprString printable s
  | .arr items => '[' :: (reprItems printable items ++ [']'])
  | .obj members => '\x7b' :: (reprMembers printable members ++ ['\x7d'])

def reprItems (printable : Char → Bool) : List Obj → List Char
  | [] => []
  | [v] => repr printable v
  | v :: rest => repr printable v ++ ", ".toList ++ reprItems printable rest

def reprMembers (printable : Char → Bool) : List (String × Obj) → List Char
  | [] => []
  | [(k, v)] => reprString printable k ++ ": ".toList ++ repr printable v
  | (k, v) :: rest =>
      reprString printable k ++ ": ".toList ++ repr printable v ++ ", ".toList ++
        reprMembers printable rest

end

/-- `str(value)`. -/
def str (printable : Char → Bool) : Obj → String
  | .str s => s
  | .num x => String.ofList x.text
  | v => String.ofList (repr printable v)

/-! ### Dictionaries -/

/-- `d.get(name)`, with `None` for a missing key. -/
def dictGet (name : String) (members : List (String × Obj)) : Obj :=
  (members.lookup name).getD .null

end Relay.Python
