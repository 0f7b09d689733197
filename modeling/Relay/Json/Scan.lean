import Relay.Json.Value

/-!
A JSON scanner.

`scanOnce` reads one value from the front of a text and returns it with the rest.
What a number becomes is left to a hook, which may fail; a hook's failure stops
the scan where the number stands. Nesting deeper than the first argument fails
with `tooDeep`. A syntax error carries a message and how much of the text was
left at its position.

The loops over array items and object members take the scanner of the values
one level down as an argument, and recurse on a bound for the number of turns.
-/

namespace Relay.Json

inductive ScanError (E : Type) where
  | syntaxError (msg : String) (left : Nat)
  | number (e : E)
  | tooDeep

variable {N E : Type}

def isWhitespace (c : Char) : Bool := c == ' ' || c == '\t' || c == '\n' || c == '\r'

def skipWs : List Char → List Char
  | [] => []
  | c :: cs => if isWhitespace c then skipWs cs else c :: cs

/-! ### Strings -/

def hexVal? (c : Char) : Option Nat :=
  if '0' ≤ c ∧ c ≤ '9' then some (c.toNat - 48)
  else if 'a' ≤ c ∧ c ≤ 'f' then some (c.toNat - 87)
  else if 'A' ≤ c ∧ c ≤ 'F' then some (c.toNat - 55)
  else none

/-- Four hexadecimal digits. -/
def hex4? : List Char → Option (Nat × List Char)
  | a :: b :: c :: d :: rest =>
      match hexVal? a, hexVal? b, hexVal? c, hexVal? d with
      | some a, some b, some c, some d => some (((a * 16 + b) * 16 + c) * 16 + d, rest)
      | _, _, _, _ => none
  | _ => none

def isHighSurrogate (n : Nat) : Bool := 0xD800 ≤ n && n ≤ 0xDBFF

def isLowSurrogate (n : Nat) : Bool := 0xDC00 ≤ n && n ≤ 0xDFFF

/-- The replacement character stands for a surrogate without its partner, which
is no character. -/
def codePoint (n : Nat) : Char := if n.isValidChar then Char.ofNat n else '\uFFFD'

/-- The next character of a string body. -/
inductive Lexeme where
  | char (c : Char) (rest : List Char)
  | close (rest : List Char)
  | fail (msg : String) (left : Nat)
  | unterminated

/-- After `\u`. A high surrogate joins with a low one escaped right behind it. -/
def lexUnicode (cs : List Char) : Lexeme :=
  match hex4? cs with
  | none => .fail "Invalid \\uXXXX escape" (cs.length + 1)
  | some (hi, rest) =>
      if isHighSurrogate hi then
        match rest with
        | '\\' :: 'u' :: tail =>
            match hex4? tail with
            | none => .fail "Invalid \\uXXXX escape" (tail.length + 1)
            | some (lo, rest') =>
                if isLowSurrogate lo then
                  .char (codePoint (0x10000 + (hi - 0xD800) * 0x400 + (lo - 0xDC00))) rest'
                else .char (codePoint hi) rest
        | _ => .char (codePoint hi) rest
      else .char (codePoint hi) rest

/-- After a backslash. -/
def lexEscape : List Char → Lexeme
  | [] => .unterminated
  | '"' :: rest => .char '"' rest
  | '\\' :: rest => .char '\\' rest
  | '/' :: rest => .char '/' rest
  | 'b' :: rest => .char '\x08' rest
  | 'f' :: rest => .char '\x0c' rest
  | 'n' :: rest => .char '\n' rest
  | 'r' :: rest => .char '\r' rest
  | 't' :: rest => .char '\t' rest
  | 'u' :: rest => lexUnicode rest
  | _ :: rest => .fail "Invalid \\escape" (rest.length + 2)

def lexChar : List Char → Lexeme
  | [] => .unterminated
  | '"' :: rest => .close rest
  | '\\' :: rest => lexEscape rest
  | c :: rest =>
      if c.toNat < 0x20 then .fail "Invalid control character at" (rest.length + 1)
      else .char c rest

/-- The body of a string whose opening quote stood `start` characters before the
end of the text. -/
def scanBody (start : Nat) : Nat → List Char → Except (ScanError E) (List Char × List Char)
  | 0, _ => .error (.syntaxError "Unterminated string starting at" start)
  | fuel + 1, cs =>
      match lexChar cs with
      | .char c rest => (scanBody start fuel rest).map fun (body, rest) => (c :: body, rest)
      | .close rest => .ok ([], rest)
      | .fail msg left => .error (.syntaxError msg left)
      | .unterminated => .error (.syntaxError "Unterminated string starting at" start)

/-- A string, after its opening quote. -/
def scanString (cs : List Char) : Except (ScanError E) (String × List Char) :=
  (scanBody (cs.length + 1) (cs.length + 1) cs).map fun (body, rest) => (String.ofList body, rest)

/-! ### Values -/

/-- A scanner of values. -/
abbrev Scanner (N E : Type) := List Char → Except (ScanError E) (Value N × List Char)

def expectingValue (cs : List Char) : Except (ScanError E) (Value N × List Char) :=
  .error (.syntaxError "Expecting value" cs.length)

/-- The items of an array up to its bracket. -/
def scanItems (scan : Scanner N E) :
    Nat → List Char → Except (ScanError E) (List (Value N) × List Char)
  | 0, cs => .error (.syntaxError "Expecting value" cs.length)
  | fuel + 1, cs =>
      match scan cs with
      | .error e => .error e
      | .ok (v, rest) =>
          match skipWs rest with
          | ']' :: rest => .ok ([v], rest)
          | ',' :: rest => (scanItems scan fuel (skipWs rest)).map fun (vs, rest) => (v :: vs, rest)
          | rest => .error (.syntaxError "Expecting ',' delimiter" rest.length)

def scanArray (scan : Scanner N E) (cs : List Char) :
    Except (ScanError E) (Value N × List Char) :=
  match skipWs cs with
  | ']' :: rest => .ok (.arr [], rest)
  | cs => (scanItems scan (cs.length + 1) cs).map fun (vs, rest) => (.arr vs, rest)

/-- One `"key": value`. -/
def scanMember (scan : Scanner N E) : List Char →
    Except (ScanError E) ((String × Value N) × List Char)
  | '"' :: cs =>
      match scanString cs with
      | .error e => .error e
      | .ok (key, rest) =>
          match skipWs rest with
          | ':' :: rest => (scan (skipWs rest)).map fun (v, rest) => ((key, v), rest)
          | rest => .error (.syntaxError "Expecting ':' delimiter" rest.length)
  | cs => .error (.syntaxError "Expecting property name enclosed in double quotes" cs.length)

/-- The members of an object up to its brace. -/
def scanMembers (scan : Scanner N E) :
    Nat → List Char → Except (ScanError E) (List (String × Value N) × List Char)
  | 0, cs => .error (.syntaxError "Expecting property name enclosed in double quotes" cs.length)
  | fuel + 1, cs =>
      match scanMember scan cs with
      | .error e => .error e
      | .ok (member, rest) =>
          match skipWs rest with
          | '\x7d' :: rest => .ok ([member], rest)
          | ',' :: rest =>
              (scanMembers scan fuel (skipWs rest)).map fun (ms, rest) => (member :: ms, rest)
          | rest => .error (.syntaxError "Expecting ',' delimiter" rest.length)

def scanObject (scan : Scanner N E) (cs : List Char) :
    Except (ScanError E) (Value N × List Char) :=
  match skipWs cs with
  | '\x7d' :: rest => .ok (.obj [], rest)
  | cs => (scanMembers scan (cs.length + 1) cs).map fun (ms, rest) => (.obj (dictOf ms), rest)

/-- What a hook made of a number, with the text after it. -/
def hooked {α : Type} : Except E α → List Char → Except (ScanError E) (α × List Char)
  | .ok v, rest => .ok (v, rest)
  | .error e, _ => .error (.number e)

/-- A value that holds no other value. -/
def scanScalar (number : Token → Except E (Value N)) : Scanner N E
  | '"' :: cs => (scanString cs).map fun (s, rest) => (.str s, rest)
  | 'n' :: 'u' :: 'l' :: 'l' :: rest => .ok (.null, rest)
  | 't' :: 'r' :: 'u' :: 'e' :: rest => .ok (.bool true, rest)
  | 'f' :: 'a' :: 'l' :: 's' :: 'e' :: rest => .ok (.bool false, rest)
  | 'N' :: 'a' :: 'N' :: rest => hooked (number .nan) rest
  | 'I' :: 'n' :: 'f' :: 'i' :: 'n' :: 'i' :: 't' :: 'y' :: rest => hooked (number .infinity) rest
  | '-' :: 'I' :: 'n' :: 'f' :: 'i' :: 'n' :: 'i' :: 't' :: 'y' :: rest =>
      hooked (number .negInfinity) rest
  | cs =>
      match scanNumber cs with
      | some (t, rest) => hooked (number (.number t)) rest
      | none => expectingValue cs

/-- One value, with arrays and objects nested at most `depth` deep. -/
def scanOnce (number : Token → Except E (Value N)) : Nat → Scanner N E
  | 0, cs =>
      match cs with
      | '[' :: _ => .error .tooDeep
      | '\x7b' :: _ => .error .tooDeep
      | cs => scanScalar number cs
  | depth + 1, cs =>
      match cs with
      | '[' :: rest => scanArray (scanOnce number depth) rest
      | '\x7b' :: rest => scanObject (scanOnce number depth) rest
      | cs => scanScalar number cs

/-- What is no array and no object is read without regard to the depth. -/
theorem scanOnce_of_scalar (number : Token → Except E (Value N)) (depth : Nat) {cs : List Char}
    (array : ∀ rest, cs ≠ '[' :: rest) (object : ∀ rest, cs ≠ '\x7b' :: rest) :
    scanOnce number depth cs = scanScalar number cs := by
  cases depth with
  | zero =>
      unfold scanOnce
      split
      · exact absurd rfl (array _)
      · exact absurd rfl (object _)
      · rfl
  | succ depth =>
      unfold scanOnce
      split
      · exact absurd rfl (array _)
      · exact absurd rfl (object _)
      · rfl

/-- A whole text: one value with white space around it. -/
def loads (number : Token → Except E (Value N)) (depth : Nat) (cs : List Char) :
    Except (ScanError E) (Value N) :=
  if cs.head? = some '\uFEFF' then
    .error (.syntaxError "Unexpected UTF-8 BOM (decode using utf-8-sig)" cs.length)
  else
    match scanOnce number depth (skipWs cs) with
    | .error e => .error e
    | .ok (v, rest) =>
        match skipWs rest with
        | [] => .ok v
        | rest => .error (.syntaxError "Extra data" rest.length)

end Relay.Json
