import Relay.FakeSalesforce.Tokens
import Relay.Python.Datetime
import Relay.Python.Json
import Relay.Reconciler.Events

/-!
The parser of the fake Salesforce: a small subset of SOQL, strict about types.

A parser function takes the tokens that are left and returns what it read and the
tokens after it. Every conversion of a literal may raise its own exception.
-/

namespace Relay.FakeSalesforce

open Relay.Python Relay.Calendar

/-! ### Fields and queries -/

inductive FieldType where
  | id
  | string
  | currency
  | date
  | picklist
  | boolean
  | datetime
deriving DecidableEq, Repr

/-- The values of a type, null apart. A datetime is its microseconds in UTC. -/
@[reducible] def FieldType.Val : FieldType → Type
  | .id => String
  | .string => String
  | .currency => Dec
  | .date => Date
  | .picklist => String
  | .boolean => Bool
  | .datetime => Int

/-- The fields of an Opportunity. -/
inductive Field where
  | id
  | name
  | accountId
  | amount
  | closeDate
  | stageName
  | isWon
  | isClosed
  | systemModstamp
  | lastModifiedDate
  | createdDate
  | accountDotId
  | accountDotName
deriving DecidableEq, Repr

/-- The API name. -/
def Field.apiName : Field → String
  | id => "Id"
  | name => "Name"
  | accountId => "AccountId"
  | amount => "Amount"
  | closeDate => "CloseDate"
  | stageName => "StageName"
  | isWon => "IsWon"
  | isClosed => "IsClosed"
  | systemModstamp => "SystemModstamp"
  | lastModifiedDate => "LastModifiedDate"
  | createdDate => "CreatedDate"
  | accountDotId => "Account.Id"
  | accountDotName => "Account.Name"

@[reducible] def Field.ftype : Field → FieldType
  | id => .id
  | name => .string
  | accountId => .id
  | amount => .currency
  | closeDate => .date
  | stageName => .picklist
  | isWon => .boolean
  | isClosed => .boolean
  | systemModstamp => .datetime
  | lastModifiedDate => .datetime
  | createdDate => .datetime
  | accountDotId => .id
  | accountDotName => .string

/-- The fields by their names in lower case. -/
def opportunityFields : List (List Char × Field) :=
  [("id".toList, .id), ("name".toList, .name), ("accountid".toList, .accountId),
    ("amount".toList, .amount), ("closedate".toList, .closeDate), ("stagename".toList, .stageName),
    ("iswon".toList, .isWon), ("isclosed".toList, .isClosed), ("systemmodstamp".toList, .systemModstamp),
    ("lastmodifieddate".toList, .lastModifiedDate), ("createddate".toList, .createdDate),
    ("account.id".toList, .accountDotId), ("account.name".toList, .accountDotName)]

inductive Comparison where
  | eq
  | ne
  | lt
  | le
  | gt
  | ge
deriving DecidableEq, Repr

/-- What a condition asks of a field: a comparison with a value or null, or `IN`. -/
inductive Test (t : FieldType) where
  | compare (op : Comparison) (value : Option t.Val)
  | isIn (values : List String)

structure Condition where
  field : Field
  test : Test field.ftype

structure OrderBy where
  field : Field
  descending : Bool
deriving DecidableEq, Repr

structure Query where
  fields : List Field
  sobject : String
  conditions : List Condition
  orderBy : List OrderBy
  limit : Option Nat

/-! ### Literals -/

/-- Put a colon into an offset of four digits that ends a text. A token does not end
in a line feed. -/
def colonDigits (text : List Char) : List Char :=
  match text.reverse with
  | m' :: m :: h' :: h :: sign :: rest =>
      if (sign = '+' ∨ sign = '-') ∧ isDecimal h ∧ isDecimal h' ∧ isDecimal m ∧ isDecimal m' then
        (m' :: m :: ':' :: h' :: h :: sign :: rest).reverse
      else text
  | _ => text

/-- `parse_datetime_literal`: an instant of the years 1 to 9999. -/
def parseDatetimeLiteral (text : List Char) : Except Exn Int :=
  fromisoformat (colonDigits (Reconciler.replaceZ text))

def isoDate (text : List Char) : Option Date := do
  let (year, text) ← readDigits 4 0 text
  let text ← skip '-' text
  let (month, text) ← readDigits 2 0 text
  let text ← skip '-' text
  let (day, text) ← readDigits 2 0 text
  if text = [] then some ⟨year, month, day⟩ else none

def valueError (message : String) : Exn := .other "ValueError" message

/-- `date.fromisoformat(text)` of a text in the form of a date. -/
def dateFromIsoformat (text : List Char) : Except Exn Date :=
  match isoDate text with
  | none => .error (valueError ("Invalid isoformat string: '" ++ String.ofList text ++ "'"))
  | some d =>
      if d.year < 1 then .error (valueError ("year " ++ toString d.year ++ " is out of range"))
      else if ¬ (1 ≤ d.month ∧ d.month ≤ 12) then .error (valueError "month must be in 1..12")
      else if d.Valid then .ok d
      else .error (valueError "day is out of range for month")

/-- `Decimal(text)` of a number token, which never names an infinity or a NaN. -/
def decimalOf (text : List Char) : Except Exn Dec :=
  match decimal text with
  | some (.finite d) => .ok d
  | _ => .error (.other "InvalidOperation" "[<class 'decimal.ConversionSyntax'>]")

/-- `int(text)` of digits. -/
def intOf (text : List Char) : Except Exn Nat :=
  if text.length ≤ maxStrDigits then .ok (ofDigits (text.filterMap digit?))
  else .error (valueError ("Exceeds the limit (" ++ toString maxStrDigits ++
    " digits) for integer string conversion: value has " ++ toString text.length ++
    " digits; use sys.set_int_max_str_digits() to increase the limit"))

/-! ### The parser -/

/-- What is read, and the tokens after it. -/
abbrev Read (α : Type) := Except Failure (α × List Token)

def raise {α : Type} (result : Except Exn α) : Except Failure α :=
  match result with
  | .ok value => .ok value
  | .error exc => .error (.raised exc)

def endOfQuery : Failure := malformed "unexpected end of query"

def next : List Token → Read Token
  | [] => .error endOfQuery
  | tok :: rest => .ok (tok, rest)

/-- `text.upper()`, as far as it may be a keyword. -/
def upper (text : List Char) : List Char := text.map Char.toUpper

/-- `text.lower()`, as far as it may be a name. -/
def lower (text : List Char) : List Char := text.map Char.toLower

/-- The tokens after a keyword, if it comes next. -/
def keyword (word : String) : List Token → Option (List Token)
  | tok :: rest => if tok.kind = .ident ∧ upper tok.text = word.toList then some rest else none
  | [] => none

def gotText : List Token → String
  | tok :: _ => String.ofList tok.text
  | [] => "end"

def expectKeyword (word : String) (tokens : List Token) : Except Failure (List Token) :=
  match keyword word tokens with
  | some rest => .ok rest
  | none => .error (malformed ("expected " ++ word ++ ", got " ++ gotText tokens))

section Parser

variable (printable : Char → Bool)

/-- `repr(text)` of a token's text. -/
def quoted (text : List Char) : String := String.ofList (reprString printable (String.ofList text))

def fieldOf (tok : Token) : Except Failure Field :=
  if tok.kind ≠ .ident then .error (malformed ("expected a field name, got " ++ quoted printable tok.text))
  else
    match opportunityFields.lookup (lower tok.text) with
    | some f => .ok f
    | none =>
        .error (.soqlError "INVALID_FIELD" ("No such column '" ++ String.ofList tok.text ++
          "' on entity 'Opportunity'. If you are attempting " ++
          "to use a custom field, be sure to append the '__c' after the custom field name."))

def field : List Token → Read Field
  | [] => .error endOfQuery
  | tok :: rest => (fieldOf printable tok).map fun f => (f, rest)

def mustBe (name typeName : String) : Failure :=
  .soqlError "INVALID_FIELD" ("value of filter criterion for field '" ++ name ++
    "' must be of type " ++ typeName ++ " and should not be enclosed in quotes")

/-- `\'` becomes `'` and nothing else changes. -/
def unquote : List Char → List Char
  | '\\' :: '\'' :: rest => '\'' :: unquote rest
  | c :: rest => c :: unquote rest
  | [] => []

/-- The word of an identifier in upper case. -/
def wordOf (tok : Token) : List Char := if tok.kind = .ident then upper tok.text else []

/-- The text of a quoted string. -/
def quotedText (name : String) (tok : Token) : Except Failure (Option String) :=
  if tok.kind ≠ .string then .error (malformed ("expected a quoted string for '" ++ name ++ "'"))
  else .ok (some (String.ofList (unquote (tok.text.tail.dropLast))))

/-- The value of one literal of a type. -/
def literal (name : String) (t : FieldType) (tok : Token) : Except Failure (Option t.Val) :=
  if wordOf tok = "NULL".toList then .ok none
  else
    match t with
    | .datetime =>
        if tok.kind ≠ .datetime then .error (mustBe name "dateTime")
        else raise ((parseDatetimeLiteral tok.text).map some)
    | .date =>
        if tok.kind ≠ .date then .error (mustBe name "date")
        else raise ((dateFromIsoformat tok.text).map some)
    | .boolean =>
        if wordOf tok ≠ "TRUE".toList ∧ wordOf tok ≠ "FALSE".toList then .error (mustBe name "boolean")
        else .ok (some (decide (wordOf tok = "TRUE".toList)))
    | .currency =>
        if tok.kind ≠ .number then .error (mustBe name "double")
        else raise ((decimalOf tok.text).map some)
    | .id => quotedText name tok
    | .string => quotedText name tok
    | .picklist => quotedText name tok

/-- The value, if it is a text. -/
def asText : (t : FieldType) → Option t.Val → Option String
  | .id, value => value
  | .string, value => value
  | .picklist, value => value
  | _, _ => none

/-- The values of an `IN` list, after its opening bracket. -/
def inValues (name : String) (t : FieldType) : List Token → Read (List String)
  | [] => .error endOfQuery
  | tok :: rest =>
      match literal name t tok with
      | .error err => .error err
      | .ok value =>
          match asText t value with
          | none => .error (malformed "IN supports quoted strings only")
          | some text =>
              match rest with
              | [] => .error endOfQuery
              | sep :: more =>
                  if sep.text = [')'] then .ok ([text], more)
                  else if sep.text ≠ [','] then .error (malformed "expected , or ) in IN list")
                  else
                    match inValues name t more with
                    | .error err => .error err
                    | .ok (texts, last) => .ok (text :: texts, last)

/-- The comparison of an operator token. -/
def comparisonOf (text : List Char) : Comparison :=
  if text = ['='] then .eq
  else if text = ['!', '='] ∨ text = ['<', '>'] then .ne
  else if text = ['<', '='] then .le
  else if text = ['>', '='] then .ge
  else if text = ['<'] then .lt
  else .gt

/-- What a condition asks, after its field. -/
def test (f : Field) (tokens : List Token) : Read Condition :=
  match keyword "IN" tokens with
  | some [] => .error endOfQuery
  | some (bracket :: rest) =>
      if bracket.text ≠ ['('] then .error (malformed "expected ( after IN")
      else (inValues f.apiName f.ftype rest).map fun read => (⟨f, .isIn read.1⟩, read.2)
  | none =>
      match tokens with
      | [] => .error endOfQuery
      | op :: rest =>
          if op.kind ≠ .op then
            .error (malformed ("expected an operator, got " ++ quoted printable op.text))
          else
            match rest with
            | [] => .error endOfQuery
            | tok :: last =>
                (literal f.apiName f.ftype tok).map fun value =>
                  (⟨f, .compare (comparisonOf op.text) value⟩, last)

def condition (tokens : List Token) : Read Condition :=
  match field printable tokens with
  | .error err => .error err
  | .ok (f, rest) => test printable f rest

/-- The names after `SELECT`. -/
def selected : List Token → Read (List Field)
  | [] => .error endOfQuery
  | tok :: rest =>
      match fieldOf printable tok with
      | .error err => .error err
      | .ok f =>
          match rest with
          | sep :: more =>
              if sep.text = [','] then
                match selected more with
                | .error err => .error err
                | .ok (fs, last) => .ok (f :: fs, last)
              else .ok ([f], sep :: more)
          | [] => .ok ([f], [])

/-! ### The loops -/

omit printable in
theorem of_map_ok {α β : Type} {result : Except Failure α} {f : α → β} {value : β}
    (mapped : result.map f = .ok value) : ∃ a, result = .ok a ∧ f a = value := by
  cases result with
  | error err => cases mapped
  | ok a => exact ⟨a, rfl, Except.ok.inj mapped⟩

omit printable in
theorem keyword_shorter {word : String} {tokens rest : List Token} (found : keyword word tokens = some rest) :
    rest.length < tokens.length := by
  cases tokens with
  | nil => cases found
  | cons tok more =>
      rw [keyword] at found
      split at found
      · cases found
        exact Nat.lt_succ_self _
      · cases found

theorem field_shorter {tokens rest : List Token} {f : Field} (read : field printable tokens = .ok (f, rest)) :
    rest.length < tokens.length := by
  cases tokens with
  | nil => cases read
  | cons tok more =>
      obtain ⟨f', -, same⟩ := of_map_ok read
      cases same
      exact Nat.lt_succ_self _

omit printable in
theorem inValues_shorter {name : String} {t : FieldType} {tokens rest : List Token} {texts : List String}
    (read : inValues name t tokens = .ok (texts, rest)) : rest.length < tokens.length := by
  fun_induction inValues name t tokens generalizing texts rest with
  | case1 => cases read
  | case2 => cases read
  | case3 => cases read
  | case4 => cases read
  | case5 =>
      cases read
      simp only [List.length_cons]
      omega
  | case6 => cases read
  | case7 => cases read
  | case8 tok value _ text _ sep more _ _ texts last listed ih =>
      cases read
      have := ih listed
      simp only [List.length_cons]
      omega

theorem test_shorter {f : Field} {tokens rest : List Token} {c : Condition}
    (read : test printable f tokens = .ok (c, rest)) : rest.length < tokens.length := by
  unfold test at read
  split at read
  · cases read
  · rename_i found
    split at read
    · cases read
    · obtain ⟨values, listed, same⟩ := of_map_ok read
      cases same
      have shorter := inValues_shorter listed
      have brackets := keyword_shorter found
      simp only [List.length_cons] at brackets
      omega
  · split at read
    · cases read
    · split at read
      · cases read
      · split at read
        · cases read
        · obtain ⟨value, -, same⟩ := of_map_ok read
          cases same
          simp only [List.length_cons]
          omega

theorem condition_shorter {tokens rest : List Token} {c : Condition}
    (read : condition printable tokens = .ok (c, rest)) : rest.length < tokens.length := by
  unfold condition at read
  split at read
  · cases read
  · rename_i f more found
    exact (test_shorter printable read).trans (field_shorter printable found)

/-- The conditions after `WHERE`. -/
def conditions (tokens : List Token) : Read (List Condition) :=
  match _first : condition printable tokens with
  | .error err => .error err
  | .ok (c, rest) =>
      match _more : keyword "AND" rest with
      | none => .ok ([c], rest)
      | some rest =>
          match conditions rest with
          | .error err => .error err
          | .ok (cs, last) => .ok (c :: cs, last)
termination_by tokens.length
decreasing_by exact (keyword_shorter _more).trans (condition_shorter printable _first)

theorem conditions_last {tokens rest : List Token} {c : Condition} (read : condition printable tokens = .ok (c, rest))
    (stop : keyword "AND" rest = none) : conditions printable tokens = .ok ([c], rest) := by
  unfold conditions
  split
  · rename_i failed
    rw [read] at failed
    cases failed
  · rename_i found
    rw [read] at found
    cases found
    split
    · rfl
    · rename_i and_
      rw [stop] at and_
      cases and_

theorem conditions_and {tokens rest more : List Token} {c : Condition}
    (read : condition printable tokens = .ok (c, rest)) (and_ : keyword "AND" rest = some more) :
    conditions printable tokens = (conditions printable more).map fun found => (c :: found.1, found.2) := by
  rw [conditions]
  split
  · rename_i failed
    rw [read] at failed
    cases failed
  · rename_i found
    rw [read] at found
    cases found
    split
    · rename_i stop
      rw [stop] at and_
      cases and_
    · rename_i and'
      rw [and_] at and'
      cases and'
      cases conditions printable more <;> rfl

/-- `DESC`, `ASC` or nothing: whether the order descends. -/
def direction (tokens : List Token) : Bool × List Token :=
  match keyword "DESC" tokens with
  | some rest => (true, rest)
  | none => (false, (keyword "ASC" tokens).getD tokens)

omit printable in
theorem direction_length (tokens : List Token) : (direction tokens).2.length ≤ tokens.length := by
  unfold direction
  split
  · rename_i found
    exact (keyword_shorter found).le
  · cases found : keyword "ASC" tokens with
    | none => exact le_refl _
    | some rest => exact (keyword_shorter found).le

/-- The keys after `ORDER BY`. -/
def orderKeys (tokens : List Token) : Read (List OrderBy) :=
  match _key : field printable tokens with
  | .error err => .error err
  | .ok (f, rest) =>
      match _more : (direction rest).2 with
      | sep :: more =>
          if sep.text = [','] then
            match orderKeys more with
            | .error err => .error err
            | .ok (keys, last) => .ok (⟨f, (direction rest).1⟩ :: keys, last)
          else .ok ([⟨f, (direction rest).1⟩], sep :: more)
      | [] => .ok ([⟨f, (direction rest).1⟩], [])
termination_by tokens.length
decreasing_by
  have shorter := field_shorter printable _key
  have direct := direction_length rest
  rw [_more, List.length_cons] at direct
  omega

/-! ### The clauses -/

/-- `SELECT` and its fields. -/
def selectClause (tokens : List Token) : Read (List Field) :=
  match expectKeyword "SELECT" tokens with
  | .error err => .error err
  | .ok rest => selected printable rest

omit printable in
/-- `FROM` and the sObject. -/
def fromClause (tokens : List Token) : Except Failure (List Token) :=
  match expectKeyword "FROM" tokens with
  | .error err => .error err
  | .ok rest =>
      match next rest with
      | .error err => .error err
      | .ok (tok, rest) =>
          if lower tok.text ≠ "opportunity".toList then
            .error (.soqlError "INVALID_TYPE"
              ("sObject type '" ++ String.ofList tok.text ++ "' is not supported by the fake"))
          else .ok rest

def whereClause (tokens : List Token) : Read (List Condition) :=
  match keyword "WHERE" tokens with
  | none => .ok ([], tokens)
  | some rest =>
      match conditions printable rest with
      | .error err => .error err
      | .ok (cs, last) =>
          if (last.head?.map fun tok => upper tok.text) = some "OR".toList then
            .error (malformed "the fake Salesforce supports AND only")
          else .ok (cs, last)

def orderClause (tokens : List Token) : Read (List OrderBy) :=
  match keyword "ORDER" tokens with
  | none => .ok ([], tokens)
  | some rest =>
      match expectKeyword "BY" rest with
      | .error err => .error err
      | .ok rest => orderKeys printable rest

omit printable in
def limitClause (tokens : List Token) : Read (Option Nat) :=
  match keyword "LIMIT" tokens with
  | none => .ok (none, tokens)
  | some rest =>
      match next rest with
      | .error err => .error err
      | .ok (tok, rest) =>
          if tok.kind ≠ .number ∨ ¬ tok.text.all isDecimal then
            .error (malformed "LIMIT needs a whole number")
          else (raise (intOf tok.text)).map fun n => (some n, rest)

/-- The query of a list of tokens. -/
def parseTokens (tokens : List Token) : Except Failure Query := do
  let (fields, tokens) ← selectClause printable tokens
  let tokens ← fromClause tokens
  let (conditions, tokens) ← whereClause printable tokens
  let (orderBy, tokens) ← orderClause printable tokens
  let (limit, tokens) ← limitClause tokens
  match tokens with
  | leftover :: _ => .error (malformed ("unexpected token " ++ quoted printable leftover.text))
  | [] => .ok ⟨fields, "Opportunity", conditions, orderBy, limit⟩

def parse (soql : String) : Except Failure Query := do
  let tokens ← tokenize printable soql
  parseTokens printable tokens

end Parser

end Relay.FakeSalesforce
