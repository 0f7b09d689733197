import Relay.Python.Exceptions
import Relay.Python.Value

/-!
The tokens of SOQL.

`tokenAt` is the regular expression: the first alternative that matches, in the
order of the source. None of them needs backtracking: where an optional part
matches and what follows it does not, leaving the part out does not help.
-/

namespace Relay.FakeSalesforce

open Relay.Python

/-- The exceptions of the query functions. -/
inductive Failure where
  /-- `SoqlError`, which the server turns into a 400. -/
  | soqlError (errorCode message : String)
  | raised (exc : Exn)

def malformed (message : String) : Failure := .soqlError "MALFORMED_QUERY" message

inductive Kind where
  | string
  | datetime
  | date
  | number
  | op
  | punct
  | ident
deriving DecidableEq, Repr

structure Token where
  kind : Kind
  text : List Char
deriving DecidableEq, Repr

/-! ### The regular expression -/

/-- What a part of the expression matches, and what is left. -/
abbrev Matcher := List Char → Option (List Char × List Char)

/-- `\d` -/
def isDecimal (c : Char) : Bool := (digit? c).isSome

/-- One character. -/
def one (p : Char → Bool) : Matcher
  | c :: cs => if p c then some ([c], cs) else none
  | [] => none

/-- Matchers one after another. -/
def inOrder : List Matcher → Matcher
  | [], cs => some ([], cs)
  | m :: ms, cs =>
      match m cs with
      | none => none
      | some (text, rest) => (inOrder ms rest).map fun more => (text ++ more.1, more.2)

/-- As many characters as there are, at least one. -/
def some1 (p : Char → Bool) : Matcher := fun cs =>
  if cs.takeWhile p = [] then none else some (cs.takeWhile p, cs.dropWhile p)

/-- A part that may be missing. -/
def optional (m : Matcher) : Matcher := fun cs => (m cs).or (some ([], cs))

def digits2 : List Matcher := [one isDecimal, one isDecimal]

/-- `\d{4}-\d{2}-\d{2}` -/
def dateParts : List Matcher := digits2 ++ digits2 ++ [one (· = '-')] ++ digits2 ++ [one (· = '-')] ++ digits2

/-- `\.\d{1,3}` -/
def millis : Matcher :=
  inOrder [one (· = '.'), one isDecimal, optional (inOrder [one isDecimal, optional (one isDecimal)])]

/-- `Z|[+-]\d{2}:?\d{2}` -/
def zone : Matcher := fun cs =>
  (one (· = 'Z') cs).or
    (inOrder ([one fun c => c = '+' ∨ c = '-'] ++ digits2 ++ [optional (one (· = ':'))] ++ digits2) cs)

def datetime : Matcher :=
  inOrder (dateParts ++ [one (· = 'T')] ++ digits2 ++ [one (· = ':')] ++ digits2 ++ [one (· = ':')] ++
    digits2 ++ [optional millis, zone])

def date : Matcher := inOrder dateParts

/-- `-?\d+(?:\.\d+)?` -/
def number : Matcher :=
  inOrder [optional (one (· = '-')), some1 isDecimal,
    optional (inOrder [one (· = '.'), some1 isDecimal])]

/-- `(?:[^'\\]|\\.)*'`, of the characters after the first quote. -/
def stringBody : Matcher
  | '\'' :: rest => some (['\''], rest)
  | '\\' :: c :: rest =>
      if c = '\n' then none else (stringBody rest).map fun more => ('\\' :: c :: more.1, more.2)
  | c :: rest => if c = '\\' then none else (stringBody rest).map fun more => (c :: more.1, more.2)
  | [] => none

def string : Matcher := inOrder [one (· = '\''), stringBody]

def op : Matcher
  | '>' :: '=' :: rest => some (['>', '='], rest)
  | '<' :: '=' :: rest => some (['<', '='], rest)
  | '!' :: '=' :: rest => some (['!', '='], rest)
  | '<' :: '>' :: rest => some (['<', '>'], rest)
  | '=' :: rest => some (['='], rest)
  | '<' :: rest => some (['<'], rest)
  | '>' :: rest => some (['>'], rest)
  | _ => none

def isLetter (c : Char) : Bool := c.isAlpha || c = '_'

/-- `[A-Za-z_][A-Za-z0-9_.]*` -/
def ident : Matcher
  | c :: rest =>
      if isLetter c then
        some (c :: rest.takeWhile (fun d => isLetter d || d.isDigit || d = '.'),
          rest.dropWhile fun d => isLetter d || d.isDigit || d = '.')
      else none
  | [] => none

/-- The alternatives in their order; white space is no token. -/
def alternatives : List (Option Kind × Matcher) :=
  [(none, some1 isSpace), (some .string, string), (some .datetime, datetime), (some .date, date),
    (some .number, number), (some .op, op),
    (some .punct, one fun c => c = '(' ∨ c = ')' ∨ c = ','), (some .ident, ident)]

/-- `_TOKEN_RE.match`: the kind and the text of the match. -/
def tokenAt (cs : List Char) : Option (Option Kind × List Char) :=
  alternatives.findSome? fun (kind, m) => (m cs).map fun found => (kind, found.1)

/-! ### The matches -/

/-- What is matched and what is left make up the text. -/
def Matcher.Splits (m : Matcher) : Prop := ∀ {cs text rest : List Char}, m cs = some (text, rest) → text ++ rest = cs

/-- A match is not empty. -/
def Matcher.Advances (m : Matcher) : Prop := ∀ {cs rest : List Char}, m cs ≠ some ([], rest)

theorem splits_one (p : Char → Bool) : Matcher.Splits (one p) := by
  intro cs text rest found
  cases cs with
  | nil => cases found
  | cons c cs =>
      rw [one] at found
      split at found
      · cases found
        rfl
      · cases found

theorem splits_some1 (p : Char → Bool) : Matcher.Splits (some1 p) := by
  intro cs text rest found
  rw [some1] at found
  split at found
  · cases found
  · cases found
    exact List.takeWhile_append_dropWhile

theorem splits_inOrder {ms : List Matcher} (parts : ∀ m ∈ ms, m.Splits) : Matcher.Splits (inOrder ms) := by
  induction ms with
  | nil =>
      intro cs text rest found
      cases found
      rfl
  | cons m ms ih =>
      intro cs text rest found
      rw [inOrder] at found
      split at found
      · cases found
      · rename_i first left matched
        obtain ⟨⟨more, rest'⟩, later, same⟩ := Option.map_eq_some_iff.mp found
        cases same
        have inner : more ++ rest' = left := ih (fun m' mem => parts m' (List.mem_cons_of_mem _ mem)) later
        rw [List.append_assoc, inner]
        exact parts m List.mem_cons_self matched

theorem splits_optional {m : Matcher} (part : m.Splits) : Matcher.Splits (optional m) := by
  intro cs text rest found
  rcases Option.or_eq_some_iff.mp found with matched | ⟨-, same⟩
  · exact part matched
  · cases same
    rfl

/-- Either of two expressions. -/
theorem splits_or {m n : Matcher} (left : m.Splits) (right : n.Splits) : Matcher.Splits fun cs => (m cs).or (n cs) := by
  intro cs text rest found
  rcases Option.or_eq_some_iff.mp found with matched | ⟨-, matched⟩
  · exact left matched
  · exact right matched

theorem splits_stringBody : stringBody.Splits := by
  intro cs
  fun_induction stringBody cs with
  | case1 rest =>
      intro text left found
      cases found
      rfl
  | case2 rest =>
      intro text left found
      cases found
  | case3 c rest other ih =>
      intro text left found
      obtain ⟨⟨more, rest'⟩, later, same⟩ := Option.map_eq_some_iff.mp found
      cases same
      simp [ih later]
  | case4 => 
      intro text left found
      cases found
  | case5 c rest _ _ other ih =>
      intro text left found
      obtain ⟨⟨more, rest'⟩, later, same⟩ := Option.map_eq_some_iff.mp found
      cases same
      simp [ih later]
  | case6 =>
      intro text left found
      cases found

theorem splits_op : op.Splits := by
  intro cs text rest found
  unfold op at found
  split at found <;> cases found <;> rfl

theorem splits_ident : ident.Splits := by
  intro cs text rest found
  cases cs with
  | nil => cases found
  | cons c cs =>
      rw [ident] at found
      split at found
      · cases found
        simp
      · cases found

theorem splits_digits2 : ∀ m ∈ digits2, m.Splits := by
  simp only [digits2, List.forall_mem_cons, List.not_mem_nil, false_imp_iff, implies_true, and_true]
  exact ⟨splits_one _, splits_one _⟩

theorem splits_dateParts : ∀ m ∈ dateParts, m.Splits := by
  simp only [dateParts, List.forall_mem_append, List.forall_mem_singleton]
  exact ⟨⟨⟨⟨⟨splits_digits2, splits_digits2⟩, splits_one _⟩, splits_digits2⟩, splits_one _⟩, splits_digits2⟩

theorem splits_millis : millis.Splits := by
  refine splits_inOrder ?_
  simp only [List.forall_mem_cons, List.not_mem_nil, false_imp_iff, implies_true, and_true]
  refine ⟨splits_one _, splits_one _, splits_optional (splits_inOrder ?_)⟩
  simp only [List.forall_mem_cons, List.not_mem_nil, false_imp_iff, implies_true, and_true]
  exact ⟨splits_one _, splits_optional (splits_one _)⟩

theorem splits_zone : zone.Splits := by
  refine splits_or (splits_one _) (splits_inOrder ?_)
  simp only [List.forall_mem_append, List.forall_mem_singleton]
  exact ⟨⟨⟨splits_one _, splits_digits2⟩, splits_optional (splits_one _)⟩, splits_digits2⟩

theorem splits_datetime : datetime.Splits := by
  refine splits_inOrder ?_
  simp only [List.forall_mem_append, List.forall_mem_singleton, List.forall_mem_cons]
  exact ⟨⟨⟨⟨⟨⟨⟨splits_dateParts, splits_one _⟩, splits_digits2⟩, splits_one _⟩, splits_digits2⟩, splits_one _⟩,
    splits_digits2⟩, splits_optional splits_millis, splits_zone⟩

theorem splits_number : number.Splits := by
  refine splits_inOrder ?_
  simp only [List.forall_mem_cons, List.not_mem_nil, false_imp_iff, implies_true, and_true]
  refine ⟨splits_optional (splits_one _), splits_some1 _, splits_optional (splits_inOrder ?_)⟩
  simp only [List.forall_mem_cons, List.not_mem_nil, false_imp_iff, implies_true, and_true]
  exact ⟨splits_one _, splits_some1 _⟩

theorem splits_string : string.Splits := by
  refine splits_inOrder ?_
  simp only [List.forall_mem_cons, List.not_mem_nil, false_imp_iff, implies_true, and_true]
  exact ⟨splits_one _, splits_stringBody⟩

/-! A match is not empty: some part of each alternative takes a character. -/

theorem advances_one (p : Char → Bool) : Matcher.Advances (one p) := by
  intro cs rest found
  cases cs with
  | nil => cases found
  | cons c cs =>
      rw [one] at found
      split at found
      · cases found
      · cases found

theorem advances_some1 (p : Char → Bool) : Matcher.Advances (some1 p) := by
  intro cs rest found
  rw [some1] at found
  split at found
  · cases found
  · rename_i notNone
    exact notNone (congrArg Prod.fst (Option.some.inj found))

theorem advances_inOrder {m : Matcher} {ms : List Matcher} (mem : m ∈ ms) (part : m.Advances) :
    Matcher.Advances (inOrder ms) := by
  induction ms with
  | nil => cases mem
  | cons first ms ih =>
      intro cs rest found
      rw [inOrder] at found
      split at found
      · cases found
      · rename_i text left matched
        obtain ⟨⟨more, rest'⟩, later, same⟩ := Option.map_eq_some_iff.mp found
        have parts := List.append_eq_nil_iff.mp (congrArg Prod.fst same)
        rcases List.mem_cons.mp mem with rfl | mem
        · rw [parts.1] at matched
          exact part matched
        · rw [show more = [] from parts.2] at later
          exact ih mem later

theorem advances_op : op.Advances := by
  intro cs rest found
  unfold op at found
  split at found <;> cases found

theorem advances_ident : ident.Advances := by
  intro cs rest found
  cases cs with
  | nil => cases found
  | cons c cs =>
      rw [ident] at found
      split at found
      · cases found
      · cases found

theorem alternatives_match : ∀ alternative ∈ alternatives, alternative.2.Splits ∧ alternative.2.Advances := by
  simp only [alternatives, List.forall_mem_cons, List.not_mem_nil, false_imp_iff, implies_true, and_true]
  refine ⟨⟨splits_some1 _, advances_some1 _⟩, ⟨splits_string, ?_⟩, ⟨splits_datetime, ?_⟩,
    ⟨splits_inOrder splits_dateParts, ?_⟩, ⟨splits_number, ?_⟩, ⟨splits_op, advances_op⟩,
    ⟨splits_one _, advances_one _⟩, splits_ident, advances_ident⟩
  · exact advances_inOrder List.mem_cons_self (advances_one _)
  · exact advances_inOrder List.mem_cons_self (advances_one _)
  · exact advances_inOrder List.mem_cons_self (advances_one _)
  · exact advances_inOrder (List.mem_cons_of_mem _ List.mem_cons_self) (advances_some1 _)

/-- A match is a part of the text that is not empty, so that the loop of the tokenizer ends and its
position never leaves the text. -/
theorem tokenAt_advances {cs text : List Char} {kind : Option Kind} (found : tokenAt cs = some (kind, text)) :
    text ≠ [] ∧ text <+: cs := by
  obtain ⟨⟨kind', m⟩, mem, chosen⟩ := List.exists_of_findSome?_eq_some found
  obtain ⟨⟨text', rest⟩, matched, same⟩ := Option.map_eq_some_iff.mp chosen
  cases same
  obtain ⟨splits, advances⟩ := alternatives_match _ mem
  constructor
  · rintro rfl
    exact advances matched
  · exact ⟨rest, splits matched⟩

/-! ### The loop -/

/-- The tokens from a position on; `skip` characters there are part of the last match. -/
def tokenizeFrom (printable : Char → Bool) : (pos skip : Nat) → List Char → Except Failure (List Token)
  | _, _, [] => .ok []
  | pos, skip + 1, _ :: cs => tokenizeFrom printable (pos + 1) skip cs
  | pos, 0, c :: cs =>
      match tokenAt (c :: cs) with
      | none =>
          .error (malformed ("unexpected character at " ++ toString pos ++ ": " ++
            String.ofList (reprString printable (String.singleton c))))
      | some (none, text) => tokenizeFrom printable (pos + 1) (text.length - 1) cs
      | some (some kind, text) =>
          match tokenizeFrom printable (pos + 1) (text.length - 1) cs with
          | .error err => .error err
          | .ok tokens => .ok (⟨kind, text⟩ :: tokens)

def tokenize (printable : Char → Bool) (soql : String) : Except Failure (List Token) :=
  tokenizeFrom printable 0 0 soql.toList

end Relay.FakeSalesforce
