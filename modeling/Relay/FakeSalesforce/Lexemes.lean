import Relay.FakeSalesforce.Tokens
import Relay.Worker.Schema

/-!
Texts that the tokenizer takes apart again.

A text is a lexeme when it is one token wherever a token may end: before a space,
a comma, a closing bracket or the end (`Ends`), a bracket or a comma before
anything. `render` writes tokens with single spaces between them, and none before
a comma or a closing bracket nor after an opening one.
-/

namespace Relay.FakeSalesforce

open Relay.Python Relay.Calendar

/-! ### Where a token ends -/

def Ends (rest : List Char) : Prop := ∀ c more, rest = c :: more → c = ' ' ∨ c = ',' ∨ c = ')'

/-- A token's text is read whole. -/
structure Lexeme (tok : Token) : Prop where
  starts : ∃ c cs, tok.text = c :: cs ∧ isSpace c = false
  reads : ∀ rest, tok.kind = .punct ∨ Ends rest → tokenAt (tok.text ++ rest) = some (some tok.kind, tok.text)

theorem ends_nil : Ends [] := by
  intro c more same
  cases same

theorem ends_cons {c : Char} (more : List Char) (stop : c = ' ' ∨ c = ',' ∨ c = ')') : Ends (c :: more) := by
  intro d more' same
  cases same
  exact stop

/-- What no token ends with does not go on after it. -/
theorem Ends.dropWhile {rest : List Char} (ends : Ends rest) {p : Char → Bool} (space : p ' ' = false)
    (comma : p ',' = false) (bracket : p ')' = false) :
    rest.takeWhile p = [] ∧ rest.dropWhile p = rest := by
  cases rest with
  | nil => exact ⟨rfl, rfl⟩
  | cons c more =>
      have none : ¬ p c = true := by
        rcases ends c more rfl with rfl | rfl | rfl
        · simp [space]
        · simp [comma]
        · simp [bracket]
      exact ⟨List.takeWhile_cons_of_neg none, List.dropWhile_cons_of_neg none⟩

/-! ### Characters -/

/-- A visible ASCII character is no white space. -/
theorem isSpace_visible {c : Char} (low : 33 ≤ c.toNat) (high : c.toNat < 127) : isSpace c = false := by
  simp only [isSpace, decide_eq_false_iff_not]
  omega

theorem isDecimal_of_isDigit {c : Char} (digit : c.isDigit = true) : isDecimal c = true :=
  Worker.digit?_of_isDigit digit

theorem decimalZeros_high : ∀ first ∈ decimalZeros, first = 48 ∨ 128 ≤ first := by decide

theorem isDigit_iff (c : Char) : c.isDigit = true ↔ 48 ≤ c.toNat ∧ c.toNat ≤ 57 := by
  simp only [Char.isDigit, Bool.and_eq_true, decide_eq_true_eq]
  rfl

/-- The decimal digits of ASCII are those of `isDigit`. -/
theorem isDecimal_ascii {c : Char} (high : c.toNat < 128) : isDecimal c = c.isDigit := by
  cases digit : c.isDigit with
  | true => exact isDecimal_of_isDigit digit
  | false =>
      have outside : ¬ (48 ≤ c.toNat ∧ c.toNat ≤ 57) := by rw [← isDigit_iff, digit]; exact Bool.false_ne_true
      have none : decimalZeros.find? (fun first => first ≤ c.toNat ∧ c.toNat < first + 10) = none := by
        rw [List.find?_eq_none]
        intro first mem
        simp only [decide_eq_true_eq]
        rcases decimalZeros_high first mem with rfl | above
        · omega
        · omega
      rw [isDecimal, digit?, none]
      rfl

theorem isLetter_range {c : Char} (letter : isLetter c = true) : 65 ≤ c.toNat ∧ c.toNat ≤ 122 := by
  have upper : c.isUpper = decide (65 ≤ c.toNat ∧ c.toNat ≤ 90) := rfl
  have lower : c.isLower = (decide (97 ≤ c.toNat) && decide (c.toNat ≤ 122)) := rfl
  have alpha : c.isAlpha = (c.isUpper || c.isLower) := rfl
  rw [isLetter, alpha, upper, lower] at letter
  simp only [Bool.or_eq_true, Bool.and_eq_true, decide_eq_true_eq] at letter
  rcases letter with (upper | lower) | rfl
  · omega
  · omega
  · exact ⟨by simp, by simp⟩

/-- A letter begins no other token than an identifier. -/
theorem isLetter_spec {c : Char} (letter : isLetter c = true) :
    isSpace c = false ∧ isDecimal c = false ∧ c ∉ ['\'', '-', '>', '<', '!', '=', '(', ')', ','] := by
  obtain ⟨low, high⟩ := isLetter_range letter
  refine ⟨isSpace_visible (by omega) (by omega), ?_, ?_⟩
  · rw [isDecimal_ascii (by omega)]
    have outside : ¬ (48 ≤ c.toNat ∧ c.toNat ≤ 57) := by omega
    rw [← isDigit_iff] at outside
    exact Bool.eq_false_iff.mpr outside
  · intro mem
    simp only [List.mem_cons, List.not_mem_nil, or_false] at mem
    rcases mem with rfl | rfl | rfl | rfl | rfl | rfl | rfl | rfl | rfl <;> cases letter

theorem isDigit_spec {c : Char} (digit : c.isDigit = true) : isSpace c = false ∧ c ≠ '\'' ∧ c ≠ '-' := by
  obtain ⟨low, high⟩ := (isDigit_iff c).mp digit
  refine ⟨isSpace_visible (by omega) (by omega), ?_, ?_⟩
  · rintro rfl
    cases digit
  · rintro rfl
    cases digit

@[simp] theorem isDecimal_digitChar (n : Nat) : isDecimal (digitChar (n % 10)) = true :=
  isDecimal_of_isDigit (digitChar_spec _ (Nat.mod_lt _ (by omega))).1

/-- No digit goes on after a token. -/
theorem Ends.decimal {rest : List Char} (ends : Ends rest) :
    rest.takeWhile isDecimal = [] ∧ rest.dropWhile isDecimal = rest :=
  ends.dropWhile (isDecimal_ascii (by simp)) (isDecimal_ascii (by simp)) (isDecimal_ascii (by simp))

theorem isDecimal_dash : isDecimal '-' = false := isDecimal_ascii (by simp)

/-! ### Matchers -/

theorem some1_append {p : Char → Bool} {run rest : List Char} (all : ∀ c ∈ run, p c = true) (ne : run ≠ [])
    (stop : rest.takeWhile p = [] ∧ rest.dropWhile p = rest) : some1 p (run ++ rest) = some (run, rest) := by
  rw [some1, List.takeWhile_append_of_pos all, List.dropWhile_append_of_pos all, stop.1, stop.2,
    List.append_nil, if_neg ne]

theorem some1_none {p : Char → Bool} {c : Char} {cs : List Char} (no : p c = false) : some1 p (c :: cs) = none := by
  rw [some1, List.takeWhile_cons_of_neg (by simp [no]), if_pos rfl]

/-- What the first matcher reads comes first. -/
theorem inOrder_of_some {m : Matcher} {ms : List Matcher} {cs text rest : List Char} (first : m cs = some (text, rest)) :
    inOrder (m :: ms) cs = (inOrder ms rest).map fun more => (text ++ more.1, more.2) := by
  rw [inOrder, first]

theorem inOrder_one {p : Char → Bool} {ms : List Matcher} {cs : List Char} {found : List Char × List Char}
    (read : inOrder (one p :: ms) cs = some found) :
    ∃ c rest more, cs = c :: rest ∧ p c = true ∧ inOrder ms rest = some more := by
  cases cs with
  | nil => cases read
  | cons c rest =>
      by_cases holds : p c = true
      · have first : one p (c :: rest) = some ([c], rest) := if_pos holds
        rw [inOrder_of_some first] at read
        obtain ⟨more, found, -⟩ := Option.map_eq_some_iff.mp read
        exact ⟨c, rest, more, rfl, holds, found⟩
      · rw [inOrder, one, if_neg holds] at read
        cases read

theorem inOrder_append (ms ns : List Matcher) (cs : List Char) :
    inOrder (ms ++ ns) cs =
      (inOrder ms cs).bind fun first => (inOrder ns first.2).map fun more => (first.1 ++ more.1, more.2) := by
  induction ms generalizing cs with
  | nil => simp [inOrder]
  | cons m ms ih =>
      rw [List.cons_append, inOrder, inOrder]
      cases m cs with
      | none => rfl
      | some found =>
          obtain ⟨text, rest⟩ := found
          simp only [ih, Option.map_bind, Option.bind_map]
          cases inOrder ms rest with
          | none => rfl
          | some more => simp [Function.comp_def]

/-- A text that begins with no date begins with no datetime. -/
theorem datetime_none {cs : List Char} (noDate : date cs = none) : datetime cs = none := by
  have parts : inOrder dateParts cs = none := noDate
  simp only [datetime, List.append_assoc, inOrder_append dateParts, parts, Option.bind_none]

/-- A text that begins with no digit begins no date. -/
theorem date_none {c : Char} {cs : List Char} (no : isDecimal c = false) : date (c :: cs) = none := by
  simp [date, dateParts, digits2, inOrder, one, no]

theorem number_none {c : Char} {cs : List Char} (no : isDecimal c = false) (sign : c ≠ '-') :
    number (c :: cs) = none := by
  simp [number, inOrder, optional, one, sign, some1_none no]

theorem op_none {c : Char} {cs : List Char} (no : c ∉ ['>', '<', '!', '=']) : op (c :: cs) = none := by
  unfold op
  split <;> simp_all

/-! ### Words and symbols -/

def isWordChar (c : Char) : Bool := isLetter c || c.isDigit || c = '.'

theorem lexeme_ident {c : Char} {cs : List Char} (letter : isLetter c = true) (word : ∀ d ∈ cs, isWordChar d = true) :
    Lexeme ⟨.ident, c :: cs⟩ := by
  obtain ⟨space, decimal, others⟩ := isLetter_spec letter
  constructor
  · exact ⟨c, cs, rfl, space⟩
  · intro rest follows
    have ends : Ends rest := follows.resolve_left (by simp)
    have stop := ends.dropWhile (p := isWordChar) rfl rfl rfl
    have whole : (cs ++ rest).takeWhile isWordChar = cs := by
      rw [List.takeWhile_append_of_pos word, stop.1, List.append_nil]
    have notDate : date (c :: (cs ++ rest)) = none := date_none decimal
    have letters : ident (c :: (cs ++ rest)) = some (c :: cs, (cs ++ rest).dropWhile isWordChar) := by
      rw [ident, if_pos letter]
      exact congrArg (fun run => some (c :: run, (cs ++ rest).dropWhile isWordChar)) whole
    simp only [List.mem_cons, not_or] at others
    simp [tokenAt, alternatives, some1_none space, string, inOrder, one, others, notDate, datetime_none notDate,
      number_none decimal others.2.1, op_none, letters]

/-- A comparison, or the sign between two of them, before what is no comparison. -/
theorem lexeme_op {text : List Char}
    (known : text ∈ [['='], ['!', '='], ['<', '='], ['>', '='], ['<'], ['>']]) : Lexeme ⟨.op, text⟩ := by
  constructor
  · simp only [List.mem_cons, List.not_mem_nil, or_false] at known
    rcases known with rfl | rfl | rfl | rfl | rfl | rfl <;> exact ⟨_, _, rfl, rfl⟩
  · intro rest follows
    have ends : Ends rest := follows.resolve_left (by simp)
    have read : op (text ++ rest) = some (text, rest) := by
      simp only [List.mem_cons, List.not_mem_nil, or_false] at known
      rcases known with rfl | rfl | rfl | rfl | rfl | rfl
      · rfl
      · rfl
      · rfl
      · rfl
      · cases rest with
        | nil => rfl
        | cons c more => rcases ends c more rfl with rfl | rfl | rfl <;> rfl
      · cases rest with
        | nil => rfl
        | cons c more => rcases ends c more rfl with rfl | rfl | rfl <;> rfl
    have first : ∃ c cs, text ++ rest = c :: cs ∧ c ∈ ['=', '!', '<', '>'] := by
      simp only [List.mem_cons, List.not_mem_nil, or_false] at known
      rcases known with rfl | rfl | rfl | rfl | rfl | rfl <;> exact ⟨_, _, rfl, by simp⟩
    obtain ⟨c, cs, shape, symbol⟩ := first
    have plain : isSpace c = false ∧ isDecimal c = false ∧ c ≠ '\'' ∧ c ≠ '-' := by
      simp only [List.mem_cons, List.not_mem_nil, or_false] at symbol
      rcases symbol with rfl | rfl | rfl | rfl <;>
      exact ⟨rfl, isDecimal_ascii (by simp), by simp, by simp⟩
    rw [shape] at read ⊢
    have notDate : date (c :: cs) = none := date_none plain.2.1
    simp [tokenAt, alternatives, some1_none plain.1, string, inOrder, one, plain.2.2.1, notDate,
      datetime_none notDate, number_none plain.2.1 plain.2.2.2, read]

theorem lexeme_punct {c : Char} (known : c ∈ ['(', ')', ',']) : Lexeme ⟨.punct, [c]⟩ := by
  have plain : isSpace c = false ∧ isDecimal c = false ∧ c ∉ ['\'', '-', '>', '<', '!', '='] := by
    simp only [List.mem_cons, List.not_mem_nil, or_false] at known
    rcases known with rfl | rfl | rfl <;> exact ⟨rfl, isDecimal_ascii (by simp), by simp⟩
  obtain ⟨space, decimal, others⟩ := plain
  constructor
  · exact ⟨c, [], rfl, space⟩
  · intro rest _
    have notDate : date (c :: rest) = none := date_none decimal
    simp only [List.mem_cons, List.not_mem_nil, or_false, not_or] at others known
    simp [tokenAt, alternatives, some1_none space, string, inOrder, one, others, notDate, datetime_none notDate,
      number_none decimal others.2.1, op_none, known]

/-! ### Strings -/

/-- What stands for a character in quotes. -/
def escape (c : Char) : List Char := if c = '\\' ∨ c = '\'' then ['\\', c] else [c]

theorem stringBody_escaped (text rest : List Char) :
    stringBody (text.flatMap escape ++ '\'' :: rest) = some (text.flatMap escape ++ ['\''], rest) := by
  induction text with
  | nil => rfl
  | cons c text ih =>
      rw [List.flatMap_cons, escape, List.append_assoc]
      by_cases special : c = '\\' ∨ c = '\''
      · have notNewline : c ≠ '\n' := by rcases special with rfl | rfl <;> simp
        simp only [if_pos special, List.cons_append, List.nil_append, stringBody, if_neg notNewline, ih,
          Option.map_some]
      · obtain ⟨backslash, quote⟩ := not_or.mp special
        rw [if_neg special, List.cons_append, List.nil_append, stringBody]
        · simp [backslash, ih]
        · intro same
          exact quote same
        · intro d more same
          exact absurd same backslash

theorem lexeme_string (text : List Char) : Lexeme ⟨.string, '\'' :: (text.flatMap escape ++ ['\''])⟩ := by
  constructor
  · exact ⟨_, _, rfl, by decide⟩
  · intro rest _
    have body := stringBody_escaped text rest
    have quote : isSpace '\'' = false := by decide
    simp [tokenAt, alternatives, some1_none quote, string, inOrder, one, body]

/-! ### Numbers -/

/-- After the first digits of a date comes a dash. -/
theorem dash_of_date {cs : List Char} {found : List Char × List Char} (read : date cs = some found) :
    ∃ rest, cs.dropWhile isDecimal = '-' :: rest := by
  obtain ⟨a, cs, _, rfl, first, read⟩ := inOrder_one read
  obtain ⟨b, cs, _, rfl, second, read⟩ := inOrder_one read
  obtain ⟨c, cs, _, rfl, third, read⟩ := inOrder_one read
  obtain ⟨d, cs, _, rfl, fourth, read⟩ := inOrder_one read
  obtain ⟨e, cs, _, rfl, dash, -⟩ := inOrder_one read
  have shape : e = '-' := of_decide_eq_true dash
  exact ⟨cs, by simp [first, second, third, fourth, shape, isDecimal_dash]⟩

/-- A number's fraction: nothing, or a point and digits. -/
def Fraction (text : List Char) : Prop :=
  text = [] ∨ ∃ ds, text = '.' :: ds ∧ ds ≠ [] ∧ ∀ c ∈ ds, c.isDigit = true

theorem fraction_read {text rest : List Char} (fraction : Fraction text) (ends : Ends rest) :
    optional (inOrder [one (· = '.'), some1 isDecimal]) (text ++ rest) = some (text, rest) := by
  have stop := ends.decimal
  rcases fraction with rfl | ⟨ds, rfl, ne, digits⟩
  · cases rest with
    | nil => rfl
    | cons c more => rcases ends c more rfl with rfl | rfl | rfl <;> rfl
  · have run := some1_append (fun c mem => isDecimal_of_isDigit (digits c mem)) ne stop
    simp [optional, inOrder, one, run]

/-- A number is read whole, whatever its sign. -/
theorem number_read (neg : Bool) {whole fraction rest : List Char} (ne : whole ≠ [])
    (digits : ∀ c ∈ whole, c.isDigit = true) (frac : Fraction fraction) (ends : Ends rest)
    (stop : (fraction ++ rest).takeWhile isDecimal = [] ∧ (fraction ++ rest).dropWhile isDecimal = fraction ++ rest) :
    number ((if neg then ['-'] else []) ++ (whole ++ (fraction ++ rest))) =
      some ((if neg then ['-'] else []) ++ (whole ++ fraction), rest) := by
  have sign : optional (one (· = '-')) ((if neg then ['-'] else []) ++ (whole ++ (fraction ++ rest))) =
      some (if neg then ['-'] else [], whole ++ (fraction ++ rest)) := by
    obtain ⟨first, more, rfl⟩ := List.exists_cons_of_ne_nil ne
    have notMinus := (isDigit_spec (digits first List.mem_cons_self)).2.2
    cases neg with
    | true => rfl
    | false => simp [optional, one, notMinus]
  have run := some1_append (fun c mem => isDecimal_of_isDigit (digits c mem)) ne stop
  rw [number, inOrder_of_some sign, inOrder_of_some run, inOrder_of_some (fraction_read frac ends)]
  simp [inOrder]

theorem lexeme_number (neg : Bool) {whole fraction : List Char} (ne : whole ≠ [])
    (digits : ∀ c ∈ whole, c.isDigit = true) (frac : Fraction fraction) :
    Lexeme ⟨.number, (if neg then ['-'] else []) ++ (whole ++ fraction)⟩ := by
  have starts : ∃ c cs, (if neg then ['-'] else []) ++ (whole ++ fraction) = c :: cs ∧
      isSpace c = false ∧ c ≠ '\'' := by
    obtain ⟨first, more, rfl⟩ := List.exists_cons_of_ne_nil ne
    have start := isDigit_spec (digits first List.mem_cons_self)
    cases neg with
    | true => exact ⟨_, _, rfl, by decide⟩
    | false => exact ⟨_, _, rfl, start.1, start.2.1⟩
  constructor
  · obtain ⟨c, cs, shape, space, -⟩ := starts
    exact ⟨c, cs, shape, space⟩
  · intro rest follows
    have ends : Ends rest := follows.resolve_left (by simp)
    -- the digits stop at the point, or where the token ends
    have stop : (fraction ++ rest).takeWhile isDecimal = [] ∧
        (fraction ++ rest).dropWhile isDecimal = fraction ++ rest := by
      rcases frac with rfl | ⟨ds, rfl, -, -⟩
      · exact ends.decimal
      · have point : ¬ isDecimal '.' = true := by
          rw [isDecimal_ascii (by simp)]
          exact Bool.false_ne_true
        exact ⟨List.takeWhile_cons_of_neg point, List.dropWhile_cons_of_neg point⟩
    have read := number_read neg ne digits frac ends stop
    -- after the digits of the number comes no dash
    have notDate : date ((if neg then ['-'] else []) ++ (whole ++ (fraction ++ rest))) = none := by
      cases neg with
      | true => exact date_none isDecimal_dash
      | false =>
          cases found : date (whole ++ (fraction ++ rest)) with
          | none => exact found
          | some parts =>
              obtain ⟨more, after⟩ := dash_of_date found
              rw [List.dropWhile_append_of_pos fun c mem => isDecimal_of_isDigit (digits c mem), stop.2] at after
              rcases frac with rfl | ⟨ds, rfl, -, -⟩
              · rcases ends _ _ after with same | same | same <;> cases same
              · cases after
    obtain ⟨c, cs, shape, space, quote⟩ := starts
    have whole_ : (if neg then ['-'] else []) ++ (whole ++ (fraction ++ rest)) = c :: (cs ++ rest) := by
      rw [← List.append_assoc whole, ← List.append_assoc, shape, List.cons_append]
    rw [whole_, shape] at read
    rw [whole_] at notDate
    rw [shape, List.cons_append]
    simp [tokenAt, alternatives, some1_none space, string, inOrder, one, quote, notDate, datetime_none notDate, read]

/-! ### Dates and datetimes -/

/-- `YYYY-MM-DD` -/
def dateText (year month day : Nat) : List Char :=
  fixed 4 year ++ ('-' :: (fixed 2 month ++ ('-' :: fixed 2 day)))

/-- `THH:MM:SS`, milliseconds if there are any, and `Z`. -/
def clockText (hour minute second millisecond : Nat) : List Char :=
  'T' :: (fixed 2 hour ++ (':' :: (fixed 2 minute ++ (':' :: (fixed 2 second ++
    ((if millisecond = 0 then [] else '.' :: fixed 3 millisecond) ++ ['Z']))))))

theorem date_read (year month day : Nat) (rest : List Char) :
    date (dateText year month day ++ rest) = some (dateText year month day, rest) := by
  simp [date, dateParts, digits2, inOrder, one, dateText, fixed]

theorem datetime_read (year month day hour minute second millisecond : Nat) (rest : List Char) :
    datetime (dateText year month day ++ (clockText hour minute second millisecond ++ rest)) =
      some (dateText year month day ++ clockText hour minute second millisecond, rest) := by
  have parts := date_read year month day (clockText hour minute second millisecond ++ rest)
  rw [date] at parts
  simp only [datetime, List.append_assoc, inOrder_append dateParts, parts, Option.bind_some]
  by_cases none : millisecond = 0
  · simp [digits2, inOrder, one, clockText, fixed, none, optional, millis, zone]
  · simp [digits2, inOrder, one, clockText, fixed, none, optional, millis, zone]

/-- A date begins with a digit. -/
theorem dateText_cons (year month day : Nat) :
    ∃ c cs, dateText year month day = c :: cs ∧ isSpace c = false ∧ c ≠ '\'' := by
  have digit := (digitChar_spec (year / 10 ^ 3 % 10) (Nat.mod_lt _ (by omega))).1
  exact ⟨_, _, rfl, (isDigit_spec digit).1, (isDigit_spec digit).2.1⟩

theorem lexeme_date (year month day : Nat) : Lexeme ⟨.date, dateText year month day⟩ := by
  obtain ⟨c, cs, shape, space, quote⟩ := dateText_cons year month day
  constructor
  · exact ⟨c, cs, shape, space⟩
  · intro rest follows
    have ends : Ends rest := follows.resolve_left (by simp)
    have read := date_read year month day rest
    have noClock : datetime (dateText year month day ++ rest) = none := by
      have parts := read
      rw [date] at parts
      simp only [datetime, List.append_assoc, inOrder_append dateParts, parts, Option.bind_some]
      cases rest with
      | nil => rfl
      | cons d more => rcases ends d more rfl with rfl | rfl | rfl <;> rfl
    rw [shape, List.cons_append] at read noClock
    simp [tokenAt, alternatives, shape, some1_none space, string, inOrder, one, quote, noClock, read]

theorem lexeme_datetime (year month day hour minute second millisecond : Nat) :
    Lexeme ⟨.datetime, dateText year month day ++ clockText hour minute second millisecond⟩ := by
  obtain ⟨c, cs, shape, space, quote⟩ := dateText_cons year month day
  constructor
  · exact ⟨c, _, by rw [shape, List.cons_append], space⟩
  · intro rest _
    have read := datetime_read year month day hour minute second millisecond rest
    rw [shape, List.cons_append] at read
    simp [tokenAt, alternatives, shape, some1_none space, string, inOrder, one, quote, read]

/-! ### Texts of tokens -/

/-- What stands between two tokens. -/
def gap (tok following : Token) : List Char :=
  if tok.text = ['('] ∨ following.text = [','] ∨ following.text = [')'] then [] else [' ']

def render : List Token → List Char
  | [] => []
  | [tok] => tok.text
  | tok :: following :: rest => tok.text ++ (gap tok following ++ render (following :: rest))

/-- The rest of a match is passed over. -/
theorem tokenizeFrom_skip (printable : Char → Bool) (pos : Nat) (text rest : List Char) :
    tokenizeFrom printable pos text.length (text ++ rest) = tokenizeFrom printable (pos + text.length) 0 rest := by
  induction text generalizing pos with
  | nil => rfl
  | cons c text ih =>
      rw [List.cons_append, List.length_cons, tokenizeFrom, ih, Nat.add_right_comm, Nat.add_assoc]

/-- A lexeme gives its token. -/
theorem tokenizeFrom_lexeme (printable : Char → Bool) (pos : Nat) {tok : Token} (lexeme : Lexeme tok)
    {rest : List Char} (follows : tok.kind = .punct ∨ Ends rest) :
    tokenizeFrom printable pos 0 (tok.text ++ rest) =
      (tokenizeFrom printable (pos + tok.text.length) 0 rest).map fun tokens => tok :: tokens := by
  obtain ⟨c, cs, shape, -⟩ := lexeme.starts
  have read := lexeme.reads rest follows
  rw [shape, List.cons_append] at read ⊢
  rw [tokenizeFrom, read]
  simp only [List.length_cons, Nat.add_sub_cancel]
  rw [tokenizeFrom_skip, Nat.add_right_comm, Nat.add_assoc, ← shape]
  cases tokenizeFrom printable (pos + (cs.length + 1)) 0 rest <;> rfl

/-- A space before a token gives none. -/
theorem tokenizeFrom_space (printable : Char → Bool) (pos : Nat) {c : Char} (rest : List Char)
    (space : isSpace c = false) :
    tokenizeFrom printable pos 0 (' ' :: c :: rest) = tokenizeFrom printable (pos + 1) 0 (c :: rest) := by
  have blank : tokenAt (' ' :: c :: rest) = some (none, [' ']) := by
    have one_ : some1 isSpace (' ' :: c :: rest) = some ([' '], c :: rest) := by
      simp [some1, space, show isSpace ' ' = true by decide]
    simp [tokenAt, alternatives, one_]
  rw [tokenizeFrom, blank]
  rfl

theorem Lexeme.bracket {tok : Token} (lexeme : Lexeme tok) (text : tok.text = ['(']) : tok.kind = .punct := by
  have read := lexeme.reads [] (.inr ends_nil)
  have known := (lexeme_punct (c := '(') (by simp)).reads [] (.inr ends_nil)
  rw [text, List.append_nil] at read
  rw [List.append_nil, read] at known
  exact Option.some.inj (Prod.mk.inj (Option.some.inj known)).1

theorem render_cons (tok : Token) (rest : List Token) : ∃ more, render (tok :: rest) = tok.text ++ more := by
  cases rest with
  | nil => exact ⟨[], (List.append_nil _).symm⟩
  | cons following rest => exact ⟨_, rfl⟩

/-- **A text of lexemes is read as its tokens.** -/
theorem tokenizeFrom_render (printable : Char → Bool) {tokens : List Token} (lexemes : ∀ tok ∈ tokens, Lexeme tok) (pos : Nat) :
    tokenizeFrom printable pos 0 (render tokens) = .ok tokens := by
  fun_induction render tokens generalizing pos with
  | case1 => rfl
  | case2 tok =>
      have read := tokenizeFrom_lexeme printable pos (lexemes tok List.mem_cons_self) (.inr ends_nil)
      rwa [List.append_nil, tokenizeFrom] at read
  | case3 tok following rest ih =>
      have later := ih fun t mem => lexemes t (List.mem_cons_of_mem _ mem)
      obtain ⟨more, shape⟩ := render_cons following rest
      obtain ⟨c, cs, start, space⟩ := (lexemes following (by simp)).starts
      have head : render (following :: rest) = c :: (cs ++ more) := by rw [shape, start, List.cons_append]
      have follows : tok.kind = .punct ∨ Ends (gap tok following ++ render (following :: rest)) := by
        unfold gap
        split
        · rename_i closed
          rcases closed with bracket | comma | bracket
          · exact .inl ((lexemes tok List.mem_cons_self).bracket bracket)
          · rw [shape, comma]
            exact .inr (ends_cons _ (.inr (.inl rfl)))
          · rw [shape, bracket]
            exact .inr (ends_cons _ (.inr (.inr rfl)))
        · exact .inr (ends_cons _ (.inl rfl))
      rw [tokenizeFrom_lexeme printable pos (lexemes tok List.mem_cons_self) follows]
      have after : tokenizeFrom printable (pos + tok.text.length) 0 (gap tok following ++ render (following :: rest)) =
          .ok (following :: rest) := by
        unfold gap
        split
        · exact later _
        · rw [head, List.cons_append, List.nil_append, tokenizeFrom_space printable _ _ space, ← head]
          exact later _
      rw [after]
      rfl

end Relay.FakeSalesforce
