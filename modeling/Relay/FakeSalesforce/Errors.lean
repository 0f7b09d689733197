import Relay.FakeSalesforce.Soql

/-!
The exceptions of the parser.

A text is read, or refused with a `SoqlError`, or a conversion of one of its
literals raises an exception of its own, which the server does not turn into an
answer. `Reached` names the conversions that the parser comes to, and
`parse_answers_iff` says that they decide it.
-/

namespace Relay.FakeSalesforce

open Relay.Python Relay.Calendar

/-- An exception that is no `SoqlError`. -/
def Raises {α : Type} (result : Except Failure α) : Prop := ∃ exc, result = .error (.raised exc)

theorem not_raises_ok {α : Type} (value : α) : ¬ Raises (.ok value) := by
  rintro ⟨exc, same⟩
  cases same

theorem not_raises_soqlError {α : Type} (code message : String) :
    ¬ Raises (.error (.soqlError code message) : Except Failure α) := by
  rintro ⟨exc, same⟩
  cases same

theorem raises_map {α β : Type} {result : Except Failure α} {f : α → β} : Raises (result.map f) ↔ Raises result := by
  cases result with
  | ok value => exact iff_of_false (not_raises_ok _) (not_raises_ok _)
  | error failure =>
      constructor
      · rintro ⟨exc, same⟩
        cases same
        exact ⟨exc, rfl⟩
      · rintro ⟨exc, same⟩
        cases same
        exact ⟨exc, rfl⟩

/-! ### Conversions -/

/-- A literal's text and what it is converted to. -/
inductive Conversion where
  | datetime (text : List Char)
  | date (text : List Char)
  | decimal (text : List Char)
  | limit (text : List Char)

/-- The text denotes a value: an instant of the years 1 to 9999, a date of those years, a decimal,
a number of at most 4300 digits. -/
def Conversion.Works : Conversion → Prop
  | datetime text => ∃ us, isoInstant (colonDigits (Reconciler.replaceZ text)) = some us ∧ InRange us
  | date text => ∃ d, isoDate text = some d ∧ d.Valid ∧ 1 ≤ d.year
  | decimal text => ∃ d, Python.decimal text = some (.finite d)
  | limit text => text.length ≤ maxStrDigits

/-- The conversion that a token of the right kind needs. -/
def conversionOf : FieldType → Token → Option Conversion
  | .datetime, tok => if tok.kind = .datetime then some (.datetime tok.text) else none
  | .date, tok => if tok.kind = .date then some (.date tok.text) else none
  | .currency, tok => if tok.kind = .number then some (.decimal tok.text) else none
  | _, _ => none

theorem raises_raise {α : Type} (result : Except Exn α) : Raises (raise result) ↔ ∃ exc, result = .error exc := by
  cases result with
  | ok value => exact iff_of_false (not_raises_ok value) (by rintro ⟨exc, same⟩; cases same)
  | error exc => exact iff_of_true ⟨exc, rfl⟩ ⟨exc, rfl⟩

/-- A conversion fails when it does not succeed. -/
theorem fails_iff {α : Type} {result : Except Exn α} {Works : Prop} (succeeds : (∃ value, result = .ok value) ↔ Works) :
    (∃ exc, result = .error exc) ↔ ¬ Works := by
  rw [← succeeds]
  cases result with
  | ok value => simp
  | error exc => simp

theorem parseDatetimeLiteral_fails (text : List Char) :
    (∃ exc, parseDatetimeLiteral text = .error exc) ↔ ¬ (Conversion.datetime text).Works := by
  refine fails_iff ?_
  rw [parseDatetimeLiteral, fromisoformat, Conversion.Works]
  cases isoInstant (colonDigits (Reconciler.replaceZ text)) with
  | none => simp
  | some us => by_cases inRange : InRange us <;> simp [inRange]

theorem dateFromIsoformat_fails (text : List Char) :
    (∃ exc, dateFromIsoformat text = .error exc) ↔ ¬ (Conversion.date text).Works := by
  refine fails_iff ?_
  rw [dateFromIsoformat, Conversion.Works]
  cases isoDate text with
  | none => simp
  | some d =>
      by_cases early : d.year < 1
      · have notLate : ¬ 1 ≤ d.year := by omega
        simp [early, notLate]
      · have late : 1 ≤ d.year := by omega
        by_cases month : 1 ≤ d.month ∧ d.month ≤ 12
        · by_cases valid : d.Valid <;> simp [early, late, month, valid]
        · have invalid : ¬ d.Valid := fun valid => month ⟨valid.1, valid.2.1⟩
          simp only [early, if_false, month, not_false_eq_true, if_true, invalid, Option.some.injEq, exists_eq_left',
            false_and, iff_false]
          rintro ⟨value, same⟩
          cases same

theorem decimalOf_fails (text : List Char) :
    (∃ exc, decimalOf text = .error exc) ↔ ¬ (Conversion.decimal text).Works := by
  refine fails_iff ?_
  rw [decimalOf, Conversion.Works]
  cases decimal text with
  | none => simp
  | some value => cases value <;> simp

theorem intOf_fails (text : List Char) :
    (∃ exc, intOf text = .error exc) ↔ ¬ (Conversion.limit text).Works := by
  refine fails_iff ?_
  rw [intOf, Conversion.Works]
  by_cases short : text.length ≤ maxStrDigits <;> simp [short]

/-- Only a conversion raises, and only when it does not work. -/
theorem raises_converted {α β : Type} {result : Except Exn α} {f : α → β} {tok : Token} {kind : Kind}
    {failure : Failure} {c : Conversion} (soql : ¬ Raises (.error failure : Except Failure β))
    (fails : (∃ exc, result = .error exc) ↔ ¬ c.Works) :
    Raises (if tok.kind ≠ kind then .error failure else raise (result.map f)) ↔
      ∃ c', (if tok.kind = kind then some c else none) = some c' ∧ ¬ c'.Works := by
  by_cases right : tok.kind = kind
  · have raised : Raises (raise (result.map f)) ↔ ∃ exc, result = .error exc := by
      rw [raises_raise]
      cases result with
      | ok value => simp [Except.map]
      | error exc => simp [Except.map]
    simp only [right, ne_eq, not_true_eq_false, if_false, if_true, raised, fails, Option.some.injEq, exists_eq_left']
  · simp [right, soql]

theorem not_raises_quotedText (name : String) (tok : Token) : ¬ Raises (quotedText name tok) := by
  unfold quotedText
  split
  · exact not_raises_soqlError _ _
  · exact not_raises_ok _

theorem raises_literal (name : String) (t : FieldType) (tok : Token) :
    Raises (literal name t tok) ↔ ∃ c, conversionOf t tok = some c ∧ ¬ c.Works := by
  unfold literal
  by_cases null : wordOf tok = "NULL".toList
  · -- a word needs no conversion
    have ident : tok.kind = .ident := by
      by_contra other
      rw [wordOf, if_neg other] at null
      exact absurd null (by with_unfolding_all decide)
    have none : conversionOf t tok = none := by
      cases t <;> simp [conversionOf, ident]
    rw [if_pos null, none]
    exact iff_of_false (not_raises_ok _) (by simp)
  · rw [if_neg null]
    cases t with
    | datetime => exact raises_converted (not_raises_soqlError _ _) (parseDatetimeLiteral_fails tok.text)
    | date => exact raises_converted (not_raises_soqlError _ _) (dateFromIsoformat_fails tok.text)
    | currency => exact raises_converted (not_raises_soqlError _ _) (decimalOf_fails tok.text)
    | boolean =>
        refine iff_of_false ?_ (by simp [conversionOf])
        simp only
        split
        · exact not_raises_soqlError _ _
        · exact not_raises_ok _
    | id => exact iff_of_false (not_raises_quotedText name tok) (by simp [conversionOf])
    | string => exact iff_of_false (not_raises_quotedText name tok) (by simp [conversionOf])
    | picklist => exact iff_of_false (not_raises_quotedText name tok) (by simp [conversionOf])

/-- A type with a conversion has no texts. -/
theorem asText_none {t : FieldType} {tok : Token} {c : Conversion} (needs : conversionOf t tok = some c)
    (value : Option t.Val) : asText t value = none := by
  cases t with
  | datetime => rfl
  | date => rfl
  | currency => rfl
  | boolean => rfl
  | id => cases needs
  | string => cases needs
  | picklist => cases needs

section Parser

variable (printable : Char → Bool)

/-- A literal of the conditions that the parser comes to: the value of a comparison, or the first one
of a list, which for a type that is no text is the last one. -/
inductive LiteralOf : List Token → Conversion → Prop where
  | compared {tokens rest : List Token} {f : Field} {op tok : Token} {c : Conversion} :
      field printable tokens = .ok (f, op :: tok :: rest) → keyword "IN" (op :: tok :: rest) = none →
      op.kind = .op → conversionOf f.ftype tok = some c → LiteralOf tokens c
  | listed {tokens rest more : List Token} {f : Field} {bracket tok : Token} {c : Conversion} :
      field printable tokens = .ok (f, rest) → keyword "IN" rest = some (bracket :: tok :: more) →
      bracket.text = ['('] → conversionOf f.ftype tok = some c → LiteralOf tokens c
  | later {tokens rest more : List Token} {first : Condition} {c : Conversion} :
      condition printable tokens = .ok (first, rest) → keyword "AND" rest = some more →
      LiteralOf more c → LiteralOf tokens c

/-- A conversion that the parser comes to: everything before it is read. -/
inductive Reached (tokens : List Token) : Conversion → Prop where
  | literal {fields : List Field} {from_ where_ rest : List Token} {c : Conversion} :
      selectClause printable tokens = .ok (fields, from_) → fromClause from_ = .ok where_ →
      keyword "WHERE" where_ = some rest → LiteralOf printable rest c → Reached tokens c
  | limit {fields : List Field} {from_ where_ order limit_ rest : List Token} {cs : List Condition}
      {keys : List OrderBy} {tok : Token} :
      selectClause printable tokens = .ok (fields, from_) → fromClause from_ = .ok where_ →
      whereClause printable where_ = .ok (cs, order) → orderClause printable order = .ok (keys, limit_) →
      keyword "LIMIT" limit_ = some (tok :: rest) → tok.kind = .number → tok.text.all isDecimal = true →
      Reached tokens (.limit tok.text)

/-! ### What raises nothing -/

theorem not_raises_fieldOf (tok : Token) : ¬ Raises (fieldOf printable tok) := by
  unfold fieldOf
  split
  · exact not_raises_soqlError _ _
  · split
    · exact not_raises_ok _
    · exact not_raises_soqlError _ _

theorem not_raises_field (tokens : List Token) : ¬ Raises (field printable tokens) := by
  cases tokens with
  | nil => exact not_raises_soqlError _ _
  | cons tok rest => exact raises_map.not.mpr (not_raises_fieldOf printable tok)

omit printable in
theorem not_raises_expectKeyword (word : String) (tokens : List Token) : ¬ Raises (expectKeyword word tokens) := by
  unfold expectKeyword
  split
  · exact not_raises_ok _
  · exact not_raises_soqlError _ _

omit printable in
theorem not_raises_next (tokens : List Token) : ¬ Raises (next tokens) := by
  cases tokens with
  | nil => exact not_raises_soqlError _ _
  | cons tok rest => exact not_raises_ok _

/-- An error that is passed on. -/
theorem not_raises_passed {α β : Type} {result : Except Failure α} {failure : Failure} (quiet : ¬ Raises result)
    (failed : result = .error failure) : ¬ Raises (.error failure : Except Failure β) := by
  rintro ⟨exc, same⟩
  cases same
  exact quiet ⟨exc, failed⟩

theorem not_raises_selected (tokens : List Token) : ¬ Raises (selected printable tokens) := by
  fun_induction selected printable tokens with
  | case1 => exact not_raises_soqlError _ _
  | case2 tok rest failure failed => exact not_raises_passed (not_raises_fieldOf printable tok) failed
  | case3 tok f read sep more comma failure failed ih => exact not_raises_passed ih failed
  | case4 => exact not_raises_ok _
  | case5 => exact not_raises_ok _
  | case6 => exact not_raises_ok _

theorem not_raises_orderKeys (tokens : List Token) : ¬ Raises (orderKeys printable tokens) := by
  fun_induction orderKeys printable tokens with
  | case1 tokens failure failed => exact not_raises_passed (not_raises_field printable tokens) failed
  | case2 tokens f rest read sep more after comma failure failed ih => exact not_raises_passed ih failed
  | case3 => exact not_raises_ok _
  | case4 => exact not_raises_ok _
  | case5 => exact not_raises_ok _

/-! ### What raises -/

omit printable in
/-- An error that is passed on raises if it raised before. -/
theorem raises_passed {α β : Type} {result : Except Failure α} {failure : Failure} (failed : result = .error failure) :
    Raises (.error failure : Except Failure β) ↔ Raises result := by
  rw [failed]
  constructor
  · rintro ⟨exc, same⟩
    cases same
    exact ⟨exc, rfl⟩
  · rintro ⟨exc, same⟩
    cases same
    exact ⟨exc, rfl⟩

omit printable in
/-- In a list only the first value may need a conversion. -/
theorem raises_inValues (name : String) (t : FieldType) (tokens : List Token) :
    Raises (inValues name t tokens) ↔
      ∃ tok rest c, tokens = tok :: rest ∧ conversionOf t tok = some c ∧ ¬ c.Works := by
  -- a value that was read did not raise
  have read_ : ∀ {tok : Token} {rest : List Token} {value : Option t.Val}, literal name t tok = .ok value →
      ¬ ∃ tok' rest' c, tok :: rest = tok' :: rest' ∧ conversionOf t tok' = some c ∧ ¬ c.Works := by
    rintro tok rest value read ⟨_, _, c, same, needs, fails⟩
    cases same
    have raises := (raises_literal name t tok).mpr ⟨c, needs, fails⟩
    rw [read] at raises
    exact not_raises_ok _ raises
  fun_induction inValues name t tokens with
  | case1 => exact iff_of_false (not_raises_soqlError _ _) (by simp)
  | case2 tok rest failure failed =>
      rw [raises_passed failed, raises_literal]
      constructor
      · rintro ⟨c, needs, fails⟩
        exact ⟨tok, rest, c, rfl, needs, fails⟩
      · rintro ⟨_, _, c, same, needs, fails⟩
        cases same
        exact ⟨c, needs, fails⟩
  | case3 tok rest value read => exact iff_of_false (not_raises_soqlError _ _) (read_ read)
  | case4 tok value read => exact iff_of_false (not_raises_soqlError _ _) (read_ read)
  | case5 tok value read => exact iff_of_false (not_raises_ok _) (read_ read)
  | case6 tok value read => exact iff_of_false (not_raises_soqlError _ _) (read_ read)
  | case7 tok value read text isText sep more _ _ failure failed ih =>
      refine iff_of_false (fun raises => ?_) (read_ read)
      obtain ⟨tok', _, c, _, needs, -⟩ := ih.mp ((raises_passed failed).mp raises)
      rw [asText_none needs value] at isText
      cases isText
  | case8 tok value read => exact iff_of_false (not_raises_ok _) (read_ read)

theorem raises_test (f : Field) (tokens : List Token) :
    Raises (test printable f tokens) ↔
      (∃ op tok rest c, tokens = op :: tok :: rest ∧ keyword "IN" tokens = none ∧ op.kind = .op ∧
        conversionOf f.ftype tok = some c ∧ ¬ c.Works) ∨
      (∃ bracket tok rest c, keyword "IN" tokens = some (bracket :: tok :: rest) ∧ bracket.text = ['('] ∧
        conversionOf f.ftype tok = some c ∧ ¬ c.Works) := by
  unfold test
  split
  · rename_i in_
    exact iff_of_false (not_raises_soqlError _ _) (by simp [in_])
  · rename_i bracket rest in_
    split
    · rename_i other
      exact iff_of_false (not_raises_soqlError _ _) (by simp [in_, other])
    · rename_i open_
      have open_ : bracket.text = ['('] := not_not.mp open_
      rw [raises_map, raises_inValues]
      constructor
      · rintro ⟨tok, more, c, rfl, needs, fails⟩
        exact .inr ⟨bracket, tok, more, c, in_, open_, needs, fails⟩
      · rintro (⟨_, _, _, _, _, none, _⟩ | ⟨_, tok, more, c, in', -, needs, fails⟩)
        · rw [in_] at none
          cases none
        · rw [in_] at in'
          cases in'
          exact ⟨tok, more, c, rfl, needs, fails⟩
  · rename_i noIn
    split
    · exact iff_of_false (not_raises_soqlError _ _) (by simp [noIn])
    · rename_i op rest
      split
      · rename_i other
        exact iff_of_false (not_raises_soqlError _ _) (by simp [noIn, other])
      · rename_i isOp
        have isOp : op.kind = .op := not_not.mp isOp
        split
        · exact iff_of_false (not_raises_soqlError _ _) (by simp [noIn])
        · rename_i tok last
          rw [raises_map, raises_literal]
          constructor
          · rintro ⟨c, needs, fails⟩
            exact .inl ⟨op, tok, last, c, rfl, noIn, isOp, needs, fails⟩
          · rintro (⟨_, _, _, c, same, _, _, needs, fails⟩ | ⟨_, _, _, _, in_, _⟩)
            · cases same
              exact ⟨c, needs, fails⟩
            · rw [noIn] at in_
              cases in_

theorem raises_condition (tokens : List Token) :
    Raises (condition printable tokens) ↔
      ∃ f rest, field printable tokens = .ok (f, rest) ∧ Raises (test printable f rest) := by
  unfold condition
  split
  · rename_i failure failed
    refine iff_of_false (not_raises_passed (not_raises_field printable tokens) failed) ?_
    rintro ⟨f, rest, read, -⟩
    rw [failed] at read
    cases read
  · rename_i f rest read
    constructor
    · intro raises
      exact ⟨f, rest, read, raises⟩
    · rintro ⟨f', rest', read', raises⟩
      rw [read] at read'
      cases read'
      exact raises

/-- A condition raises at its literal. -/
theorem literalOf_of_raises_condition {tokens : List Token} (raises : Raises (condition printable tokens)) :
    ∃ c, LiteralOf printable tokens c ∧ ¬ c.Works := by
  obtain ⟨f, rest, read, raises⟩ := (raises_condition printable tokens).mp raises
  rcases (raises_test printable f rest).mp raises with
    ⟨op, tok, last, c, rfl, noIn, isOp, needs, fails⟩ | ⟨bracket, tok, more, c, in_, open_, needs, fails⟩
  · exact ⟨c, .compared read noIn isOp needs, fails⟩
  · exact ⟨c, .listed read in_ open_ needs, fails⟩

/-- A literal that does not work raises, wherever it is among the conditions. -/
theorem raises_conditions_of_literalOf {tokens : List Token} {c : Conversion} (literal_ : LiteralOf printable tokens c)
    (fails : ¬ c.Works) : Raises (conditions printable tokens) := by
  -- a first condition that raises stops the conditions
  have first : ∀ {tokens : List Token}, Raises (condition printable tokens) → Raises (conditions printable tokens) := by
    rintro tokens ⟨exc, failed⟩
    rw [conditions]
    split
    · rename_i failure failed'
      rw [failed] at failed'
      cases failed'
      exact ⟨exc, rfl⟩
    · rename_i read
      rw [failed] at read
      cases read
  induction literal_ with
  | compared read noIn isOp needs =>
      exact first ((raises_condition printable _).mpr ⟨_, _, read, (raises_test printable _ _).mpr
        (.inl ⟨_, _, _, _, rfl, noIn, isOp, needs, fails⟩)⟩)
  | listed read in_ open_ needs =>
      exact first ((raises_condition printable _).mpr ⟨_, _, read, (raises_test printable _ _).mpr
        (.inr ⟨_, _, _, _, in_, open_, needs, fails⟩)⟩)
  | later read and_ _ ih =>
      obtain ⟨exc, failed⟩ := ih fails
      rw [conditions_and printable read and_, failed]
      exact ⟨exc, rfl⟩

theorem raises_conditions (tokens : List Token) :
    Raises (conditions printable tokens) ↔ ∃ c, LiteralOf printable tokens c ∧ ¬ c.Works := by
  constructor
  · fun_induction conditions printable tokens with
    | case1 tokens failure failed =>
        intro raises
        exact literalOf_of_raises_condition printable ((raises_passed failed).mp raises)
    | case2 => exact fun raises => absurd raises (not_raises_ok _)
    | case3 tokens c rest read more and_ failure failed ih =>
        intro raises
        obtain ⟨c', literal_, fails⟩ := ih ((raises_passed failed).mp raises)
        exact ⟨c', .later read and_ literal_, fails⟩
    | case4 => exact fun raises => absurd raises (not_raises_ok _)
  · rintro ⟨c, literal_, fails⟩
    exact raises_conditions_of_literalOf printable literal_ fails

theorem raises_selectClause (tokens : List Token) : ¬ Raises (selectClause printable tokens) := by
  unfold selectClause
  split
  · rename_i failed
    exact not_raises_passed (not_raises_expectKeyword "SELECT" tokens) failed
  · exact not_raises_selected printable _

omit printable in
theorem raises_fromClause (tokens : List Token) : ¬ Raises (fromClause tokens) := by
  unfold fromClause
  split
  · rename_i failed
    exact not_raises_passed (not_raises_expectKeyword "FROM" tokens) failed
  · split
    · rename_i failed
      exact not_raises_passed (not_raises_next _) failed
    · split
      · exact not_raises_soqlError _ _
      · exact not_raises_ok _

theorem raises_whereClause (tokens : List Token) :
    Raises (whereClause printable tokens) ↔
      ∃ rest c, keyword "WHERE" tokens = some rest ∧ LiteralOf printable rest c ∧ ¬ c.Works := by
  unfold whereClause
  split
  · rename_i none
    exact iff_of_false (not_raises_ok _) (by simp [none])
  · rename_i rest where_
    have same : (∃ rest' c, keyword "WHERE" tokens = some rest' ∧ LiteralOf printable rest' c ∧ ¬ c.Works) ↔
        Raises (conditions printable rest) := by
      rw [raises_conditions]
      simp [where_]
    rw [same]
    split
    · rename_i failed
      exact raises_passed failed
    · rename_i read
      rw [read]
      refine iff_of_false ?_ (not_raises_ok _)
      split
      · exact not_raises_soqlError _ _
      · exact not_raises_ok _

theorem raises_orderClause (tokens : List Token) : ¬ Raises (orderClause printable tokens) := by
  unfold orderClause
  split
  · exact not_raises_ok _
  · split
    · rename_i failed
      exact not_raises_passed (not_raises_expectKeyword "BY" _) failed
    · exact not_raises_orderKeys printable _

omit printable in
theorem raises_limitClause (tokens : List Token) :
    Raises (limitClause tokens) ↔
      ∃ tok rest, keyword "LIMIT" tokens = some (tok :: rest) ∧ tok.kind = .number ∧
        tok.text.all isDecimal = true ∧ ¬ (Conversion.limit tok.text).Works := by
  unfold limitClause
  split
  · rename_i none
    exact iff_of_false (not_raises_ok _) (by simp [none])
  · rename_i rest limit_
    cases rest with
    | nil => exact iff_of_false (not_raises_soqlError _ _) (by simp [limit_])
    | cons tok rest =>
        simp only [next]
        split
        · rename_i refused
          refine iff_of_false (not_raises_soqlError _ _) ?_
          rintro ⟨tok', rest', limit', number, digits, -⟩
          rw [limit_] at limit'
          cases limit'
          exact refused.elim (fun other => other number) fun other => other digits
        · rename_i accepted
          rw [not_or, not_not, not_not] at accepted
          rw [raises_map, raises_raise, intOf_fails]
          constructor
          · intro fails
            exact ⟨tok, rest, limit_, accepted.1, accepted.2, fails⟩
          · rintro ⟨tok', rest', limit', -, -, fails⟩
            rw [limit_] at limit'
            cases limit'
            exact fails

/-! ### The query -/

omit printable in
theorem raises_bind {α β : Type} {result : Except Failure α} {next : α → Except Failure β} :
    Raises (result >>= next) ↔ Raises result ∨ ∃ value, result = .ok value ∧ Raises (next value) := by
  cases result with
  | error failure =>
      constructor
      · intro raises
        exact .inl ((raises_passed rfl).mp raises)
      · rintro (raises | ⟨_, same, -⟩)
        · exact (raises_passed rfl).mpr raises
        · cases same
  | ok value =>
      constructor
      · intro raises
        exact .inr ⟨value, rfl, raises⟩
      · rintro (raises | ⟨_, same, raises⟩)
        · exact absurd raises (not_raises_ok value)
        · cases same
          exact raises

theorem raises_parseTokens (tokens : List Token) :
    Raises (parseTokens printable tokens) ↔ ∃ c, Reached printable tokens c ∧ ¬ c.Works := by
  constructor
  · intro raises
    rcases raises_bind.mp raises with raises | ⟨⟨fields, from_⟩, select, raises⟩
    · exact absurd raises (raises_selectClause printable tokens)
    rcases raises_bind.mp raises with raises | ⟨where_, fromRead, raises⟩
    · exact absurd raises (raises_fromClause from_)
    rcases raises_bind.mp raises with raises | ⟨⟨cs, order⟩, whereRead, raises⟩
    · obtain ⟨rest, c, found, literal_, fails⟩ := (raises_whereClause printable where_).mp raises
      exact ⟨c, .literal select fromRead found literal_, fails⟩
    rcases raises_bind.mp raises with raises | ⟨⟨keys, limit_⟩, orderRead, raises⟩
    · exact absurd raises (raises_orderClause printable order)
    rcases raises_bind.mp raises with raises | ⟨⟨limit, rest⟩, -, raises⟩
    · obtain ⟨tok, rest, found, number, digits, fails⟩ := (raises_limitClause limit_).mp raises
      exact ⟨.limit tok.text, .limit select fromRead whereRead orderRead found number digits, fails⟩
    -- after the clauses only a token that is left over may be refused
    · cases rest with
      | nil => exact absurd raises (not_raises_ok _)
      | cons leftover more => exact absurd raises (not_raises_soqlError _ _)
  · rintro ⟨c, reached, fails⟩
    refine raises_bind.mpr (.inr ?_)
    cases reached with
    | literal select fromRead found literal_ =>
        refine ⟨_, select, raises_bind.mpr (.inr ⟨_, fromRead, raises_bind.mpr (.inl ?_)⟩)⟩
        exact (raises_whereClause printable _).mpr ⟨_, c, found, literal_, fails⟩
    | limit select fromRead whereRead orderRead found number digits =>
        refine ⟨_, select, raises_bind.mpr (.inr ⟨_, fromRead, raises_bind.mpr (.inr ⟨_, whereRead,
          raises_bind.mpr (.inr ⟨_, orderRead, raises_bind.mpr (.inl ?_)⟩)⟩)⟩)⟩
        exact (raises_limitClause _).mpr ⟨_, _, found, number, digits, fails⟩

theorem not_raises_tokenizeFrom (pos skip : Nat) (cs : List Char) : ¬ Raises (tokenizeFrom printable pos skip cs) := by
  fun_induction tokenizeFrom printable pos skip cs with
  | case1 => exact not_raises_ok _
  | case2 pos skip c cs ih => exact ih
  | case3 => exact not_raises_soqlError _ _
  | case4 pos c cs text found ih => exact ih
  | case5 pos c cs kind text found failure failed ih => exact not_raises_passed ih failed
  | case6 => exact not_raises_ok _

theorem raises_parse (soql : String) :
    Raises (parse printable soql) ↔
      ∃ tokens c, tokenize printable soql = .ok tokens ∧ Reached printable tokens c ∧ ¬ c.Works := by
  have quiet : ¬ Raises (tokenize printable soql) := not_raises_tokenizeFrom printable 0 0 soql.toList
  rw [parse, raises_bind, or_iff_right quiet]
  constructor
  · rintro ⟨tokens, read, raises⟩
    obtain ⟨c, reached, fails⟩ := (raises_parseTokens printable tokens).mp raises
    exact ⟨tokens, c, read, reached, fails⟩
  · rintro ⟨tokens, c, read, reached, fails⟩
    exact ⟨tokens, read, (raises_parseTokens printable tokens).mpr ⟨c, reached, fails⟩⟩

omit printable in
/-- A result without an exception of its own is a value or a `SoqlError`. -/
theorem answered_iff {α : Type} (result : Except Failure α) :
    ((∃ value, result = .ok value) ∨ ∃ code message, result = .error (.soqlError code message)) ↔ ¬ Raises result := by
  constructor
  · rintro (⟨value, rfl⟩ | ⟨code, message, rfl⟩)
    · exact not_raises_ok value
    · exact not_raises_soqlError code message
  · intro quiet
    cases result with
    | ok value => exact .inl ⟨value, rfl⟩
    | error failure =>
        cases failure with
        | soqlError code message => exact .inr ⟨code, message, rfl⟩
        | raised exc => exact absurd ⟨exc, rfl⟩ quiet

/-- A text gets a query or a `SoqlError` exactly when every literal that the parser comes to denotes a
value. -/
theorem parse_answers_iff (soql : String) :
    ((∃ q, parse printable soql = .ok q) ∨
      ∃ code message, parse printable soql = .error (.soqlError code message)) ↔
    ∀ tokens, tokenize printable soql = .ok tokens → ∀ c, Reached printable tokens c → c.Works := by
  rw [answered_iff, raises_parse]
  constructor
  · intro quiet tokens read c reached
    by_contra fails
    exact quiet ⟨tokens, c, read, reached, fails⟩
  · rintro works ⟨tokens, c, read, reached, fails⟩
    exact fails (works tokens read c reached)

omit printable in
/-- A day that no month has. -/
theorem parse_raises_date : ¬ ((∃ q,
      parse (fun _ => true) "SELECT Id FROM Opportunity WHERE CloseDate = 2026-13-45" = .ok q) ∨
    ∃ code message, parse (fun _ => true) "SELECT Id FROM Opportunity WHERE CloseDate = 2026-13-45" =
      .error (.soqlError code message)) := by
  have raised : parse (fun _ => true) "SELECT Id FROM Opportunity WHERE CloseDate = 2026-13-45" =
      .error (.raised (valueError "month must be in 1..12")) := by
    with_unfolding_all rfl
  exact fun answers => (answered_iff _).mp answers ⟨_, raised⟩

end Parser

end Relay.FakeSalesforce
