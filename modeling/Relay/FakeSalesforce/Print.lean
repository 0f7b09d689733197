import Relay.FakeSalesforce.Lexemes
import Relay.FakeSalesforce.Soql
import Relay.Reconciler.Stamps

/-!
A query's text.

`print` writes every part of a query in one way: strings in quotes with backslash
and quote escaped, dates and datetimes as they are, decimals without an exponent
and the direction of every key. It is not part of the source, which writes its
queries by hand.
-/

namespace Relay.FakeSalesforce

open Relay.Python Relay.Calendar

/-! ### Literals -/

/-- A decimal with its digits after the point, none if the exponent is zero. -/
def plain (d : Dec) : List Char :=
  (if d.neg then ['-'] else []) ++ (Nat.toDigits 10 (d.coeff / 10 ^ (-d.exp).toNat) ++
    if d.exp = 0 then [] else '.' :: fixed (-d.exp).toNat d.coeff)

def datetimeText (us : Int) : List Char :=
  let t := DateTime.ofSeconds (us / 1000000)
  dateText t.date.year.toNat t.date.month t.date.day ++
    clockText t.hour t.minute t.second (microsecond us / 1000)

def word (text : String) : Token := ⟨.ident, text.toList⟩

def comma : Token := ⟨.punct, [',']⟩

def stringToken (text : String) : Token := ⟨.string, '\'' :: (text.toList.flatMap escape ++ ['\''])⟩

def valueToken : (t : FieldType) → t.Val → Token
  | .id, text => stringToken text
  | .string, text => stringToken text
  | .picklist, text => stringToken text
  | .currency, d => ⟨.number, plain d⟩
  | .date, d => ⟨.date, dateText d.year.toNat d.month d.day⟩
  | .boolean, b => word (if b then "true" else "false")
  | .datetime, us => ⟨.datetime, datetimeText us⟩

def literalToken (t : FieldType) (value : Option t.Val) : Token := (value.map (valueToken t)).getD (word "null")

/-! ### Clauses -/

def Comparison.text : Comparison → List Char
  | eq => ['=']
  | ne => ['!', '=']
  | lt => ['<']
  | le => ['<', '=']
  | gt => ['>']
  | ge => ['>', '=']

/-- The tokens of some items with one token between them. -/
def separated {α : Type} (sep : Token) (one : α → List Token) : List α → List Token
  | [] => []
  | [a] => one a
  | a :: b :: rest => one a ++ sep :: separated sep one (b :: rest)

def fieldTokens (f : Field) : List Token := [word f.apiName]

def testTokens {t : FieldType} : Test t → List Token
  | .compare op value => [⟨.op, op.text⟩, literalToken t value]
  | .isIn values =>
      word "IN" :: ⟨.punct, ['(']⟩ :: (separated comma (fun text => [stringToken text]) values ++ [⟨.punct, [')']⟩])

def conditionTokens (c : Condition) : List Token := word c.field.apiName :: testTokens c.test

def keyTokens (key : OrderBy) : List Token :=
  [word key.field.apiName, word (if key.descending then "DESC" else "ASC")]

def whereTokens (conditions : List Condition) : List Token :=
  if conditions = [] then [] else word "WHERE" :: separated (word "AND") conditionTokens conditions

def orderTokens (orderBy : List OrderBy) : List Token :=
  if orderBy = [] then [] else word "ORDER" :: word "BY" :: separated comma keyTokens orderBy

def limitTokens : Option Nat → List Token
  | none => []
  | some n => [word "LIMIT", ⟨.number, Nat.toDigits 10 n⟩]

def queryTokens (q : Query) : List Token :=
  word "SELECT" :: (separated comma fieldTokens q.fields ++ word "FROM" :: word q.sobject ::
    (whereTokens q.conditions ++ (orderTokens q.orderBy ++ limitTokens q.limit)))

def print (q : Query) : String := String.ofList (render (queryTokens q))

/-! ### The queries that are printed -/

def FieldType.isText : FieldType → Bool
  | .id => true
  | .string => true
  | .picklist => true
  | _ => false

/-- A value with a literal: a decimal without an exponent, a date or a datetime of the
years 1 to 9999, the latter in milliseconds. -/
def HasLiteral : (t : FieldType) → t.Val → Prop
  | .currency, d => d.exp ≤ 0 ∧ d.fits = true
  | .date, d => d.Valid ∧ 1 ≤ d.year ∧ d.year ≤ 9999
  | .datetime, us => InRange us ∧ us % 1000 = 0
  | _, _ => True

def Test.HasText {t : FieldType} : Test t → Prop
  | .compare _ value => ∀ v, value = some v → HasLiteral t v
  | .isIn values => t.isText = true ∧ values ≠ []

/-- A query that SOQL can say. -/
structure Query.HasText (q : Query) : Prop where
  fields : q.fields ≠ []
  sobject : q.sobject = "Opportunity"
  conditions : ∀ c ∈ q.conditions, c.test.HasText

/-! ### Its tokens are lexemes -/

def isWord : List Char → Bool
  | c :: cs => isLetter c && cs.all isWordChar
  | [] => false

theorem lexeme_word {text : String} (known : isWord text.toList = true) : Lexeme (word text) := by
  unfold word
  cases shape : text.toList with
  | nil =>
      rw [shape] at known
      cases known
  | cons c cs =>
      rw [shape, isWord, Bool.and_eq_true] at known
      exact lexeme_ident known.1 (List.all_eq_true.mp known.2)

/-- The words that are no field. -/
def keywords : List String :=
  ["SELECT", "FROM", "Opportunity", "WHERE", "AND", "IN", "null", "true", "false", "ORDER", "BY", "ASC", "DESC", "LIMIT"]

theorem keywords_words : keywords.all (fun text => isWord text.toList) = true := by
  with_unfolding_all rfl

theorem lexeme_keyword {text : String} (known : text ∈ keywords) : Lexeme (word text) :=
  lexeme_word (List.all_eq_true.mp keywords_words text known)

theorem lexeme_apiName (f : Field) : Lexeme (word f.apiName) := by
  cases f <;> exact lexeme_word (by with_unfolding_all rfl)

theorem lexeme_stringToken (text : String) : Lexeme (stringToken text) := lexeme_string _

theorem toDigits_digits (n : Nat) : ∀ c ∈ Nat.toDigits 10 n, c.isDigit = true :=
  fun _ mem => Nat.isDigit_of_mem_toDigits (by omega) (by omega) mem

theorem lexeme_plain {d : Dec} (low : d.exp ≤ 0) : Lexeme ⟨.number, plain d⟩ := by
  refine lexeme_number d.neg Nat.toDigits_ne_nil (toDigits_digits _) ?_
  by_cases whole : d.exp = 0
  · exact .inl (if_pos whole)
  · have width : 0 < (-d.exp).toNat := by omega
    have some : fixed (-d.exp).toNat d.coeff ≠ [] := by
      intro none
      rw [← length_fixed (-d.exp).toNat d.coeff, none] at width
      exact Nat.lt_irrefl 0 width
    exact .inr ⟨_, if_neg whole, some, isDigit_fixed⟩

theorem lexeme_nat (n : Nat) : Lexeme ⟨.number, Nat.toDigits 10 n⟩ := by
  have number := lexeme_number false Nat.toDigits_ne_nil (toDigits_digits n) (.inl rfl)
  rwa [List.append_nil] at number

theorem lexeme_valueToken {t : FieldType} {v : t.Val} (has : HasLiteral t v) : Lexeme (valueToken t v) := by
  cases t with
  | id => exact lexeme_stringToken v
  | string => exact lexeme_stringToken v
  | picklist => exact lexeme_stringToken v
  | currency => exact lexeme_plain has.1
  | date => exact lexeme_date _ _ _
  | boolean => cases v <;> exact lexeme_keyword (by simp [keywords])
  | datetime => exact lexeme_datetime _ _ _ _ _ _ _

theorem lexeme_literalToken {t : FieldType} {value : Option t.Val} (has : ∀ v, value = some v → HasLiteral t v) :
    Lexeme (literalToken t value) := by
  cases value with
  | none => exact lexeme_keyword (by simp [keywords])
  | some v => exact lexeme_valueToken (has v rfl)

theorem mem_separated {α : Type} {sep : Token} {one : α → List Token} {items : List α} {tok : Token}
    (mem : tok ∈ separated sep one items) : tok = sep ∨ ∃ a ∈ items, tok ∈ one a := by
  fun_induction separated sep one items with
  | case1 => cases mem
  | case2 a => exact .inr ⟨a, List.mem_cons_self, mem⟩
  | case3 a b rest ih =>
      rcases List.mem_append.mp mem with first | later
      · exact .inr ⟨a, List.mem_cons_self, first⟩
      · rcases List.mem_cons.mp later with same | later
        · exact .inl same
        · rcases ih later with same | ⟨c, among, within⟩
          · exact .inl same
          · exact .inr ⟨c, List.mem_cons_of_mem _ among, within⟩

theorem lexeme_testTokens {t : FieldType} {test : Test t} (has : test.HasText) :
    ∀ tok ∈ testTokens test, Lexeme tok := by
  cases test with
  | compare op value =>
      intro tok mem
      simp only [testTokens, List.mem_cons, List.not_mem_nil, or_false] at mem
      rcases mem with rfl | rfl
      · cases op <;> exact lexeme_op (by simp [Comparison.text])
      · exact lexeme_literalToken has
  | isIn values =>
      intro tok mem
      simp only [testTokens, List.mem_cons, List.mem_append, List.not_mem_nil, or_false] at mem
      rcases mem with rfl | rfl | mem | rfl
      · exact lexeme_keyword (by simp [keywords])
      · exact lexeme_punct (by simp)
      · rcases mem_separated mem with rfl | ⟨text, -, within⟩
        · exact lexeme_punct (by simp)
        · rw [List.mem_singleton.mp within]
          exact lexeme_stringToken text
      · exact lexeme_punct (by simp)

theorem lexeme_whereTokens {conditions : List Condition} (has : ∀ c ∈ conditions, c.test.HasText) :
    ∀ tok ∈ whereTokens conditions, Lexeme tok := by
  intro tok mem
  unfold whereTokens at mem
  split at mem
  · cases mem
  · rcases List.mem_cons.mp mem with rfl | mem
    · exact lexeme_keyword (by simp [keywords])
    · rcases mem_separated mem with rfl | ⟨c, among, within⟩
      · exact lexeme_keyword (by simp [keywords])
      · rcases List.mem_cons.mp within with rfl | within
        · exact lexeme_apiName c.field
        · exact lexeme_testTokens (has c among) tok within

theorem lexeme_orderTokens (orderBy : List OrderBy) : ∀ tok ∈ orderTokens orderBy, Lexeme tok := by
  intro tok mem
  unfold orderTokens at mem
  split at mem
  · cases mem
  · rcases List.mem_cons.mp mem with rfl | mem
    · exact lexeme_keyword (by simp [keywords])
    · rcases List.mem_cons.mp mem with rfl | mem
      · exact lexeme_keyword (by simp [keywords])
      · rcases mem_separated mem with rfl | ⟨key, -, within⟩
        · exact lexeme_punct (by simp)
        · simp only [keyTokens, List.mem_cons, List.not_mem_nil, or_false] at within
          rcases within with rfl | rfl
          · exact lexeme_apiName key.field
          · split <;> exact lexeme_keyword (by simp [keywords])

theorem lexeme_limitTokens (limit : Option Nat) : ∀ tok ∈ limitTokens limit, Lexeme tok := by
  intro tok mem
  cases limit with
  | none => cases mem
  | some n =>
      simp only [limitTokens, List.mem_cons, List.not_mem_nil, or_false] at mem
      rcases mem with rfl | rfl
      · exact lexeme_keyword (by simp [keywords])
      · exact lexeme_nat n

theorem lexeme_queryTokens {q : Query} (has : q.HasText) : ∀ tok ∈ queryTokens q, Lexeme tok := by
  intro tok mem
  simp only [queryTokens, List.mem_cons, List.mem_append] at mem
  rcases mem with rfl | mem | rfl | rfl | mem | mem | mem
  · exact lexeme_keyword (by simp [keywords])
  · rcases mem_separated mem with rfl | ⟨f, -, within⟩
    · exact lexeme_punct (by simp)
    · rw [List.mem_singleton.mp within]
      exact lexeme_apiName f
  · exact lexeme_keyword (by simp [keywords])
  · rw [has.sobject]
    exact lexeme_keyword (by simp [keywords])
  · exact lexeme_whereTokens has.conditions tok mem
  · exact lexeme_orderTokens _ tok mem
  · exact lexeme_limitTokens _ tok mem

/-- The tokenizer reads the tokens of a query. -/
theorem tokenize_print (printable : Char → Bool) {q : Query} (has : q.HasText) :
    tokenize printable (print q) = .ok (queryTokens q) := by
  rw [tokenize, print, String.toList_ofList]
  exact tokenizeFrom_render printable (lexeme_queryTokens has) 0

end Relay.FakeSalesforce
