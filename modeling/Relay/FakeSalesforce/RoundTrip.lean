import Relay.FakeSalesforce.Literals

/-!
Parsing a printed query.

`parse_print` says what comes back: the query with its strings read again. That is
the query itself exactly when no string has a backslash (`parse_print_iff`), for a
limit that `int` converts.
-/

namespace Relay.FakeSalesforce

open Relay.Python

variable (printable : Char → Bool)

/-! ### The query that comes back -/

def Test.reread {t : FieldType} : Test t → Test t
  | compare op value => .compare op (value.map (FakeSalesforce.reread t))
  | isIn values => .isIn (values.map doubled)

def Condition.reread (c : Condition) : Condition := ⟨c.field, c.test.reread⟩

def Query.reread (q : Query) : Query := { q with conditions := q.conditions.map Condition.reread }

/-! ### Words -/

theorem keyword_word (text : String) (capitals : upper text.toList = text.toList) (rest : List Token) :
    keyword text (word text :: rest) = some rest := by
  rw [keyword, if_pos ⟨rfl, capitals⟩]

theorem keyword_other {text other : String} (differs : upper other.toList ≠ text.toList) (rest : List Token) :
    keyword text (word other :: rest) = none := by
  rw [keyword, if_neg fun both => differs both.2]

theorem keyword_kind {text : String} {tok : Token} (kind : tok.kind ≠ .ident) (rest : List Token) :
    keyword text (tok :: rest) = none := by
  rw [keyword, if_neg fun both => kind both.1]

theorem fieldOf_apiName (f : Field) : fieldOf printable (word f.apiName) = .ok f := by
  cases f <;> with_unfolding_all rfl

theorem field_apiName (f : Field) (rest : List Token) : field printable (word f.apiName :: rest) = .ok (f, rest) := by
  rw [field, fieldOf_apiName printable]
  rfl

/-- The next token is no comma. -/
def NoComma (tokens : List Token) : Prop := ∀ tok rest, tokens = tok :: rest → tok.text ≠ [',']

/-! ### Lists -/

theorem selected_separated {fields : List Field} (ne : fields ≠ []) {rest : List Token} (stop : NoComma rest) :
    selected printable (separated comma fieldTokens fields ++ rest) = .ok (fields, rest) := by
  fun_induction separated comma fieldTokens fields with
  | case1 => exact absurd rfl ne
  | case2 f =>
      cases rest with
      | nil => simp [fieldTokens, selected, fieldOf_apiName]
      | cons tok more => simp [fieldTokens, selected, fieldOf_apiName, stop tok more rfl]
  | case3 f f' fs ih =>
      have later := ih (List.cons_ne_nil _ _)
      have sep : comma.text = [','] := rfl
      simp [fieldTokens, selected, fieldOf_apiName, later, sep]

theorem literal_stringToken (name : String) {t : FieldType} (isText : t.isText = true) (text : String) :
    ∃ value, literal name t (stringToken text) = .ok value ∧ asText t value = some (doubled text) := by
  have read := quotedText_stringToken name text
  cases t with
  | id => exact ⟨_, read, rfl⟩
  | string => exact ⟨_, read, rfl⟩
  | picklist => exact ⟨_, read, rfl⟩
  | currency => cases isText
  | date => cases isText
  | boolean => cases isText
  | datetime => cases isText

theorem inValues_separated (name : String) {t : FieldType} (isText : t.isText = true) {values : List String}
    (ne : values ≠ []) (rest : List Token) :
    inValues name t (separated comma (fun text => [stringToken text]) values ++ ⟨.punct, [')']⟩ :: rest) =
      .ok (values.map doubled, rest) := by
  fun_induction separated comma (fun text => [stringToken text]) values with
  | case1 => exact absurd rfl ne
  | case2 text =>
      obtain ⟨value, read, text_⟩ := literal_stringToken name isText text
      simp [inValues, read, text_]
  | case3 text text' texts ih =>
      have later := ih (List.cons_ne_nil _ _)
      obtain ⟨value, read, text_⟩ := literal_stringToken name isText text
      have sep : comma.text = [','] := rfl
      simp [inValues, read, text_, later, sep]

/-! ### Conditions -/

theorem comparisonOf_text (op : Comparison) : comparisonOf op.text = op := by
  cases op <;> rfl

theorem test_testTokens (f : Field) {test_ : Test f.ftype} (has : test_.HasText) (rest : List Token) :
    test printable f (testTokens test_ ++ rest) = .ok (⟨f, test_.reread⟩, rest) := by
  cases test_ with
  | compare op value =>
      have noIn : keyword "IN" (⟨.op, op.text⟩ :: literalToken f.ftype value :: rest) = none :=
        keyword_kind (by simp) _
      simp only [testTokens, List.cons_append, List.nil_append, test, noIn, literal_literalToken f.apiName has,
        comparisonOf_text]
      rfl
  | isIn values =>
      have in_ := keyword_word "IN" (by with_unfolding_all rfl)
        (⟨.punct, ['(']⟩ :: (separated comma (fun text => [stringToken text]) values ++ ⟨.punct, [')']⟩ :: rest))
      simp only [testTokens, List.cons_append, List.append_assoc, List.nil_append, test, in_,
        inValues_separated f.apiName has.1 has.2]
      rfl

theorem condition_conditionTokens {c : Condition} (has : c.test.HasText) (rest : List Token) :
    condition printable (conditionTokens c ++ rest) = .ok (c.reread, rest) := by
  rw [condition, conditionTokens, List.cons_append, field_apiName printable]
  exact test_testTokens printable c.field has rest

theorem conditions_separated {cs : List Condition} (ne : cs ≠ []) (has : ∀ c ∈ cs, c.test.HasText)
    {rest : List Token} (stop : keyword "AND" rest = none) :
    conditions printable (separated (word "AND") conditionTokens cs ++ rest) = .ok (cs.map Condition.reread, rest) := by
  fun_induction separated (word "AND") conditionTokens cs with
  | case1 => exact absurd rfl ne
  | case2 c => exact conditions_last printable (condition_conditionTokens printable (has c List.mem_cons_self) rest) stop
  | case3 c c' cs ih =>
      have later := ih (List.cons_ne_nil _ _) fun d mem => has d (List.mem_cons_of_mem _ mem)
      have and_ := keyword_word "AND" (by with_unfolding_all rfl)
        (separated (word "AND") conditionTokens (c' :: cs) ++ rest)
      rw [List.append_assoc, List.cons_append,
        conditions_and printable (condition_conditionTokens printable (has c List.mem_cons_self) _) and_, later]
      rfl

/-! ### Keys -/

theorem direction_key (descending : Bool) (rest : List Token) :
    direction (word (if descending then "DESC" else "ASC") :: rest) = (descending, rest) := by
  cases descending with
  | true =>
      have desc := keyword_word "DESC" (by with_unfolding_all rfl) rest
      simp [direction, desc]
  | false =>
      have asc := keyword_word "ASC" (by with_unfolding_all rfl) rest
      have noDesc : keyword "DESC" (word "ASC" :: rest) = none :=
        keyword_other (by with_unfolding_all decide) rest
      simp [direction, asc, noDesc]

theorem orderKeys_last {tokens rest last : List Token} {f : Field} {descending : Bool}
    (read : field printable tokens = .ok (f, rest)) (direct : direction rest = (descending, last))
    (stop : NoComma last) : orderKeys printable tokens = .ok ([⟨f, descending⟩], last) := by
  rw [orderKeys]
  split
  · rename_i failed
    rw [read] at failed
    cases failed
  · rename_i found
    rw [read] at found
    cases found
    split
    · rename_i sep more after
      rw [direct] at after
      rw [if_neg (stop sep more after), direct, ← after]
    · rename_i after
      rw [direct] at after
      rw [direct, ← after]

theorem orderKeys_comma {tokens rest last : List Token} {f : Field} {descending : Bool} {sep : Token}
    (read : field printable tokens = .ok (f, rest)) (direct : direction rest = (descending, sep :: last))
    (comma_ : sep.text = [',']) :
    orderKeys printable tokens = (orderKeys printable last).map fun found => (⟨f, descending⟩ :: found.1, found.2) := by
  rw [orderKeys]
  split
  · rename_i failed
    rw [read] at failed
    cases failed
  · rename_i found
    rw [read] at found
    cases found
    split
    · rename_i sep' more after
      rw [direct] at after
      cases after
      rw [if_pos comma_, direct]
      cases orderKeys printable last <;> rfl
    · rename_i after
      rw [direct] at after
      cases after

theorem orderKeys_separated {keys : List OrderBy} (ne : keys ≠ []) {rest : List Token} (stop : NoComma rest) :
    orderKeys printable (separated comma keyTokens keys ++ rest) = .ok (keys, rest) := by
  fun_induction separated comma keyTokens keys with
  | case1 => exact absurd rfl ne
  | case2 key => exact orderKeys_last printable (field_apiName printable key.field _) (direction_key key.descending rest) stop
  | case3 key key' keys ih =>
      have later := ih (List.cons_ne_nil _ _)
      have direct := direction_key key.descending (comma :: (separated comma keyTokens (key' :: keys) ++ rest))
      rw [List.append_assoc]
      refine (orderKeys_comma printable (field_apiName printable key.field _) direct rfl).trans ?_
      rw [later]
      rfl

/-! ### The clauses -/

theorem limitClause_limitTokens (limit : Option Nat) :
    limitClause (limitTokens limit) =
      match limit with
      | none => .ok (none, [])
      | some n => (raise (intOf (Nat.toDigits 10 n))).map fun n => (some n, []) := by
  cases limit with
  | none => rfl
  | some n =>
      have digits : (Nat.toDigits 10 n).all isDecimal = true :=
        List.all_eq_true.mpr fun c mem => isDecimal_of_isDigit (toDigits_digits n c mem)
      have limit_ := keyword_word "LIMIT" (by with_unfolding_all rfl) [⟨.number, Nat.toDigits 10 n⟩]
      simp [limitTokens, limitClause, limit_, next, digits]

/-- Nothing, or one of the last two clauses. -/
def Closing (tokens : List Token) : Prop :=
  tokens = [] ∨ ∃ text rest, text ∈ ["ORDER", "LIMIT"] ∧ tokens = word text :: rest

theorem closing_limitTokens (limit : Option Nat) : Closing (limitTokens limit) := by
  cases limit with
  | none => exact .inl rfl
  | some n => exact .inr ⟨"LIMIT", _, by simp, rfl⟩

theorem closing_append (orderBy : List OrderBy) (limit : Option Nat) :
    Closing (orderTokens orderBy ++ limitTokens limit) := by
  unfold orderTokens
  split
  · exact closing_limitTokens limit
  · exact .inr ⟨"ORDER", _, by simp, rfl⟩

theorem Closing.noComma {tokens : List Token} (closing : Closing tokens) : NoComma tokens := by
  rintro tok rest same
  rcases closing with none | ⟨text, rest', known, shape⟩
  · rw [none] at same
    cases same
  · rw [shape] at same
    cases same
    simp only [List.mem_cons, List.not_mem_nil, or_false] at known
    rcases known with rfl | rfl <;> with_unfolding_all decide

/-- The words of the earlier clauses do not come again. -/
theorem Closing.keyword {tokens : List Token} (closing : Closing tokens) {text : String}
    (earlier : text ∈ ["WHERE", "AND"]) : keyword text tokens = none := by
  rcases closing with rfl | ⟨other, rest, known, rfl⟩
  · rfl
  · simp only [List.mem_cons, List.not_mem_nil, or_false] at known earlier
    rcases known with rfl | rfl <;> rcases earlier with rfl | rfl <;>
      exact keyword_other (by with_unfolding_all decide) rest

theorem Closing.noOr {tokens : List Token} (closing : Closing tokens) :
    tokens.head?.map (fun tok => upper tok.text) ≠ some "OR".toList := by
  rcases closing with rfl | ⟨other, rest, known, rfl⟩
  · rintro ⟨⟩
  · simp only [List.mem_cons, List.not_mem_nil, or_false] at known
    rcases known with rfl | rfl <;> exact fun same => absurd (Option.some.inj same) (by with_unfolding_all decide)

theorem whereClause_whereTokens {conditions_ : List Condition} (has : ∀ c ∈ conditions_, c.test.HasText)
    {rest : List Token} (closing : Closing rest) :
    whereClause printable (whereTokens conditions_ ++ rest) = .ok (conditions_.map Condition.reread, rest) := by
  unfold whereTokens
  split
  · rename_i none
    subst none
    rw [List.nil_append, whereClause, closing.keyword (by simp)]
    rfl
  · rename_i some_
    have where_ := keyword_word "WHERE" (by with_unfolding_all rfl)
      (separated (word "AND") conditionTokens conditions_ ++ rest)
    have read := conditions_separated printable some_ has (closing.keyword (by simp))
    rw [List.cons_append, whereClause, where_]
    simp only [read, if_neg closing.noOr]

theorem orderClause_orderTokens (orderBy : List OrderBy) (limit : Option Nat) :
    orderClause printable (orderTokens orderBy ++ limitTokens limit) = .ok (orderBy, limitTokens limit) := by
  unfold orderTokens
  split
  · rename_i none
    subst none
    have noOrder : keyword "ORDER" (limitTokens limit) = none := by
      cases limit with
      | none => rfl
      | some n => exact keyword_other (by with_unfolding_all decide) _
    rw [List.nil_append, orderClause, noOrder]
  · rename_i some_
    have order := keyword_word "ORDER" (by with_unfolding_all rfl)
      (word "BY" :: (separated comma keyTokens orderBy ++ limitTokens limit))
    have by_ := keyword_word "BY" (by with_unfolding_all rfl) (separated comma keyTokens orderBy ++ limitTokens limit)
    have read := orderKeys_separated printable some_ (closing_limitTokens limit).noComma
    rw [List.cons_append, List.cons_append, orderClause, order]
    simp only [expectKeyword, by_, read]

theorem fromClause_word (rest : List Token) :
    fromClause (word "FROM" :: word "Opportunity" :: rest) = .ok rest := by
  have from_ := keyword_word "FROM" (by with_unfolding_all rfl) (word "Opportunity" :: rest)
  have name : lower (word "Opportunity").text = "opportunity".toList := by with_unfolding_all rfl
  simp [fromClause, expectKeyword, from_, next, name]

/-! ### The query -/

/-- What the tokens of a query are read as, its limit apart. -/
theorem parseTokens_queryTokens {q : Query} (has : q.HasText) :
    parseTokens printable (queryTokens q) =
      (limitClause (limitTokens q.limit)).map fun found => { q.reread with limit := found.1 } := by
  have select := keyword_word "SELECT" (by with_unfolding_all rfl) (separated comma fieldTokens q.fields ++
    word "FROM" :: word q.sobject :: (whereTokens q.conditions ++ (orderTokens q.orderBy ++ limitTokens q.limit)))
  have from_ : NoComma (word "FROM" :: word q.sobject ::
      (whereTokens q.conditions ++ (orderTokens q.orderBy ++ limitTokens q.limit))) := by
    rintro tok rest same
    cases same
    with_unfolding_all decide
  have fields := selected_separated printable has.fields from_
  have name : fromClause (word "FROM" :: word q.sobject ::
      (whereTokens q.conditions ++ (orderTokens q.orderBy ++ limitTokens q.limit))) =
        .ok (whereTokens q.conditions ++ (orderTokens q.orderBy ++ limitTokens q.limit)) := by
    rw [has.sobject]
    exact fromClause_word _
  have conditions_ := whereClause_whereTokens printable has.conditions (closing_append q.orderBy q.limit)
  have keys := orderClause_orderTokens printable q.orderBy q.limit
  simp only [parseTokens, queryTokens, selectClause, expectKeyword, select, fields, bind, Except.bind]
  simp only [name, conditions_, keys]
  rw [limitClause_limitTokens]
  have sobject := has.sobject
  cases limit_ : q.limit with
  | none => simp [Except.map, Query.reread, limit_, sobject]
  | some n =>
      cases converted : intOf (Nat.toDigits 10 n) with
      | error exc => simp [converted, raise, Except.map]
      | ok value => simp [converted, raise, Except.map, Query.reread, sobject]

/-- The texts of a query's conditions. -/
def Test.texts {t : FieldType} : Test t → List String
  | compare _ value => (asText t value).toList
  | isIn values => values

def Query.texts (q : Query) : List String := q.conditions.flatMap fun c => c.test.texts

theorem Test.reread_eq_iff {t : FieldType} (test : Test t) :
    test.reread = test ↔ ∀ text ∈ test.texts, '\\' ∉ text.toList := by
  cases test with
  | compare op value =>
      have same : value.map (FakeSalesforce.reread t) = value ↔
          ∀ text ∈ (asText t value).toList, '\\' ∉ text.toList := by
        cases value with
        | none => cases t <;> simp [asText]
        | some v => cases t <;> simp [asText, FakeSalesforce.reread, doubled_eq_iff]
      rw [Test.reread, Test.compare.injEq, Test.texts, ← same]
      exact ⟨And.right, fun same => ⟨rfl, same⟩⟩
  | isIn values =>
      rw [Test.reread, Test.isIn.injEq, Test.texts]
      induction values with
      | nil => simp
      | cons text rest ih => simp [doubled_eq_iff, ih]

theorem Query.reread_eq_iff (q : Query) : q.reread = q ↔ ∀ text ∈ q.texts, '\\' ∉ text.toList := by
  obtain ⟨fields, sobject, cs, orderBy, limit⟩ := q
  simp only [Query.reread, Query.texts, Query.mk.injEq, true_and, and_true]
  induction cs with
  | nil => simp
  | cons c rest ih =>
      have first : c.reread = c ↔ ∀ text ∈ c.test.texts, '\\' ∉ text.toList := by
        rw [← Test.reread_eq_iff]
        obtain ⟨f, test_⟩ := c
        simp [Condition.reread]
      rw [List.map_cons, List.cons.injEq, first, ih, List.flatMap_cons, List.forall_mem_append]

/-- A printed query is read as itself with its texts read again, if its limit is read. -/
theorem parse_print {q : Query} (has : q.HasText) :
    parse printable (print q) =
      (limitClause (limitTokens q.limit)).map fun found => { q.reread with limit := found.1 } := by
  rw [parse, tokenize_print printable has]
  exact parseTokens_queryTokens printable has

/-- A query without a limit and without a backslash in its texts. -/
theorem parse_print_plain {q : Query} (has : q.HasText) (plain : ∀ text ∈ q.texts, '\\' ∉ text.toList)
    (limit : q.limit = none) : parse printable (print q) = .ok q := by
  have same : { q.reread with limit := none } = q := by
    rw [(Query.reread_eq_iff q).mpr plain, ← limit]
  rw [parse_print printable has, limit]
  exact congrArg Except.ok same

/-- **A printed query is read as itself exactly when** none of its texts has a backslash
and `int` converts its limit. -/
theorem parse_print_iff {q : Query} (has : q.HasText) :
    parse printable (print q) = .ok q ↔
      (∀ text ∈ q.texts, '\\' ∉ text.toList) ∧ ∀ n, q.limit = some n → n < 10 ^ maxStrDigits := by
  rw [parse_print printable has, ← Query.reread_eq_iff, limitClause_limitTokens]
  cases limit_ : q.limit with
  | none =>
      have same : { q.reread with limit := none } = q.reread := by rw [← limit_]; rfl
      simp [Except.map, same]
  | some n =>
      have same : { q.reread with limit := some n } = q.reread := by rw [← limit_]; rfl
      by_cases short : n < 10 ^ maxStrDigits
      · simp [intOf_eq short, raise, Except.map, same, short]
      · have refused : ¬ ∃ value, intOf (Nat.toDigits 10 n) = .ok value := (intOf_toDigits n).not.mpr short
        cases converted : intOf (Nat.toDigits 10 n) with
        | error exc => simp [converted, raise, Except.map, short]
        | ok value => exact absurd ⟨value, converted⟩ refused

/-- One deal by its name. -/
def named (name : String) : Query := ⟨[.id], "Opportunity", [⟨.name, .compare .eq (some name)⟩], [], some 1⟩

theorem named_hasText (name : String) : (named name).HasText where
  fields := List.cons_ne_nil _ _
  sobject := rfl
  conditions := by
    intro c mem
    rw [List.mem_singleton.mp mem]
    exact fun _ _ => trivial

theorem parse_print_quote :
    parse (fun _ => true) (print (named "O'Brien")) = .ok (named "O'Brien") := by
  refine (parse_print_iff (fun _ => true) (named_hasText "O'Brien")).mpr ⟨?_, ?_⟩
  · with_unfolding_all decide
  · rintro n ⟨⟩
    exact Nat.one_lt_pow (by simp [maxStrDigits]) (by omega)

/-- A name that is one backslash comes back as two. -/
theorem parse_print_backslash :
    (named "\\").HasText ∧ parse (fun _ => true) (print (named "\\")) ≠ .ok (named "\\") := by
  refine ⟨named_hasText "\\", ?_⟩
  rw [parse_print (fun _ => true) (named_hasText "\\"), limitClause_limitTokens]
  have one : (1 : Nat) < 10 ^ maxStrDigits := Nat.one_lt_pow (by simp [maxStrDigits]) (by omega)
  intro same
  simp only [named, intOf_eq one, raise, Except.map, Except.ok.injEq] at same
  have changed : (named "\\").reread = named "\\" := same
  rw [Query.reread_eq_iff] at changed
  exact changed "\\" (by with_unfolding_all decide) (by with_unfolding_all decide)

end Relay.FakeSalesforce
