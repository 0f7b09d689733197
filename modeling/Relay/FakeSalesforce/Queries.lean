import Relay.FakeSalesforce.RoundTrip
import Relay.Salesforce.Soql

/-!
The queries of Relay, as the fake Salesforce reads them.

Each text that Relay builds is the printed text of a query, so that parsing it is
an instance of the round trip.
-/

namespace Relay.FakeSalesforce

open Relay.Python Relay.Calendar Relay.Salesforce

/-! ### Rendering -/

/-- A token that a space stands before. -/
def Apart (tok : Token) : Prop := tok.text ≠ [','] ∧ tok.text ≠ [')']

theorem render_apart (tok : Token) {following : Token} (rest : List Token) (opens : tok.text ≠ ['(']) (apart : Apart following) :
    render (tok :: following :: rest) = tok.text ++ ' ' :: render (following :: rest) := by
  rw [render, gap, if_neg (by simp [opens, apart.1, apart.2])]
  rfl

/-- A space stands between what is before a token and the token. -/
theorem render_append (front : List Token) (last : Token) {following : Token} (rest : List Token) (opens : last.text ≠ ['('])
    (apart : Apart following) :
    render (front ++ last :: following :: rest) = render (front ++ [last]) ++ ' ' :: render (following :: rest) := by
  induction front with
  | nil => exact render_apart last rest opens apart
  | cons tok front ih =>
      cases front with
      | nil =>
          rw [List.nil_append] at ih
          rw [List.cons_append, List.nil_append, render, ih, List.cons_append, List.nil_append, render]
          simp [render]
      | cons tok' front =>
          rw [List.cons_append, List.cons_append, render, ← List.cons_append, ih]
          simp [render]

/-! ### The lookup by Id -/

/-- The stages of some deals. -/
def stagesQuery (ids : List String) : Query :=
  ⟨[.id, .stageName, .isWon], "Opportunity", [⟨.id, .isIn ids⟩], [], none⟩

theorem stagesQuery_hasText {ids : List String} (ne : ids ≠ []) : (stagesQuery ids).HasText where
  fields := List.cons_ne_nil _ _
  sobject := rfl
  conditions := by
    intro c mem
    rw [List.mem_singleton.mp mem]
    exact ⟨rfl, ne⟩

/-- A text in quotes. -/
def quotedId (id : String) : String := "'" ++ id ++ "'"

theorem stringToken_text {text : String} (plain : ∀ c ∈ text.toList, c ≠ '\\' ∧ c ≠ '\'') :
    (stringToken text).text = (quotedId text).toList := by
  have kept : ∀ cs : List Char, (∀ c ∈ cs, c ≠ '\\' ∧ c ≠ '\'') → cs.flatMap escape = cs := by
    intro cs plain
    induction cs with
    | nil => rfl
    | cons c rest ih =>
        have first := plain c List.mem_cons_self
        rw [List.flatMap_cons, escape, if_neg (by simp [first]), ih fun d mem => plain d (List.mem_cons_of_mem _ mem)]
        rfl
  have quote : "'".toList = ['\''] := by with_unfolding_all rfl
  rw [stringToken, kept _ plain, quotedId, String.toList_append, String.toList_append, quote]
  rfl

theorem stringToken_apart (text : String) : Apart (stringToken text) := by
  constructor
  · intro same
    cases (List.cons.inj same).1
  · intro same
    cases (List.cons.inj same).1

theorem separated_values (id : String) (ids : List String) :
    ∃ more, separated comma (fun text => [stringToken text]) (id :: ids) = stringToken id :: more := by
  cases ids with
  | nil => exact ⟨[], rfl⟩
  | cons id' ids => exact ⟨_, rfl⟩

/-- The values of an `IN` list and its closing bracket. -/
theorem render_values {ids : List String} (ne : ids ≠ []) (plain : ∀ id ∈ ids, ∀ c ∈ id.toList, c ≠ '\\' ∧ c ≠ '\'') :
    render (separated comma (fun text => [stringToken text]) ids ++ [⟨.punct, [')']⟩]) =
      (", ".intercalate (ids.map quotedId) ++ ")").toList := by
  have bracket : ")".toList = [')'] := by with_unfolding_all rfl
  have sep : ", ".toList = [',', ' '] := by with_unfolding_all rfl
  fun_induction separated comma (fun text => [stringToken text]) ids with
  | case1 => exact absurd rfl ne
  | case2 id =>
      have text := stringToken_text (plain id List.mem_cons_self)
      simp [render, gap, text, bracket]
  | case3 id id' ids ih =>
      have text := stringToken_text (plain id List.mem_cons_self)
      have later := ih (List.cons_ne_nil _ _) fun other mem => plain other (List.mem_cons_of_mem _ mem)
      obtain ⟨more, values⟩ := separated_values id' ids
      have spaced := render_apart comma (more ++ [⟨.punct, [')']⟩]) (by simp [comma]) (stringToken_apart id')
      have closed : gap (stringToken id) comma = [] := if_pos (.inr (.inl rfl))
      rw [values, List.cons_append] at later
      rw [values]
      simp only [List.cons_append, List.nil_append]
      rw [render, closed, spaced, later, text]
      simp [String.intercalate_cons_cons, sep, comma]

/-- What stands before the values. -/
def stagesFront : List Token :=
  [word "SELECT", word "Id", comma, word "StageName", comma, word "IsWon", word "FROM", word "Opportunity",
    word "WHERE", word "Id", word "IN", ⟨.punct, ['(']⟩]

theorem queryTokens_stagesQuery (ids : List String) :
    queryTokens (stagesQuery ids) =
      stagesFront ++ (separated comma (fun text => [stringToken text]) ids ++ [⟨.punct, [')']⟩]) := by
  simp only [queryTokens, stagesQuery, separated, fieldTokens, whereTokens, conditionTokens, testTokens, orderTokens,
    limitTokens, Field.apiName, List.cons_ne_nil, if_false, if_true, List.cons_append, List.nil_append,
    List.append_nil, stagesFront]

theorem render_stagesFront (tok : Token) (rest : List Token) :
    render (stagesFront ++ tok :: rest) =
      "SELECT Id, StageName, IsWon FROM Opportunity WHERE Id IN (".toList ++ render (tok :: rest) := by
  with_unfolding_all rfl

theorem text_stages (ids : List String) :
    (Soql.stages ids).text =
      "SELECT Id, StageName, IsWon FROM Opportunity WHERE Id IN (" ++ (", ".intercalate (ids.map quotedId) ++ ")") :=
  String.append_assoc ..

/-- **The lookup's text is that of its query**, for ids without a quote or a backslash. -/
theorem print_stagesQuery {ids : List String} (ne : ids ≠ [])
    (plain : ∀ id ∈ ids, ∀ c ∈ id.toList, c ≠ '\\' ∧ c ≠ '\'') : print (stagesQuery ids) = (Soql.stages ids).text := by
  have values := render_values ne plain
  obtain ⟨id, more, rfl⟩ := List.exists_cons_of_ne_nil ne
  obtain ⟨rest, shape⟩ := separated_values id more
  rw [shape, List.cons_append] at values
  have rendered : render (queryTokens (stagesQuery (id :: more))) = (Soql.stages (id :: more)).text.toList := by
    rw [queryTokens_stagesQuery, shape, List.cons_append, render_stagesFront, values, text_stages]
    simp only [String.toList_append]
  rw [print, rendered, String.ofList_toList]

/-! ### The poll window -/

/-- The won deals of a window of microseconds. -/
def windowQuery (low high : Int) : Query where
  fields := [.id, .name, .accountId, .accountDotName, .amount, .closeDate, .stageName, .systemModstamp]
  sobject := "Opportunity"
  conditions := [⟨.isWon, .compare .eq (some true)⟩, ⟨.systemModstamp, .compare .ge (some low)⟩,
    ⟨.systemModstamp, .compare .lt (some high)⟩]
  orderBy := [⟨.systemModstamp, false⟩, ⟨.id, false⟩]
  limit := none

theorem windowQuery_hasText {low high : Int} (from_ : InRange low ∧ low % 1000 = 0)
    (upper : InRange high ∧ high % 1000 = 0) : (windowQuery low high).HasText where
  fields := List.cons_ne_nil _ _
  sobject := rfl
  conditions := by
    intro c mem
    simp only [windowQuery, List.mem_cons, List.not_mem_nil, or_false] at mem
    rcases mem with rfl | rfl | rfl
    · exact fun _ _ => trivial
    · rintro v ⟨⟩
      exact from_
    · rintro v ⟨⟩
      exact upper

def datetimeToken (us : Int) : Token := ⟨.datetime, datetimeText us⟩

theorem datetimeToken_long (us : Int) (c : Char) : (datetimeToken us).text ≠ [c] := by
  intro same
  have length := congrArg List.length same
  simp only [datetimeToken, datetimeText, dateText, List.length_append, List.length_cons, length_fixed,
    List.length_nil] at length
  omega

theorem datetimeToken_apart (us : Int) : Apart (datetimeToken us) :=
  ⟨datetimeToken_long us ',', datetimeToken_long us ')'⟩

theorem word_apart {text : String} (known : isWord text.toList = true) : Apart (word text) := by
  constructor
  · intro same
    rw [show text.toList = [','] from same] at known
    cases known
  · intro same
    rw [show text.toList = [')'] from same] at known
    cases known

/-- What stands before the first literal, between the two and after the second. -/
def windowFront : List Token :=
  [word "SELECT", word "Id", comma, word "Name", comma, word "AccountId", comma, word "Account.Name", comma,
    word "Amount", comma, word "CloseDate", comma, word "StageName", comma, word "SystemModstamp", word "FROM",
    word "Opportunity", word "WHERE", word "IsWon", ⟨.op, ['=']⟩, word "true", word "AND", word "SystemModstamp"]

def windowBack : List Token :=
  [word "BY", word "SystemModstamp", word "ASC", comma, word "Id", word "ASC"]

theorem queryTokens_windowQuery (low high : Int) :
    queryTokens (windowQuery low high) =
      windowFront ++ ⟨.op, ['>', '=']⟩ :: datetimeToken low :: word "AND" :: ([word "SystemModstamp"] ++
        ⟨.op, ['<']⟩ :: datetimeToken high :: word "ORDER" :: windowBack) := rfl

set_option maxRecDepth 4000 in
theorem render_windowFront :
    render (windowFront ++ [⟨.op, ['>', '=']⟩]) = wonFields.toList ++ " AND SystemModstamp >=".toList := by
  with_unfolding_all rfl

theorem render_queryTokens_windowQuery (low high : Int) :
    render (queryTokens (windowQuery low high)) =
      wonFields.toList ++ " AND SystemModstamp >=".toList ++ ' ' :: (datetimeText low ++
        " AND SystemModstamp <".toList ++ ' ' :: (datetimeText high ++
          " ORDER BY SystemModstamp ASC, Id ASC".toList)) := by
  have and_ : Apart (word "AND") := word_apart (by with_unfolding_all rfl)
  have order : Apart (word "ORDER") := word_apart (by with_unfolding_all rfl)
  have middle : ' ' :: render ([word "AND", word "SystemModstamp"] ++ [⟨.op, ['<']⟩]) =
      " AND SystemModstamp <".toList := by
    with_unfolding_all rfl
  have back : ' ' :: render (word "ORDER" :: windowBack) = " ORDER BY SystemModstamp ASC, Id ASC".toList := by
    with_unfolding_all rfl
  have later := render_append [word "AND", word "SystemModstamp"] ⟨.op, ['<']⟩ (word "ORDER" :: windowBack)
    (by simp) (datetimeToken_apart high)
  have last := render_apart (datetimeToken high) windowBack (datetimeToken_long high '(') order
  have first := render_append windowFront ⟨.op, ['>', '=']⟩ (word "AND" :: ([word "SystemModstamp"] ++
    ⟨.op, ['<']⟩ :: datetimeToken high :: word "ORDER" :: windowBack)) (by simp) (datetimeToken_apart low)
  have between := render_apart (datetimeToken low) ([word "SystemModstamp"] ++
    ⟨.op, ['<']⟩ :: datetimeToken high :: word "ORDER" :: windowBack) (datetimeToken_long low '(') and_
  have low_ : (datetimeToken low).text = datetimeText low := rfl
  have high_ : (datetimeToken high).text = datetimeText high := rfl
  simp only [List.cons_append, List.nil_append] at first between later middle
  rw [queryTokens_windowQuery]
  simp only [List.cons_append, List.nil_append]
  rw [first, render_windowFront, between, later, last, back, low_, high_, ← middle]
  simp only [List.append_assoc, List.cons_append]

/-- A literal of Go is that of the second, in the years it can hold. -/
theorem literal_toList {t : Int} (low : 1 ≤ yearOf (t / nanosPerSecond)) (high : yearOf (t / nanosPerSecond) ≤ 9999) :
    (Salesforce.literal t).toList = datetimeText (1000000 * (t / nanosPerSecond)) := by
  have whole : 1000000 * (t / nanosPerSecond) / 1000000 = t / nanosPerSecond := by omega
  have none : microsecond (1000000 * (t / nanosPerSecond)) / 1000 = 0 := by
    unfold microsecond
    omega
  have inside : FourDigits (DateTime.ofSeconds (1000000 * (t / nanosPerSecond) / 1000000)) := by
    rw [whole]
    exact ⟨by unfold yearOf at low; omega, high⟩
  rw [datetimeText_eq inside, none, whole, Salesforce.literal, String.toList_ofList]
  simp

theorem toList_wonBetween (from_ upper : String) :
    (Soql.wonBetween from_ upper).text.toList =
      wonFields.toList ++ " AND SystemModstamp >=".toList ++ ' ' :: (from_.toList ++
        " AND SystemModstamp <".toList ++ ' ' :: (upper.toList ++
          " ORDER BY SystemModstamp ASC, Id ASC".toList)) := by
  have ge : " AND SystemModstamp >= ".toList = " AND SystemModstamp >=".toList ++ [' '] := by
    with_unfolding_all rfl
  have lt : " AND SystemModstamp < ".toList = " AND SystemModstamp <".toList ++ [' '] := by
    with_unfolding_all rfl
  have text : (Soql.wonBetween from_ upper).text = wonFields ++ " AND SystemModstamp >= " ++ from_ ++
      " AND SystemModstamp < " ++ upper ++ " ORDER BY SystemModstamp ASC, Id ASC" := rfl
  rw [text]
  simp only [String.toList_append, ge, lt, List.append_assoc, List.cons_append, List.nil_append]

/-- **A window's text is that of its query.** -/
theorem print_windowQuery {from_ upper : Int} (fromLow : 1 ≤ yearOf (from_ / nanosPerSecond))
    (fromHigh : yearOf (from_ / nanosPerSecond) ≤ 9999) (upperLow : 1 ≤ yearOf (upper / nanosPerSecond))
    (upperHigh : yearOf (upper / nanosPerSecond) ≤ 9999) :
    print (windowQuery (1000000 * (from_ / nanosPerSecond)) (1000000 * (upper / nanosPerSecond))) =
      (Soql.wonBetween (Salesforce.literal from_) (Salesforce.literal upper)).text := by
  apply String.toList_injective
  rw [toList_wonBetween, literal_toList fromLow fromHigh, literal_toList upperLow upperHigh, print,
    String.toList_ofList, render_queryTokens_windowQuery]

end Relay.FakeSalesforce
