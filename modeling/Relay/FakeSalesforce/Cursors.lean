import Relay.FakeSalesforce.Server

/-!
What the requests for the pages of a query are answered.

`data_cases` says what a request may have been: refused, a first page or a later
one. `Keeps` is what holds of the cursor of a query while other clients are served:
it is there with the query's own records, or it was dropped.
-/

namespace Relay.FakeSalesforce

open Relay.Json Relay.Python Relay.Rest Relay.Calendar Relation

/-! ### The paths of the pages -/

/-- What matchers in order match, part by part. -/
theorem of_inOrder_cons {m : Matcher} {ms : List Matcher} {cs text rest : List Char}
    (found : inOrder (m :: ms) cs = some (text, rest)) :
    ∃ first left more, m cs = some (first, left) ∧ inOrder ms left = some (more, rest) ∧ text = first ++ more := by
  rw [inOrder] at found
  split at found
  · cases found
  · rename_i first left matched
    obtain ⟨⟨more, rest'⟩, later, same⟩ := Option.map_eq_some_iff.mp found
    cases same
    exact ⟨first, left, more, matched, later, rfl⟩

theorem of_one {p : Char → Bool} {cs text rest : List Char} (found : one p cs = some (text, rest)) :
    ∃ c, text = [c] ∧ cs = c :: rest ∧ p c = true := by
  cases cs with
  | nil => cases found
  | cons c cs =>
      rw [one] at found
      split at found
      · rename_i holds
        cases found
        exact ⟨c, rfl, rfl, holds⟩
      · cases found

theorem of_some1 {p : Char → Bool} {cs text rest : List Char} (found : some1 p cs = some (text, rest)) :
    text ≠ [] ∧ (∀ c ∈ text, p c = true) ∧ cs = text ++ rest := by
  rw [some1] at found
  split at found
  · cases found
  · rename_i some_
    cases found
    exact ⟨some_, fun c mem => List.mem_takeWhile_imp mem, List.takeWhile_append_dropWhile.symm⟩

theorem exactly_append (text : String) (rest : List Char) : exactly text (text.toList ++ rest) = some (text.toList, rest) := by
  rw [exactly]
  induction text.toList with
  | nil => rfl
  | cons c cs ih =>
      have first : one (· = c) (c :: (cs ++ rest)) = some ([c], cs ++ rest) := if_pos (by simp)
      rw [List.map_cons, List.cons_append, inOrder_of_some first, ih]
      rfl

theorem of_exactly {text : String} {cs matched rest : List Char} (found : exactly text cs = some (matched, rest)) :
    matched = text.toList ∧ cs = text.toList ++ rest := by
  rw [exactly] at found
  generalize text.toList = word at found ⊢
  induction word generalizing cs matched with
  | nil =>
      cases found
      exact ⟨rfl, rfl⟩
  | cons c word ih =>
      rw [List.map_cons] at found
      obtain ⟨first, left, more, matched, later, rfl⟩ := of_inOrder_cons found
      obtain ⟨d, rfl, rfl, holds⟩ := of_one matched
      obtain rfl : d = c := of_decide_eq_true holds
      obtain ⟨rfl, rfl⟩ := ih later
      exact ⟨rfl, rfl⟩

theorem isDecimal_point : isDecimal '.' = false := isDecimal_ascii (by simp)

/-- A version number is read again before anything. -/
theorem of_versionNumber {cs number rest : List Char} (found : versionNumber cs = some (number, rest)) :
    cs = number ++ rest ∧ ∀ rest', versionNumber (number ++ rest') = some (number, rest') := by
  obtain ⟨major, afterMajor, _, majorFound, later, rfl⟩ := of_inOrder_cons found
  obtain ⟨_, afterPoint, _, pointFound, last, rfl⟩ := of_inOrder_cons later
  obtain ⟨_, _, _, minorFound, ends, rfl⟩ := of_inOrder_cons last
  obtain ⟨some_, all, rfl⟩ := of_some1 majorFound
  obtain ⟨point, rfl, rfl, isPoint⟩ := of_one pointFound
  obtain ⟨minor, rfl, rfl, decimal⟩ := of_one minorFound
  obtain rfl : point = '.' := of_decide_eq_true isPoint
  cases ends
  refine ⟨by simp, fun rest' => ?_⟩
  have stop : (('.' :: minor :: rest').takeWhile isDecimal = []) ∧
      ('.' :: minor :: rest').dropWhile isDecimal = '.' :: minor :: rest' := by
    have no : ¬ isDecimal '.' = true := by simp [isDecimal_point]
    exact ⟨List.takeWhile_cons_of_neg no, List.dropWhile_cons_of_neg no⟩
  have majorRead := some1_append all some_ stop
  have pointRead : one (· = '.') ('.' :: minor :: rest') = some (['.'], minor :: rest') := rfl
  have minorRead : one isDecimal (minor :: rest') = some ([minor], rest') := if_pos decimal
  have text : major ++ (['.'] ++ ([minor] ++ [])) ++ rest' = major ++ ('.' :: minor :: rest') := by simp
  rw [text, versionNumber, inOrder_of_some majorRead, inOrder_of_some pointRead, inOrder_of_some minorRead]
  rfl

theorem of_versionPath {path number rest : List Char} (found : versionPath path = some (number, rest)) :
    path = "/services/data/v".toList ++ (number ++ rest) ∧
      ∀ rest', rest'.head? = some '/' →
        versionPath ("/services/data/v".toList ++ (number ++ rest')) = some (number, rest') := by
  obtain ⟨⟨_, left⟩, starts, later⟩ := Option.bind_eq_some_iff.mp found
  obtain ⟨⟨number', rest''⟩, read, last⟩ := Option.bind_eq_some_iff.mp later
  obtain ⟨rfl, rfl⟩ := of_exactly starts
  obtain ⟨rfl, again⟩ := of_versionNumber read
  simp only at last
  split at last
  · cases last
    refine ⟨rfl, fun rest' slash => ?_⟩
    rw [versionPath, exactly_append]
    simp only [Option.bind_eq_bind, Option.bind_some, again, slash, or_true, if_true]
  · cases last


theorem locatorPath_name (id offset : Nat) :
    locatorPath ("/query/".toList ++ ((locatorName id).toList ++ ('-' :: Nat.toDigits 10 offset))) =
      some ((locatorName id).toList, Nat.toDigits 10 offset) := by
  have digits : ∀ c ∈ padded 12 id, isDecimal c = true := by
    intro c mem
    rw [padded] at mem
    split at mem
    · exact isDecimal_of_isDigit (isDigit_fixed c mem)
    · exact isDecimal_of_isDigit (toDigits_digits id c mem)
  have some_ : padded 12 id ≠ [] := by
    rw [padded]
    split
    · exact List.ne_nil_of_length_pos (by simp)
    · exact Nat.toDigits_ne_nil
  have stop : (('-' :: Nat.toDigits 10 offset).takeWhile isDecimal = []) ∧
      ('-' :: Nat.toDigits 10 offset).dropWhile isDecimal = '-' :: Nat.toDigits 10 offset := by
    have no : ¬ isDecimal '-' = true := by simp [isDecimal_dash]
    exact ⟨List.takeWhile_cons_of_neg no, List.dropWhile_cons_of_neg no⟩
  have nameText : (locatorName id).toList = "01gFAKE".toList ++ padded 12 id := by
    simp [locatorName]
  have nameRead : inOrder [exactly "01gFAKE", some1 isDecimal]
      ((locatorName id).toList ++ ('-' :: Nat.toDigits 10 offset)) =
        some ((locatorName id).toList, '-' :: Nat.toDigits 10 offset) := by
    rw [nameText, List.append_assoc, inOrder_of_some (exactly_append _ _),
      inOrder_of_some (some1_append digits some_ stop)]
    simp [inOrder]
  have dashRead : one (· = '-') ('-' :: Nat.toDigits 10 offset) = some (['-'], Nat.toDigits 10 offset) := rfl
  have offsetDigits : (Nat.toDigits 10 offset).all isDecimal = true :=
    List.all_eq_true.mpr fun c mem => isDecimal_of_isDigit (toDigits_digits offset c mem)
  rw [locatorPath, exactly_append]
  simp only [Option.bind_eq_bind, Option.bind_some, nameRead, dashRead, offsetDigits, and_true]
  exact if_pos Nat.toDigits_ne_nil

/-- The path of a later page is no path of a first one. -/
theorem locator_ne_query (id offset : Nat) :
    ("/query/".toList ++ ((locatorName id).toList ++ ('-' :: Nat.toDigits 10 offset))).rdropWhile (· = '/') ≠
      "/query".toList := by
  intro same
  have split := List.rdropWhile_append_rtakeWhile (p := (· = '/'))
    (l := "/query/".toList ++ ((locatorName id).toList ++ ('-' :: Nat.toDigits 10 offset)))
  have dash : '-' ∈ "/query/".toList ++ ((locatorName id).toList ++ ('-' :: Nat.toDigits 10 offset)) := by simp
  rw [← split, same, List.mem_append] at dash
  rcases dash with mem | mem
  · exact absurd mem (by with_unfolding_all decide)
  · have slash := List.mem_rtakeWhile_imp mem
    cases of_decide_eq_true slash

/-- A locator path ends in a decimal digit. -/
theorem of_locatorPath {rest locator offset : List Char} (found : locatorPath rest = some (locator, offset)) :
    ∃ start c, rest = start ++ [c] ∧ isDecimal c = true := by
  obtain ⟨⟨_, left⟩, starts, later⟩ := Option.bind_eq_some_iff.mp found
  obtain ⟨⟨locator', left'⟩, named, last⟩ := Option.bind_eq_some_iff.mp later
  obtain ⟨⟨_, offset'⟩, dash, ends⟩ := Option.bind_eq_some_iff.mp last
  obtain ⟨rfl, rfl⟩ := of_exactly starts
  obtain ⟨sep, rfl, rfl, -⟩ := of_one dash
  simp only at ends
  split at ends
  · rename_i digits
    cases ends
    obtain ⟨before, c, rfl⟩ := (List.eq_nil_or_concat offset).resolve_left digits.1
    have parts : ∀ m ∈ [exactly "01gFAKE", some1 isDecimal], m.Splits := by
      simp only [List.forall_mem_cons, List.not_mem_nil, false_imp_iff, implies_true, and_true]
      exact ⟨splits_inOrder (by simp [splits_one]), splits_some1 _⟩
    have split : locator ++ (sep :: before.concat c) = left := splits_inOrder parts named
    refine ⟨"/query/".toList ++ (locator ++ (sep :: before)), c, ?_, ?_⟩
    · rw [← split, List.concat_eq_append]
      simp
    · exact List.all_eq_true.mp digits.2 c (by simp)
  · cases ends

/-- A path that ends in `/query` is that of a first page, of its own version, and of no later page. -/
theorem of_queryPath {apiVersion : String} {number rest : List Char}
    (found : versionPath ("/services/data/" ++ apiVersion ++ "/query").toList = some (number, rest)) :
    (rest.rdropWhile (· = '/') = "/query".toList → String.ofList ('v' :: number) = apiVersion) ∧
      locatorPath rest = none := by
  have split : ("/services/data/".toList ++ (apiVersion.toList ++ "/query".toList)) =
      "/services/data/".toList ++ ('v' :: (number ++ rest)) := by
    have path := (of_versionPath found).1
    rw [String.toList_append, String.toList_append, List.append_assoc] at path
    exact path
  have same := List.append_cancel_left split
  -- whatever the path is, it ends in a letter
  have ends : ∀ {start : List Char} {c : Char}, rest = start ++ [c] → c = 'y' := by
    intro start c is
    rw [is, ← List.append_assoc, ← List.cons_append] at same
    have letters : apiVersion.toList ++ "/query".toList = (apiVersion.toList ++ "/quer".toList) ++ ['y'] := by
      rw [List.append_assoc]
      rfl
    rw [letters] at same
    exact (List.cons.inj (List.append_inj' same rfl).2).1.symm
  constructor
  · intro query
    have slashes := List.rdropWhile_append_rtakeWhile (p := (· = '/')) (l := rest)
    rw [query] at slashes
    rcases List.eq_nil_or_concat (rest.rtakeWhile (· = '/')) with none | ⟨start, c, more⟩
    · rw [none, List.append_nil] at slashes
      rw [← slashes, ← List.cons_append] at same
      rw [← List.append_cancel_right same, String.ofList_toList]
    · have slash : c = '/' := of_decide_eq_true (List.mem_rtakeWhile_imp (p := (· = '/')) (l := rest) (by rw [more]; simp))
      rw [more, List.concat_eq_append, ← List.append_assoc] at slashes
      cases slash.symm.trans (ends slashes.symm)
  · cases located : locatorPath rest with
    | none => rfl
    | some found =>
        obtain ⟨start, c, is, decimal⟩ := of_locatorPath located
        rw [ends is, isDecimal_ascii (by simp)] at decimal
        cases decimal

theorem ofDigitChars_padded (width n : Nat) : Nat.ofDigitChars 10 (padded width n) 0 = n := by
  rw [padded]
  split
  · rename_i fits
    rw [ofDigitChars_fixed, Nat.mul_zero, Nat.zero_add, Nat.mod_eq_of_lt fits]
  · exact Nat.ofDigitChars_ten_toDigits

theorem locatorName_injective : Function.Injective locatorName := by
  intro id id' same
  have texts := congrArg String.toList same
  simp only [locatorName, String.toList_append, String.toList_ofList] at texts
  rw [← ofDigitChars_padded 12 id, ← ofDigitChars_padded 12 id', List.append_cancel_left texts]

/-! ### Requests -/

section Requests

variable (config : Config) (runQuery : (version soql : String) → Except Failure (PyList Document))

/-- What a request for a target may be: one that gets no page, a first page, or a later one. -/
inductive Handled (target : Target) (app : App) : Except String Response → App → Prop where
  | refused {answer : Except String Response} (queue : List Fault) :
      (∀ response, answer = .ok response → ¬ Succeeds response.status) →
      Handled target app answer { app with queryFaults := queue }
  | first {number rest : List Char} {records : PyList Document} {queue : List Fault} :
      versionPath target.path.toList = some (number, rest) → rest.rdropWhile (· = '/') = "/query".toList →
      runQuery (String.ofList ('v' :: number)) ((target.params.lookup "q").getD "") = .ok records →
      ∀ {result : Response × App},
        page config (String.ofList ('v' :: number)) (locatorName app.locatorIds) records 0
          { app with
            queryFaults := queue
            cursors := Function.update app.cursors (locatorName app.locatorIds) (some records)
            locatorIds := app.locatorIds + 1 } = result →
        Handled target app (.ok result.1) result.2
  | next {number rest locator offset : List Char} {n : Nat} {records : PyList Document} {queue : List Fault} :
      versionPath target.path.toList = some (number, rest) → rest.rdropWhile (· = '/') ≠ "/query".toList →
      locatorPath rest = some (locator, offset) → intOf offset = .ok n →
      app.cursors (String.ofList locator) = some records →
      ∀ {result : Response × App},
        page config (String.ofList ('v' :: number)) (String.ofList locator) records n
          { app with queryFaults := queue } = result →
        Handled target app (.ok result.1) result.2

omit config runQuery in
theorem uncaught_fails (exc : Exn) (response : Response) (answered : uncaught exc = .ok response) :
    ¬ Succeeds response.status := by
  unfold uncaught at answered
  split at answered
  · cases answered
    simp [reply, Succeeds]
  · cases answered

theorem handled_data (authorization : String) (target : Target) (app : App) :
    Handled config runQuery target app (app.data config runQuery authorization target).1
      (app.data config runQuery authorization target).2 := by
  unfold App.data
  split
  · exact .refused app.queryFaults (by rintro _ ⟨⟩; simp [notFound, reply, Succeeds])
  · rename_i number rest found
    split
    · exact .refused app.queryFaults (by rintro _ ⟨⟩; simp [notFound, reply, Succeeds])
    · split
      · exact .refused app.queryFaults (by rintro _ ⟨⟩; simp [reply, Succeeds])
      · split
        · rename_i fault queue taken
          exact .refused _ (by rintro _ ⟨⟩; exact fault.fails)
        · rename_i queue taken
          simp only
          split
          · rename_i query
            unfold firstPage
            split
            · exact .refused _ (by rintro _ ⟨⟩; simp [reply, Succeeds])
            · rename_i exc raised
              exact .refused _ (uncaught_fails exc)
            · rename_i records result
              exact .first found query result rfl
          · rename_i later
            split
            · exact .refused _ (by rintro _ ⟨⟩; simp [notFound, reply, Succeeds])
            · rename_i locator offset located
              split
              · rename_i exc raised
                exact .refused _ (uncaught_fails exc)
              · rename_i n read
                unfold nextPage
                split
                · exact .refused _ (by rintro _ ⟨⟩; simp [reply, Succeeds])
                · rename_i records known
                  have known : app.cursors (String.ofList locator) = some records := known
                  exact .next found later located read known rfl

variable {config runQuery}

theorem handled_of_get {instanceUrl authorization : String} {target : Target} {app app' : App}
    {answer : Except String Response} (served : Serves config runQuery (.get instanceUrl authorization target) app answer app')
    {response : Response} (is : answer = .ok response) : Handled config runQuery target app (.ok response) app' := by
  cases served with
  | get =>
      have handled := handled_data config runQuery authorization target app
      rw [is] at handled
      exact handled
  | unsent => cases is
  | unread => cases is

end Requests

/-! ### The cursor of a query -/

/-- The locator is taken, and its cursor has the records if it is still there. -/
structure Keeps (id : Nat) (records : PyList Document) (app : App) : Prop where
  taken : id < app.locatorIds
  own : ∀ found, app.cursors (locatorName id) = some found → found = records

section Cursor

variable {config : Config} {runQuery : (version soql : String) → Except Failure (PyList Document)}

theorem keeps_page {id : Nat} {records : PyList Document} {app : App} (keeps : Keeps id records app)
    (version locator : String) (found : PyList Document) (offset : Nat) :
    Keeps id records (page config version locator found offset app).2 := by
  unfold page
  simp only
  split
  · refine ⟨keeps.taken, fun found' held => ?_⟩
    by_cases same : locatorName id = locator
    · simp [same] at held
    · simp only [Function.update_of_ne same] at held
      exact keeps.own found' held
  · exact keeps

/-- A new cursor has a locator of its own. -/
theorem keeps_first {id : Nat} {records : PyList Document} {app : App} (keeps : Keeps id records app)
    (found : PyList Document) (queue : List Fault) :
    Keeps id records { app with
      queryFaults := queue
      cursors := Function.update app.cursors (locatorName app.locatorIds) (some found)
      locatorIds := app.locatorIds + 1 } := by
  refine ⟨Nat.lt_succ_of_lt keeps.taken, fun found' held => ?_⟩
  have other : locatorName id ≠ locatorName app.locatorIds := fun same =>
    absurd (locatorName_injective same) keeps.taken.ne
  simp only [Function.update_of_ne other] at held
  exact keeps.own found' held

theorem keeps_handled {id : Nat} {records : PyList Document} {target : Target} {app app' : App}
    {answer : Except String Response} (keeps : Keeps id records app)
    (handled : Handled config runQuery target app answer app') : Keeps id records app' := by
  cases handled with
  | refused queue => exact ⟨keeps.taken, keeps.own⟩
  | first _ _ _ paged =>
      rw [← paged]
      exact keeps_page (keeps_first keeps _ _) _ _ _ _
  | next _ _ _ _ _ paged =>
      rw [← paged]
      refine keeps_page ?_ _ _ _ _
      exact ⟨keeps.taken, keeps.own⟩

theorem keeps_token {id : Nat} {records : PyList Document} {app : App} (keeps : Keeps id records app) (fresh : String)
    (form : List (String × String)) : Keeps id records (app.token config fresh form).2 := by
  unfold App.token
  split
  · exact ⟨keeps.taken, keeps.own⟩
  · simp only
    split_ifs
    all_goals exact ⟨keeps.taken, keeps.own⟩

theorem keeps_serves {id : Nat} {records : PyList Document} {call : Call} {app app' : App} {answer : Call.Answer call}
    (keeps : Keeps id records app) (served : Serves config runQuery call app answer app') : Keeps id records app' := by
  induction served with
  | token fresh => exact keeps_token keeps fresh _
  | get => exact keeps_handled keeps (handled_data config runQuery _ _ _)
  | unsent => exact keeps
  | unread _ ih => exact ih keeps

/-- Whatever happens to the server, the cursor is never that of another query. -/
theorem keeps_moves {id : Nat} {records : PyList Document} {app app' : App} (keeps : Keeps id records app)
    (moves : ReflTransGen (Moves config runQuery) app app') : Keeps id records app' := by
  induction moves with
  | refl => exact keeps
  | tail _ move ih =>
      cases move with
      | tokens => exact ⟨ih.taken, ih.own⟩
      | faults => exact ⟨ih.taken, ih.own⟩
      | reset => exact ⟨ih.taken, by rintro found ⟨⟩⟩
      | other served => exact keeps_serves ih served

end Cursor

end Relay.FakeSalesforce
