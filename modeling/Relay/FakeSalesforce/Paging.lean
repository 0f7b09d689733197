import Relay.FakeSalesforce.Cursors
import Relay.Reconciler.Pages
import Relay.Salesforce.Pages

/-!
The pages of a query, put together.

Whatever else happens to the server, a query returns all records of its result in
their order, or an error: `queryAll_exact`. It returns the records if every page
was served in the end, and a page is asked for at most twice, the second time after
a 401 and with one new token.
-/

namespace Relay.FakeSalesforce

open Relay.Json Relay.Python Relay.Rest Relay.Effect Relay.Calendar Relation

variable {config : Config} {runQuery : (version soql : String) → Except Failure (PyList Document)}

/-! ### What is answered -/

theorem nextRecordsUrl_toList (number : List Char) (id offset : Nat) :
    (nextRecordsUrl (String.ofList ('v' :: number)) (locatorName id) offset).toList =
      "/services/data/v".toList ++
        (number ++ ("/query/".toList ++ ((locatorName id).toList ++ ('-' :: Nat.toDigits 10 offset)))) := by
  have text : nextRecordsUrl (String.ofList ('v' :: number)) (locatorName id) offset =
    "/services/data/" ++ String.ofList ('v' :: number) ++ "/query/" ++ locatorName id ++ "-" ++
      String.ofList (Nat.toDigits 10 offset) := rfl
  rw [text]
  generalize locatorName id = locator
  simp

/-- A first page is refused, or it is the first one of the result, under a new locator. -/
theorem first_answered {apiVersion soql instanceUrl authorization : String} {app app' : App} {response : Response}
    (served : Serves config runQuery
      (.get instanceUrl authorization ⟨"/services/data/" ++ apiVersion ++ "/query", [("q", soql)]⟩) app (.ok response) app') :
    ¬ Succeeds response.status ∨
      ∃ number path rest records, versionPath path = some (number, rest) ∧ String.ofList ('v' :: number) = apiVersion ∧
        runQuery apiVersion soql = .ok records ∧ Keeps app.locatorIds records app' ∧
        response = reply 200 (pageDocument config apiVersion (locatorName app.locatorIds) records.items 0) := by
  have handled := handled_of_get served rfl
  generalize is : (.ok response : Except String Response) = answer at handled
  cases handled with
  | refused _ fails => exact .inl (fails response is.symm)
  | @first number rest records queue found query ran result paged =>
      cases is
      have version := (of_queryPath found).1 query
      rw [version] at ran paged
      rw [← paged]
      refine .inr ⟨number, _, rest, records, found, version, ran, keeps_page ⟨Nat.lt_succ_self _, ?_⟩ _ _ _ _, rfl⟩
      intro found held
      simp only [Function.update_self] at held
      exact (Option.some.inj held).symm
  | next found _ located =>
      rw [(of_queryPath found).2] at located
      cases located

/-- A later page is refused, or it is that of the same result. -/
theorem next_answered {path number rest : List Char} (versioned : versionPath path = some (number, rest)) {id offset : Nat}
    {records : PyList Document} (inside : offset < records.items.length) {instanceUrl authorization : String}
    {app app' : App} {response : Response} (keeps : Keeps id records app)
    (served : Serves config runQuery (.get instanceUrl authorization
      ⟨nextRecordsUrl (String.ofList ('v' :: number)) (locatorName id) offset, []⟩) app (.ok response) app') :
    ¬ Succeeds response.status ∨
      response = reply 200
        (pageDocument config (String.ofList ('v' :: number)) (locatorName id) records.items offset) := by
  have again := (of_versionPath versioned).2 ("/query/".toList ++ ((locatorName id).toList ++
    ('-' :: Nat.toDigits 10 offset))) rfl
  rw [← nextRecordsUrl_toList] at again
  have offsetRead := intOf_eq (inside.trans records.length_lt)
  have handled := handled_of_get served rfl
  generalize is : (.ok response : Except String Response) = answer at handled
  cases handled with
  | refused _ fails => exact .inl (fails response is.symm)
  | first found query =>
      rw [again] at found
      cases found
      exact absurd query (locator_ne_query id offset)
  | next found _ located read known paged =>
      rw [again] at found
      cases found
      rw [locatorPath_name] at located
      cases located
      rw [offsetRead] at read
      cases read
      rw [String.ofList_toList] at known paged
      cases is
      obtain rfl := keeps.own _ known
      rw [← paged]
      exact .inr rfl

/-! ### Page after page -/

variable {E Tok R : Type} {c : Client E Tok R} {decode : Document → Option R}

/-- The calls for some pages, and what comes of them: the records, if every page was served. -/
def Fetched (c : Client E Tok R) (target : Nat → Target) (complete : List R → Prop)
    (calls : List (Exchange Call.Answer)) (value : Option (Except E (List R))) : Prop :=
  ∃ blocks, blocks ≠ [] ∧ calls = blocks.flatten ∧ (∀ i block, blocks[i]? = some block → c.Asks (target i) block) ∧
    value ≠ none ∧ ∀ recs, value = some (.ok recs) ↔ (∀ block ∈ blocks, Served block) ∧ complete recs

/-- A page with which the query ends. -/
theorem fetched_end {target : Nat → Target} {complete : List R → Prop} {block : List (Exchange Call.Answer)}
    {value : Option (Except E (List R))} (asks : c.Asks (target 0) block) (ends : value ≠ none)
    (exact_ : ∀ recs, value = some (.ok recs) ↔ Served block ∧ complete recs) :
    Fetched c target complete block value := by
  refine ⟨[block], List.cons_ne_nil _ _, by simp, ?_, ends, ?_⟩
  · intro i block' at_
    cases i with
    | zero =>
        cases at_
        exact asks
    | succ i => cases at_
  · intro recs
    rw [exact_, List.forall_mem_singleton]

/-- A page that failed. -/
theorem fetched_error {target : Nat → Target} {complete : List R → Prop} {block : List (Exchange Call.Answer)} {err : E}
    (asks : c.Asks (target 0) block) (fails : Served block → ∀ recs, ¬ complete recs) :
    Fetched c target complete block (some (.error err)) := by
  refine fetched_end asks (Option.some_ne_none _) fun recs => iff_of_false ?_ ?_
  · rintro ⟨⟩
  · rintro ⟨served, all⟩
    exact fails served recs all

/-- A page that was served, before others. -/
theorem fetched_more {target : Nat → Target} {complete : List R → Prop} {block calls : List (Exchange Call.Answer)}
    {value : Option (Except E (List R))} (asks : c.Asks (target 0) block) (served : Served block)
    (more : Fetched c (fun i => target (i + 1)) complete calls value) :
    Fetched c target complete (block ++ calls) value := by
  obtain ⟨blocks, -, rfl, each, ends, exact_⟩ := more
  refine ⟨block :: blocks, List.cons_ne_nil _ _, rfl, ?_, ends, ?_⟩
  · intro i block' at_
    cases i with
    | zero =>
        cases at_
        exact asks
    | succ i => exact each i block' at_
  · intro recs
    rw [exact_, List.forall_mem_cons, and_iff_right served]

/-- The records up to the end of a page. -/
theorem take_page (records : List Document) (offset : Nat) :
    records.take (offset + config.pageSize) = records.take offset ++ pageRecords config records offset := List.take_add

/-- What a page leads to: an error if one of its records is not decoded, the records if it is the last page,
else the next page. -/
theorem after_page (reads : Reads c decode) {version locator : String} {records : PyList Document} {offset fuel : Nat}
    {all : List R} {cached cached' : Option Tok} {app app' : App} {calls : List (Exchange Call.Answer)}
    {value : Option (Except E (List R))} (before : (records.items.take offset).mapM decode = some all)
    (run : Traced (Serves config runQuery) (Moves config runQuery)
      (match (c.readPage (reply 200 (pageDocument config version locator records.items offset)), cached) with
        | (.error err, cached) => return (some (.error err), cached)
        | (.ok page, cached) =>
            match page.next with
            | none => return (some (.ok (all ++ page.records)), cached)
            | some path => c.pages fuel cached ⟨path, []⟩ (all ++ page.records)) app calls (value, cached') app') :
    (calls = [] ∧ ((∃ err, value = some (.error err)) ∧ records.items.mapM decode = none ∨
        ∃ recs, value = some (.ok recs) ∧ records.items.mapM decode = some recs)) ∨
      ∃ all', offset + config.pageSize < records.items.length ∧
        (records.items.take (offset + config.pageSize)).mapM decode = some all' ∧
        Traced (Serves config runQuery) (Moves config runQuery)
          (c.pages fuel cached ⟨nextRecordsUrl version locator (offset + config.pageSize), []⟩ all') app calls
          (value, cached') app' := by
  have upTo : (records.items.take (offset + config.pageSize)).mapM decode =
      ((pageRecords config records.items offset).mapM decode).map fun found => all ++ found := by
    rw [take_page, List.mapM_append, before]
    cases (pageRecords config records.items offset).mapM decode <;> rfl
  have whole : records.items.mapM decode =
      ((records.items.take (offset + config.pageSize)).mapM decode).bind fun found =>
        ((records.items.drop (offset + config.pageSize)).mapM decode).map fun more => found ++ more := by
    conv_lhs => rw [← List.take_append_drop (offset + config.pageSize) records.items, List.mapM_append]
    cases (records.items.take (offset + config.pageSize)).mapM decode with
    | none => rfl
    | some found => cases (records.items.drop (offset + config.pageSize)).mapM decode <;> rfl
  cases found_ : (pageRecords config records.items offset).mapM decode with
  | none =>
      obtain ⟨err, failed⟩ := reads.rejects config version locator records offset found_
      rw [failed] at run
      obtain ⟨rfl, same, rfl⟩ := Traced.of_ret run
      cases same
      rw [whole, upTo, found_]
      exact .inl ⟨rfl, .inl ⟨⟨err, rfl⟩, rfl⟩⟩
  | some found =>
      rw [found_] at upTo
      rw [reads.reads config version locator records offset found found_] at run
      cases last : lastPage config records.items offset with
      | true =>
          simp only [last, if_true] at run
          obtain ⟨rfl, same, rfl⟩ := Traced.of_ret run
          cases same
          have short : records.items.length ≤ offset + config.pageSize := of_decide_eq_true last
          rw [List.take_of_length_le short] at upTo
          exact .inl ⟨rfl, .inr ⟨_, rfl, upTo⟩⟩
      | false =>
          simp only [last, Bool.false_eq_true, if_false] at run
          have long : ¬ records.items.length ≤ offset + config.pageSize := of_decide_eq_false last
          exact .inr ⟨_, by omega, upTo, run⟩

/-- A page that was served has the status 200, and every other answer fails. -/
theorem served_of_answered {target : Target} {block : List (Exchange Call.Answer)} {response : Response} {app app' : App}
    (answered : Answered (Serves config runQuery) (Moves config runQuery) target block response app app') :
    Served block ↔ response.status = 200 := by
  obtain ⟨before, _, _, _, rfl, -, -⟩ := answered
  exact served_iff

theorem not_succeeds_ne {response : Response} (fails : ¬ Succeeds response.status) : response.status ≠ 200 := by
  intro ok
  rw [ok] at fails
  exact fails ⟨Nat.le_refl _, by omega⟩

/-- The calls of others are among what may happen to the server. -/
theorem shared (call : Call) (app : App) (answer : Call.Answer call) (app' : App)
    (served : Serves config runQuery call app answer app') : Moves config runQuery app app' := .other served

theorem serves_some (call : Call) (app : App) : ∃ answer app', Serves config runQuery call app answer app' := by
  cases call with
  | token form => exact ⟨_, _, .token ""⟩
  | get instanceUrl authorization target => exact ⟨_, _, .get⟩

/-- The loop, from a later page on. -/
theorem pages_traced (reads : Reads c decode) {path number rest : List Char}
    (versioned : versionPath path = some (number, rest)) {id fuel offset : Nat} {records : PyList Document} {all : List R}
    {cached cached' : Option Tok} {app app' : App} {calls : List (Exchange Call.Answer)}
    {value : Option (Except E (List R))} (inside : offset < records.items.length)
    (enough : records.items.length < offset + fuel) (usable : c.Usable cached) (keeps : Keeps id records app)
    (before : (records.items.take offset).mapM decode = some all)
    (run : Traced (Serves config runQuery) (Moves config runQuery)
      (c.pages fuel cached ⟨nextRecordsUrl (String.ofList ('v' :: number)) (locatorName id) offset, []⟩ all) app calls
      (value, cached') app') :
    Fetched c
      (fun i => ⟨nextRecordsUrl (String.ofList ('v' :: number)) (locatorName id) (offset + i * config.pageSize), []⟩)
      (fun recs => records.items.mapM decode = some recs) calls value := by
  induction fuel generalizing offset all cached app calls with
  | zero => omega
  | succ fuel ih =>
      obtain ⟨⟨result, cached₁⟩, app₁, calls₁, after, rfl, asked, then_⟩ := Traced.of_bind run
      obtain ⟨opening, block, rfl, opens, outcome⟩ := getJSON_traced shared asked
      have opening_ : opening = [] := by
        obtain ⟨tok, _, rfl, -⟩ := usable
        cases opens with
        | held => rfl
        | requests why => rcases why with none | refreshed <;> contradiction
      subst opening_
      have target : (⟨nextRecordsUrl (String.ofList ('v' :: number)) (locatorName id)
          (offset + 0 * config.pageSize), []⟩ : Target) =
            ⟨nextRecordsUrl (String.ofList ('v' :: number)) (locatorName id) offset, []⟩ := by
        rw [Nat.zero_mul, Nat.add_zero]
      rw [List.nil_append]
      rcases outcome with ⟨-, -, unequipped⟩ | ⟨⟨-, asks⟩, ⟨failed, err, rfl⟩ | ⟨response, answered, usable₁, rfl⟩⟩
      · exact absurd (.held usable) unequipped
      · obtain ⟨rfl, same, rfl⟩ := Traced.of_ret then_
        cases same
        rw [List.append_nil]
        exact fetched_error (by rwa [target]) fun served => absurd served failed
      · have served := served_of_answered answered
        obtain ⟨_, _, _, app₀, -, moves, reply⟩ := answered
        have kept := keeps_moves keeps moves
        rcases next_answered versioned inside kept reply with fails | rfl
        · obtain ⟨err, refused⟩ := reads.refuses response fails
          rw [refused] at then_
          obtain ⟨rfl, same, rfl⟩ := Traced.of_ret then_
          cases same
          rw [List.append_nil]
          exact fetched_error (by rwa [target]) fun ok => absurd (served.mp ok) (not_succeeds_ne fails)
        · have ok := served.mpr rfl
          rcases after_page reads before then_ with ⟨rfl, ⟨⟨err, rfl⟩, undecoded⟩ | ⟨recs, rfl, decoded⟩⟩ |
            ⟨all', more, before', later⟩
          · rw [List.append_nil]
            exact fetched_error (by rwa [target]) fun _ recs decoded => by rw [undecoded] at decoded; cases decoded
          · rw [List.append_nil]
            refine fetched_end (by rwa [target]) (Option.some_ne_none _) fun recs' => ?_
            rw [and_iff_right ok, decoded]
            simp
          · have size := config.pageSize_pos
            refine fetched_more (by rwa [target]) ok ?_
            have rest_ := ih more (by omega) usable₁ (keeps_serves kept reply) before' later
            have targets : (fun i => (⟨nextRecordsUrl (String.ofList ('v' :: number)) (locatorName id)
                (offset + (i + 1) * config.pageSize), []⟩ : Target)) =
                fun i => ⟨nextRecordsUrl (String.ofList ('v' :: number)) (locatorName id)
                  (offset + config.pageSize + i * config.pageSize), []⟩ := by
              funext i
              rw [Nat.succ_mul, Nat.add_comm (i * config.pageSize), Nat.add_assoc]
            rw [targets]
            exact rest_

/-! ### The query -/

/-- The page `i` of a query: the first one names the query, a later one the cursor and an offset. -/
def pageTarget (config : Config) (first : Target) (version locator : String) : Nat → Target
  | 0 => first
  | i + 1 => ⟨nextRecordsUrl version locator ((i + 1) * config.pageSize), []⟩

/-- What a query of a client does, whatever the answers are: it asks for page after page, each at most
twice and the second time after a 401 and with one new token; and it ends, with all records of the result
if every page was served in the end, and with an error if not. It asks for no page only if it gets no
token that it can use. -/
def QueriesExactly (config : Config) (runQuery : (version soql : String) → Except Failure (PyList Document))
    (c : Client E Tok R) (decode : Document → Option R) (soql : String) (fuel : Nat) (cached : Option Tok) (app : App) :
    Prop :=
  (∃ calls result app',
    Traced (Serves config runQuery) (Moves config runQuery) (c.queryAll fuel cached soql) app calls result app') ∧
  ∀ calls value cached' app',
    Traced (Serves config runQuery) (Moves config runQuery) (c.queryAll fuel cached soql) app calls (value, cached') app' →
    ∃ opening blocks locator, calls = opening ++ blocks.flatten ∧ c.Opens cached false opening ∧
      (blocks ≠ [] ↔ c.Equipped cached false opening) ∧
      (∀ i block, blocks[i]? = some block →
        c.Asks (pageTarget config (c.queryTarget soql) c.apiVersion locator i) block) ∧
      value ≠ none ∧
      ∀ recs, value = some (.ok recs) ↔ blocks ≠ [] ∧ (∀ block ∈ blocks, Served block) ∧
        ∃ records, runQuery c.apiVersion soql = .ok records ∧ records.items.mapM decode = some recs

theorem queryAll_traced (reads : Reads c decode) {soql : String} {fuel : Nat} (some_ : 0 < fuel)
    (enough : ∀ records, runQuery c.apiVersion soql = .ok records → records.items.length < fuel)
    (cached : Option Tok) (app : App) : QueriesExactly config runQuery c decode soql fuel cached app := by
  refine ⟨Traced.exists_run serves_some _ _, fun calls value cached' app' run => ?_⟩
  obtain ⟨fuel, rfl⟩ : ∃ more, fuel = more + 1 := ⟨fuel - 1, by omega⟩
  obtain ⟨⟨result, cached₁⟩, app₁, calls₁, after, rfl, asked, then_⟩ := Traced.of_bind run
  obtain ⟨opening, block, rfl, opens, outcome⟩ := getJSON_traced shared asked
  -- the pages of a query that was made at all
  have fetched : c.Equipped cached false opening →
      (∃ locator, Fetched c (pageTarget config (c.queryTarget soql) c.apiVersion locator)
        (fun recs => ∃ records, runQuery c.apiVersion soql = .ok records ∧ records.items.mapM decode = some recs)
        (block ++ after) value) →
      ∃ opening' blocks locator, opening ++ block ++ after = opening' ++ blocks.flatten ∧
        c.Opens cached false opening' ∧ (blocks ≠ [] ↔ c.Equipped cached false opening') ∧
        (∀ i block, blocks[i]? = some block →
          c.Asks (pageTarget config (c.queryTarget soql) c.apiVersion locator i) block) ∧
        value ≠ none ∧
        ∀ recs, value = some (.ok recs) ↔ blocks ≠ [] ∧ (∀ block ∈ blocks, Served block) ∧
          ∃ records, runQuery c.apiVersion soql = .ok records ∧ records.items.mapM decode = some recs := by
    rintro equipped ⟨locator, blocks, ne, same, each, ends, exact_⟩
    refine ⟨opening, blocks, locator, by rw [List.append_assoc, same], opens, iff_of_true ne equipped, each, ends,
      fun recs => ?_⟩
    rw [exact_, and_iff_right ne]
  rcases outcome with ⟨rfl, ⟨err, rfl⟩, unequipped⟩ |
    ⟨⟨equipped, asks⟩, ⟨failed, err, rfl⟩ | ⟨response, answered, usable, rfl⟩⟩
  · obtain ⟨rfl, same, rfl⟩ := Traced.of_ret then_
    cases same
    refine ⟨opening, [], "", by simp, opens, iff_of_false (by simp) unequipped, by simp, Option.some_ne_none _,
      fun recs => ?_⟩
    exact iff_of_false (by rintro ⟨⟩) fun all => all.1 rfl
  · obtain ⟨rfl, same, rfl⟩ := Traced.of_ret then_
    cases same
    refine fetched equipped ⟨"", ?_⟩
    rw [List.append_nil]
    exact fetched_error asks fun served => absurd served failed
  · have served := served_of_answered answered
    obtain ⟨_, _, _, app₀, -, moves, reply⟩ := answered
    rcases first_answered reply with fails | ⟨number, path, rest, records, versioned, version, ran, keeps, rfl⟩
    · obtain ⟨err, refused⟩ := reads.refuses response fails
      rw [refused] at then_
      obtain ⟨rfl, same, rfl⟩ := Traced.of_ret then_
      cases same
      refine fetched equipped ⟨"", ?_⟩
      rw [List.append_nil]
      exact fetched_error asks fun ok => absurd (served.mp ok) (not_succeeds_ne fails)
    · have ok := served.mpr rfl
      have complete : ∀ recs, (∃ records, runQuery c.apiVersion soql = .ok records ∧
          records.items.mapM decode = some recs) ↔ records.items.mapM decode = some recs := by
        intro recs
        rw [ran]
        constructor
        · rintro ⟨_, ⟨⟩, decoded⟩
          exact decoded
        · intro decoded
          exact ⟨records, rfl, decoded⟩
      refine fetched equipped ⟨locatorName app₀.locatorIds, ?_⟩
      simp only [complete]
      rcases after_page reads (by rfl) then_ with ⟨rfl, ⟨⟨err, rfl⟩, undecoded⟩ | ⟨recs, rfl, decoded⟩⟩ |
        ⟨all', more, before, later⟩
      · rw [List.append_nil]
        exact fetched_error asks fun _ recs decoded => by rw [undecoded] at decoded; cases decoded
      · rw [List.append_nil]
        refine fetched_end asks (Option.some_ne_none _) fun recs' => ?_
        rw [and_iff_right ok, decoded]
        simp
      · refine fetched_more asks ok ?_
        have fits := enough records ran
        have size := config.pageSize_pos
        rw [← version] at later
        have rest_ := pages_traced reads versioned more (by omega) usable keeps before later
        have targets : (fun i => pageTarget config (c.queryTarget soql) c.apiVersion (locatorName app₀.locatorIds) (i + 1)) =
            fun i => ⟨nextRecordsUrl (String.ofList ('v' :: number)) (locatorName app₀.locatorIds)
              (0 + config.pageSize + i * config.pageSize), []⟩ := by
          funext i
          rw [pageTarget, version, Nat.succ_mul, Nat.add_comm (i * config.pageSize), Nat.zero_add]
        rw [targets]
        exact rest_

/-- Both clients return exactly the result of a query or an error, however large its pages are and
whatever happens between them. -/
theorem queryAll_exact (config : Config) (runQuery : (version soql : String) → Except Failure (PyList Document))
    (printable : Char → Bool) (apiVersion clientId clientSecret soql : String) :
    ∃ enough, ∀ fuel, enough ≤ fuel →
      (∀ cached app, QueriesExactly config runQuery (Salesforce.client apiVersion clientId clientSecret)
        (fun record => (Salesforce.Opportunity.unmarshal record).toOption) soql fuel cached app) ∧
      ∀ cached app, QueriesExactly config runQuery (Reconciler.client printable apiVersion clientId clientSecret)
        (fun record => (Reconciler.load record).toOption) soql fuel cached app := by
  obtain ⟨enough, bound⟩ : ∃ enough, ∀ records, runQuery apiVersion soql = .ok records →
      records.items.length < enough + 1 := by
    cases runQuery apiVersion soql with
    | error failure => exact ⟨0, by rintro _ ⟨⟩⟩
    | ok records =>
        refine ⟨records.items.length, ?_⟩
        rintro _ ⟨⟩
        exact Nat.lt_succ_self _
  refine ⟨enough + 1, fun fuel large => ⟨fun cached app => ?_, fun cached app => ?_⟩⟩
  · exact queryAll_traced (Salesforce.reads_client apiVersion clientId clientSecret) (by omega)
      (fun records ran => (bound records ran).trans_le large) cached app
  · exact queryAll_traced (Reconciler.reads_client printable apiVersion clientId clientSecret) (by omega)
      (fun records ran => (bound records ran).trans_le large) cached app

-- Two pages of one record each; the token has expired before the first one.
example : ∃ calls app' cached,
    Traced (Serves ⟨"id", "secret", 1, le_refl 1, ["66.0"], "org"⟩ fun _ _ => .ok ⟨[.obj [], .obj []], by decide⟩)
      (Moves ⟨"id", "secret", 1, le_refl 1, ["66.0"], "org"⟩ fun _ _ => .ok ⟨[.obj [], .obj []], by decide⟩)
      ((Salesforce.client "v66.0" "id" "secret").queryAll 3 (some ⟨"old", "http://org"⟩) "")
      ⟨[], fun _ => none, [], [], 1⟩ calls
      (some (.ok [Salesforce.Opportunity.zero, Salesforce.Opportunity.zero]), cached) app' := by
  apply Exists.intro
  apply Exists.intro
  apply Exists.intro
  apply Traced.call .refl .get
  apply Traced.call .refl (.token "new")
  apply Traced.call .refl .get
  apply Traced.call .refl .get
  with_unfolding_all exact Traced.ret

end Relay.FakeSalesforce
