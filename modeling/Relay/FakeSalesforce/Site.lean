import Relay.Effect.Lockstep
import Relay.FakeSalesforce.Paging
import Relay.FakeSalesforce.Upkeep

/-!
The fake Salesforce as a whole: its records, its tokens and pages, and its clock.

A query is evaluated when its first page is asked for, and the records of that
moment are what all its pages show. `queryAll_snapshot` says so of a client's query,
whatever is written, served or reset between its requests.
-/

namespace Relay.FakeSalesforce

open Relay.Json Relay.Python Relay.Rest Relay.Effect Relay.Calendar Relation

/-! ### Answers -/

/-- The documents of some records: `json.dumps` of each. -/
def dumpRows : List (List (String × Obj)) → Except Exn (List Document)
  | [] => .ok []
  | row :: rest =>
      match dumps (.obj row) with
      | .error exc => .error exc
      | .ok document => (dumpRows rest).map (document :: ·)

/-- `run_query(parse(soql), version)`. A list that Python cannot hold is a `MemoryError`. -/
def Store.answer (printable : Char → Bool) (store : Store) (version soql : String) :
    Except Failure (PyList Document) :=
  match parse printable soql with
  | .error failure => .error failure
  | .ok query =>
      match dumpRows (store.runQuery query version) with
      | .error exc => .error (.raised exc)
      | .ok documents =>
          if short : documents.length < 2 ^ 63 then .ok ⟨documents, short⟩
          else .error (.raised (.other "MemoryError" ""))

/-! ### The server and its store -/

structure Site where
  data : StoreState
  app : App
  /-- `App.now()`, in microseconds. -/
  now : Int

namespace Site

/-- What its queries answer. -/
def answer (printable : Char → Bool) (site : Site) : (version soql : String) → Except Failure (PyList Document) :=
  site.data.store.answer printable

end Site

section Network

variable (config : Config) (printable : Char → Bool)

/-- A request, answered from the records of the moment. -/
def SiteServes (call : Call) (site : Site) (answer : Call.Answer call) (site' : Site) : Prop :=
  ∃ app, Serves config (site.answer printable) call site.app answer app ∧ site' = { site with app := app }

/-- What may happen between two requests of a client: the server does something, records are written
as `allowed` says, or time passes. -/
inductive SiteMoves (allowed : Site → StoreState → Prop) : Site → Site → Prop where
  | server {site : Site} {app : App} : Moves config (site.answer printable) site.app app →
      SiteMoves allowed site { site with app := app }
  | writes {site : Site} {data : StoreState} : allowed site data → SiteMoves allowed site { site with data := data }
  | clock {site : Site} {now : Int} : site.now ≤ now → SiteMoves allowed site { site with now := now }

end Network

section Runs

variable {config : Config} {printable : Char → Bool} {allowed : Site → StoreState → Prop} {site site' : Site}
  {E Tok R : Type} {c : Client E Tok R} {decode : Document → Option R}

theorem shared_site (call : Call) (site : Site) (answer : Call.Answer call) (site' : Site)
    (served : SiteServes config printable call site answer site') : SiteMoves config printable allowed site site' := by
  obtain ⟨app, served, rfl⟩ := served
  exact .server (.other served)

theorem keeps_siteMoves {id : Nat} {records : PyList Document} (keeps : Keeps id records site.app)
    (moves : ReflTransGen (SiteMoves config printable allowed) site site') : Keeps id records site'.app := by
  induction moves with
  | refl => exact keeps
  | tail _ move ih =>
      cases move with
      | server move => exact keeps_moves ih (.single move)
      | writes => exact ih
      | clock => exact ih

theorem moves_of_traced {α : Type} {program : Http α} {value : α} {calls : List (Exchange Call.Answer)}
    (run : Traced (SiteServes config printable) (SiteMoves config printable allowed) program site calls value site') :
    ReflTransGen (SiteMoves config printable allowed) site site' :=
  run.along _ (fun _ => .refl) .trans (fun _ _ move => .single move)
    (fun request _ _ _ _ served => .single (shared_site request _ _ _ served)) (.any program)

/-! ### The pages of one moment -/

/-- What a query came to: an error, the records of a moment between its start and its end, or nothing yet,
with more records than fuel. -/
inductive Snapshot (config : Config) (printable : Char → Bool) (allowed : Site → StoreState → Prop)
    (version soql : String) (decode : Document → Option R) (fuel : Nat) (site site' : Site) :
    Option (Except E (List R)) → Prop where
  | failed (err : E) : Snapshot config printable allowed version soql decode fuel site site' (some (.error err))
  | read {moment : Site} {documents : PyList Document} {recs : List R} :
      ReflTransGen (SiteMoves config printable allowed) site moment →
      ReflTransGen (SiteMoves config printable allowed) moment site' →
      moment.answer printable version soql = .ok documents → documents.items.mapM decode = some recs →
      Snapshot config printable allowed version soql decode fuel site site' (some (.ok recs))
  | unfinished {moment : Site} {documents : PyList Document} :
      ReflTransGen (SiteMoves config printable allowed) site moment →
      moment.answer printable version soql = .ok documents → fuel ≤ documents.items.length →
      Snapshot config printable allowed version soql decode fuel site site' none

/-- What the pages of some records came to, from an offset on. -/
inductive Paged (decode : Document → Option R) (documents : PyList Document) (offset fuel : Nat) :
    Option (Except E (List R)) → Prop where
  | failed (err : E) : Paged decode documents offset fuel (some (.error err))
  | read {recs : List R} : documents.items.mapM decode = some recs → Paged decode documents offset fuel (some (.ok recs))
  | unfinished : offset + fuel ≤ documents.items.length → Paged decode documents offset fuel none

theorem Paged.earlier {documents : PyList Document} {offset offset' fuel fuel' : Nat}
    {value : Option (Except E (List R))} (paged : Paged decode documents offset' fuel' value)
    (before : offset + fuel ≤ offset' + fuel') : Paged decode documents offset fuel value := by
  cases paged with
  | failed err => exact .failed err
  | read decoded => exact .read decoded
  | unfinished many => exact .unfinished (before.trans many)

/-- The loop after a page. -/
def follow (c : Client E Tok R) (fuel : Nat) (all : List R) :
    Except E (Page R) × Option Tok → Http (Option (Except E (List R)) × Option Tok)
  | (.error err, cached) => return (some (.error err), cached)
  | (.ok page, cached) =>
      match page.next with
      | none => return (some (.ok (all ++ page.records)), cached)
      | some path => c.pages fuel cached ⟨path, []⟩ (all ++ page.records)

theorem pages_succ (c : Client E Tok R) (fuel : Nat) (cached : Option Tok) (target : Target) (all : List R) :
    c.pages (fuel + 1) cached target all = (c.getJSON cached target >>= follow c fuel all) := rfl

/-- A page that was served ends the query, or the next one is asked for. -/
theorem follow_served (reads : Reads c decode) {version locator : String} {documents : PyList Document}
    {offset : Nat} {all : List R} (before : (documents.items.take offset).mapM decode = some all) (fuel : Nat)
    (cached : Option Tok) :
    (∃ value : Option (Except E (List R)), Paged decode documents offset (fuel + 1) value ∧
        follow c fuel all (c.readPage (reply 200 (pageDocument config version locator documents.items offset)), cached) =
          .ret (value, cached)) ∨
      ∃ all', offset + config.pageSize < documents.items.length ∧
        (documents.items.take (offset + config.pageSize)).mapM decode = some all' ∧
        follow c fuel all (c.readPage (reply 200 (pageDocument config version locator documents.items offset)), cached) =
          c.pages fuel cached ⟨nextRecordsUrl version locator (offset + config.pageSize), []⟩ all' := by
  cases found_ : (pageRecords config documents.items offset).mapM decode with
  | none =>
      obtain ⟨err, failed⟩ := reads.rejects config version locator documents offset found_
      rw [failed]
      exact .inl ⟨_, .failed err, rfl⟩
  | some found =>
      have upTo : (documents.items.take (offset + config.pageSize)).mapM decode = some (all ++ found) := by
        rw [take_page, List.mapM_append, before, found_]
        rfl
      rw [reads.reads config version locator documents offset found found_]
      cases last : lastPage config documents.items offset with
      | true =>
          have short : documents.items.length ≤ offset + config.pageSize := of_decide_eq_true last
          rw [List.take_of_length_le short] at upTo
          exact .inl ⟨_, .read upTo, rfl⟩
      | false =>
          have long : ¬ documents.items.length ≤ offset + config.pageSize := of_decide_eq_false last
          exact .inr ⟨_, not_le.mp long, upTo, rfl⟩

/-- The loop, from a later page on. -/
theorem pages_snapshot (reads : Reads c decode) {path number rest : List Char}
    (versioned : versionPath path = some (number, rest)) {id fuel offset : Nat} {documents : PyList Document}
    {all : List R} {cached cached' : Option Tok} {calls : List (Exchange Call.Answer)}
    {value : Option (Except E (List R))} (inside : offset < documents.items.length)
    (keeps : Keeps id documents site.app) (before : (documents.items.take offset).mapM decode = some all)
    (run : Traced (SiteServes config printable) (SiteMoves config printable allowed)
      (c.pages fuel cached ⟨nextRecordsUrl (String.ofList ('v' :: number)) (locatorName id) offset, []⟩ all) site calls
      (value, cached') site') :
    Paged decode documents offset fuel value ∧ ReflTransGen (SiteMoves config printable allowed) site site' := by
  induction fuel generalizing offset all cached site calls with
  | zero =>
      obtain ⟨-, same, rfl⟩ := Traced.of_ret run
      cases same
      exact ⟨.unfinished (by omega), .refl⟩
  | succ fuel ih =>
      rw [pages_succ] at run
      obtain ⟨⟨result, cached₁⟩, site₁, calls₁, after, rfl, asked, rest_⟩ := Traced.of_bind run
      have reached := moves_of_traced asked
      obtain ⟨opening, block, rfl, opens, outcome⟩ := getJSON_traced shared_site asked
      have failed : ∀ {err : E} {after : List (Exchange Call.Answer)}, Traced (SiteServes config printable)
          (SiteMoves config printable allowed) (follow c fuel all (.error err, cached₁)) site₁ after (value, cached')
          site' → Paged decode documents offset (fuel + 1) value ∧ ReflTransGen (SiteMoves config printable allowed) site site' := by
        intro err after stopped
        obtain ⟨-, same, rfl⟩ := Traced.of_ret stopped
        cases same
        exact ⟨.failed err, reached⟩
      rcases outcome with ⟨-, ⟨err, rfl⟩, -⟩ | ⟨-, ⟨-, err, rfl⟩ | ⟨response, answered, -, rfl⟩⟩
      · exact failed rest_
      · exact failed rest_
      · obtain ⟨_, _, _, site₀, -, moves, app, served, rfl⟩ := answered
        have kept := keeps_siteMoves keeps moves
        rcases next_answered versioned inside kept served with fails | rfl
        · obtain ⟨err, refused⟩ := reads.refuses response fails
          rw [refused] at rest_
          exact failed rest_
        · rcases follow_served reads before fuel cached₁ with ⟨value', paged, same⟩ | ⟨all', more, before', same⟩
          · rw [same] at rest_
            obtain ⟨-, same, rfl⟩ := Traced.of_ret rest_
            cases same
            exact ⟨paged, reached⟩
          · rw [same] at rest_
            have size := config.pageSize_pos
            obtain ⟨paged, later⟩ := ih more (keeps_serves kept served) before' rest_
            exact ⟨paged.earlier (by omega), reached.trans later⟩

/-- **The pages of a query are those of one moment**: whatever is written, served or reset between the
requests, a query that returns has returned the records which its text selected at some moment between
its start and its end. -/
theorem queryAll_snapshot (reads : Reads c decode) {soql : String} {fuel : Nat} {cached cached' : Option Tok}
    {calls : List (Exchange Call.Answer)} {value : Option (Except E (List R))} (some_ : 0 < fuel)
    (run : Traced (SiteServes config printable) (SiteMoves config printable allowed) (c.queryAll fuel cached soql) site
      calls (value, cached') site') :
    Snapshot config printable allowed c.apiVersion soql decode fuel site site' value := by
  obtain ⟨fuel, rfl⟩ : ∃ more, fuel = more + 1 := ⟨fuel - 1, by omega⟩
  rw [Client.queryAll, pages_succ] at run
  obtain ⟨⟨result, cached₁⟩, site₁, calls₁, after, rfl, asked, rest_⟩ := Traced.of_bind run
  obtain ⟨opening, block, rfl, opens, outcome⟩ := getJSON_traced shared_site asked
  have failed : ∀ {err : E} {after : List (Exchange Call.Answer)}, Traced (SiteServes config printable)
      (SiteMoves config printable allowed) (follow c fuel [] (.error err, cached₁)) site₁ after (value, cached') site' →
      Snapshot config printable allowed c.apiVersion soql decode (fuel + 1) site site' value := by
    intro err after stopped
    obtain ⟨-, same, rfl⟩ := Traced.of_ret stopped
    cases same
    exact .failed err
  rcases outcome with ⟨-, ⟨err, rfl⟩, -⟩ | ⟨-, ⟨-, err, rfl⟩ | ⟨response, answered, -, rfl⟩⟩
  · exact failed rest_
  · exact failed rest_
  · obtain ⟨_, _, _, moment, -, moves, app, served, rfl⟩ := answered
    rcases first_answered served with fails | ⟨number, path, rest, documents, versioned, version, ran, keeps, rfl⟩
    · obtain ⟨err, refused⟩ := reads.refuses response fails
      rw [refused] at rest_
      exact failed rest_
    · -- the moment is that of the first page
      have step : ReflTransGen (SiteMoves config printable allowed) moment { moment with app := app } :=
        .single (shared_site _ _ _ _ ⟨app, served, rfl⟩)
      have come : ∀ {site' : Site} {value : Option (Except E (List R))}, Paged decode documents 0 (fuel + 1) value →
          ReflTransGen (SiteMoves config printable allowed) moment site' →
          Snapshot config printable allowed c.apiVersion soql decode (fuel + 1) site site' value := by
        intro site' value paged later
        cases paged with
        | failed err => exact .failed err
        | read decoded => exact .read moves later ran decoded
        | unfinished many => exact .unfinished moves ran (by omega)
      have none_ : (documents.items.take 0).mapM decode = some [] := rfl
      rcases follow_served reads none_ fuel cached₁ with ⟨value', paged, same⟩ | ⟨all', more, before, same⟩
      · rw [same] at rest_
        obtain ⟨-, same, rfl⟩ := Traced.of_ret rest_
        cases same
        exact come paged step
      · rw [same, ← version] at rest_
        have size := config.pageSize_pos
        obtain ⟨paged, later⟩ := pages_snapshot reads versioned more keeps before rest_
        exact come (paged.earlier (by omega)) (step.trans later)

end Runs

end Relay.FakeSalesforce
