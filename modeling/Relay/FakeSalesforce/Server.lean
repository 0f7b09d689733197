import Relay.FakeSalesforce.Literals
import Relay.Rest.Client

/-!
The tokens and the pages of the fake Salesforce.

A handler takes the state of the server and returns its answer, if there is one,
and the state after it. `Serves` adds what the network may do to an answer, and
`Moves` is what may happen to the server between two requests of one client:
tokens expire or are revoked, faults are set, the server is reset, and other
clients are served.
-/

namespace Relay.FakeSalesforce

open Relay.Json Relay.Python Relay.Rest Relay.Calendar

/-- A JSON document as it is sent. -/
abbrev Document := Value Json.Token

/-- A list of Python, which has at most `sys.maxsize` elements. -/
structure PyList (α : Type) where
  items : List α
  short : items.length < 2 ^ 63

/-- `int` reads the text of a position in a list. -/
theorem PyList.length_lt {α : Type} (records : PyList α) : records.items.length < 10 ^ maxStrDigits :=
  calc
    records.items.length < 2 ^ 63 := records.short
    _ ≤ 10 ^ 19 := by norm_num
    _ ≤ 10 ^ maxStrDigits := Nat.pow_le_pow_right (by omega) (by simp [maxStrDigits])

structure Config where
  clientId : String
  clientSecret : String
  pageSize : Nat
  pageSize_pos : 1 ≤ pageSize
  apiVersions : List String
  /-- The `Host` header of the requests. -/
  host : String

/-- An answer other than success that a test asked for. -/
structure Fault where
  status : Nat
  body : Document
  remaining : Int
  fails : ¬ Succeeds status

structure App where
  /-- The tokens that are valid. -/
  tokens : List String
  cursors : String → Option (PyList Document)
  tokenFaults : List Fault
  queryFaults : List Fault
  /-- The next of `locator_ids`. -/
  locatorIds : Nat

def reply (status : Nat) (payload : Document) : Response := ⟨status, payload⟩

/-- The fault to answer with, and the faults that are left. -/
def takeFault : List Fault → Option Fault × List Fault
  | [] => (none, [])
  | fault :: queue =>
      if fault.remaining ≤ 0 then takeFault queue
      else (some fault, { fault with remaining := fault.remaining - 1 } :: queue)

/-! ### OAuth -/

/-- `form.get(name)`: a blank value is no value. -/
def formGet (form : List (String × String)) (name : String) : Option String :=
  (form.filter fun entry => entry.2 ≠ "").lookup name

def oauthError (error description : String) : Response :=
  reply 400 (.obj [("error", .str error), ("error_description", .str description)])

/-- `_token`; `fresh` is the token it makes. -/
def App.token (config : Config) (fresh : String) (form : List (String × String)) (app : App) : Response × App :=
  match takeFault app.tokenFaults with
  | (some fault, queue) => (reply fault.status fault.body, { app with tokenFaults := queue })
  | (none, queue) =>
      let app := { app with tokenFaults := queue }
      if formGet form "grant_type" ≠ some "client_credentials" then
        (oauthError "unsupported_grant_type" "grant type not supported", app)
      else if formGet form "client_id" ≠ some config.clientId then
        (oauthError "invalid_client_id" "client identifier invalid", app)
      else if formGet form "client_secret" ≠ some config.clientSecret then
        (oauthError "invalid_client" "invalid client credentials", app)
      else
        (reply 200 (.obj [("access_token", .str fresh), ("scope", .str "api"),
            ("instance_url", .str ("http://" ++ config.host)), ("token_type", .str "Bearer")]),
          { app with tokens := fresh :: app.tokens })

/-! ### Paths -/

/-- A text of the expression itself. -/
def exactly (text : String) : Matcher := inOrder (text.toList.map fun c => one (· = c))

/-- `\d+\.\d` -/
def versionNumber : Matcher := inOrder [some1 isDecimal, one (· = '.'), one isDecimal]

/-- `_VERSION_PATH.match`: the version and the rest. -/
def versionPath (path : List Char) : Option (List Char × List Char) := do
  let (_, path) ← exactly "/services/data/v" path
  let (version, rest) ← versionNumber path
  if rest = [] ∨ rest.head? = some '/' then some (version, rest) else none

/-- `_LOCATOR_PATH.match`: the locator and the offset. -/
def locatorPath (rest : List Char) : Option (List Char × List Char) := do
  let (_, rest) ← exactly "/query/" rest
  let (locator, rest) ← inOrder [exactly "01gFAKE", some1 isDecimal] rest
  let (_, offset) ← one (· = '-') rest
  if offset ≠ [] ∧ offset.all isDecimal then some (locator, offset) else none

/-! ### Pages -/

def restErrors (fields : List (String × Document)) : Document := .arr [.obj fields]

def notFound : Response :=
  reply 404 (restErrors [("errorCode", .str "NOT_FOUND"), ("message", .str "The requested resource does not exist")])

def locatorName (id : Nat) : String := "01gFAKE" ++ String.ofList (padded 12 id)

/-- The path of the page at an offset. -/
def nextRecordsUrl (version locator : String) (offset : Nat) : String :=
  "/services/data/" ++ version ++ "/query/" ++ locator ++ "-" ++ String.ofList (Nat.toDigits 10 offset)

theorem nextRecordsUrl_ne_empty (version locator : String) (offset : Nat) : nextRecordsUrl version locator offset ≠ "" := by
  intro empty
  have chars : ("/services/data/" ++ version ++ "/query/" ++ locator ++ "-" ++
      String.ofList (Nat.toDigits 10 offset)).toList = [] := congrArg String.toList empty
  rw [String.toList_append, String.toList_ofList (l := Nat.toDigits 10 offset)] at chars
  exact Nat.toDigits_ne_nil (List.append_eq_nil_iff.mp chars).2

section Pages

variable (config : Config)

/-- The records of the page at an offset. -/
def pageRecords (records : List Document) (offset : Nat) : List Document :=
  (records.drop offset).take config.pageSize

def lastPage (records : List Document) (offset : Nat) : Bool := decide (records.length ≤ offset + config.pageSize)

/-- The document of the page at an offset. -/
def pageDocument (version locator : String) (records : List Document) (offset : Nat) : Document :=
  .obj ([("totalSize", .int records.length), ("done", .bool (lastPage config records offset)),
      ("records", .arr (pageRecords config records offset))] ++
    if lastPage config records offset then []
    else [("nextRecordsUrl", .str (nextRecordsUrl version locator (offset + config.pageSize)))])

/-- `_page`: the cursor is dropped after the last page. -/
def page (version locator : String) (records : PyList Document) (offset : Nat) (app : App) : Response × App :=
  (reply 200 (pageDocument config version locator records.items offset),
    if lastPage config records.items offset then { app with cursors := Function.update app.cursors locator none }
    else app)

/-- What an exception becomes: `_dispatch` answers a `ValueError`, and no other one. -/
def uncaught : Exn → Except String Response
  | .other "ValueError" message => .ok (reply 400 (.obj [("error", .str "bad_request"), ("detail", .str message)]))
  | exc => .error exc.text

variable (runQuery : (version soql : String) → Except Failure (PyList Document))

/-- `_first_page`: the result is kept under a new locator. -/
def firstPage (version soql : String) (app : App) : Except String Response × App :=
  match runQuery version soql with
  | .error (.soqlError errorCode message) =>
      (.ok (reply 400 (restErrors [("message", .str message), ("errorCode", .str errorCode)])), app)
  | .error (.raised exc) => (uncaught exc, app)
  | .ok records =>
      let locator := locatorName app.locatorIds
      let (response, app) := page config version locator records 0
        { app with cursors := Function.update app.cursors locator (some records), locatorIds := app.locatorIds + 1 }
      (.ok response, app)

def nextPage (version locator : String) (offset : Nat) (app : App) : Response × App :=
  match app.cursors locator with
  | none =>
      (reply 400 (restErrors [("message", .str "invalid query locator"), ("errorCode", .str "INVALID_QUERY_LOCATOR")]), app)
  | some records => page config version locator records offset app

/-- `_authorised`. -/
def authorised (authorization : String) (app : App) : Bool :=
  "Bearer ".toList.isPrefixOf authorization.toList && app.tokens.contains (String.ofList (authorization.toList.drop 7))

/-- `_data`. -/
def App.data (authorization : String) (target : Target) (app : App) : Except String Response × App :=
  match versionPath target.path.toList with
  | none => (.ok notFound, app)
  | some (number, rest) =>
      if String.ofList number ∉ config.apiVersions then (.ok notFound, app)
      else if ¬ authorised authorization app then
        (.ok (reply 401 (restErrors [("message", .str "Session expired or invalid"),
          ("errorCode", .str "INVALID_SESSION_ID")])), app)
      else
        match takeFault app.queryFaults with
        | (some fault, queue) => (.ok (reply fault.status fault.body), { app with queryFaults := queue })
        | (none, queue) =>
            let app := { app with queryFaults := queue }
            let version := String.ofList ('v' :: number)
            if rest.rdropWhile (· = '/') = "/query".toList then
              firstPage config runQuery version ((target.params.lookup "q").getD "") app
            else
              match locatorPath rest with
              | none => (.ok notFound, app)
              | some (locator, offset) =>
                  match intOf offset with
                  | .error exc => (uncaught exc, app)
                  | .ok offset =>
                      let (response, app) := nextPage config version (String.ofList locator) offset app
                      (.ok response, app)

end Pages

/-- A client that takes the pages as they are meant, and decodes each record with `decode`. -/
structure Reads {E Tok R : Type} (c : Client E Tok R) (decode : Document → Option R) : Prop where
  refuses : ∀ response, ¬ Succeeds response.status → ∃ err, c.readPage response = .error err
  reads : ∀ (config : Config) (version locator : String) (records : PyList Document) (offset : Nat) (found : List R),
    (pageRecords config records.items offset).mapM decode = some found →
    c.readPage (reply 200 (pageDocument config version locator records.items offset)) = .ok ⟨found,
      if lastPage config records.items offset then none
      else some (nextRecordsUrl version locator (offset + config.pageSize))⟩
  rejects : ∀ (config : Config) (version locator : String) (records : PyList Document) (offset : Nat),
    (pageRecords config records.items offset).mapM decode = none →
    ∃ err, c.readPage (reply 200 (pageDocument config version locator records.items offset)) = .error err

/-! ### The server among its clients -/

section Network

variable (config : Config) (runQuery : (version soql : String) → Except Failure (PyList Document))

/-- What may come of a request: the server's answer, or none, whether the request was served or not. -/
inductive Serves : (call : Call) → App → Call.Answer call → App → Prop where
  | token {form : List (String × String)} {app : App} (fresh : String) :
      Serves (.token form) app (.ok (app.token config fresh form).1) (app.token config fresh form).2
  | get {instanceUrl authorization : String} {target : Target} {app : App} :
      Serves (.get instanceUrl authorization target) app (app.data config runQuery authorization target).1
        (app.data config runQuery authorization target).2
  | unsent {call : Call} {app : App} {message : String} : Serves call app (.error message) app
  | unread {call : Call} {app app' : App} {response : Response} {message : String} :
      Serves call app (.ok response) app' → Serves call app (.error message) app'

/-- What may happen to the server between two requests of a client. -/
inductive Moves : App → App → Prop where
  | tokens {app : App} (tokens : List String) : Moves app { app with tokens := tokens }
  | faults {app : App} (tokenFaults queryFaults : List Fault) :
      Moves app { app with tokenFaults := tokenFaults, queryFaults := queryFaults }
  | reset {app : App} :
      Moves app { app with tokens := [], cursors := fun _ => none, tokenFaults := [], queryFaults := [] }
  | other {call : Call} {app app' : App} {answer : Call.Answer call} :
      Serves config runQuery call app answer app' → Moves app app'

end Network

end Relay.FakeSalesforce
