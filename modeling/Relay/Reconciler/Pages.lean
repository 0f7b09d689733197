import Relay.FakeSalesforce.Server
import Relay.Reconciler.Salesforce
import Relay.Worker.Messages

/-!
The reconciler's client: how it reads tokens and pages.

Its functions are those of `Rest.Client` at these values: `query_all` is
`queryAll`, `_get` is `getJSON` and `_access_token` is `getToken`.
-/

namespace Relay.Reconciler

open Relay.Json Relay.Python Relay.Rest Relay.Worker Relay.FakeSalesforce

/-- `repr` of the first 300 bytes of a body. -/
def bodyRepr (response : Response) : String :=
  "b" ++ String.ofList (reprString (fun c => 0x20 ≤ c.toNat && c.toNat ≤ 0x7e)
    (String.ofList (response.body.take 300)))

/-- The `SalesforceError` of an `HTTPError`. -/
def httpError (what : String) (response : Response) : Exn :=
  .other "SalesforceError" (what ++ " failed: HTTP " ++ String.ofList (Nat.toDigits 10 response.status) ++ " " ++
    bodyRepr response)

/-- What `_access_token` makes of an answer. -/
def readToken (response : Response) : Except Exn Obj :=
  if ¬ Succeeds response.status then .error (httpError "token request" response) else load response.document

/-- `token["instance_url"]` and `token["access_token"]`. -/
def authorise (printable : Char → Bool) : Obj → Except Exn (String × String)
  | .obj token =>
      match token.lookup "instance_url", token.lookup "access_token" with
      | some (.str instanceUrl), some accessToken =>
          .ok (trimSlashes instanceUrl, "Bearer " ++ str printable accessToken)
      | some (.str _), none => .error (.other "KeyError" "'access_token'")
      | none, _ => .error (.other "KeyError" "'instance_url'")
      | some _, _ => .error (.other "AttributeError" "no attribute 'rstrip'")
  | _ => .error (.other "TypeError" "the token is no dictionary")

/-- The page in a decoded body. -/
def pageOf : Obj → Except Exn (Page Obj)
  | .obj body =>
      match (body.lookup "records").getD (.arr []) with
      | .arr records =>
          if truthy ((body.lookup "done").getD (.bool true)) ∨ ¬ truthy (dictGet "nextRecordsUrl" body) then
            .ok ⟨records, none⟩
          else
            match dictGet "nextRecordsUrl" body with
            | .str path => .ok ⟨records, some path⟩
            | _ => .error (.other "TypeError" "can only concatenate str")
      | _ => .error (.other "TypeError" "the records are no list")
  | _ => .error (.other "AttributeError" "no attribute 'get'")

/-- What `_get` and `query_all` make of an answer. -/
def readPage (response : Response) : Except Exn (Page Obj) :=
  if ¬ Succeeds response.status then .error (httpError "query" response)
  else
    match load response.document with
    | .error exc => .error exc
    | .ok body => pageOf body

/-- The client of an org. -/
def client (printable : Char → Bool) (apiVersion clientId clientSecret : String) : Client Exn Obj Obj where
  apiVersion := apiVersion
  clientId := clientId
  clientSecret := clientSecret
  tokenLost message := .other "URLError" message
  readToken := readToken
  authorise := authorise printable
  queryLost message := .other "URLError" message
  readPage := readPage

/-! ### The pages of the fake Salesforce -/

theorem decodeItems_eq_loadAll (records : List Document) :
    decodeItems (fun i => (loadNumber (.number (.ofInt i))).map Number.value) (fun t => (loadNumber t).map Number.value)
      records = loadAll records := by
  induction records with
  | nil => rfl
  | cons record rest ih =>
      rw [decodeItems, loadAll, ih, load, Value.decoded]
      cases record.decode _ _ <;> rfl

theorem toOption_loadAll (records : List Document) :
    (loadAll records).toOption = records.mapM fun record => (load record).toOption := by
  induction records with
  | nil => rfl
  | cons record rest ih =>
      rw [List.mapM_cons, ← ih, loadAll]
      cases load record with
      | error exc => rfl
      | ok row => cases loadAll rest <;> rfl

/-- The number of records is an `int`. -/
theorem loadNumber_length (records : PyList Document) :
    (loadNumber (.number (.ofInt records.items.length))).map Number.value =
      .ok (.int records.items.length) := by
  have short : Convertible (records.items.length : Int) := by
    rw [Convertible, Int.natAbs_natCast, Nat.length_toDigits_le_iff (by omega) (by simp [maxStrDigits])]
    exact records.length_lt
  rw [loadNumber, NumText.isInt_ofInt, if_pos rfl, int_ofInt short]
  rfl

/-- What a decoder makes of the members of a page. -/
theorem decode_page {E N M : Type} {g : Int → Except E (Value M)} {f : N → Except E (Value M)} {n : Int}
    {total : Value M} (counted : g n = .ok total) (done : Bool) (items : List (Value N)) (url : Option String) :
    (Value.obj ([("totalSize", .int n), ("done", .bool done), ("records", .arr items)] ++
        (url.map fun url => ("nextRecordsUrl", .str url)).toList)).decode g f =
      (decodeItems g f items).map fun found =>
        .obj ([("totalSize", total), ("done", .bool done), ("records", .arr found)] ++
          (url.map fun url => ("nextRecordsUrl", .str url)).toList) := by
  cases url <;> cases decoded : decodeItems g f items <;>
    simp [Value.decode, decodeMembers, counted, decoded, Except.map, dictOf, dictInsert]

/-- What Python decodes of a page. -/
theorem load_page (config : Config) (version locator : String) (records : PyList Document) (offset : Nat) :
    load (pageDocument config version locator records.items offset) =
      (loadAll (pageRecords config records.items offset)).map fun found =>
        .obj ([("totalSize", .int records.items.length), ("done", .bool (lastPage config records.items offset)),
            ("records", .arr found)] ++
          ((if lastPage config records.items offset then none
            else some (nextRecordsUrl version locator (offset + config.pageSize))).map fun url =>
              ("nextRecordsUrl", .str url)).toList) := by
  have document : pageDocument config version locator records.items offset =
      .obj ([("totalSize", .int records.items.length), ("done", .bool (lastPage config records.items offset)),
          ("records", .arr (pageRecords config records.items offset))] ++
        ((if lastPage config records.items offset then none
          else some (nextRecordsUrl version locator (offset + config.pageSize))).map fun url =>
            ("nextRecordsUrl", .str url)).toList) := by
    rw [pageDocument]
    cases lastPage config records.items offset <;> rfl
  rw [document, load, Value.decoded, decode_page (loadNumber_length records), decodeItems_eq_loadAll]

theorem readPage_reply (printable : Char → Bool) (apiVersion clientId clientSecret : String) (document : Document) :
    (client printable apiVersion clientId clientSecret).readPage (reply 200 document) =
      match load document with
      | .error exc => .error exc
      | .ok body => pageOf body := rfl

theorem reads_client (printable : Char → Bool) (apiVersion clientId clientSecret : String) :
    Reads (client printable apiVersion clientId clientSecret) fun record => (load record).toOption where
  refuses := by
    intro response fails
    exact ⟨_, if_pos fails⟩
  reads := by
    intro config version locator records offset found decoded
    rw [← toOption_loadAll] at decoded
    cases all : loadAll (pageRecords config records.items offset) with
    | error err =>
        rw [all] at decoded
        cases decoded
    | ok rows =>
        rw [all] at decoded
        cases decoded
        have page := load_page config version locator records offset
        rw [all] at page
        rw [readPage_reply, page]
        cases lastPage config records.items offset with
        | true => simp [Except.map, pageOf, truthy, List.lookup_cons]
        | false => simp [Except.map, pageOf, truthy, dictGet, List.lookup_cons, nextRecordsUrl_ne_empty]
  rejects := by
    intro config version locator records offset fails
    rw [← toOption_loadAll] at fails
    cases all : loadAll (pageRecords config records.items offset) with
    | error exc =>
        have page := load_page config version locator records offset
        rw [all] at page
        rw [readPage_reply, page]
        exact ⟨exc, rfl⟩
    | ok rows =>
        rw [all] at fails
        cases fails

end Relay.Reconciler
