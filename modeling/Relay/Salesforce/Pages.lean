import Relay.FakeSalesforce.Server
import Relay.Salesforce.Client

/-!
The Go client: how it reads tokens and pages.

Its functions are those of `Rest.Client` at these values: `QueryAll` is `queryAll`,
and `getJSON` and `getToken` are the functions of their names.
-/

namespace Relay.Salesforce

open Relay.Json Relay.Rest Opportunity

variable {N : Type}

inductive ClientError where
  /-- Salesforce rejected the client credentials. -/
  | authError (status : Nat) (body : String)
  /-- Any other answer than 200 from the REST API. -/
  | apiError (status : Nat) (body : String)
  | other (message : String)

/-- `truncate` of an ASCII text. -/
def truncate (text : List Char) : String :=
  if 500 < text.length then String.ofList (text.take 500) ++ "..." else String.ofList text

/-! ### Tokens -/

/-- The token of a client. -/
structure AccessToken where
  accessToken : String
  instanceUrl : String
deriving DecidableEq

namespace AccessToken

def setField (tok : AccessToken) (key : String) (v : Value N) : Except String AccessToken :=
  match key with
  | "access_token" => (setString tok.accessToken v).map fun accessToken => { tok with accessToken := accessToken }
  | "instance_url" => (setString tok.instanceUrl v).map fun instanceUrl => { tok with instanceUrl := instanceUrl }
  | _ => .ok tok

def setFields (tok : AccessToken) : List (String × Value N) → Except String AccessToken
  | [] => .ok tok
  | (key, v) :: rest => do
      let tok ← tok.setField key v
      setFields tok rest

def unmarshal : Value N → Except String AccessToken
  | .null => .ok ⟨"", ""⟩
  | .obj members => setFields ⟨"", ""⟩ members
  | _ => .error typeError

end AccessToken

/-- What `getToken` makes of an answer. -/
def readToken (response : Response) : Except ClientError AccessToken :=
  if response.status ≠ 200 then .error (.authError response.status (truncate response.body))
  else
    match AccessToken.unmarshal response.document with
    | .error err => .error (.other ("salesforce token response: " ++ err))
    | .ok tok =>
        if tok.accessToken = "" ∨ tok.instanceUrl = "" then
          .error (.other "salesforce token response is missing access_token or instance_url")
        else .ok tok

/-! ### Pages -/

structure QueryPage (N : Type) where
  totalSize : Int
  done : Bool
  nextRecordsUrl : String
  records : List (Opportunity N)

namespace QueryPage

def zero : QueryPage N := ⟨0, false, "", []⟩

/-- An `int` of 64 bits. -/
def setInt (old : Int) : Value N → Except String Int
  | .null => .ok old
  | .int i => if -9223372036854775808 ≤ i ∧ i ≤ 9223372036854775807 then .ok i else .error typeError
  | _ => .error typeError

/-- A `bool`. -/
def setBool (old : Bool) : Value N → Except String Bool
  | .null => .ok old
  | .bool b => .ok b
  | _ => .error typeError

/-- A `[]Opportunity`. -/
def setRecords : Value N → Except String (List (Opportunity N))
  | .null => .ok []
  | .arr items => unmarshalAll items
  | _ => .error typeError

def setField (page : QueryPage N) (key : String) (v : Value N) : Except String (QueryPage N) :=
  match key with
  | "totalSize" => (setInt page.totalSize v).map fun totalSize => { page with totalSize := totalSize }
  | "done" => (setBool page.done v).map fun done => { page with done := done }
  | "nextRecordsUrl" =>
      (setString page.nextRecordsUrl v).map fun nextRecordsUrl => { page with nextRecordsUrl := nextRecordsUrl }
  | "records" => (setRecords v).map fun records => { page with records := records }
  | _ => .ok page

def setFields (page : QueryPage N) : List (String × Value N) → Except String (QueryPage N)
  | [] => .ok page
  | (key, v) :: rest => do
      let page ← page.setField key v
      setFields page rest

def unmarshal : Value N → Except String (QueryPage N)
  | .null => .ok zero
  | .obj members => setFields zero members
  | _ => .error typeError

end QueryPage

/-- What `getJSON` and `QueryAll` make of an answer. -/
def readPage (response : Response) : Except ClientError (Page (Opportunity Token)) :=
  if response.status ≠ 200 then .error (.apiError response.status (truncate response.body))
  else
    match QueryPage.unmarshal response.document with
    | .error err => .error (.other err)
    | .ok page =>
        .ok ⟨page.records, if page.done ∨ page.nextRecordsUrl = "" then none else some page.nextRecordsUrl⟩

/-- The client of an org. -/
def client (apiVersion clientId clientSecret : String) : Client ClientError AccessToken (Opportunity Token) where
  apiVersion := apiVersion
  clientId := clientId
  clientSecret := clientSecret
  tokenLost message := .other ("salesforce token request: " ++ message)
  readToken := readToken
  authorise tok := .ok (trimSlashes tok.instanceUrl, "Bearer " ++ tok.accessToken)
  queryLost message := .other ("salesforce query: " ++ message)
  readPage := readPage

/-! ### The pages of the fake Salesforce -/

open Relay.FakeSalesforce

theorem toOption_unmarshalAll (records : List (Value N)) :
    (unmarshalAll records).toOption = records.mapM fun v => (Opportunity.unmarshal v).toOption := by
  induction records with
  | nil => rfl
  | cons v rest ih =>
      rw [List.mapM_cons, ← ih, unmarshalAll]
      cases Opportunity.unmarshal v with
      | error err => rfl
      | ok o => cases unmarshalAll rest <;> rfl

theorem setInt_length (records : PyList Document) (old : Int) :
    QueryPage.setInt old (.int records.items.length : Document) = .ok records.items.length := by
  have short := records.short
  have fits : -9223372036854775808 ≤ (records.items.length : Int) ∧
      (records.items.length : Int) ≤ 9223372036854775807 := by omega
  rw [QueryPage.setInt, if_pos fits]

/-- What Go decodes of a page. -/
theorem unmarshal_page (config : Config) (version locator : String) (records : PyList Document) (offset : Nat) :
    QueryPage.unmarshal (pageDocument config version locator records.items offset) =
      (unmarshalAll (pageRecords config records.items offset)).map fun found => {
        totalSize := records.items.length
        done := lastPage config records.items offset
        nextRecordsUrl :=
          if lastPage config records.items offset then "" else nextRecordsUrl version locator (offset + config.pageSize)
        records := found } := by
  cases last : lastPage config records.items offset <;>
    cases decoded : unmarshalAll (pageRecords config records.items offset) <;>
      simp [pageDocument, last, QueryPage.unmarshal, QueryPage.setFields, QueryPage.setField, setInt_length,
        QueryPage.setBool, QueryPage.setRecords, QueryPage.zero, decoded, Except.map, bind, Except.bind]

theorem readPage_reply (apiVersion clientId clientSecret : String) (document : Document) :
    (client apiVersion clientId clientSecret).readPage (reply 200 document) =
      match QueryPage.unmarshal document with
      | .error err => .error (.other err)
      | .ok page =>
          .ok ⟨page.records, if page.done ∨ page.nextRecordsUrl = "" then none else some page.nextRecordsUrl⟩ := rfl

theorem reads_client (apiVersion clientId clientSecret : String) :
    Reads (client apiVersion clientId clientSecret) fun v => (Opportunity.unmarshal v).toOption where
  refuses := by
    intro response fails
    have other : response.status ≠ 200 := by
      intro ok
      exact fails (by rw [ok]; exact ⟨Nat.le_refl _, by omega⟩)
    exact ⟨_, if_pos other⟩
  reads := by
    intro config version locator records offset found decoded
    rw [← toOption_unmarshalAll] at decoded
    cases all : unmarshalAll (pageRecords config records.items offset) with
    | error err =>
        rw [all] at decoded
        cases decoded
    | ok os =>
        rw [all] at decoded
        cases decoded
        have page := unmarshal_page config version locator records offset
        rw [all] at page
        rw [readPage_reply, page]
        cases last : lastPage config records.items offset with
        | true => simp [Except.map]
        | false => simp [Except.map, nextRecordsUrl_ne_empty]
  rejects := by
    intro config version locator records offset fails
    rw [← toOption_unmarshalAll] at fails
    cases all : unmarshalAll (pageRecords config records.items offset) with
    | error err =>
        have page := unmarshal_page config version locator records offset
        rw [all] at page
        rw [readPage_reply, page]
        exact ⟨_, rfl⟩
    | ok os =>
        rw [all] at fails
        cases fails

end Relay.Salesforce
