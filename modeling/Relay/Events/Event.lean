import Relay.Json.Print
import Relay.Salesforce.Client
import Relay.Salesforce.Datetime
import Relay.Salesforce.Org

/-!
The SQS message that the ingest poller publishes, built in Go.
-/

namespace Relay.Events

open Relay.Json Relay.Salesforce

variable {N : Type}

/-- This message format. -/
def schema : String := "relay.opportunity.v1"

/-- The deal fields that the worker maps into the ERP. -/
structure Opportunity (N : Type) where
  id : String
  name : String
  stageName : String
  amount : Option (Number N)
  closeDate : Option String
  accountId : Option String
  accountName : Option String
  systemModstamp : String

/-- One SQS message body. -/
structure OpportunityEvent (N : Type) where
  schema : String
  /-- OpportunityId:SystemModstamp. -/
  eventKey : String
  /-- SystemModstamp as epoch milliseconds. -/
  version : Int
  opportunity : Opportunity N
  publishedAt : String
  /-- The event's SystemModstamp as a time. -/
  modstamp : Int

/-- Build the event for one Salesforce row; an unreadable stamp is an error. -/
def fromOpportunity (o : Salesforce.Opportunity N) (publishedAt : Int) : Option (OpportunityEvent N) :=
  match parseDateTime o.systemModstamp with
  | none => none
  | some stamp =>
      let normalised := String.ofList (formatMillis stamp)
      some {
        schema := schema
        eventKey := o.id ++ ":" ++ normalised
        version := unixMilli stamp
        opportunity := {
          id := o.id
          name := o.name
          stageName := o.stageName
          amount := o.amount
          closeDate := o.closeDate
          accountId := o.accountId
          accountName := o.account.map Account.name
          systemModstamp := normalised }
        publishedAt := String.ofList (formatRFC3339 publishedAt)
        modstamp := stamp }

def Opportunity.json (o : Opportunity N) : Value N :=
  .obj [("id", .str o.id), ("name", .str o.name), ("stage_name", .str o.stageName),
    ("amount", jsonNumber o.amount), ("close_date", jsonText o.closeDate),
    ("account_id", jsonText o.accountId), ("account_name", jsonText o.accountName),
    ("system_modstamp", .str o.systemModstamp)]

/-- The JSON object that `json.Marshal` writes. -/
def OpportunityEvent.json (e : OpportunityEvent N) : Value N :=
  .obj [("schema", .str e.schema), ("event_key", .str e.eventKey), ("version", .int e.version),
    ("opportunity", e.opportunity.json), ("published_at", .str e.publishedAt)]

/-- `json.Marshal`. -/
def marshal (e : OpportunityEvent Token) : String := String.ofList (print .go e.json)

end Relay.Events
