import Relay.Platform.Interface
import Relay.Salesforce.Org

/-!
The shared world, and what each call may see and do of it.

`Services` stands for what the services decide for themselves: the order in
which a scan visits keys. A result about all of them holds for every `Services`.
-/

namespace Relay.Platform

open Relay.Salesforce Relay.Json

structure World where
  erp : Dynamo.State Erp.Table
  sqs : Sqs.State Queue
  parameters : String → Option String
  org : List Deal
  /-- Every time Salesforce's clock was read, with what it returned. -/
  serverTimes : List Int
  /-- Every query that was answered, with the org it was answered from. -/
  reads : List (Soql × List Deal)

/-- A world with empty tables, queues and org. -/
def World.empty : World := ⟨Dynamo.State.empty, Sqs.State.empty, fun _ => none, [], [], []⟩

structure Services where
  /-- Where a scan has a key. -/
  rank : String → Nat

namespace Services

/-- The keys a page that starts after `start` and ends with `last` covers. -/
def Covers (S : Services) (start last : Option String) (key : String) : Prop :=
  (∀ k ∈ start, S.rank k < S.rank key) ∧ ∀ k ∈ last, S.rank key ≤ S.rank k

/-- A page holds the items of the keys it covers, and a page that is not the
last one covers some. -/
structure IsPage (S : Services) (db : String → Option Dynamo.Item) (start : Option String)
    (page : Page) : Prop where
  sound : ∀ item ∈ page.items, ∃ key, S.Covers start page.lastEvaluatedKey key ∧ db key = some item
  complete : ∀ key item, S.Covers start page.lastEvaluatedKey key → db key = some item →
    item ∈ page.items
  advances : ∀ k ∈ start, ∀ k' ∈ page.lastEvaluatedKey, S.rank k < S.rank k'

/-- What a call may see, and how it may leave the world. -/
def Answers (S : Services) : (request : Request) → World → request.Answer → World → Prop
  | .transactWriteItems items, w, reply, w' =>
      ∃ erp, Dynamo.Answers items w.erp reply erp ∧ w' = { w with erp := erp }
  | .getItem table key, w, reply, w' =>
      w' = w ∧ ∀ item, reply = .ok item → item = w.erp.db table key
  | .scan table start, w, reply, w' =>
      w' = w ∧ ∀ page, reply = .ok page → S.IsPage (w.erp.db table) start page
  | .receiveMessage queue _, w, reply, w' =>
      ∃ sqs, Sqs.Receives queue w.sqs reply sqs ∧ w' = { w with sqs := sqs }
  | .sendMessage queue body attributes, w, reply, w' =>
      ∃ sqs, Sqs.Sends queue body attributes w.sqs reply sqs ∧ w' = { w with sqs := sqs }
  | .sendMessageBatch queue entries, w, reply, w' =>
      ∃ sqs, Sqs.SendsBatch queue entries w.sqs reply sqs ∧ w' = { w with sqs := sqs }
  | .deleteMessage queue receipt, w, _, w' =>
      ∃ sqs, Sqs.Deletes queue receipt w.sqs sqs ∧ w' = { w with sqs := sqs }
  | .deleteMessageBatch queue receipts, w, _, w' =>
      ∃ sqs, Sqs.DeletesBatch queue receipts w.sqs sqs ∧ w' = { w with sqs := sqs }
  | .changeMessageVisibility _ _ _, w, _, w' => w' = w
  | .getParameter name, w, reply, w' =>
      w' = w ∧ match reply with
        | .ok value => w.parameters name = some value
        | .error .notFound => w.parameters name = none
        | .error (.other _) => True
  | .getParameters _, w, _, w' => w' = w
  | .putParameter name value, w, reply, w' =>
      (w' = w ∨ w' = { w with parameters := Function.update w.parameters name (some value) }) ∧
        (reply = .ok () → w' = { w with parameters := Function.update w.parameters name (some value) })
  | .serverTime, w, reply, w' =>
      w' = { w with serverTimes := match reply with
        | .ok time => w.serverTimes ++ [time]
        | .error _ => w.serverTimes }
  | .queryAll soql, w, reply, w' =>
      match reply with
      | .ok rows => soql.Selects w.org rows ∧ w' = { w with reads := w.reads ++ [(soql, w.org)] }
      | .error _ => w' = w
  | .utcNow, w, _, w' => w' = w
  | .timeNow, w, _, w' => w' = w
  | .remainingTime, w, _, w' => w' = w
  | .random, w, draw, w' => w' = w ∧ 0 ≤ draw ∧ draw < 1

end Services

end Relay.Platform
