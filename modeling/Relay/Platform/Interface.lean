import Relay.Dynamo.Table
import Relay.Effect.Prog
import Relay.Erp.Schema
import Relay.Salesforce.Soql
import Relay.Sqs.Queue

/-!
The calls the components make: to DynamoDB, SQS, the parameter store, Salesforce,
and to the clock and the random number generator of their own process.

A call's answer says what its caller can see of it. A failed call is an
`Except.error`, with the error's text where the caller keeps no more of it. Times
are counted from 1970-01-01T00:00:00Z: a Go time in nanoseconds, a Python one in
microseconds.
-/

namespace Relay.Platform

open Relay.Effect

inductive Queue where
  | main
  | deadLetters
deriving DecidableEq, Repr

/-- One page of a scan. -/
structure Page where
  items : List Dynamo.Item
  lastEvaluatedKey : Option String

inductive ParameterError where
  | notFound
  | other (message : String)

inductive Request where
  | transactWriteItems (items : List (Dynamo.Update Erp.Table))
  /-- A strongly consistent read. -/
  | getItem (table : Erp.Table) (key : String)
  | scan (table : Erp.Table) (exclusiveStartKey : Option String)
  | receiveMessage (queue : Queue) (maxNumberOfMessages : Nat)
  | sendMessage (queue : Queue) (body : String) (attributes : List (String × String))
  | sendMessageBatch (queue : Queue) (entries : List Sqs.Entry)
  | deleteMessage (queue : Queue) (receipt : Sqs.Receipt)
  | deleteMessageBatch (queue : Queue) (receipts : List Sqs.Receipt)
  | changeMessageVisibility (queue : Queue) (receipt : Sqs.Receipt) (seconds : Int)
  | getParameter (name : String)
  | getParameters (names : List String)
  | putParameter (name value : String)
  | serverTime
  | queryAll (soql : Salesforce.Soql)
  /-- `datetime.now(UTC)`. -/
  | utcNow
  /-- `time.Now()`. -/
  | timeNow
  /-- The milliseconds left before the invocation times out. -/
  | remainingTime
  /-- A draw from the interval from 0 to 1. -/
  | random

namespace Request

@[reducible] def Answer : Request → Type
  | transactWriteItems _ => Except Dynamo.Fault Unit
  | getItem _ _ => Except Dynamo.Fault (Option Dynamo.Item)
  | scan _ _ => Except Dynamo.Fault Page
  | receiveMessage _ _ => Except String (List Sqs.Received)
  | sendMessage _ _ _ => Except String Unit
  | sendMessageBatch _ _ => Except String Sqs.BatchReply
  | deleteMessage _ _ => Except String Unit
  | deleteMessageBatch _ _ => Except String Unit
  | changeMessageVisibility _ _ _ => Except String Unit
  | getParameter _ => Except ParameterError String
  | getParameters _ => Except String (List (String × String))
  | putParameter _ _ => Except String Unit
  | serverTime => Except String Int
  | queryAll _ => Except String (List (Json.Value Json.Token))
  | utcNow => Int
  | timeNow => Int
  | remainingTime => Option Int
  | random => ℚ

end Request

/-- A program of one component. -/
abbrev Act (α : Type) := Prog Request.Answer α

namespace Act

open Request

abbrev transactWriteItems (items : List (Dynamo.Update Erp.Table)) : Act (Except Dynamo.Fault Unit) :=
  Prog.perform (Request.transactWriteItems items)

abbrev getItem (table : Erp.Table) (key : String) : Act (Except Dynamo.Fault (Option Dynamo.Item)) :=
  Prog.perform (Request.getItem table key)

abbrev scan (table : Erp.Table) (exclusiveStartKey : Option String) : Act (Except Dynamo.Fault Page) :=
  Prog.perform (Request.scan table exclusiveStartKey)

abbrev receiveMessage (queue : Queue) (maxNumberOfMessages : Nat) :
    Act (Except String (List Sqs.Received)) :=
  Prog.perform (Request.receiveMessage queue maxNumberOfMessages)

abbrev sendMessage (queue : Queue) (body : String) (attributes : List (String × String)) :
    Act (Except String Unit) :=
  Prog.perform (Request.sendMessage queue body attributes)

abbrev sendMessageBatch (queue : Queue) (entries : List Sqs.Entry) : Act (Except String Sqs.BatchReply) :=
  Prog.perform (Request.sendMessageBatch queue entries)

abbrev deleteMessage (queue : Queue) (receipt : Sqs.Receipt) : Act (Except String Unit) :=
  Prog.perform (Request.deleteMessage queue receipt)

abbrev deleteMessageBatch (queue : Queue) (receipts : List Sqs.Receipt) : Act (Except String Unit) :=
  Prog.perform (Request.deleteMessageBatch queue receipts)

abbrev changeMessageVisibility (queue : Queue) (receipt : Sqs.Receipt) (seconds : Int) :
    Act (Except String Unit) :=
  Prog.perform (Request.changeMessageVisibility queue receipt seconds)

abbrev getParameter (name : String) : Act (Except ParameterError String) :=
  Prog.perform (Request.getParameter name)

abbrev getParameters (names : List String) : Act (Except String (List (String × String))) :=
  Prog.perform (Request.getParameters names)

abbrev putParameter (name value : String) : Act (Except String Unit) :=
  Prog.perform (Request.putParameter name value)

abbrev serverTime : Act (Except String Int) := Prog.perform Request.serverTime

abbrev queryAll (soql : Salesforce.Soql) : Act (Except String (List (Json.Value Json.Token))) :=
  Prog.perform (Request.queryAll soql)

abbrev utcNow : Act Int := Prog.perform Request.utcNow

abbrev timeNow : Act Int := Prog.perform Request.timeNow

abbrev remainingTime : Act (Option Int) := Prog.perform Request.remainingTime

abbrev random : Act ℚ := Prog.perform Request.random

end Act

end Relay.Platform
