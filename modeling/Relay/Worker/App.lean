import Relay.Erp.Writer
import Relay.Worker.Classify
import Relay.Worker.Mapping

/-!
Lambda handler: one SQS batch in, a partial batch response out.

A record ends written, duplicate or stale, or is sent to the DLQ: then Lambda
may delete it. Or it is reported failed, and SQS redelivers it. An exception
outside the handling of one record fails the whole invocation.
-/

namespace Relay.Worker

open Relay.Platform Relay.Python Relay.Effect Relay.Erp

/-- The environment variables of the worker. -/
structure Settings where
  paramPrefix : String
  backoffBase : ℚ
  backoffCap : ℚ
  timeGuardMs : Int

/-- One record of the event a batch arrives in. -/
structure Record where
  messageId : String
  receiptHandle : Sqs.Receipt
  body : String
  approximateReceiveCount : Option Int
  messageAttributes : List (String × String)
  /-- The queue that `eventSourceARN` names. -/
  eventSource : Queue

inductive Outcome where
  | result (value : WriteResult)
  | deadLettered
  | retry
  | dlqSendFailed
deriving DecidableEq, Repr

/-- `RETRY_OUTCOMES`. -/
def Outcome.isRetry : Outcome → Bool
  | retry => true
  | dlqSendFailed => true
  | _ => false

/-- `value or "-"`. -/
def orDash (value : String) : String := if value = "" then "-" else value

def eventKey (record : Record) : String :=
  match record.messageAttributes.lookup "event_key" with
  | some key => if key = "" then record.messageId else key
  | none => record.messageId

/-- The attributes of a message that the worker dead-letters. -/
def deadLetterAttributes (record : Record) (reason detail eventKey : String) (now : Int) :
    List (String × String) :=
  [("reason", orDash reason), ("detail", orDash (String.ofList (detail.toList.take 1000))),
    ("event_key", orDash eventKey), ("source_message_id", orDash record.messageId),
    ("failed_at", orDash (isoformat now))]

/-- Send a permanently failed message to the DLQ. True if it's safe to delete. -/
def deadLetter (record : Record) (reason detail eventKey : String) : Act Bool := do
  let now ← Act.utcNow
  match ← Act.sendMessage .deadLetters record.body
      (deadLetterAttributes record reason detail eventKey now) with
  | .ok () => return true
  | .error _ => return false

/-- Set the delay before redelivery; a failure is not fatal. -/
def delayRedelivery (record : Record) (seconds : Int) : Act Unit := do
  let _ ← Act.changeMessageVisibility record.eventSource record.receiptHandle seconds
  return ()

/-- Write the order of a record once the chaos flags let it through. -/
def writeUnlessChaos (rt : Runtime) (chaos : Chaos) (order : Order) : Act (Except Exn WriteResult) := do
  match ← chaos.maybeFailErp with
  | .error exc => return .error exc
  | .ok () => do
      let now ← Act.utcNow
      writeOrder rt.printable order (isoformat now)

def process (rt : Runtime) (record : Record) (chaos : Chaos) : Act (Except Exn WriteResult) :=
  match orderOf rt record.body with
  | .error exc => pure (.error exc)
  | .ok order => writeUnlessChaos rt chaos order

/-- What a failed record ends in. -/
def handleFailure (settings : Settings) (record : Record) (exc : Exn) : Act (Except Exn Outcome) :=
  match (classify exc).kind with
  | .permanent => do
      let parked ← deadLetter record (classify exc).reason exc.text (eventKey record)
      return .ok (if parked then .deadLettered else .dlqSendFailed)
  | .transient => do
      match ← nextVisibilityTimeout (record.approximateReceiveCount.getD 1) settings.backoffBase
          settings.backoffCap with
      | .error exc => return .error exc
      | .ok delay => do
          delayRedelivery record delay
          return .ok .retry

/-- Process one record and return its outcome. -/
def handleRecord (rt : Runtime) (settings : Settings) (record : Record) (chaos : Chaos) :
    Act (Except Exn Outcome) := do
  match ← process rt record chaos with
  | .ok value => return .ok (.result value)
  | .error exc => handleFailure settings record exc

def outOfTime (settings : Settings) : Act Bool := do
  match ← Act.remainingTime with
  | none => return false
  | some remaining => return decide (remaining < settings.timeGuardMs)

/-- The records from the `processed`-th on; `failures` lists those reported
failed so far. -/
def handleRecords (rt : Runtime) (settings : Settings) (chaos : Chaos) :
    (processed : Nat) → (failures : List String) → List Record → Act (Except Exn (List String))
  | _, failures, [] => pure (.ok failures)
  | processed, failures, record :: rest => do
      if ← outOfTime settings then
        return .ok (failures ++ (record :: rest).map Record.messageId)
      else
        match ← handleRecord rt settings record chaos with
        | .error exc => return .error exc
        | .ok outcome =>
            match chaos.maybeCrash (processed + 1) with
            | .error exc => return .error exc
            | .ok () =>
                handleRecords rt settings chaos (processed + 1)
                  (if outcome.isRetry then failures ++ [record.messageId] else failures) rest

/-- The ids listed in `batchItemFailures`, or the exception that fails the
invocation. -/
def handler (rt : Runtime) (settings : Settings) (records : List Record) :
    Act (Except Exn (List String)) := do
  match ← Chaos.load settings.paramPrefix with
  | .error exc => return .error exc
  | .ok chaos => handleRecords rt settings chaos 0 [] records

end Relay.Worker
