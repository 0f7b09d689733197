import Relay.Worker.App

/-!
The event source mapping between the main queue and the worker.

`cycle` receives a batch, invokes the worker and deletes every message the worker
did not report as failed. `batchItemFailures` must name messages of the batch, or
the whole batch counts as failed, as it does when the invocation raised.
-/

namespace Relay.Delivery

open Relay.Platform Relay.Python Relay.Effect Relay.Worker

def batchSize : Nat := 10

/-- A received message as the event holds it. -/
def toRecord (msg : Sqs.Received) : Record where
  messageId := msg.message.messageId
  receiptHandle := msg.receiptHandle
  body := msg.message.body
  approximateReceiveCount := msg.approximateReceiveCount
  messageAttributes := msg.message.attributes
  eventSource := .main

/-- The ids a response reports as failed; nothing when the whole batch failed. -/
def failedIds (records : List Record) : Except Exn (List String) → Option (List String)
  | .error _ => none
  | .ok items =>
      if items.all fun ident => ident ≠ "" ∧ ident ∈ records.map Record.messageId then some items
      else none

/-- Invoke the worker on a batch. -/
def invoke (rt : Runtime) (settings : Settings) (records : List Record) :
    Act (Option (List String)) := do
  let response ← handler rt settings records
  return failedIds records response

/-- One batch. -/
def cycle (rt : Runtime) (settings : Settings) : Act Unit := do
  match ← Act.receiveMessage .main batchSize with
  | .error _ => return ()
  | .ok [] => return ()
  | .ok messages => do
      match ← invoke rt settings (messages.map toRecord) with
      | none => return ()
      | some failed =>
          match messages.filter fun m => m.message.messageId ∉ failed with
          | [] => return ()
          | done => do
              let _ ← Act.deleteMessageBatch .main (done.map Sqs.Received.receiptHandle)
              return ()

end Relay.Delivery
