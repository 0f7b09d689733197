import Mathlib.Data.List.Sort
import Relay.Platform.Interface

/-!
The operator's DLQ commands.

`peek` receives until it holds enough messages or two receives in a row were
empty in total. Nothing bounds how often it receives messages it already holds,
so its loop takes fuel: `none` is a loop that has not ended yet.
-/

namespace Relay.Relayctl

open Relay.Platform Relay.Effect

/-- One message in the DLQ, as an operator sees it. -/
structure DeadLetter where
  messageId : String
  eventKey : String
  /-- Set when the worker dead-lettered the message itself. -/
  reason : String
  detail : String
  received : Int
  /-- Milliseconds since 1970-01-01T00:00:00Z. -/
  sentAt : Int
  body : String
  receipt : Sqs.Receipt
deriving DecidableEq

/-- Retrying this message can't help. -/
def DeadLetter.permanent (d : DeadLetter) : Bool := d.reason != ""

def attr (m : Sqs.Message) (name : String) : String := (m.attribute? name).getD ""

def toDeadLetter (m : Sqs.Received) : DeadLetter where
  messageId := m.message.messageId
  eventKey := attr m.message "event_key"
  reason := attr m.message "reason"
  detail := attr m.message "detail"
  received := m.approximateReceiveCount.getD 0
  sentAt := m.message.sentTimestamp
  body := m.message.body
  receipt := m.receiptHandle

/-- Add the messages not seen before. -/
def collect (out : List DeadLetter) : List Sqs.Received → List DeadLetter
  | [] => out
  | m :: rest =>
      if m.message.messageId ∈ out.map DeadLetter.messageId then collect out rest
      else collect (out ++ [toDeadLetter m]) rest

/-- The receive loop of `peek`. -/
def peekLoop (limit : Nat) : (fuel empty : Nat) → List DeadLetter →
    Act (Option (List DeadLetter × Option String))
  | 0, _, _ => pure none
  | fuel + 1, empty, out =>
      if out.length < limit ∧ empty < 2 then do
        match ← Act.receiveMessage .deadLetters 10 with
        | .error err => return some (out, some ("receive from DLQ: " ++ err))
        | .ok [] => peekLoop limit fuel (empty + 1) out
        | .ok messages => peekLoop limit fuel empty (collect out messages)
      else pure (some (out.insertionSort (fun a b => a.sentAt ≤ b.sentAt), none))

/-- Receive up to `limit` messages of the DLQ, oldest first, with the error that
ended the loop early. -/
def peek (fuel limit : Nat) : Act (Option (List DeadLetter × Option String)) :=
  peekLoop limit fuel 0 []

/-- Make messages visible again; a failure is ignored. -/
def release : List DeadLetter → Act Unit
  | [] => pure ()
  | m :: rest => do
      let _ ← Act.changeMessageVisibility .deadLetters m.receipt 0
      release rest

/-- What is in the DLQ, without removing anything. -/
def listDLQ (fuel : Nat) : Act (Option (List DeadLetter × Option String)) := do
  match ← peek fuel 100 with
  | none => return none
  | some (msgs, err) => do
      release msgs
      return some (msgs, err)

structure RedriveResult where
  moved : List DeadLetter
  /-- Permanent errors left in place. -/
  skipped : List DeadLetter

/-- The attributes of a copy on the main queue. -/
def redriveAttributes (m : DeadLetter) : List (String × String) :=
  ("redriven_from_dlq", m.messageId) :: (if m.eventKey = "" then [] else [("event_key", m.eventKey)])

/-- The loop of `redrive` over the messages not looked at yet. -/
def redriveLoop (all dryRun : Bool) (result : RedriveResult) (keep : List DeadLetter) :
    List DeadLetter → Act (RedriveResult × Option String)
  | [] => do
      release keep
      return (result, none)
  | m :: rest =>
      if m.permanent && !all then
        redriveLoop all dryRun { result with skipped := result.skipped ++ [m] } (keep ++ [m]) rest
      else if dryRun then
        redriveLoop all dryRun { result with moved := result.moved ++ [m] } (keep ++ [m]) rest
      else do
        match ← Act.sendMessage .main m.body (redriveAttributes m) with
        | .error err =>
            release (keep ++ m :: rest)
            return (result, some ("send " ++ m.messageId ++ " back to the main queue: " ++ err))
        | .ok () =>
            match ← Act.deleteMessage .deadLetters m.receipt with
            | .error err =>
                -- The copy is already on the main queue.
                release (keep ++ rest)
                return (result, some ("delete " ++ m.messageId ++ " from the DLQ: " ++ err))
            | .ok () =>
                redriveLoop all dryRun { result with moved := result.moved ++ [m] } keep rest

/-- Move dead-lettered messages back to the main queue. -/
def redrive (fuel : Nat) (all dryRun : Bool) : Act (Option (RedriveResult × Option String)) := do
  match ← peek fuel 1000 with
  | none => return none
  | some (msgs, some err) => do
      release msgs
      return some (⟨[], []⟩, some err)
  | some (msgs, none) => do
      let done ← redriveLoop all dryRun ⟨[], []⟩ [] msgs
      return some done

/-- The loop of `ack` over the messages not looked at yet. -/
def ackLoop (id : String) (acked keep : List DeadLetter) : List DeadLetter → Act (List DeadLetter)
  | [] => do
      release keep
      return acked
  | m :: rest =>
      if m.messageId ≠ id ∧ m.eventKey ≠ id then ackLoop id acked (keep ++ [m]) rest
      else do
        match ← Act.deleteMessage .deadLetters m.receipt with
        | .error _ => ackLoop id acked (keep ++ [m]) rest
        | .ok () => ackLoop id (acked ++ [m]) keep rest

/-- Delete dead-lettered messages whose event key or message id matches `id`. -/
def ack (fuel : Nat) (id : String) : Act (Option (List DeadLetter × Option String)) := do
  match ← peek fuel 1000 with
  | none => return none
  | some (msgs, some err) => do
      release msgs
      return some ([], some err)
  | some (msgs, none) => do
      let acked ← ackLoop id [] [] msgs
      return some (acked, none)

end Relay.Relayctl
