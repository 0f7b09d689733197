import Relay.Ingest.Watermark
import Relay.Salesforce.Client

/-!
One poll of the window from the watermark up to Salesforce's clock less the lag.

`run` reads the watermark, Salesforce's clock and the window's rows, publishes one
event per row and moves the watermark: to the end of the window, or, when the
publisher stopped, up to the first event that was not sent.
-/

namespace Relay.Ingest

open Relay.Json Relay.Effect Relay.Platform Relay.Salesforce Relay.Events

structure Poller where
  watermark : SSMWatermark
  lag : Int

/-- What a run returns with or without an error. -/
structure Result where
  from_ : Int
  to_ : Int
  found : Nat
  published : Nat
  events : List String

/-- `time.Time{}`: the start of the year 1. -/
def zeroTime : Int := -62135596800 * nanosPerSecond

inductive RunError where
  | readWatermark (message : String)
  | serverTime (message : String)
  | query (message : String)
  | event (id systemModstamp : String)
  /-- A slice of the events out of range. -/
  | panic
  | publish (sent found : Nat) (err : PublishError)
  | publishAndWrite (err : PublishError) (message : String)
  | writeWatermark (message : String)

def RunError.text : RunError → String
  | readWatermark message => "read watermark: " ++ message
  | serverTime message => message
  | query message => message
  | event id systemModstamp =>
      "opportunity " ++ id ++ ": not a Salesforce datetime: " ++ quoted systemModstamp
  | panic => "runtime error: slice bounds out of range"
  | publish sent found err =>
      "published " ++ toString sent ++ " of " ++ toString found ++ " events: " ++ err.text
  | publishAndWrite err message =>
      "publish failed (" ++ err.text ++ ") and watermark write failed: " ++ message
  | writeWatermark message => "write watermark: " ++ message

/-- The query of one window. -/
def query (from_ upper : Int) : Soql := .wonBetween (literal from_) (literal upper)

/-- The events of the rows, each published at its own reading of the clock. -/
def buildEvents : List (Salesforce.Opportunity Token) → Act (Except RunError (List Event))
  | [] => pure (.ok [])
  | row :: rest => do
      let now ← Act.timeNow
      match fromOpportunity row now with
      | none => return .error (.event row.id row.systemModstamp)
      | some ev =>
          match ← buildEvents rest with
          | .error err => return .error err
          | .ok evs => return .ok (ev :: evs)

/-- The stamp of the first event that was not sent, if the watermark may move there. -/
def resumeAt (from_ : Int) (sent : Nat) (evs : List Event) : Option Int :=
  match evs[sent]? with
  | some ev => if 0 < sent ∧ from_ < ev.modstamp then some ev.modstamp else none
  | none => none

namespace Poller

/-- The window's events were given to the publisher. -/
def finish (p : Poller) (from_ upper : Int) (evs : List Event) (sent : Nat) (pubErr : Option PublishError) :
    Act (Result × Option RunError) :=
  let res : Result := ⟨from_, upper, evs.length, sent, (evs.take sent).map OpportunityEvent.eventKey⟩
  match pubErr with
  | some err =>
      match resumeAt from_ sent evs with
      | some t => do
          match ← p.watermark.set t with
          | .error message => return ({ res with to_ := t }, some (.publishAndWrite err message))
          | .ok () => return ({ res with to_ := t }, some (.publish sent evs.length err))
      | none => pure ({ res with to_ := from_ }, some (.publish sent evs.length err))
  | none => do
      match ← p.watermark.set upper with
      | .error message => return (res, some (.writeWatermark message))
      | .ok () => return (res, none)

/-- Publish the rows of one window. -/
def publishRows (p : Poller) (from_ upper : Int) (rows : List (Salesforce.Opportunity Token)) :
    Act (Result × Option RunError) := do
  match ← buildEvents rows with
  | .error err => return (⟨from_, from_, rows.length, 0, []⟩, some err)
  | .ok evs => do
      let (sent, pubErr) ← publish evs
      if 0 ≤ sent ∧ sent ≤ evs.length then p.finish from_ upper evs sent.toNat pubErr
      else return (⟨zeroTime, zeroTime, 0, 0, []⟩, some .panic)

/-- Poll one window and advance the watermark past what was published. -/
def run (p : Poller) : Act (Result × Option RunError) := do
  match ← p.watermark.get with
  | .error err => return (⟨zeroTime, zeroTime, 0, 0, []⟩, some (.readWatermark err))
  | .ok from_ => do
      match ← Act.serverTime with
      | .error err => return (⟨from_, from_, 0, 0, []⟩, some (.serverTime err))
      | .ok serverNow =>
          let upper := truncateSecond (serverNow - p.lag)
          -- The window is empty.
          if upper ≤ from_ then return (⟨from_, from_, 0, 0, []⟩, none)
          else
            match ← queryAll (query from_ upper) with
            | .error err => return (⟨from_, from_, 0, 0, []⟩, some (.query err))
            | .ok rows => p.publishRows from_ upper rows

end Poller

end Relay.Ingest
