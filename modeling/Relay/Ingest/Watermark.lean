import Relay.Ingest.Publisher
import Relay.Salesforce.Datetime

/-!
The watermark, kept as a datetime literal in an SSM parameter.
-/

namespace Relay.Ingest

open Relay.Effect Relay.Platform Relay.Salesforce

structure SSMWatermark where
  name : String
  /-- Used when the parameter does not exist yet. -/
  start : Int

/-- `ParseDateTime`, with its error. -/
def readDateTime (s : String) : Except String Int :=
  match parseDateTime s with
  | some t => .ok t
  | none => .error ("not a Salesforce datetime: " ++ quoted s)

namespace SSMWatermark

def get (mark : SSMWatermark) : Act (Except String Int) := do
  match ← Act.getParameter mark.name with
  | .error .notFound => return .ok mark.start
  | .error (.other err) => return .error err
  | .ok value => return readDateTime value

def set (mark : SSMWatermark) (t : Int) : Act (Except String Unit) :=
  Act.putParameter mark.name (literal t)

end SSMWatermark

end Relay.Ingest
