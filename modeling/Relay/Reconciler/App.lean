import Relay.Reconciler.Reconcile
import Relay.Worker.Classify

/-!
Reconciler Lambda: one comparison, and the re-enqueueing of what it found.
-/

namespace Relay.Reconciler

open Relay.Json Relay.Python Relay.Platform Relay.Effect Relay.Salesforce Relay.Worker Relay.Data

structure Settings where
  paramPrefix : String
  graceMinutes : Int

/-- The invocation's event. -/
structure Invocation where
  graceMinutes : Option Int
  dryRun : Bool

structure Summary where
  report : Report
  reenqueued : Nat
  dryRun : Bool

/-- The parameters of the Salesforce client that are missing. -/
def missingParameters (names : List String) (params : List (String × String)) : List String :=
  names.filter fun name => Chaos.baseName name ∉ params.map fun p => Chaos.baseName p.1

/-- The names of the Salesforce client's parameters. -/
def parameterNames (paramPrefix : String) : List String :=
  ["login_url", "api_version", "client_id", "client_secret"].map fun name =>
    paramPrefix ++ "/salesforce/" ++ name

/-- Read the Salesforce client's parameters. -/
def salesforce (rt : Runtime) (paramPrefix : String) : Act (Except Exn Unit) := do
  match ← Act.getParameters (parameterNames paramPrefix) with
  | .error err => return .error (.other "ClientError" err)
  | .ok params =>
      match missingParameters (parameterNames paramPrefix) params with
      | [] => return .ok ()
      | missing =>
          return .error (.other "RuntimeError"
            ("missing SSM parameters: " ++ String.ofList (repr rt.printable (.arr (missing.map .str)))))

/-- `ev["event_key"]`. -/
def eventKey (event : List (String × Obj)) : String :=
  match dictGet "event_key" event with
  | .str key => key
  | _ => ""

/-- The entries of one batch, numbered from `n`. -/
def entries : (n : Nat) → List (List (String × Obj)) → Except Exn (List Sqs.Entry)
  | _, [] => .ok []
  | n, event :: rest =>
      match dumpsText (.obj event) with
      | .error exc => .error exc
      | .ok body =>
          (entries (n + 1) rest).map
            (⟨toString n, body, [("event_key", eventKey event), ("source", "reconciler")]⟩ :: ·)

/-- Send the batches; the number of entries that SQS accepted. -/
def enqueueBatches (enqueued : Nat) : List (List (List (String × Obj))) → Act (Except Exn Nat)
  | [] => pure (.ok enqueued)
  | chunk :: rest =>
      match entries 0 chunk with
      | .error exc => pure (.error exc)
      | .ok entries => do
          match ← Act.sendMessageBatch .main entries with
          | .error err => return .error (.other "ClientError" err)
          | .ok out => enqueueBatches (enqueued + out.successful.length) rest

/-- The comparison of one invocation. -/
def reconcile (rt : Runtime) (fuel : Nat) (now grace : Int) : Act (Option (Except Exn Report)) := do
  match ← queryAll .won with
  | .error exc => return some (.error exc)
  | .ok records =>
      match ← scanOrderVersions fuel with
      | none => return none
      | some (.error exc) => return some (.error exc)
      | some (.ok orderVersions) =>
          match readRows records with
          | .error exc => return some (.error exc)
          | .ok wonDeals => do
              let report ← compare rt wonDeals orderVersions stageLookup now grace
              return some report

/-- `timedelta(minutes=...)`, in microseconds. -/
def minutes (n : Int) : Int := 60000000 * n

def handler (rt : Runtime) (settings : Settings) (fuel : Nat) (event : Invocation) :
    Act (Option (Except Exn Summary)) := do
  match ← salesforce rt settings.paramPrefix with
  | .error exc => return some (.error exc)
  | .ok () => do
      let now ← Act.utcNow
      match ← reconcile rt fuel now (minutes (event.graceMinutes.getD settings.graceMinutes)) with
      | none => return none
      | some (.error exc) => return some (.error exc)
      | some (.ok report) =>
          if report.toEnqueue.isEmpty || event.dryRun then
            return some (.ok ⟨report, 0, event.dryRun⟩)
          else
            match ← enqueueBatches 0 (batches 10 report.toEnqueue) with
            | .error exc => return some (.error exc)
            | .ok enqueued => return some (.ok ⟨report, enqueued, event.dryRun⟩)

end Relay.Reconciler
