import Relay.Numeric.Binary64
import Relay.Platform.Interface
import Relay.Python.Datetime
import Relay.Python.Decimal
import Relay.Python.Exceptions

/-!
What follows from a failure: whether it is retried, after which delay, and the
failures that the chaos flags inject.
-/

namespace Relay.Worker

open Relay.Platform Relay.Python Relay.Effect Relay.Numeric

/-! ### Transient or permanent -/

inductive Kind where
  | transient
  | permanent
deriving DecidableEq, Repr

structure Decision where
  kind : Kind
  reason : String
deriving DecidableEq, Repr

/-- Unknown errors are transient on purpose. -/
def classify : Exn → Decision
  | .permanentError reason _ => ⟨.permanent, reason⟩
  | .erpRejected _ => ⟨.permanent, "erp_rejected"⟩
  | .erpUnavailable _ => ⟨.transient, "erp_unavailable"⟩
  | exc => ⟨.transient, "unexpected:" ++ exc.typeName⟩

/-! ### Backoff -/

/-- SQS's hard limit. -/
def maxVisibilityTimeout : Int := 12 * 60 * 60

/-- The delay without jitter. An integer of `2 ^ 1024` or more is no float. -/
def delay (attempt : Int) (base cap : ℚ) : Except Exn ℚ :=
  let doublings := (max 1 attempt - 1).toNat
  if 1024 ≤ doublings then .error (.other "OverflowError" "int too large to convert to float")
  else .ok (min cap (base * 2 ^ doublings))

/-- The delay before the next receive, in whole seconds. -/
def nextVisibilityTimeout (attempt : Int) (base cap : ℚ) : Act (Except Exn Int) :=
  match delay attempt base cap with
  | .error exc => pure (.error exc)
  | .ok delay => do
      let draw ← Act.random
      return .ok (min maxVisibilityTimeout ⌈delay + base * draw⌉)

/-! ### Chaos flags -/

structure Chaos where
  erpFailRate : Binary64
  crashAfter : Int

namespace Chaos

def off : Chaos := ⟨.finite false 0, 0⟩

/-- `float(value)`, or the default for a missing, empty or unreadable one. -/
def float (value : Option String) (default : Binary64) : Binary64 :=
  match value with
  | none => default
  | some "" => default
  | some text =>
      match floatText? text.toList with
      | some (.finite d) => .ofRat d.neg |d.value|
      | some (.infinity neg) => .infinity neg
      | some .nan => .nan
      | none => default

/-- `int(x)`. -/
def int : Binary64 → Except Exn Int
  | .finite neg x => .ok (if neg then -⌊x⌋ else ⌊x⌋)
  | .infinity _ => .error (.other "OverflowError" "cannot convert float infinity to integer")
  | .nan => .error (.other "ValueError" "cannot convert float NaN to integer")

/-- The part of a parameter's name after its last slash. -/
def baseName (name : String) : String :=
  String.ofList ((name.toList.reverse.takeWhile (· ≠ '/')).reverse)

/-- The value stored under a name; of two, the last one. -/
def valueOf (params : List (String × String)) (name : String) : Option String :=
  (params.reverse.find? fun p => baseName p.1 = name).map Prod.snd

def ofParameters (params : List (String × String)) : Except Exn Chaos :=
  (int (float (valueOf params "worker_crash_after") (.finite false 0))).map fun crashAfter =>
    ⟨float (valueOf params "erp_fail_rate") (.finite false 0), crashAfter⟩

/-- Read the chaos flags; a failed call means that there are none. -/
def load (paramPrefix : String) : Act (Except Exn Chaos) := do
  match ← Act.getParameters [paramPrefix ++ "/chaos/erp_fail_rate",
      paramPrefix ++ "/chaos/worker_crash_after"] with
  | .error _ => return .ok off
  | .ok params => return ofParameters params

/-- `draw < rate`. -/
def hits (rate : Binary64) (draw : ℚ) : Bool :=
  match rate with
  | .finite false x => decide (draw < x)
  | .infinity false => true
  | _ => false

/-- `rate > 0`. -/
def isPositive : Binary64 → Bool
  | .finite false x => decide (0 < x)
  | .infinity false => true
  | _ => false

def maybeFailErp (chaos : Chaos) : Act (Except Exn Unit) :=
  if isPositive chaos.erpFailRate then do
    let draw ← Act.random
    return if hits chaos.erpFailRate draw then
      .error (.erpUnavailable "ThrottlingException (injected by chaos flag)")
    else .ok ()
  else pure (.ok ())

def maybeCrash (chaos : Chaos) (processed : Nat) : Except Exn Unit :=
  if 0 < chaos.crashAfter ∧ chaos.crashAfter ≤ processed then
    .error (.workerCrash ("chaos: worker crashed after " ++ toString processed ++ " record(s)"))
  else .ok ()

end Chaos

end Relay.Worker
