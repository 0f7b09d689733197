import Relay.Dynamo.Table

/-!
The exceptions of the Python components, as far as their handlers tell them
apart.
-/

namespace Relay.Python

inductive Exn where
  /-- The message itself is wrong. -/
  | permanentError (reason detail : String)
  /-- The ERP couldn't take the write right now. -/
  | erpUnavailable (message : String)
  /-- The ERP refused the item itself. -/
  | erpRejected (message : String)
  | clientError (response : Dynamo.ErrorResponse)
  | workerCrash (message : String)
  | other (typeName message : String)

/-- `str(exc)` of the exceptions whose text is kept. -/
def Exn.text : Exn → String
  | .permanentError reason detail => if detail = "" then reason else s!"{reason}: {detail}"
  | .erpUnavailable message => message
  | .erpRejected message => message
  | .clientError response => response.message.getD ""
  | .workerCrash message => message
  | .other _ message => message

/-- `type(exc).__name__`. -/
def Exn.typeName : Exn → String
  | .permanentError _ _ => "PermanentError"
  | .erpUnavailable _ => "ErpUnavailable"
  | .erpRejected _ => "ErpRejected"
  | .clientError _ => "ClientError"
  | .workerCrash _ => "WorkerCrash"
  | .other typeName _ => typeName

end Relay.Python
