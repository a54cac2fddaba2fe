-- What can go wrong when a method is called.
import GuardedCall.Adapter.Basic

namespace GuardedCall

/-- Why a call of a method fails. -/
inductive MethodFault where
  /-- The argument is not as the input schema asks for. -/
  | invalidInput (adapter detail : String)
  /-- The result is not as the output schema asks for. -/
  | invalidOutput (adapter detail : String)
  /-- The adapter itself is at fault. -/
  | adapterFault (fault : AdapterFault)
  /-- The implementation failed, with this message. -/
  | handler (message : String)
deriving DecidableEq

namespace MethodFault

def kind : MethodFault → FailureKind
  | .invalidInput _ _ => .invalidInput
  | .invalidOutput _ _ => .invalidOutput
  | .adapterFault f => f.kind
  | .handler _ => .handler

/-- The name of the kind of fault. -/
def label : MethodFault → String
  | .invalidInput _ _ => "InvalidInput"
  | .invalidOutput _ _ => "InvalidOutput"
  | .adapterFault _ => "AdapterFault"
  | .handler _ => "Handler"

/-- The wording of a fault. The message of an implementation stays as it is. -/
def message : MethodFault → String
  | .invalidInput adapter detail => "invalid input (" ++ adapter ++ "): " ++ detail
  | .invalidOutput adapter detail => "invalid output (" ++ adapter ++ "): " ++ detail
  | .adapterFault f => f.message
  | .handler m => m

end MethodFault

end GuardedCall
