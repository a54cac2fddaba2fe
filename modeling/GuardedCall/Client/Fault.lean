-- What can go wrong on the side of a client.
import GuardedCall.Adapter.Kind

namespace GuardedCall

/-- Why a call of a client fails. -/
inductive ClientFault where
  /-- The server reports a failure of this kind. -/
  | remote (kind : FailureKind) (message : String)
  /-- The transport could not deliver the call or its reply. -/
  | transport (message : String)
  /-- A value or a reply cannot be written or read. -/
  | json (message : String)
  /-- The client has no procedure at this path. -/
  | unknownProcedure (path : String)
deriving DecidableEq

namespace ClientFault

/-- The kind of a fault; that of the server where the server reports one. -/
def kind : ClientFault → FailureKind
  | .remote k _ => k
  | .transport _ | .json _ => .transport
  | .unknownProcedure _ => .notFound

/-- The name of the kind of fault. -/
def label : ClientFault → String
  | .remote _ _ => "Remote"
  | .transport _ => "Transport"
  | .json _ => "Json"
  | .unknownProcedure _ => "UnknownProcedure"

def message : ClientFault → String
  | .remote k m => "remote " ++ k.name ++ ": " ++ m
  | .transport m => "transport error: " ++ m
  | .json m => "json error: " ++ m
  | .unknownProcedure path => "no procedure at path " ++ path

end ClientFault

end GuardedCall
