-- What can go wrong when a router is built or called.
import GuardedCall.Method.Fault
import GuardedCall.Text.Quoted

namespace GuardedCall

/-- Why a router cannot be built, or a call of it fails. -/
inductive RouterFault where
  /-- Two entries of one level have this name. -/
  | duplicateName (name : String)
  /-- The name cannot be part of a path. -/
  | invalidName (name : String)
  /-- No procedure is at the path. -/
  | notFound (path : String)
  /-- The procedure at the path failed. -/
  | procedure (path : String) (source : MethodFault)
deriving DecidableEq

namespace RouterFault

/-- The kind of a fault; that of a procedure is the kind of its own fault. -/
def kind : RouterFault → FailureKind
  | .duplicateName _ => .duplicateName
  | .invalidName _ => .invalidName
  | .notFound _ => .notFound
  | .procedure _ source => source.kind

/-- The name of the kind of fault. -/
def label : RouterFault → String
  | .duplicateName _ => "DuplicateName"
  | .invalidName _ => "InvalidName"
  | .notFound _ => "NotFound"
  | .procedure _ _ => "Procedure"

def message : RouterFault → String
  | .duplicateName name => "duplicate router entry name: " ++ name
  | .invalidName name => "invalid router entry name: " ++ Text.quoted name
  | .notFound path => "no procedure at path " ++ path
  | .procedure path source => "procedure " ++ path ++ " failed: " ++ source.message

end RouterFault

end GuardedCall
