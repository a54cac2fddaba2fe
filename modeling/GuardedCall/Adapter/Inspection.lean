-- Everything that an adapter says about one value.
import GuardedCall.Adapter.Basic

namespace GuardedCall

/-- What an adapter says about a value under a schema. The three parts do not
depend on each other. -/
structure Inspection where
  accepted : Except AdapterFault Bool
  reason : Option String
  /-- The value that was read and written again. -/
  decoded : Except AdapterFault (Except Typed.EncodeFault Json)

def Adapter.inspect {S : Type → Type} {α : Type} (a : Adapter S) (schema : S α) (v : Json) :
    Inspection where
  accepted := a.validate schema v
  reason := a.diagnose schema v
  decoded := (a.decode schema v).map (a.encode schema)

end GuardedCall
