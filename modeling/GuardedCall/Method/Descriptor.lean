-- The boundaries of a method: one adapter with the schemas of the arguments
-- and of the results.
import GuardedCall.Attempt
import GuardedCall.Method.Fault

namespace GuardedCall

/-- An adapter with the two schemas of a method. -/
structure Descriptor (S : Type → Type) (α β : Type) where
  adapter : Adapter S
  input : S α
  output : S β

namespace Descriptor

variable {S : Type → Type} {α β σ : Type}

/-- Something that is logged at a boundary. -/
def boundaryEvent (level : LogLevel) (message : String) (fields : List (String × String)) :
    LogEvent :=
  ⟨level, "typeadapt_method::descriptor", message, fields⟩

/-- Whether a value may pass a boundary. The adapter is asked for the reason
only where it does not. -/
def check {γ : Type} (d : Descriptor S α β) (schema : S γ) (side : String)
    (fault : String → String → MethodFault) (v : Json) : Attempt σ MethodFault Unit := do
  let accepted ← .ofExcept ((d.adapter.validate schema v).mapError .adapterFault)
  if accepted then
    .log (boundaryEvent .trace (side ++ " accepted") [("adapter", d.adapter.name)])
  else
    let detail := (d.adapter.diagnose schema v).getD ("value does not match " ++ side ++ " schema")
    .log (boundaryEvent .debug (side ++ " rejected")
      [("adapter", d.adapter.name), ("detail", detail)])
    .fail (fault d.adapter.name detail)

/-- Whether a value may be an argument. -/
def checkInput (d : Descriptor S α β) (v : Json) : Attempt σ MethodFault Unit :=
  d.check d.input "input" .invalidInput v

/-- Whether a value may be a result. -/
def checkOutput (d : Descriptor S α β) (v : Json) : Attempt σ MethodFault Unit :=
  d.check d.output "output" .invalidOutput v

/-- The argument that an accepted value is read as. -/
def decodeInput (d : Descriptor S α β) (v : Json) : Attempt σ MethodFault α :=
  .ofExcept ((d.adapter.decode d.input v).mapError .adapterFault)

/-- The value of an argument. One that has none does not pass the boundary. -/
def encodeInput (d : Descriptor S α β) (x : α) : Attempt σ MethodFault Json :=
  .ofExcept ((d.adapter.encode d.input x).mapError fun f =>
    .invalidInput d.adapter.name ("input cannot be represented: " ++ f.message))

/-- The value of a result. One that has none does not pass the boundary. -/
def encodeOutput (d : Descriptor S α β) (y : β) : Attempt σ MethodFault Json :=
  .ofExcept ((d.adapter.encode d.output y).mapError fun f =>
    .invalidOutput d.adapter.name ("output cannot be represented: " ++ f.message))

end Descriptor

end GuardedCall
