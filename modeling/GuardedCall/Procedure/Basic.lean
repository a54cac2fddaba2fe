-- Procedures: methods of a kind, and what is left of a procedure where its
-- types are forgotten.
import GuardedCall.Method.Bound
import GuardedCall.Procedure.Kind
import GuardedCall.Text.Quoted

namespace GuardedCall

open GuardedCall.Typed

/-- The types of the arguments and of the results, by the way they are
written. -/
structure Signature (α β : Type) where
  input : Codec α
  output : Codec β

def Signature.text {α β : Type} (s : Signature α β) : String :=
  "Signature<" ++ s.input.name ++ " -> " ++ s.output.name ++ ">"

/-- A procedure of which only JSON values are known. -/
structure Endpoint (σ : Type) where
  kind : ProcedureKind
  /-- The name of the adapter. -/
  adapter : String
  invoke : Json → Attempt σ MethodFault Json

def Endpoint.text {σ : Type} (e : Endpoint σ) : String :=
  "Procedure \x7b kind: " ++ e.kind.shown ++ ", adapter: " ++ Text.quoted e.adapter ++ " \x7d"

/-- A method of a kind. -/
structure Procedure (S : Type → Type) (σ α β : Type) where
  kind : ProcedureKind
  method : LaterMethod S σ α β

namespace Procedure

variable {S : Type → Type} {σ α β : Type}

def descriptor (p : Procedure S σ α β) : Descriptor S α β := p.method.descriptor

def signature (p : Procedure S σ α β) : Signature α β :=
  ⟨p.descriptor.adapter.codec p.descriptor.input, p.descriptor.adapter.codec p.descriptor.output⟩

/-- Calls a procedure with a typed argument. -/
def call (p : Procedure S σ α β) (x : α) : Attempt σ MethodFault β := p.method.call x

def endpoint (p : Procedure S σ α β) : Endpoint σ where
  kind := p.kind
  adapter := p.descriptor.adapter.name
  invoke := p.method.callValue

end Procedure

end GuardedCall
