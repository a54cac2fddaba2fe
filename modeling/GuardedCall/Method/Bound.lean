-- Methods: an implementation behind the checks of its arguments and results.
-- The implementation runs once, and only on an argument that was accepted.
import GuardedCall.Method.Descriptor
import GuardedCall.Method.Later

namespace GuardedCall

variable {S : Type → Type} {σ α β : Type}

/-! ## Calls -/

namespace Descriptor

/-- A call with a typed argument. The implementation gets the argument itself
and the caller its result itself; the checks look at their JSON values. -/
def callWith (d : Descriptor S α β) (run : α → Attempt σ MethodFault β) (x : α) :
    Attempt σ MethodFault β := do
  d.checkInput (← d.encodeInput x)
  let y ← run x
  d.checkOutput (← d.encodeOutput y)
  return y

/-- A call with a JSON value, which gives the JSON value of the result. -/
def callValueWith (d : Descriptor S α β) (run : α → Attempt σ MethodFault β) (v : Json) :
    Attempt σ MethodFault Json := do
  d.checkInput v
  let y ← run (← d.decodeInput v)
  let w ← d.encodeOutput y
  d.checkOutput w
  return w

end Descriptor

/-! ## Methods that run at once -/

/-- An implementation: it fails with a message, or gives a result. -/
abbrev Implementation (σ α β : Type) := α → σ → Except String β × σ

def Implementation.ofTotal (f : α → σ → β × σ) : Implementation σ α β := fun x s =>
  (.ok (f x s).1, (f x s).2)

/-- An implementation behind its checks. -/
structure Method (S : Type → Type) (σ α β : Type) where
  descriptor : Descriptor S α β
  implementation : Implementation σ α β

namespace Method

/-- The implementation as part of a call. -/
def perform (m : Method S σ α β) (x : α) : Attempt σ MethodFault β :=
  (Attempt.change (m.implementation x)).mapError .handler

/-- Calls a method with a typed argument. -/
def call (m : Method S σ α β) (x : α) : Attempt σ MethodFault β :=
  m.descriptor.callWith m.perform x

/-- Calls a method with a JSON value. -/
def callValue (m : Method S σ α β) (v : Json) : Attempt σ MethodFault Json :=
  m.descriptor.callValueWith m.perform v

end Method

/-! ## Methods that complete later -/

/-- An implementation that completes later. -/
abbrev LaterImplementation (σ α β : Type) := α → Later σ (Except String β)

/-- An implementation that runs at once, as one that completes later. -/
def Implementation.later (f : Implementation σ α β) : LaterImplementation σ α β := fun x =>
  .ofFunction (f x)

/-- An implementation that completes later behind its checks. -/
structure LaterMethod (S : Type → Type) (σ α β : Type) where
  descriptor : Descriptor S α β
  implementation : LaterImplementation σ α β

namespace LaterMethod

/-- The implementation as part of a call, which waits until it is done. -/
def perform (m : LaterMethod S σ α β) (x : α) : Attempt σ MethodFault β :=
  (Attempt.change (m.implementation x).finish).mapError .handler

/-- Calls a method with a typed argument. -/
def call (m : LaterMethod S σ α β) (x : α) : Attempt σ MethodFault β :=
  m.descriptor.callWith m.perform x

/-- Calls a method with a JSON value. -/
def callValue (m : LaterMethod S σ α β) (v : Json) : Attempt σ MethodFault Json :=
  m.descriptor.callValueWith m.perform v

end LaterMethod

/-! ## Building methods -/

namespace Adapter

/-- A method of an implementation that cannot fail. -/
def method (a : Adapter S) (input : S α) (output : S β) (f : α → σ → β × σ) : Method S σ α β :=
  ⟨⟨a, input, output⟩, .ofTotal f⟩

/-- A method of an implementation that may fail. -/
def tryMethod (a : Adapter S) (input : S α) (output : S β) (f : Implementation σ α β) :
    Method S σ α β :=
  ⟨⟨a, input, output⟩, f⟩

/-- A method of an implementation that completes later. -/
def laterMethod (a : Adapter S) (input : S α) (output : S β) (f : LaterImplementation σ α β) :
    LaterMethod S σ α β :=
  ⟨⟨a, input, output⟩, f⟩

end Adapter

end GuardedCall
