-- Sample implementations: small functions with which methods, routers and
-- clients can be tried.
import GuardedCall.Adapter.Passthrough
import GuardedCall.Method.Bound
import GuardedCall.Sample.Grid
import GuardedCall.Typed.Event
import GuardedCall.Typed.Records

namespace GuardedCall

open GuardedCall.Typed

/-- A function that may fail, with the types of its arguments and results. -/
structure SampleFunction (α β : Type) where
  input : Codec α
  output : Codec β
  run : α → Except String β
  /-- How an argument is given by hand. It may be one that has no JSON form. -/
  argument : Json → Except DecodeFault α

namespace SampleFunction

variable {α β : Type}

/-- A function whose arguments are given in their JSON form. -/
def ofRun (input : Codec α) (output : Codec β) (run : α → Except String β) : SampleFunction α β :=
  ⟨input, output, run, input.decodeJson⟩

def ofTotal (input : Codec α) (output : Codec β) (f : α → β) : SampleFunction α β :=
  ofRun input output fun x => .ok (f x)

/-- The function as an implementation that counts how often it runs. -/
def counted (f : SampleFunction α β) : Implementation Nat α β := fun x n => (f.run x, n + 1)

/-- The function as an implementation that waits once before it runs. -/
def countedLater (f : SampleFunction α β) : LaterImplementation Nat α β := fun x =>
  .pause (.ofFunction (f.counted x))

end SampleFunction

/-- A function of any types. -/
inductive Sample where
  /-- A function on JSON values. -/
  | untyped (run : Json → Except String Json)
  | typed {α β : Type} (f : SampleFunction α β)

end GuardedCall
