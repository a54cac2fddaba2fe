-- The adapter that lets every value pass and leaves it as it is.
import GuardedCall.Adapter.Basic
import GuardedCall.Typed.Basic

namespace GuardedCall

/-- The schemas of this adapter: there is nothing to say about a JSON value. -/
inductive Untyped : Type → Type where
  | any : Untyped Json

/-- The adapter that lets every value pass. -/
def passthrough : Adapter Untyped where
  name := "passthrough"
  validate _ _ := .ok true
  diagnose _ _ := none
  codec
    | .any => Typed.json

end GuardedCall
