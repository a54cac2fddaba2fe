-- The adapter whose schemas are types: a value is accepted when it reads as
-- a value of the type, so checking and decoding cannot disagree.
--
-- A check only looks at the value, decoding takes it apart, and a type may have
-- a reader of its own for each. The two are taken to agree, in what they read
-- and in what they say is wrong: `decodeJson` stands for both.
import GuardedCall.Adapter.Basic

namespace GuardedCall

open GuardedCall.Typed

/-- The schema that a type is, by the way its values are read. -/
structure TypeSchema (α : Type) where
  codec : Codec α

/-- How a type is shown as a schema. -/
def TypeSchema.text {α : Type} (s : TypeSchema α) : String := "SerdeSchema<" ++ s.codec.name ++ ">"

def byType : Adapter TypeSchema where
  name := "serde"
  validate s v := .ok (s.codec.decodeJson v).toBool
  diagnose s v :=
    match s.codec.decodeJson v with
    | .ok _ => none
    | .error f => some f.message
  codec s := s.codec

end GuardedCall
