-- A JSON value as it is shown to developers: every part with the name of
-- its kind.
import GuardedCall.Json.Printer
import GuardedCall.Text.Quoted

namespace GuardedCall.Json

mutual

/-- A value with the kind of every part. -/
def shown : Json → String
  | .null => "Null"
  | .bool b => "Bool(" ++ (if b then "true" else "false") ++ ")"
  | .number n => "Number(" ++ String.ofList (numberText n) ++ ")"
  | .string s => "String(" ++ Text.quoted s ++ ")"
  | .array items => "Array [" ++ Text.joinWith ", " (shownItems items) ++ "]"
  | .object members => "Object \x7b" ++ Text.joinWith ", " (shownMembers members) ++ "\x7d"

def shownItems : List Json → List String
  | [] => []
  | v :: rest => shown v :: shownItems rest

/-- The members with the kinds of their values. -/
def shownMembers : List (String × Json) → List String
  | [] => []
  | (k, v) :: rest => (Text.quoted k ++ ": " ++ shown v) :: shownMembers rest

end

end GuardedCall.Json
