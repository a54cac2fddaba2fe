-- What a value has against a schema, and how it is said.
import GuardedCall.Json.Printer
import GuardedCall.Schema.Pattern
import GuardedCall.Text.Quoted

namespace GuardedCall.Schema

open GuardedCall
open GuardedCall.Text (joinWith)

/-- The lists of schemas of which some, but not all, have to hold. -/
inductive Choice where
  | anyOf
  | oneOf
deriving DecidableEq

def Choice.keyword : Choice → String
  | .anyOf => "anyOf"
  | .oneOf => "oneOf"

/-- One thing that a value has against a schema. -/
inductive Violation where
  /-- The schema allows no value. -/
  | nothingAllowed (value : Json)
  | wrongType (value : Json) (types : List String)
  | notConstant (expected : Json)
  | notListed (value : Json) (options : List Json)
  | belowMinimum (value : Json) (limit : Number)
  | aboveMaximum (value : Json) (limit : Number)
  /-- At or below a minimum that is itself excluded. -/
  | notAboveMinimum (value : Json) (limit : Number)
  /-- At or above a maximum that is itself excluded. -/
  | notBelowMaximum (value : Json) (limit : Number)
  | notMultiple (value : Json) (divisor : Number)
  | tooShort (value : Json) (limit : Nat)
  | tooLong (value : Json) (limit : Nat)
  | tooFewItems (value : Json) (limit : Nat)
  | tooManyItems (value : Json) (limit : Nat)
  | tooFewProperties (value : Json) (limit : Nat)
  | tooManyProperties (value : Json) (limit : Nat)
  | missingProperty (name : String)
  | noMatch (value : Json) (pattern : String)
  | badFormat (value : Json) (format : String)
  | repeatedItems (value : Json)
  | furtherProperties (names : List String)
  | furtherItems (items : List Json)
  /-- Too few items are as one of them has to be, or too many. -/
  | noneContained (value : Json)
  | noBranch (value : Json) (choice : Choice)
  | severalBranches (value : Json)
  | forbidden (schema value : Json)
  | unevaluatedProperties (names : List String)
  | unevaluatedItems (items : List Json)

namespace Violation

/-- The word for one thing or for several. -/
def plural (n : Nat) (one many : String) : String := if n = 1 then one else many

/-- A limit with the word for what it counts. -/
def counted (n : Nat) (one many : String) : String := toString n ++ " " ++ plural n one many

/-- Values to choose from: all of them up to three, else two and a number. -/
def alternatives (options : List Json) : String :=
  match options.map Json.text with
  | [] => ""
  | [a] => a
  | [a, b] => a ++ " or " ++ b
  | [a, b, c] => a ++ ", " ++ b ++ " or " ++ c
  | a :: b :: rest => a ++ ", " ++ b ++ " or " ++ toString rest.length ++ " other candidates"

/-- What nobody expected, in words. -/
def unexpected (things : List String) : String :=
  " are not allowed (" ++ joinWith ", " things ++ plural things.length " was" " were" ++ " unexpected)"

def marked (s : String) : String := "'" ++ s ++ "'"

def inQuotes (s : String) : String := "\"" ++ s ++ "\""

/-- How a divisor is written: as a double, every digit at its place. -/
def divisorText (n : Number) : String :=
  let x := n.toDouble
  String.ofList ((if x.negative then ['-'] else []) ++ Layout.plain.text (Decimal.shortest x))

/-- A name as a string of JSON. -/
def nameText (name : String) : String := Json.text (.string name)

def message : Violation → String
  | .nothingAllowed v => "False schema does not allow " ++ v.text
  | .wrongType v types =>
    v.text ++ " is not of " ++ plural types.length "type " "types " ++
      joinWith ", " (types.map inQuotes)
  | .notConstant expected => expected.text ++ " was expected"
  | .notListed v options => v.text ++ " is not one of " ++ alternatives options
  | .belowMinimum v n => v.text ++ " is less than the minimum of " ++ Json.text (.number n)
  | .aboveMaximum v n => v.text ++ " is greater than the maximum of " ++ Json.text (.number n)
  | .notAboveMinimum v n =>
    v.text ++ " is less than or equal to the minimum of " ++ Json.text (.number n)
  | .notBelowMaximum v n =>
    v.text ++ " is greater than or equal to the maximum of " ++ Json.text (.number n)
  | .notMultiple v n => v.text ++ " is not a multiple of " ++ divisorText n
  | .tooShort v n => v.text ++ " is shorter than " ++ counted n "character" "characters"
  | .tooLong v n => v.text ++ " is longer than " ++ counted n "character" "characters"
  | .tooFewItems v n => v.text ++ " has less than " ++ counted n "item" "items"
  | .tooManyItems v n => v.text ++ " has more than " ++ counted n "item" "items"
  | .tooFewProperties v n => v.text ++ " has less than " ++ counted n "property" "properties"
  | .tooManyProperties v n => v.text ++ " has more than " ++ counted n "property" "properties"
  | .missingProperty name => nameText name ++ " is a required property"
  | .noMatch v pattern =>
    v.text ++ " does not match " ++ inQuotes (String.ofList (Pattern.shown pattern.toList))
  | .badFormat v format => v.text ++ " is not a " ++ inQuotes format
  | .repeatedItems v => v.text ++ " has non-unique elements"
  | .furtherProperties names => "Additional properties" ++ unexpected (names.map marked)
  | .furtherItems items => "Additional items" ++ unexpected (items.map Json.text)
  | .noneContained v => "None of " ++ v.text ++ " are valid under the given schema"
  | .noBranch v choice =>
    v.text ++ " is not valid under any of the schemas listed in the " ++ marked choice.keyword ++
      " keyword"
  | .severalBranches v =>
    v.text ++ " is valid under more than one of the schemas listed in the " ++
      marked Choice.oneOf.keyword ++ " keyword"
  | .forbidden schema v => schema.text ++ " is not allowed for " ++ v.text
  | .unevaluatedProperties names => "Unevaluated properties" ++ unexpected (names.map marked)
  | .unevaluatedItems items =>
    "Unevaluated items" ++ unexpected (items.map fun v => marked v.text)

end Violation

end GuardedCall.Schema
