-- The meaning of a schema: a function on values that is put together from
-- the meanings of the schemas inside it. Every keyword has one place in the
-- order of what is said about a value.
import GuardedCall.Schema.Assertion

namespace GuardedCall.Schema

open GuardedCall

/-- What the meaning of a schema depends on beside the schema itself. -/
structure Context where
  dialect : Dialect
  /-- The schema that a reference names. -/
  resolve : String → Check

def Context.isRecent (ctx : Context) : Bool := ctx.dialect ≠ .draft7

/-! ## Objects -/

def membersOf : Json → List (String × Json)
  | .object members => members
  | _ => []

/-- The names that an object has to have and does not have. -/
def missingNames (names : List String) (v : Json) : List Violation :=
  match v with
  | .object members => (names.filter fun n => !Table.has members n).map .missingProperty
  | _ => []

/-- Where the required names of a schema are looked at. -/
inductive RequiredPlace where
  /-- At their own place. -/
  | own
  /-- Just before the schemas of the properties. -/
  | beforeProperties
  /-- Behind the further properties. -/
  | behindProperties
  | nowhere
deriving DecidableEq

/-- What a schema says of further properties. -/
inductive Further where
  /-- Nothing, or that they may be there. -/
  | allowed
  | refused
  | checked (check : Check)

/-- What a schema says of further properties. -/
def further (ps : Parts) : Further :=
  match ps.find? "additionalProperties" with
  | some ⟨.bool false, _, _, _⟩ => .refused
  | some ⟨.object _, check, _, _⟩ => .checked check
  | _ => .allowed

/-- One or two required names beside properties are looked at together with
the properties. -/
def requiredPlace (ps : Parts) : RequiredPlace :=
  let alone := ps.has "properties" && !ps.has "patternProperties"
  match alone, (ps.texts "required").length, further ps with
  | true, 1, .refused => .behindProperties
  | true, 2, .allowed => .beforeProperties
  | true, 2, .checked _ => .nowhere
  | _, _, _ => .own

/-- The required names, if they are looked at here. -/
def requiredFaults (ps : Parts) (here : RequiredPlace) (v : Json) : List Violation :=
  if requiredPlace ps = here then missingNames (ps.texts "required") v else []

/-- What a check has against a value. -/
def faultsOf (check : Check) (v : Json) : List Violation := (check v).violations

/-- What the schema of a property has against its value. -/
def propertyFaults (schemas : List (String × Check)) (name : String) (x : Json) : List Violation :=
  match schemas.lookup name with
  | some check => faultsOf check x
  | none => []

/-- Whether a name matches one of the patterns. -/
def matchesAny (patterns : List (String × Check)) (name : String) : Bool :=
  patterns.any fun p => matchesPattern p.1 name

/-- What the schemas of the patterns that a name matches have against its
value. -/
def patternMemberFaults (patterns : List (String × Check)) (name : String) (x : Json) :
    List Violation :=
  (patterns.filter fun p => matchesPattern p.1 name).flatMap fun p => faultsOf p.2 x

/-- The properties, and then the members that match a pattern. -/
def separateFaults (ps : Parts) (v : Json) : List Violation :=
  ((membersOf v).flatMap fun m => propertyFaults (ps.named "properties") m.1 m.2) ++
    (ps.named "patternProperties").flatMap fun p =>
      ((membersOf v).filter fun m => matchesPattern p.1 m.1).flatMap fun m => faultsOf p.2 m.2

/-- A member that neither the properties nor the patterns of a schema name. -/
def isFurther (ps : Parts) (name : String) : Bool :=
  ((ps.named "properties").lookup name).isNone && !matchesAny (ps.named "patternProperties") name

/-- Member by member: its property, the patterns it matches, and if there is
neither, the schema of further properties. -/
def joinedFaults (ps : Parts) (additional : Check) (v : Json) : List Violation :=
  (membersOf v).flatMap fun m =>
    propertyFaults (ps.named "properties") m.1 m.2 ++
      patternMemberFaults (ps.named "patternProperties") m.1 m.2 ++
      (if isFurther ps m.1 then faultsOf additional m.2 else [])

/-- The members that a schema does not name, if it refuses them. A schema that
names none refuses the value of the first one. -/
def refusedFaults (ps : Parts) (v : Json) : List Violation :=
  if ps.has "properties" || ps.has "patternProperties" then
    match ((membersOf v).map Prod.fst).filter (isFurther ps) with
    | [] => []
    | names => [.furtherProperties names]
  else
    match membersOf v with
    | [] => []
    | (_, x) :: _ => [.nothingAllowed x]

/-- What the schemas of the members of an object have against them. -/
def membersFaults (ps : Parts) (v : Json) : List Violation :=
  requiredFaults ps .beforeProperties v ++
    (match further ps with
      | .allowed => separateFaults ps v
      | .checked additional => joinedFaults ps additional v
      | .refused => joinedFaults ps Check.pass v ++ refusedFaults ps v) ++
    requiredFaults ps .behindProperties v

/-- The schema of names, which looks at each name as a string. -/
def nameFaults (ps : Parts) (v : Json) : List Violation :=
  match ps.find? "propertyNames", membersOf v with
  | some ⟨.bool false, _, _, _⟩, _ :: _ => [.nothingAllowed v]
  | some ⟨.object _, check, _, _⟩, members => members.flatMap fun m => faultsOf check (.string m.1)
  | _, _ => []

/-! ## Arrays -/

def itemsOf : Json → List Json
  | .array items => items
  | _ => []

/-- The schemas of the first items, by place. -/
def itemSchemas (ctx : Context) (ps : Parts) : List Check :=
  match ctx.dialect with
  | .draft2020 => ps.listed "prefixItems"
  | _ => ps.listed "items"

/-- What schemas by place have against the items. -/
def placedFaults (checks : List Check) (v : Json) : List Violation :=
  (checks.zip (itemsOf v)).flatMap fun p => faultsOf p.1 p.2

/-- The one schema of all items, or of those behind the first ones. -/
def commonItemCheck? (ps : Parts) : Option Check :=
  match ps.find? "items" with
  | some ⟨.array _, _, _, _⟩ => none
  | some p => some p.check
  | none => none

/-- What the schema of all items has against them, with those left out that
have schemas of their own. -/
def commonItemFaults (ctx : Context) (ps : Parts) (v : Json) : List Violation :=
  match commonItemCheck? ps with
  | some check =>
    let skipped := if ctx.dialect = .draft2020 then (ps.listed "prefixItems").length else 0
    ((itemsOf v).drop skipped).flatMap (faultsOf check)
  | none => []

/-- The schemas by place, and the schema of the items behind them. The newest
dialect looks at the latter first. -/
def itemFaults (ctx : Context) (ps : Parts) (v : Json) : List Violation :=
  commonItemFaults ctx ps v ++ placedFaults (itemSchemas ctx ps) v

/-- The schemas are given by place, in the way of the older dialects. -/
def hasItemList (ctx : Context) (ps : Parts) : Bool :=
  match ctx.dialect, ps.value? "items" with
  | .draft2020, _ => false
  | _, some (.array _) => true
  | _, _ => false

/-- The items behind those that have schemas by place. -/
def furtherItemFaults (ctx : Context) (ps : Parts) (v : Json) : List Violation :=
  if hasItemList ctx ps then
    let rest := (itemsOf v).drop (ps.listed "items").length
    match ps.find? "additionalItems", rest with
    | some ⟨.bool false, _, _, _⟩, _ :: _ => [.furtherItems rest]
    | some ⟨.object _, check, _, _⟩, _ => rest.flatMap (faultsOf check)
    | _, _ => []
  else []

/-- Whether so many items may be as one of them has to be. -/
def containsEnough (ctx : Context) (ps : Parts) (count : Nat) : Bool :=
  let least := if ctx.isRecent then (ps.count? "minContains").getD 1 else 1
  let most := if ctx.isRecent then ps.count? "maxContains" else none
  least ≤ count && most.all (count ≤ ·)

def containsFaults (ctx : Context) (ps : Parts) (v : Json) : List Violation :=
  match ps.check? "contains", v with
  | some check, .array items =>
    expect (containsEnough ctx ps (items.countP fun x => (check x).holds)) (.noneContained v)
  | _, _ => []

/-! ## Names that bring conditions with them -/

/-- What the presence of a member asks for: other names, or a schema. -/
def dependencyFaults (ps : Parts) (v : Json) : List Violation :=
  match ps.value? "dependencies" with
  | some (.object dependencies) =>
    (dependencies.zip (ps.named "dependencies")).flatMap fun d =>
      if Table.has (membersOf v) d.1.1 then
        match d.1.2 with
        | .array _ => missingNames (Parts.textsOf d.1.2) v
        | _ => faultsOf d.2.2 v
      else []
  | _ => []

def dependentNameFaults (ctx : Context) (ps : Parts) (v : Json) : List Violation :=
  match ctx.isRecent, ps.value? "dependentRequired" with
  | true, some (.object dependencies) =>
    dependencies.flatMap fun d =>
      if Table.has (membersOf v) d.1 then missingNames (Parts.textsOf d.2) v else []
  | _, _ => []

/-! ## Schemas of the same value -/

/-- The reports of the schemas that a schema applies to the value itself. -/
structure Branches where
  allOf : List Report
  anyOf : List Report
  oneOf : List Report
  /-- The condition, if there is one. -/
  condition : Option Report
  /-- The schema that the condition selects, if there is one. -/
  selected : Option Report
  /-- The schemas that the names of the members bring with them. -/
  dependent : List Report
  /-- The schema that is referred to. -/
  referred : Option Report

/-- The branches of a schema. -/
def branches (ctx : Context) (ps : Parts) (v : Json) : Branches :=
  let condition := (ps.check? "if").map (· v)
  { allOf := (ps.listed "allOf").map (· v)
    anyOf := (ps.listed "anyOf").map (· v)
    oneOf := (ps.listed "oneOf").map (· v)
    condition
    selected := condition.bind fun r =>
      (ps.check? (if r.holds then "then" else "else")).map (· v)
    dependent :=
      if ctx.isRecent then
        ((ps.named "dependentSchemas").filter fun d => Table.has (membersOf v) d.1).map fun d => d.2 v
      else []
    referred := (ps.text? "$ref").map fun r => ctx.resolve r v }

/-- What some of the branches have against a value. -/
def allFaults (reports : List Report) : List Violation := reports.flatMap (·.violations)

def anyFaults (ps : Parts) (b : Branches) (v : Json) : List Violation :=
  if ps.has "anyOf" then expect (b.anyOf.any (·.holds)) (.noBranch v .anyOf) else []

def oneFaults (ps : Parts) (b : Branches) (v : Json) : List Violation :=
  if ps.has "oneOf" then
    match b.oneOf.countP (·.holds) with
    | 0 => [.noBranch v .oneOf]
    | 1 => []
    | _ => [.severalBranches v]
  else []

def notFaults (ps : Parts) (v : Json) : List Violation :=
  match ps.find? "not" with
  | some p => expect (!(p.check v).holds) (.forbidden p.value v)
  | none => []

/-- The reports of the branches that count for what was looked at: those that
hold, of alternatives only one that holds alone, and what a condition that
holds or fails selects. -/
def countedBranches (b : Branches) : List Report :=
  let holding := (b.allOf ++ b.anyOf ++ b.dependent ++ b.condition.toList ++ b.referred.toList).filter
    (·.holds)
  let alone := match b.oneOf.filter (·.holds) with
    | [r] => [r]
    | _ => []
  holding ++ alone ++ b.selected.toList

/-! ## Parts that nobody looked at -/

/-- The names that the keywords of a schema itself look at. -/
def ownNames (ps : Parts) (v : Json) : List String :=
  let names := (membersOf v).map Prod.fst
  if ps.has "additionalProperties" then names
  else names.filter fun n => !isFurther ps n

/-- The places that the keywords of a schema itself look at. -/
def ownPlaces (ctx : Context) (ps : Parts) (v : Json) : List Nat :=
  let places := List.range (itemsOf v).length
  let contained := match ctx.dialect, ps.check? "contains" with
    | .draft2020, some check =>
      ((itemsOf v).zipIdx.filter fun p => (check p.1).holds).map Prod.snd
    | _, _ => []
  if (commonItemCheck? ps).isSome || (hasItemList ctx ps && ps.has "additionalItems") then places
  else places.take (itemSchemas ctx ps).length ++ contained

/-- The members that no schema looked at are as their schema asks for. -/
def unevaluatedNameFaults (ctx : Context) (ps : Parts) (seen : List String) (v : Json) :
    List Violation :=
  match ctx.isRecent, ps.check? "unevaluatedProperties" with
  | true, some check =>
    match (membersOf v).filter fun m => !seen.contains m.1 && !(check m.2).holds with
    | [] => []
    | refused => [.unevaluatedProperties (refused.map Prod.fst)]
  | _, _ => []

/-- The items that no schema looked at are as their schema asks for. -/
def unevaluatedItemFaults (ctx : Context) (ps : Parts) (seen : List Nat) (v : Json) :
    List Violation :=
  match ctx.isRecent, ps.check? "unevaluatedItems" with
  | true, some check =>
    match (itemsOf v).zipIdx.filter fun p => !seen.contains p.2 && !(check p.1).holds with
    | [] => []
    | refused => [.unevaluatedItems (refused.map Prod.fst)]
  | _, _ => []

/-! ## A schema as a whole -/

/-- What the keywords of a schema say about a value, keyword by keyword. -/
def keywordsReport (ctx : Context) (ps : Parts) (v : Json) : Report :=
  let b := branches ctx ps v
  let counted := countedBranches b
  let names := ownNames ps v ++ counted.flatMap (·.names)
  let places := ownPlaces ctx ps v ++ counted.flatMap (·.places)
  { violations :=
      typeFaults ps v ++ constFaults ps v ++ enumFaults ps v ++ numberFaults ps v ++
      sizesFaults ps v ++ requiredFaults ps .own v ++ dependentNameFaults ctx ps v ++
      patternFaults ps v ++ formatFaults ctx.dialect ps v ++ uniqueFaults ps v ++
      membersFaults ps v ++ nameFaults ps v ++ itemFaults ctx ps v ++ furtherItemFaults ctx ps v ++
      containsFaults ctx ps v ++ dependencyFaults ps v ++ allFaults b.dependent ++
      allFaults b.allOf ++ anyFaults ps b v ++ oneFaults ps b v ++ notFaults ps v ++
      allFaults b.selected.toList ++ unevaluatedNameFaults ctx ps names v ++
      unevaluatedItemFaults ctx ps places v ++ allFaults b.referred.toList
    names :=
      if ctx.isRecent && ps.has "unevaluatedProperties" then (membersOf v).map Prod.fst else names
    places :=
      if ctx.isRecent && ps.has "unevaluatedItems" then List.range (itemsOf v).length else places }

/-- What a schema object says about a value. In the oldest dialect nothing
counts beside a reference. -/
def objectReport (ctx : Context) (ps : Parts) (v : Json) : Report :=
  match ctx.dialect, ps.text? "$ref" with
  | .draft7, some r => ctx.resolve r v
  | _, _ => keywordsReport ctx ps v

mutual

/-- The meaning of a schema. What is no schema lets every value pass; no such
thing is compiled. -/
def meaning (ctx : Context) : Json → Json → Report
  | .bool true, _ => {}
  | .bool false, v => Check.refuse v
  | .object members, v => objectReport ctx (partsOf ctx members) v
  | _, _ => {}

/-- The keywords of a schema object with their readings as schemas. -/
def partsOf (ctx : Context) : List (String × Json) → List (String × Part)
  | [] => []
  | (key, w) :: rest =>
    (key, ⟨w, meaning ctx w, namedIn ctx w, listedIn ctx w⟩) :: partsOf ctx rest

/-- The members of a value as schemas. -/
def namedIn (ctx : Context) : Json → List (String × Check)
  | .object members => namedChecks ctx members
  | _ => []

/-- The items of a value as schemas. -/
def listedIn (ctx : Context) : Json → List Check
  | .array items => listedChecks ctx items
  | _ => []

def namedChecks (ctx : Context) : List (String × Json) → List (String × Check)
  | [] => []
  | (name, w) :: rest => (name, meaning ctx w) :: namedChecks ctx rest

def listedChecks (ctx : Context) : List Json → List Check
  | [] => []
  | w :: rest => meaning ctx w :: listedChecks ctx rest

end

end GuardedCall.Schema
