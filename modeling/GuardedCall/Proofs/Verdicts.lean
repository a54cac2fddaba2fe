-- The verdict on a value, found without writing down what is wrong: a
-- traversal of its own, which goes on only as long as everything holds. It
-- agrees with the one that lists violations on every keyword, every
-- combination of schemas and every chain of references.
import GuardedCall.Proofs.Keywords
import GuardedCall.Schema.Validator
import Mathlib.Logic.Basic

namespace GuardedCall.Schema

/-- Whether a value is as a schema asks for, and which of its parts the schema has looked at. -/
structure Verdict where
  holds : Bool := true
  names : List String := []
  places : List Nat := []

/-- The test that a schema is. -/
abbrev Test := Json → Verdict

/-- The value of a keyword with its readings as tests. -/
structure Clause where
  value : Json
  test : Test
  /-- The members of the value as tests. -/
  named : Table Test
  /-- The items of the value as tests. -/
  listed : List Test

/-- The keywords of a schema. -/
abbrev Clauses := Table Clause

/-- What a verdict depends on beside the schema itself. -/
structure Scope where
  dialect : Dialect
  /-- The test that a reference names. -/
  resolve : String → Test

def Scope.isRecent (s : Scope) : Bool := s.dialect ≠ .draft7

namespace Clauses

variable (cs : Clauses)

def value? (key : String) : Option Json := (cs.find? key).map (·.value)

def test? (key : String) : Option Test := (cs.find? key).map (·.test)

/-- The tests by name of a keyword. -/
def named (key : String) : Table Test := ((cs.find? key).map (·.named)).getD []

/-- The list of tests of a keyword. -/
def listed (key : String) : List Test := ((cs.find? key).map (·.listed)).getD []

def count? (key : String) : Option Nat :=
  match cs.value? key with
  | some (.number n) => Parts.countOf n
  | _ => none

/-! ## The value by itself -/

def typeHolds (v : Json) : Bool := (cs.value? "type").all fun t => (allowedTypes t).any (hasType v)

def constHolds (v : Json) : Bool := (cs.value? "const").all (·.same v)

def enumHolds (v : Json) : Bool :=
  match cs.value? "enum" with
  | some (.array options) => options.any (·.same v)
  | _ => true

def boundHolds (key : String) (within : Number → Number → Bool) (v : Json) : Bool :=
  match cs.value? key, v with
  | some (.number limit), .number n => within n limit
  | _, _ => true

def numbersHold (v : Json) : Bool :=
  cs.boundHolds "minimum" (fun n limit => !n.lt limit) v &&
    cs.boundHolds "maximum" (fun n limit => !limit.lt n) v &&
    cs.boundHolds "exclusiveMinimum" (fun n limit => limit.lt n) v &&
    cs.boundHolds "exclusiveMaximum" (fun n limit => n.lt limit) v &&
    cs.boundHolds "multipleOf" isMultiple v

def sizeHolds (key : String) (size : Size) (within : Nat → Nat → Bool) (v : Json) : Bool :=
  match cs.count? key, size.of? v with
  | some limit, some n => within n limit
  | _, _ => true

def sizesHold (v : Json) : Bool :=
  cs.sizeHolds "minLength" .characters (fun n limit => limit ≤ n) v &&
    cs.sizeHolds "maxLength" .characters (fun n limit => n ≤ limit) v &&
    cs.sizeHolds "minItems" .items (fun n limit => limit ≤ n) v &&
    cs.sizeHolds "maxItems" .items (fun n limit => n ≤ limit) v &&
    cs.sizeHolds "minProperties" .members (fun n limit => limit ≤ n) v &&
    cs.sizeHolds "maxProperties" .members (fun n limit => n ≤ limit) v

def patternHolds (v : Json) : Bool :=
  match cs.value? "pattern", v with
  | some (.string pattern), .string s => matchesPattern pattern s
  | _, _ => true

def formatHolds (dialect : Dialect) (v : Json) : Bool :=
  match dialect, cs.value? "format", v with
  | .draft7, some (.string format), .string s => hasFormat format s
  | _, _, _ => true

def uniqueHolds (v : Json) : Bool :=
  match cs.value? "uniqueItems", v with
  | some (.bool true), .array items => allDistinct items
  | _, _ => true

/-- An object has all of the names. -/
def hasNames (names : List String) (v : Json) : Bool :=
  match v with
  | .object members => names.all (Table.has members)
  | _ => true

def dependentNamesHold (dialect : Dialect) (v : Json) : Bool :=
  match dialect, cs.value? "dependentRequired" with
  | .draft7, _ => true
  | _, some (.object dependencies) =>
    dependencies.all fun d => !Table.has (membersOf v) d.1 || hasNames (Parts.textsOf d.2) v
  | _, _ => true

def valueHolds (dialect : Dialect) (v : Json) : Bool :=
  cs.typeHolds v && cs.constHolds v && cs.enumHolds v && cs.numbersHold v && cs.sizesHold v &&
    cs.dependentNamesHold dialect v && cs.patternHolds v && cs.formatHolds dialect v &&
    cs.uniqueHolds v

/-! ## Members -/

def required : List String :=
  match cs.value? "required" with
  | some names => Parts.textsOf names
  | none => []

/-- The two required names of a schema of this form are looked at by nobody. -/
def overlooksRequired : Bool :=
  cs.has "properties" && !cs.has "patternProperties" && cs.required.length == 2 &&
    match cs.value? "additionalProperties" with
    | some (.object _) => true
    | _ => false

def requiredHolds (v : Json) : Bool := cs.overlooksRequired || hasNames cs.required v

/-- A property or a pattern of the schema has this name. -/
def isDeclared (name : String) : Bool :=
  (cs.named "properties").has name ||
    (cs.named "patternProperties").any fun p => matchesPattern p.1 name

/-- A member is as its property, the patterns that it matches, or else the schema of further
members ask for. -/
def memberHolds (m : String × Json) : Bool :=
  ((cs.named "properties").find? m.1).all (fun t => (t m.2).holds) &&
    (cs.named "patternProperties").all (fun p => !matchesPattern p.1 m.1 || (p.2 m.2).holds) &&
    (cs.isDeclared m.1 || (cs.test? "additionalProperties").all fun t => (t m.2).holds)

def nameHolds (m : String × Json) : Bool :=
  (cs.test? "propertyNames").all fun t => (t (.string m.1)).holds

def dependenciesHold (v : Json) : Bool :=
  match cs.value? "dependencies" with
  | some (.object dependencies) =>
    (dependencies.zip (cs.named "dependencies")).all fun d =>
      !Table.has (membersOf v) d.1.1 ||
        match d.1.2 with
        | .array _ => hasNames (Parts.textsOf d.1.2) v
        | _ => (d.2.2 v).holds
  | _ => true

/-! ## Items -/

/-- The test of all items, or of those behind the first ones. -/
def commonItem? : Option Test :=
  match cs.find? "items" with
  | some ⟨.array _, _, _, _⟩ => none
  | c => c.map (·.test)

/-- The tests of the first items, by place. -/
def placed (dialect : Dialect) : List Test :=
  match dialect with
  | .draft2020 => cs.listed "prefixItems"
  | _ => cs.listed "items"

/-- The tests are given by place, in the way of the older dialects. -/
def listsItems (dialect : Dialect) : Bool :=
  match dialect, cs.value? "items" with
  | .draft2020, _ => false
  | _, some (.array _) => true
  | _, _ => false

def itemsHold (dialect : Dialect) (v : Json) : Bool :=
  let skipped := if dialect = .draft2020 then (cs.listed "prefixItems").length else 0
  (cs.commonItem?.all fun t => ((itemsOf v).drop skipped).all fun x => (t x).holds) &&
    ((cs.placed dialect).zip (itemsOf v)).all (fun p => (p.1 p.2).holds) &&
    (!cs.listsItems dialect || (cs.test? "additionalItems").all fun t =>
      ((itemsOf v).drop (cs.listed "items").length).all fun x => (t x).holds)

/-- Whether so many items may be as one of them has to be. -/
def containsEnough (s : Scope) (count : Nat) : Bool :=
  let least := if s.isRecent then (cs.count? "minContains").getD 1 else 1
  let most := if s.isRecent then cs.count? "maxContains" else none
  least ≤ count && most.all (count ≤ ·)

def containsHolds (s : Scope) (v : Json) : Bool :=
  match cs.test? "contains", v with
  | some t, .array items => cs.containsEnough s (items.countP fun x => (t x).holds)
  | _, _ => true

/-! ## Schemas of the same value -/

/-- The schema that the condition selects. -/
def selected? (v : Json) : Option Test :=
  (cs.test? "if").bind fun t => cs.test? (if (t v).holds then "then" else "else")

/-- The schemas that the names of the members bring with them. -/
def dependent (s : Scope) (v : Json) : List Test :=
  if s.isRecent then
    ((cs.named "dependentSchemas").filter fun d => Table.has (membersOf v) d.1).map Prod.snd
  else []

/-- The schema that is referred to. -/
def referred? (s : Scope) : Option Test :=
  match cs.value? "$ref" with
  | some (.string r) => some (s.resolve r)
  | _ => none

def branchesHold (s : Scope) (v : Json) : Bool :=
  (cs.dependent s v).all (fun t => (t v).holds) &&
    (cs.listed "allOf").all (fun t => (t v).holds) &&
    (!cs.has "anyOf" || (cs.listed "anyOf").any fun t => (t v).holds) &&
    (!cs.has "oneOf" || (cs.listed "oneOf").countP (fun t => (t v).holds) == 1) &&
    (cs.test? "not").all (fun t => !(t v).holds) &&
    (cs.selected? v).all (fun t => (t v).holds) &&
    (cs.referred? s).all fun t => (t v).holds

/-- The verdicts that count for what was looked at: those that hold, of alternatives one that holds
alone, and that of the selected schema. -/
def counted (s : Scope) (v : Json) : List Verdict :=
  let holding := ((cs.listed "allOf" ++ cs.listed "anyOf" ++ cs.dependent s v ++
    (cs.test? "if").toList ++ (cs.referred? s).toList).map (· v)).filter (·.holds)
  let alone := match ((cs.listed "oneOf").map (· v)).filter (·.holds) with
    | [r] => [r]
    | _ => []
  holding ++ alone ++ ((cs.selected? v).map (· v)).toList

/-! ## Parts that nobody looked at -/

def ownNames (v : Json) : List String :=
  let names := (membersOf v).map Prod.fst
  if cs.has "additionalProperties" then names else names.filter cs.isDeclared

def ownPlaces (s : Scope) (v : Json) : List Nat :=
  let places := List.range (itemsOf v).length
  let contained := match s.dialect, cs.test? "contains" with
    | .draft2020, some t => ((itemsOf v).zipIdx.filter fun p => (t p.1).holds).map Prod.snd
    | _, _ => []
  if cs.commonItem?.isSome || (cs.listsItems s.dialect && cs.has "additionalItems") then places
  else places.take (cs.placed s.dialect).length ++ contained

def seenNames (s : Scope) (v : Json) : List String :=
  cs.ownNames v ++ (cs.counted s v).flatMap (·.names)

def seenPlaces (s : Scope) (v : Json) : List Nat :=
  cs.ownPlaces s v ++ (cs.counted s v).flatMap (·.places)

def unseenHold (s : Scope) (v : Json) : Bool :=
  !s.isRecent ||
    ((cs.test? "unevaluatedProperties").all fun t =>
      (membersOf v).all fun m => (cs.seenNames s v).contains m.1 || (t m.2).holds) &&
    (cs.test? "unevaluatedItems").all fun t =>
      (itemsOf v).zipIdx.all fun p => (cs.seenPlaces s v).contains p.2 || (t p.1).holds

/-! ## A schema as a whole -/

/-- The verdict of the keywords of a schema. -/
def verdict (s : Scope) (v : Json) : Verdict where
  holds := cs.valueHolds s.dialect v && cs.requiredHolds v && (membersOf v).all cs.memberHolds &&
    (membersOf v).all cs.nameHolds && cs.itemsHold s.dialect v && cs.containsHolds s v &&
    cs.dependenciesHold v && cs.branchesHold s v && cs.unseenHold s v
  names :=
    if s.isRecent && cs.has "unevaluatedProperties" then (membersOf v).map Prod.fst
    else cs.seenNames s v
  places :=
    if s.isRecent && cs.has "unevaluatedItems" then List.range (itemsOf v).length
    else cs.seenPlaces s v

end Clauses

mutual

/-- The verdict of a schema on a value. -/
def verdict (s : Scope) : Json → Test
  | .bool holds, _ => { holds }
  | .object members, v =>
    match s.dialect, Table.find? members "$ref" with
    | .draft7, some (.string r) => s.resolve r v
    | _, _ => (clauses s members).verdict s v
  | _, _ => {}

/-- The keywords of a schema object with their readings as tests. -/
def clauses (s : Scope) : List (String × Json) → Clauses
  | [] => []
  | (key, w) :: rest => (key, ⟨w, verdict s w, namedTests s w, listedTests s w⟩) :: clauses s rest

/-- The members of a value as tests. -/
def namedTests (s : Scope) : Json → Table Test
  | .object members => testsByName s members
  | _ => []

/-- The items of a value as tests. -/
def listedTests (s : Scope) : Json → List Test
  | .array items => testsByPlace s items
  | _ => []

def testsByName (s : Scope) : List (String × Json) → Table Test
  | [] => []
  | (name, w) :: rest => (name, verdict s w) :: testsByName s rest

def testsByPlace (s : Scope) : List Json → List Test
  | [] => []
  | w :: rest => verdict s w :: testsByPlace s rest

end

/-- A report without what is wrong. -/
def Report.verdict (r : Report) : Verdict := ⟨r.holds, r.names, r.places⟩

def Check.test (c : Check) : Test := fun v => (c v).verdict

def Context.scope (ctx : Context) : Scope := ⟨ctx.dialect, fun r => Check.test (ctx.resolve r)⟩

def Part.clause (p : Part) : Clause :=
  ⟨p.value, p.check.test, p.named.map fun m => (m.1, m.2.test), p.listed.map Check.test⟩

/-- The keywords of a schema object with the tests of their meanings. -/
def clausesOf (ctx : Context) (members : Table Json) : Clauses :=
  (partsOf ctx members).map fun m => (m.1, m.2.clause)

/-- What a disjunction of conditions says in the order in which they are tried. -/
theorem or_eq_true_iff_imp {a b : Bool} : (a || b) = true ↔ (a = false → b = true) := by
  cases a <;> simp

@[simp] theorem Report.verdict_holds (r : Report) : r.verdict.holds = r.holds := rfl

@[simp] theorem Check.test_apply (c : Check) (v : Json) : c.test v = (c v).verdict := rfl

@[simp] theorem Context.scope_dialect (ctx : Context) : ctx.scope.dialect = ctx.dialect := rfl

@[simp] theorem Context.scope_resolve (ctx : Context) (r : String) :
    ctx.scope.resolve r = Check.test (ctx.resolve r) := rfl

@[simp] theorem Context.scope_isRecent (ctx : Context) : ctx.scope.isRecent = ctx.isRecent := rfl

section Clauses

variable (ctx : Context) (members : Table Json) (key : String)

theorem find?_clausesOf :
    Table.find? (clausesOf ctx members) key =
      (members.find? key).map fun w => (partOf ctx w).clause := by
  unfold clausesOf
  rw [Table.find?_map (fun _ => Part.clause), find?_partsOf, Option.map_map]
  rfl

@[simp] theorem has_clausesOf : Table.has (clausesOf ctx members) key = members.has key := by
  simp [Table.has, find?_clausesOf]

@[simp] theorem value?_clausesOf : (clausesOf ctx members).value? key = members.find? key := by
  cases h : members.find? key <;> simp [Clauses.value?, find?_clausesOf, h, Part.clause, partOf]

@[simp] theorem test?_clausesOf :
    (clausesOf ctx members).test? key =
      (members.find? key).map fun w => Check.test (meaning ctx w) := by
  cases h : members.find? key <;> simp [Clauses.test?, find?_clausesOf, h, Part.clause, partOf]

@[simp] theorem named_clausesOf :
    (clausesOf ctx members).named key =
      (schemasByName members key).map fun m => (m.1, Check.test (meaning ctx m.2)) := by
  unfold Clauses.named schemasByName
  rw [find?_clausesOf]
  rcases members.find? key with _ | w
  · rfl
  · cases w <;> simp [Part.clause, partOf, namedIn, namedChecks_eq_map]

@[simp] theorem listed_clausesOf :
    (clausesOf ctx members).listed key =
      (schemasByPlace members key).map fun w => Check.test (meaning ctx w) := by
  unfold Clauses.listed schemasByPlace
  rw [find?_clausesOf]
  rcases members.find? key with _ | w
  · rfl
  · cases w <;> simp [Part.clause, partOf, listedIn, listedChecks_eq_map]

@[simp] theorem find?_named_clausesOf (name : String) :
    ((clausesOf ctx members).named key).find? name =
      ((schemasByName members key).find? name).map fun w => Check.test (meaning ctx w) := by
  rw [named_clausesOf]
  exact Table.find?_map (fun _ w => Check.test (meaning ctx w)) _ name

@[simp] theorem count?_clausesOf :
    (clausesOf ctx members).count? key = Parts.count? (partsOf ctx members) key := by
  rw [Clauses.count?, Parts.count?, Parts.number?, value?_clausesOf, value?_partsOf]
  rcases members.find? key with _ | w
  · rfl
  · cases w <;> rfl

end Clauses

section Keywords

variable {ctx : Context} {members : Table Json} {v : Json}

theorem boundFaults_eq_nil_iff {key : String} {within : Number → Number → Bool}
    {violation : Json → Number → Violation} :
    boundFaults (partsOf ctx members) key within violation v = [] ↔
      (clausesOf ctx members).boundHolds key within v = true := by
  unfold boundFaults Clauses.boundHolds Parts.number?
  rw [value?_partsOf, value?_clausesOf]
  rcases members.find? key with _ | w
  · simp
  · cases w <;> cases v <;> simp

theorem sizeFaults_eq_nil_iff {key : String} {size : Size} {within : Nat → Nat → Bool}
    {violation : Json → Nat → Violation} :
    sizeFaults (partsOf ctx members) key size within violation v = [] ↔
      (clausesOf ctx members).sizeHolds key size within v = true := by
  unfold sizeFaults Clauses.sizeHolds
  rw [count?_clausesOf]
  cases Parts.count? (partsOf ctx members) key <;> cases size.of? v <;> simp

theorem missingNames_eq_nil_iff_hasNames {names : List String} :
    missingNames names v = [] ↔ Clauses.hasNames names v = true := by
  cases v <;> simp [missingNames, Clauses.hasNames, List.filter_eq_nil_iff]

theorem typeFaults_eq_nil_iff :
    typeFaults (partsOf ctx members) v = [] ↔ (clausesOf ctx members).typeHolds v = true := by
  unfold typeFaults Clauses.typeHolds
  rw [value?_partsOf, value?_clausesOf]
  cases members.find? "type" <;> simp

theorem constFaults_eq_nil_iff :
    constFaults (partsOf ctx members) v = [] ↔ (clausesOf ctx members).constHolds v = true := by
  unfold constFaults Clauses.constHolds
  rw [value?_partsOf, value?_clausesOf]
  cases members.find? "const" <;> simp

theorem enumFaults_eq_nil_iff :
    enumFaults (partsOf ctx members) v = [] ↔ (clausesOf ctx members).enumHolds v = true := by
  unfold enumFaults Clauses.enumHolds
  rw [value?_partsOf, value?_clausesOf]
  rcases members.find? "enum" with _ | w
  · simp
  · cases w <;> simp

theorem dependentNameFaults_eq_nil_iff :
    dependentNameFaults ctx (partsOf ctx members) v = [] ↔
      (clausesOf ctx members).dependentNamesHold ctx.dialect v = true := by
  have hone : ∀ d : String × Json,
      (if Table.has (membersOf v) d.1 = true then missingNames (Parts.textsOf d.2) v else []) = [] ↔
        (!Table.has (membersOf v) d.1 || Clauses.hasNames (Parts.textsOf d.2) v) = true := by
    intro d
    cases Table.has (membersOf v) d.1 <;> simp [missingNames_eq_nil_iff_hasNames]
  unfold dependentNameFaults Clauses.dependentNamesHold Context.isRecent
  rw [value?_partsOf, value?_clausesOf]
  rcases members.find? "dependentRequired" with _ | w
  · cases ctx.dialect <;> simp
  · cases ctx.dialect <;> cases w <;> simp [List.flatMap_eq_nil_iff, hone]

theorem patternFaults_eq_nil_iff :
    patternFaults (partsOf ctx members) v = [] ↔
      (clausesOf ctx members).patternHolds v = true := by
  unfold patternFaults Clauses.patternHolds Parts.text?
  rw [value?_partsOf, value?_clausesOf]
  rcases members.find? "pattern" with _ | w
  · simp
  · cases w <;> cases v <;> simp

theorem formatFaults_eq_nil_iff :
    formatFaults ctx.dialect (partsOf ctx members) v = [] ↔
      (clausesOf ctx members).formatHolds ctx.dialect v = true := by
  unfold formatFaults Clauses.formatHolds Parts.text?
  rw [value?_partsOf, value?_clausesOf]
  rcases members.find? "format" with _ | w
  · cases ctx.dialect <;> simp
  · cases ctx.dialect <;> cases w <;> cases v <;> simp

theorem uniqueFaults_eq_nil_iff :
    uniqueFaults (partsOf ctx members) v = [] ↔
      (clausesOf ctx members).uniqueHolds v = true := by
  unfold uniqueFaults Clauses.uniqueHolds
  rw [value?_partsOf, value?_clausesOf]
  rcases members.find? "uniqueItems" with _ | w
  · simp
  · rcases w with _ | ⟨_ | _⟩ | _ | _ | _ | _ <;> cases v <;> simp

theorem assertionFaults_eq_nil_iff :
    assertionFaults ctx (partsOf ctx members) v = [] ↔
      (clausesOf ctx members).valueHolds ctx.dialect v = true := by
  simp only [assertionFaults, Clauses.valueHolds, numberFaults, Clauses.numbersHold, sizesFaults,
    Clauses.sizesHold, List.append_eq_nil_iff, Bool.and_eq_true, boundFaults_eq_nil_iff,
    sizeFaults_eq_nil_iff, typeFaults_eq_nil_iff, constFaults_eq_nil_iff, enumFaults_eq_nil_iff,
    dependentNameFaults_eq_nil_iff, patternFaults_eq_nil_iff, formatFaults_eq_nil_iff,
    uniqueFaults_eq_nil_iff]

theorem all_tests_iff {w? : Option Json} :
    (w?.map fun w => Check.test (meaning ctx w)).all (fun t => (t v).holds) = true ↔
      ∀ w, w? = some w → (meaning ctx w v).holds = true := by
  cases w? <;> simp

/-! ## Members -/

theorem required_clausesOf : (clausesOf ctx members).required = requiredNames members := by
  unfold Clauses.required requiredNames
  cases h : members.find? "required" <;> simp [h]

theorem overlooksRequired_iff :
    (clausesOf ctx members).overlooksRequired = true ↔ OverlooksRequired members := by
  have hfurther : (match members.find? "additionalProperties" with
      | some (.object _) => true
      | _ => false) = true ↔ ∃ inner, members.find? "additionalProperties" = some (.object inner) := by
    rcases members.find? "additionalProperties" with _ | w
    · simp
    · cases w <;> simp
  unfold Clauses.overlooksRequired
  simp only [has_clausesOf, value?_clausesOf, required_clausesOf, Bool.and_eq_true, hfurther,
    Bool.not_eq_true', beq_iff_eq]
  exact ⟨fun ⟨⟨⟨hp, hq⟩, hn⟩, hf⟩ => ⟨hp, hq, hn, hf⟩, fun ⟨hp, hq, hn, hf⟩ => ⟨⟨⟨hp, hq⟩, hn⟩, hf⟩⟩

theorem requiredHolds_iff :
    (clausesOf ctx members).requiredHolds v = true ↔
      (¬ OverlooksRequired members → missingNames (requiredNames members) v = []) := by
  rw [Clauses.requiredHolds, or_eq_true_iff_imp, ← Bool.not_eq_true, overlooksRequired_iff,
    required_clausesOf, missingNames_eq_nil_iff_hasNames]

theorem isDeclared_clausesOf (name : String) :
    (clausesOf ctx members).isDeclared name = !isFurther (partsOf ctx members) name := by
  unfold Clauses.isDeclared isFurther matchesAny
  rw [lookup_named_partsOf, named_partsOf, Table.has, find?_named_clausesOf, named_clausesOf]
  simp [Function.comp_def]

theorem isDeclared_eq_false_iff {name : String} :
    (clausesOf ctx members).isDeclared name = false ↔ Undeclared members name := by
  rw [isDeclared_clausesOf, Bool.not_eq_false', isFurther_partsOf_iff]

theorem memberHolds_iff {m : String × Json} :
    (clausesOf ctx members).memberHolds m = true ↔
      (∀ w, (schemasByName members "properties").find? m.1 = some w →
        (meaning ctx w m.2).holds = true) ∧
      (∀ p ∈ schemasByName members "patternProperties",
        matchesPattern p.1 m.1 = true → (meaning ctx p.2 m.2).holds = true) ∧
      (Undeclared members m.1 →
        ∀ w, members.find? "additionalProperties" = some w → (meaning ctx w m.2).holds = true) := by
  unfold Clauses.memberHolds
  rw [find?_named_clausesOf, named_clausesOf, test?_clausesOf, Bool.and_eq_true, Bool.and_eq_true,
    or_eq_true_iff_imp, isDeclared_eq_false_iff, and_assoc]
  refine and_congr ?_ (and_congr ?_ (imp_congr_right fun _ => ?_))
  · cases (schemasByName members "properties").find? m.1 <;> simp
  · simp only [List.all_eq_true, List.forall_mem_map, or_eq_true_iff_imp, Bool.not_eq_false',
      Check.test_apply, Report.verdict_holds]
  · exact all_tests_iff

theorem membersHold_iff :
    (membersOf v).all (clausesOf ctx members).memberHolds = true ↔
      (∀ m ∈ membersOf v, ∀ w, (schemasByName members "properties").find? m.1 = some w →
        (meaning ctx w m.2).holds = true) ∧
      (∀ m ∈ membersOf v, ∀ p ∈ schemasByName members "patternProperties",
        matchesPattern p.1 m.1 = true → (meaning ctx p.2 m.2).holds = true) ∧
      ∀ m ∈ membersOf v, Undeclared members m.1 →
        ∀ w, members.find? "additionalProperties" = some w → (meaning ctx w m.2).holds = true := by
  simp only [List.all_eq_true, memberHolds_iff, imp_and, forall_and]

theorem namesHold_iff :
    (membersOf v).all (clausesOf ctx members).nameHolds = true ↔
      ∀ w, members.find? "propertyNames" = some w →
        ∀ m ∈ membersOf v, (meaning ctx w (.string m.1)).holds = true := by
  unfold Clauses.nameHolds
  rw [test?_clausesOf]
  cases members.find? "propertyNames" <;> simp

theorem dependenciesHold_iff :
    (clausesOf ctx members).dependenciesHold v = true ↔
      ∀ d ∈ schemasByName members "dependencies", Table.has (membersOf v) d.1 = true →
        DependencyHolds ctx d.2 v := by
  have hone : ∀ d : String × Json,
      (!Table.has (membersOf v) d.1 ||
        match d.2 with
        | .array _ => Clauses.hasNames (Parts.textsOf d.2) v
        | _ => (meaning ctx d.2 v).holds) = true ↔
      (Table.has (membersOf v) d.1 = true → DependencyHolds ctx d.2 v) := by
    rintro ⟨name, w⟩
    rw [or_eq_true_iff_imp, Bool.not_eq_false']
    cases w <;> simp [DependencyHolds, missingNames_eq_nil_iff_hasNames]
  unfold Clauses.dependenciesHold
  rw [value?_clausesOf, named_clausesOf]
  rcases hd : members.find? "dependencies" with _ | w
  · simp [schemasByName, hd]
  · cases w with
    | object dependencies =>
      have hzip : dependencies.zip (dependencies.map fun m => (m.1, Check.test (meaning ctx m.2))) =
          dependencies.map fun m => (m, (m.1, Check.test (meaning ctx m.2))) := by
        simpa using List.zip_map' (f := id)
          (g := fun m : String × Json => (m.1, Check.test (meaning ctx m.2))) (l := dependencies)
      simp only [schemasByName, hd, hzip, List.all_map, List.all_eq_true]
      exact forall_congr' fun d => imp_congr_right fun _ => hone d
    | null | bool | number | string | array => simp [schemasByName, hd]

/-! ## Items -/

theorem commonItem?_clausesOf :
    (clausesOf ctx members).commonItem? =
      (commonItem? members).map fun w => Check.test (meaning ctx w) := by
  unfold Clauses.commonItem? commonItem?
  rw [find?_clausesOf]
  rcases members.find? "items" with _ | w
  · rfl
  · cases w <;> rfl

theorem placed_clausesOf :
    (clausesOf ctx members).placed ctx.dialect =
      (placedSchemas ctx.dialect members).map fun w => Check.test (meaning ctx w) := by
  unfold Clauses.placed placedSchemas
  cases ctx.dialect <;> exact listed_clausesOf _ _ _

theorem listsItems_clausesOf :
    (clausesOf ctx members).listsItems ctx.dialect = hasItemList ctx (partsOf ctx members) := by
  unfold Clauses.listsItems hasItemList
  rcases h : members.find? "items" with _ | w
  · cases ctx.dialect <;> simp [h]
  · cases ctx.dialect <;> cases w <;> simp [h]

theorem itemsHold_iff :
    (clausesOf ctx members).itemsHold ctx.dialect v = true ↔
      (∀ w, commonItem? members = some w →
        ∀ x ∈ (itemsOf v).drop (leftOut ctx.dialect members), (meaning ctx w x).holds = true) ∧
      (∀ p ∈ (placedSchemas ctx.dialect members).zip (itemsOf v),
        (meaning ctx p.1 p.2).holds = true) ∧
      (listsItems ctx.dialect members → ∀ w, members.find? "additionalItems" = some w →
        ∀ x ∈ (itemsOf v).drop (schemasByPlace members "items").length,
          (meaning ctx w x).holds = true) := by
  unfold Clauses.itemsHold leftOut
  rw [commonItem?_clausesOf, placed_clausesOf, listsItems_clausesOf, test?_clausesOf,
    listed_clausesOf, listed_clausesOf, Bool.and_eq_true, Bool.and_eq_true, and_assoc,
    or_eq_true_iff_imp, Bool.not_eq_false', hasItemList_partsOf_iff, List.length_map, List.length_map]
  refine and_congr ?_ (and_congr ?_ (imp_congr_right fun _ => ?_))
  · cases commonItem? members <;> simp
  · simp [List.zip_map_left]
  · cases members.find? "additionalItems" <;> simp

theorem containsEnough_clausesOf (count : Nat) :
    (clausesOf ctx members).containsEnough ctx.scope count =
      containsEnough ctx (partsOf ctx members) count := by
  unfold Clauses.containsEnough containsEnough
  simp only [count?_clausesOf, Context.scope_isRecent]

theorem containsHolds_iff :
    (clausesOf ctx members).containsHolds ctx.scope v = true ↔
      ∀ w, members.find? "contains" = some w → ∀ items, v = .array items →
        containsEnough ctx (partsOf ctx members)
          (items.countP fun x => (meaning ctx w x).holds) = true := by
  unfold Clauses.containsHolds
  rw [test?_clausesOf]
  cases members.find? "contains" <;> cases v <;> simp [containsEnough_clausesOf]

/-! ## Schemas of the same value -/

theorem selected?_clausesOf :
    (clausesOf ctx members).selected? v =
      (members.find? "if").bind fun c =>
        (members.find? (selectedKey ctx c v)).map fun w => Check.test (meaning ctx w) := by
  unfold Clauses.selected?
  simp only [test?_clausesOf]
  cases members.find? "if" <;> rfl

theorem dependent_clausesOf :
    (clausesOf ctx members).dependent ctx.scope v =
      if ctx.isRecent then
        ((schemasByName members "dependentSchemas").filter fun d => Table.has (membersOf v) d.1).map
          fun d => Check.test (meaning ctx d.2)
      else [] := by
  unfold Clauses.dependent
  rw [named_clausesOf, List.filter_map, List.map_map]
  rfl

theorem branchesHold_iff :
    (clausesOf ctx members).branchesHold ctx.scope v = true ↔
      (ctx.isRecent = true → ∀ d ∈ schemasByName members "dependentSchemas",
        Table.has (membersOf v) d.1 = true → (meaning ctx d.2 v).holds = true) ∧
      (∀ w ∈ schemasByPlace members "allOf", (meaning ctx w v).holds = true) ∧
      (members.has "anyOf" = true →
        ∃ w ∈ schemasByPlace members "anyOf", (meaning ctx w v).holds = true) ∧
      (members.has "oneOf" = true →
        (schemasByPlace members "oneOf").countP (fun w => (meaning ctx w v).holds) = 1) ∧
      (∀ w, members.find? "not" = some w → (meaning ctx w v).holds = false) ∧
      (∀ c, members.find? "if" = some c →
        ∀ w, members.find? (selectedKey ctx c v) = some w → (meaning ctx w v).holds = true) ∧
      ∀ r, members.find? "$ref" = some (.string r) → (ctx.resolve r v).holds = true := by
  unfold Clauses.branchesHold
  simp only [Bool.and_eq_true, and_assoc]
  refine and_congr ?_ (and_congr ?_ (and_congr ?_ (and_congr ?_ (and_congr ?_ (and_congr ?_ ?_)))))
  · rw [dependent_clausesOf]
    cases ctx.isRecent
    · simp
    · simp only [if_true, forall_const, List.all_map, List.all_eq_true, List.mem_filter, and_imp,
        Function.comp_apply, Check.test_apply, Report.verdict_holds]
  · simp
  · rw [or_eq_true_iff_imp, Bool.not_eq_false', has_clausesOf]
    simp
  · rw [or_eq_true_iff_imp, Bool.not_eq_false', has_clausesOf]
    simp [List.countP_map, Function.comp_def]
  · rw [test?_clausesOf]
    cases members.find? "not" <;> simp
  · rw [selected?_clausesOf]
    rcases members.find? "if" with _ | c
    · simp
    · simp only [Option.bind_some, Option.some.injEq, forall_eq', all_tests_iff]
  · unfold Clauses.referred?
    rw [value?_clausesOf]
    rcases members.find? "$ref" with _ | w
    · simp
    · cases w <;> simp

theorem map_listed_clausesOf (key : String) :
    ((clausesOf ctx members).listed key).map (· v) =
      ((Parts.listed (partsOf ctx members) key).map (· v)).map Report.verdict := by
  rw [listed_clausesOf, listed_partsOf]
  simp [Function.comp_def]

theorem map_dependent_clausesOf :
    ((clausesOf ctx members).dependent ctx.scope v).map (· v) =
      (branches ctx (partsOf ctx members) v).dependent.map Report.verdict := by
  rw [dependent_clausesOf]
  unfold branches
  rw [named_partsOf]
  cases ctx.isRecent
  · rfl
  · simp only [if_true, List.filter_map, List.map_map]
    rfl

theorem map_condition_clausesOf :
    ((clausesOf ctx members).test? "if").toList.map (· v) =
      (branches ctx (partsOf ctx members) v).condition.toList.map Report.verdict := by
  unfold branches
  rw [test?_clausesOf, check?_partsOf]
  cases members.find? "if" <;> rfl

theorem map_referred_clausesOf :
    ((clausesOf ctx members).referred? ctx.scope).toList.map (· v) =
      (branches ctx (partsOf ctx members) v).referred.toList.map Report.verdict := by
  unfold Clauses.referred? branches Parts.text?
  rw [value?_clausesOf, value?_partsOf]
  rcases members.find? "$ref" with _ | w
  · rfl
  · cases w <;> rfl

theorem map_selected_clausesOf :
    (((clausesOf ctx members).selected? v).map (· v)).toList =
      (branches ctx (partsOf ctx members) v).selected.toList.map Report.verdict := by
  rw [selected?_clausesOf]
  unfold branches
  simp only [check?_partsOf]
  rcases members.find? "if" with _ | c
  · rfl
  · simp only [Option.bind_some, Option.map_some]
    show _ = (Option.map _ (Option.map _ (members.find? (selectedKey ctx c v)))).toList.map _
    cases members.find? (selectedKey ctx c v) <;> rfl

/-- The verdicts that count are those of the reports that count. -/
theorem counted_clausesOf :
    (clausesOf ctx members).counted ctx.scope v =
      (countedBranches (branches ctx (partsOf ctx members) v)).map Report.verdict := by
  have hfilter : ∀ reports : List Report, (reports.map Report.verdict).filter (·.holds) =
      (reports.filter (·.holds)).map Report.verdict := fun reports => List.filter_map
  have hallOf : ((clausesOf ctx members).listed "allOf").map (· v) =
      (branches ctx (partsOf ctx members) v).allOf.map Report.verdict := map_listed_clausesOf "allOf"
  have hanyOf : ((clausesOf ctx members).listed "anyOf").map (· v) =
      (branches ctx (partsOf ctx members) v).anyOf.map Report.verdict := map_listed_clausesOf "anyOf"
  have honeOf : ((clausesOf ctx members).listed "oneOf").map (· v) =
      (branches ctx (partsOf ctx members) v).oneOf.map Report.verdict := map_listed_clausesOf "oneOf"
  unfold Clauses.counted countedBranches
  simp only [List.map_append, hallOf, hanyOf, honeOf, map_dependent_clausesOf,
    map_condition_clausesOf, map_referred_clausesOf, map_selected_clausesOf]
  simp only [← List.map_append, hfilter]
  rcases h : (branches ctx (partsOf ctx members) v).oneOf.filter (·.holds) with _ | ⟨r, _ | _⟩ <;>
    simp [h]

/-! ## Parts that nobody looked at -/

theorem seenNames_clausesOf :
    (clausesOf ctx members).seenNames ctx.scope v = seenNames ctx (partsOf ctx members) v := by
  have hown : (clausesOf ctx members).ownNames v = ownNames (partsOf ctx members) v := by
    unfold Clauses.ownNames ownNames
    simp only [has_clausesOf, has_partsOf, funext isDeclared_clausesOf]
  rw [Clauses.seenNames, seenNames, hown, counted_clausesOf, List.flatMap_map]
  rfl

theorem seenPlaces_clausesOf :
    (clausesOf ctx members).seenPlaces ctx.scope v = seenPlaces ctx (partsOf ctx members) v := by
  have hown : (clausesOf ctx members).ownPlaces ctx.scope v =
      ownPlaces ctx (partsOf ctx members) v := by
    unfold Clauses.ownPlaces ownPlaces
    simp only [Context.scope_dialect, commonItem?_clausesOf, commonItemCheck?_partsOf,
      listsItems_clausesOf, placed_clausesOf, itemSchemas_partsOf, has_clausesOf, has_partsOf,
      Option.isSome_map, List.length_map, test?_clausesOf, check?_partsOf]
    cases ctx.dialect <;> cases members.find? "contains" <;> rfl
  rw [Clauses.seenPlaces, seenPlaces, hown, counted_clausesOf, List.flatMap_map]
  rfl

theorem unseenHold_iff :
    (clausesOf ctx members).unseenHold ctx.scope v = true ↔
      (ctx.isRecent = true → ∀ w, members.find? "unevaluatedProperties" = some w →
        ∀ m ∈ membersOf v, m.1 ∉ seenNames ctx (partsOf ctx members) v →
          (meaning ctx w m.2).holds = true) ∧
      (ctx.isRecent = true → ∀ w, members.find? "unevaluatedItems" = some w →
        ∀ p ∈ (itemsOf v).zipIdx, p.2 ∉ seenPlaces ctx (partsOf ctx members) v →
          (meaning ctx w p.1).holds = true) := by
  unfold Clauses.unseenHold
  rw [test?_clausesOf, test?_clausesOf, seenNames_clausesOf, seenPlaces_clausesOf,
    or_eq_true_iff_imp, Bool.not_eq_false', Context.scope_isRecent, Bool.and_eq_true, imp_and]
  refine and_congr (imp_congr_right fun _ => ?_) (imp_congr_right fun _ => ?_)
  · cases members.find? "unevaluatedProperties" <;> simp [or_iff_not_imp_left]
  · cases members.find? "unevaluatedItems" <;> simp [or_iff_not_imp_left]

/-! ## A schema as a whole -/

theorem verdict_clausesOf_holds_iff :
    ((clausesOf ctx members).verdict ctx.scope v).holds = true ↔ Satisfies ctx members v := by
  simp only [Clauses.verdict, Context.scope_dialect, Bool.and_eq_true, and_assoc,
    ← assertionFaults_eq_nil_iff, requiredHolds_iff, membersHold_iff, namesHold_iff, itemsHold_iff,
    containsHolds_iff, dependenciesHold_iff, branchesHold_iff, unseenHold_iff]
  constructor
  · rintro ⟨hassertions, hrequired, hproperty, hpattern, hfurther, hnames, hcommon, hplaced,
      hadditional, hcontains, hdependencies, hdependent, hallOf, hanyOf, honeOf, hnot, hselected,
      hreferred, hunseenNames, hunseenItems⟩
    exact {
      assertions := hassertions
      required := hrequired
      property := hproperty
      pattern := hpattern
      further := hfurther
      names := hnames
      commonItems := hcommon
      placedItems := hplaced
      furtherItems := hadditional
      contains := hcontains
      dependencies := hdependencies
      dependent := hdependent
      allOf := hallOf
      anyOf := hanyOf
      oneOf := honeOf
      not := hnot
      selected := hselected
      unevaluatedNames := hunseenNames
      unevaluatedItems := hunseenItems
      referred := hreferred }
  · intro h
    exact ⟨h.assertions, h.required, h.property, h.pattern, h.further, h.names, h.commonItems,
      h.placedItems, h.furtherItems, h.contains, h.dependencies, h.dependent, h.allOf, h.anyOf,
      h.oneOf, h.not, h.selected, h.referred, h.unevaluatedNames, h.unevaluatedItems⟩

theorem verdict_clausesOf :
    (clausesOf ctx members).verdict ctx.scope v =
      (keywordsReport ctx (partsOf ctx members) v).verdict := by
  have hholds : ((clausesOf ctx members).verdict ctx.scope v).holds =
      (keywordsReport ctx (partsOf ctx members) v).holds := by
    rw [Bool.eq_iff_iff, verdict_clausesOf_holds_iff, keywordsReport_holds_iff]
  have hnames : ((clausesOf ctx members).verdict ctx.scope v).names =
      (keywordsReport ctx (partsOf ctx members) v).names := by
    simp only [Clauses.verdict, names_keywordsReport, Context.scope_isRecent, has_clausesOf,
      has_partsOf, seenNames_clausesOf]
  have hplaces : ((clausesOf ctx members).verdict ctx.scope v).places =
      (keywordsReport ctx (partsOf ctx members) v).places := by
    simp only [Clauses.verdict, places_keywordsReport, Context.scope_isRecent, has_clausesOf,
      has_partsOf, seenPlaces_clausesOf]
  rw [Report.verdict, ← hholds, ← hnames, ← hplaces]

end Keywords

/-! ## Documents -/

mutual

/-- A schema has the verdict of its report, whatever its references mean. -/
theorem verdict_eq (ctx : Context) (w v : Json) :
    verdict ctx.scope w v = (meaning ctx w v).verdict := by
  cases w with
  | bool holds => cases holds <;> rfl
  | object members =>
    rw [verdict, meaning, objectReport, clauses_eq ctx members, verdict_clausesOf, Parts.text?,
      value?_partsOf, Context.scope_dialect]
    rcases Table.find? members "$ref" with _ | w
    · cases ctx.dialect <;> rfl
    · cases ctx.dialect <;> cases w <;> rfl
  | null | number | string | array => rfl

theorem clauses_eq (ctx : Context) (members : Table Json) :
    clauses ctx.scope members = clausesOf ctx members := by
  cases members with
  | nil => rfl
  | cons head rest =>
    obtain ⟨key, w⟩ := head
    rw [clauses, clauses_eq ctx rest, namedTests_eq ctx w, listedTests_eq ctx w,
      funext (verdict_eq ctx w)]
    rfl

theorem namedTests_eq (ctx : Context) (w : Json) :
    namedTests ctx.scope w = (namedIn ctx w).map fun m => (m.1, m.2.test) := by
  cases w with
  | object members => exact testsByName_eq ctx members
  | null | bool | number | string | array => rfl

theorem listedTests_eq (ctx : Context) (w : Json) :
    listedTests ctx.scope w = (listedIn ctx w).map Check.test := by
  cases w with
  | array items => exact testsByPlace_eq ctx items
  | null | bool | number | string | object => rfl

theorem testsByName_eq (ctx : Context) (schemas : Table Json) :
    testsByName ctx.scope schemas = (namedChecks ctx schemas).map fun m => (m.1, m.2.test) := by
  cases schemas with
  | nil => rfl
  | cons head rest =>
    obtain ⟨name, w⟩ := head
    rw [testsByName, testsByName_eq ctx rest, funext (verdict_eq ctx w)]
    rfl

theorem testsByPlace_eq (ctx : Context) (schemas : List Json) :
    testsByPlace ctx.scope schemas = (listedChecks ctx schemas).map Check.test := by
  cases schemas with
  | nil => rfl
  | cons w rest =>
    rw [testsByPlace, testsByPlace_eq ctx rest, funext (verdict_eq ctx w)]
    rfl

end

end GuardedCall.Schema
