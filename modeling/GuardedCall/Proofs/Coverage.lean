-- Which schemas of a document closing reaches. Of the schemas that a dialect
-- looks at it reaches all but those that stand under `dependencies`: where it
-- comes to, every object schema says what it allows of further members, and
-- below `dependencies` everything stays as it was.
import GuardedCall.Proofs.ObjectSchemas
import GuardedCall.Proofs.Places

namespace GuardedCall

namespace Schema

/-! ## The schemas that a dialect looks at -/

/-- The keywords of a dialect whose value may be a schema. -/
def loneKeywords (dialect : Dialect) : List String :=
  ["additionalItems", "additionalProperties", "contains", "else", "if", "items", "not",
    "propertyNames", "then"] ++
    if dialect = .draft7 then [] else ["unevaluatedItems", "unevaluatedProperties"]

/-- The keywords of a dialect whose value may be a list of schemas. -/
def listKeywords (dialect : Dialect) : List String :=
  ["allOf", "anyOf", "items", "oneOf"] ++ if dialect = .draft2020 then ["prefixItems"] else []

/-- The keywords of a dialect whose value holds schemas by name. -/
def tableKeywords (dialect : Dialect) : List String :=
  ["definitions", "patternProperties", "properties"] ++
    if dialect = .draft7 then ["dependencies"] else ["$defs", "dependentSchemas"]

/-- The steps from a schema to one right below it. -/
inductive RightBelow (dialect : Dialect) : Place → Prop
  | lone {key : String} (h : key ∈ loneKeywords dialect) : RightBelow dialect [.member key]
  | listed {key : String} (h : key ∈ listKeywords dialect) (n : Nat) :
    RightBelow dialect [.member key, .item n]
  | named {key : String} (h : key ∈ tableKeywords dialect) (name : String) :
    RightBelow dialect [.member key, .member name]

/-- A place where the dialect looks for a schema: the document itself, and right below such a
place. -/
inductive SchemaPlace (dialect : Dialect) : Place → Prop
  | whole : SchemaPlace dialect []
  | deeper {p steps : Place} (hp : SchemaPlace dialect p) (h : RightBelow dialect steps) :
    SchemaPlace dialect (p ++ steps)

/-- The place is that of a schema under `dependencies`, or lies below one. -/
inductive UnderDependency (dialect : Dialect) : Place → Prop
  | under {p : Place} (hp : SchemaPlace dialect p) (h : "dependencies" ∈ tableKeywords dialect)
    (name : String) (rest : Place) :
    UnderDependency dialect (p ++ [.member "dependencies", .member name] ++ rest)

/-! ## The parts that these places play -/

theorem roleAt_append (p q : Place) : roleAt (p ++ q) = q.foldl Role.next (roleAt p) :=
  List.foldl_append

theorem foldl_data (p : Place) : p.foldl Role.next .data = .data := by
  induction p with
  | nil => rfl
  | cons step rest ih => exact ih

/-- Under such a keyword closing looks for a schema, or for a list of schemas. -/
theorem next_schemaKeyword {dialect : Dialect} {key : String}
    (h : key ∈ loneKeywords dialect ∨ key ∈ listKeywords dialect) :
    Role.schema.next (.member key) = .schema := by
  have hkeywords : ∀ dialect, ∀ key ∈ loneKeywords dialect ++ listKeywords dialect,
      key ∉ schemaMapKeywords ∧ key ∈ schemaKeywords := by
    intro dialect
    cases dialect <;> decide
  obtain ⟨hmap, hschema⟩ := hkeywords dialect key (List.mem_append.mpr h)
  simp only [Role.next, hmap, hschema, if_true, if_false]

theorem next_named {dialect : Dialect} {key : String} (h : key ∈ tableKeywords dialect) :
    Role.schema.next (.member key) = .table ∨
      key = "dependencies" ∧ Role.schema.next (.member key) = .data := by
  have hkeywords : ∀ dialect, ∀ key ∈ tableKeywords dialect,
      key ∈ schemaMapKeywords ∨ key = "dependencies" := by
    intro dialect
    cases dialect <;> decide
  rcases hkeywords dialect key h with hmap | rfl
  · left
    simp only [Role.next, hmap, if_true]
  · right
    exact ⟨rfl, by decide⟩

theorem UnderDependency.append {dialect : Dialect} {p : Place} (h : UnderDependency dialect p)
    (q : Place) : UnderDependency dialect (p ++ q) := by
  cases h with
  | under hp hkey name rest =>
    rw [List.append_assoc _ rest q]
    exact .under hp hkey name (rest ++ q)

/-- Where a dialect looks for a schema, closing takes what stands there for a schema, or for data
below `dependencies`. -/
theorem SchemaPlace.role {dialect : Dialect} {p : Place} (h : SchemaPlace dialect p) :
    roleAt p = .schema ∨ roleAt p = .data ∧ UnderDependency dialect p := by
  induction h with
  | whole => exact .inl rfl
  | @deeper p steps hp hsteps ih =>
    rw [roleAt_append]
    rcases ih with hrole | ⟨hrole, hunder⟩
    · rw [hrole]
      cases hsteps with
      | lone hkey => exact .inl (next_schemaKeyword (.inl hkey))
      | listed hkey n =>
        left
        rw [List.foldl_cons, next_schemaKeyword (.inr hkey)]
        rfl
      | named hkey name =>
        rcases next_named hkey with hnext | ⟨rfl, hnext⟩
        · left
          rw [List.foldl_cons, hnext]
          rfl
        · right
          rw [List.foldl_cons, hnext]
          refine ⟨rfl, ?_⟩
          have hunder := UnderDependency.under hp hkey name []
          rwa [List.append_nil] at hunder
    · rw [hrole]
      exact .inr ⟨foldl_data steps, hunder.append steps⟩

theorem UnderDependency.role {dialect : Dialect} {p : Place} (h : UnderDependency dialect p) :
    roleAt p = .data := by
  cases h with
  | @under p hp hkey name rest =>
    have hnext : Role.schema.next (.member "dependencies") = .data := by decide
    rw [List.append_assoc, roleAt_append, List.foldl_append]
    rcases hp.role with hrole | ⟨hrole, -⟩
    · rw [hrole, List.foldl_cons, hnext]
      exact foldl_data rest
    · rw [hrole]
      exact foldl_data rest

/-! ## What closing leaves at these places -/

/-- What has become of an object schema: it refuses further members if it said nothing of them, and
else what it said of them is closed. -/
structure Settles (members members' : Table Json) : Prop where
  schema : IsObjectSchema members
  unsaid : members.find? "additionalProperties" = none →
    members'.find? "additionalProperties" = some (.bool false)
  said : ∀ w, members.find? "additionalProperties" = some w →
    members'.find? "additionalProperties" = some (close w)

theorem IsObjectSchema.describes {members : Table Json} (h : IsObjectSchema members) :
    describesObjects members = true := by
  unfold describesObjects
  cases h with
  | named h => simp [h]
  | listed h hmem =>
    rw [h]
    exact List.any_eq_true.mpr ⟨_, hmem, rfl⟩
  | untyped h hkey hhas =>
    rw [h]
    exact List.any_eq_true.mpr ⟨_, hkey, hhas⟩

theorem settles_closeMembers {members : Table Json} (h : IsObjectSchema members) :
    Settles members (closeMembers members) where
  schema := h
  unsaid hnone := by
    have hopen : isOpen members = true := by
      simp [isOpen, h.describes, Table.has, hnone]
    rw [find?_closeMembers_additional, if_pos hopen]
  said w hw := by
    have hclosed : closeValue "additionalProperties" = close := closeValue_schema (by decide)
    rw [part?_closeMembers hw, hclosed]

/-- Closing makes no other schema an object schema. -/
theorem isObjectSchema_of_closeMembers {members : Table Json}
    (h : IsObjectSchema (closeMembers members)) : IsObjectSchema members := by
  have htype : (closeMembers members).find? "type" = members.find? "type" := by
    rw [find?_closeMembers_of_ne members (by decide),
      closeValue_other (by decide) (by decide), Option.map_id_fun, id]
  cases h with
  | named h => exact .named (htype ▸ h)
  | listed h hmem => exact .listed (htype ▸ h) hmem
  | @untyped key h hkey hhas =>
    rw [htype] at h
    by_cases hmembers : members.has key = true
    · exact .untyped h hkey hmembers
    · by_cases hopen : isOpen members = true
      · -- The keyword was put in, so the schema had another one for objects.
        have hdescribes : describesObjects members = true := by
          rw [isOpen, Bool.and_eq_true] at hopen
          exact hopen.1
        exact (isObjectSchema_iff fun t ht => by cases h.symm.trans ht).mp hdescribes
      · have hsame : closeMembers members = closeInside members := if_neg hopen
        rw [hsame, Table.has, find?_closeInside, Option.isSome_map] at hhas
        exact absurd hhas hmembers

theorem partAt?_close_of_schema {document : Json} {p : Place} (hp : roleAt p = .schema)
    {members : Table Json} (h : partAt? document p = some (.object members)) :
    partAt? (close document) p = some (.object (closeMembers members)) := by
  have hclosed := partAt?_closedAs .schema h
  rw [show p.foldl Role.next .schema = .schema from hp] at hclosed
  rw [← close_object]
  exact hclosed

theorem partAt?_of_close_of_schema {document : Json} {p : Place} (hp : roleAt p = .schema)
    {members' : Table Json} (h : partAt? (close document) p = some (.object members')) :
    ∃ members, partAt? document p = some (.object members) ∧ members' = closeMembers members := by
  rcases partAt?_close_iff.mp h with ⟨w, hw, hclosed⟩ | hrefused
  · rw [hp, closedAs] at hclosed
    cases w with
    | object members =>
      rw [close_object] at hclosed
      exact ⟨members, hw, Json.object.inj hclosed⟩
    | null | bool | number | string | array =>
      simp only [close] at hclosed
      cases hclosed
  · cases hrefused

/-- Data stay as they were, and nothing is put in among them. -/
theorem partAt?_close_of_data {document : Json} {p : Place} (hp : roleAt p = .data) :
    partAt? (close document) p = partAt? document p := by
  refine Option.ext fun w' => ?_
  rw [partAt?_close_iff, hp]
  constructor
  · rintro (⟨w, hw, rfl⟩ | hrefused)
    · exact hw
    · cases hrefused with
      | @refused q members hq h hopen =>
        have hschema : roleAt (q ++ [.member "additionalProperties"]) = .schema := by
          rw [roleAt_append, hq]
          decide
        cases hschema.symm.trans hp
  · intro hw
    exact .inl ⟨w', hw, rfl⟩

end Schema

namespace StrictMode

open Schema
/-- Wherever a dialect looks for a schema, apart from `dependencies`, the object schemas of a closed
document are those of the document, and each of them refuses further members or closes what it said
of them. A schema under `dependencies`, and all that lies below it, stays as it was. -/
theorem object_schemas_close_outside_dependencies {dialect : Dialect} {p : Place}
    (hp : SchemaPlace dialect p) (document : Json) :
    (¬ UnderDependency dialect p →
      (∀ members, partAt? document p = some (.object members) → IsObjectSchema members →
        ∃ members', partAt? (close document) p = some (.object members') ∧ Settles members members') ∧
      ∀ members', partAt? (close document) p = some (.object members') → IsObjectSchema members' →
        ∃ members, partAt? document p = some (.object members) ∧ Settles members members') ∧
    (UnderDependency dialect p → partAt? (close document) p = partAt? document p) := by
  refine ⟨fun houtside => ?_, fun hunder => partAt?_close_of_data hunder.role⟩
  have hrole : roleAt p = .schema := hp.role.resolve_right fun h => houtside h.2
  constructor
  · intro members h hobject
    exact ⟨_, partAt?_close_of_schema hrole h, settles_closeMembers hobject⟩
  · intro members' h hobject
    obtain ⟨members, hmembers, rfl⟩ := partAt?_of_close_of_schema hrole h
    exact ⟨members, hmembers, settles_closeMembers (isObjectSchema_of_closeMembers hobject)⟩

/-- An object schema among the definitions of a schema for first items. Its name is a keyword. -/
def nested : Json :=
  .object [("prefixItems", .array [.object [
    ("$defs", .object [("properties", .object [("required", .array [.string "a"])])])]])]

def insideNested : Place :=
  [] ++ [.member "prefixItems", .item 0] ++ [.member "$defs", .member "properties"]

/-- The object schema inside is closed. -/
theorem nested_object_schema_closes :
    SchemaPlace .draft2020 insideNested ∧ ¬ UnderDependency .draft2020 insideNested ∧
      ∃ members' : Table Json, partAt? (close nested) insideNested = some (.object members') ∧
        members'.find? "additionalProperties" = some (.bool false) := by
  have hplace : SchemaPlace .draft2020 insideNested :=
    .deeper (.deeper .whole (.listed (by decide +kernel) 0)) (.named (by decide +kernel) "properties")
  have houtside : ¬ UnderDependency .draft2020 insideNested := by
    intro h
    cases h.role.symm.trans (show roleAt insideNested = .schema by decide +kernel)
  have hobject : IsObjectSchema [("required", .array [.string "a"])] :=
    @IsObjectSchema.untyped _ "required" rfl (by decide +kernel) rfl
  obtain ⟨members', hclosed, hsettles⟩ :=
    ((object_schemas_close_outside_dependencies hplace nested).1 houtside).1 _ rfl hobject
  exact ⟨hplace, houtside, members', hclosed, hsettles.unsaid rfl⟩

/-- Whoever has one member may have no other than that. -/
def dependent : DocumentSchema Json where
  document := .object [("dependencies", .object [
    ("a", .object [("properties", .object [("a", .object [])])])])]
  codec := Typed.json

set_option maxRecDepth 2048 in
/-- The schema under `dependencies` is an object schema that the oldest dialect looks at. Closing
leaves it open, and in strict mode a member passes that it does not declare. -/
theorem dependency_stays_open :
    SchemaPlace .draft7 ([] ++ [.member "dependencies", .member "a"]) ∧
      (∃ members : Table Json, partAt? (close dependent.document) ([] ++ [.member "dependencies", .member "a"]) =
          some (.object members) ∧
        IsObjectSchema members ∧ members.find? "additionalProperties" = none) ∧
      (byDocument ⟨.draft7, true⟩).validate dependent both = .ok true := by
  refine ⟨?_, ⟨[("properties", .object [("a", .object [])])], rfl, ?_, rfl⟩, ?_⟩
  · exact .deeper .whole (.named (by decide +kernel) "a")
  · exact @IsObjectSchema.untyped _ "properties" rfl (by decide +kernel) rfl
  · rfl

end StrictMode

end GuardedCall
