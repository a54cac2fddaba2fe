-- Documents of plain object schemas: types, properties, required names, schemas
-- of further members and of items, and leaves. For these strict mode means
-- exactly that every object schema that says nothing of further members allows
-- none, wherever it applies.
import GuardedCall.Proofs.StrictMode
import GuardedCall.Proofs.Surveys

namespace GuardedCall

namespace Schema

/-! ## Documents of object schemas -/

/-- Keywords that look at a value by itself: constants and bounds. -/
def leafKeywords : List String :=
  ["const", "enum", "exclusiveMaximum", "exclusiveMinimum", "maxItems", "maxLength", "maxProperties",
    "maximum", "minItems", "minLength", "minProperties", "minimum", "multipleOf"]

def structuralKeywords : List String :=
  ["additionalProperties", "items", "properties", "required", "type"] ++ leafKeywords

/-- A schema stands under a keyword of a structural schema. -/
inductive Under (members : Table Json) : Json → Prop
  | property {schemas : Table Json} {m : String × Json} (h : ("properties", .object schemas) ∈ members)
      (hm : m ∈ schemas) : Under members m.2
  | further {w : Json} (h : ("additionalProperties", w) ∈ members) : Under members w
  | item {w : Json} (h : ("items", w) ∈ members) : Under members w

/-- A type is a name or a list. -/
def IsTypes (t : Json) : Prop := (∃ name, t = .string name) ∨ ∃ types, t = .array types

/-- A document that is built from these keywords alone. The value of `items` is one schema, since a
list is none. -/
inductive Structural : Json → Prop
  | truth (b : Bool) : Structural (.bool b)
  | object {members : Table Json} (keys : ∀ m ∈ members, m.1 ∈ structuralKeywords)
      (types : ∀ t, members.find? "type" = some t → IsTypes t)
      (inside : ∀ w, Under members w → Structural w) : Structural (.object members)

/-- A schema that describes objects: its type is or includes that of objects, or it has no type and
a keyword for objects. -/
inductive IsObjectSchema (members : Table Json) : Prop
  | named (h : members.find? "type" = some (.string "object"))
  | listed {types : List Json} (h : members.find? "type" = some (.array types))
      (hmem : .string "object" ∈ types)
  | untyped {key : String} (h : members.find? "type" = none) (hkey : key ∈ objectKeywords)
      (hhas : members.has key = true)

/-- The schemas inside a structural schema hold where they apply: those of properties for the
members of their names, that of further members for the others, and that of items. -/
structure Inside (accepts : Json → Json → Prop) (members : Table Json) (v : Json) : Prop where
  property : ∀ m ∈ membersOf v, ∀ w, (schemasByName members "properties").find? m.1 = some w →
    accepts w m.2
  further : ∀ m ∈ membersOf v, (schemasByName members "properties").find? m.1 = none →
    ∀ w, members.find? "additionalProperties" = some w → accepts w m.2
  items : ∀ w, members.find? "items" = some w → ∀ x ∈ itemsOf v, accepts w x

/-- An object schema that says nothing of further members declares every name of the value. -/
def NamesDeclared (members : Table Json) (v : Json) : Prop :=
  IsObjectSchema members → members.find? "additionalProperties" = none →
    ∀ m ∈ membersOf v, (schemasByName members "properties").has m.1 = true

/-- Nothing in a value is further to an object schema that applies there and says nothing of further
members. -/
inductive Closed : Json → Json → Prop
  | truth (b : Bool) (v : Json) : Closed (.bool b) v
  | object {members : Table Json} {v : Json} (names : NamesDeclared members v)
      (property : ∀ m ∈ membersOf v, ∀ w, (schemasByName members "properties").find? m.1 = some w →
        Closed w m.2)
      (further : ∀ m ∈ membersOf v, (schemasByName members "properties").find? m.1 = none →
        ∀ w, members.find? "additionalProperties" = some w → Closed w m.2)
      (items : ∀ w, members.find? "items" = some w → ∀ x ∈ itemsOf v, Closed w x) :
      Closed (.object members) v

theorem closed_object_iff {members : Table Json} {v : Json} :
    Closed (.object members) v ↔ NamesDeclared members v ∧ Inside Closed members v := by
  constructor
  · intro h
    cases h with
    | object names property further items => exact ⟨names, property, further, items⟩
  · rintro ⟨names, property, further, items⟩
    exact .object names property further items

section Structural

variable {members : Table Json} {v : Json}

/-! ## Schemas inside -/

theorem under_of_property {name : String} {w : Json}
    (h : (schemasByName members "properties").find? name = some w) : Under members w := by
  obtain ⟨schemas, hfind, hmem⟩ := mem_schemasByName (Table.mem_of_find? h)
  exact .property (Table.mem_of_find? hfind) hmem

/-- Only the schemas inside matter. -/
theorem Inside.congr {p q : Json → Json → Prop} (h : ∀ w, Under members w → ∀ x, p w x ↔ q w x) :
    Inside p members v ↔ Inside q members v := by
  have hmono : ∀ {p q : Json → Json → Prop}, (∀ w, Under members w → ∀ x, p w x → q w x) →
      Inside p members v → Inside q members v := fun h hp => {
    property := fun m hm w hw => h w (under_of_property hw) _ (hp.property m hm w hw)
    further := fun m hm hnone w hw =>
      h w (.further (Table.mem_of_find? hw)) _ (hp.further m hm hnone w hw)
    items := fun w hw x hx => h w (.item (Table.mem_of_find? hw)) _ (hp.items w hw x hx) }
  exact ⟨hmono fun w hw x => (h w hw x).mp, hmono fun w hw x => (h w hw x).mpr⟩

theorem Inside.and_iff {p q : Json → Json → Prop} :
    Inside (fun w x => p w x ∧ q w x) members v ↔ Inside p members v ∧ Inside q members v := by
  constructor
  · intro h
    exact ⟨⟨fun m hm w hw => (h.property m hm w hw).1, fun m hm hn w hw => (h.further m hm hn w hw).1,
      fun w hw x hx => (h.items w hw x hx).1⟩,
      ⟨fun m hm w hw => (h.property m hm w hw).2, fun m hm hn w hw => (h.further m hm hn w hw).2,
      fun w hw x hx => (h.items w hw x hx).2⟩⟩
  · rintro ⟨hp, hq⟩
    exact ⟨fun m hm w hw => ⟨hp.property m hm w hw, hq.property m hm w hw⟩,
      fun m hm hn w hw => ⟨hp.further m hm hn w hw, hq.further m hm hn w hw⟩,
      fun w hw x hx => ⟨hp.items w hw x hx, hq.items w hw x hx⟩⟩

/-! ## What a structural schema asks for -/

/-- What a schema asks for by itself. -/
def Itself (ctx : Context) (members : Table Json) (v : Json) : Prop :=
  assertionFaults ctx (partsOf ctx members) v = [] ∧
    (¬ OverlooksRequired members → missingNames (requiredNames members) v = [])

theorem plain_of_structural (hkeys : ∀ m ∈ members, m.1 ∈ structuralKeywords) : Plain members := by
  have hsub : ∀ key ∈ structuralKeywords, key ∈ plainKeywords := by decide
  exact fun m hm => hsub _ (hkeys m hm)

theorem find?_eq_none_of_structural (hkeys : ∀ m ∈ members, m.1 ∈ structuralKeywords) {key : String}
    (hkey : key ∉ structuralKeywords) : members.find? key = none :=
  Table.find?_eq_none fun m hm heq => hkey (heq ▸ hkeys m hm)

/-- A structural schema holds exactly if it holds by itself and the schemas inside it do. -/
theorem structural_holds_iff {ctx : Context} (hkeys : ∀ m ∈ members, m.1 ∈ structuralKeywords)
    (hitems : ∀ w, members.find? "items" = some w → isList w = false) :
    (meaning ctx (.object members) v).holds = true ↔
      Itself ctx members v ∧ Inside (fun w x => (meaning ctx w x).holds = true) members v := by
  have hnone : ∀ {key : String}, key ∉ structuralKeywords → members.find? key = none :=
    find?_eq_none_of_structural hkeys
  have hcommon : commonItem? members = members.find? "items" := by
    unfold commonItem?
    split
    · rename_i schemas hlist
      cases hitems _ hlist
    · rfl
  have hplaced : schemasByPlace members "items" = [] := by
    unfold schemasByPlace
    split
    · rename_i schemas hlist
      cases hitems _ hlist
    · rfl
  have hall : schemasByPlace members "allOf" = [] := by
    rw [schemasByPlace, hnone (by decide)]
  rw [(plain_of_structural hkeys).holds_iff (hnone (by decide))]
  constructor
  · intro h
    exact ⟨⟨h.assertions, h.required⟩, h.property, h.further,
      fun w hw => h.commonItems w (hcommon ▸ hw)⟩
  · rintro ⟨⟨hassertions, hrequired⟩, hinside⟩
    exact {
      assertions := hassertions
      required := hrequired
      property := hinside.property
      further := hinside.further
      names := fun w hw => by
        rw [hnone (by decide)] at hw
        cases hw
      commonItems := fun w hw => hinside.items w (hcommon ▸ hw)
      placedItems := fun _ p hp => by
        rw [hplaced] at hp
        cases hp
      allOf := fun w hw => by
        rw [hall] at hw
        cases hw
      anyOf := fun h => by
        rw [Table.has, hnone (by decide)] at h
        cases h
      referred := fun r hr => by
        rw [hnone (by decide)] at hr
        cases hr }

/-! ## What closing adds -/

theorem isObjectSchema_iff (htypes : ∀ t, members.find? "type" = some t → IsTypes t) :
    describesObjects members = true ↔ IsObjectSchema members := by
  unfold describesObjects
  rcases htype : members.find? "type" with _ | t
  · constructor
    · intro h
      obtain ⟨key, hkey, hhas⟩ := List.any_eq_true.mp h
      exact .untyped htype hkey hhas
    · intro h
      cases h with
      | named h => cases htype.symm.trans h
      | listed h => cases htype.symm.trans h
      | untyped h hkey hhas => exact List.any_eq_true.mpr ⟨_, hkey, hhas⟩
  · rcases htypes t htype with ⟨name, rfl⟩ | ⟨types, rfl⟩
    · constructor
      · intro h
        obtain rfl : name = "object" := by simpa using h
        exact .named htype
      · intro h
        cases h with
        | named h =>
          cases htype.symm.trans h
          rfl
        | listed h => cases htype.symm.trans h
        | untyped h => cases htype.symm.trans h
    · constructor
      · intro h
        obtain ⟨t, ht, hname⟩ := List.any_eq_true.mp h
        cases t with
        | string s =>
          obtain rfl : s = "object" := by simpa [isObjectName] using hname
          exact .listed htype ht
        | null | bool | number | array | object => cases hname
      · intro h
        cases h with
        | named h => cases htype.symm.trans h
        | listed h hmem =>
          cases htype.symm.trans h
          exact List.any_eq_true.mpr ⟨_, hmem, rfl⟩
        | untyped h => cases htype.symm.trans h

theorem isOpen_iff (htypes : ∀ t, members.find? "type" = some t → IsTypes t) :
    isOpen members = true ↔
      IsObjectSchema members ∧ members.find? "additionalProperties" = none := by
  simp [isOpen, isObjectSchema_iff htypes, Table.has]

/-- Closing a schema changes nothing of what it asks for by itself. -/
theorem itself_closeMembers_iff {ctx' ctx : Context} (hdialect : ctx'.dialect = ctx.dialect) :
    Itself ctx' (closeMembers members) v ↔ Itself ctx members v := by
  have hwent := went_close members
  rw [Itself, Itself, hwent.assertions_eq hdialect, hwent.overlooksRequired_iff .closed,
    hwent.requiredNames_eq]

theorem find?_properties_closeMembers (name : String) :
    (schemasByName (closeMembers members) "properties").find? name =
      ((schemasByName members "properties").find? name).map close := by
  rw [(went_close members).named "properties" (by decide)]
  exact Table.find?_map (fun _ => close) _ name

theorem find?_items_closeMembers (members : Table Json) :
    (closeMembers members).find? "items" = (members.find? "items").map close :=
  (went_close members).schema "items" (by decide)

/-- What is asked of further members: a closed schema asks what the schema does, and an open one
lets none pass. -/
theorem further_closeMembers_iff {accepts : Json → Json → Prop}
    (hfalse : ∀ x, ¬ accepts (.bool false) x) :
    (∀ m ∈ membersOf v, (schemasByName (closeMembers members) "properties").find? m.1 = none →
      ∀ w, (closeMembers members).find? "additionalProperties" = some w → accepts w m.2) ↔
    (∀ m ∈ membersOf v, (schemasByName members "properties").find? m.1 = none →
      ∀ w, members.find? "additionalProperties" = some w → accepts (close w) m.2) ∧
    (isOpen members = true →
      ∀ m ∈ membersOf v, (schemasByName members "properties").has m.1 = true) := by
  simp only [find?_properties_closeMembers, Option.map_eq_none_iff, find?_closeMembers_additional]
  cases hopen : isOpen members with
  | true =>
    -- There is no schema of further members, and closing puts one there that holds for nothing.
    have hdeclared : ∀ name, (schemasByName members "properties").has name = true ↔
        (schemasByName members "properties").find? name ≠ none := by
      simp [Table.has, Option.isSome_iff_ne_none]
    simp [additional_of_isOpen hopen, hdeclared, hfalse]
  | false => simp [closeValue_schema (show "additionalProperties" ∈ schemaKeywords by decide)]

/-- The schemas inside a closed schema are those of the schema, closed, and no member of a value is
further to an open one. -/
theorem inside_closeMembers_iff {accepts : Json → Json → Prop}
    (hfalse : ∀ x, ¬ accepts (.bool false) x) :
    Inside accepts (closeMembers members) v ↔
      Inside (fun w x => accepts (close w) x) members v ∧
        (isOpen members = true →
          ∀ m ∈ membersOf v, (schemasByName members "properties").has m.1 = true) := by
  have hproperty : (∀ m ∈ membersOf v, ∀ w,
      (schemasByName (closeMembers members) "properties").find? m.1 = some w → accepts w m.2) ↔
      ∀ m ∈ membersOf v, ∀ w, (schemasByName members "properties").find? m.1 = some w →
        accepts (close w) m.2 := by
    simp [find?_properties_closeMembers]
  have hitems : (∀ w, (closeMembers members).find? "items" = some w → ∀ x ∈ itemsOf v, accepts w x) ↔
      ∀ w, members.find? "items" = some w → ∀ x ∈ itemsOf v, accepts (close w) x := by
    simp [find?_items_closeMembers]
  constructor
  · intro h
    obtain ⟨hfurther, hdeclared⟩ := (further_closeMembers_iff hfalse).mp h.further
    exact ⟨⟨hproperty.mp h.property, hfurther, hitems.mp h.items⟩, hdeclared⟩
  · rintro ⟨h, hdeclared⟩
    exact ⟨hproperty.mpr h.property, (further_closeMembers_iff hfalse).mpr ⟨h.further, hdeclared⟩,
      hitems.mpr h.items⟩

/-! ## Schemas that describe no objects -/

theorem isTypes_name (name : String) : IsTypes (.string name) := .inl ⟨name, rfl⟩

theorem structural_typed {t : Json} (ht : IsTypes t) : Structural (.object [("type", t)]) := by
  refine .object (by simp [structuralKeywords]) (by simpa using ht) fun w hw => ?_
  cases hw <;> simp_all

/-- What stands inside a value is all that closing asks for where no objects are described. -/
theorem closed_iff_inside {members : Table Json} (h : ¬ IsObjectSchema members) :
    Closed (.object members) v ↔ Inside Closed members v := by
  rw [closed_object_iff]
  exact and_iff_right fun hobject => (h hobject).elim

/-- Every value is closed to a type other than that of objects. -/
theorem closed_typed {t : Json} (ht : IsTypes t) (hother : describesObjects [("type", t)] = false) :
    Closed (.object [("type", t)]) v := by
  have hnot : ¬ IsObjectSchema [("type", t)] := by
    rw [← isObjectSchema_iff (by simpa using ht), hother]
    exact Bool.false_ne_true
  refine (closed_iff_inside hnot).mpr ?_
  exact {
    property := fun m hm w hw => by cases hw
    further := fun m hm hnone w hw => by cases hw
    items := fun w hw => by cases hw }

end Structural

/-! ## Closing a structural document -/

theorem isList_of_structural {w : Json} (h : Structural w) : isList w = false := by
  cases h <;> rfl

theorem isList_close (w : Json) : isList (close w) = isList w := by
  cases w <;> simp [close, isList]

/-- A closed schema holds for a value exactly if the schema does and the value is closed to it. No
structural schema depends on what references lead to. -/
theorem close_holds_iff {ctx' ctx : Context} (hdialect : ctx'.dialect = ctx.dialect) {w : Json}
    (h : Structural w) (v : Json) :
    (meaning ctx' (close w) v).holds = true ↔ (meaning ctx w v).holds = true ∧ Closed w v := by
  induction h generalizing v with
  | truth b =>
    have hsame : (meaning ctx' (close (.bool b)) v).holds = (meaning ctx (.bool b) v).holds := by
      cases b <;> rfl
    rw [hsame]
    exact (and_iff_left (Closed.truth b v)).symm
  | @object members hkeys htypes hinside ih =>
    have hitems : ∀ w, members.find? "items" = some w → isList w = false := fun w hw =>
      isList_of_structural (hinside w (.item (Table.mem_of_find? hw)))
    have hkeys' : ∀ m ∈ closeMembers members, m.1 ∈ structuralKeywords := by
      intro m hm
      rcases mem_closeMembers hm with rfl | ⟨m', hm', rfl⟩
      · decide
      · exact hkeys m' hm'
    have hitems' : ∀ w, (closeMembers members).find? "items" = some w → isList w = false := by
      intro w' hw'
      rw [find?_items_closeMembers] at hw'
      obtain ⟨w, hw, rfl⟩ := Option.map_eq_some_iff.mp hw'
      rw [isList_close, hitems w hw]
    have hfalse : ∀ x, ¬ (meaning ctx' (.bool false) x).holds = true := by
      intro x
      simp [meaning, Check.refuse, Report.holds]
    have hnames : (isOpen members = true →
        ∀ m ∈ membersOf v, (schemasByName members "properties").has m.1 = true) ↔
          NamesDeclared members v := by
      rw [isOpen_iff htypes, and_imp]
      rfl
    rw [close_object, structural_holds_iff hkeys' hitems', structural_holds_iff hkeys hitems,
      itself_closeMembers_iff hdialect, inside_closeMembers_iff hfalse, Inside.congr ih,
      Inside.and_iff, closed_object_iff, hnames]
    constructor
    · rintro ⟨hitself, ⟨hholds, hclosed⟩, hdeclared⟩
      exact ⟨⟨hitself, hholds⟩, hdeclared, hclosed⟩
    · rintro ⟨⟨hitself, hholds⟩, hdeclared, hclosed⟩
      exact ⟨hitself, ⟨hholds, hclosed⟩, hdeclared⟩

/-! ## Compiling -/

section Survey

variable {dialect : Dialect} {follow : String → List String → Survey}

theorem leaves_hold_nothing (dialect : Dialect) :
    ∀ key ∈ "required" :: "type" :: leafKeywords, holding dialect key = .nothing := by
  cases dialect <;> decide

/-- What becomes of a keyword of a structural schema stops no survey if the schemas under it stop
none. -/
theorem keywordPasses_of_structural {members : Table Json} {key : String} {w : Json}
    (hkey : key ∈ structuralKeywords) (hmem : (key, w) ∈ members)
    (hinside : ∀ w, Under members w → Passes dialect follow (close w)) :
    KeywordPasses dialect follow key (closeValue key w) := by
  have hcases : key = "additionalProperties" ∨ key = "items" ∨ key = "properties" ∨
      key ∈ "required" :: "type" :: leafKeywords := by
    simpa [structuralKeywords] using hkey
  rcases hcases with rfl | rfl | rfl | hleaf
  · refine .schemas (by cases dialect <;> decide) ?_
    rw [closeValue_schema (by decide)]
    exact hinside w (.further hmem)
  · refine .schemas (by cases dialect <;> decide) ?_
    rw [closeValue_schema (by decide)]
    exact hinside w (.item hmem)
  · refine keywordPasses_closeTable (by decide) (by cases dialect <;> decide) ?_
    intro m hm
    cases w with
    | object schemas => exact hinside m.2 (.property hmem hm)
    | null | bool | number | string | array => cases hm
  · exact .nothing _ (leaves_hold_nothing dialect key hleaf)

/-- Nothing in a closed structural schema stops a survey: there are no references and no patterns. -/
theorem passes_close_of_structural {w : Json} (h : Structural w) : Passes dialect follow (close w) := by
  induction h with
  | truth b => exact passes_bool b
  | @object members hkeys htypes hinside ih =>
    refine passes_close_object (find?_eq_none_of_structural hkeys (by decide)) ?_
    exact fun m hm => keywordPasses_of_structural (hkeys m hm) hm ih

end Survey

end Schema

namespace StrictMode

open Schema

variable {α : Type}

/-- Strict mode accepts of a structural document exactly what is accepted without it and is closed
to the document: where an object schema says nothing of further members, there are none. -/
theorem accepted_strict_iff_closed (dialect : Dialect) (s : DocumentSchema α) (v : Json)
    (hstructural : Structural s.document)
    (hcompiles : ∃ c, compileDocument ⟨dialect, false⟩ s.document = .ok c) :
    (byDocument ⟨dialect, true⟩).validate s v = .ok true ↔
      (byDocument ⟨dialect, false⟩).validate s v = .ok true ∧ Closed s.document v := by
  have hstrict : ∃ c, compileDocument ⟨dialect, true⟩ s.document = .ok c := by
    obtain ⟨c, hc⟩ := hcompiles
    exact ⟨_, compileDocument_eq_ok_iff.mpr
      (compile_strict_of_passes (fun _ => passes_close_of_structural hstructural)
        (compileDocument_eq_ok_iff.mp hc))⟩
  have hclosed : (judge dialect (close s.document) v).holds = true ↔
      (judge dialect s.document v).holds = true ∧ Closed s.document v :=
    @close_holds_iff ⟨dialect, resolver dialect (close s.document) _⟩
      ⟨dialect, resolver dialect s.document _⟩ rfl _ hstructural v
  rw [validate_eq_ok_iff, validate_eq_ok_iff, and_iff_right hstrict, and_iff_right hcompiles]
  exact hclosed

/-! ## Points in a list -/

/-- A point that may be missing: an object with a number. -/
def pointMembers : Table Json :=
  [("properties", .object [("x", .object [("type", .string "number")])]),
    ("type", .array [.string "null", .string "object"])]

def points : DocumentSchema Json where
  document := .object [("items", .object pointMembers), ("type", .string "array")]
  codec := Typed.json

theorem structural_points : Structural points.document := by
  have hnumber : Structural (.object [("type", .string "number")]) := by
    refine .object (by simp [structuralKeywords]) (by simp [IsTypes]) fun w hw => ?_
    cases hw <;> simp_all
  have hpoint : Structural (.object pointMembers) := by
    refine .object (by simp [structuralKeywords, pointMembers]) (by simp [IsTypes, pointMembers]) ?_
    intro w hw
    have hw' : w = .object [("type", .string "number")] := by
      cases hw <;> simp_all [pointMembers]
    rw [hw']
    exact hnumber
  refine .object (by simp [structuralKeywords]) (by simp [IsTypes]) fun w hw => ?_
  have hw' : w = .object pointMembers := by cases hw <;> simp_all
  rw [hw']
  exact hpoint

/-- A point with a further member. -/
def widePoint : Json := .object [("x", Json.whole 1), ("y", Json.whole 2)]

theorem widePoint_not_closed : ¬ Closed (.object pointMembers) widePoint := by
  intro h
  obtain ⟨hnames, -⟩ := closed_object_iff.mp h
  have hobject : IsObjectSchema pointMembers := .listed rfl (by simp)
  have hy := hnames hobject rfl ("y", Json.whole 2) (by simp [widePoint, membersOf])
  simp [pointMembers, schemasByName, Table.has] at hy

set_option maxRecDepth 2048 in
/-- A point of a list with a further member is accepted, but not in strict mode. -/
theorem wide_point_rejected_strict :
    Structural points.document ∧
      compileDocument ⟨.draft7, false⟩ points.document = .ok ⟨.draft7, points.document⟩ ∧
      (byDocument ⟨.draft7, false⟩).validate points (.array [.null, widePoint]) = .ok true ∧
      (byDocument ⟨.draft7, true⟩).validate points (.array [.null, widePoint]) ≠ .ok true := by
  have hcompiles : compileDocument ⟨.draft7, false⟩ points.document =
      .ok ⟨.draft7, points.document⟩ := by rfl
  refine ⟨structural_points, hcompiles, by rfl, fun hstrict => ?_⟩
  obtain ⟨-, hclosed⟩ :=
    (accepted_strict_iff_closed .draft7 points _ structural_points ⟨_, hcompiles⟩).mp hstrict
  obtain ⟨-, hinside⟩ := closed_object_iff.mp hclosed
  exact widePoint_not_closed (hinside.items _ rfl widePoint (by simp [itemsOf]))

end StrictMode

end GuardedCall
