-- Closing keeps the shape of a document: what the schema of schemas accepts,
-- it accepts closed.
import GuardedCall.Proofs.Closing
import GuardedCall.Proofs.PlainSchemas
import GuardedCall.Schema.Validator

namespace GuardedCall.Schema

open GuardedCall

/-! ## What the parts of the schema of schemas ask for -/

section Parts

variable {ctx : Context} {v : Json}

theorem schemaMap_holds_iff :
    (meaning ctx MetaSchema.schemaMap v).holds = true ↔
      hasType v "object" = true ∧
        ∀ m ∈ membersOf v, (meaning ctx MetaSchema.schema m.2).holds = true := by
  have hplain : Plain [("additionalProperties", MetaSchema.schema), ("type", .string "object")] := by
    simp [Plain, plainKeywords, assertionKeywords]
  have htyped : OnlyTyped
      [("additionalProperties", MetaSchema.schema), ("type", .string "object")] := by
    simp [OnlyTyped, assertionKeywords]
  rw [MetaSchema.schemaMap, hplain.holds_iff rfl, meets_iff, htyped.assertions_iff]
  simp [requiredNames, missingNames_nil, schemasByName, schemasByPlace, commonItem?, allowedTypes,
    Table.has]

theorem patternMap_holds_iff :
    (meaning ctx MetaSchema.patternMap v).holds = true ↔
      hasType v "object" = true ∧
      (∀ m ∈ membersOf v, (meaning ctx MetaSchema.schema m.2).holds = true) ∧
      ∀ m ∈ membersOf v,
        (meaning ctx (.object [("format", .string "regex")]) (.string m.1)).holds = true := by
  have hplain : Plain [("additionalProperties", MetaSchema.schema),
      ("propertyNames", .object [("format", .string "regex")]), ("type", .string "object")] := by
    simp [Plain, plainKeywords, assertionKeywords]
  have htyped : OnlyTyped [("additionalProperties", MetaSchema.schema),
      ("propertyNames", .object [("format", .string "regex")]), ("type", .string "object")] := by
    simp [OnlyTyped, assertionKeywords]
  rw [MetaSchema.patternMap, hplain.holds_iff rfl, meets_iff, htyped.assertions_iff]
  simp [requiredNames, missingNames_nil, schemasByName, schemasByPlace, commonItem?, allowedTypes,
    Table.has]

theorem schemaList_holds_iff :
    (meaning ctx MetaSchema.schemaList v).holds = true ↔
      hasType v "array" = true ∧ (∀ items, v = .array items → items ≠ []) ∧
        ∀ x ∈ itemsOf v, (meaning ctx MetaSchema.schema x).holds = true := by
  have hplain : Plain [("items", MetaSchema.schema), ("minItems", Json.whole 1),
      ("type", .string "array")] := by
    simp [Plain, plainKeywords, assertionKeywords]
  have htyped : OnlyTyped [("items", MetaSchema.schema), ("minItems", Json.whole 1),
      ("type", .string "array")] := by
    simp [OnlyTyped, assertionKeywords]
  have hcommon : commonItem? [("items", MetaSchema.schema), ("minItems", Json.whole 1),
      ("type", .string "array")] = some MetaSchema.schema := rfl
  have hplaced : schemasByPlace [("items", MetaSchema.schema), ("minItems", Json.whole 1),
      ("type", .string "array")] "items" = [] := rfl
  have hleast : Parts.countOf (.whole 1) = some 1 := rfl
  rw [MetaSchema.schemaList, hplain.holds_iff rfl, meets_iff, htyped.assertions_iff, hcommon, hplaced]
  simp [requiredNames, missingNames_nil, schemasByName, schemasByPlace, allowedTypes, Table.has,
    Json.whole, hleast, Nat.one_le_iff_ne_zero, and_assoc]

theorem either_holds_iff {schemas : List Json} :
    (meaning ctx (MetaSchema.either schemas) v).holds = true ↔
      ∃ w ∈ schemas, (meaning ctx w v).holds = true := by
  have hplain : Plain [("anyOf", .array schemas)] := by
    simp [Plain, plainKeywords]
  have htyped : OnlyTyped [("anyOf", .array schemas)] := by
    simp [OnlyTyped, assertionKeywords]
  rw [MetaSchema.either, hplain.holds_iff rfl, meets_iff, htyped.assertions_iff]
  simp [requiredNames, missingNames_nil, schemasByName, schemasByPlace, commonItem?, Table.has]

theorem vocabulary_holds_iff {keywords : Table Json} :
    (meaning ctx (MetaSchema.vocabulary keywords) v).holds = true ↔
      ∀ m ∈ membersOf v, ∀ w, keywords.find? m.1 = some w → (meaning ctx w m.2).holds = true := by
  have hplain : Plain [("properties", .object keywords)] := by
    simp [Plain, plainKeywords]
  have htyped : OnlyTyped [("properties", .object keywords)] := by
    simp [OnlyTyped, assertionKeywords]
  rw [MetaSchema.vocabulary, hplain.holds_iff rfl, meets_iff, htyped.assertions_iff]
  simp [requiredNames, missingNames_nil, schemasByName, schemasByPlace, commonItem?, Table.has]

/-- A schema or a truth value. -/
def mayBeSchema (v : Json) : Prop := hasType v "boolean" = true ∨ hasType v "object" = true

theorem draft7_holds_iff :
    (meaning ctx MetaSchema.draft7 v).holds = true ↔
      mayBeSchema v ∧
        (meaning ctx (MetaSchema.vocabulary MetaSchema.draft7Keywords) v).holds = true := by
  have hplain : Plain [("properties", .object MetaSchema.draft7Keywords), MetaSchema.schemaTypes] := by
    simp [Plain, plainKeywords, assertionKeywords, MetaSchema.schemaTypes]
  have htyped : OnlyTyped
      [("properties", .object MetaSchema.draft7Keywords), MetaSchema.schemaTypes] := by
    simp [OnlyTyped, assertionKeywords, MetaSchema.schemaTypes]
  rw [MetaSchema.draft7, hplain.holds_iff rfl, meets_iff, htyped.assertions_iff, vocabulary_holds_iff]
  simp [requiredNames, missingNames_nil, schemasByName, schemasByPlace, commonItem?, allowedTypes,
    Table.has, MetaSchema.schemaTypes, typeNames, Parts.textsOf, mayBeSchema]

/-- The schemas of schemas of the later dialects are put together from vocabularies. -/
theorem layered_holds_iff {vocabularies : List Json} {keywords : Table Json} :
    (meaning ctx (.object [("allOf", .array vocabularies), ("properties", .object keywords),
      MetaSchema.schemaTypes]) v).holds = true ↔
      mayBeSchema v ∧ (meaning ctx (MetaSchema.vocabulary keywords) v).holds = true ∧
        ∀ w ∈ vocabularies, (meaning ctx w v).holds = true := by
  have hplain : Plain [("allOf", .array vocabularies), ("properties", .object keywords),
      MetaSchema.schemaTypes] := by
    simp [Plain, plainKeywords, assertionKeywords, MetaSchema.schemaTypes]
  have htyped : OnlyTyped [("allOf", .array vocabularies), ("properties", .object keywords),
      MetaSchema.schemaTypes] := by
    simp [OnlyTyped, assertionKeywords, MetaSchema.schemaTypes]
  rw [hplain.holds_iff rfl, meets_iff, htyped.assertions_iff, vocabulary_holds_iff]
  simp [requiredNames, missingNames_nil, schemasByName, schemasByPlace, commonItem?, allowedTypes,
    Table.has, MetaSchema.schemaTypes, typeNames, Parts.textsOf, mayBeSchema]

theorem schema_holds_iff :
    (meaning ctx MetaSchema.schema v).holds = true ↔ (ctx.resolve "#" v).holds = true := by
  have hplain : Plain [("$ref", .string "#")] := by
    simp [Plain, plainKeywords]
  have htyped : OnlyTyped [("$ref", .string "#")] := by
    simp [OnlyTyped, assertionKeywords]
  by_cases hdialect : ctx.dialect = .draft7
  · rw [MetaSchema.schema, meaning_of_sole hdialect rfl]
  · rw [MetaSchema.schema, meaning_of_recent hdialect, keywordsReport_holds_iff, hplain.satisfies_iff,
      meets_iff, htyped.assertions_iff]
    simp [requiredNames, missingNames_nil, schemasByName, schemasByPlace, commonItem?, Table.has]

end Parts

/-! ## What a dialect asks of a keyword -/

/-- The keywords of a vocabulary, each with what it asks for. -/
def keywordsOf (vocabulary : Json) : Table Json := schemasByName (membersOf vocabulary) "properties"

/-- The keywords of a dialect in groups. -/
def keywordGroups : Dialect → List (Table Json)
  | .draft7 => [MetaSchema.draft7Keywords]
  | .draft2019 => MetaSchema.retired ::
      [MetaSchema.core, MetaSchema.applicator2019, MetaSchema.validation, MetaSchema.annotation,
        MetaSchema.format, MetaSchema.content].map keywordsOf
  | .draft2020 => MetaSchema.retired ::
      [MetaSchema.core, MetaSchema.applicator2020, MetaSchema.unevaluated, MetaSchema.validation,
        MetaSchema.annotation, MetaSchema.format, MetaSchema.content].map keywordsOf

/-- What a dialect asks of the value of a keyword. -/
def asked (dialect : Dialect) (key : String) : List Json :=
  (keywordGroups dialect).filterMap (Table.find? · key)

/-- An object has the shape of a schema exactly if each member is as the dialect asks for its
keyword. -/
theorem metaSchema_object_holds_iff {ctx : Context} {dialect : Dialect} {members : Table Json} :
    (meaning ctx (metaSchema dialect) (.object members)).holds = true ↔
      ∀ m ∈ members, ∀ w ∈ asked dialect m.1, (meaning ctx w m.2).holds = true := by
  have hgroup : ∀ group : Table Json,
      (meaning ctx (MetaSchema.vocabulary group) (.object members)).holds = true ↔
        ∀ m ∈ members, ∀ w, group.find? m.1 = some w → (meaning ctx w m.2).holds = true :=
    fun _ => vocabulary_holds_iff
  have hgroups : (∀ m ∈ members, ∀ w ∈ asked dialect m.1, (meaning ctx w m.2).holds = true) ↔
      ∀ group ∈ keywordGroups dialect,
        (meaning ctx (MetaSchema.vocabulary group) (.object members)).holds = true := by
    simp only [hgroup, asked, List.mem_filterMap]
    exact ⟨fun h group hg m hm w hw => h m hm w ⟨group, hg, hw⟩,
      fun h m hm w ⟨group, hg, hw⟩ => h group hg m hm w hw⟩
  have htype : mayBeSchema (.object members) := .inr rfl
  rw [hgroups]
  cases dialect with
  | draft7 =>
    rw [metaSchema, draft7_holds_iff]
    simp [keywordGroups, htype]
  | draft2019 =>
    rw [metaSchema, MetaSchema.draft2019, layered_holds_iff]
    simp only [keywordGroups, List.map, List.forall_mem_cons, List.not_mem_nil, false_imp_iff,
      implies_true, htype, true_and]
    rfl
  | draft2020 =>
    rw [metaSchema, MetaSchema.draft2020, layered_holds_iff]
    simp only [keywordGroups, List.map, List.forall_mem_cons, List.not_mem_nil, false_imp_iff,
      implies_true, htype, true_and]
    rfl

/-! ## What closing keeps -/

/-- What a schema accepts, it accepts changed. -/
def Keeps (ctx : Context) (w : Json) (f : Json → Json) : Prop :=
  ∀ v, (meaning ctx w v).holds = true → (meaning ctx w (f v)).holds = true

/-- The schema of schemas accepts what it accepts closed, and the schema that closing puts in. -/
structure KeepsSchemas (ctx : Context) : Prop where
  closed : Keeps ctx MetaSchema.schema close
  refusal : (meaning ctx MetaSchema.schema (.bool false)).holds = true

section Closing

variable {ctx : Context}

theorem keeps_id (w : Json) : Keeps ctx w id := fun _ h => h

theorem keeps_either {schemas : List Json} {f : Json → Json} (h : ∀ w ∈ schemas, Keeps ctx w f) :
    Keeps ctx (MetaSchema.either schemas) f := by
  intro v hv
  obtain ⟨w, hw, hholds⟩ := either_holds_iff.mp hv
  exact either_holds_iff.mpr ⟨w, hw, h w hw v hholds⟩

theorem KeepsSchemas.list (h : KeepsSchemas ctx) : Keeps ctx MetaSchema.schemaList close := by
  intro v hv
  obtain ⟨htype, hne, hitems⟩ := schemaList_holds_iff.mp hv
  cases v with
  | array items =>
    rw [close, closeItems_eq_map]
    refine schemaList_holds_iff.mpr ⟨rfl, ?_, ?_⟩
    · rintro _ ⟨⟩
      simpa using hne items rfl
    · intro x hx
      obtain ⟨y, hy, rfl⟩ := List.mem_map.mp hx
      exact h.closed y (hitems y hy)
  | null | bool | number | string | object => simp [hasType] at htype

theorem mem_closeNamed {schemas : Table Json} {m : String × Json} (h : m ∈ closeNamed schemas) :
    ∃ m' ∈ schemas, m = (m'.1, close m'.2) := by
  rw [closeNamed_eq_map] at h
  obtain ⟨m', hm', rfl⟩ := List.mem_map.mp h
  exact ⟨m', hm', rfl⟩

theorem KeepsSchemas.table (h : KeepsSchemas ctx) : Keeps ctx MetaSchema.schemaMap closeTable := by
  intro v hv
  obtain ⟨htype, hschemas⟩ := schemaMap_holds_iff.mp hv
  cases v with
  | object schemas =>
    refine schemaMap_holds_iff.mpr ⟨rfl, fun m hm => ?_⟩
    obtain ⟨m', hm', rfl⟩ := mem_closeNamed hm
    exact h.closed m'.2 (hschemas m' hm')
  | null | bool | number | string | array => exact hv

theorem KeepsSchemas.patterns (h : KeepsSchemas ctx) : Keeps ctx MetaSchema.patternMap closeTable := by
  intro v hv
  obtain ⟨htype, hschemas, hnames⟩ := patternMap_holds_iff.mp hv
  cases v with
  | object schemas =>
    refine patternMap_holds_iff.mpr ⟨rfl, fun m hm => ?_, fun m hm => ?_⟩
    · obtain ⟨m', hm', rfl⟩ := mem_closeNamed hm
      exact h.closed m'.2 (hschemas m' hm')
    · obtain ⟨m', hm', rfl⟩ := mem_closeNamed hm
      exact hnames m' hm'
  | null | bool | number | string | array => exact hv

/-- A group of keywords is in accord with closing: what is closed as a schema has to be a schema or a
list of schemas, and what is closed as a table has to be a table of schemas. -/
structure Accords (keywords : Table Json) : Prop where
  schemas : ∀ key ∈ schemaKeywords, ∀ w, keywords.find? key = some w →
    w = MetaSchema.schema ∨ w = MetaSchema.schemaList ∨
      w = MetaSchema.either [MetaSchema.schema, MetaSchema.schemaList]
  tables : ∀ key ∈ schemaMapKeywords, ∀ w, keywords.find? key = some w →
    w = MetaSchema.schemaMap ∨ w = MetaSchema.patternMap
  additional : ∀ w, keywords.find? "additionalProperties" = some w → w = MetaSchema.schema

theorem Accords.keepsValue {keywords : Table Json} (hkeywords : Accords keywords)
    (h : KeepsSchemas ctx) {key : String} {w : Json} (hw : keywords.find? key = some w) :
    Keeps ctx w (closeValue key) := by
  by_cases hmap : key ∈ schemaMapKeywords
  · rw [closeValue_table hmap]
    rcases hkeywords.tables key hmap w hw with rfl | rfl
    · exact h.table
    · exact h.patterns
  · by_cases hschema : key ∈ schemaKeywords
    · rw [closeValue_schema hschema]
      rcases hkeywords.schemas key hschema w hw with rfl | rfl | rfl
      · exact h.closed
      · exact h.list
      · apply keeps_either
        intro w hw
        simp only [List.mem_cons, List.not_mem_nil, or_false] at hw
        rcases hw with rfl | rfl
        · exact h.closed
        · exact h.list
    · rw [closeValue_other hmap hschema]
      exact keeps_id w

theorem Accords.keeps {keywords : Table Json} (hkeywords : Accords keywords) (h : KeepsSchemas ctx) :
    Keeps ctx (MetaSchema.vocabulary keywords) close := by
  intro v hv
  rw [vocabulary_holds_iff] at hv ⊢
  cases v with
  | object members =>
    rw [close_object]
    intro m hm w hw
    rcases mem_closeMembers hm with rfl | ⟨m', hm', rfl⟩
    · rw [hkeywords.additional w hw]
      exact h.refusal
    · exact hkeywords.keepsValue h hw m'.2 (hv m' hm' w hw)
  | null | bool | number | string | array => simp [close, membersOf]

/-! ## The schemas of schemas -/

/-- Only the keywords matter whose values are closed. -/
theorem accords_of_filter {keywords : Table Json} (schemas tables : Table Json)
    (hschemas : keywords.filter (fun m => m.1 ∈ schemaKeywords) = schemas)
    (htables : keywords.filter (fun m => m.1 ∈ schemaMapKeywords) = tables)
    (hschema : ∀ m ∈ schemas, m.2 = MetaSchema.schema ∨ m.1 ≠ "additionalProperties" ∧
      (m.2 = MetaSchema.schemaList ∨
        m.2 = MetaSchema.either [MetaSchema.schema, MetaSchema.schemaList]))
    (htable : ∀ m ∈ tables, m.2 = MetaSchema.schemaMap ∨ m.2 = MetaSchema.patternMap) :
    Accords keywords where
  schemas key hkey w hw := by
    have hmem : (key, w) ∈ schemas := by
      rw [← hschemas]
      exact List.mem_filter.mpr ⟨Table.mem_of_find? hw, decide_eq_true hkey⟩
    exact (hschema _ hmem).imp_right And.right
  tables key hkey w hw := by
    have hmem : (key, w) ∈ tables := by
      rw [← htables]
      exact List.mem_filter.mpr ⟨Table.mem_of_find? hw, decide_eq_true hkey⟩
    exact htable _ hmem
  additional w hw := by
    have hkey : "additionalProperties" ∈ schemaKeywords := by decide
    have hmem : ("additionalProperties", w) ∈ schemas := by
      rw [← hschemas]
      exact List.mem_filter.mpr ⟨Table.mem_of_find? hw, decide_eq_true hkey⟩
    exact (hschema _ hmem).elim id fun h => absurd rfl h.1

section Tables

open MetaSchema

theorem accords_draft7 : Accords draft7Keywords :=
  accords_of_filter
    [("additionalItems", schema), ("additionalProperties", schema), ("allOf", schemaList),
      ("anyOf", schemaList), ("contains", schema), ("else", schema), ("if", schema),
      ("items", either [schema, schemaList]), ("not", schema), ("oneOf", schemaList),
      ("propertyNames", schema), ("then", schema)]
    [("definitions", schemaMap), ("patternProperties", patternMap), ("properties", schemaMap)]
    rfl rfl (by simp) (by simp)

theorem accords_retired : Accords retired :=
  accords_of_filter [] [("definitions", schemaMap)] rfl rfl (by simp) (by simp)

/-- A group of keywords none of which holds what is closed. -/
theorem accords_of_none {keywords : Table Json}
    (hschemas : keywords.filter (fun m => m.1 ∈ schemaKeywords) = [])
    (htables : keywords.filter (fun m => m.1 ∈ schemaMapKeywords) = []) : Accords keywords :=
  accords_of_filter [] [] hschemas htables (by simp) (by simp)

theorem keeps_core (h : KeepsSchemas ctx) : Keeps ctx core close :=
  (accords_of_filter [] [("$defs", schemaMap)] rfl rfl (by simp) (by simp)).keeps h

theorem keeps_applicator2019 (h : KeepsSchemas ctx) : Keeps ctx applicator2019 close :=
  (accords_of_filter
    [("additionalItems", schema), ("additionalProperties", schema), ("allOf", schemaList),
      ("anyOf", schemaList), ("contains", schema), ("else", schema), ("if", schema),
      ("items", either [schema, schemaList]), ("not", schema), ("oneOf", schemaList),
      ("propertyNames", schema), ("then", schema), ("unevaluatedItems", schema),
      ("unevaluatedProperties", schema)]
    [("dependentSchemas", schemaMap), ("patternProperties", patternMap), ("properties", schemaMap)]
    rfl rfl (by simp) (by simp)).keeps h

theorem keeps_applicator2020 (h : KeepsSchemas ctx) : Keeps ctx applicator2020 close :=
  (accords_of_filter
    [("additionalProperties", schema), ("allOf", schemaList), ("anyOf", schemaList),
      ("contains", schema), ("else", schema), ("if", schema), ("items", schema), ("not", schema),
      ("oneOf", schemaList), ("prefixItems", schemaList), ("propertyNames", schema),
      ("then", schema)]
    [("dependentSchemas", schemaMap), ("patternProperties", patternMap), ("properties", schemaMap)]
    rfl rfl (by simp) (by simp)).keeps h

theorem keeps_unevaluated (h : KeepsSchemas ctx) : Keeps ctx unevaluated close :=
  (accords_of_filter [("unevaluatedItems", schema), ("unevaluatedProperties", schema)] [] rfl rfl
    (by simp) (by simp)).keeps h

theorem keeps_validation (h : KeepsSchemas ctx) : Keeps ctx validation close :=
  (accords_of_none rfl rfl).keeps h

theorem keeps_annotation (h : KeepsSchemas ctx) : Keeps ctx annotation close :=
  (accords_of_none rfl rfl).keeps h

theorem keeps_format (h : KeepsSchemas ctx) : Keeps ctx MetaSchema.format close :=
  (accords_of_none rfl rfl).keeps h

theorem keeps_content (h : KeepsSchemas ctx) : Keeps ctx content close :=
  (accords_of_none rfl rfl).keeps h

end Tables

theorem hasType_close (v : Json) (type : String) : hasType (close v) type = hasType v type := by
  cases v <;> simp [close, hasType]

theorem mayBeSchema_close {v : Json} (h : mayBeSchema v) : mayBeSchema (close v) := by
  rwa [mayBeSchema, hasType_close, hasType_close]

theorem keeps_metaSchema (h : KeepsSchemas ctx) (dialect : Dialect) :
    Keeps ctx (metaSchema dialect) close := by
  intro v hv
  cases dialect with
  | draft7 =>
    obtain ⟨htype, hkeywords⟩ := draft7_holds_iff.mp hv
    exact draft7_holds_iff.mpr ⟨mayBeSchema_close htype, accords_draft7.keeps h v hkeywords⟩
  | draft2019 =>
    obtain ⟨htype, hretired, hall⟩ := layered_holds_iff.mp hv
    refine layered_holds_iff.mpr ⟨mayBeSchema_close htype, accords_retired.keeps h v hretired, ?_⟩
    simp only [List.forall_mem_cons] at hall ⊢
    obtain ⟨hcore, happlicator, hvalidation, hannotation, hformat, hcontent, -⟩ := hall
    exact ⟨keeps_core h v hcore, keeps_applicator2019 h v happlicator,
      keeps_validation h v hvalidation, keeps_annotation h v hannotation, keeps_format h v hformat,
      keeps_content h v hcontent, by simp⟩
  | draft2020 =>
    obtain ⟨htype, hretired, hall⟩ := layered_holds_iff.mp hv
    refine layered_holds_iff.mpr ⟨mayBeSchema_close htype, accords_retired.keeps h v hretired, ?_⟩
    simp only [List.forall_mem_cons] at hall ⊢
    obtain ⟨hcore, happlicator, hunevaluated, hvalidation, hannotation, hformat, hcontent, -⟩ := hall
    exact ⟨keeps_core h v hcore, keeps_applicator2020 h v happlicator,
      keeps_unevaluated h v hunevaluated, keeps_validation h v hvalidation,
      keeps_annotation h v hannotation, keeps_format h v hformat, keeps_content h v hcontent, by simp⟩

theorem metaSchema_refusal (dialect : Dialect) :
    (meaning ctx (metaSchema dialect) (.bool false)).holds = true := by
  have hnone : ∀ keywords : Table Json,
      (meaning ctx (MetaSchema.vocabulary keywords) (.bool false)).holds = true := by
    intro keywords
    exact vocabulary_holds_iff.mpr (by simp [membersOf])
  have htype : mayBeSchema (.bool false) := .inl rfl
  cases dialect with
  | draft7 => exact draft7_holds_iff.mpr ⟨htype, hnone _⟩
  | draft2019 =>
    refine layered_holds_iff.mpr ⟨htype, hnone _, ?_⟩
    simp only [List.forall_mem_cons]
    exact ⟨hnone _, hnone _, hnone _, hnone _, hnone _, hnone _, by simp⟩
  | draft2020 =>
    refine layered_holds_iff.mpr ⟨htype, hnone _, ?_⟩
    simp only [List.forall_mem_cons]
    exact ⟨hnone _, hnone _, hnone _, hnone _, hnone _, hnone _, hnone _, by simp⟩

end Closing

/-- However far the schema of schemas follows its references to itself. -/
theorem keepsSchemas_resolver (dialect : Dialect) (n : Nat) :
    KeepsSchemas ⟨dialect, resolver dialect (metaSchema dialect) n⟩ := by
  induction n with
  | zero =>
    refine ⟨fun v _ => schema_holds_iff.mpr rfl, schema_holds_iff.mpr rfl⟩
  | succ n ih =>
    -- One step of the reference leads back to the schema of schemas itself.
    refine ⟨fun v hv => ?_, schema_holds_iff.mpr (metaSchema_refusal dialect)⟩
    exact schema_holds_iff.mpr (keeps_metaSchema ih dialect v (schema_holds_iff.mp hv))

/-- A document has the shape of a schema if the schema of schemas has nothing against it. -/
theorem shapeFault?_eq_none_iff {dialect : Dialect} {document : Json} :
    shapeFault? dialect document = none ↔
      (judge dialect (metaSchema dialect) document).holds = true := by
  rw [shapeFault?, List.head?_eq_none_iff, Report.holds_iff]

/-- A closed document has the shape of a schema if the document has. -/
theorem shapeFault?_close {dialect : Dialect} {document : Json}
    (h : shapeFault? dialect document = none) : shapeFault? dialect (close document) = none := by
  rw [shapeFault?_eq_none_iff] at h ⊢
  have hdepth : referenceBound (metaSchema dialect) (close document) =
      referenceBound (metaSchema dialect) document := by
    rw [referenceBound, referenceBound, depth_close]
  rw [judge] at h ⊢
  rw [hdepth]
  exact keeps_metaSchema (keepsSchemas_resolver dialect _) dialect document h

end GuardedCall.Schema
