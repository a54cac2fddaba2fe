-- Schemas of plain keywords: such a schema holds for a value exactly if each
-- keyword does, whatever other keywords have looked at.
import GuardedCall.Proofs.Keywords

namespace GuardedCall.Schema

open GuardedCall

/-- The keywords that only ask for something more, and never for what nobody else looked at. -/
def plainKeywords : List String :=
  ["$ref", "additionalProperties", "allOf", "anyOf", "items", "properties", "propertyNames",
    "required"] ++ assertionKeywords

/-- A value is as the plain keywords of a schema ask for. -/
structure Meets (ctx : Context) (members : Table Json) (v : Json) : Prop where
  assertions : assertionFaults ctx (partsOf ctx members) v = []
  required : ¬ OverlooksRequired members → missingNames (requiredNames members) v = []
  property : ∀ m ∈ membersOf v, ∀ w, (schemasByName members "properties").find? m.1 = some w →
    (meaning ctx w m.2).holds = true
  further : ∀ m ∈ membersOf v, (schemasByName members "properties").find? m.1 = none →
    ∀ w, members.find? "additionalProperties" = some w → (meaning ctx w m.2).holds = true
  names : ∀ w, members.find? "propertyNames" = some w →
    ∀ m ∈ membersOf v, (meaning ctx w (.string m.1)).holds = true
  commonItems : ∀ w, commonItem? members = some w → ∀ x ∈ itemsOf v, (meaning ctx w x).holds = true
  placedItems : ctx.dialect ≠ .draft2020 → ∀ p ∈ (schemasByPlace members "items").zip (itemsOf v),
    (meaning ctx p.1 p.2).holds = true
  allOf : ∀ w ∈ schemasByPlace members "allOf", (meaning ctx w v).holds = true
  anyOf : members.has "anyOf" = true →
    ∃ w ∈ schemasByPlace members "anyOf", (meaning ctx w v).holds = true
  referred : ∀ r, members.find? "$ref" = some (.string r) → (ctx.resolve r v).holds = true

theorem meets_iff {ctx : Context} {members : Table Json} {v : Json} :
    Meets ctx members v ↔
      assertionFaults ctx (partsOf ctx members) v = [] ∧
      (¬ OverlooksRequired members → missingNames (requiredNames members) v = []) ∧
      (∀ m ∈ membersOf v, ∀ w, (schemasByName members "properties").find? m.1 = some w →
        (meaning ctx w m.2).holds = true) ∧
      (∀ m ∈ membersOf v, (schemasByName members "properties").find? m.1 = none →
        ∀ w, members.find? "additionalProperties" = some w → (meaning ctx w m.2).holds = true) ∧
      (∀ w, members.find? "propertyNames" = some w →
        ∀ m ∈ membersOf v, (meaning ctx w (.string m.1)).holds = true) ∧
      (∀ w, commonItem? members = some w → ∀ x ∈ itemsOf v, (meaning ctx w x).holds = true) ∧
      (ctx.dialect ≠ .draft2020 → ∀ p ∈ (schemasByPlace members "items").zip (itemsOf v),
        (meaning ctx p.1 p.2).holds = true) ∧
      (∀ w ∈ schemasByPlace members "allOf", (meaning ctx w v).holds = true) ∧
      (members.has "anyOf" = true →
        ∃ w ∈ schemasByPlace members "anyOf", (meaning ctx w v).holds = true) ∧
      ∀ r, members.find? "$ref" = some (.string r) → (ctx.resolve r v).holds = true :=
  ⟨fun ⟨ha, hr, hp, hf, hn, hc, hi, hall, hany, hre⟩ => ⟨ha, hr, hp, hf, hn, hc, hi, hall, hany, hre⟩,
    fun ⟨ha, hr, hp, hf, hn, hc, hi, hall, hany, hre⟩ => ⟨ha, hr, hp, hf, hn, hc, hi, hall, hany, hre⟩⟩

/-! ## Required names -/

theorem missingNames_nil {v : Json} : missingNames [] v = [] := by
  cases v <;> rfl

theorem missingNames_eq_nil_iff {names : List String} {v : Json} :
    missingNames names v = [] ↔
      ∀ members, v = .object members → ∀ n ∈ names, Table.has members n = true := by
  cases v <;> simp [missingNames, List.filter_eq_nil_iff]

/-! ## Properties -/

/-- Asking each member for the schema of its name is asking each schema for the member of its
name. -/
theorem forall_property_iff {schemas members : Table Json} (hschemas : schemas.Sorted)
    (hmembers : members.Sorted) (accepts : Json → Json → Prop) :
    (∀ m ∈ members, ∀ w, schemas.find? m.1 = some w → accepts w m.2) ↔
      ∀ p ∈ schemas, ∀ x, members.find? p.1 = some x → accepts p.2 x := by
  constructor
  · intro h p hp x hx
    exact h (p.1, x) (Table.mem_of_find? hx) p.2 (hschemas.find?_of_mem hp)
  · intro h m hm w hw
    exact h (m.1, w) (Table.mem_of_find? hw) m.2 (hmembers.find?_of_mem hm)

/-! ## Plain schemas -/

section Plain

variable {ctx : Context} {members : Table Json} {v : Json}

/-- The schema has no other than plain keywords. -/
def Plain (members : Table Json) : Prop := ∀ m ∈ members, m.1 ∈ plainKeywords

theorem Plain.find?_eq_none (h : Plain members) {key : String} (hkey : key ∉ plainKeywords) :
    members.find? key = none :=
  Table.find?_eq_none fun m hm heq => hkey (heq ▸ h m hm)

theorem Plain.schemasByName_eq (h : Plain members) {key : String} (hkey : key ∉ plainKeywords) :
    schemasByName members key = [] := by
  rw [schemasByName, h.find?_eq_none hkey]

theorem Plain.schemasByPlace_eq (h : Plain members) {key : String} (hkey : key ∉ plainKeywords) :
    schemasByPlace members key = [] := by
  rw [schemasByPlace, h.find?_eq_none hkey]

theorem Plain.undeclared_iff (h : Plain members) {name : String} :
    Undeclared members name ↔ (schemasByName members "properties").find? name = none := by
  have hpatterns : schemasByName members "patternProperties" = [] :=
    h.schemasByName_eq (by decide)
  simp [Undeclared, hpatterns]

theorem Plain.leftOut_eq (h : Plain members) (dialect : Dialect) : leftOut dialect members = 0 := by
  rw [leftOut, h.schemasByPlace_eq (by decide), List.length_nil, ite_self]

/-- Only the older dialects have schemas of items by place. -/
theorem Plain.mem_zip_placedSchemas_iff (h : Plain members) {dialect : Dialect} {items : List Json}
    {p : Json × Json} :
    p ∈ (placedSchemas dialect members).zip items ↔
      dialect ≠ .draft2020 ∧ p ∈ (schemasByPlace members "items").zip items := by
  have hprefix : schemasByPlace members "prefixItems" = [] := h.schemasByPlace_eq (by decide)
  cases dialect <;> simp [placedSchemas, hprefix]

theorem Plain.satisfies_iff (h : Plain members) : Satisfies ctx members v ↔ Meets ctx members v := by
  have hnone : ∀ {key : String} {w : Json}, key ∉ plainKeywords → members.find? key = some w →
      False := by
    intro key w hkey hfind
    rw [h.find?_eq_none hkey] at hfind
    cases hfind
  constructor
  · intro hs
    exact {
      assertions := hs.assertions
      required := hs.required
      property := hs.property
      further := fun m hm hundeclared => hs.further m hm (h.undeclared_iff.mpr hundeclared)
      names := hs.names
      commonItems := fun w hw x hx => hs.commonItems w hw x (by rwa [h.leftOut_eq, List.drop_zero])
      placedItems := fun hdialect p hp =>
        hs.placedItems p (h.mem_zip_placedSchemas_iff.mpr ⟨hdialect, hp⟩)
      allOf := hs.allOf
      anyOf := hs.anyOf
      referred := hs.referred }
  · intro hm
    exact {
      assertions := hm.assertions
      required := hm.required
      property := hm.property
      pattern := fun m _ p hp => by
        rw [h.schemasByName_eq (by decide)] at hp
        cases hp
      further := fun m hmem hundeclared => hm.further m hmem (h.undeclared_iff.mp hundeclared)
      names := hm.names
      commonItems := fun w hw x hx => hm.commonItems w hw x (List.mem_of_mem_drop hx)
      placedItems := fun p hp =>
        (h.mem_zip_placedSchemas_iff.mp hp).elim fun hdialect hp => hm.placedItems hdialect p hp
      furtherItems := fun _ w hw => (hnone (by decide) hw).elim
      contains := fun w hw => (hnone (by decide) hw).elim
      dependencies := fun d hd => by
        rw [h.schemasByName_eq (by decide)] at hd
        cases hd
      dependent := fun _ d hd => by
        rw [h.schemasByName_eq (by decide)] at hd
        cases hd
      allOf := hm.allOf
      anyOf := hm.anyOf
      oneOf := fun hhas => by
        rw [Table.has, h.find?_eq_none (by decide)] at hhas
        cases hhas
      not := fun w hw => (hnone (by decide) hw).elim
      selected := fun c hc => (hnone (by decide) hc).elim
      unevaluatedNames := fun _ w hw => (hnone (by decide) hw).elim
      unevaluatedItems := fun _ w hw => (hnone (by decide) hw).elim
      referred := hm.referred }

/-- A schema of plain keywords without a reference holds exactly if each keyword does. -/
theorem Plain.holds_iff (h : Plain members) (hr : members.find? "$ref" = none) :
    (meaning ctx (.object members) v).holds = true ↔ Meets ctx members v := by
  rw [meaning_of_no_reference hr, keywordsReport_holds_iff, h.satisfies_iff]

/-! ## Values by themselves -/

/-- The schema only has keywords that look at a value by itself. -/
def OnlyAsserts (members : Table Json) : Prop := ∀ m ∈ members, m.1 ∈ assertionKeywords

theorem OnlyAsserts.holds_iff (h : OnlyAsserts members) :
    (meaning ctx (.object members) v).holds = true ↔
      assertionFaults ctx (partsOf ctx members) v = [] := by
  have hplain : Plain members := fun m hm => List.mem_append_right _ (h m hm)
  have hother : ∀ key ∈ ["$ref", "additionalProperties", "allOf", "anyOf", "items", "properties",
      "propertyNames", "required"], key ∉ assertionKeywords := by
    decide
  have hnone : ∀ key ∈ ["$ref", "additionalProperties", "allOf", "anyOf", "items", "properties",
      "propertyNames", "required"], members.find? key = none := fun key hkey =>
    Table.find?_eq_none fun m hm heq => hother key hkey (heq ▸ h m hm)
  simp only [List.forall_mem_cons] at hnone
  obtain ⟨href, hadditional, hallOf, hanyOf, hitems, hproperties, hnames, hrequired, -⟩ := hnone
  rw [hplain.holds_iff href, meets_iff]
  simp [requiredNames, missingNames_nil, schemasByName, schemasByPlace, commonItem?, Table.has, *]

/-! ## Types and lengths -/

/-- Of the keywords that look at a value by itself the schema has at most a type and a least number
of items. -/
def OnlyTyped (members : Table Json) : Prop :=
  ∀ m ∈ members, m.1 ∈ assertionKeywords → m.1 = "type" ∨ m.1 = "minItems"

theorem OnlyTyped.assertions_iff (h : OnlyTyped members) :
    assertionFaults ctx (partsOf ctx members) v = [] ↔
      (∀ t, members.find? "type" = some t → (allowedTypes t).any (hasType v) = true) ∧
      ∀ n, members.find? "minItems" = some (.number n) → ∀ least, Parts.countOf n = some least →
        ∀ items, v = .array items → least ≤ items.length := by
  have hnone : ∀ key ∈ assertionKeywords, key ≠ "type" → key ≠ "minItems" →
      members.find? key = none := by
    intro key hkey htype hmin
    apply Table.find?_eq_none
    rintro m hm rfl
    exact (h m hm hkey).elim htype hmin
  simp only [assertionKeywords, List.forall_mem_cons] at hnone
  obtain ⟨-, hconst, henum, hmin, hmax, hexmin, hexmax, hmultiple, hminLength, hmaxLength,
    -, hmaxItems, hminProperties, hmaxProperties, hdependent, hpattern, hformat, hunique, -⟩ := hnone
  have htypes : typeFaults (partsOf ctx members) v = [] ↔
      ∀ t, members.find? "type" = some t → (allowedTypes t).any (hasType v) = true := by
    unfold typeFaults
    rw [value?_partsOf]
    cases members.find? "type" <;> simp
  have hsize : ∀ {key : String} {size : Size} {within : Nat → Nat → Bool}
      {violation : Json → Nat → Violation}, members.find? key = none →
      sizeFaults (partsOf ctx members) key size within violation v = [] := by
    intro key size within violation hfind
    simp [sizeFaults, Parts.count?, Parts.number?, hfind]
  have hleast : sizeFaults (partsOf ctx members) "minItems" .items (fun n limit => limit ≤ n)
      .tooFewItems v = [] ↔
        ∀ n, members.find? "minItems" = some (.number n) → ∀ least, Parts.countOf n = some least →
          ∀ items, v = .array items → least ≤ items.length := by
    simp only [sizeFaults, Parts.count?, Parts.number?, value?_partsOf]
    rcases members.find? "minItems" with _ | w
    · simp
    · cases w with
      | number n => cases hn : Parts.countOf n <;> cases v <;> simp [Size.of?, hn]
      | null | bool | string | array | object => simp
  rw [← htypes, ← hleast]
  simp [assertionFaults, sizesFaults, constFaults, enumFaults, numberFaults, boundFaults,
    dependentNameFaults, patternFaults, formatFaults, uniqueFaults, Parts.number?, Parts.text?, *]

/-- A schema that has a type and nothing else. -/
theorem typed_holds_iff {t : Json} :
    (meaning ctx (.object [("type", t)]) v).holds = true ↔
      (allowedTypes t).any (hasType v) = true := by
  have hasserts : OnlyAsserts [("type", t)] := by simp [OnlyAsserts, assertionKeywords]
  have htyped : OnlyTyped [("type", t)] := by simp [OnlyTyped]
  rw [hasserts.holds_iff, htyped.assertions_iff]
  simp

end Plain

end GuardedCall.Schema
