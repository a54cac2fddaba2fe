-- Documents composed of schemas for members and items with `allOf` and
-- `anyOf`. Closing goes from schema to schema without a look at its siblings,
-- so a name has to be declared by every object schema that applies where it
-- stands, of alternatives by those of one that holds.
import GuardedCall.Proofs.StrictMode
import GuardedCall.Proofs.Places
import GuardedCall.Proofs.Surveys

namespace GuardedCall

namespace Schema

/-! ## Composed documents -/

def composedKeywords : List String := ["allOf", "anyOf", "items", "properties", "required", "type"]

/-- A schema stands under a keyword of a composed schema. -/
inductive Composes (members : Table Json) : Json → Prop
  | named {schemas : Table Json} {m : String × Json} (h : ("properties", .object schemas) ∈ members)
      (hm : m ∈ schemas) : Composes members m.2
  | single {key : String} {w : Json} (hkey : key ∈ ["allOf", "anyOf", "items"])
      (h : (key, w) ∈ members) (hw : isList w = false) : Composes members w
  | listed {key : String} {schemas : List Json} {w : Json} (hkey : key ∈ ["allOf", "anyOf", "items"])
      (h : (key, .array schemas) ∈ members) (hw : w ∈ schemas) : Composes members w

/-- A document that is built from these keywords alone. -/
inductive Composed : Json → Prop
  | truth (b : Bool) : Composed (.bool b)
  | object {members : Table Json} (keys : ∀ m ∈ members, m.1 ∈ composedKeywords)
      (inside : ∀ w, Composes members w → Composed w) : Composed (.object members)

/-- Every name in a value is declared where strict mode asks for it: by each object schema that
applies there, of alternatives by those of one branch that holds. -/
inductive Declares (dialect : Dialect) : Json → Json → Prop
  | truth (b : Bool) (v : Json) : Declares dialect (.bool b) v
  | object {members : Table Json} {v : Json} (branch : Json)
      (names : describesObjects members = true →
        ∀ m ∈ membersOf v, (schemasByName members "properties").has m.1 = true)
      (property : ∀ m ∈ membersOf v, ∀ w, (schemasByName members "properties").find? m.1 = some w →
        Declares dialect w m.2)
      (commonItems : ∀ w, commonItem? members = some w → ∀ x ∈ itemsOf v, Declares dialect w x)
      (placedItems : dialect ≠ .draft2020 → ∀ p ∈ (schemasByPlace members "items").zip (itemsOf v),
        Declares dialect p.1 p.2)
      (allOf : ∀ w ∈ schemasByPlace members "allOf", Declares dialect w v)
      (holds : members.has "anyOf" = true →
        branch ∈ schemasByPlace members "anyOf" ∧ (judge dialect branch v).holds = true)
      (anyOf : members.has "anyOf" = true → Declares dialect branch v) :
      Declares dialect (.object members) v

/-! ## What a composed schema asks for -/

/-- The schemas under a composed schema hold where they apply. -/
structure Fulfils (dialect : Dialect) (accepts : Json → Json → Prop) (members : Table Json)
    (v : Json) : Prop where
  property : ∀ m ∈ membersOf v, ∀ w, (schemasByName members "properties").find? m.1 = some w →
    accepts w m.2
  commonItems : ∀ w, commonItem? members = some w → ∀ x ∈ itemsOf v, accepts w x
  placedItems : dialect ≠ .draft2020 → ∀ p ∈ (schemasByPlace members "items").zip (itemsOf v),
    accepts p.1 p.2
  allOf : ∀ w ∈ schemasByPlace members "allOf", accepts w v
  anyOf : members.has "anyOf" = true → ∃ w ∈ schemasByPlace members "anyOf", accepts w v

section Composed

variable {dialect : Dialect} {members : Table Json} {v : Json}

theorem Composes.exists_member {w : Json} (h : Composes members w) :
    ∃ m ∈ members, m.1 = "properties" ∧ (∃ n ∈ membersOf m.2, w = n.2) ∨
      m.1 ∈ ["allOf", "anyOf", "items"] ∧ (isList m.2 = false ∧ w = m.2 ∨ w ∈ itemsOf m.2) := by
  cases h with
  | named h hm => exact ⟨_, h, .inl ⟨rfl, _, hm, rfl⟩⟩
  | single hkey h hw => exact ⟨_, h, .inr ⟨hkey, .inl ⟨hw, rfl⟩⟩⟩
  | listed hkey h hw => exact ⟨_, h, .inr ⟨hkey, .inr hw⟩⟩

theorem composes_of_property {name : String} {w : Json}
    (h : (schemasByName members "properties").find? name = some w) : Composes members w := by
  obtain ⟨schemas, hfind, hmem⟩ := mem_schemasByName (Table.mem_of_find? h)
  exact .named (Table.mem_of_find? hfind) hmem

theorem composes_of_place {key : String} (hkey : key ∈ ["allOf", "anyOf", "items"]) {w : Json}
    (h : w ∈ schemasByPlace members key) : Composes members w := by
  obtain ⟨schemas, hfind, hmem⟩ := mem_schemasByPlace h
  exact .listed hkey (Table.mem_of_find? hfind) hmem

theorem composes_of_commonItem {w : Json} (h : commonItem? members = some w) : Composes members w := by
  have hlist : isList w = false := by
    unfold commonItem? at h
    cases w with
    | array items =>
      split at h
      · cases h
      · rename_i hne
        exact absurd h (hne items)
    | null | bool | number | string | object => rfl
  exact .single (by decide) (Table.mem_of_find? (find?_of_commonItem? h)) hlist

/-- Only the schemas inside matter. -/
theorem Fulfils.mono {accepts' accepts : Json → Json → Prop}
    (h : ∀ w, Composes members w → ∀ x, accepts' w x → accepts w x)
    (hv : Fulfils dialect accepts' members v) : Fulfils dialect accepts members v where
  property m hm w hw := h w (composes_of_property hw) m.2 (hv.property m hm w hw)
  commonItems w hw x hx := h w (composes_of_commonItem hw) x (hv.commonItems w hw x hx)
  placedItems hdialect p hp :=
    h p.1 (composes_of_place (by decide) (List.of_mem_zip hp).1) p.2 (hv.placedItems hdialect p hp)
  allOf w hw := h w (composes_of_place (by decide) hw) v (hv.allOf w hw)
  anyOf hhas := by
    obtain ⟨w, hw, haccepts⟩ := hv.anyOf hhas
    exact ⟨w, hw, h w (composes_of_place (by decide) hw) v haccepts⟩

/-- What becomes of the schemas inside becomes of what they are asked for. -/
theorem fulfils_went_iff {accepts : Json → Json → Prop} {f : Json → Json} {members' : Table Json}
    (hf : Fate f) (hwent : Went f members' members) :
    Fulfils dialect accepts members' v ↔ Fulfils dialect (fun w x => accepts (f w) x) members v := by
  have hproperties : ∀ name, (schemasByName members' "properties").find? name =
      ((schemasByName members "properties").find? name).map f := by
    intro name
    rw [hwent.named "properties" (by decide)]
    exact Table.find?_map (fun _ => f) _ name
  have hplaced : ∀ key ∈ ["allOf", "anyOf", "items"],
      schemasByPlace members' key = (schemasByPlace members key).map f := by
    intro key hkey
    have hinner : ∀ key ∈ ["allOf", "anyOf", "items"], key ∈ innerKeywords := by decide
    exact hwent.byPlace hf (hinner key hkey)
  have hhas : members'.has "anyOf" = members.has "anyOf" := hwent.has _ (by decide)
  constructor
  · intro h
    refine ⟨?_, ?_, ?_, ?_, ?_⟩
    · intro m hm w hw
      exact h.property m hm (f w) (by rw [hproperties, hw, Option.map_some])
    · intro w hw
      exact h.commonItems (f w) (by rw [hwent.commonItem?_eq hf, hw, Option.map_some])
    · intro hdialect p hp
      refine h.placedItems hdialect (f p.1, p.2) ?_
      rw [hplaced "items" (by decide), List.zip_map_left]
      exact List.mem_map_of_mem (f := Prod.map f id) hp
    · intro w hw
      refine h.allOf (f w) ?_
      rw [hplaced "allOf" (by decide)]
      exact List.mem_map_of_mem hw
    · intro hany
      obtain ⟨w', hw', haccepts⟩ := h.anyOf (hhas.trans hany)
      rw [hplaced "anyOf" (by decide)] at hw'
      obtain ⟨w, hw, rfl⟩ := List.mem_map.mp hw'
      exact ⟨w, hw, haccepts⟩
  · intro h
    refine ⟨?_, ?_, ?_, ?_, ?_⟩
    · intro m hm w' hw'
      rw [hproperties] at hw'
      obtain ⟨w, hw, rfl⟩ := Option.map_eq_some_iff.mp hw'
      exact h.property m hm w hw
    · intro w' hw' x hx
      rw [hwent.commonItem?_eq hf] at hw'
      obtain ⟨w, hw, rfl⟩ := Option.map_eq_some_iff.mp hw'
      exact h.commonItems w hw x hx
    · intro hdialect p' hp'
      rw [hplaced "items" (by decide), List.zip_map_left] at hp'
      obtain ⟨p, hp, rfl⟩ := List.mem_map.mp hp'
      exact h.placedItems hdialect p hp
    · intro w' hw'
      rw [hplaced "allOf" (by decide)] at hw'
      obtain ⟨w, hw, rfl⟩ := List.mem_map.mp hw'
      exact h.allOf w hw
    · intro hany
      obtain ⟨w, hw, haccepts⟩ := h.anyOf (hhas.symm.trans hany)
      refine ⟨f w, ?_, haccepts⟩
      rw [hplaced "anyOf" (by decide)]
      exact List.mem_map_of_mem hw

/-- What a composed schema asks for by itself. -/
def Own (ctx : Context) (members : Table Json) (v : Json) : Prop :=
  assertionFaults ctx (partsOf ctx members) v = [] ∧ missingNames (requiredNames members) v = []

theorem own_iff {ctx' ctx : Context} {f : Json → Json} {members' : Table Json}
    (hdialect : ctx'.dialect = ctx.dialect) (hwent : Went f members' members) :
    Own ctx' members' v ↔ Own ctx members v := by
  rw [Own, Own, hwent.assertions_eq hdialect, hwent.requiredNames_eq]

/-- The members of a composed schema, or of one that is closed. -/
def MaybeClosed (members : Table Json) : Prop :=
  ∀ m ∈ members, m.1 ∈ composedKeywords ∨ m = ("additionalProperties", .bool false)

theorem MaybeClosed.plain (h : MaybeClosed members) : Plain members := by
  have hsub : ∀ key ∈ composedKeywords, key ∈ plainKeywords := by decide
  intro m hm
  rcases h m hm with hkey | rfl
  · exact hsub _ hkey
  · decide

theorem MaybeClosed.find?_eq_none (h : MaybeClosed members) {key : String}
    (hkey : key ∉ composedKeywords) (hne : key ≠ "additionalProperties") :
    members.find? key = none := by
  apply Table.find?_eq_none
  rintro m hm rfl
  rcases h m hm with hcomposed | rfl
  · exact hkey hcomposed
  · exact hne rfl

theorem MaybeClosed.refuses (h : MaybeClosed members) {w : Json}
    (hw : members.find? "additionalProperties" = some w) : w = .bool false := by
  have hne : "additionalProperties" ∉ composedKeywords := by decide
  rcases h _ (Table.mem_of_find? hw) with hkey | hrefusal
  · exact absurd hkey hne
  · exact congrArg Prod.snd hrefusal

theorem MaybeClosed.meets_iff {ctx : Context} (h : MaybeClosed members) :
    Meets ctx members v ↔
      Own ctx members v ∧
      Fulfils ctx.dialect (fun w x => (meaning ctx w x).holds = true) members v ∧
      (members.has "additionalProperties" = true →
        ∀ m ∈ membersOf v, (schemasByName members "properties").has m.1 = true) := by
  have hrequired : ¬ OverlooksRequired members := by
    rintro ⟨-, -, -, inner, hinner⟩
    cases h.refuses hinner
  constructor
  · intro hm
    refine ⟨⟨hm.assertions, hm.required hrequired⟩,
      ⟨hm.property, hm.commonItems, hm.placedItems, hm.allOf, hm.anyOf⟩, fun hadd m hmem => ?_⟩
    -- A name that is not declared would have to be as `false` asks for.
    cases hfind : (schemasByName members "properties").find? m.1 with
    | some w => simp [Table.has, hfind]
    | none =>
      obtain ⟨w, hw⟩ := Option.isSome_iff_exists.mp hadd
      have hholds := hm.further m hmem hfind w hw
      rw [h.refuses hw] at hholds
      simp [meaning, Check.refuse, Report.holds] at hholds
  · rintro ⟨⟨hassertions, hmissing⟩, hinner, hdeclared⟩
    refine ⟨hassertions, fun _ => hmissing, hinner.property, fun m hmem hfind w hw => ?_,
      fun w hw => ?_, hinner.commonItems, hinner.placedItems, hinner.allOf, hinner.anyOf,
      fun r hr => ?_⟩
    · have hdeclared := hdeclared (by rw [Table.has, hw]; rfl) m hmem
      simp [Table.has, hfind] at hdeclared
    · rw [h.find?_eq_none (by decide) (by decide)] at hw
      cases hw
    · rw [h.find?_eq_none (by decide) (by decide)] at hr
      cases hr

theorem MaybeClosed.holds_iff {ctx : Context} (h : MaybeClosed members) :
    (meaning ctx (.object members) v).holds = true ↔
      Own ctx members v ∧
      Fulfils ctx.dialect (fun w x => (meaning ctx w x).holds = true) members v ∧
      (members.has "additionalProperties" = true →
        ∀ m ∈ membersOf v, (schemasByName members "properties").has m.1 = true) := by
  rw [h.plain.holds_iff (h.find?_eq_none (by decide) (by decide)), h.meets_iff]

theorem maybeClosed_of_composed (hkeys : ∀ m ∈ members, m.1 ∈ composedKeywords) :
    MaybeClosed members := fun m hm => .inl (hkeys m hm)

theorem maybeClosed_closeMembers (hkeys : ∀ m ∈ members, m.1 ∈ composedKeywords) :
    MaybeClosed (closeMembers members) := by
  intro m hm
  rcases mem_closeMembers hm with rfl | ⟨m', hm', rfl⟩
  · exact .inr rfl
  · exact .inl (hkeys m' hm')

theorem additional_of_composed (hkeys : ∀ m ∈ members, m.1 ∈ composedKeywords) :
    members.find? "additionalProperties" = none := by
  have hne : "additionalProperties" ∉ composedKeywords := by decide
  exact Table.find?_eq_none fun m hm heq => hne (heq ▸ hkeys m hm)

/-- A composed schema holds if it holds by itself and the schemas under it do. -/
theorem composed_holds_iff {ctx : Context} (hkeys : ∀ m ∈ members, m.1 ∈ composedKeywords) :
    (meaning ctx (.object members) v).holds = true ↔
      Own ctx members v ∧
        Fulfils ctx.dialect (fun w x => (meaning ctx w x).holds = true) members v := by
  rw [(maybeClosed_of_composed hkeys).holds_iff]
  simp [Table.has, additional_of_composed hkeys]

/-- A closed one asks for declared names besides, if it is an object schema. -/
theorem closed_holds_iff {ctx : Context} (hkeys : ∀ m ∈ members, m.1 ∈ composedKeywords) :
    (meaning ctx (close (.object members)) v).holds = true ↔
      Own ctx members v ∧
      Fulfils ctx.dialect (fun w x => (meaning ctx (close w) x).holds = true) members v ∧
      (describesObjects members = true →
        ∀ m ∈ membersOf v, (schemasByName members "properties").has m.1 = true) := by
  have hclosed : (closeMembers members).has "additionalProperties" = describesObjects members := by
    rw [Table.has, find?_closeMembers_additional, isOpen, Table.has, additional_of_composed hkeys]
    cases describesObjects members <;> rfl
  have hdeclared : ∀ name, (schemasByName (closeMembers members) "properties").has name =
      (schemasByName members "properties").has name := by
    intro name
    rw [(went_close members).named "properties" (by decide), Table.has,
      Table.find?_map (fun _ => close), Option.isSome_map, Table.has]
  rw [close_object, (maybeClosed_closeMembers hkeys).holds_iff, own_iff rfl (went_close members),
    fulfils_went_iff .closed (went_close members), hclosed]
  simp only [hdeclared]

end Composed

/-! ## Closing a composed document -/

/-- No composed schema depends on what references lead to. -/
theorem composed_holds_congr {ctx' ctx : Context} (hdialect : ctx'.dialect = ctx.dialect) {w : Json}
    (h : Composed w) (v : Json) : (meaning ctx' w v).holds = (meaning ctx w v).holds := by
  induction h generalizing v with
  | truth b => cases b <;> rfl
  | @object members hkeys hinside ih =>
    rw [Bool.eq_iff_iff, composed_holds_iff hkeys, composed_holds_iff hkeys,
      own_iff hdialect (went_id members), hdialect]
    refine and_congr_right fun _ => ⟨?_, ?_⟩
    · exact Fulfils.mono fun w hw x hx => ih w hw x ▸ hx
    · exact Fulfils.mono fun w hw x hx => (ih w hw x).symm ▸ hx

theorem judge_of_composed {ctx : Context} {w : Json} (h : Composed w) (v : Json) :
    (judge ctx.dialect w v).holds = (meaning ctx w v).holds := by
  rw [judge]
  apply composed_holds_congr _ h
  rfl

/-- A closed composed schema holds for a value exactly if it did before and all names are declared. -/
theorem closed_iff_declares {ctx' ctx : Context} (hdialect : ctx'.dialect = ctx.dialect) {w : Json}
    (h : Composed w) (v : Json) :
    (meaning ctx' (close w) v).holds = true ↔
      (meaning ctx w v).holds = true ∧ Declares ctx.dialect w v := by
  induction h generalizing v with
  | truth b =>
    have hsame : (meaning ctx' (close (.bool b)) v).holds = (meaning ctx (.bool b) v).holds := by
      cases b <;> rfl
    rw [hsame]
    exact ⟨fun h => ⟨h, .truth b v⟩, And.left⟩
  | @object members hkeys hinside ih =>
    rw [closed_holds_iff hkeys, composed_holds_iff hkeys, own_iff hdialect (went_id members), hdialect]
    constructor
    · rintro ⟨hown, hinner, hnames⟩
      have hboth : Fulfils ctx.dialect
          (fun w x => (meaning ctx w x).holds = true ∧ Declares ctx.dialect w x) members v :=
        hinner.mono fun w hw x hx => (ih w hw x).mp hx
      have hholds := hboth.mono fun w _ x hx => hx.1
      have hdeclares := hboth.mono fun w _ x hx => hx.2
      obtain ⟨branch, hbranch⟩ : ∃ branch, members.has "anyOf" = true →
          branch ∈ schemasByPlace members "anyOf" ∧ (meaning ctx branch v).holds = true ∧
            Declares ctx.dialect branch v := by
        cases hhas : members.has "anyOf" with
        | false => exact ⟨.null, fun h => absurd h (by simp)⟩
        | true =>
          obtain ⟨w, hw, hx⟩ := hboth.anyOf hhas
          exact ⟨w, fun _ => ⟨hw, hx⟩⟩
      refine ⟨⟨hown, hholds⟩, .object branch hnames hdeclares.property hdeclares.commonItems
        hdeclares.placedItems hdeclares.allOf ?_ fun hany => (hbranch hany).2.2⟩
      intro hany
      obtain ⟨hmem, hbranch, -⟩ := hbranch hany
      refine ⟨hmem, ?_⟩
      rw [← hbranch]
      exact judge_of_composed (hinside branch (composes_of_place (by decide) hmem)) v
    · rintro ⟨⟨hown, hinner⟩, hdeclares⟩
      cases hdeclares with
      | object branch hnames hproperty hcommon hplaced hallOf hholds hanyOf =>
        refine ⟨hown, ⟨?_, ?_, ?_, ?_, ?_⟩, hnames⟩
        · intro m hm w hw
          have hw' := composes_of_property hw
          exact (ih w hw' m.2).mpr ⟨hinner.property m hm w hw, hproperty m hm w hw⟩
        · intro w hw x hx
          have hw' := composes_of_commonItem hw
          exact (ih w hw' x).mpr ⟨hinner.commonItems w hw x hx, hcommon w hw x hx⟩
        · intro hd p hp
          exact (ih p.1 (composes_of_place (by decide) (List.of_mem_zip hp).1) p.2).mpr
            ⟨hinner.placedItems hd p hp, hplaced hd p hp⟩
        · intro w hw
          exact (ih w (composes_of_place (by decide) hw) v).mpr ⟨hinner.allOf w hw, hallOf w hw⟩
        · intro hany
          obtain ⟨hmem, hjudge⟩ := hholds hany
          have hcomposes := composes_of_place (by decide) hmem
          refine ⟨branch, hmem, (ih branch hcomposes v).mpr ⟨?_, hanyOf hany⟩⟩
          rw [← hjudge, judge_of_composed (hinside branch hcomposes)]

/-! ## Compiling -/

section Survey

variable {dialect : Dialect} {follow : String → List String → Survey}

theorem branches_hold_schemas (dialect : Dialect) :
    ∀ key ∈ ["allOf", "anyOf", "items"], holding dialect key = .schemas ∧ key ∈ schemaKeywords := by
  cases dialect <;> decide

/-- What becomes of a keyword of a composed schema stops no survey if the schemas inside stop none. -/
theorem keywordPasses_close {members : Table Json} {key : String} {w : Json}
    (hkey : key ∈ composedKeywords) (hmem : (key, w) ∈ members)
    (hinside : ∀ w, Composes members w → Passes dialect follow (close w)) :
    KeywordPasses dialect follow key (closeValue key w) := by
  have hcases : key ∈ ["allOf", "anyOf", "items"] ∨ key = "properties" ∨ key = "required" ∨
      key = "type" := by
    simpa [composedKeywords, or_assoc] using hkey
  rcases hcases with hbranch | rfl | rfl | rfl
  · obtain ⟨hholding, hclosed⟩ := branches_hold_schemas dialect key hbranch
    refine .schemas hholding ?_
    rw [closeValue_schema hclosed]
    cases w with
    | array schemas => exact passes_close_array fun x hx => hinside x (.listed hbranch hmem hx)
    | null | bool | number | string | object => exact hinside _ (.single hbranch hmem rfl)
  · refine keywordPasses_closeTable (by decide) (by cases dialect <;> decide) ?_
    intro m hm
    cases w with
    | object schemas => exact hinside m.2 (.named hmem hm)
    | null | bool | number | string | array => cases hm
  · exact .nothing _ (by cases dialect <;> decide)
  · exact .nothing _ (by cases dialect <;> decide)

/-- Nothing in a closed composed schema stops a survey: there are no references and no patterns. -/
theorem passes_close {w : Json} (h : Composed w) : Passes dialect follow (close w) := by
  induction h with
  | truth b => exact passes_bool b
  | @object members hkeys hinside ih =>
    refine passes_close_object ?_ fun m hm => keywordPasses_close (hkeys m hm) hm ih
    exact (maybeClosed_of_composed hkeys).find?_eq_none (by decide) (by decide)

end Survey

/-! ## Where schemas apply -/

/-- A schema of a document governs a place in values. -/
inductive Governs (document : Json) : List Step → Json → Prop
  | document : Governs document [] document
  | branch {place : List Step} {members : Table Json} {key : String} {w : Json}
      (h : Governs document place (.object members)) (hkey : key = "allOf" ∨ key = "anyOf")
      (hw : w ∈ schemasByPlace members key) : Governs document place w
  | property {place : List Step} {members : Table Json} {name : String} {w : Json}
      (h : Governs document place (.object members))
      (hw : (schemasByName members "properties").find? name = some w) :
      Governs document (place ++ [.member name]) w
  | item {place : List Step} {members : Table Json} {w : Json}
      (h : Governs document place (.object members)) (hw : commonItem? members = some w) (n : Nat) :
      Governs document (place ++ [.item n]) w

/-- Every name in a value is among the properties of some schema that governs its object. -/
def ListedSomewhere (document v : Json) : Prop :=
  ∀ place members, partAt? v place = some (.object members) →
    ∀ m ∈ members, ∃ inner, Governs document place (.object inner) ∧
      (schemasByName inner "properties").has m.1 = true

end Schema

namespace StrictMode

open Schema

variable {α : Type}

/-- Of the values that a composed document accepts, strict mode accepts those whose names are all
declared, and no others. -/
theorem accepted_strict_iff_declares (dialect : Dialect) (s : DocumentSchema α) (v : Json)
    (hcomposed : Composed s.document)
    (haccepted : (byDocument ⟨dialect, false⟩).validate s v = .ok true) :
    (byDocument ⟨dialect, true⟩).validate s v = .ok true ↔ Declares dialect s.document v := by
  obtain ⟨⟨c, hcompiles⟩, hholds⟩ := validate_eq_ok_iff.mp haccepted
  have hstrict : ∃ c, compileDocument ⟨dialect, true⟩ s.document = .ok c :=
    ⟨_, compileDocument_eq_ok_iff.mpr
      (compile_strict_of_passes (fun _ => passes_close hcomposed)
        (compileDocument_eq_ok_iff.mp hcompiles))⟩
  have hclosed : (judge dialect (close s.document) v).holds = true ↔
      (judge dialect s.document v).holds = true ∧ Declares dialect s.document v :=
    @closed_iff_declares ⟨dialect, resolver dialect (close s.document) _⟩
      ⟨dialect, resolver dialect s.document _⟩ rfl _ hcomposed v
  rw [validate_eq_ok_iff]
  constructor
  · intro h
    exact (hclosed.mp h.2).2
  · intro h
    exact ⟨hstrict, hclosed.mpr ⟨hholds, h⟩⟩

/-- A schema that declares one name. -/
def declaring (name : String) : Json := .object [("properties", .object [(name, .object [])])]

theorem composed_declaring (name : String) : Composed (declaring name) := by
  have hempty : Composed (.object []) := .object (by simp) fun w hw => by simpa using hw.exists_member
  refine .object (by simp [composedKeywords]) fun w hw => ?_
  have hw' : w = .object [] := by simpa [membersOf] using hw.exists_member
  rw [hw']
  exact hempty

theorem declares_declaring (dialect : Dialect) {name : String} (x : Json) :
    Declares dialect (declaring name) (.object [(name, x)]) := by
  have hempty : ∀ y, Declares dialect (.object []) y := fun y =>
    .object .null (by simp [describesObjects, Table.has, objectKeywords])
      (by simp [schemasByName]) (by simp [commonItem?]) (by simp [schemasByPlace])
      (by simp [schemasByPlace]) (by simp [Table.has]) (by simp [Table.has])
  refine .object .null ?_ ?_ (by simp [commonItem?]) (by simp [schemasByPlace])
    (by simp [schemasByPlace]) (by simp [Table.has]) (by simp [Table.has])
  · simp [schemasByName, membersOf, Table.has]
  · simp [schemasByName, membersOf, hempty]

/-- Either of two names. -/
def eitherName : DocumentSchema Json where
  document := .object [("anyOf", .array [declaring "a", declaring "b"])]
  codec := Typed.json

theorem composed_pair {key : String} (hkey : key = "allOf" ∨ key = "anyOf") (a b : String) :
    Composed (.object [(key, .array [declaring a, declaring b])]) := by
  refine .object ?_ fun w hw => ?_
  · rcases hkey with rfl | rfl <;> simp [composedKeywords]
  · have hw' : w = declaring a ∨ w = declaring b := by
      rcases hkey with rfl | rfl <;> simpa [itemsOf, isList] using hw.exists_member
    rcases hw' with rfl | rfl
    · exact composed_declaring a
    · exact composed_declaring b

set_option maxRecDepth 2048 in
theorem one_name_accepted_strict :
    (byDocument ⟨.draft7, true⟩).validate eitherName (.object [("b", Json.whole 1)]) = .ok true := by
  have haccepted : (byDocument ⟨.draft7, false⟩).validate eitherName
      (.object [("b", Json.whole 1)]) = .ok true := by rfl
  refine (accepted_strict_iff_declares .draft7 eitherName _ (composed_pair (.inr rfl) "a" "b")
    haccepted).mpr ?_
  refine .object (declaring "b") ?_ ?_ ?_ ?_ ?_ ?_ fun _ => declares_declaring .draft7 _
  · simp [describesObjects, Table.has, objectKeywords]
  · simp [schemasByName]
  · simp [commonItem?]
  · simp [schemasByPlace]
  · simp [schemasByPlace]
  · exact fun _ => ⟨by simp [schemasByPlace], rfl⟩

/-- Two schemas of one object, each of which declares one of its members. -/
def pieces : DocumentSchema Json where
  document := .object [("allOf", .array [declaring "a", declaring "b"])]
  codec := Typed.json

theorem partAt?_whole (n : Int) (place : List Step) (members : Table Json) :
    partAt? (Json.whole n) place ≠ some (.object members) := by
  rcases place with _ | ⟨_ | _, rest⟩ <;> simp [partAt?, Json.whole, Json.member?, itemsOf]

theorem listedSomewhere_pieces : ListedSomewhere pieces.document both := by
  intro place members hplace m hm
  cases place with
  | nil =>
    obtain rfl : [("a", Json.whole 1), ("b", Json.whole 2)] = members := by
      simpa [partAt?, both] using hplace
    have hgoverns : ∀ w ∈ [declaring "a", declaring "b"], Governs pieces.document [] w :=
      fun w hw => .branch .document (.inl rfl) hw
    simp only [List.mem_cons, List.not_mem_nil, or_false] at hm
    rcases hm with rfl | rfl
    · exact ⟨_, hgoverns (declaring "a") (by simp), by rfl⟩
    · exact ⟨_, hgoverns (declaring "b") (by simp), by rfl⟩
  | cons step rest =>
    -- Below its members the value has no objects.
    exfalso
    cases step with
    | item n => simp [partAt?, both, itemsOf] at hplace
    | member name =>
      obtain ⟨x, hx, hrest⟩ := Option.bind_eq_some_iff.mp hplace
      simp only [both, Json.member?, Table.find?_cons, Table.find?_nil] at hx
      split at hx
      · obtain rfl := Option.some.inj hx
        exact partAt?_whole 1 rest members hrest
      · split at hx
        · obtain rfl := Option.some.inj hx
          exact partAt?_whole 2 rest members hrest
        · cases hx

/-- A sibling's declaration does not count: each name is declared by one of the schemas, and strict
mode rejects the value. -/
theorem pieces_rejected_strict :
    Composed pieces.document ∧
      (byDocument ⟨.draft7, false⟩).validate pieces both = .ok true ∧
      ListedSomewhere pieces.document both ∧
      (byDocument ⟨.draft7, true⟩).validate pieces both = .ok false :=
  ⟨composed_pair (.inl rfl) "a" "b", rfl, listedSomewhere_pieces, rfl⟩

end StrictMode

end GuardedCall
