-- What a schema asks of a value, read off its keywords: each keyword asks for
-- something by itself, in terms of the schemas that stand under it, whatever
-- the order in which violations are found and reported.
import GuardedCall.Schema.Reference

namespace GuardedCall

/-! ## Tables -/

theorem Table.lookup_eq_find? {α : Type} (t : Table α) (key : String) :
    List.lookup key t = t.find? key := by
  induction t with
  | nil => rfl
  | cons head rest ih =>
    obtain ⟨k, x⟩ := head
    rw [Table.find?_cons, List.lookup_cons, ih]
    by_cases hk : k = key
    · simp [hk]
    · have hbeq : (key == k) = false := beq_eq_false_iff_ne.mpr (Ne.symm hk)
      rw [if_neg hk, hbeq]

namespace Schema

theorem Context.isRecent_iff (ctx : Context) : ctx.isRecent = true ↔ ctx.dialect ≠ .draft7 := by
  simp [Context.isRecent]

/-! ## Reports without violations -/

theorem Report.holds_iff {r : Report} : r.holds = true ↔ r.violations = [] := List.isEmpty_iff

theorem faultsOf_eq_nil_iff {c : Check} {v : Json} : faultsOf c v = [] ↔ (c v).holds = true :=
  Report.holds_iff.symm

@[simp] theorem expect_eq_nil_iff {b : Bool} {x : Violation} : expect b x = [] ↔ b = true := by
  cases b <;> simp [expect]

theorem allFaults_eq_nil_iff {reports : List Report} :
    allFaults reports = [] ↔ ∀ r ∈ reports, r.holds = true := by
  simp only [allFaults, List.flatMap_eq_nil_iff, Report.holds_iff]

/-! ## The schemas of a schema -/

/-- The schemas by name under a keyword. -/
def schemasByName (members : Table Json) (key : String) : Table Json :=
  match members.find? key with
  | some (.object schemas) => schemas
  | _ => []

/-- The schemas by place under a keyword. -/
def schemasByPlace (members : Table Json) (key : String) : List Json :=
  match members.find? key with
  | some (.array schemas) => schemas
  | _ => []

theorem mem_schemasByName {members : Table Json} {key : String} {m : String × Json}
    (h : m ∈ schemasByName members key) :
    ∃ schemas, members.find? key = some (.object schemas) ∧ m ∈ schemas := by
  unfold schemasByName at h
  split at h
  · rename_i schemas hfind
    exact ⟨schemas, hfind, h⟩
  · cases h

theorem mem_schemasByPlace {members : Table Json} {key : String} {w : Json}
    (h : w ∈ schemasByPlace members key) :
    ∃ schemas, members.find? key = some (.array schemas) ∧ w ∈ schemas := by
  unfold schemasByPlace at h
  split at h
  · rename_i schemas hfind
    exact ⟨schemas, hfind, h⟩
  · cases h

/-- A value with its readings as schemas. -/
def partOf (ctx : Context) (w : Json) : Part := ⟨w, meaning ctx w, namedIn ctx w, listedIn ctx w⟩

section Parts

variable (ctx : Context) (members : Table Json) (key : String)

theorem namedChecks_eq_map (schemas : Table Json) :
    namedChecks ctx schemas = schemas.map fun m => (m.1, meaning ctx m.2) := by
  induction schemas with
  | nil => rfl
  | cons head rest ih =>
    obtain ⟨name, w⟩ := head
    rw [namedChecks, ih, List.map_cons]

theorem listedChecks_eq_map (schemas : List Json) :
    listedChecks ctx schemas = schemas.map (meaning ctx) := by
  induction schemas with
  | nil => rfl
  | cons w rest ih => rw [listedChecks, ih, List.map_cons]

theorem partsOf_eq_map : partsOf ctx members = members.map fun m => (m.1, partOf ctx m.2) := by
  induction members with
  | nil => rfl
  | cons head rest ih =>
    obtain ⟨k, w⟩ := head
    rw [partsOf, ih, List.map_cons]
    rfl

theorem find?_partsOf :
    Table.find? (partsOf ctx members) key = (members.find? key).map (partOf ctx) := by
  rw [partsOf_eq_map]
  exact Table.find?_map (fun _ => partOf ctx) members key

@[simp] theorem has_partsOf : Table.has (partsOf ctx members) key = members.has key := by
  simp [Table.has, find?_partsOf]

@[simp] theorem value?_partsOf : Parts.value? (partsOf ctx members) key = members.find? key := by
  cases h : members.find? key <;> simp [Parts.value?, find?_partsOf, h, partOf]

theorem text?_partsOf_iff {ctx : Context} {members : Table Json} {key r : String} :
    Parts.text? (partsOf ctx members) key = some r ↔ members.find? key = some (.string r) := by
  rw [Parts.text?, value?_partsOf]
  rcases members.find? key with _ | w
  · simp
  · cases w <;> simp

@[simp] theorem check?_partsOf :
    Parts.check? (partsOf ctx members) key = (members.find? key).map (meaning ctx) := by
  cases h : members.find? key <;> simp [Parts.check?, find?_partsOf, h, partOf]

@[simp] theorem named_partsOf :
    Parts.named (partsOf ctx members) key =
      (schemasByName members key).map fun m => (m.1, meaning ctx m.2) := by
  unfold Parts.named schemasByName
  rw [find?_partsOf]
  rcases members.find? key with _ | w
  · rfl
  · cases w <;> simp [partOf, namedIn, namedChecks_eq_map]

@[simp] theorem listed_partsOf :
    Parts.listed (partsOf ctx members) key = (schemasByPlace members key).map (meaning ctx) := by
  unfold Parts.listed schemasByPlace
  rw [find?_partsOf]
  rcases members.find? key with _ | w
  · rfl
  · cases w <;> simp [partOf, listedIn, listedChecks_eq_map]

@[simp] theorem lookup_named_partsOf (name : String) :
    (Parts.named (partsOf ctx members) key).lookup name =
      ((schemasByName members key).find? name).map (meaning ctx) := by
  rw [Table.lookup_eq_find?, named_partsOf]
  exact Table.find?_map (fun _ => meaning ctx) _ name

end Parts

/-! ## Keywords that only look at the value itself -/

/-- What the keywords have against a value that do not look into other schemas. -/
def assertionFaults (ctx : Context) (ps : Parts) (v : Json) : List Violation :=
  typeFaults ps v ++ constFaults ps v ++ enumFaults ps v ++ numberFaults ps v ++
    sizesFaults ps v ++ dependentNameFaults ctx ps v ++ patternFaults ps v ++
    formatFaults ctx.dialect ps v ++ uniqueFaults ps v

def assertionKeywords : List String :=
  ["type", "const", "enum", "minimum", "maximum", "exclusiveMinimum", "exclusiveMaximum",
    "multipleOf", "minLength", "maxLength", "minItems", "maxItems", "minProperties",
    "maxProperties", "dependentRequired", "pattern", "format", "uniqueItems"]

/-- These keywords ask for the same wherever they have the same values. -/
theorem assertionFaults_congr {ctx' ctx : Context} {ps' ps : Parts}
    (hdialect : ctx'.dialect = ctx.dialect)
    (h : ∀ key ∈ assertionKeywords, ps'.value? key = ps.value? key) (v : Json) :
    assertionFaults ctx' ps' v = assertionFaults ctx ps v := by
  simp only [assertionKeywords, List.forall_mem_cons] at h
  obtain ⟨htype, hconst, henum, hmin, hmax, hexmin, hexmax, hmultiple, hminLength, hmaxLength,
    hminItems, hmaxItems, hminProperties, hmaxProperties, hdependent, hpattern, hformat, hunique,
    -⟩ := h
  simp only [assertionFaults, typeFaults, constFaults, enumFaults, numberFaults, boundFaults,
    sizesFaults, sizeFaults, dependentNameFaults, patternFaults, formatFaults, uniqueFaults,
    Parts.number?, Parts.count?, Parts.text?, Context.isRecent, hdialect, htype, hconst, henum,
    hmin, hmax, hexmin, hexmax, hmultiple, hminLength, hmaxLength, hminItems, hmaxItems,
    hminProperties, hmaxProperties, hdependent, hpattern, hformat, hunique]

/-! ## The members of an object -/

/-- A name that neither the properties nor the patterns of a schema declare. -/
def Undeclared (members : Table Json) (name : String) : Prop :=
  (schemasByName members "properties").find? name = none ∧
    ∀ p ∈ schemasByName members "patternProperties", matchesPattern p.1 name = false

theorem isFurther_partsOf_iff {ctx : Context} {members : Table Json} {name : String} :
    isFurther (partsOf ctx members) name = true ↔ Undeclared members name := by
  unfold isFurther Undeclared matchesAny
  rw [lookup_named_partsOf, named_partsOf, Option.isNone_map, Bool.and_eq_true,
    Option.isNone_iff_eq_none]
  simp

/-- What is said of further members allows one with this value. -/
def Further.Admits : Further → Json → Prop
  | .allowed, _ => True
  | .refused, _ => False
  | .checked c, x => (c x).holds = true

theorem admits_partsOf_iff {ctx : Context} {members : Table Json} {x : Json} :
    (further (partsOf ctx members)).Admits x ↔
      ∀ w, members.find? "additionalProperties" = some w → (meaning ctx w x).holds = true := by
  unfold further
  rw [find?_partsOf]
  rcases members.find? "additionalProperties" with _ | w
  · simp [Further.Admits]
  · rcases w with _ | ⟨_ | _⟩ | _ | _ | _ | _ <;>
      simp [partOf, Further.Admits, meaning, Check.refuse, Report.holds]

/-- Each member is as its property, the patterns it matches and, if there is neither, the schema
of further members ask for. -/
structure MembersHold (ps : Parts) (v : Json) : Prop where
  property : ∀ m ∈ membersOf v, ∀ c, (ps.named "properties").lookup m.1 = some c →
    (c m.2).holds = true
  pattern : ∀ m ∈ membersOf v, ∀ p ∈ ps.named "patternProperties", matchesPattern p.1 m.1 = true →
    (p.2 m.2).holds = true
  further : ∀ m ∈ membersOf v, isFurther ps m.1 = true → (further ps).Admits m.2

theorem propertyFaults_eq_nil_iff {schemas : List (String × Check)} {name : String} {x : Json} :
    propertyFaults schemas name x = [] ↔
      ∀ c, schemas.lookup name = some c → (c x).holds = true := by
  unfold propertyFaults
  cases schemas.lookup name <;> simp [faultsOf_eq_nil_iff]

theorem patternMemberFaults_eq_nil_iff {patterns : List (String × Check)} {name : String} {x : Json} :
    patternMemberFaults patterns name x = [] ↔
      ∀ p ∈ patterns, matchesPattern p.1 name = true → (p.2 x).holds = true := by
  simp [patternMemberFaults, List.flatMap_eq_nil_iff, faultsOf_eq_nil_iff]

theorem separateFaults_eq_nil_iff {ps : Parts} {v : Json} :
    separateFaults ps v = [] ↔
      (∀ m ∈ membersOf v, ∀ c, (ps.named "properties").lookup m.1 = some c →
        (c m.2).holds = true) ∧
      ∀ m ∈ membersOf v, ∀ p ∈ ps.named "patternProperties", matchesPattern p.1 m.1 = true →
        (p.2 m.2).holds = true := by
  simp only [separateFaults, List.append_eq_nil_iff, List.flatMap_eq_nil_iff,
    propertyFaults_eq_nil_iff, faultsOf_eq_nil_iff, List.mem_filter, and_imp]
  exact and_congr_right fun _ => ⟨fun h m hm p hp => h p hp m hm, fun h p hp m hm => h m hm p hp⟩

theorem joinedFaults_eq_nil_iff {ps : Parts} {additional : Check} {v : Json} :
    joinedFaults ps additional v = [] ↔
      (∀ m ∈ membersOf v, ∀ c, (ps.named "properties").lookup m.1 = some c →
        (c m.2).holds = true) ∧
      (∀ m ∈ membersOf v, ∀ p ∈ ps.named "patternProperties", matchesPattern p.1 m.1 = true →
        (p.2 m.2).holds = true) ∧
      ∀ m ∈ membersOf v, isFurther ps m.1 = true → (additional m.2).holds = true := by
  have hfurther : ∀ m : String × Json,
      (if isFurther ps m.1 = true then faultsOf additional m.2 else []) = [] ↔
        (isFurther ps m.1 = true → (additional m.2).holds = true) := by
    intro m
    by_cases h : isFurther ps m.1 = true <;> simp [h, faultsOf_eq_nil_iff]
  simp only [joinedFaults, List.flatMap_eq_nil_iff, List.append_eq_nil_iff,
    propertyFaults_eq_nil_iff, patternMemberFaults_eq_nil_iff, hfurther]
  constructor
  · intro h
    exact ⟨fun m hm => (h m hm).1.1, fun m hm => (h m hm).1.2, fun m hm => (h m hm).2⟩
  · intro h m hm
    exact ⟨⟨h.1 m hm, h.2.1 m hm⟩, h.2.2 m hm⟩

/-- Of a schema without properties and patterns every member is a further one. -/
theorem isFurther_of_not_has {ps : Parts} (hp : ps.has "properties" = false)
    (hq : ps.has "patternProperties" = false) (name : String) : isFurther ps name = true := by
  simp only [Table.has, Option.isSome_eq_false_iff, Option.isNone_iff_eq_none] at hp hq
  simp [isFurther, Parts.named, matchesAny, hp, hq]

theorem refusedFaults_eq_nil_iff {ps : Parts} {v : Json} :
    refusedFaults ps v = [] ↔ ∀ m ∈ membersOf v, isFurther ps m.1 ≠ true := by
  unfold refusedFaults
  split
  · rename_i hhas
    have hfilter : ((membersOf v).map Prod.fst).filter (isFurther ps) = [] ↔
        ∀ m ∈ membersOf v, isFurther ps m.1 ≠ true := by
      simp only [List.filter_eq_nil_iff, List.forall_mem_map]
    rw [← hfilter]
    cases ((membersOf v).map Prod.fst).filter (isFurther ps) <;> simp
  · rename_i hhas
    simp only [Bool.or_eq_true, not_or, Bool.not_eq_true] at hhas
    simp only [isFurther_of_not_has hhas.1 hhas.2]
    rcases membersOf v with _ | ⟨⟨name, x⟩, rest⟩
    · simp
    · simp only [List.cons_ne_self, false_iff]
      exact fun h => h (name, x) List.mem_cons_self rfl

/-- What the schemas of the members have against them, without what is said of required names. -/
def memberFaults (ps : Parts) (v : Json) : List Violation :=
  match further ps with
  | .allowed => separateFaults ps v
  | .checked additional => joinedFaults ps additional v
  | .refused => joinedFaults ps Check.pass v ++ refusedFaults ps v

theorem membersFaults_eq (ps : Parts) (v : Json) :
    membersFaults ps v =
      requiredFaults ps .beforeProperties v ++ memberFaults ps v ++
        requiredFaults ps .behindProperties v := rfl

theorem memberFaults_eq_nil_iff {ps : Parts} {v : Json} :
    memberFaults ps v = [] ↔ MembersHold ps v := by
  have hpass : ∀ x, (Check.pass x).holds = true := fun _ => rfl
  unfold memberFaults
  constructor
  · intro h
    cases hf : further ps with
    | allowed =>
      rw [hf] at h
      obtain ⟨hprop, hpat⟩ := separateFaults_eq_nil_iff.mp h
      exact ⟨hprop, hpat, fun _ _ _ => by rw [hf]; trivial⟩
    | checked additional =>
      rw [hf] at h
      obtain ⟨hprop, hpat, hfur⟩ := joinedFaults_eq_nil_iff.mp h
      exact ⟨hprop, hpat, fun m hm hm' => by rw [hf]; exact hfur m hm hm'⟩
    | refused =>
      rw [hf] at h
      obtain ⟨hjoined, hrefused⟩ := List.append_eq_nil_iff.mp h
      obtain ⟨hprop, hpat, -⟩ := joinedFaults_eq_nil_iff.mp hjoined
      exact ⟨hprop, hpat, fun m hm hm' => absurd hm' (refusedFaults_eq_nil_iff.mp hrefused m hm)⟩
  · rintro ⟨hprop, hpat, hfur⟩
    cases hf : further ps with
    | allowed => exact separateFaults_eq_nil_iff.mpr ⟨hprop, hpat⟩
    | checked additional =>
      rw [hf] at hfur
      exact joinedFaults_eq_nil_iff.mpr ⟨hprop, hpat, hfur⟩
    | refused =>
      rw [hf] at hfur
      refine List.append_eq_nil_iff.mpr ⟨?_, refusedFaults_eq_nil_iff.mpr hfur⟩
      exact joinedFaults_eq_nil_iff.mpr ⟨hprop, hpat, fun m _ _ => hpass m.2⟩

/-! ## Required names -/

/-- The names that a schema requires. -/
def requiredNames (members : Table Json) : List String :=
  match members.find? "required" with
  | some v => Parts.textsOf v
  | none => []

/-- The required names of a schema are looked at nowhere: two of them beside properties, without
patterns, and with a schema object for further members. -/
structure OverlooksRequired (members : Table Json) : Prop where
  properties : members.has "properties" = true
  patterns : members.has "patternProperties" = false
  names : (requiredNames members).length = 2
  further : ∃ inner, members.find? "additionalProperties" = some (.object inner)

theorem texts_required_partsOf (ctx : Context) (members : Table Json) :
    Parts.texts (partsOf ctx members) "required" = requiredNames members := by
  cases h : members.find? "required" <;> simp [Parts.texts, requiredNames, h]

theorem further_checked_iff {ctx : Context} {members : Table Json} :
    (∃ c, further (partsOf ctx members) = .checked c) ↔
      ∃ inner, members.find? "additionalProperties" = some (.object inner) := by
  unfold further
  rw [find?_partsOf]
  rcases members.find? "additionalProperties" with _ | w
  · simp
  · rcases w with _ | ⟨_ | _⟩ | _ | _ | _ | _ <;> simp [partOf]

theorem requiredPlace_eq_nowhere_iff {ctx : Context} {members : Table Json} :
    requiredPlace (partsOf ctx members) = .nowhere ↔ OverlooksRequired members := by
  have hplace : requiredPlace (partsOf ctx members) = .nowhere ↔
      members.has "properties" = true ∧ members.has "patternProperties" = false ∧
        (requiredNames members).length = 2 ∧ ∃ c, further (partsOf ctx members) = .checked c := by
    unfold requiredPlace
    simp only [has_partsOf, texts_required_partsOf]
    split <;> simp_all
  rw [hplace, further_checked_iff]
  exact ⟨fun ⟨hp, hq, hn, hf⟩ => ⟨hp, hq, hn, hf⟩, fun ⟨hp, hq, hn, hf⟩ => ⟨hp, hq, hn, hf⟩⟩

theorem requiredFaults_eq_nil_iff {ps : Parts} {here : RequiredPlace} {v : Json} :
    requiredFaults ps here v = [] ↔
      (requiredPlace ps = here → missingNames (ps.texts "required") v = []) := by
  unfold requiredFaults
  split <;> simp [*]

/-- Wherever the required names are looked at, what is said of the members of an object is that
these names are there and that each member holds. -/
theorem members_and_required_iff {ctx : Context} {members : Table Json} {v : Json} :
    (requiredFaults (partsOf ctx members) .own v = [] ∧
        membersFaults (partsOf ctx members) v = []) ↔
      (¬ OverlooksRequired members → missingNames (requiredNames members) v = []) ∧
        MembersHold (partsOf ctx members) v := by
  rw [membersFaults_eq, List.append_eq_nil_iff, List.append_eq_nil_iff, memberFaults_eq_nil_iff,
    ← requiredPlace_eq_nowhere_iff]
  simp only [requiredFaults_eq_nil_iff, texts_required_partsOf]
  cases requiredPlace (partsOf ctx members) <;> simp [and_comm]

section Keywords

variable {ctx : Context} {members : Table Json} {v : Json}

theorem membersHold_partsOf_iff :
    MembersHold (partsOf ctx members) v ↔
      (∀ m ∈ membersOf v, ∀ w, (schemasByName members "properties").find? m.1 = some w →
        (meaning ctx w m.2).holds = true) ∧
      (∀ m ∈ membersOf v, ∀ p ∈ schemasByName members "patternProperties",
        matchesPattern p.1 m.1 = true → (meaning ctx p.2 m.2).holds = true) ∧
      ∀ m ∈ membersOf v, Undeclared members m.1 →
        ∀ w, members.find? "additionalProperties" = some w → (meaning ctx w m.2).holds = true := by
  have hiff : MembersHold (partsOf ctx members) v ↔ _ ∧ _ ∧ _ :=
    ⟨fun h => ⟨h.property, h.pattern, h.further⟩, fun h => ⟨h.1, h.2.1, h.2.2⟩⟩
  rw [hiff]
  simp only [isFurther_partsOf_iff, admits_partsOf_iff]
  refine and_congr ?_ (and_congr ?_ Iff.rfl)
  · simp only [lookup_named_partsOf, Option.map_eq_some_iff, forall_exists_index, and_imp,
      forall_apply_eq_imp_iff₂]
  · simp only [named_partsOf, List.forall_mem_map]

theorem nameFaults_eq_nil_iff :
    nameFaults (partsOf ctx members) v = [] ↔
      ∀ w, members.find? "propertyNames" = some w →
        ∀ m ∈ membersOf v, (meaning ctx w (.string m.1)).holds = true := by
  unfold nameFaults
  rw [find?_partsOf]
  rcases members.find? "propertyNames" with _ | w
  · simp
  · rcases w with _ | ⟨_ | _⟩ | _ | _ | _ | _ <;> rcases membersOf v with _ | ⟨m, rest⟩ <;>
      simp [partOf, meaning, Check.refuse, Report.holds, faultsOf_eq_nil_iff]

/-! ## The items of an array -/

/-- The one schema of all items, or of those behind the first ones. -/
def commonItem? (members : Table Json) : Option Json :=
  match members.find? "items" with
  | some (.array _) => none
  | o => o

/-- The schemas of the first items, by place. -/
def placedSchemas (dialect : Dialect) (members : Table Json) : List Json :=
  match dialect with
  | .draft2020 => schemasByPlace members "prefixItems"
  | _ => schemasByPlace members "items"

/-- How many items the schema of all items leaves to schemas of their own. -/
def leftOut (dialect : Dialect) (members : Table Json) : Nat :=
  if dialect = .draft2020 then (schemasByPlace members "prefixItems").length else 0

theorem commonItemCheck?_partsOf :
    commonItemCheck? (partsOf ctx members) = (commonItem? members).map (meaning ctx) := by
  unfold commonItemCheck? commonItem?
  rw [find?_partsOf]
  rcases members.find? "items" with _ | w
  · rfl
  · cases w <;> rfl

theorem itemSchemas_partsOf :
    itemSchemas ctx (partsOf ctx members) =
      (placedSchemas ctx.dialect members).map (meaning ctx) := by
  unfold itemSchemas placedSchemas
  cases ctx.dialect <;> exact listed_partsOf _ _ _

theorem itemFaults_eq_nil_iff :
    itemFaults ctx (partsOf ctx members) v = [] ↔
      (∀ w, commonItem? members = some w →
        ∀ x ∈ (itemsOf v).drop (leftOut ctx.dialect members), (meaning ctx w x).holds = true) ∧
      ∀ p ∈ (placedSchemas ctx.dialect members).zip (itemsOf v),
        (meaning ctx p.1 p.2).holds = true := by
  unfold itemFaults commonItemFaults placedFaults leftOut
  rw [List.append_eq_nil_iff, commonItemCheck?_partsOf, itemSchemas_partsOf, listed_partsOf,
    List.length_map]
  refine and_congr ?_ ?_
  · cases commonItem? members <;> simp [List.flatMap_eq_nil_iff, faultsOf_eq_nil_iff]
  · simp only [List.flatMap_eq_nil_iff, faultsOf_eq_nil_iff, List.zip_map_left, List.forall_mem_map,
      Prod.map_fst, Prod.map_snd, id]

/-- The schemas of items are given by place, in the way of the older dialects. -/
def listsItems (dialect : Dialect) (members : Table Json) : Prop :=
  dialect ≠ .draft2020 ∧ ∃ schemas, members.find? "items" = some (.array schemas)

theorem hasItemList_partsOf_iff :
    hasItemList ctx (partsOf ctx members) = true ↔ listsItems ctx.dialect members := by
  unfold hasItemList listsItems
  rw [value?_partsOf]
  rcases members.find? "items" with _ | w
  · cases ctx.dialect <;> simp
  · cases ctx.dialect <;> cases w <;> simp

theorem furtherItemFaults_eq_nil_iff :
    furtherItemFaults ctx (partsOf ctx members) v = [] ↔
      (listsItems ctx.dialect members → ∀ w, members.find? "additionalItems" = some w →
        ∀ x ∈ (itemsOf v).drop (schemasByPlace members "items").length,
          (meaning ctx w x).holds = true) := by
  unfold furtherItemFaults
  rw [find?_partsOf, listed_partsOf, List.length_map, ← hasItemList_partsOf_iff]
  generalize (itemsOf v).drop (schemasByPlace members "items").length = rest
  cases hasItemList ctx (partsOf ctx members)
  · simp
  · rcases members.find? "additionalItems" with _ | w
    · simp
    · rcases w with _ | ⟨_ | _⟩ | _ | _ | _ | _ <;> rcases rest with _ | ⟨x, rest⟩ <;>
        simp [partOf, meaning, Check.refuse, Report.holds, faultsOf_eq_nil_iff]

theorem containsFaults_eq_nil_iff :
    containsFaults ctx (partsOf ctx members) v = [] ↔
      ∀ w, members.find? "contains" = some w → ∀ items, v = .array items →
        containsEnough ctx (partsOf ctx members)
          (items.countP fun x => (meaning ctx w x).holds) = true := by
  unfold containsFaults
  rw [check?_partsOf]
  cases members.find? "contains" <;> cases v <;> simp

/-! ## Names that bring conditions with them -/

/-- What the presence of a name asks for is there: other names, or what a schema asks for. -/
def DependencyHolds (ctx : Context) (w v : Json) : Prop :=
  match w with
  | .array names => missingNames (Parts.textsOf (.array names)) v = []
  | w => (meaning ctx w v).holds = true

theorem dependencyFaults_eq_nil_iff :
    dependencyFaults (partsOf ctx members) v = [] ↔
      ∀ d ∈ schemasByName members "dependencies", Table.has (membersOf v) d.1 = true →
        DependencyHolds ctx d.2 v := by
  have hone : ∀ d : String × Json,
      (if Table.has (membersOf v) d.1 = true then
        match d.2 with
        | .array _ => missingNames (Parts.textsOf d.2) v
        | _ => faultsOf (meaning ctx d.2) v
      else []) = [] ↔ (Table.has (membersOf v) d.1 = true → DependencyHolds ctx d.2 v) := by
    rintro ⟨name, w⟩
    cases hname : Table.has (membersOf v) name
    · simp
    · cases w <;> simp [DependencyHolds, faultsOf_eq_nil_iff]
  unfold dependencyFaults
  rw [value?_partsOf, named_partsOf]
  rcases hd : members.find? "dependencies" with _ | w
  · simp [schemasByName, hd]
  · cases w with
    | object dependencies =>
      have hzip : dependencies.zip (dependencies.map fun m => (m.1, meaning ctx m.2)) =
          dependencies.map fun m => (m, (m.1, meaning ctx m.2)) := by
        simpa using List.zip_map' (f := id) (g := fun m : String × Json => (m.1, meaning ctx m.2))
          (l := dependencies)
      simp only [schemasByName, hd, hzip, List.flatMap_map, List.flatMap_eq_nil_iff]
      exact forall_congr' fun d => imp_congr_right fun _ => hone d
    | null | bool | number | string | array => simp [schemasByName, hd]

/-! ## Schemas of the same value -/

theorem dependent_faults_eq_nil_iff :
    allFaults (branches ctx (partsOf ctx members) v).dependent = [] ↔
      (ctx.isRecent = true → ∀ d ∈ schemasByName members "dependentSchemas",
        Table.has (membersOf v) d.1 = true → (meaning ctx d.2 v).holds = true) := by
  rw [allFaults_eq_nil_iff]
  unfold branches
  rw [named_partsOf]
  cases ctx.isRecent
  · simp
  · simp only [if_true, List.forall_mem_map, List.mem_filter, and_imp, forall_const]

theorem allOf_faults_eq_nil_iff :
    allFaults (branches ctx (partsOf ctx members) v).allOf = [] ↔
      ∀ w ∈ schemasByPlace members "allOf", (meaning ctx w v).holds = true := by
  rw [allFaults_eq_nil_iff]
  simp [branches]

theorem anyFaults_eq_nil_iff :
    anyFaults (partsOf ctx members) (branches ctx (partsOf ctx members) v) v = [] ↔
      (members.has "anyOf" = true →
        ∃ w ∈ schemasByPlace members "anyOf", (meaning ctx w v).holds = true) := by
  unfold anyFaults branches
  cases h : members.has "anyOf" <;> simp [h]

theorem oneFaults_eq_nil_iff :
    oneFaults (partsOf ctx members) (branches ctx (partsOf ctx members) v) v = [] ↔
      (members.has "oneOf" = true →
        (schemasByPlace members "oneOf").countP (fun w => (meaning ctx w v).holds) = 1) := by
  have hcount : ((branches ctx (partsOf ctx members) v).oneOf.countP (·.holds)) =
      (schemasByPlace members "oneOf").countP fun w => (meaning ctx w v).holds := by
    simp only [branches, listed_partsOf, List.countP_map, Function.comp_def]
  unfold oneFaults
  rw [has_partsOf, hcount]
  generalize List.countP _ _ = n
  cases members.has "oneOf"
  · simp
  · rcases n with _ | _ | n <;> simp

theorem notFaults_eq_nil_iff :
    notFaults (partsOf ctx members) v = [] ↔
      ∀ w, members.find? "not" = some w → (meaning ctx w v).holds = false := by
  unfold notFaults
  rw [find?_partsOf]
  cases members.find? "not" <;> simp [partOf]

/-- The keyword of the schema that a condition selects. -/
def selectedKey (ctx : Context) (condition v : Json) : String :=
  if (meaning ctx condition v).holds then "then" else "else"

theorem selected_faults_eq_nil_iff :
    allFaults (branches ctx (partsOf ctx members) v).selected.toList = [] ↔
      ∀ c, members.find? "if" = some c → ∀ w, members.find? (selectedKey ctx c v) = some w →
        (meaning ctx w v).holds = true := by
  rw [allFaults_eq_nil_iff]
  simp only [branches, check?_partsOf, Option.mem_toList]
  cases members.find? "if" <;> simp [selectedKey]

theorem referred_faults_eq_nil_iff :
    allFaults (branches ctx (partsOf ctx members) v).referred.toList = [] ↔
      ∀ r, members.find? "$ref" = some (.string r) → (ctx.resolve r v).holds = true := by
  rw [allFaults_eq_nil_iff]
  simp only [branches, Parts.text?, value?_partsOf, Option.mem_toList]
  rcases members.find? "$ref" with _ | w
  · simp
  · cases w <;> simp

/-! ## Parts that nobody looked at -/

/-- The report of a branch that counts for what was looked at as soon as it holds. -/
inductive CountsIfHolds (ctx : Context) (members : Table Json) (v : Json) : Report → Prop
  | allOf {w : Json} (h : w ∈ schemasByPlace members "allOf") :
      CountsIfHolds ctx members v (meaning ctx w v)
  | anyOf {w : Json} (h : w ∈ schemasByPlace members "anyOf") :
      CountsIfHolds ctx members v (meaning ctx w v)
  | dependent {d : String × Json} (hrecent : ctx.isRecent = true)
      (h : d ∈ schemasByName members "dependentSchemas") (hname : Table.has (membersOf v) d.1 = true) :
      CountsIfHolds ctx members v (meaning ctx d.2 v)
  | condition {w : Json} (h : members.find? "if" = some w) :
      CountsIfHolds ctx members v (meaning ctx w v)
  | referred {r : String} (h : members.find? "$ref" = some (.string r)) :
      CountsIfHolds ctx members v (ctx.resolve r v)

/-- The reports of the alternatives of which one is to hold. -/
def alternatives (ctx : Context) (members : Table Json) (v : Json) : List Report :=
  (schemasByPlace members "oneOf").map fun w => meaning ctx w v

theorem countsIfHolds_iff {r : Report} :
    CountsIfHolds ctx members v r ↔
      r ∈ (branches ctx (partsOf ctx members) v).allOf ∨
      r ∈ (branches ctx (partsOf ctx members) v).anyOf ∨
      r ∈ (branches ctx (partsOf ctx members) v).dependent ∨
      (branches ctx (partsOf ctx members) v).condition = some r ∨
      (branches ctx (partsOf ctx members) v).referred = some r := by
  have hdependent : r ∈ (branches ctx (partsOf ctx members) v).dependent ↔
      ctx.isRecent = true ∧ ∃ d ∈ schemasByName members "dependentSchemas",
        Table.has (membersOf v) d.1 = true ∧ meaning ctx d.2 v = r := by
    simp only [branches, named_partsOf]
    cases ctx.isRecent
    · simp
    · simp only [if_true, List.mem_map, List.mem_filter, true_and]
      constructor
      · rintro ⟨-, ⟨⟨d, hd, rfl⟩, hname⟩, hr⟩
        exact ⟨d, hd, hname, hr⟩
      · rintro ⟨d, hd, hname, hr⟩
        exact ⟨_, ⟨⟨d, hd, rfl⟩, hname⟩, hr⟩
  have hreferred : (branches ctx (partsOf ctx members) v).referred = some r ↔
      ∃ reference, members.find? "$ref" = some (.string reference) ∧ ctx.resolve reference v = r := by
    simp only [branches, Parts.text?, value?_partsOf]
    rcases members.find? "$ref" with _ | w
    · simp
    · cases w <;> simp
  rw [hdependent, hreferred]
  simp only [branches, listed_partsOf, check?_partsOf, List.map_map, List.mem_map, Function.comp_apply,
    Option.map_map, Option.map_eq_some_iff]
  constructor
  · rintro (hw | hw | ⟨hrecent, hd, hname⟩ | hw | hr)
    · exact .inl ⟨_, hw, rfl⟩
    · exact .inr (.inl ⟨_, hw, rfl⟩)
    · exact .inr (.inr (.inl ⟨hrecent, _, hd, hname, rfl⟩))
    · exact .inr (.inr (.inr (.inl ⟨_, hw, rfl⟩)))
    · exact .inr (.inr (.inr (.inr ⟨_, hr, rfl⟩)))
  · rintro (⟨w, hw, rfl⟩ | ⟨w, hw, rfl⟩ | ⟨hrecent, d, hd, hname, rfl⟩ | ⟨w, hw, rfl⟩ | ⟨r, hr, rfl⟩)
    · exact .allOf hw
    · exact .anyOf hw
    · exact .dependent hrecent hd hname
    · exact .condition hw
    · exact .referred hr

/-- The branches that count: those that hold, a sole alternative that holds, and what a condition
selects. -/
theorem mem_countedBranches_iff {r : Report} :
    r ∈ countedBranches (branches ctx (partsOf ctx members) v) ↔
      (CountsIfHolds ctx members v r ∧ r.holds = true) ∨
      (alternatives ctx members v).filter (·.holds) = [r] ∨
      ∃ c w, members.find? "if" = some c ∧ members.find? (selectedKey ctx c v) = some w ∧
        meaning ctx w v = r := by
  have hselected : (branches ctx (partsOf ctx members) v).selected = some r ↔
      ∃ c w, members.find? "if" = some c ∧ members.find? (selectedKey ctx c v) = some w ∧
        meaning ctx w v = r := by
    simp only [branches, check?_partsOf]
    cases members.find? "if" <;> simp [selectedKey]
  have hoptions : (branches ctx (partsOf ctx members) v).oneOf = alternatives ctx members v := by
    simp only [branches, alternatives, listed_partsOf, List.map_map, Function.comp_def]
  rw [countsIfHolds_iff, ← hselected, ← hoptions]
  simp only [countedBranches, List.mem_append, List.mem_filter, Option.mem_toList, or_assoc]
  refine or_congr_right (or_congr_left ?_)
  -- of the alternatives of a `oneOf`, the one that holds alone
  generalize (branches ctx (partsOf ctx members) v).oneOf.filter (·.holds) = holding
  rcases holding with _ | ⟨x, _ | ⟨y, rest⟩⟩ <;> simp [eq_comm]

/-- The names that a schema and its branches looked at. -/
def seenNames (ctx : Context) (ps : Parts) (v : Json) : List String :=
  ownNames ps v ++ (countedBranches (branches ctx ps v)).flatMap (·.names)

/-- The places that a schema and its branches looked at. -/
def seenPlaces (ctx : Context) (ps : Parts) (v : Json) : List Nat :=
  ownPlaces ctx ps v ++ (countedBranches (branches ctx ps v)).flatMap (·.places)

theorem unevaluatedNameFaults_eq_nil_iff {seen : List String} :
    unevaluatedNameFaults ctx (partsOf ctx members) seen v = [] ↔
      (ctx.isRecent = true → ∀ w, members.find? "unevaluatedProperties" = some w →
        ∀ m ∈ membersOf v, m.1 ∉ seen → (meaning ctx w m.2).holds = true) := by
  unfold unevaluatedNameFaults
  rw [check?_partsOf]
  cases ctx.isRecent
  · simp
  · rcases members.find? "unevaluatedProperties" with _ | w
    · simp
    · have hfilter : ((membersOf v).filter fun m => !seen.contains m.1 && !(meaning ctx w m.2).holds) =
          [] ↔ ∀ m ∈ membersOf v, m.1 ∉ seen → (meaning ctx w m.2).holds = true := by
        simp [List.filter_eq_nil_iff]
      simp only [Option.map_some, Option.some.injEq, forall_eq', forall_const, ← hfilter]
      cases (membersOf v).filter fun m => !seen.contains m.1 && !(meaning ctx w m.2).holds <;> simp

theorem unevaluatedItemFaults_eq_nil_iff {seen : List Nat} :
    unevaluatedItemFaults ctx (partsOf ctx members) seen v = [] ↔
      (ctx.isRecent = true → ∀ w, members.find? "unevaluatedItems" = some w →
        ∀ p ∈ (itemsOf v).zipIdx, p.2 ∉ seen → (meaning ctx w p.1).holds = true) := by
  unfold unevaluatedItemFaults
  rw [check?_partsOf]
  cases ctx.isRecent
  · simp
  · rcases members.find? "unevaluatedItems" with _ | w
    · simp
    · have hfilter :
          ((itemsOf v).zipIdx.filter fun p => !seen.contains p.2 && !(meaning ctx w p.1).holds) =
          [] ↔ ∀ p ∈ (itemsOf v).zipIdx, p.2 ∉ seen → (meaning ctx w p.1).holds = true := by
        simp [List.filter_eq_nil_iff]
      simp only [Option.map_some, Option.some.injEq, forall_eq', forall_const, ← hfilter]
      cases (itemsOf v).zipIdx.filter fun p => !seen.contains p.2 && !(meaning ctx w p.1).holds <;> simp

end Keywords

/-! ## A schema as a whole -/

/-- A value is as the keywords of a schema ask for. -/
structure Satisfies (ctx : Context) (members : Table Json) (v : Json) : Prop where
  assertions : assertionFaults ctx (partsOf ctx members) v = []
  required : ¬ OverlooksRequired members → missingNames (requiredNames members) v = []
  property : ∀ m ∈ membersOf v, ∀ w, (schemasByName members "properties").find? m.1 = some w →
    (meaning ctx w m.2).holds = true
  pattern : ∀ m ∈ membersOf v, ∀ p ∈ schemasByName members "patternProperties",
    matchesPattern p.1 m.1 = true → (meaning ctx p.2 m.2).holds = true
  further : ∀ m ∈ membersOf v, Undeclared members m.1 →
    ∀ w, members.find? "additionalProperties" = some w → (meaning ctx w m.2).holds = true
  names : ∀ w, members.find? "propertyNames" = some w →
    ∀ m ∈ membersOf v, (meaning ctx w (.string m.1)).holds = true
  commonItems : ∀ w, commonItem? members = some w →
    ∀ x ∈ (itemsOf v).drop (leftOut ctx.dialect members), (meaning ctx w x).holds = true
  placedItems : ∀ p ∈ (placedSchemas ctx.dialect members).zip (itemsOf v),
    (meaning ctx p.1 p.2).holds = true
  furtherItems : listsItems ctx.dialect members → ∀ w, members.find? "additionalItems" = some w →
    ∀ x ∈ (itemsOf v).drop (schemasByPlace members "items").length, (meaning ctx w x).holds = true
  contains : ∀ w, members.find? "contains" = some w → ∀ items, v = .array items →
    containsEnough ctx (partsOf ctx members) (items.countP fun x => (meaning ctx w x).holds) = true
  dependencies : ∀ d ∈ schemasByName members "dependencies",
    Table.has (membersOf v) d.1 = true → DependencyHolds ctx d.2 v
  dependent : ctx.isRecent = true → ∀ d ∈ schemasByName members "dependentSchemas",
    Table.has (membersOf v) d.1 = true → (meaning ctx d.2 v).holds = true
  allOf : ∀ w ∈ schemasByPlace members "allOf", (meaning ctx w v).holds = true
  anyOf : members.has "anyOf" = true →
    ∃ w ∈ schemasByPlace members "anyOf", (meaning ctx w v).holds = true
  oneOf : members.has "oneOf" = true →
    (schemasByPlace members "oneOf").countP (fun w => (meaning ctx w v).holds) = 1
  not : ∀ w, members.find? "not" = some w → (meaning ctx w v).holds = false
  selected : ∀ c, members.find? "if" = some c →
    ∀ w, members.find? (selectedKey ctx c v) = some w → (meaning ctx w v).holds = true
  unevaluatedNames : ctx.isRecent = true → ∀ w, members.find? "unevaluatedProperties" = some w →
    ∀ m ∈ membersOf v, m.1 ∉ seenNames ctx (partsOf ctx members) v → (meaning ctx w m.2).holds = true
  unevaluatedItems : ctx.isRecent = true → ∀ w, members.find? "unevaluatedItems" = some w →
    ∀ p ∈ (itemsOf v).zipIdx, p.2 ∉ seenPlaces ctx (partsOf ctx members) v →
      (meaning ctx w p.1).holds = true
  referred : ∀ r, members.find? "$ref" = some (.string r) → (ctx.resolve r v).holds = true

theorem violations_keywordsReport (ctx : Context) (ps : Parts) (v : Json) :
    (keywordsReport ctx ps v).violations =
      typeFaults ps v ++ constFaults ps v ++ enumFaults ps v ++ numberFaults ps v ++
      sizesFaults ps v ++ requiredFaults ps .own v ++ dependentNameFaults ctx ps v ++
      patternFaults ps v ++ formatFaults ctx.dialect ps v ++ uniqueFaults ps v ++
      membersFaults ps v ++ nameFaults ps v ++ itemFaults ctx ps v ++ furtherItemFaults ctx ps v ++
      containsFaults ctx ps v ++ dependencyFaults ps v ++ allFaults (branches ctx ps v).dependent ++
      allFaults (branches ctx ps v).allOf ++ anyFaults ps (branches ctx ps v) v ++
      oneFaults ps (branches ctx ps v) v ++ notFaults ps v ++
      allFaults (branches ctx ps v).selected.toList ++
      unevaluatedNameFaults ctx ps (seenNames ctx ps v) v ++
      unevaluatedItemFaults ctx ps (seenPlaces ctx ps v) v ++
      allFaults (branches ctx ps v).referred.toList := rfl

theorem names_keywordsReport (ctx : Context) (ps : Parts) (v : Json) :
    (keywordsReport ctx ps v).names =
      if ctx.isRecent && ps.has "unevaluatedProperties" then (membersOf v).map Prod.fst
      else seenNames ctx ps v := rfl

theorem places_keywordsReport (ctx : Context) (ps : Parts) (v : Json) :
    (keywordsReport ctx ps v).places =
      if ctx.isRecent && ps.has "unevaluatedItems" then List.range (itemsOf v).length
      else seenPlaces ctx ps v := rfl

/-- The report of a schema object has no violation exactly if the value is as the keywords ask. -/
theorem keywordsReport_holds_iff {ctx : Context} {members : Table Json} {v : Json} :
    (keywordsReport ctx (partsOf ctx members) v).holds = true ↔ Satisfies ctx members v := by
  rw [Report.holds_iff, violations_keywordsReport]
  simp only [List.append_eq_nil_iff, and_assoc]
  constructor
  · rintro ⟨htype, hconst, henum, hnumber, hsizes, hrequired, hdependentNames, hpattern, hformat,
      hunique, hmembers, hnames, hitems, hfurther, hcontains, hdependencies, hdependent, hallOf,
      hanyOf, honeOf, hnot, hselected, hunevaluatedNames, hunevaluatedItems, hreferred⟩
    have hassertions : assertionFaults ctx (partsOf ctx members) v = [] := by
      simp only [assertionFaults, List.append_eq_nil_iff, and_assoc]
      exact ⟨htype, hconst, henum, hnumber, hsizes, hdependentNames, hpattern, hformat, hunique⟩
    obtain ⟨hrequired, hmembers⟩ := members_and_required_iff.mp ⟨hrequired, hmembers⟩
    obtain ⟨hproperty, hpatterns, hadditional⟩ := membersHold_partsOf_iff.mp hmembers
    obtain ⟨hcommon, hplaced⟩ := itemFaults_eq_nil_iff.mp hitems
    exact {
      assertions := hassertions
      required := hrequired
      property := hproperty
      pattern := hpatterns
      further := hadditional
      names := nameFaults_eq_nil_iff.mp hnames
      commonItems := hcommon
      placedItems := hplaced
      furtherItems := furtherItemFaults_eq_nil_iff.mp hfurther
      contains := containsFaults_eq_nil_iff.mp hcontains
      dependencies := dependencyFaults_eq_nil_iff.mp hdependencies
      dependent := dependent_faults_eq_nil_iff.mp hdependent
      allOf := allOf_faults_eq_nil_iff.mp hallOf
      anyOf := anyFaults_eq_nil_iff.mp hanyOf
      oneOf := oneFaults_eq_nil_iff.mp honeOf
      not := notFaults_eq_nil_iff.mp hnot
      selected := selected_faults_eq_nil_iff.mp hselected
      unevaluatedNames := unevaluatedNameFaults_eq_nil_iff.mp hunevaluatedNames
      unevaluatedItems := unevaluatedItemFaults_eq_nil_iff.mp hunevaluatedItems
      referred := referred_faults_eq_nil_iff.mp hreferred }
  · intro h
    have hassertions := h.assertions
    simp only [assertionFaults, List.append_eq_nil_iff, and_assoc] at hassertions
    obtain ⟨htype, hconst, henum, hnumber, hsizes, hdependentNames, hpattern, hformat, hunique⟩ :=
      hassertions
    obtain ⟨hrequired, hmembers⟩ := members_and_required_iff.mpr
      ⟨h.required, membersHold_partsOf_iff.mpr ⟨h.property, h.pattern, h.further⟩⟩
    exact ⟨htype, hconst, henum, hnumber, hsizes, hrequired, hdependentNames, hpattern, hformat,
      hunique, hmembers, nameFaults_eq_nil_iff.mpr h.names,
      itemFaults_eq_nil_iff.mpr ⟨h.commonItems, h.placedItems⟩,
      furtherItemFaults_eq_nil_iff.mpr h.furtherItems, containsFaults_eq_nil_iff.mpr h.contains,
      dependencyFaults_eq_nil_iff.mpr h.dependencies, dependent_faults_eq_nil_iff.mpr h.dependent,
      allOf_faults_eq_nil_iff.mpr h.allOf, anyFaults_eq_nil_iff.mpr h.anyOf,
      oneFaults_eq_nil_iff.mpr h.oneOf, notFaults_eq_nil_iff.mpr h.not,
      selected_faults_eq_nil_iff.mpr h.selected,
      unevaluatedNameFaults_eq_nil_iff.mpr h.unevaluatedNames,
      unevaluatedItemFaults_eq_nil_iff.mpr h.unevaluatedItems,
      referred_faults_eq_nil_iff.mpr h.referred⟩

/-- In the oldest dialect nothing counts beside a reference. -/
theorem meaning_of_sole {ctx : Context} {members : Table Json} {r : String}
    (hdialect : ctx.dialect = .draft7) (hr : members.find? "$ref" = some (.string r)) (v : Json) :
    meaning ctx (.object members) v = ctx.resolve r v := by
  rw [meaning, objectReport, hdialect, text?_partsOf_iff.mpr hr]

theorem meaning_of_recent {ctx : Context} (hdialect : ctx.dialect ≠ .draft7) (members : Table Json)
    (v : Json) :
    meaning ctx (.object members) v = keywordsReport ctx (partsOf ctx members) v := by
  rw [meaning, objectReport]
  split
  · contradiction
  · rfl

theorem meaning_of_no_reference {ctx : Context} {members : Table Json}
    (hr : members.find? "$ref" = none) (v : Json) :
    meaning ctx (.object members) v = keywordsReport ctx (partsOf ctx members) v := by
  have htext : Parts.text? (partsOf ctx members) "$ref" = none := by
    rw [Parts.text?, value?_partsOf, hr]
  rw [meaning, objectReport, htext]
  cases ctx.dialect <;> rfl

end Schema

end GuardedCall
