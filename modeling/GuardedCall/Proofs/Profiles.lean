-- The law of extraction for profiles. What the document of profiles accepts decodes,
-- and the profile is written as a value that every boundary accepts and that decodes
-- to it again, strict boundaries included, so it passes any number of them.
import GuardedCall.Proofs.Compilation
import GuardedCall.Proofs.Extraction
import GuardedCall.Proofs.ObjectSchemas
import GuardedCall.Proofs.Records
import GuardedCall.Typed.Records
import Mathlib.Data.Set.List

namespace GuardedCall.Profiles

open GuardedCall.Boundary
open GuardedCall.Json (Written)
open GuardedCall.Schema
open GuardedCall.Typed

variable {σ : Type} {v : Json} {p : Profile}

/-! ## Reading and writing profiles -/

/-- The value has the parts of the profile under their names. Without a nickname there is `null` or
nothing. -/
structure Describes (v : Json) (p : Profile) : Prop where
  name : v.member? "name" = some (.string p.name)
  nickname : v.member? "nickname" = some (writeOptional Json.string p.nickname) ∨
    v.member? "nickname" = none ∧ p.nickname = none
  tags : v.member? "tags" = some (.array (p.tags.map Json.string))

/-- How a profile is written. -/
def written (p : Profile) : Json :=
  .object [("name", .string p.name), ("nickname", writeOptional Json.string p.nickname),
    ("tags", .array (p.tags.map Json.string))]

theorem exact_nickname : Exact (optional string) (writeOptional Json.string) :=
  exact_string.optional fun _ => nofun

theorem exact_tags : Exact (list string) fun tags => .array (tags.map Json.string) :=
  exact_string.list

theorem encode_profile (p : Profile) : profile.encode p = .ok (written p) := by
  show Profile.encode p = _
  unfold Profile.encode
  rw [exact_nickname.writes, exact_tags.writes]
  rfl

theorem describes_written (p : Profile) : Describes (written p) p := by
  constructor
  case name => rfl
  case nickname => exact .inl rfl
  case tags => rfl

/-- The fields of a profile side by side. -/
def slotsOf (s : Option String × Option (Option String) × Option (List String)) : Profile.Slots :=
  ⟨s.1, s.2.1, s.2.2⟩

/-- The profile of the fields, if those were given that must be there. -/
def profileOf (s : Profile.Slots) : Option Profile := do
  return ⟨← s.name, s.nickname.getD none, ← s.tags⟩

theorem profileOf_eq_some_iff {s : Profile.Slots} :
    profileOf s = some p ↔
      s.name = some p.name ∧ s.nickname.getD none = p.nickname ∧ s.tags = some p.tags := by
  obtain ⟨name, nickname, tags⟩ := s
  obtain ⟨name', nickname', tags'⟩ := p
  cases name <;> cases tags <;> simp [profileOf]

/-- Each field takes every member for itself. -/
theorem taken_profile (s : Option String × Option (Option String) × Option (List String))
    (m : String × Json) :
    taken (Profile.step .value) (slotsOf s) m =
      (sideBySide (give "name" string) (sideBySide (give "nickname" (optional string))
        (give "tags" (list string))) s m).map slotsOf := by
  obtain ⟨name, nickname, tags⟩ := s
  obtain ⟨key, v⟩ := m
  unfold taken Profile.step sideBySide slotsOf
  by_cases hname : key = "name"
  · subst hname
    have hnickname : "name" ≠ "nickname" := by decide
    have htags : "name" ≠ "tags" := by decide
    rw [if_pos rfl, toOption_put, give_of_ne hnickname, give_of_ne htags]
    cases give "name" string name ("name", v) <;> rfl
  · by_cases hnickname : key = "nickname"
    · subst hnickname
      have htags : "nickname" ≠ "tags" := by decide
      rw [if_neg hname, if_pos rfl, toOption_put, give_of_ne hname, give_of_ne htags]
      cases give "nickname" (optional string) nickname ("nickname", v) <;> rfl
    · by_cases htags : key = "tags"
      · subst htags
        rw [if_neg hname, if_neg hnickname, if_pos rfl, toOption_put, give_of_ne hname,
          give_of_ne hnickname]
        cases give "tags" (list string) tags ("tags", v) <;> rfl
      · rw [if_neg hname, if_neg hnickname, if_neg htags, skip_ofJson, give_of_ne hname,
          give_of_ne hnickname, give_of_ne htags]
        rfl

theorem toOption_decode_object {members : Table Json} (hsorted : Table.Sorted members) :
    (profile.decodeJson (.object members)).toOption =
      (filled string (members.find? "name") none).bind fun name =>
        (filled (optional string) (members.find? "nickname") none).bind fun nickname =>
          (filled (list string) (members.find? "tags") none).bind fun tags =>
            profileOf ⟨name, nickname, tags⟩ := by
  have hvisit : (profile.decodeJson (.object members)).toOption =
      (visit (Profile.step .value) {} (Written.membersOfJson members) none).toOption.bind
        profileOf := by
    show (visit (Profile.step .value) {} (Written.membersOfJson members) none >>= _).toOption = _
    rw [toOption_bind]
    congr
    funext s
    obtain ⟨name, nickname, tags⟩ := s
    cases name <;> cases tags <;> rfl
  have hparts : (visit (Profile.step .value) {} (Written.membersOfJson members) none).toOption =
      _ := toOption_visit_image taken_profile members (none, none, none)
  rw [hvisit, hparts, foldlM_sideBySide, foldlM_sideBySide, foldlM_give hsorted (by simp),
    foldlM_give hsorted (by simp), foldlM_give hsorted (by simp)]
  simp [Option.map_eq_bind, Option.bind_assoc, slotsOf]

/-- An object reads as the profile that it describes. -/
theorem decode_object_iff {members : Table Json} (hsorted : Table.Sorted members) :
    profile.decodeJson (.object members) = .ok p ↔ Describes (.object members) p := by
  rw [← toOption_eq_some_iff, toOption_decode_object hsorted]
  simp only [Option.bind_eq_some_iff, profileOf_eq_some_iff]
  constructor
  · rintro ⟨_, hname, nickname, hnickname, _, htags, rfl, hp, rfl⟩
    exact {
      name := exact_string.filled_iff.mp hname
      nickname := exact_nickname.filled_getD_iff.mp ⟨nickname, hnickname, hp⟩
      tags := exact_tags.filled_iff.mp htags }
  · rintro ⟨hname, hnickname, htags⟩
    obtain ⟨nickname, hnickname, hp⟩ := exact_nickname.filled_getD_iff.mpr hnickname
    exact ⟨_, exact_string.filled_iff.mpr hname, nickname, hnickname, _,
      exact_tags.filled_iff.mpr htags, rfl, hp, rfl⟩

/-! ## The document of profiles -/

def stringMembers : Table Json := [("type", .string "string")]

def nicknameMembers : Table Json := [("type", .array [.string "string", .string "null"])]

def tagsMembers : Table Json := [("items", .object stringMembers), ("type", .string "array")]

/-- The schemas of the fields. -/
def fieldSchemas : Table Json :=
  [("name", .object stringMembers), ("nickname", .object nicknameMembers),
    ("tags", .object tagsMembers)]

def profileMembers : Table Json :=
  [("properties", .object fieldSchemas), ("required", .array [.string "name", .string "tags"]),
    ("type", .string "object")]

/-- Profiles by a document. -/
def profiles : DocumentSchema Profile := ⟨.object profileMembers, profile⟩

section Document

variable {ctx : Context}

theorem string_holds_iff :
    (meaning ctx (.object stringMembers) v).holds = true ↔ ∃ s, v = .string s := by
  unfold stringMembers
  rw [typed_holds_iff]
  cases v <;> simp [allowedTypes, hasType]

theorem nickname_holds_iff :
    (meaning ctx (.object nicknameMembers) v).holds = true ↔
      ∃ nickname, v = writeOptional Json.string nickname := by
  have htypes : allowedTypes (.array [.string "string", .string "null"]) = ["null", "string"] := by
    decide
  unfold nicknameMembers
  rw [typed_holds_iff, htypes]
  cases v <;> simp [hasType, writeOptional, Option.exists]

/-- Only items that are strings are those of a list of strings. -/
theorem strings_iff {items : List Json} :
    (∀ x ∈ items, ∃ s, x = .string s) ↔ ∃ tags : List String, items = tags.map Json.string := by
  have hrange := Set.ext_iff.mp (Set.range_list_map Json.string) items
  simpa [eq_comm] using hrange.symm

theorem tags_holds_iff :
    (meaning ctx (.object tagsMembers) v).holds = true ↔
      ∃ tags : List String, v = .array (tags.map Json.string) := by
  have hkeys : ∀ m ∈ tagsMembers, m.1 ∈ structuralKeywords := by
    simp [tagsMembers, structuralKeywords]
  have htyped : OnlyTyped tagsMembers := by simp [OnlyTyped, tagsMembers, assertionKeywords]
  have hitself : Itself ctx tagsMembers v ↔ ∃ items, v = .array items := by
    rw [Itself, htyped.assertions_iff]
    cases v <;> simp [tagsMembers, allowedTypes, hasType, missingNames]
  have hinside : Inside (fun w x => (meaning ctx w x).holds = true) tagsMembers v ↔
      ∀ x ∈ itemsOf v, ∃ s, x = .string s := by
    constructor
    · intro h x hx
      exact string_holds_iff.mp (h.items _ rfl x hx)
    · intro h
      exact {
        property := fun m hm w hw => by cases hw
        further := fun m hm hnone w hw => by cases hw
        items := fun w hw x hx => by
          obtain rfl := Option.some.inj hw
          exact string_holds_iff.mpr (h x hx) }
  rw [structural_holds_iff hkeys (by simp [tagsMembers, isList]), hitself, hinside, strings_iff]
  constructor
  · rintro ⟨⟨items, rfl⟩, tags, htags⟩
    exact ⟨tags, congrArg Json.array htags⟩
  · rintro ⟨tags, rfl⟩
    exact ⟨⟨_, rfl⟩, tags, rfl⟩

theorem sorted_fieldSchemas : Table.Sorted fieldSchemas := .of_keys (by decide)

theorem keys_structural : ∀ m ∈ profileMembers, m.1 ∈ structuralKeywords := by
  simp [profileMembers, structuralKeywords]

/-- By itself the document asks for an object with a name and tags. -/
theorem itself_profile_iff :
    Itself ctx profileMembers v ↔ ∃ members : Table Json, v = .object members ∧
      (∃ x, members.find? "name" = some x) ∧ ∃ x, members.find? "tags" = some x := by
  have htyped : OnlyTyped profileMembers := by simp [OnlyTyped, profileMembers, assertionKeywords]
  have hnot : ¬ OverlooksRequired profileMembers := by
    rintro ⟨-, -, -, inner, hinner⟩
    cases hinner
  rw [Itself, htyped.assertions_iff, forall_prop_of_true hnot, missingNames_eq_nil_iff]
  cases v <;> simp [profileMembers, allowedTypes, hasType, requiredNames, Parts.textsOf, Table.has,
    Option.isSome_iff_exists]

/-- Inside an object it asks for each field that is there. -/
theorem inside_profile_iff {members : Table Json} (hsorted : members.Sorted) :
    Inside (fun w x => (meaning ctx w x).holds = true) profileMembers (.object members) ↔
      (∀ x, members.find? "name" = some x → ∃ name, x = .string name) ∧
      (∀ x, members.find? "nickname" = some x →
        ∃ nickname, x = writeOptional Json.string nickname) ∧
      ∀ x, members.find? "tags" = some x →
        ∃ tags : List String, x = .array (tags.map Json.string) := by
  have hfields := forall_property_iff sorted_fieldSchemas hsorted
    fun w x => (meaning ctx w x).holds = true
  simp only [fieldSchemas, List.forall_mem_cons, string_holds_iff, nickname_holds_iff,
    tags_holds_iff, List.not_mem_nil, false_imp_iff, implies_true, and_true] at hfields
  rw [← hfields]
  constructor
  · exact fun h => h.property
  · intro h
    exact {
      property := h
      further := fun m hm hnone w hw => by cases hw
      items := fun w hw => by cases hw }

theorem Describes.exists_members {p : Profile} (h : Describes v p) :
    ∃ members : Table Json, v = .object members := by
  cases v with
  | object members => exact ⟨members, rfl⟩
  | null | bool | number | string | array => cases h.name

/-- The document holds for the values that describe a profile. -/
theorem profile_holds_iff (hv : v.Valid) :
    (meaning ctx (.object profileMembers) v).holds = true ↔ ∃ p, Describes v p := by
  rw [structural_holds_iff keys_structural (by simp [profileMembers]), itself_profile_iff]
  constructor
  · rintro ⟨⟨members, rfl, ⟨x, hname⟩, y, htags⟩, hinside⟩
    obtain ⟨hstring, hoptional, hlist⟩ := (inside_profile_iff hv.1).mp hinside
    obtain ⟨name, rfl⟩ := hstring x hname
    obtain ⟨tags, rfl⟩ := hlist y htags
    cases hnickname : members.find? "nickname" with
    | none => exact ⟨⟨name, none, tags⟩, hname, .inr ⟨hnickname, rfl⟩, htags⟩
    | some z =>
      obtain ⟨nickname, rfl⟩ := hoptional z hnickname
      exact ⟨⟨name, nickname, tags⟩, hname, .inl hnickname, htags⟩
  · rintro ⟨p, h⟩
    obtain ⟨members, rfl⟩ := h.exists_members
    obtain ⟨hname, hnickname, htags⟩ := h
    refine ⟨⟨members, rfl, ⟨_, hname⟩, _, htags⟩, (inside_profile_iff hv.1).mpr ⟨?_, ?_, ?_⟩⟩
    · intro x hx
      exact ⟨p.name, Option.some.inj (hx.symm.trans hname)⟩
    · intro x hx
      rcases hnickname with hnickname | ⟨hnone, -⟩
      · exact ⟨p.nickname, Option.some.inj (hx.symm.trans hnickname)⟩
      · cases hx.symm.trans hnone
    · intro x hx
      exact ⟨p.tags, Option.some.inj (hx.symm.trans htags)⟩

/-! ## The closed document -/

theorem structural_profiles : Structural profiles.document := by
  have hstring : Structural (.object stringMembers) := structural_typed (isTypes_name _)
  have htags : Structural (.object tagsMembers) := by
    refine .object (by simp [structuralKeywords, tagsMembers])
      (by simp [tagsMembers, isTypes_name]) fun w hw => ?_
    cases hw <;> simp_all [tagsMembers]
  have hnickname : Structural (.object nicknameMembers) := structural_typed (.inr ⟨_, rfl⟩)
  refine .object keys_structural (by simp [profileMembers, isTypes_name]) fun w hw => ?_
  cases hw with
  | property h hm =>
    simp [profileMembers] at h
    subst h
    simp [fieldSchemas] at hm
    rcases hm with rfl | rfl | rfl
    all_goals assumption
  | further h => simp [profileMembers] at h
  | item h => simp [profileMembers] at h

theorem closed_string : Closed (.object stringMembers) v := closed_typed (isTypes_name _) rfl

theorem closed_nickname : Closed (.object nicknameMembers) v := closed_typed (.inr ⟨_, rfl⟩) rfl

theorem closed_tags : Closed (.object tagsMembers) v := by
  have hnot : ¬ IsObjectSchema tagsMembers := by
    rw [← isObjectSchema_iff (by simp [tagsMembers, isTypes_name])]
    decide
  refine (closed_iff_inside hnot).mpr ?_
  exact {
    property := fun m hm w hw => by cases hw
    further := fun m hm hnone w hw => by cases hw
    items := fun w hw x hx => by
      obtain rfl := Option.some.inj hw
      exact closed_string }

/-- The value has no other members than the fields of a profile. -/
def OnlyFields (v : Json) : Prop := ∀ m ∈ membersOf v, m.1 ∈ fieldSchemas.keys

theorem closed_profiles_iff : Closed profiles.document v ↔ OnlyFields v := by
  have hobject : IsObjectSchema profileMembers := .named rfl
  have hfields : ∀ p ∈ fieldSchemas, ∀ x, Closed p.2 x := by
    simp [fieldSchemas, closed_string, closed_nickname, closed_tags]
  have hinside : Inside Closed profileMembers v := {
    property := fun m hm w hw => hfields (m.1, w) (Table.mem_of_find? hw) m.2
    further := fun m hm hnone w hw => by cases hw
    items := fun w hw => by cases hw }
  have hdeclared : ∀ name, Table.has fieldSchemas name = true ↔ name ∈ fieldSchemas.keys := by
    simp [Table.has, Option.isSome_iff_exists, Table.mem_keys_iff]
  rw [profiles, closed_object_iff, and_iff_left hinside]
  constructor
  · intro h m hm
    exact (hdeclared m.1).mp (h hobject rfl m hm)
  · intro h _ _ m hm
    exact (hdeclared m.1).mpr (h m hm)

end Document

/-! ## What is accepted -/

set_option maxRecDepth 2048 in
theorem compile_profiles (dialect : Dialect) :
    compileDocument ⟨dialect, false⟩ profiles.document = .ok ⟨dialect, profiles.document⟩ := by
  cases dialect <;> rfl

/-- The document compiles under all settings. -/
theorem profiles_compile (config : SchemaConfig) :
    ∃ c, compileDocument config profiles.document = .ok c := by
  obtain ⟨dialect, strict⟩ := config
  cases strict with
  | false => exact ⟨_, compile_profiles dialect⟩
  | true =>
    have hcompile := StrictMode.compileDocument_eq_ok_iff.mp (compile_profiles dialect)
    exact ⟨_, StrictMode.compileDocument_eq_ok_iff.mpr (compile_close hcompile)⟩

/-- What describes a profile is accepted, in strict mode only with no other members. -/
theorem validate_profiles_iff (config : SchemaConfig) (hv : v.Valid) :
    (byDocument config).validate profiles v = .ok true ↔
      (∃ p, Describes v p) ∧ (config.strict = true → OnlyFields v) := by
  obtain ⟨dialect, strict⟩ := config
  rw [StrictMode.validate_eq_ok_iff, and_iff_right (profiles_compile _)]
  cases strict with
  | false => exact (profile_holds_iff hv).trans (and_iff_left (fun h => by cases h)).symm
  | true =>
    have hclosed : (judge dialect (close profiles.document) v).holds = true ↔
        (judge dialect profiles.document v).holds = true ∧ Closed profiles.document v :=
      @close_holds_iff ⟨dialect, resolver dialect (close profiles.document) _⟩
        ⟨dialect, resolver dialect profiles.document _⟩ rfl _ structural_profiles v
    refine hclosed.trans ?_
    rw [closed_profiles_iff, forall_prop_of_true rfl]
    exact and_congr_left fun _ => profile_holds_iff hv

/-! ## Profiles come back -/

theorem validItems_strings (tags : List String) : Json.ValidItems (tags.map Json.string) := by
  induction tags with
  | nil => trivial
  | cons tag rest ih => exact ⟨trivial, ih⟩

theorem valid_written (p : Profile) : (written p).Valid := by
  have hnickname : (writeOptional Json.string p.nickname).Valid := by
    cases p.nickname <;> trivial
  have hkeys : ["name", "nickname", "tags"].Pairwise (· < ·) := by decide
  exact ⟨.of_keys hkeys, trivial, hnickname, validItems_strings p.tags, trivial⟩

theorem onlyFields_written (p : Profile) : OnlyFields (written p) := by
  simp [OnlyFields, written, membersOf, fieldSchemas, Table.keys]

/-- A profile is written as a value that every boundary accepts. -/
theorem validate_written (config : SchemaConfig) (p : Profile) :
    (byDocument config).validate profiles (written p) = .ok true :=
  (validate_profiles_iff config (valid_written p)).mpr
    ⟨⟨p, describes_written p⟩, fun _ => onlyFields_written p⟩

theorem decode_of_describes (config : SchemaConfig) (hv : v.Valid) (h : Describes v p) :
    (byDocument config).decode profiles v = .ok p := by
  obtain ⟨members, rfl⟩ := h.exists_members
  exact Adapter.decode_eq_ok_iff.mpr ((decode_object_iff hv.1).mpr h)

/-- A method that gives back the profile that it gets. -/
def handOn (config : SchemaConfig) : Method DocumentSchema σ Profile Profile :=
  (byDocument config).method profiles profiles fun p s => (p, s)

/-- A value goes through one such method after another. -/
def passAll : List SchemaConfig → Json → Attempt σ MethodFault Json
  | [], v => pure v
  | config :: rest, v => do passAll rest (← (handOn config).callValue v)

/-- What is accepted as a profile comes back as the profile is written. -/
theorem ends_handOn {config : SchemaConfig} (hv : v.Valid) (hp : Describes v p)
    (haccepted : (byDocument config).validate profiles v = .ok true) (s : σ) :
    ((handOn config).callValue v).ends s = (.ok (written p), s) := by
  let d : Descriptor DocumentSchema Profile Profile := ⟨byDocument config, profiles, profiles⟩
  have hinput : (d.checkInput v : Attempt σ _ _).ends s = (.ok (), s) :=
    ends_check_accepted d profiles _ _ s haccepted
  have houtput : (d.checkOutput (written p) : Attempt σ _ _).ends s = (.ok (), s) :=
    ends_check_accepted d profiles _ _ s (validate_written config p)
  have hdecode : (d.decodeInput v : Attempt σ _ _) = pure p :=
    decodeInput_of_decode (decode_of_describes config hv hp)
  have hencode : (d.encodeOutput p : Attempt σ _ _) = pure (written p) :=
    encodeOutput_of_encode (encode_profile p)
  have hperform : ((handOn config).perform p : Attempt σ _ _) = pure p := rfl
  have hcall : (handOn config).callValue v =
      (do d.checkInput v; d.checkOutput (written p); return written p : Attempt σ _ _) := by
    show d.callValueWith (handOn config).perform v = _
    simp only [Descriptor.callValueWith, hdecode, hperform, hencode, pure_bind]
  rw [hcall, Attempt.ends_bind, hinput]
  show (d.checkOutput (written p) >>= fun _ => pure (written p)).ends s = _
  rw [Attempt.ends_bind, houtput]
  rfl

/-- However often it is handed on, a profile that was written stays as it is. -/
theorem ends_passAll (configs : List SchemaConfig) (p : Profile) (s : σ) :
    (passAll configs (written p)).ends s = (.ok (written p), s) := by
  induction configs with
  | nil => rfl
  | cons config rest ih =>
    rw [passAll, Attempt.ends_bind,
      ends_handOn (valid_written p) (describes_written p) (validate_written config p)]
    exact ih

/-- What is accepted as a profile decodes to the profile that it describes. The profile is written
as a value that is accepted under all settings, strict ones included, and that decodes to it again.
So the value passes any number of boundaries, and the written profile comes out. -/
theorem accepted_profiles_come_back (config : SchemaConfig) (hv : v.Valid)
    (haccepted : (byDocument config).validate profiles v = .ok true) :
    ∃ p w, Describes v p ∧ (byDocument config).decode profiles v = .ok p ∧
      (byDocument config).encode profiles p = .ok w ∧
      (∀ other : SchemaConfig, (byDocument other).validate profiles w = .ok true ∧
        (byDocument other).decode profiles w = .ok p) ∧
      ∀ (others : List SchemaConfig) (s : σ),
        (passAll (config :: others) v).ends s = (.ok w, s) := by
  obtain ⟨⟨p, hp⟩, -⟩ := (validate_profiles_iff config hv).mp haccepted
  refine ⟨p, written p, hp, decode_of_describes config hv hp, encode_profile p, fun other => ?_,
    fun others s => ?_⟩
  · exact ⟨validate_written other p,
      decode_of_describes other (valid_written p) (describes_written p)⟩
  · rw [passAll, Attempt.ends_bind, ends_handOn hv hp haccepted]
    exact ends_passAll others p s

/-- A profile without a nickname and with a further member. -/
def widerProfile : Json :=
  .object [("name", .string "ada"), ("tags", .array [.string "x"]), ("zip", Json.whole 1)]

set_option maxRecDepth 4096 in
/-- A further member is refused in strict mode, but not once the profile was handed on. -/
theorem widerProfile_comes_back :
    (byDocument ⟨.draft7, true⟩).validate profiles widerProfile = .ok false ∧
      (passAll [⟨.draft7, false⟩, ⟨.draft7, true⟩] widerProfile).ends () =
        (.ok (.object [("name", .string "ada"), ("nickname", .null),
          ("tags", .array [.string "x"])]), ()) := by
  have hone : (Json.whole 1).Valid := by
    show Number.FitsWord 1
    decide
  have hkeys : ["name", "tags", "zip"].Pairwise (· < ·) := by decide
  have hvalid : widerProfile.Valid :=
    ⟨.of_keys hkeys, trivial, ⟨trivial, trivial⟩, hone, trivial⟩
  have haccepted : (byDocument ⟨.draft7, false⟩).validate profiles widerProfile = .ok true := by rfl
  have hdecode : (byDocument ⟨.draft7, false⟩).decode profiles widerProfile =
      .ok ⟨"ada", none, ["x"]⟩ := by rfl
  obtain ⟨p, w, -, hp, hw, -, hpasses⟩ :=
    @accepted_profiles_come_back Unit widerProfile ⟨.draft7, false⟩ hvalid haccepted
  obtain rfl := Except.ok.inj (hp.symm.trans hdecode)
  obtain rfl := Except.ok.inj (hw.symm.trans (encode_profile _))
  exact ⟨by rfl, hpasses [⟨.draft7, true⟩] ()⟩

end GuardedCall.Profiles
