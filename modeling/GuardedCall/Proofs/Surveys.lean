-- Surveys of documents without references and patterns: nothing stops them, so
-- such a document that compiles does so closed as well.
import GuardedCall.Proofs.SchemaShape

namespace GuardedCall.Schema

open GuardedCall

variable {dialect : Dialect} {follow : String → List String → Survey}

/-! ## What stops no survey -/

/-- There is nothing in a schema, or in a list of schemas, that stops a survey. -/
def Passes (dialect : Dialect) (follow : String → List String → Survey) (w : Json) : Prop :=
  ∀ seen, survey dialect follow w seen = .ok seen

theorem surveyItems_of_passes {items : List Json} (h : ∀ w ∈ items, Passes dialect follow w)
    (seen : List String) : surveyItems dialect follow items seen = .ok seen := by
  induction items with
  | nil => rfl
  | cons w rest ih =>
    rw [surveyItems, h w List.mem_cons_self seen]
    exact ih fun x hx => h x (List.mem_cons_of_mem _ hx)

theorem surveyNamed_of_passes {schemas : List (String × Json)}
    (h : ∀ m ∈ schemas, Passes dialect follow m.2) (seen : List String) :
    surveyNamed dialect follow schemas seen = .ok seen := by
  induction schemas with
  | nil => rfl
  | cons head rest ih =>
    obtain ⟨name, w⟩ := head
    have hrest := ih fun m hm => h m (List.mem_cons_of_mem _ hm)
    rw [surveyNamed]
    split
    · exact hrest
    · rw [h _ List.mem_cons_self seen]
      exact hrest

/-- There is nothing under a keyword that stops a survey. -/
inductive KeywordPasses (dialect : Dialect) (follow : String → List String → Survey) :
    String → Json → Prop
  | nothing {key : String} (w : Json) (h : holding dialect key = .nothing) :
      KeywordPasses dialect follow key w
  | schemas {key : String} {w : Json} (h : holding dialect key = .schemas)
      (hw : Passes dialect follow w) : KeywordPasses dialect follow key w
  | named {key : String} {w : Json} (h : holding dialect key = .schemasByName)
      (hw : ∀ m ∈ membersOf w, Passes dialect follow m.2) : KeywordPasses dialect follow key w

theorem surveyMembers_of_passes {members : List (String × Json)}
    (h : ∀ m ∈ members, KeywordPasses dialect follow m.1 m.2) (seen : List String) :
    surveyMembers dialect follow members seen = .ok seen := by
  induction members with
  | nil => rfl
  | cons head rest ih =>
    obtain ⟨key, w⟩ := head
    have hrest := ih fun m hm => h m (List.mem_cons_of_mem _ hm)
    have hkey : KeywordPasses dialect follow key w := h _ List.mem_cons_self
    unfold surveyMembers
    cases hkey with
    | nothing hholding =>
      generalize holding dialect key = kind at hholding
      subst hholding
      exact hrest
    | schemas hholding hw =>
      generalize holding dialect key = kind at hholding
      subst hholding
      dsimp only
      rw [hw seen]
      exact hrest
    | named hholding hw =>
      generalize holding dialect key = kind at hholding
      subst hholding
      cases w with
      | object schemas =>
        have hschemas : surveyNamed dialect follow schemas seen = .ok seen :=
          surveyNamed_of_passes hw seen
        dsimp only
        rw [hschemas]
        exact hrest
      | null | bool | number | string | array => exact hrest

/-! ## Closed documents -/

theorem passes_bool (b : Bool) : Passes dialect follow (.bool b) := fun _ => rfl

theorem passes_close_array {schemas : List Json}
    (h : ∀ w ∈ schemas, Passes dialect follow (close w)) :
    Passes dialect follow (close (.array schemas)) := by
  intro seen
  rw [close, closeItems_eq_map, survey]
  refine surveyItems_of_passes (fun x hx => ?_) seen
  obtain ⟨y, hy, rfl⟩ := List.mem_map.mp hx
  exact h y hy

/-- What becomes of a table of schemas stops no survey if the closed schemas stop none. -/
theorem keywordPasses_closeTable {key : String} {w : Json} (hmap : key ∈ schemaMapKeywords)
    (hholding : holding dialect key = .schemasByName)
    (h : ∀ m ∈ membersOf w, Passes dialect follow (close m.2)) :
    KeywordPasses dialect follow key (closeValue key w) := by
  refine .named hholding fun m hm => ?_
  rw [closeValue_table hmap] at hm
  cases w with
  | object schemas =>
    obtain ⟨m', hm', rfl⟩ := mem_closeNamed hm
    exact h m' hm'
  | null | bool | number | string | array => cases hm

/-- A closed schema without a reference stops no survey if none of its keywords does. -/
theorem passes_close_object {members : Table Json} (hreference : members.find? "$ref" = none)
    (h : ∀ m ∈ members, KeywordPasses dialect follow m.1 (closeValue m.1 m.2)) :
    Passes dialect follow (close (.object members)) := by
  have hkeyword : ∀ m ∈ closeMembers members, KeywordPasses dialect follow m.1 m.2 := by
    intro m hm
    rcases mem_closeMembers hm with rfl | ⟨m', hm', rfl⟩
    · exact .schemas (by cases dialect <;> decide) (passes_bool false)
    · exact h m' hm'
  have hsole : soleReference? dialect (closeMembers members) = none := by
    have hclosed : (closeMembers members).find? "$ref" = none := by
      rw [find?_closeMembers_of_ne members (by decide), hreference, Option.map_none]
    unfold soleReference?
    rw [hclosed]
    cases dialect <;> rfl
  intro seen
  rw [close_object, survey, hsole]
  exact surveyMembers_of_passes hkeyword seen

/-- A document that compiles does so in strict mode, if nothing stops a survey of it closed. -/
theorem compile_strict_of_passes {document : Json} {c : Validator}
    (hpasses : ∀ follow, Passes dialect follow (close document))
    (h : compile ⟨dialect, false⟩ document = .ok c) :
    compile ⟨dialect, true⟩ document = .ok ⟨dialect, close document⟩ := by
  have hshape : shapeFault? dialect document = none := by
    unfold compile at h
    simp only [prepared, Bool.false_eq_true, if_false] at h
    split at h
    · cases h
    · assumption
  unfold compile
  simp only [prepared, if_true, shapeFault?_close hshape]
  rw [hpasses]
  rfl

end GuardedCall.Schema
