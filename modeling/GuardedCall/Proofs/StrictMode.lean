-- Where strict mode only tightens: what it closes stands nowhere that a
-- failing schema counts, and references lead to schemas, by place and not by
-- name.
import GuardedCall.Adapter.ByDocument
import GuardedCall.Attempt
import GuardedCall.Proofs.Tightening

namespace GuardedCall

namespace Schema

/-! ## References of a schema -/

/-- The reference that a member is, if it is one. -/
def referenceOf (key : String) : Json → List String
  | .string r => if key = "$ref" then [r] else []
  | _ => []

mutual

/-- The references inside a value. -/
def references : Json → List String
  | .object members => memberReferences members
  | .array items => itemReferences items
  | _ => []

/-- The references of the members. -/
def memberReferences : List (String × Json) → List String
  | [] => []
  | (key, v) :: rest =>
    referenceOf key v ++ references v ++ memberReferences rest

/-- The references of the items. -/
def itemReferences : List Json → List String
  | [] => []
  | v :: rest => references v ++ itemReferences rest

end

theorem mem_memberReferences {members : Table Json} {r : String}
    (h : members.find? "$ref" = some (.string r)) : r ∈ memberReferences members := by
  induction members with
  | nil => cases h
  | cons head rest ih =>
    obtain ⟨key, v⟩ := head
    rw [Table.find?_cons] at h
    rw [memberReferences]
    split at h
    · rename_i hkey
      obtain rfl := Option.some.inj h
      simp [referenceOf, hkey]
    · exact List.mem_append_right _ (ih h)

theorem keywordsReport_congr {dialect : Dialect} {resolve' resolve : String → Check} {ps : Parts}
    (h : ∀ r, ps.text? "$ref" = some r → resolve' r = resolve r) :
    keywordsReport ⟨dialect, resolve'⟩ ps = keywordsReport ⟨dialect, resolve⟩ ps := by
  funext v
  have hbranches : branches ⟨dialect, resolve'⟩ ps v = branches ⟨dialect, resolve⟩ ps v := by
    unfold branches
    cases hr : ps.text? "$ref" with
    | none => rfl
    | some r =>
      simp only [Option.map_some, h r hr]
      rfl
  unfold keywordsReport
  rw [hbranches]
  rfl

section Congruence

variable {dialect : Dialect} {resolve' resolve : String → Check}

mutual

/-- A schema means the same wherever its references do. -/
theorem meaning_congr : ∀ w : Json, (∀ r ∈ references w, resolve' r = resolve r) →
    meaning ⟨dialect, resolve'⟩ w = meaning ⟨dialect, resolve⟩ w
  | .null, _ | .bool true, _ | .bool false, _ | .number _, _ | .string _, _ | .array _, _ => by
    funext v
    simp only [meaning]
  | .object members, h => by
    have hparts := partsOf_congr members h
    have hresolve : ∀ r, Parts.text? (partsOf ⟨dialect, resolve⟩ members) "$ref" = some r →
        resolve' r = resolve r := fun r hr => h r (mem_memberReferences (text?_partsOf_iff.mp hr))
    funext v
    simp only [meaning, hparts, objectReport, keywordsReport_congr hresolve]
    split
    · rename_i hr
      rw [hresolve _ hr]
    · rfl

theorem partsOf_congr : ∀ members : List (String × Json),
    (∀ r ∈ memberReferences members, resolve' r = resolve r) →
    partsOf ⟨dialect, resolve'⟩ members = partsOf ⟨dialect, resolve⟩ members
  | [], _ => rfl
  | (key, w) :: rest, h => by
    rw [memberReferences] at h
    have hw : ∀ r ∈ references w, resolve' r = resolve r := fun r hr =>
      h r (List.mem_append_left _ (List.mem_append_right _ hr))
    have hrest := partsOf_congr rest fun r hr => h r (List.mem_append_right _ hr)
    rw [partsOf, partsOf, meaning_congr w hw, namedIn_congr w hw, listedIn_congr w hw, hrest]

theorem namedIn_congr : ∀ w : Json, (∀ r ∈ references w, resolve' r = resolve r) →
    namedIn ⟨dialect, resolve'⟩ w = namedIn ⟨dialect, resolve⟩ w
  | .null, _ | .bool _, _ | .number _, _ | .string _, _ | .array _, _ => rfl
  | .object members, h => namedChecks_congr members h

theorem listedIn_congr : ∀ w : Json, (∀ r ∈ references w, resolve' r = resolve r) →
    listedIn ⟨dialect, resolve'⟩ w = listedIn ⟨dialect, resolve⟩ w
  | .null, _ | .bool _, _ | .number _, _ | .string _, _ | .object _, _ => rfl
  | .array items, h => listedChecks_congr items h

theorem namedChecks_congr : ∀ schemas : List (String × Json),
    (∀ r ∈ memberReferences schemas, resolve' r = resolve r) →
    namedChecks ⟨dialect, resolve'⟩ schemas = namedChecks ⟨dialect, resolve⟩ schemas
  | [], _ => rfl
  | (name, w) :: rest, h => by
    rw [memberReferences] at h
    have hw := meaning_congr w fun r hr =>
      h r (List.mem_append_left _ (List.mem_append_right _ hr))
    have hrest := namedChecks_congr rest fun r hr => h r (List.mem_append_right _ hr)
    rw [namedChecks, namedChecks, hw, hrest]

theorem listedChecks_congr : ∀ schemas : List Json,
    (∀ r ∈ itemReferences schemas, resolve' r = resolve r) →
    listedChecks ⟨dialect, resolve'⟩ schemas = listedChecks ⟨dialect, resolve⟩ schemas
  | [], _ => rfl
  | w :: rest, h => by
    rw [itemReferences] at h
    have hw := meaning_congr w fun r hr => h r (List.mem_append_left _ hr)
    have hrest := listedChecks_congr rest fun r hr => h r (List.mem_append_right _ hr)
    rw [listedChecks, listedChecks, hw, hrest]

end

end Congruence

/-! ## What closing leaves alone -/

/-- A reference that the meaning of a schema may follow, directly or from what others lead to. -/
inductive Linked (root : Json) : Json → String → Prop
  | here {w : Json} {r : String} (h : r ∈ references w) : Linked root w r
  | there {w target : Json} {r s : String} (h : r ∈ references w) (ht : target? root r = some target)
      (hs : Linked root target s) : Linked root w s

/-- Closing the document changes nothing in a schema nor in anything that it refers to. -/
structure Untouched (root w : Json) : Prop where
  schema : close w = w
  target : ∀ r, Linked root w r → target? (close root) r = target? root r

theorem Untouched.meaning_eq {dialect : Dialect} {root w : Json}
    (h : ∀ r, Linked root w r → target? (close root) r = target? root r) (n : Nat) :
    meaning ⟨dialect, resolver dialect (close root) n⟩ w =
      meaning ⟨dialect, resolver dialect root n⟩ w := by
  induction n generalizing w with
  | zero => exact meaning_congr w fun r _ => rfl
  | succ n ih =>
    refine meaning_congr w fun r hr => ?_
    funext v
    rw [resolver, resolver, h r (.here hr)]
    cases ht : target? root r with
    | none => rfl
    | some target => exact congrFun (ih fun s hs => h s (.there hr ht hs)) v

/-! ## Schemas that a document comes to -/

/-- A part of a document that is applied as a schema. -/
inductive Reached (root : Json) : Json → Prop
  | root : Reached root root
  | applied {members : Table Json} {w : Json} (h : Reached root (.object members))
      (hw : Applies members w) : Reached root w
  | referred {members : Table Json} {r : String} {w : Json} (h : Reached root (.object members))
      (hr : members.find? "$ref" = some (.string r)) (hw : target? root r = some w) : Reached root w

/-! ## References by place -/

mutual

/-- The members of the objects inside a value, at any depth. -/
def allMembers : Json → List (String × Json)
  | .object members => membersInside members
  | .array items => membersInItems items
  | _ => []

/-- The members, each with those inside it. -/
def membersInside : List (String × Json) → List (String × Json)
  | [] => []
  | (key, v) :: rest => (key, v) :: (allMembers v ++ membersInside rest)

def membersInItems : List Json → List (String × Json)
  | [] => []
  | v :: rest => allMembers v ++ membersInItems rest

end

/-- The keywords that give a schema a name, and those that refer to a schema by its name. -/
def namingKeywords : List String :=
  ["$anchor", "$dynamicAnchor", "$dynamicRef", "$id", "$recursiveAnchor", "$recursiveRef"]

/-- A reference to the whole document, or to what the steps of a pointer lead to. -/
def IsPointer (r : String) : Prop := r = "#" ∨ "#/".toList <+: r.toList

/-- Schemas have no names, and references go by place. Only so does a reference lead where the
standard has it lead. -/
structure ReferredByPlace (root : Json) : Prop where
  /-- An object under such a key is not the value of the keyword: it is the schema of a property
  that has this name. -/
  unnamed : ∀ m ∈ allMembers root, m.1 ∈ namingKeywords → ∃ members, m.2 = .object members
  pointers : ∀ r ∈ references root, IsPointer r

/-! ## Documents that close one way -/

/-- A document whose references go by place. Closing it touches nothing of which it counts that a
value does not hold for it, and references to schemas still lead there. -/
structure ClosesOneWay (dialect : Dialect) (root : Json) : Prop where
  byPlace : ReferredByPlace root
  settled : ∀ members : Table Json, Reached root (.object members) →
    ∀ w, TwoSided dialect members w → Untouched root w
  referred : ∀ members : Table Json, Reached root (.object members) →
    ∀ r, members.find? "$ref" = some (.string r) → ∀ w, target? root r = some w →
      ∃ f, Fate f ∧ target? (close root) r = some (f w)

theorem depth_le_items {items : List Json} {w : Json} (h : w ∈ items) :
    w.depth ≤ Json.depthItems items := by
  induction items with
  | nil => cases h
  | cons x rest ih =>
    rw [Json.depthItems]
    rcases List.mem_cons.mp h with rfl | h
    · exact Nat.le_max_left _ _
    · exact Nat.le_trans (ih h) (Nat.le_max_right _ _)

theorem depth_le_members {members : List (String × Json)} {m : String × Json} (h : m ∈ members) :
    m.2.depth ≤ Json.depthMembers members := by
  induction members with
  | nil => cases h
  | cons head rest ih =>
    obtain ⟨key, x⟩ := head
    rw [Json.depthMembers]
    rcases List.mem_cons.mp h with rfl | h
    · exact Nat.le_max_left _ _
    · exact Nat.le_trans (ih h) (Nat.le_max_right _ _)

theorem depth_le_of_mem_itemsOf {v w : Json} (h : w ∈ itemsOf v) : w.depth ≤ v.depth := by
  cases v with
  | array items => exact Nat.le_succ_of_le (depth_le_items h)
  | null | bool | number | string | object => cases h

theorem depth_le_of_mem_membersOf {v : Json} {m : String × Json} (h : m ∈ membersOf v) :
    m.2.depth ≤ v.depth := by
  cases v with
  | object members => exact Nat.le_succ_of_le (depth_le_members h)
  | null | bool | number | string | array => cases h

/-- Schemas lie deeper than the schema that applies them. -/
theorem Applies.depth_lt {members : Table Json} {w : Json} (h : Applies members w) :
    w.depth < (Json.object members).depth := by
  obtain ⟨m, hm, ⟨-, hw⟩ | ⟨-, n, hn, rfl⟩⟩ := h.exists_member
  all_goals
    rw [Json.depth, Nat.lt_succ_iff]
    refine Nat.le_trans ?_ (depth_le_members hm)
  · rcases hw with rfl | hw
    · exact Nat.le_refl _
    · exact depth_le_of_mem_itemsOf hw
  · exact depth_le_of_mem_membersOf hn

section Documents

variable {dialect : Dialect} {root : Json}

/-- With references that are followed one step less, every schema says no less. -/
theorem tightens_of_referred (hroot : ClosesOneWay dialect root) {n : Nat}
    (hreferred : ∀ members : Table Json, Reached root (.object members) →
      ∀ r, members.find? "$ref" = some (.string r) → ∀ v,
        Tighter (resolver dialect (close root) n r v) (resolver dialect root n r v))
    (w : Json) (hw : Reached root w) (f : Json → Json) (hf : Fate f) :
    Tightens ⟨dialect, resolver dialect (close root) n⟩ ⟨dialect, resolver dialect root n⟩ (f w) w := by
  -- By the depth of the schema: those under it lie deeper.
  induction hdepth : w.depth using Nat.strongRecOn generalizing w f with
  | ind d ih =>
    subst hdepth
    cases w with
    | object members =>
      refine tightens_object hf fun members' hwent => ?_
      exact {
        dialect := rfl
        fate := hf
        went := hwent
        inside := fun w happlies g hg =>
          ih w.depth happlies.depth_lt w (.applied hw happlies) g hg rfl
        settled := fun w htwo => by
          have huntouched := hroot.settled members hw w htwo
          rw [hf.eq_of_close huntouched.schema]
          exact Untouched.meaning_eq huntouched.target n
        referred := hreferred members hw }
    | null | bool | number | string | array => exact tightens_other hf (by simp)

/-- However far references are followed, every schema that the document comes to says no less. -/
theorem tightens_resolver (hroot : ClosesOneWay dialect root) (n : Nat) {w : Json}
    (hw : Reached root w) {f : Json → Json} (hf : Fate f) :
    Tightens ⟨dialect, resolver dialect (close root) n⟩ ⟨dialect, resolver dialect root n⟩ (f w) w := by
  induction n generalizing w f with
  | zero => exact tightens_of_referred hroot (fun _ _ _ _ _ => .refl _) w hw f hf
  | succ n ih =>
    refine tightens_of_referred hroot ?_ w hw f hf
    intro members hmembers r hr v
    rw [resolver, resolver]
    cases ht : target? root r with
    | none =>
      have hpart := keptPart_target? root r
      rw [ht] at hpart
      generalize target? (close root) r = target' at hpart
      cases hpart with
      | missing => exact .refl _
      | refusing => exact tighter_of_fails rfl
    | some target =>
      obtain ⟨g, hg, ht'⟩ := hroot.referred members hmembers r hr target ht
      rw [ht']
      exact ih (.referred hmembers hr ht) hg v

/-- A closed document says no less of a value than the document. -/
theorem tighter_judge (hroot : ClosesOneWay dialect root) (v : Json) :
    Tighter (judge dialect (close root) v) (judge dialect root v) := by
  rw [judge, judge, referenceBound_close]
  exact tightens_resolver hroot _ .root .closed v

end Documents

/-! ## Compiled documents -/

theorem compile_eq_ok {config : SchemaConfig} {document : Json} {c : Validator}
    (h : compile config document = .ok c) : c = ⟨config.dialect, prepared config document⟩ := by
  unfold compile at h
  dsimp only at h
  split at h
  · cases h
  · rename_i hshape
    generalize survey _ _ _ _ = surveyed at h
    cases surveyed with
    | error fault => cases h
    | ok seen => exact (Except.ok.inj h).symm

end Schema

namespace StrictMode

open Schema

variable {α : Type}

theorem compileDocument_eq_ok_iff {config : SchemaConfig} {document : Json} {c : Validator} :
    compileDocument config document = .ok c ↔ compile config document = .ok c := by
  unfold compileDocument
  cases compile config document <;> simp

/-- A value is accepted exactly if the document compiles and has nothing against it. -/
theorem validate_eq_ok_iff {config : SchemaConfig} {s : DocumentSchema α} {v : Json} {b : Bool} :
    (byDocument config).validate s v = .ok b ↔
      (∃ c, compileDocument config s.document = .ok c) ∧
        (judge config.dialect (prepared config s.document) v).holds = b := by
  have hvalidate : (byDocument config).validate s v =
      (compileDocument config s.document).map (·.accepts v) := rfl
  rw [hvalidate]
  unfold compileDocument
  cases hc : compile config s.document with
  | error fault => simp [Except.map]
  | ok c =>
    obtain rfl := compile_eq_ok hc
    simp [Except.map, Validator.accepts, Validator.violations, Report.holds]

/-- Strict mode only tightens, where references go by place and closing touches nothing of which it
counts that a value does not hold for it: a value accepted in strict mode is accepted without it. -/
theorem strict_mode_only_tightens (dialect : Dialect) (s : DocumentSchema α) (v : Json)
    (hcloses : ClosesOneWay dialect s.document)
    (hcompiles : ∃ c, compileDocument ⟨dialect, false⟩ s.document = .ok c)
    (hstrict : (byDocument ⟨dialect, true⟩).validate s v = .ok true) :
    (byDocument ⟨dialect, false⟩).validate s v = .ok true := by
  obtain ⟨-, hholds⟩ := validate_eq_ok_iff.mp hstrict
  exact validate_eq_ok_iff.mpr ⟨hcompiles, (tighter_judge hcloses v).holds hholds⟩

/-- An object with members of its own kind, and with one that may not be null. -/
def chain : DocumentSchema Json where
  document := .object [
    ("properties", .object [
      ("next", .object [("$ref", .string "#")]),
      ("value", .object [("not", .object [("type", .string "null")])])]),
    ("type", .string "object")]
  codec := Typed.json

theorem reached_chain {w : Json} (h : Reached chain.document w) :
    w = chain.document ∨ w = .object [("$ref", .string "#")] ∨
      w = .object [("not", .object [("type", .string "null")])] ∨
      w = .object [("type", .string "null")] := by
  induction h with
  | root => exact .inl rfl
  | applied h hw ih =>
    have hmember := hw.exists_member
    rcases ih with h | h | h | h <;> cases h <;>
      simp [schemaKeywords, namedKeywords, membersOf, itemsOf] at hmember
    · obtain ⟨-, ⟨-, rfl⟩ | ⟨-, rfl⟩⟩ := hmember <;> simp
    · simp [hmember]
  | referred h hr hw ih =>
    rcases ih with h | h | h | h <;> cases h <;> simp at hr
    subst hr
    exact .inl (Option.some.inj hw).symm

theorem chain_referredByPlace : ReferredByPlace chain.document where
  unnamed m hm hname := by
    have hkeys : ∀ key ∈ (allMembers chain.document).map Prod.fst, key ∉ namingKeywords := by
      decide
    exact absurd hname (hkeys m.1 (List.mem_map_of_mem hm))
  pointers r hr := .inl (List.mem_singleton.mp hr)

theorem chain_closesOneWay (dialect : Dialect) : ClosesOneWay dialect chain.document where
  byPlace := chain_referredByPlace
  settled members hmembers w hw := by
    have hkind : w = .object [("type", .string "null")] := by
      rcases reached_chain hmembers with h | h | h | h <;> cases h <;> cases hw <;>
        simp_all [schemasByPlace, Table.has]
    subst hkind
    refine ⟨rfl, fun r hr => ?_⟩
    cases hr <;> contradiction
  referred members hmembers r hr w hw := by
    have hroot : r = "#" := by
      rcases reached_chain hmembers with h | h | h | h <;> cases h <;> simp_all
    subst hroot
    obtain rfl := Option.some.inj hw
    exact ⟨close, .closed, rfl⟩

set_option maxRecDepth 2048 in
/-- A chain of two objects is accepted in strict mode, and so it is without it. -/
theorem chain_accepted :
    (byDocument ⟨.draft7, false⟩).validate chain
      (.object [("next", .object [("value", Json.whole 2)]), ("value", Json.whole 1)]) = .ok true := by
  have hcompiles : compileDocument ⟨.draft7, false⟩ chain.document = .ok ⟨.draft7, chain.document⟩ := by
    rfl
  refine strict_mode_only_tightens .draft7 chain _ (chain_closesOneWay .draft7) ⟨_, hcompiles⟩ ?_
  rfl

/-- An object that has two members and may not have both. -/
def notBoth : DocumentSchema Json where
  document := .object [
    ("not", .object [("required", .array [.string "a", .string "b"])]),
    ("properties", .object [("a", .object []), ("b", .object [])]),
    ("type", .string "object")]
  codec := Typed.json

def both : Json := .object [("a", Json.whole 1), ("b", Json.whole 2)]

/-- Below a negation closing loosens: both members are declared, and only strict mode lets them
pass. -/
theorem notBoth_accepted_only_strict :
    (byDocument ⟨.draft7, true⟩).validate notBoth both = .ok true ∧
      (byDocument ⟨.draft7, false⟩).validate notBoth both = .ok false := by
  constructor <;> rfl

end StrictMode

end GuardedCall
