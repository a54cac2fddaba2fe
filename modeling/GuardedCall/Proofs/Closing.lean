-- What closing does to a document, place by place: under a keyword for schemas
-- the schemas are closed, every other member stays, and an open object schema
-- refuses further members. Depth, references and what a pointer leads to stay.
import GuardedCall.Schema.Validator

namespace GuardedCall

namespace Schema

/-! ## Members -/

/-- What becomes of a table of schemas. -/
def closeTable : Json → Json
  | .object schemas => .object (closeNamed schemas)
  | v => v

/-- What becomes of the value of a keyword. -/
def closeValue (key : String) : Json → Json :=
  if key ∈ schemaMapKeywords then closeTable else if key ∈ schemaKeywords then close else id

theorem closeValue_table {key : String} (h : key ∈ schemaMapKeywords) : closeValue key = closeTable :=
  if_pos h

theorem not_schemaMap_of_schema : ∀ key ∈ schemaKeywords, key ∉ schemaMapKeywords := by
  decide

theorem closeValue_schema {key : String} (h : key ∈ schemaKeywords) : closeValue key = close := by
  rw [closeValue, if_neg (not_schemaMap_of_schema key h), if_pos h]

theorem closeValue_other {key : String} (hmap : key ∉ schemaMapKeywords) (h : key ∉ schemaKeywords) :
    closeValue key = id := by
  rw [closeValue, if_neg hmap, if_neg h]

/-- What becomes of the members of a schema. -/
def closeMembers (members : Table Json) : Table Json :=
  if isOpen members then
    Table.insert (closeInside members) "additionalProperties" (.bool false)
  else closeInside members

theorem close_object (members : List (String × Json)) :
    close (.object members) = .object (closeMembers members) := by
  rw [close]
  rfl

theorem closeItems_eq_map (items : List Json) : closeItems items = items.map close := by
  induction items with
  | nil => rfl
  | cons v rest ih => rw [closeItems, ih, List.map_cons]

theorem closeNamed_eq_map (schemas : List (String × Json)) :
    closeNamed schemas = schemas.map fun m => (m.1, close m.2) := by
  induction schemas with
  | nil => rfl
  | cons head rest ih =>
    obtain ⟨name, v⟩ := head
    rw [closeNamed, ih, List.map_cons]

theorem closeInside_eq_map (members : List (String × Json)) :
    closeInside members = members.map fun m => (m.1, closeValue m.1 m.2) := by
  induction members with
  | nil => rfl
  | cons head rest ih =>
    obtain ⟨key, v⟩ := head
    by_cases hmap : key ∈ schemaMapKeywords
    · cases v <;> simp [closeInside, closeValue_table hmap, closeTable, hmap, ih]
    · by_cases hschema : key ∈ schemaKeywords
      · cases v <;> simp [closeInside, closeValue_schema hschema, hmap, hschema, ih]
      · cases v <;> simp [closeInside, closeValue_other hmap hschema, hmap, hschema, ih]

theorem find?_closeInside (members : Table Json) (key : String) :
    Table.find? (closeInside members) key = (members.find? key).map (closeValue key) := by
  rw [closeInside_eq_map, Table.find?_map]

theorem find?_closeNamed (schemas : Table Json) (name : String) :
    Table.find? (closeNamed schemas) name = (schemas.find? name).map close := by
  rw [closeNamed_eq_map]
  exact Table.find?_map (fun _ => close) schemas name

theorem additional_of_isOpen {members : Table Json} (h : isOpen members = true) :
    members.find? "additionalProperties" = none := by
  simp only [isOpen, Table.has, Bool.and_eq_true, Bool.not_eq_true', Option.isSome_eq_false_iff,
    Option.isNone_iff_eq_none] at h
  exact h.2

/-- Closing looks at every keyword by itself. -/
theorem find?_closeMembers_of_ne (members : Table Json) {key : String}
    (h : key ≠ "additionalProperties") :
    (closeMembers members).find? key = (members.find? key).map (closeValue key) := by
  unfold closeMembers
  split
  · rw [Table.find?_insert_of_ne _ _ h, find?_closeInside]
  · exact find?_closeInside members key

theorem find?_closeMembers_additional (members : Table Json) :
    (closeMembers members).find? "additionalProperties" =
      if isOpen members then some (.bool false)
      else (members.find? "additionalProperties").map (closeValue "additionalProperties") := by
  unfold closeMembers
  split
  · exact Table.find?_insert_self _ _ _
  · exact find?_closeInside members _

/-- A member of a closed schema was there, or refuses further members. -/
theorem mem_closeMembers {members : Table Json} {m : String × Json} (h : m ∈ closeMembers members) :
    m = ("additionalProperties", .bool false) ∨
      ∃ m' ∈ members, m = (m'.1, closeValue m'.1 m'.2) := by
  have hinside : m ∈ closeInside members → ∃ m' ∈ members, m = (m'.1, closeValue m'.1 m'.2) := by
    intro h
    rw [closeInside_eq_map] at h
    obtain ⟨m', hm', rfl⟩ := List.mem_map.mp h
    exact ⟨m', hm', rfl⟩
  unfold closeMembers at h
  split at h
  · exact (Table.mem_insert h).imp_right hinside
  · exact .inr (hinside h)

/-! ## Keeping a place -/

/-- What closing makes of a part of a document: it stays, or it is closed as a schema or as a table
of schemas. -/
inductive Kept : Json → Json → Prop
  | same (v : Json) : Kept v v
  | closed (v : Json) : Kept (close v) v
  | table (schemas : List (String × Json)) : Kept (.object (closeNamed schemas)) (.object schemas)

theorem kept_closeValue (key : String) (v : Json) : Kept (closeValue key v) v := by
  unfold closeValue
  split
  · cases v with
    | object schemas => exact .table schemas
    | null | bool | number | string | array => exact .same _
  · split
    · exact .closed v
    · exact .same v

/-- One part of a document before and after: it is kept, or it was not there and refuses
everything. -/
inductive KeptPart : Option Json → Option Json → Prop
  | missing : KeptPart none none
  | refusing : KeptPart (some (.bool false)) none
  | kept {v' v : Json} (h : Kept v' v) : KeptPart (some v') (some v)

theorem keptPart_map {f : Json → Json} (hf : ∀ v, Kept (f v) v) (o : Option Json) :
    KeptPart (o.map f) o := by
  cases o with
  | none => exact .missing
  | some v => exact .kept (hf v)

theorem keptPart_refl (o : Option Json) : KeptPart o o := by
  cases o with
  | none => exact .missing
  | some v => exact .kept (.same v)

theorem keptPart_closeMembers (members : Table Json) (key : String) :
    KeptPart ((closeMembers members).find? key) (members.find? key) := by
  by_cases hkey : key = "additionalProperties"
  · subst hkey
    rw [find?_closeMembers_additional]
    split
    · rename_i hopen
      rw [additional_of_isOpen hopen]
      exact .refusing
    · exact keptPart_map (kept_closeValue _) _
  · rw [find?_closeMembers_of_ne members hkey]
    exact keptPart_map (kept_closeValue _) _

/-! ## Pointers -/

theorem keptPart_stepInto {v' v : Json} (h : Kept v' v) (step : List Char) :
    KeptPart (stepInto v' step) (stepInto v step) := by
  cases h with
  | same => exact keptPart_refl _
  | table schemas =>
    simp only [stepInto, find?_closeNamed]
    exact keptPart_map .closed _
  | closed =>
    cases v with
    | object members =>
      rw [close_object]
      exact keptPart_closeMembers members _
    | array items =>
      simp only [close, stepInto]
      split
      · rw [closeItems_eq_map, List.getElem?_map]
        exact keptPart_map .closed _
      · exact .missing
    | null | bool | number | string =>
      simp only [close]
      exact keptPart_refl _

theorem keptPart_walk {v' v : Json} (h : Kept v' v) (steps : List (List Char)) :
    KeptPart (walk v' steps) (walk v steps) := by
  induction steps generalizing v' v with
  | nil => exact .kept h
  | cons step rest ih =>
    simp only [walk]
    have hstep := keptPart_stepInto h step
    generalize stepInto v' step = o', stepInto v step = o at hstep
    cases hstep with
    | missing => exact .missing
    | kept h => exact ih h
    | refusing =>
      -- Nothing lies below what was put in.
      cases rest with
      | nil => exact .refusing
      | cons => exact .missing

/-- A reference of a closed document leads to what it led to before, or to something that refuses
everything where it led nowhere. -/
theorem keptPart_target? (document : Json) (reference : String) :
    KeptPart (target? (close document) reference) (target? document reference) :=
  keptPart_walk (.closed document) _

/-! ## Depth and number of references -/

theorem depthMembers_insert {members : Table Json} {key : String} (b : Bool)
    (h : members.find? key = none) :
    Json.depthMembers (members.insert key (.bool b)) = Json.depthMembers members := by
  induction members with
  | nil => rfl
  | cons head rest ih =>
    obtain ⟨k, v⟩ := head
    rw [Table.find?_cons] at h
    split at h
    · cases h
    · rename_i hk
      rw [Table.insert]
      split
      · simp [Json.depthMembers, Json.depth]
      · rw [Json.depthMembers, Json.depthMembers, ih h]

theorem countMemberReferences_insert {members : Table Json} {key : String} (b : Bool)
    (hkey : key ≠ "$ref") (h : members.find? key = none) :
    countMemberReferences (members.insert key (.bool b)) = countMemberReferences members := by
  induction members with
  | nil => simp [Table.insert, countMemberReferences, countReferences, hkey]
  | cons head rest ih =>
    obtain ⟨k, v⟩ := head
    rw [Table.find?_cons] at h
    split at h
    · cases h
    · rename_i hk
      rw [Table.insert]
      split
      · simp [countMemberReferences, countReferences, hkey]
      · rw [countMemberReferences, countMemberReferences, ih h]

/-- A measure of documents that is put together from the measures of the parts and does not notice
where further members are refused. -/
structure Unnoticing (on : Json → Nat) (onItems : List Json → Nat)
    (onMembers : List (String × Json) → Nat) : Prop where
  array : ∀ {xs ys}, onItems xs = onItems ys → on (.array xs) = on (.array ys)
  object : ∀ {xs ys}, onMembers xs = onMembers ys → on (.object xs) = on (.object ys)
  items : ∀ {v w xs ys}, on v = on w → onItems xs = onItems ys → onItems (v :: xs) = onItems (w :: ys)
  members : ∀ {key v w xs ys}, on v = on w → onMembers xs = onMembers ys →
    onMembers ((key, v) :: xs) = onMembers ((key, w) :: ys)
  refusal : ∀ {xs : List (String × Json)}, Table.find? xs "additionalProperties" = none →
    onMembers (Table.insert xs "additionalProperties" (.bool false)) = onMembers xs

namespace Unnoticing

variable {on : Json → Nat} {onItems : List Json → Nat} {onMembers : List (String × Json) → Nat}

theorem closeMembers_eq (μ : Unnoticing on onItems onMembers) (members : List (String × Json)) :
    onMembers (closeMembers members) = onMembers (closeInside members) := by
  unfold closeMembers
  split
  · rename_i hopen
    apply μ.refusal
    rw [find?_closeInside, additional_of_isOpen hopen]
    rfl
  · rfl

mutual

theorem close_eq (μ : Unnoticing on onItems onMembers) : ∀ v : Json, on (close v) = on v
  | .null | .bool _ | .number _ | .string _ => by simp only [close]
  | .array items => by
    rw [close]
    exact μ.array (μ.closeItems_eq items)
  | .object members => by
    rw [close_object]
    exact μ.object ((μ.closeMembers_eq members).trans (μ.closeInside_eq members))

theorem closeItems_eq (μ : Unnoticing on onItems onMembers) :
    ∀ items : List Json, onItems (closeItems items) = onItems items
  | [] => rfl
  | v :: rest => by
    rw [closeItems]
    exact μ.items (μ.close_eq v) (μ.closeItems_eq rest)

theorem closeInside_eq (μ : Unnoticing on onItems onMembers) :
    ∀ members : List (String × Json), onMembers (closeInside members) = onMembers members
  | [] => rfl
  | (key, v) :: rest => by
    have hv : on (closeValue key v) = on v := by
      unfold closeValue
      split
      · cases v with
        | object schemas => exact μ.object (μ.closeNamed_eq schemas)
        | null | bool | number | string | array => rfl
      · split
        · exact μ.close_eq v
        · rfl
    have hrest := μ.closeInside_eq rest
    rw [closeInside_eq_map] at hrest ⊢
    exact μ.members hv hrest

theorem closeNamed_eq (μ : Unnoticing on onItems onMembers) :
    ∀ schemas : List (String × Json), onMembers (closeNamed schemas) = onMembers schemas
  | [] => rfl
  | (name, v) :: rest => by
    rw [closeNamed]
    exact μ.members (μ.close_eq v) (μ.closeNamed_eq rest)

end

end Unnoticing

theorem unnoticing_depth : Unnoticing Json.depth Json.depthItems Json.depthMembers where
  array h := by rw [Json.depth, Json.depth, h]
  object h := by rw [Json.depth, Json.depth, h]
  items h hs := by rw [Json.depthItems, Json.depthItems, h, hs]
  members h hs := by rw [Json.depthMembers, Json.depthMembers, h, hs]
  refusal h := depthMembers_insert false h

theorem unnoticing_countReferences :
    Unnoticing countReferences countItemReferences countMemberReferences where
  array h := by rw [countReferences, countReferences, h]
  object h := by rw [countReferences, countReferences, h]
  items h hs := by rw [countItemReferences, countItemReferences, h, hs]
  members h hs := by rw [countMemberReferences, countMemberReferences, h, hs]
  refusal h := countMemberReferences_insert false (by decide) h

theorem depth_close (v : Json) : (close v).depth = v.depth := unnoticing_depth.close_eq v

theorem countReferences_close (v : Json) : countReferences (close v) = countReferences v :=
  unnoticing_countReferences.close_eq v

/-- References of a closed document are followed as often as those of the document. -/
theorem referenceBound_close (document v : Json) :
    referenceBound (close document) v = referenceBound document v := by
  rw [referenceBound, referenceBound, countReferences_close]

end Schema

end GuardedCall
