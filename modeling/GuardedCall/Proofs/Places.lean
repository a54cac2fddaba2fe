-- What closing leaves of a document, place by place. The steps that lead to a
-- place tell whether a schema stands there, schemas by name, or data. Closing
-- adds members that refuse further members, to open object schemas where
-- schemas stand, and changes nothing else; closing twice is closing once.
import GuardedCall.Proofs.Closing

namespace GuardedCall

namespace Table

variable {α β : Type}

/-- Values may be changed before or after one is put under a name. -/
theorem map_insert (f : String → α → β) (t : Table α) (key : String) (value : α) :
    (t.insert key value).map (fun m => (m.1, f m.1 m.2)) =
      Table.insert (t.map fun m => (m.1, f m.1 m.2)) key (f key value) := by
  induction t with
  | nil => rfl
  | cons head rest ih =>
    obtain ⟨k, v⟩ := head
    rw [List.map_cons, insert, insert]
    split
    · rfl
    · split
      · rfl
      · rw [List.map_cons, ih]

end Table

namespace Schema

/-! ## Places in a value -/

/-- One step into a value. -/
inductive Step where
  | member (name : String)
  | item (place : Nat)

/-- The part of a value that steps lead to. -/
def partAt? : Json → List Step → Option Json
  | v, [] => some v
  | v, .member name :: rest => (v.member? name).bind (partAt? · rest)
  | v, .item place :: rest => ((itemsOf v)[place]?).bind (partAt? · rest)

/-- The steps that lead to a place. -/
abbrev Place := List Step

/-- The part of a value that one step leads to. -/
def part? (v : Json) : Step → Option Json
  | .member name => v.member? name
  | .item place => (itemsOf v)[place]?

theorem partAt?_cons (v : Json) (step : Step) (rest : Place) :
    partAt? v (step :: rest) = (part? v step).bind (partAt? · rest) := by
  cases step <;> rfl

theorem partAt?_append (v : Json) (p q : Place) :
    partAt? v (p ++ q) = (partAt? v p).bind (partAt? · q) := by
  induction p generalizing v with
  | nil => rfl
  | cons step rest ih =>
    rw [List.cons_append, partAt?_cons, partAt?_cons, Option.bind_assoc]
    exact Option.bind_congr fun w _ => ih w

/-! ## The parts that places play -/

/-- What stands at a place of a document. -/
inductive Role where
  /-- A schema, or a list of schemas. -/
  | schema
  /-- Schemas by name. -/
  | table
  /-- Anything else. -/
  | data
deriving DecidableEq

/-- What stands one step further. Under the names of a table stand schemas, whatever the names. -/
def Role.next : Role → Step → Role
  | .schema, .member key =>
    if key ∈ schemaMapKeywords then .table else if key ∈ schemaKeywords then .schema else .data
  | .schema, .item _ => .schema
  | .table, .member _ => .schema
  | .table, .item _ => .data
  | .data, _ => .data

/-- What stands at a place of a document that is itself a schema. -/
def roleAt (p : Place) : Role := p.foldl Role.next .schema

/-- A property may have the name of a keyword. -/
example : roleAt [.member "properties", .member "properties", .member "type"] = .data := by
  decide

/-- What closing makes of a value, by the part that it plays. -/
def closedAs : Role → Json → Json
  | .schema => close
  | .table => closeTable
  | .data => id

theorem closeValue_eq_closedAs (key : String) :
    closeValue key = closedAs (Role.schema.next (.member key)) := by
  by_cases hmap : key ∈ schemaMapKeywords
  · simp only [closeValue_table hmap, Role.next, hmap, if_true, closedAs]
  · by_cases hschema : key ∈ schemaKeywords
    · simp only [closeValue_schema hschema, Role.next, hmap, hschema, if_true, if_false, closedAs]
    · simp only [closeValue_other hmap hschema, Role.next, hmap, hschema, if_false, closedAs]

theorem part?_closeMembers {members : Table Json} {key : String} {w : Json}
    (h : members.find? key = some w) :
    (closeMembers members).find? key = some (closeValue key w) := by
  by_cases hkey : key = "additionalProperties"
  · subst hkey
    have hopen : ¬ isOpen members = true := fun hopen => by
      rw [additional_of_isOpen hopen] at h
      cases h
    rw [find?_closeMembers_additional, if_neg hopen, h]
    rfl
  · rw [find?_closeMembers_of_ne members hkey, h]
    rfl

/-- A part is closed by the part that it plays itself. -/
theorem part?_closedAs (r : Role) {v w : Json} {step : Step} (h : part? v step = some w) :
    part? (closedAs r v) step = some (closedAs (r.next step) w) := by
  cases r with
  | schema =>
    cases v with
    | object members =>
      cases step with
      | member key =>
        rw [← closeValue_eq_closedAs, closedAs, close_object]
        exact part?_closeMembers h
      | item n => cases h
    | array items =>
      cases step with
      | member key => cases h
      | item n =>
        have hitem : items[n]? = some w := h
        simp [closedAs, close, closeItems_eq_map, part?, itemsOf, hitem, Role.next]
    | null | bool | number | string => cases step <;> cases h
  | table =>
    cases v with
    | object schemas =>
      cases step with
      | member name =>
        have hschema : Table.find? schemas name = some w := h
        simp [closedAs, closeTable, part?, Json.member?, find?_closeNamed, hschema, Role.next]
      | item n => cases h
    | array items =>
      cases step with
      | member key => cases h
      | item n => exact h
    | null | bool | number | string => cases step <;> cases h
  | data => exact h

/-- A part of a closed value was there before, or it refuses what is further to an open object
schema. -/
theorem part?_of_closedAs {r : Role} {v w' : Json} {step : Step}
    (h : part? (closedAs r v) step = some w') (hnone : part? v step = none) :
    r = .schema ∧ step = .member "additionalProperties" ∧ w' = .bool false ∧
      ∃ members, v = .object members ∧ isOpen members = true := by
  cases r with
  | schema =>
    cases v with
    | object members =>
      cases step with
      | member key =>
        have hfind : Table.find? members key = none := hnone
        rw [closedAs, close_object] at h
        have hclosed : (closeMembers members).find? key = some w' := h
        by_cases hkey : key = "additionalProperties"
        · subst hkey
          rw [find?_closeMembers_additional, hfind] at hclosed
          by_cases hopen : isOpen members = true
          · rw [if_pos hopen] at hclosed
            exact ⟨rfl, rfl, (Option.some.inj hclosed).symm, members, rfl, hopen⟩
          · rw [if_neg hopen] at hclosed
            cases hclosed
        · rw [find?_closeMembers_of_ne members hkey, hfind] at hclosed
          cases hclosed
      | item n =>
        rw [closedAs, close_object] at h
        cases h
    | array items =>
      cases step with
      | member key =>
        rw [closedAs, close] at h
        cases h
      | item n =>
        have hitem : items[n]? = none := hnone
        simp [closedAs, close, closeItems_eq_map, part?, itemsOf, hitem] at h
    | null | bool | number | string =>
      simp only [closedAs, close, hnone] at h
      cases h
  | table =>
    cases v with
    | object schemas =>
      cases step with
      | member name =>
        have hschema : Table.find? schemas name = none := hnone
        simp [closedAs, closeTable, part?, Json.member?, find?_closeNamed, hschema] at h
      | item n => cases h
    | null | bool | number | string | array => cases hnone.symm.trans h
  | data => cases hnone.symm.trans h

/-! ## Places of a closed document -/

/-- What stands at a place before and after. -/
theorem partAt?_closedAs (r : Role) {v w : Json} {p : Place} (h : partAt? v p = some w) :
    partAt? (closedAs r v) p = some (closedAs (p.foldl Role.next r) w) := by
  induction p generalizing r v with
  | nil =>
    obtain rfl := Option.some.inj h
    rfl
  | cons step rest ih =>
    rw [partAt?_cons] at h
    obtain ⟨x, hx, hw⟩ := Option.bind_eq_some_iff.mp h
    rw [partAt?_cons, part?_closedAs r hx]
    exact ih _ hw

/-- At the place an open object schema refuses further members. -/
inductive RefusedAt (document : Json) : Place → Json → Prop
  | refused {p : Place} {members : Table Json} (hp : roleAt p = .schema)
    (h : partAt? document p = some (.object members)) (hopen : isOpen members = true) :
    RefusedAt document (p ++ [.member "additionalProperties"]) (.bool false)

/-- What stands at a place of a closed value and did not stand there before. -/
theorem new_of_closedAs {r : Role} {v w' : Json} {p : Place}
    (h : partAt? (closedAs r v) p = some w') (hnone : partAt? v p = none) :
    w' = .bool false ∧ ∃ q members, p = q ++ [.member "additionalProperties"] ∧
      q.foldl Role.next r = .schema ∧ partAt? v q = some (.object members) ∧ isOpen members = true := by
  induction p generalizing r v with
  | nil => cases hnone
  | cons step rest ih =>
    rw [partAt?_cons] at h hnone
    rcases hpart : part? v step with _ | x
    · obtain ⟨w, hw, hrest⟩ := Option.bind_eq_some_iff.mp h
      obtain ⟨rfl, rfl, rfl, members, rfl, hopen⟩ := part?_of_closedAs hw hpart
      -- Below what was put in there is nothing.
      cases rest with
      | nil =>
        obtain rfl := Option.some.inj hrest
        exact ⟨rfl, [], members, rfl, rfl, rfl, hopen⟩
      | cons step rest => cases step <;> cases hrest
    · rw [part?_closedAs r hpart] at h
      rw [hpart] at hnone
      obtain ⟨hw', q, members, rfl, hrole, hq, hopen⟩ := ih h hnone
      refine ⟨hw', step :: q, members, rfl, hrole, ?_, hopen⟩
      rw [partAt?_cons, hpart]
      exact hq

/-- What stands in a closed document stood there, closed by the part it plays, or refuses what is
further to an open object schema. -/
theorem partAt?_close_iff {document : Json} {p : Place} {w' : Json} :
    partAt? (close document) p = some w' ↔
      (∃ w, partAt? document p = some w ∧ w' = closedAs (roleAt p) w) ∨ RefusedAt document p w' := by
  constructor
  · intro h
    rcases hp : partAt? document p with _ | w
    · obtain ⟨rfl, q, members, rfl, hrole, hq, hopen⟩ := new_of_closedAs (r := .schema) h hp
      exact .inr (.refused hrole hq hopen)
    · have hw := partAt?_closedAs .schema hp
      exact .inl ⟨w, rfl, Option.some.inj (h.symm.trans hw)⟩
  · rintro (⟨w, hw, rfl⟩ | hrefused)
    · exact partAt?_closedAs .schema hw
    · cases hrefused with
      | @refused q members hq h hopen =>
        have hclosed := partAt?_closedAs .schema h
        rw [show q.foldl Role.next .schema = .schema from hq] at hclosed
        rw [partAt?_append, show partAt? (close document) q = _ from hclosed, closedAs, close_object]
        show (Option.bind ((closeMembers members).find? "additionalProperties") _) = _
        rw [find?_closeMembers_additional, if_pos hopen]
        rfl

/-! ## A document with refusals -/

mutual

/-- The document where at some places the open object schemas refuse further members, and all else
is as it was. -/
def refusingAt (places : Place → Bool) : Json → Json
  | .object members =>
    let inner := refusingMembers places members
    .object (if places [] && isOpen members then
      Table.insert inner "additionalProperties" (.bool false) else inner)
  | .array items => .array (refusingItems places 0 items)
  | v => v

/-- The members, each with the places below it. -/
def refusingMembers (places : Place → Bool) : List (String × Json) → List (String × Json)
  | [] => []
  | (key, v) :: rest =>
    (key, refusingAt (fun p => places (.member key :: p)) v) :: refusingMembers places rest

/-- The items from a number on, each with the places below it. -/
def refusingItems (places : Place → Bool) (n : Nat) : List Json → List Json
  | [] => []
  | v :: rest =>
    refusingAt (fun p => places (.item n :: p)) v :: refusingItems places (n + 1) rest

end

/-- The places where schemas stand, seen from a value that plays a part. -/
def schemaPlaces (r : Role) (p : Place) : Bool := p.foldl Role.next r = .schema

mutual

/-- Closing is refusing further members where schemas stand. -/
theorem refusingAt_schemaPlaces : ∀ (r : Role) (v : Json),
    refusingAt (schemaPlaces r) v = closedAs r v
  | r, .object members => by
    rw [refusingAt, refusingMembers_schemaPlaces r members]
    cases r with
    | schema =>
      have hinside : members.map (fun m => (m.1, closedAs (Role.schema.next (.member m.1)) m.2)) =
          closeInside members := by
        simp only [closeInside_eq_map, closeValue_eq_closedAs]
      rw [hinside, closedAs, close_object]
      rfl
    | table =>
      rw [closedAs, closeTable, closeNamed_eq_map]
      rfl
    | data =>
      have hsame : members.map (fun m => (m.1, closedAs (Role.data.next (.member m.1)) m.2)) =
          members := List.map_id' members
      rw [hsame]
      rfl
  | r, .array items => by
    rw [refusingAt, refusingItems_schemaPlaces r 0 items]
    cases r with
    | schema =>
      rw [closedAs, close, closeItems_eq_map]
      rfl
    | table | data =>
      exact congrArg Json.array (List.map_id' items)
  | r, .null | r, .bool _ | r, .number _ | r, .string _ => by
    cases r <;> simp [refusingAt, closedAs, close, closeTable]

theorem refusingMembers_schemaPlaces : ∀ (r : Role) (members : List (String × Json)),
    refusingMembers (schemaPlaces r) members =
      members.map fun m => (m.1, closedAs (r.next (.member m.1)) m.2)
  | r, [] => rfl
  | r, (key, v) :: rest => by
    rw [refusingMembers, List.map_cons, refusingMembers_schemaPlaces r rest]
    exact congrArg (fun w => (key, w) :: _) (refusingAt_schemaPlaces (r.next (.member key)) v)

theorem refusingItems_schemaPlaces : ∀ (r : Role) (n : Nat) (items : List Json),
    refusingItems (schemaPlaces r) n items = items.map (closedAs (r.next (.item 0)))
  | r, n, [] => rfl
  | r, n, v :: rest => by
    have hnext : r.next (.item n) = r.next (.item 0) := by cases r <;> rfl
    rw [refusingItems, List.map_cons, refusingItems_schemaPlaces r (n + 1) rest, ← hnext]
    exact congrArg (· :: _) (refusingAt_schemaPlaces (r.next (.item n)) v)

end

/-! ## Closing twice -/

/-- What closing asks of the members of a schema is not changed by closing below them. -/
theorem isOpen_closeInside (members : Table Json) : isOpen (closeInside members) = isOpen members := by
  have htype : Table.find? (closeInside members) "type" = members.find? "type" := by
    rw [find?_closeInside, closeValue_other (by decide) (by decide),
      Option.map_id_fun, id]
  have hhas : Table.has (closeInside members) = members.has := by
    funext key
    rw [Table.has, Table.has, find?_closeInside, Option.isSome_map]
  simp only [isOpen, describesObjects, htype, hhas]

/-- A schema that refuses further members is not open. -/
theorem isOpen_insert (members : Table Json) (v : Json) :
    isOpen (members.insert "additionalProperties" v) = false := by
  simp [isOpen, Table.has, Table.find?_insert_self]

theorem closeMembers_closeMembers {members : Table Json}
    (h : closeInside (closeInside members) = closeInside members) :
    closeMembers (closeMembers members) = closeMembers members := by
  by_cases hopen : isOpen members = true
  · have hclosed : closeMembers members =
        Table.insert (closeInside members) "additionalProperties" (.bool false) := if_pos hopen
    have hrefusal : closeValue "additionalProperties" (.bool false) = .bool false := by
      rw [closeValue_schema (by decide)]
      simp only [close]
    rw [hclosed, closeMembers, isOpen_insert, if_neg Bool.false_ne_true, closeInside_eq_map,
      Table.map_insert, ← closeInside_eq_map, h, hrefusal]
  · have hclosed : closeMembers members = closeInside members := if_neg hopen
    rw [hclosed, closeMembers, isOpen_closeInside, if_neg hopen, h]

mutual

theorem close_close : ∀ v : Json, close (close v) = close v
  | .null | .bool _ | .number _ | .string _ => by simp only [close]
  | .array items => by rw [close, close, closeItems_closeItems items]
  | .object members => by
    rw [close_object, close_object, closeMembers_closeMembers (closeInside_closeInside members)]

theorem closeItems_closeItems : ∀ items : List Json,
    closeItems (closeItems items) = closeItems items
  | [] => rfl
  | v :: rest => by rw [closeItems, closeItems, close_close v, closeItems_closeItems rest]

theorem closeInside_closeInside : ∀ members : List (String × Json),
    closeInside (closeInside members) = closeInside members
  | [] => rfl
  | (key, v) :: rest => by
    have hv : closeValue key (closeValue key v) = closeValue key v := by
      unfold closeValue
      split
      · cases v with
        | object schemas => exact congrArg Json.object (closeNamed_closeNamed schemas)
        | null | bool | number | string | array => rfl
      · split
        · exact close_close v
        · rfl
    have hrest := closeInside_closeInside rest
    simp only [closeInside_eq_map, List.map_cons] at hrest ⊢
    rw [hv, hrest]

theorem closeNamed_closeNamed : ∀ schemas : List (String × Json),
    closeNamed (closeNamed schemas) = closeNamed schemas
  | [] => rfl
  | (name, v) :: rest => by rw [closeNamed, closeNamed, close_close v, closeNamed_closeNamed rest]

end

end Schema

namespace StrictMode

open Schema

/-- Closing a document makes the open object schemas refuse further members where schemas stand,
and does nothing else. What stood at a place stands there still: a schema closed, a table with its
schemas closed under their names, and data as they were. What stands at a new place is a refusal.
Closing once more changes nothing. -/
theorem closing_only_adds_refusals (document : Json) :
    close document = refusingAt (fun p => roleAt p = .schema) document ∧
    (∀ p w', partAt? (close document) p = some w' ↔
      (∃ w, partAt? document p = some w ∧ w' = closedAs (roleAt p) w) ∨ RefusedAt document p w') ∧
    close (close document) = close document :=
  ⟨(refusingAt_schemaPlaces .schema document).symm, fun _ _ => partAt?_close_iff, close_close document⟩

end StrictMode

end GuardedCall
