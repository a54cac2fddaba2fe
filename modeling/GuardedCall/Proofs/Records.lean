-- How records are read and written. A codec may write each value in one way and
-- read nothing else; lists and optional values keep that. The members of an object
-- fill the fields of a record, each field from the member of its name alone, so a
-- record is read field by field.
import GuardedCall.Typed.Basic

namespace GuardedCall.Typed

open GuardedCall.Json

variable {α β γ ε σ τ υ : Type}

/-! ## Exact codecs -/

/-- The codec writes every value in one way, and what it writes is all that it reads. -/
structure Exact (c : Codec α) (write : α → Json) : Prop where
  reads : ∀ v x, c.decodeJson v = .ok x ↔ v = write x
  writes : ∀ x, c.encode x = .ok (write x)

theorem exact_string : Exact string Json.string where
  reads v s := by cases v <;> simp [Codec.decodeJson, string, Written.ofJson]
  writes _ := rfl

/-- How an optional value is written. -/
def writeOptional (write : α → Json) : Option α → Json
  | none => .null
  | some x => write x

theorem optional_decodeJson {c : Codec α} {v : Json} (h : v ≠ .null) :
    (optional c).decodeJson v = (c.decodeJson v).map some := by
  cases v with
  | null => contradiction
  | bool | number | string | array | object => rfl

theorem Exact.optional {c : Codec α} {write : α → Json} (h : Exact c write)
    (hnull : ∀ x, write x ≠ .null) : Exact (optional c) (writeOptional write) where
  reads v x := by
    by_cases hv : v = .null
    · subst hv
      have hnone : (Typed.optional c).decodeJson .null = .ok none := rfl
      rw [hnone]
      cases x with
      | none => simp [writeOptional]
      | some x => simp [writeOptional, (hnull x).symm]
    · rw [optional_decodeJson hv]
      cases x with
      | none =>
        cases c.decodeJson v <;> simp [writeOptional, hv, Except.map]
      | some x =>
        rw [writeOptional, ← h.reads]
        cases c.decodeJson v <;> simp [Except.map]
  writes x := by
    cases x with
    | none => rfl
    | some x => exact h.writes x

theorem itemsOfJson_eq_map (items : List Json) :
    Written.itemsOfJson items = items.map Written.ofJson := by
  induction items with
  | nil => rfl
  | cons v rest ih => rw [Written.itemsOfJson, ih, List.map_cons]

theorem membersOfJson_eq_map (members : List (String × Json)) :
    Written.membersOfJson members = members.map fun m => (⟨m.1, 0, 0⟩, Written.ofJson m.2) := by
  induction members with
  | nil => rfl
  | cons m rest ih => rw [Written.membersOfJson, ih, List.map_cons]

theorem Exact.mapM_eq_ok_iff {c : Codec α} {write : α → Json} (h : Exact c write)
    {items : List Json} {xs : List α} :
    items.mapM c.decodeJson = .ok xs ↔ items = xs.map write := by
  induction items generalizing xs with
  | nil => cases xs <;> simp [pure, Except.pure]
  | cons v rest ih =>
    rw [List.mapM_cons]
    cases xs with
    | nil =>
      cases c.decodeJson v <;> cases rest.mapM c.decodeJson <;>
        simp [bind, Except.bind, pure, Except.pure]
    | cons x xs =>
      rw [List.map_cons, List.cons.injEq, ← h.reads, ← ih]
      cases c.decodeJson v <;> cases rest.mapM c.decodeJson <;>
        simp [bind, Except.bind, pure, Except.pure]

theorem Exact.list {c : Codec α} {write : α → Json} (h : Exact c write) :
    Exact (list c) fun xs => .array (xs.map write) where
  reads v xs := by
    cases v with
    | array items =>
      have hread : (Typed.list c).decodeJson (.array items) = items.mapM c.decodeJson := by
        show (do
          let xs ← (Written.itemsOfJson items).mapM (c.decode .value)
          ended none
          return xs) = _
        rw [itemsOfJson_eq_map, List.mapM_map]
        exact bind_pure _
      rw [hread, h.mapM_eq_ok_iff, Json.array.injEq]
    | null | bool | number | string | object =>
      constructor
      · intro h
        cases h
      · intro h
        cases h
  writes xs := by
    have hencode : c.encode = fun x => pure (write x) := funext h.writes
    show (do return Json.array (← xs.mapM c.encode)) = _
    rw [hencode, List.mapM_pure]
    rfl

/-! ## Members that nobody asks for -/

mutual

theorem skip_ofJson : ∀ v : Json, skip (Written.ofJson v) = .ok ()
  | .null | .bool _ | .number _ | .string _ => rfl
  | .array items => by
    rw [Written.ofJson, skip, skipItems_ofJson items]
    rfl
  | .object members => by
    rw [Written.ofJson, skip, skipMembers_ofJson members]
    rfl

theorem skipItems_ofJson : ∀ items : List Json, skipItems (Written.itemsOfJson items) = .ok ()
  | [] => rfl
  | v :: rest => by
    rw [Written.itemsOfJson, skipItems, skip_ofJson v]
    exact skipItems_ofJson rest

theorem skipMembers_ofJson :
    ∀ members : List (String × Json), skipMembers (Written.membersOfJson members) = .ok ()
  | [] => rfl
  | (_, v) :: rest => by
    rw [Written.membersOfJson, skipMembers, skip_ofJson v]
    exact skipMembers_ofJson rest

end

/-! ## One field -/

/-- What a field gets from the member of its name, or keeps from before. -/
def filled (c : Codec α) (found : Option Json) (slot : Option α) : Option (Option α) :=
  match found with
  | none => some slot
  | some v => (c.decodeJson v).toOption.map some

/-- What a member makes of a field: one of its name fills it, and only if it is empty. -/
def give (name : String) (c : Codec α) (slot : Option α) (m : String × Json) : Option (Option α) :=
  if m.1 = name then
    if slot.isSome then none else filled c (some m.2) slot
  else some slot

theorem give_self (name : String) (c : Codec α) (slot : Option α) (v : Json) :
    give name c slot (name, v) = if slot.isSome then none else filled c (some v) slot := if_pos rfl

theorem give_of_ne {name key : String} {c : Codec α} {slot : Option α} {v : Json}
    (h : key ≠ name) : give name c slot (key, v) = some slot := if_neg h

/-- A reader that puts what it finds into one field takes a member as the field does. -/
theorem toOption_put {name : String} {c : Codec α} {slot : Option α} {put : Option α → σ}
    (key : Key) (v : Json) :
    (do return put (← once slot key (c.decode .value (Written.ofJson v))) :
      Except DecodeFault σ).toOption = (give name c slot (name, v)).map put := by
  rw [give_self]
  unfold once filled Codec.decodeJson
  cases slot with
  | some x => rfl
  | none =>
    cases h : c.decode .value (Written.ofJson v) with
    | ok x =>
      simp only [h]
      rfl
    | error f =>
      simp only [h]
      rfl

theorem filled_eq_some_iff {c : Codec α} {found : Option Json} {x : α} :
    filled c found none = some (some x) ↔ ∃ v, found = some v ∧ c.decodeJson v = .ok x := by
  cases found with
  | none => simp [filled]
  | some v => cases h : c.decodeJson v <;> simp [filled, h, Except.toOption]

/-- A field that must be there was written under its name. -/
theorem Exact.filled_iff {c : Codec α} {write : α → Json} (h : Exact c write) {found : Option Json}
    {x : α} : filled c found none = some (some x) ↔ found = some (write x) := by
  simp [filled_eq_some_iff, h.reads]

/-- A field that may be missing was written under its name, or is missing and has its default. -/
theorem Exact.filled_getD_iff {c : Codec α} {write : α → Json} (h : Exact c write)
    {found : Option Json} {default x : α} :
    (∃ slot, filled c found none = some slot ∧ slot.getD default = x) ↔
      found = some (write x) ∨ found = none ∧ x = default := by
  cases found with
  | none => simp [filled, eq_comm]
  | some v =>
    have hread : (∃ slot, filled c (some v) none = some slot ∧ slot.getD default = x) ↔
        c.decodeJson v = .ok x := by
      cases hv : c.decodeJson v <;> simp [filled, hv, Except.toOption]
    simp [hread, h.reads]

/-- A name is there once, so a field that is empty gets what is found under its name. -/
theorem foldlM_give {name : String} {c : Codec α} {members : Table Json}
    (hsorted : Table.Sorted members) {slot : Option α}
    (hslot : slot ≠ none → members.find? name = none) :
    members.foldlM (give name c) slot = filled c (members.find? name) slot := by
  induction members generalizing slot with
  | nil => rfl
  | cons head rest ih =>
    obtain ⟨key, v⟩ := head
    have hrest : Table.Sorted rest := (List.pairwise_cons.mp hsorted).2
    rw [List.foldlM_cons]
    by_cases hkey : key = name
    · subst hkey
      have hlater : Table.find? rest key = none := hsorted.find?_tail
      have hempty : slot = none := by simpa using hslot
      subst hempty
      rw [Table.find?_cons, if_pos rfl, give_self]
      cases hfilled : filled c (some v) none with
      | none => rfl
      | some slot =>
        have hkeeps : rest.foldlM (give key c) slot = filled c (Table.find? rest key) slot :=
          ih hrest fun _ => hlater
        rw [hlater] at hkeeps
        exact hkeeps
    · rw [Table.find?_cons, if_neg hkey] at hslot ⊢
      rw [give_of_ne hkey]
      exact ih hrest hslot

/-! ## Several fields -/

/-- Two parts of a state, each of which takes every item for itself. -/
def sideBySide (f : σ → γ → Option σ) (g : τ → γ → Option τ) (s : σ × τ) (x : γ) : Option (σ × τ) :=
  do return (← f s.1 x, ← g s.2 x)

theorem foldlM_sideBySide (f : σ → γ → Option σ) (g : τ → γ → Option τ) (xs : List γ) (a : σ)
    (b : τ) : xs.foldlM (sideBySide f g) (a, b) = do return (← xs.foldlM f a, ← xs.foldlM g b) := by
  induction xs generalizing a b with
  | nil => rfl
  | cons x rest ih =>
    simp only [List.foldlM_cons, sideBySide]
    cases f a x with
    | none => rfl
    | some a' =>
      cases g b x with
      | none => simp
      | some b' => exact ih a' b'

/-- A state that is an image of another one and moves with it. -/
theorem foldlM_image {step : υ → γ → Option υ} {part : σ → γ → Option σ} {image : σ → υ}
    (h : ∀ s x, step (image s) x = (part s x).map image) (xs : List γ) (s : σ) :
    xs.foldlM step (image s) = (xs.foldlM part s).map image := by
  induction xs generalizing s with
  | nil => rfl
  | cons x rest ih =>
    rw [List.foldlM_cons, List.foldlM_cons, h]
    cases part s x with
    | none => rfl
    | some s' => exact ih s'

theorem toOption_bind {x : Except ε α} {f : α → Except ε β} :
    (x >>= f).toOption = x.toOption.bind fun a => (f a).toOption := by
  cases x <;> rfl

theorem toOption_foldlM {f : σ → γ → Except ε σ} (xs : List γ) (s : σ) :
    (xs.foldlM f s).toOption = xs.foldlM (fun s x => (f s x).toOption) s := by
  induction xs generalizing s with
  | nil => rfl
  | cons x rest ih =>
    rw [List.foldlM_cons, List.foldlM_cons, toOption_bind]
    cases f s x with
    | error e => rfl
    | ok s' => exact ih s'

theorem toOption_eq_some_iff {x : Except ε α} {a : α} : x.toOption = some a ↔ x = .ok a := by
  cases x <;> simp [Except.toOption]

/-- What a member of a JSON value makes of the state of a reader. -/
def taken (step : σ → Key → Written → Except DecodeFault σ) (s : σ) (m : String × Json) :
    Option σ :=
  (step s ⟨m.1, 0, 0⟩ (Written.ofJson m.2)).toOption

theorem toOption_visit {step : σ → Key → Written → Except DecodeFault σ} {init : σ}
    {members : List (String × Json)} :
    (visit step init (Written.membersOfJson members) none).toOption =
      members.foldlM (taken step) init := by
  have hfold : visit step init (Written.membersOfJson members) none =
      (Written.membersOfJson members).foldlM (fun s m => step s m.1 m.2) init := bind_pure _
  rw [hfold, toOption_foldlM, membersOfJson_eq_map, List.foldlM_map]
  rfl

/-- A reader whose state is an image of its parts reads as the parts do. -/
theorem toOption_visit_image {step : υ → Key → Written → Except DecodeFault υ}
    {part : σ → String × Json → Option σ} {image : σ → υ}
    (h : ∀ s m, taken step (image s) m = (part s m).map image) (members : Table Json) (s : σ) :
    (visit step (image s) (Written.membersOfJson members) none).toOption =
      (members.foldlM part s).map image := by
  rw [toOption_visit, foldlM_image h]

end GuardedCall.Typed
