-- Tables by name: pairs in increasing order of their names, each name once.
-- The order of names is the order of their code points, which is also the
-- order of their UTF-8 bytes.
namespace GuardedCall

/-- A list of pairs of a name and a value. The operations of this file keep
the names in increasing order. -/
abbrev Table (α : Type u) := List (String × α)

namespace Table

variable {α β : Type u}

/-- The names of a table, in order. -/
def keys (t : Table α) : List String := t.map Prod.fst

/-- The names are in strictly increasing order, so none is there twice. -/
def Sorted (t : Table α) : Prop := t.Pairwise fun a b => a.1 < b.1

def find? (t : Table α) (key : String) : Option α :=
  match t with
  | [] => none
  | (k, v) :: rest => if k = key then some v else find? rest key

def has (t : Table α) (key : String) : Bool := (t.find? key).isSome

/-- The table with a value put under a name, in place of an earlier one. -/
def insert (t : Table α) (key : String) (value : α) : Table α :=
  match t with
  | [] => [(key, value)]
  | (k, v) :: rest =>
    if key < k then (key, value) :: (k, v) :: rest
    else if k = key then (key, value) :: rest
    else (k, v) :: insert rest key value

/-- The table of a list of pairs, where the last pair of a name counts. -/
def ofList (pairs : List (String × α)) : Table α :=
  pairs.foldl (fun t p => t.insert p.1 p.2) []

@[simp] theorem find?_nil (key : String) : find? ([] : Table α) key = none := rfl

@[simp] theorem find?_cons (k : String) (v : α) (rest : Table α) (key : String) :
    find? ((k, v) :: rest : Table α) key = if k = key then some v else find? rest key := rfl

/-- A name that was just put has the value that was put. -/
theorem find?_insert_self (t : Table α) (key : String) (value : α) :
    (t.insert key value).find? key = some value := by
  induction t with
  | nil => simp [insert]
  | cons head rest ih =>
    obtain ⟨k, v⟩ := head
    simp only [insert]
    split
    · simp
    · split
      · simp
      · simp_all

/-- Putting a value under one name leaves every other name as it was. -/
theorem find?_insert_of_ne (t : Table α) {key other : String} (value : α) (h : other ≠ key) :
    (t.insert key value).find? other = t.find? other := by
  induction t with
  | nil => simp [insert, Ne.symm h]
  | cons head rest ih =>
    obtain ⟨k, v⟩ := head
    simp only [insert]
    split
    · simp [Ne.symm h]
    · split
      · rename_i hk
        subst hk
        simp [Ne.symm h]
      · simp [ih]

theorem find?_map (f : String → α → β) (t : Table α) (key : String) :
    find? (t.map fun m => (m.1, f m.1 m.2)) key = (t.find? key).map (f key) := by
  induction t with
  | nil => rfl
  | cons head rest ih =>
    obtain ⟨k, x⟩ := head
    rw [List.map_cons, find?_cons, find?_cons, ih]
    by_cases hk : k = key
    · simp [hk]
    · simp [hk]

theorem find?_eq_none {t : Table α} {key : String} (h : ∀ p ∈ t, p.1 ≠ key) : t.find? key = none := by
  induction t with
  | nil => rfl
  | cons head rest ih =>
    obtain ⟨k, x⟩ := head
    rw [find?_cons, if_neg (h (k, x) List.mem_cons_self)]
    exact ih fun p hp => h p (List.mem_cons_of_mem _ hp)

theorem mem_of_find? {t : Table α} {key : String} {x : α}
    (h : t.find? key = some x) : (key, x) ∈ t := by
  induction t with
  | nil => cases h
  | cons head rest ih =>
    obtain ⟨k, y⟩ := head
    rw [find?_cons] at h
    split at h
    · rename_i hk
      obtain rfl := Option.some.inj h
      rw [hk]
      exact List.mem_cons_self
    · exact List.mem_cons_of_mem _ (ih h)

/-- The names of a table are those under which something is found. -/
theorem mem_keys_iff {t : Table α} {key : String} : key ∈ t.keys ↔ ∃ x, t.find? key = some x := by
  induction t with
  | nil => simp [keys]
  | cons head rest ih =>
    obtain ⟨k, x⟩ := head
    rw [keys] at ih
    rw [keys, List.map_cons, List.mem_cons, ih, find?_cons]
    by_cases hk : k = key
    · simp [hk]
    · simp [hk, Ne.symm hk]

/-- Behind its place a name is not there again. -/
theorem Sorted.find?_tail {key : String} {x : α} {t : Table α}
    (h : Sorted ((key, x) :: t : Table α)) : t.find? key = none :=
  find?_eq_none fun p hp heq => String.lt_irrefl key (heq ▸ (List.pairwise_cons.mp h).1 p hp)

theorem Sorted.find?_of_mem {t : Table α} (h : Sorted t) {p : String × α} (hp : p ∈ t) :
    t.find? p.1 = some p.2 := by
  induction t with
  | nil => cases hp
  | cons head rest ih =>
    obtain ⟨k, x⟩ := head
    rw [find?_cons]
    rcases List.mem_cons.mp hp with rfl | hp
    · exact if_pos rfl
    · have hne : k ≠ p.1 := fun heq => String.lt_irrefl k (by
        have hlt := (List.pairwise_cons.mp h).1 p hp
        rwa [← heq] at hlt)
      rw [if_neg hne]
      exact ih (List.pairwise_cons.mp h).2 hp

theorem mem_insert {t : Table α} {key : String} {x : α} {p : String × α}
    (h : p ∈ t.insert key x) : p = (key, x) ∨ p ∈ t := by
  induction t with
  | nil => exact .inl (List.mem_singleton.mp h)
  | cons head rest ih =>
    obtain ⟨k, y⟩ := head
    rw [insert] at h
    split at h
    · exact List.mem_cons.mp h
    · split at h
      · exact (List.mem_cons.mp h).imp_right (List.mem_cons_of_mem _)
      · rcases List.mem_cons.mp h with rfl | h
        · exact .inr List.mem_cons_self
        · exact (ih h).imp_right (List.mem_cons_of_mem _)

/-- A name that was not there is put beside what was there. -/
theorem insert_perm {t : Table α} {key : String} (x : α) (h : t.find? key = none) :
    (t.insert key x).Perm ((key, x) :: t) := by
  induction t with
  | nil => exact .refl _
  | cons head rest ih =>
    obtain ⟨k, y⟩ := head
    rw [find?_cons] at h
    rw [insert]
    by_cases hk : k = key
    · simp [hk] at h
    · rw [if_neg hk] at h
      split
      · exact .refl _
      · exact ((ih h).cons (k, y)).trans (List.Perm.swap _ _ _)

theorem Sorted.of_keys {t : Table α} (h : t.keys.Pairwise (· < ·)) : Sorted t :=
  List.pairwise_map.mp h

/-- A table is determined by its pairs, in whatever order they are given. -/
theorem Sorted.eq_of_perm {t u : Table α} (ht : Sorted t) (hu : Sorted u) (h : t.Perm u) : t = u := by
  refine List.Perm.eq_of_pairwise ?_ ht hu h
  intro a b _ _ hab hba
  exact absurd hba (String.lt_asymm hab)

/-- Putting a value under a name keeps the names in order. -/
theorem Sorted.insert {t : Table α} (h : Sorted t) (key : String) (value : α) :
    Sorted (t.insert key value) := by
  induction t with
  | nil => exact List.pairwise_singleton _ _
  | cons head rest ih =>
    obtain ⟨k, v⟩ := head
    obtain ⟨hk, hrest⟩ := List.pairwise_cons.mp h
    rw [Table.insert]
    split
    · rename_i hlt
      refine List.pairwise_cons.mpr ⟨fun p hp => ?_, h⟩
      rcases List.mem_cons.mp hp with rfl | hp
      · exact hlt
      · exact String.lt_trans hlt (hk p hp)
    · rename_i hnot
      split
      · rename_i heq
        subst heq
        exact List.pairwise_cons.mpr ⟨hk, hrest⟩
      · rename_i hne
        have hlt : k < key := Std.lt_of_le_of_ne (String.not_lt.mp hnot) hne
        refine List.pairwise_cons.mpr ⟨fun p hp => ?_, ih hrest⟩
        rcases mem_insert hp with rfl | hp
        · exact hlt
        · exact hk p hp

/-- A name behind all others is put at the end. -/
theorem insert_of_lt {t : Table α} {key : String} (value : α) (h : ∀ p ∈ t, p.1 < key) :
    t.insert key value = t ++ [(key, value)] := by
  induction t with
  | nil => rfl
  | cons head rest ih =>
    obtain ⟨k, v⟩ := head
    have hk : k < key := h (k, v) List.mem_cons_self
    have hne : k ≠ key := by
      rintro rfl
      exact String.lt_irrefl k hk
    rw [insert, if_neg (String.lt_asymm hk), if_neg hne,
      ih fun p hp => h p (List.mem_cons_of_mem _ hp)]
    rfl

theorem foldl_insert_of_sorted {t acc : Table α} (h : Sorted (acc ++ t)) :
    t.foldl (fun t p => t.insert p.1 p.2) acc = acc ++ t := by
  induction t generalizing acc with
  | nil => simp
  | cons head rest ih =>
    obtain ⟨k, v⟩ := head
    have hlast : ∀ p ∈ acc, p.1 < k := fun p hp =>
      (List.pairwise_append.mp h).2.2 p hp (k, v) List.mem_cons_self
    rw [List.append_cons] at h
    rw [List.foldl_cons, insert_of_lt v hlast, ih h, ← List.append_cons]

/-- A table is the table of its own pairs. -/
theorem ofList_of_sorted {t : Table α} (h : Sorted t) : ofList t = t := by
  unfold ofList
  rw [foldl_insert_of_sorted (by rwa [List.nil_append]), List.nil_append]

end Table

end GuardedCall
