-- Trees of named things: at every level names, each with a thing or with a
-- further level. A path names one place by the names on the way to it.
import GuardedCall.Table

namespace GuardedCall

/-- A thing of `α`, or a level with a label of `β` and named entries. -/
inductive Tree (α β : Type) where
  | leaf (value : α)
  | level (label : β) (entries : List (String × Tree α β))

/-! ## Paths -/

namespace Path

/-- What stands between the names of a path. -/
def separator : Char := '.'

/-- The names of a path. A path has at least one name, which may be empty. -/
def segments (path : String) : List String :=
  (path.toList.splitOn separator).map String.ofList

/-- The path of a name below another path. Below the empty path the name stands
alone. -/
def below (above name : String) : String :=
  if above = "" then name else above ++ String.singleton separator ++ name

end Path

namespace Tree

variable {α β γ δ : Type}

/-- The place that the names lead to. -/
def find? : Tree α β → List String → Option (Tree α β)
  | t, [] => some t
  | .leaf _, _ :: _ => none
  | .level _ entries, name :: rest =>
    match Table.find? entries name with
    | some t => find? t rest
    | none => none

/-- The thing that the names lead to. -/
def leaf? (t : Tree α β) (names : List String) : Option α :=
  match t.find? names with
  | some (.leaf x) => some x
  | _ => none

mutual

/-- The tree with other things, each made from its path and the thing, and
with other labels. -/
def mapPaths (f : String → α → γ) (g : β → δ) (path : String) : Tree α β → Tree γ δ
  | .leaf x => .leaf (f path x)
  | .level label entries => .level (g label) (mapEntries f g path entries)

/-- The entries of a level at a path with other things. -/
def mapEntries (f : String → α → γ) (g : β → δ) (path : String) :
    List (String × Tree α β) → List (String × Tree γ δ)
  | [] => []
  | (name, t) :: rest => (name, mapPaths f g (Path.below path name) t) :: mapEntries f g path rest

end

mutual

/-- The things of a tree, level by level in the order of the entries. -/
def leaves : Tree α β → List α
  | .leaf x => [x]
  | .level _ entries => entriesLeaves entries

def entriesLeaves : List (String × Tree α β) → List α
  | [] => []
  | (_, t) :: rest => leaves t ++ entriesLeaves rest

end

/-! ## Looking up in a tree with other things -/

theorem find?_mapEntries (f : String → α → γ) (g : β → δ) (path : String)
    (entries : List (String × Tree α β)) (name : String) :
    Table.find? (mapEntries f g path entries) name =
      (Table.find? entries name).map (mapPaths f g (Path.below path name)) := by
  induction entries with
  | nil => simp [mapEntries]
  | cons head rest ih =>
    obtain ⟨k, t⟩ := head
    simp only [mapEntries, Table.find?_cons]
    by_cases hk : k = name
    · subst hk
      simp
    · simp [hk, ih]

/-- The names lead to the new thing of the place that they led to before, made from the path along
the names. -/
theorem leaf?_mapPaths_foldl (f : String → α → γ) (g : β → δ) (path : String) (t : Tree α β)
    (names : List String) :
    (mapPaths f g path t).leaf? names = (t.leaf? names).map (f (names.foldl Path.below path)) := by
  induction names generalizing t path with
  | nil => cases t <;> simp [mapPaths, leaf?, find?]
  | cons name rest ih =>
    cases t with
    | leaf x => simp [mapPaths, leaf?, find?]
    | level label entries =>
      unfold leaf? at ih ⊢
      simp only [mapPaths, find?, find?_mapEntries]
      cases Table.find? entries name with
      | none => rfl
      | some t => exact ih (Path.below path name) t

/-- Where the things do not depend on their paths, the names lead to the new thing of the place
that they led to before. -/
theorem leaf?_mapPaths (f : α → γ) (g : β → δ) (path : String) (t : Tree α β)
    (names : List String) :
    (mapPaths (fun _ => f) g path t).leaf? names = (t.leaf? names).map f :=
  leaf?_mapPaths_foldl (fun _ => f) g path t names

/-! ## The things of a tree with other things -/

mutual

theorem length_leaves_mapPaths (f : String → α → γ) (g : β → δ) (path : String) :
    ∀ t : Tree α β, (mapPaths f g path t).leaves.length = t.leaves.length
  | .leaf _ => by simp [mapPaths, leaves]
  | .level _ entries => by
    simp only [mapPaths, leaves]
    exact length_entriesLeaves_mapEntries f g path entries

theorem length_entriesLeaves_mapEntries (f : String → α → γ) (g : β → δ) (path : String) :
    ∀ entries : List (String × Tree α β),
      (entriesLeaves (mapEntries f g path entries)).length = (entriesLeaves entries).length
  | [] => by simp [mapEntries, entriesLeaves]
  | (name, t) :: rest => by
    simp only [mapEntries, entriesLeaves, List.length_append]
    rw [length_leaves_mapPaths f g _ t, length_entriesLeaves_mapEntries f g path rest]

end

end Tree

end GuardedCall
