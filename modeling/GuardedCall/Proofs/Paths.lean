-- Paths and the names in them. A path falls apart into its names and the names
-- make up the path again, unless one of them is empty. The routers that can be
-- built have no such name, and none with a separator.
import GuardedCall.Router.Basic

namespace GuardedCall

/-! ## Names of a path -/

namespace Path

theorem segments_ne_nil (path : String) : segments path ≠ [] := by
  unfold segments
  simp

/-- A name without a separator in front of a path is the first name. -/
theorem segments_join {name : String} (h : separator ∉ name.toList) (path : String) :
    segments (name ++ String.singleton separator ++ path) = name :: segments path := by
  unfold segments
  simp only [String.toList_append, String.toList_singleton, List.append_assoc,
    List.singleton_append]
  rw [List.splitOn_append_cons_self_of_not_mem h, List.map_cons, String.ofList_toList]

/-- The first name of a path, and the path behind its separator if it has one. -/
def splitFirst (path : String) : String × Option String :=
  match path.toList.dropWhile (· ≠ separator) with
  | [] => (path, none)
  | _ :: rest =>
    (String.ofList (path.toList.takeWhile (· ≠ separator)), some (String.ofList rest))

theorem ne_separator_of_not_mem {cs : List Char} (h : separator ∉ cs) :
    ∀ c ∈ cs, decide (c ≠ separator) = true := fun _ hc =>
  decide_eq_true fun heq => h (heq ▸ hc)

theorem splitFirst_of_not_mem {path : String} (h : separator ∉ path.toList) :
    splitFirst path = (path, none) := by
  have hdrop : (path.toList ++ []).dropWhile (· ≠ separator) = [] :=
    List.dropWhile_append_of_pos (ne_separator_of_not_mem h)
  rw [List.append_nil] at hdrop
  unfold splitFirst
  rw [hdrop]

theorem splitFirst_join {name : String} (h : separator ∉ name.toList) (path : String) :
    splitFirst (name ++ String.singleton separator ++ path) = (name, some path) := by
  have hname := ne_separator_of_not_mem h
  unfold splitFirst
  simp only [String.toList_append, String.toList_singleton, List.append_assoc,
    List.singleton_append, List.dropWhile_append_of_pos hname, List.takeWhile_append_of_pos hname]
  simp

/-- The names of a path are its first name and the names of the path behind it. -/
theorem segments_eq_splitFirst (path : String) :
    segments path =
      match splitFirst path with
      | (name, none) => [name]
      | (name, some rest) => name :: segments rest := by
  by_cases h : separator ∈ path.toList
  · obtain ⟨name, rest, hpath, hname⟩ := List.eq_append_cons_of_mem h
    have hjoin : path =
        String.ofList name ++ String.singleton separator ++ String.ofList rest := by
      apply String.toList_inj.mp
      simp [hpath]
    have hname : separator ∉ (String.ofList name).toList := by simpa using hname
    rw [hjoin, segments_join hname, splitFirst_join hname]
  · rw [splitFirst_of_not_mem h]
    unfold segments
    rw [List.splitOn_eq_singleton h, List.map_singleton, String.ofList_toList]

theorem intercalate_below (sep a b : List Char) (rest : List (List Char)) :
    sep.intercalate ((a ++ sep ++ b) :: rest) = sep.intercalate (a :: b :: rest) := by
  cases rest <;> simp [List.intercalate]

/-- The path that leads below a name joins the names, whether or not those behind the first one are
empty. -/
theorem foldl_below_of_ne {name : String} (hname : name ≠ "") (rest : List String) :
    rest.foldl below name = ".".intercalate (name :: rest) := by
  induction rest generalizing name with
  | nil => simp
  | cons next rest ih =>
    have hbelow : below name next = name ++ "." ++ next := if_neg hname
    have hne : name ++ "." ++ next ≠ "" := by
      intro h
      have hchars := congrArg String.toList h
      simp at hchars
    apply String.toList_inj.mp
    rw [List.foldl_cons, hbelow, ih hne, String.toList_intercalate, String.toList_intercalate]
    simp only [List.map_cons, String.toList_append]
    exact intercalate_below _ _ _ _

/-- Names that are not empty lead along the path that joins them. -/
theorem foldl_below_eq_intercalate {names : List String} (h : ∀ n ∈ names, n ≠ "") :
    names.foldl below "" = ".".intercalate names := by
  cases names with
  | nil => rfl
  | cons name rest =>
    have hfirst : below "" name = name := rfl
    rw [List.foldl_cons, hfirst, foldl_below_of_ne (h name List.mem_cons_self)]

/-- The names of a path make up the path again. -/
theorem intercalate_segments (path : String) : ".".intercalate (segments path) = path := by
  apply String.toList_inj.mp
  unfold segments
  rw [String.toList_intercalate]
  simp only [List.map_map, Function.comp_def, String.toList_ofList, List.map_id']
  exact List.intercalate_splitOn separator

/-- Names without separators are the names of the path that joins them. -/
theorem segments_intercalate {names : List String} (hne : names ≠ [])
    (h : ∀ n ∈ names, separator ∉ n.toList) : segments (".".intercalate names) = names := by
  have hjoined : (".".intercalate names).toList = [separator].intercalate (names.map String.toList) :=
    String.toList_intercalate
  unfold segments
  rw [hjoined, List.splitOn_intercalate separator (by simpa using h) (by simpa using hne)]
  simp [Function.comp_def]

/-- A path whose names are not empty is the path that leads along them. -/
theorem foldl_below_segments {path : String} (h : ∀ n ∈ segments path, n ≠ "") :
    (segments path).foldl below "" = path := by
  rw [foldl_below_eq_intercalate h, intercalate_segments]

end Path

/-! ## Going along a path -/

namespace Tree

variable {α β ε : Type}

/-- Goes along the names from level to level. The last name has to be that of a thing, and each one
before it that of a level; at the first one that is not, the walk ends with the fault. -/
def descend (missing : ε) : Table (Tree α β) → List String → Except ε α
  | _, [] => .error missing
  | entries, name :: rest =>
    match entries.find? name, rest.isEmpty with
    | some (.leaf x), true => .ok x
    | some (.level _ inner), false => descend missing inner rest
    | _, _ => .error missing

/-- The walk finds the thing that the names lead to. -/
theorem descend_eq (missing : ε) (label : β) (entries : Table (Tree α β)) (names : List String) :
    descend missing entries names =
      match (level label entries).leaf? names with
      | some x => .ok x
      | none => .error missing := by
  induction names generalizing label entries with
  | nil => rfl
  | cons name rest ih =>
    rw [descend]
    unfold leaf? at ih ⊢
    rw [find?]
    rcases Table.find? entries name with _ | ⟨x⟩ | ⟨label, inner⟩
    · rfl
    · cases rest <;> rfl
    · -- A level is not what the last name may lead to.
      cases rest with
      | nil => rfl
      | cons next rest => exact ih label inner

theorem descend_eq_ok_iff {missing : ε} {label : β} {entries : Table (Tree α β)}
    {names : List String} {x : α} :
    descend missing entries names = .ok x ↔ (level label entries).leaf? names = some x := by
  rw [descend_eq missing label]
  cases (level label entries).leaf? names <;> simp

end Tree

/-! ## Trees whose names are part of paths -/

/-- At every level each name can be part of a path. -/
inductive Tree.WellNamed {α β : Type} : Tree α β → Prop
  | leaf (x : α) : WellNamed (.leaf x)
  | level (label : β) {entries : List (String × Tree α β)}
    (names : ∀ p ∈ entries, Router.isValidName p.1 = true)
    (below : ∀ p ∈ entries, WellNamed p.2) : WellNamed (.level label entries)

/-- At every level the names are in order, so none is there twice. -/
inductive Tree.Ordered {α β : Type} : Tree α β → Prop
  | leaf (x : α) : Ordered (.leaf x)
  | level (label : β) {entries : Table (Tree α β)} (sorted : entries.Sorted)
    (below : ∀ p ∈ entries, Ordered p.2) : Ordered (.level label entries)

theorem Router.ne_empty_of_isValidName {name : String} (h : Router.isValidName name = true) :
    name ≠ "" := by
  rintro rfl
  simp [Router.isValidName] at h

theorem Router.separator_not_mem_of_isValidName {name : String} (h : Router.isValidName name = true) :
    Path.separator ∉ name.toList := by
  intro hmem
  simp only [Router.isValidName, Bool.and_eq_true, Bool.not_eq_true', List.any_eq_false] at h
  exact h.2 _ hmem (by simp [Router.isBarred])

/-- The names that lead to a thing are valid. -/
theorem Tree.WellNamed.valid_of_leaf? {α β : Type} {t : Tree α β} (ht : t.WellNamed)
    {names : List String} {x : α} (h : t.leaf? names = some x) :
    ∀ n ∈ names, Router.isValidName n = true := by
  induction names generalizing t with
  | nil => simp
  | cons name rest ih =>
    cases ht with
    | leaf y => simp [Tree.leaf?, Tree.find?] at h
    | @level label entries hnames hbelow =>
      unfold Tree.leaf? at h ih
      rw [Tree.find?] at h
      rcases hfind : Table.find? entries name with _ | t
      · rw [hfind] at h
        cases h
      · rw [hfind] at h
        have hmem := Table.mem_of_find? hfind
        intro n hn
        rcases List.mem_cons.mp hn with rfl | hn
        · exact hnames _ hmem
        · exact ih (hbelow _ hmem) h n hn

/-! ## Routers that can be built -/

/-- A router that a context makes of procedures and of routers that were made this way. -/
inductive Router.Obtained {σ : Type} : Router σ → Prop
  | router {S : Type → Type} (c : RouterContext S) {entries : List (String × RouterEntry σ)}
    {r : Router σ} {τ : Type} (s : τ)
    (nested : ∀ name label inner, (name, .level label inner) ∈ entries → Obtained ⟨label, inner⟩)
    (built : ((c.router entries : Attempt τ RouterFault (Router σ)).ends s).1 = .ok r) : Obtained r

namespace Router

variable {σ : Type}

/-- What is in a level that was put together was there before or is one of the entries, and then
its name is valid. -/
theorem mem_of_addEntries {α : Type} {t t' : Table α} {entries : List (String × α)}
    (h : addEntries t entries = .ok t') {p : String × α} (hp : p ∈ t') :
    p ∈ t ∨ (p ∈ entries ∧ isValidName p.1 = true) := by
  induction entries generalizing t with
  | nil =>
    obtain rfl := Except.ok.inj h
    exact .inl hp
  | cons head rest ih =>
    obtain ⟨name, x⟩ := head
    rw [addEntries] at h
    split at h
    · cases h
    · rename_i hvalid
      split at h
      · cases h
      · rcases ih h with hp | ⟨hp, hname⟩
        · rcases Table.mem_insert hp with rfl | hp
          · exact .inr ⟨List.mem_cons_self, by simpa using hvalid⟩
          · exact .inl hp
        · exact .inr ⟨List.mem_cons_of_mem _ hp, hname⟩

theorem sorted_of_addEntries {α : Type} {t t' : Table α} {entries : List (String × α)}
    (h : addEntries t entries = .ok t') (ht : t.Sorted) : t'.Sorted := by
  induction entries generalizing t with
  | nil =>
    obtain rfl := Except.ok.inj h
    exact ht
  | cons head rest ih =>
    obtain ⟨name, x⟩ := head
    rw [addEntries] at h
    split at h
    · cases h
    · split at h
      · cases h
      · exact ih h (ht.insert name x)

theorem addEntries_of_build {τ : Type} {defaultAdapter : String}
    {entries : List (String × RouterEntry σ)} {r : Router σ} {s : τ}
    (h : ((build defaultAdapter entries : Attempt τ RouterFault (Router σ)).ends s).1 = .ok r) :
    addEntries [] entries = .ok r.entries := by
  unfold build ofEntries at h
  rcases ht : addEntries [] entries with f | t
  · simp [ht, Attempt.ends_bind, Except.map] at h
  · simp only [ht, Except.map, Attempt.ends_bind, Attempt.ends_ofExcept, Attempt.ends_log,
      Attempt.ends_pure, Except.ok.injEq] at h
    rw [← h]

/-- An entry that is a procedure or a router that can be built. -/
def Proper (t : RouterEntry σ) : Prop :=
  ∀ label inner, t = .level label inner → Obtained ⟨label, inner⟩

theorem proper_leaf (e : Endpoint σ) : Proper (.leaf e) := by
  intro label inner h
  cases h

theorem Obtained.proper {r : Router σ} (h : r.Obtained) : Proper r.entry := by
  intro label inner heq
  cases heq
  exact h

theorem Obtained.ofEntries {S : Type → Type} (c : RouterContext S)
    (entries : List (String × RouterEntry σ)) {t : Table (RouterEntry σ)}
    (h : addEntries [] entries = .ok t) (nested : ∀ p ∈ entries, Proper p.2) :
    Obtained ⟨c.adapter.name, t⟩ := by
  refine .router c () (fun name label inner hmem => nested _ hmem label inner rfl) ?_
  unfold RouterContext.router build Router.ofEntries
  rw [h]
  rfl

/-- At every level of a router that can be built each name can be part of a path. -/
theorem Obtained.wellNamed {r : Router σ} (h : r.Obtained) : r.entry.WellNamed := by
  induction h with
  | @router S c entries r τ s nested built ih =>
    have hadd := addEntries_of_build built
    refine .level _ ?_ ?_
    · intro p hp
      rcases mem_of_addEntries hadd hp with hp | ⟨-, hname⟩
      · cases hp
      · exact hname
    · intro p hp
      rcases mem_of_addEntries hadd hp with hp | ⟨hp, -⟩
      · cases hp
      · obtain ⟨name, t⟩ := p
        cases t with
        | leaf e => exact .leaf e
        | level label inner => exact ih name label inner hp

/-- At every level of a router that can be built the names are in order. -/
theorem Obtained.ordered {r : Router σ} (h : r.Obtained) : r.entry.Ordered := by
  induction h with
  | @router S c entries r τ s nested built ih =>
    have hadd := addEntries_of_build built
    refine .level _ (sorted_of_addEntries hadd List.Pairwise.nil) ?_
    intro p hp
    rcases mem_of_addEntries hadd hp with hp | ⟨hp, -⟩
    · cases hp
    · obtain ⟨name, t⟩ := p
      cases t with
      | leaf e => exact .leaf e
      | level label inner => exact ih name label inner hp

end Router

end GuardedCall
