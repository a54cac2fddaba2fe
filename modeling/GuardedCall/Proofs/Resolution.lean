-- Paths and procedures of a router. The paths that a router lists are those at
-- which it has a procedure: each procedure has one of them, made of the names
-- that lead to it, and at every other text a call finds nothing and does
-- nothing.
import GuardedCall.Proofs.Projection
import GuardedCall.Proofs.Serving

namespace GuardedCall

namespace Tree

variable {α β γ δ : Type}

/-! ## Things and the names that lead to them -/

/-- The names lead from level to level and in the end to a thing. -/
inductive Leads : Tree α β → List String → α → Prop
  | here (x : α) : Leads (.leaf x) [] x
  | into {label : β} {entries : List (String × Tree α β)} {name : String} {t : Tree α β}
    {names : List String} {x : α} (h : (name, t) ∈ entries) (hx : Leads t names x) :
    Leads (.level label entries) (name :: names) x

mutual

/-- The things of a tree in the order of the entries, each with the names that lead to it. -/
def namedLeaves : Tree α β → List (List String × α)
  | .leaf x => [([], x)]
  | .level _ entries => entriesNamedLeaves entries

def entriesNamedLeaves : List (String × Tree α β) → List (List String × α)
  | [] => []
  | (name, t) :: rest =>
    (namedLeaves t).map (fun p => (name :: p.1, p.2)) ++ entriesNamedLeaves rest

end

mutual

/-- Each thing of a tree with other things is made from the path along its names. -/
theorem leaves_mapPaths (f : String → α → γ) (g : β → δ) (path : String) :
    ∀ t : Tree α β,
      (mapPaths f g path t).leaves = t.namedLeaves.map fun p => f (p.1.foldl Path.below path) p.2
  | .leaf _ => by simp [mapPaths, leaves, namedLeaves]
  | .level _ entries => by
    simp only [mapPaths, leaves, namedLeaves]
    exact entriesLeaves_mapEntries f g path entries

theorem entriesLeaves_mapEntries (f : String → α → γ) (g : β → δ) (path : String) :
    ∀ entries : List (String × Tree α β),
      entriesLeaves (mapEntries f g path entries) =
        (entriesNamedLeaves entries).map fun p => f (p.1.foldl Path.below path) p.2
  | [] => by simp [mapEntries, entriesLeaves, entriesNamedLeaves]
  | (name, t) :: rest => by
    simp only [mapEntries, entriesLeaves, entriesNamedLeaves, List.map_append, List.map_map]
    rw [leaves_mapPaths f g _ t, entriesLeaves_mapEntries f g path rest]
    rfl

end

mutual

theorem map_snd_namedLeaves : ∀ t : Tree α β, t.namedLeaves.map Prod.snd = t.leaves
  | .leaf _ => by simp [leaves, namedLeaves]
  | .level _ entries => by
    simp only [leaves, namedLeaves]
    exact map_snd_entriesNamedLeaves entries

theorem map_snd_entriesNamedLeaves : ∀ entries : List (String × Tree α β),
    (entriesNamedLeaves entries).map Prod.snd = entriesLeaves entries
  | [] => by simp [entriesLeaves, entriesNamedLeaves]
  | (name, t) :: rest => by
    simp only [entriesLeaves, entriesNamedLeaves, List.map_append, List.map_map]
    rw [← map_snd_namedLeaves t, ← map_snd_entriesNamedLeaves rest]
    rfl

end

theorem entriesNamedLeaves_eq_flatMap (entries : List (String × Tree α β)) :
    entriesNamedLeaves entries =
      entries.flatMap fun m => m.2.namedLeaves.map fun p => (m.1 :: p.1, p.2) := by
  induction entries with
  | nil => simp [entriesNamedLeaves]
  | cons head rest ih => simp [entriesNamedLeaves, ih]

theorem mem_entriesNamedLeaves_iff {entries : List (String × Tree α β)} {p : List String × α} :
    p ∈ entriesNamedLeaves entries ↔
      ∃ m ∈ entries, ∃ q ∈ m.2.namedLeaves, p = (m.1 :: q.1, q.2) := by
  rw [entriesNamedLeaves_eq_flatMap]
  simp [eq_comm]

mutual

theorem leads_of_mem_namedLeaves : ∀ (t : Tree α β) {names : List String} {x : α},
    (names, x) ∈ t.namedLeaves → Leads t names x
  | .leaf y, names, x, h => by
    rw [namedLeaves, List.mem_singleton] at h
    cases h
    exact .here y
  | .level _ entries, names, x, h => by
    obtain ⟨m, hm, rest, rfl, hx⟩ := leads_of_mem_entriesNamedLeaves entries h
    exact .into hm hx

theorem leads_of_mem_entriesNamedLeaves : ∀ (entries : List (String × Tree α β))
    {names : List String} {x : α}, (names, x) ∈ entriesNamedLeaves entries →
    ∃ m ∈ entries, ∃ rest, names = m.1 :: rest ∧ Leads m.2 rest x
  | [], names, x, h => by simp [entriesNamedLeaves] at h
  | (name, t) :: others, names, x, h => by
    rw [entriesNamedLeaves, List.mem_append, List.mem_map] at h
    rcases h with ⟨q, hq, heq⟩ | h
    · cases heq
      exact ⟨_, List.mem_cons_self, q.1, rfl, leads_of_mem_namedLeaves t hq⟩
    · obtain ⟨m, hm, rest, hnames, hx⟩ := leads_of_mem_entriesNamedLeaves others h
      exact ⟨m, List.mem_cons_of_mem _ hm, rest, hnames, hx⟩

end

/-- The things that are listed are those that names lead to. -/
theorem mem_namedLeaves_iff {t : Tree α β} {names : List String} {x : α} :
    (names, x) ∈ t.namedLeaves ↔ Leads t names x := by
  constructor
  · exact leads_of_mem_namedLeaves t
  · intro h
    induction h with
    | here x => exact List.mem_singleton.mpr rfl
    | into h hx ih => exact mem_entriesNamedLeaves_iff.mpr ⟨_, h, _, ih, rfl⟩

/-- The things are listed in the order of the names that lead to them, level by level. -/
theorem Ordered.pairwise_namedLeaves {t : Tree α β} (h : t.Ordered) :
    t.namedLeaves.Pairwise fun p q => p.1 < q.1 := by
  induction h with
  | leaf x => exact List.pairwise_singleton _ _
  | level label sorted below ih =>
    rw [namedLeaves, entriesNamedLeaves_eq_flatMap, List.pairwise_flatMap]
    constructor
    · intro m hm
      rw [List.pairwise_map]
      exact (ih m hm).imp fun hlt => .cons hlt
    · -- Names below different entries differ in the first place.
      refine sorted.imp fun hlt p hp q hq => ?_
      obtain ⟨p, -, rfl⟩ := List.mem_map.mp hp
      obtain ⟨q, -, rfl⟩ := List.mem_map.mp hq
      exact .rel hlt

/-- No two things have the same names. -/
theorem Ordered.nodup_namedLeaves {t : Tree α β} (h : t.Ordered) :
    (t.namedLeaves.map Prod.fst).Nodup := by
  rw [List.nodup_iff_pairwise_ne, List.pairwise_map]
  refine h.pairwise_namedLeaves.imp fun {p q} hlt heq => ?_
  rw [heq] at hlt
  exact List.lt_irrefl _ hlt

theorem leads_of_leaf? {t : Tree α β} {names : List String} {x : α} (h : t.leaf? names = some x) :
    Leads t names x := by
  induction names generalizing t with
  | nil =>
    cases t with
    | leaf y =>
      obtain rfl := Option.some.inj h
      exact .here y
    | level label entries => simp [leaf?, find?] at h
  | cons name rest ih =>
    cases t with
    | leaf y => simp [leaf?, find?] at h
    | level label entries =>
      unfold leaf? at h ih
      rw [find?] at h
      rcases hfind : Table.find? entries name with _ | t
      · rw [hfind] at h
        cases h
      · rw [hfind] at h
        exact .into (Table.mem_of_find? hfind) (ih h)

/-- Where no name is there twice, looking up goes the way of the names. -/
theorem Ordered.leaf?_eq_some_iff {t : Tree α β} (h : t.Ordered) {names : List String} {x : α} :
    t.leaf? names = some x ↔ Leads t names x := by
  refine ⟨leads_of_leaf?, fun hx => ?_⟩
  induction hx with
  | here x => rfl
  | into hmem hx ih =>
    cases h with
    | level label sorted below =>
      unfold leaf? at ih ⊢
      rw [find?, sorted.find?_of_mem hmem]
      exact ih (below _ hmem)

end Tree

namespace Resolution

variable {σ : Type}

/-! ## Paths of a router that can be built -/

section Obtained

variable {r : Router σ} (h : r.Obtained) {names : List String} {e : Endpoint σ}
include h

theorem valid_of_leads (he : r.entry.Leads names e) : ∀ n ∈ names, Router.isValidName n = true :=
  h.wellNamed.valid_of_leaf? (h.ordered.leaf?_eq_some_iff.mpr he)

theorem segments_of_leads (he : r.entry.Leads names e) :
    Path.segments (".".intercalate names) = names := by
  refine Path.segments_intercalate ?_ fun n hn => ?_
  · rintro rfl
    cases he
  · exact Router.separator_not_mem_of_isValidName (valid_of_leads h he n hn)

/-- A path leads to a procedure exactly if it joins the names that lead there. -/
theorem resolve_eq_ok_iff_leads {path : String} :
    r.resolve path = .ok e ↔ ∃ names, r.entry.Leads names e ∧ ".".intercalate names = path := by
  rw [Projection.resolve_eq_ok_iff, h.ordered.leaf?_eq_some_iff]
  constructor
  · intro he
    exact ⟨_, he, Path.intercalate_segments path⟩
  · rintro ⟨names, he, rfl⟩
    rwa [segments_of_leads h he]

/-- The paths of a router join the names of its procedures. -/
theorem paths_eq_map : r.paths = r.entry.namedLeaves.map fun p => ".".intercalate p.1 := by
  unfold Router.paths
  rw [Tree.leaves_mapPaths]
  refine List.map_congr_left fun p hp => ?_
  have hvalid := valid_of_leads h (Tree.mem_namedLeaves_iff.mp hp)
  exact Path.foldl_below_eq_intercalate fun n hn => Router.ne_empty_of_isValidName (hvalid n hn)

theorem mem_paths_iff {path : String} : path ∈ r.paths ↔ ∃ e, r.resolve path = .ok e := by
  simp only [paths_eq_map h, List.mem_map, Prod.exists, Tree.mem_namedLeaves_iff,
    resolve_eq_ok_iff_leads h]
  exact exists_comm

theorem nodup_paths : r.paths.Nodup := by
  have hnames := h.ordered.nodup_namedLeaves
  rw [List.nodup_iff_pairwise_ne, List.pairwise_map] at hnames
  rw [paths_eq_map h, List.nodup_iff_pairwise_ne, List.pairwise_map]
  refine hnames.imp_of_mem fun {p q} hp hq hne heq => hne ?_
  have hp' := segments_of_leads h (Tree.mem_namedLeaves_iff.mp hp)
  have hq' := segments_of_leads h (Tree.mem_namedLeaves_iff.mp hq)
  rw [← hp', ← hq', heq]

/-- The paths of a router lead to its procedures one by one. -/
theorem map_resolve_paths : r.paths.map r.resolve = r.entry.leaves.map .ok := by
  rw [paths_eq_map h, ← Tree.map_snd_namedLeaves, List.map_map, List.map_map]
  refine List.map_congr_left fun p hp => ?_
  exact (resolve_eq_ok_iff_leads h).mpr ⟨p.1, Tree.mem_namedLeaves_iff.mp hp, rfl⟩

end Obtained

/-! ## Other texts -/

theorem resolve_eq_error {r : Router σ} {path : String} (h : ¬ ∃ e, r.resolve path = .ok e) :
    r.resolve path = .error (.notFound path) := by
  unfold Router.resolve at h ⊢
  split
  · rename_i e he
    rw [he] at h
    exact absurd ⟨e, rfl⟩ h
  · rfl

/-- Where no procedure is, a call fails and does nothing else: the state stays and nothing is
logged. -/
theorem run_call_of_error {r : Router σ} {path : String} {f : RouterFault}
    (h : r.resolve path = .error f) (v : Json) (s : σ) :
    (r.call path v).run s = ⟨.error f, s, []⟩ := by
  unfold Router.call
  rw [h]
  exact Attempt.run_bind_error _ rfl

/-- What a router does at a text that is none of its paths. -/
structure FindsNothing (r : Router σ) (path : String) : Prop where
  resolve_eq : r.resolve path = .error (.notFound path)
  /-- A call fails, leaves the state alone and logs nothing. -/
  run_call : ∀ v s, (r.call path v).run s = ⟨.error (.notFound path), s, []⟩
  /-- No procedure is invoked. -/
  ends_call : ∀ v s log,
    (r.noting.call path v).ends (s, log) = (.error (.notFound path), (s, log))

theorem findsNothing_of_not {r : Router σ} {path : String} (h : ¬ ∃ e, r.resolve path = .ok e) :
    FindsNothing r path := by
  have herror := resolve_eq_error h
  refine ⟨herror, run_call_of_error herror, fun v s log => ?_⟩
  have hends : (r.call path v).ends s = (.error (.notFound path), s) := by
    rw [Attempt.ends, run_call_of_error herror]
  rw [Router.ends_call_noting, hends, Router.invoked, herror, List.append_nil]

/-! ## Paths and resolution -/

/-- Of every router that can be built the paths are the texts at which a procedure is found. None
is there twice, and they lead to the procedures of the router one by one. The names that lead to a
procedure, joined to a path, find this very procedure. At every other text nothing is found, and
nothing is invoked. -/
theorem paths_and_resolution_are_inverse {r : Router σ} (h : r.Obtained) :
    (∀ path, (∃ e, r.resolve path = .ok e) ↔ path ∈ r.paths) ∧
    r.paths.Nodup ∧
    r.paths.map r.resolve = r.entry.leaves.map .ok ∧
    (∀ path e, r.resolve path = .ok e ↔
      ∃ names, r.entry.Leads names e ∧ ".".intercalate names = path) ∧
    ∀ path, path ∉ r.paths → FindsNothing r path := by
  refine ⟨fun path => (mem_paths_iff h).symm, nodup_paths h, map_resolve_paths h,
    fun path e => resolve_eq_ok_iff_leads h, fun path hpath => ?_⟩
  exact findsNothing_of_not fun he => hpath ((mem_paths_iff h).mpr he)

/-- A router with a procedure and, one level below, with another one of the same name. -/
def twoEchoes : Router Unit :=
  ⟨byType.name, [("echo", .leaf { Projection.echo with kind := .mutation }),
    ("inner", Router.entry ⟨passthrough.name, [("echo", .leaf Projection.echo)]⟩)]⟩

theorem obtained_twoEchoes : twoEchoes.Obtained := by
  have hinner : (⟨passthrough.name, [("echo", .leaf Projection.echo)]⟩ : Router Unit).Obtained :=
    .ofEntries ⟨passthrough⟩ [("echo", .leaf Projection.echo)] rfl (by simp [Router.proper_leaf])
  refine .ofEntries ⟨byType⟩ twoEchoes.entries rfl ?_
  simp [twoEchoes, hinner.proper, Router.proper_leaf]

/-- The two procedures of one name are told apart by their paths, and the level between them is no
procedure. -/
theorem twoEchoes_found :
    twoEchoes.Obtained ∧ twoEchoes.paths = ["echo", "inner.echo"] ∧
      twoEchoes.resolve "inner.echo" = .ok Projection.echo ∧ FindsNothing twoEchoes "inner" := by
  have hpaths : twoEchoes.paths = ["echo", "inner.echo"] := rfl
  obtain ⟨-, -, -, hresolve, hnothing⟩ := paths_and_resolution_are_inverse obtained_twoEchoes
  refine ⟨obtained_twoEchoes, hpaths, ?_, hnothing "inner" ?_⟩
  · refine (hresolve "inner.echo" Projection.echo).mpr ⟨["inner", "echo"], ?_, rfl⟩
    exact .into (List.mem_cons_of_mem _ List.mem_cons_self) (.into List.mem_cons_self (.here _))
  · rw [hpaths]
    decide

end Resolution

end GuardedCall
