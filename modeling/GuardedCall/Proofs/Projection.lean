-- The law of shapes and clients: a router, its shape and the client that is
-- made from the shape have their procedures at the same paths, for every path
-- whatever it is made of. The stub at a path names that very path, so what it
-- sends goes to the procedure that the router has there.
import GuardedCall.Adapter.ByType
import GuardedCall.Adapter.Passthrough
import GuardedCall.Client.Basic
import GuardedCall.Proofs.Paths

namespace GuardedCall.Projection

variable {σ τ ε : Type}

/-! ## Walks -/

/-- A router goes along the names of a path from router to router. -/
theorem resolve_eq_descend (r : Router σ) (path : String) :
    r.resolve path = Tree.descend (.notFound path) r.entries (Path.segments path) := by
  rw [Tree.descend_eq _ r.defaultAdapter]
  unfold Router.resolve Router.entry
  cases Tree.leaf? _ (Path.segments path) <;> rfl

/-- A namespace goes along the names of a path from namespace to namespace. -/
theorem stub_eq_descend (n : Namespace τ) (path : String) :
    n.stub path = Tree.descend (.unknownProcedure path) n.entries (Path.segments path) := by
  rw [Tree.descend_eq _ ()]
  unfold Namespace.stub Namespace.node
  cases Tree.leaf? _ (Path.segments path) <;> rfl

/-- A shape looks for the first name of a path, and for the path behind it in what has that name. -/
theorem lookup_eq_splitFirst (s : RouterShape) (path : String) :
    s.lookup path =
      (s.entries.find? (Path.splitFirst path).1).bind fun node =>
        match node, (Path.splitFirst path).2 with
        | node, none => some node
        | .level label inner, some rest => (⟨label, inner⟩ : RouterShape).lookup rest
        | .leaf _, some _ => none := by
  unfold RouterShape.lookup RouterShape.node
  rw [Path.segments_eq_splitFirst path]
  rcases Path.splitFirst path with ⟨name, _ | rest⟩
  · dsimp only
    rw [Tree.find?]
    cases s.entries.find? name <;> rfl
  · obtain ⟨first, others, hrest⟩ := List.exists_cons_of_ne_nil (Path.segments_ne_nil rest)
    dsimp only
    rw [Tree.find?]
    rcases s.entries.find? name with _ | ⟨p⟩ | ⟨label, inner⟩
    · rfl
    · -- A procedure has nothing below it, and every path has a name.
      rw [hrest]
      rfl
    · rfl

/-! ## What is at the end of a path -/

theorem resolve_eq_ok_iff {r : Router σ} {path : String} {e : Endpoint σ} :
    r.resolve path = .ok e ↔ r.entry.leaf? (Path.segments path) = some e := by
  rw [resolve_eq_descend]
  exact Tree.descend_eq_ok_iff

theorem lookup_eq_leaf_iff {s : RouterShape} {path : String} {p : ProcedureShape} :
    s.lookup path = some (.leaf p) ↔ s.node.leaf? (Path.segments path) = some p := by
  unfold RouterShape.lookup Tree.leaf?
  rcases s.node.find? (Path.segments path) with _ | ⟨q⟩ | _ <;> simp

theorem stub_eq_ok_iff {n : Namespace τ} {path : String} {s : Stub τ} :
    n.stub path = .ok s ↔ n.node.leaf? (Path.segments path) = some s := by
  rw [stub_eq_descend]
  exact Tree.descend_eq_ok_iff

theorem leaf?_shape (r : Router σ) (names : List String) :
    r.shape.node.leaf? names = (r.entry.leaf? names).map Endpoint.shape := by
  have hnode : r.shape.node = Tree.mapPaths (fun _ e => e.shape) id "" r.entry := by
    simp [Router.shape, RouterShape.node, Router.entry, Tree.mapPaths]
  rw [hnode, Tree.leaf?_mapPaths]

/-- The stub at the end of some names has the path along them. -/
theorem leaf?_ofShape (shape : RouterShape) (t : Transport τ) (names : List String) :
    (Client.ofShape shape t).root.node.leaf? names =
      (shape.node.leaf? names).map fun p => ⟨names.foldl Path.below "", p.kind, t⟩ := by
  have hnode : (Client.ofShape shape t).root.node =
      Tree.mapPaths (fun path p => ⟨path, p.kind, t⟩) (fun _ => ()) "" shape.node := by
    simp [Client.ofShape, RouterShape.node, Namespace.node, Tree.mapPaths]
  rw [hnode, Tree.leaf?_mapPaths_foldl]

theorem leaf?_projected (r : Router σ) (t : Transport τ) (names : List String) :
    (Client.ofShape r.shape t).root.node.leaf? names =
      (r.entry.leaf? names).map fun e => ⟨names.foldl Path.below "", e.kind, t⟩ := by
  rw [leaf?_ofShape, leaf?_shape, Option.map_map]
  rfl

/-- The path along the names that lead to a procedure is the path that they were taken from. -/
theorem foldl_below_of_resolve {r : Router σ} (h : r.Obtained) {path : String} {e : Endpoint σ}
    (he : r.resolve path = .ok e) : (Path.segments path).foldl Path.below "" = path := by
  have hvalid := h.wellNamed.valid_of_leaf? (resolve_eq_ok_iff.mp he)
  exact Path.foldl_below_segments fun n hn => Router.ne_empty_of_isValidName (hvalid n hn)

/-! ## Namespaces -/

/-- A path below a name leads to where the rest of it leads in the namespace of the name. -/
theorem stub_below_iff (n : Namespace τ) {name : String} (h : Path.separator ∉ name.toList)
    (path : String) (s : Stub τ) :
    n.stub (name ++ String.singleton Path.separator ++ path) = .ok s ↔
      ∃ inner, n.namespace? name = some inner ∧ inner.stub path = .ok s := by
  -- The path has a name, so the name before it is not the last one.
  have hmore : (Path.segments path).isEmpty = false := by
    simpa using Path.segments_ne_nil path
  rw [stub_eq_descend, Path.segments_join h, Tree.descend, hmore]
  unfold Namespace.namespace?
  rcases n.entries.find? name with _ | ⟨leaf⟩ | ⟨⟨⟩, entries⟩
  · simp
  · simp
  · simp only [Option.some.injEq, exists_eq_left', stub_eq_ok_iff]
    exact Tree.descend_eq_ok_iff

theorem length_stubs (r : Router σ) (t : Transport τ) :
    (Client.ofShape r.shape t).root.stubs.length = r.paths.length := by
  unfold Namespace.stubs Namespace.node Client.ofShape Router.shape Router.paths Router.entry
  rw [Tree.length_leaves_mapPaths]
  simp only [Tree.leaves, Tree.length_entriesLeaves_mapEntries]

/-! ## Routers, shapes and clients -/

/-- A router, its shape and a client of the shape have the same at a path. -/
structure Agree (r : Router σ) (t : Transport τ) (c : Client τ) (path : String) : Prop where
  /-- The shape has a procedure exactly where the router has one. -/
  shape_iff : (∃ e, r.resolve path = .ok e) ↔ ∃ p, r.shape.lookup path = some (.leaf p)
  /-- The client has a stub exactly where the router has a procedure. -/
  stub_iff : (∃ e, r.resolve path = .ok e) ↔ ∃ s, c.stub path = .ok s
  /-- The shape tells the kind and the adapter of the procedure. -/
  shape_eq : ∀ e, r.resolve path = .ok e → r.shape.lookup path = some (.leaf ⟨e.kind, e.adapter⟩)
  /-- The stub has the kind of the procedure and calls the path where the router has it. -/
  stub_eq : ∀ e, r.resolve path = .ok e → c.stub path = .ok ⟨path, e.kind, t⟩

theorem agree_ofShape {r : Router σ} (h : r.Obtained) (t : Transport τ) (path : String) :
    Agree r t (Client.ofShape r.shape t) path where
  shape_iff := by
    simp only [resolve_eq_ok_iff, lookup_eq_leaf_iff, leaf?_shape]
    cases r.entry.leaf? (Path.segments path) <;> simp
  stub_iff := by
    simp only [resolve_eq_ok_iff, Client.stub, stub_eq_ok_iff, leaf?_projected]
    cases r.entry.leaf? (Path.segments path) <;> simp
  shape_eq := by
    intro e he
    rw [lookup_eq_leaf_iff, leaf?_shape, resolve_eq_ok_iff.mp he]
    rfl
  stub_eq := by
    intro e he
    rw [Client.stub, stub_eq_ok_iff, leaf?_projected, resolve_eq_ok_iff.mp he,
      foldl_below_of_resolve h he]
    rfl

/-- Of every router that can be built the client of its shape has a stub exactly at the paths
where the router, and its shape, have a procedure, with the same kind, adapter and path. It has
as many stubs as the router has paths, and below a name it has what the namespace of the name
has. -/
theorem router_shape_and_client_agree {r : Router σ} (h : r.Obtained) (t : Transport τ) (s : τ) :
    ∃ c : Client τ, (Client.project r.shape t : Attempt τ ε _).ends s = (.ok c, s) ∧
      (∀ path, Agree r t c path) ∧
      c.root.stubs.length = r.paths.length ∧
      ∀ name path stub, Path.separator ∉ name.toList →
        (c.stub (name ++ "." ++ path) = .ok stub ↔
          ∃ inner, c.namespace? name = some inner ∧ inner.stub path = .ok stub) := by
  refine ⟨Client.ofShape r.shape t, rfl, agree_ofShape h t, length_stubs r t, ?_⟩
  intro name path stub hname
  exact stub_below_iff (Client.ofShape r.shape t).root hname path stub

/-! ## A router of two levels -/

/-- A procedure that gives back what it is given. -/
def echo : Endpoint Unit := ⟨.query, passthrough.name, fun v => pure v⟩

/-- A router in a router, each made by a context of its own. -/
def nestedEcho : Router Unit :=
  ⟨byType.name, [("inner", Router.entry ⟨passthrough.name, [("echo", .leaf echo)]⟩)]⟩

theorem obtained_nestedEcho : nestedEcho.Obtained := by
  have hinner : (⟨passthrough.name, [("echo", .leaf echo)]⟩ : Router Unit).Obtained :=
    .ofEntries ⟨passthrough⟩ [("echo", .leaf echo)] rfl (by simp [Router.proper_leaf])
  refine .ofEntries ⟨byType⟩ nestedEcho.entries rfl ?_
  simp [nestedEcho, hinner.proper]

/-- The client of a router of two levels has a stub at the path of the procedure below. -/
theorem nestedEcho_and_client_agree :
    nestedEcho.Obtained ∧ nestedEcho.resolve "inner.echo" = .ok echo ∧
      ∃ c : Client Unit,
        (Client.project nestedEcho.shape (loopback nestedEcho) : Attempt Unit Empty _).ends () =
          (.ok c, ()) ∧
        c.stub "inner.echo" = .ok ⟨"inner.echo", .query, loopback nestedEcho⟩ := by
  have hresolve : nestedEcho.resolve "inner.echo" = .ok echo := by
    rw [resolve_eq_ok_iff]
    rfl
  obtain ⟨c, hc, hagree, -, -⟩ :=
    router_shape_and_client_agree obtained_nestedEcho (loopback nestedEcho) ()
  exact ⟨obtained_nestedEcho, hresolve, c, hc, (hagree "inner.echo").stub_eq echo hresolve⟩

end GuardedCall.Projection
