-- The law of shapes on the wire. Every text that shows the JSON form of a shape
-- decodes to the shape, however deep it nests and whatever its names are: the
-- tag of an entry stands beside its fields, and names stand only inside
-- `entries`. So a client of the decoded shape is the client of the shape.
import GuardedCall.Client.Basic
import GuardedCall.Proofs.Replies
import GuardedCall.Proofs.Resolution

namespace GuardedCall.Shapes

open GuardedCall.Json GuardedCall.Typed GuardedCall.ShapeNode
open GuardedCall.Reply (ok_bind shows_string shows_object)

/-! ## Texts that show a shape -/

/-- An object of three members is shown by three members. -/
theorem shows_triple {w : Written} {k k' k'' : String} {v v' v'' : Json}
    (h : Shows w (.object [(k, v), (k', v'), (k'', v'')])) :
    ∃ span key content key' content' key'' content'',
      w = .object span [(key, content), (key', content'), (key'', content'')] none ∧
        key.name = k ∧ key'.name = k' ∧ key''.name = k'' ∧
        Shows content v ∧ Shows content' v' ∧ Shows content'' v'' := by
  obtain ⟨span, ms, rfl, hms⟩ := shows_object h
  cases hms with
  | cons key hv hrest =>
    cases hrest with
    | cons key' hv' hrest =>
      cases hrest with
      | cons key'' hv'' hrest =>
        cases hrest
        exact ⟨span, key, _, key', _, key'', _, rfl, rfl, rfl, rfl, hv, hv', hv''⟩

theorem entriesToJson_eq_map (entries : List (String × Tree ProcedureShape String)) :
    entriesToJson entries = entries.map fun m => (m.1, toJson m.2) := by
  induction entries with
  | nil => simp [entriesToJson]
  | cons head rest ih => simp [entriesToJson, ih]

theorem sorted_entriesToJson {entries : Table ShapeNode} (h : entries.Sorted) :
    Table.Sorted (entriesToJson entries) := by
  rw [entriesToJson_eq_map]
  exact List.pairwise_map.mpr h

mutual

/-- The JSON form of an entry is well formed. -/
theorem valid_toJson : ∀ {t : Tree ProcedureShape String}, t.Ordered → (toJson t).Valid
  | .leaf p, _ => by
    have hnames : ["adapter", "kind", "type"].Pairwise (· < ·) := by decide
    exact ⟨.of_keys hnames, trivial, trivial, trivial, trivial⟩
  | .level label entries, h => by
    cases h with
    | level _ sorted below =>
      have hnames : ["default_adapter", "entries", "type"].Pairwise (· < ·) := by decide
      exact ⟨.of_keys hnames, trivial, ⟨sorted_entriesToJson sorted,
        validMembers_entriesToJson below⟩, trivial, trivial⟩

theorem validMembers_entriesToJson : ∀ {entries : List (String × Tree ProcedureShape String)},
    (∀ p ∈ entries, p.2.Ordered) → ValidMembers (entriesToJson entries)
  | [], _ => trivial
  | _ :: _, h =>
    ⟨valid_toJson (h _ List.mem_cons_self),
      validMembers_entriesToJson fun p hp => h p (List.mem_cons_of_mem _ hp)⟩

end

/-! ## The tag of an entry -/

theorem setAside_of_shows {w : Written} {v : Json} (h : Shows w v) (hv : v.Valid) :
    setAside w = .ok () := by
  unfold setAside
  rw [toJson_of_shows h hv]
  rfl

theorem procedure_mem_tags : "procedure" ∈ tags := by decide

theorem router_mem_tags : "router" ∈ tags := by decide

theorem setAside_string (span : Span) (s : String) :
    setAside (.scalar span (.string s)) = .ok () := rfl

/-- The tag is found behind fields of other names, which are set aside. -/
theorem findTag_of_fields (origin : Origin) {tag : String} (htag : tag ∈ tags)
    {key key' key'' : Key} {content content' : Written} (span : Span)
    (hkey : key.name ≠ "type") (hkey' : key'.name ≠ "type") (hkey'' : key''.name = "type")
    (hcontent : setAside content = .ok ()) (hcontent' : setAside content' = .ok ()) :
    findTag origin [(key, content), (key', content'), (key'', .scalar span (.string tag))] none =
      .ok (some tag) := by
  have hread : readTag origin (.scalar span (.string tag)) = .ok tag := by
    have hknown : known tags tag span.stop = .ok () := if_pos htag
    unfold readTag
    simp only [hknown, ok_bind]
    rfl
  simp only [findTag, if_neg hkey, if_neg hkey', if_pos hkey'', hcontent, hcontent', hread, ok_bind]
  rfl

/-! ## Procedures -/

theorem decode_kind (origin : Origin) (span : Span) (k : ProcedureKind) :
    procedureKindCodec.decode origin (.scalar span (.string k.name)) = .ok k := by
  cases origin <;> cases k <;> rfl

/-- A procedure is read from its two fields, and the tag behind them is skipped. -/
theorem procedureByName_of_fields (p : ProcedureShape) {key key' key'' : Key}
    (span span' span'' : Span) (tag : String) (hkey : key.name = "adapter")
    (hkey' : key'.name = "kind") (hkey'' : key''.name = "type") :
    procedureByName [(key, .scalar span (.string p.adapter)),
      (key', .scalar span' (.string p.kind.name)), (key'', .scalar span'' (.string tag))] =
        .ok p := by
  have hadapter : procedureStep {} key (.scalar span (.string p.adapter)) =
      .ok ⟨none, some p.adapter⟩ := by
    unfold procedureStep
    rw [if_neg (by rw [hkey]; decide), if_pos hkey]
    rfl
  have hkind : procedureStep ⟨none, some p.adapter⟩ key' (.scalar span' (.string p.kind.name)) =
      .ok ⟨some p.kind, some p.adapter⟩ := by
    unfold procedureStep
    rw [if_pos hkey', decode_kind]
    rfl
  have htag : procedureStep ⟨some p.kind, some p.adapter⟩ key'' (.scalar span'' (.string tag)) =
      .ok ⟨some p.kind, some p.adapter⟩ := by
    unfold procedureStep
    rw [if_neg (by rw [hkey'']; decide), if_neg (by rw [hkey'']; decide)]
    rfl
  unfold procedureByName visit
  simp only [List.foldlM_cons, List.foldlM_nil, hadapter, hkind, htag, ok_bind]
  rfl

/-! ## Levels -/

/-- A level is read from its two fields, and a tag behind them is skipped. -/
theorem routerMembers_of_fields (origin : Origin) {label : String} {entries : Table ShapeNode}
    {key key' : Key} {content' : Written} (span : Span) (hkey : key.name = "default_adapter")
    (hkey' : key'.name = "entries") (hentries : decodeEntries origin content' = .ok entries)
    (rest : List (Key × Written)) :
    routerMembers origin ((key, .scalar span (.string label)) :: (key', content') :: rest) {} =
      routerMembers origin rest ⟨some label, some entries⟩ := by
  have hlabel : ∀ more, routerMembers origin ((key, .scalar span (.string label)) :: more) {} =
      routerMembers origin more ⟨some label, none⟩ := by
    intro more
    rw [routerMembers, if_pos hkey]
    rfl
  rw [hlabel, routerMembers, hkey', if_neg (by decide), if_pos rfl, hentries]
  rfl

theorem routerMembers_tag (origin : Origin) {key : Key} (hkey : key.name = "type") (span : Span)
    (tag : String) (s : RouterSlots) :
    routerMembers origin [(key, .scalar span (.string tag))] s = .ok s := by
  rw [routerMembers, hkey, if_neg (by decide), if_neg (by decide)]
  rfl

mutual

/-- What shows the JSON form of an entry decodes to the entry. -/
theorem decode_of_shows : ∀ {t : Tree ProcedureShape String}, t.Ordered →
    ∀ (origin : Origin) {w : Written}, Shows w (toJson t) → decode origin w = .ok t
  | .leaf p, _, origin, w, h => by
    obtain ⟨span, key, content, key', content', key'', content'', rfl, hkey, hkey', hkey'',
      hcontent, hcontent', hcontent''⟩ := shows_triple h
    obtain ⟨span₁, rfl⟩ := shows_string hcontent
    obtain ⟨span₂, rfl⟩ := shows_string hcontent'
    obtain ⟨span₃, rfl⟩ := shows_string hcontent''
    have htag := findTag_of_fields origin procedure_mem_tags span₃ (by rw [hkey]; decide)
      (by rw [hkey']; decide) hkey'' (setAside_string span₁ p.adapter)
      (setAside_string span₂ p.kind.name)
    rw [decode, htag]
    simp only [ok_bind, ended, required, if_pos]
    rw [procedureByName_of_fields p span₁ span₂ span₃ "procedure" hkey hkey' hkey'']
    rfl
  | .level label entries, h, origin, w, hw => by
    cases h with
    | level _ sorted below =>
      obtain ⟨span, key, content, key', content', key'', content'', rfl, hkey, hkey', hkey'',
        hcontent, hcontent', hcontent''⟩ := shows_triple hw
      obtain ⟨span₁, rfl⟩ := shows_string hcontent
      obtain ⟨span₃, rfl⟩ := shows_string hcontent''
      have haside := setAside_of_shows hcontent'
        ⟨sorted_entriesToJson sorted, validMembers_entriesToJson below⟩
      have htag := findTag_of_fields origin router_mem_tags span₃ (by rw [hkey]; decide)
        (by rw [hkey']; decide) hkey'' (setAside_string span₁ label) haside
      have hentries := decodeEntries_of_shows sorted below .buffered hcontent'
      rw [decode, htag]
      simp only [ok_bind, ended, required]
      rw [if_neg (by decide), routerMembers_of_fields .buffered span₁ hkey hkey' hentries,
        routerMembers_tag .buffered hkey'']
      rfl

/-- What shows the entries of a level decodes to the table of the entries. -/
theorem decodeEntries_of_shows : ∀ {entries : Table (Tree ProcedureShape String)},
    entries.Sorted → (∀ p ∈ entries, p.2.Ordered) → ∀ (origin : Origin) {w : Written},
      Shows w (.object (entriesToJson entries)) → decodeEntries origin w = .ok entries := by
  intro entries sorted below origin w h
  obtain ⟨span, ms, rfl, hms⟩ := shows_object h
  have hsorted : Table.Sorted ([] ++ entries) := sorted
  rw [decodeEntries, entryMembers_of_shows hsorted below origin hms]
  rfl

theorem entryMembers_of_shows : ∀ {entries acc : Table (Tree ProcedureShape String)},
    Table.Sorted (acc ++ entries) → (∀ p ∈ entries, p.2.Ordered) → ∀ (origin : Origin)
      {ms : List (Key × Written)}, ShowsMembers ms (entriesToJson entries) →
        entryMembers origin ms acc = .ok (acc ++ entries)
  | [], acc, _, _, origin, ms, h => by
    cases h
    rw [entryMembers, List.append_nil]
  | (name, t) :: rest, acc, sorted, below, origin, ms, h => by
    -- The entries come in the order of their names, so each one goes to the end of the table.
    cases h with
    | cons key hw hrest =>
      have hlast : ∀ p ∈ acc, p.1 < key.name := by
        intro p hp
        exact (List.pairwise_append.mp sorted).2.2 p hp (key.name, t) List.mem_cons_self
      rw [entryMembers, decode_of_shows (below _ List.mem_cons_self) origin hw, ok_bind,
        Table.insert_of_lt t hlast]
      rw [List.append_cons acc (key.name, t) rest] at sorted ⊢
      exact entryMembers_of_shows sorted (fun p hp => below p (List.mem_cons_of_mem _ hp)) origin
        hrest

end

/-! ## Shapes -/

theorem valid_shape {s : RouterShape} (h : s.node.Ordered) : s.toJson.Valid := by
  cases h with
  | level _ sorted below =>
    have hnames : ["default_adapter", "entries"].Pairwise (· < ·) := by decide
    exact ⟨.of_keys hnames, trivial, ⟨sorted_entriesToJson sorted,
      validMembers_entriesToJson below⟩, trivial⟩

theorem decode_shape_of_shows {s : RouterShape} (h : s.node.Ordered) (origin : Origin)
    {w : Written} (hw : Shows w s.toJson) : RouterShape.decode origin w = .ok s := by
  cases h with
  | level _ sorted below =>
    obtain ⟨span, key, content, key', content', rfl, hkey, hkey', hcontent, hcontent'⟩ :=
      Reply.shows_pair hw
    obtain ⟨span₁, rfl⟩ := shows_string hcontent
    have hentries := decodeEntries_of_shows sorted below origin hcontent'
    unfold RouterShape.decode
    simp only [routerMembers_of_fields origin span₁ hkey hkey' hentries]
    rw [routerMembers]
    rfl

/-- Of every shape, however deep it nests and whatever its names are, the JSON form is well formed
and decodes to the shape, as does every text that shows it. So what is projected from the decoded
shape is the client of the shape, with the same stubs. -/
theorem shapes_come_back {τ ε : Type} {s : RouterShape} (h : s.node.Ordered) :
    ∃ v, routerShapeCodec.encode s = .ok v ∧ v.Valid ∧ routerShapeCodec.decodeJson v = .ok s ∧
      (∀ origin w, Shows w v → routerShapeCodec.decode origin w = .ok s) ∧
      ∀ s', routerShapeCodec.decodeJson v = .ok s' → ∀ (t : Transport τ) (start : τ),
        ∃ c : Client τ, (Client.project s' t : Attempt τ ε _).ends start = (.ok c, start) ∧
          (∀ path, c.stub path = (Client.ofShape s t).stub path) ∧
          c.root.stubs.map (fun x => (x.path, x.kind)) =
            s.node.namedLeaves.map fun p => (p.1.foldl Path.below "", p.2.kind) := by
  have hvalue : routerShapeCodec.decodeJson s.toJson = .ok s :=
    decode_shape_of_shows h .value (shows_ofJson _)
  refine ⟨s.toJson, rfl, valid_shape h, hvalue, fun origin _ => decode_shape_of_shows h origin, ?_⟩
  intro s' hs' t start
  obtain rfl := Except.ok.inj (hvalue.symm.trans hs')
  refine ⟨Client.ofShape s t, rfl, fun _ => rfl, ?_⟩
  unfold Client.ofShape Namespace.stubs Namespace.node RouterShape.node
  simp only [Tree.leaves, Tree.namedLeaves, Tree.entriesLeaves_mapEntries, List.map_map]
  rfl

/-- A shape with the names of its own fields, an empty name and one with a separator. -/
def awkward : RouterShape :=
  ⟨"", [("", .level "type"
      [("", .leaf ⟨.query, "router"⟩), ("default_adapter", .leaf ⟨.mutation, ""⟩),
        ("entries", .level "entries" [])]),
    ("a.b", .leaf ⟨.query, "serde"⟩),
    ("type", .level "procedure" [("type", .leaf ⟨.query, "type"⟩)])]⟩

/-- None of these names is taken for a part of the form. -/
theorem awkward_comes_back :
    awkward.node.Ordered ∧ ∃ v, routerShapeCodec.encode awkward = .ok v ∧
      routerShapeCodec.decodeJson v = .ok awkward := by
  have hordered : awkward.node.Ordered := by
    refine .level _ (.of_keys (by decide)) ?_
    simp only [awkward, List.forall_mem_cons, List.not_mem_nil, false_imp_iff, implies_true,
      and_true]
    refine ⟨.level _ (.of_keys (by decide)) ?_, .leaf _,
      .level _ (List.pairwise_singleton _ _) ?_⟩
    · simp only [List.forall_mem_cons, List.not_mem_nil, false_imp_iff, implies_true, and_true]
      exact ⟨.leaf _, .leaf _, .level _ .nil (by simp)⟩
    · simp only [List.forall_mem_cons, List.not_mem_nil, false_imp_iff, implies_true, and_true]
      exact .leaf _
  obtain ⟨v, hencode, -, hdecode, -⟩ := @shapes_come_back Unit Empty awkward hordered
  exact ⟨hordered, v, hencode, hdecode⟩

end GuardedCall.Shapes
