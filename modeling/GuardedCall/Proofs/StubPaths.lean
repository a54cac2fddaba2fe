-- The paths of stubs for every shape, also for one whose names no router would
-- take. A stub has the path at which it is found, without the separators in
-- front: below an empty name at the top level a path starts anew.
import GuardedCall.Proofs.Projection

namespace GuardedCall

/-! ## Separators in front of a path -/

namespace Path

/-- A path without the separators in front. -/
def trimmed (path : String) : String := String.ofList (path.toList.dropWhile (· == separator))

theorem segments_separator (path : String) : segments ("." ++ path) = "" :: segments path := by
  have hempty : separator ∉ "".toList := by simp
  have hjoin := segments_join hempty path
  rwa [String.empty_append] at hjoin

/-- The path along the names of a path is the path without the separators in front. -/
theorem foldl_below_segments_eq (path : String) :
    (segments path).foldl below "" = trimmed path := by
  obtain ⟨chars, rfl⟩ : ∃ chars, path = String.ofList chars := ⟨path.toList, by simp⟩
  induction chars with
  | nil => rfl
  | cons c chars ih =>
    unfold trimmed at ih ⊢
    by_cases hc : c = separator
    · -- The name in front of a leading separator is empty and leaves the path empty.
      have hpath : String.ofList (c :: chars) = "." ++ String.ofList chars := by
        rw [hc]
        apply String.toList_inj.mp
        simp [separator]
      rw [hpath, segments_separator, List.foldl_cons]
      have hempty : below "" "" = "" := rfl
      rw [hempty, ih]
      simp [separator]
    · obtain ⟨first, rest, hsegments⟩ :=
        List.exists_cons_of_ne_nil (segments_ne_nil (String.ofList (c :: chars)))
      have hjoined := intercalate_segments (String.ofList (c :: chars))
      rw [hsegments] at hjoined
      have hfirst : first ≠ "" := by
        rintro rfl
        cases rest with
        | nil =>
          have hchars := congrArg String.toList hjoined
          simp at hchars
        | cons next rest =>
          rw [String.intercalate_cons_cons] at hjoined
          have hchars := congrArg String.toList hjoined
          simp at hchars
          exact hc hchars.1.symm
      have hbelow : below "" first = first := rfl
      rw [hsegments, List.foldl_cons, hbelow, foldl_below_of_ne hfirst, hjoined]
      simp [hc]

/-- A path stays as it is exactly if it does not begin with the separator. -/
theorem trimmed_eq_self_iff {path : String} :
    trimmed path = path ↔ ∀ inner, path ≠ "." ++ inner := by
  unfold trimmed
  constructor
  · rintro h inner rfl
    have hlength := congrArg (fun s => s.toList.length) h
    have hshort : (inner.toList.dropWhile (· == separator)).length ≤ inner.toList.length :=
      (List.dropWhile_sublist _).length_le
    simp [separator] at hlength hshort
    omega
  · intro h
    apply String.toList_inj.mp
    rw [String.toList_ofList]
    rcases hchars : path.toList with _ | ⟨c, rest⟩
    · rfl
    · have hc : c ≠ separator := by
        rintro rfl
        apply h (String.ofList rest)
        apply String.toList_inj.mp
        simp [hchars, separator]
      simp [hc]

end Path

/-! ## Stubs of a shape -/

namespace StubPaths

variable {τ ε : Type}

/-- Below an empty name at the top level no path finds a procedure. -/
def NothingBelowEmpty (shape : RouterShape) : Prop :=
  ∀ label inner, shape.entries.find? "" = some (.level label inner) →
    ∀ path p, RouterShape.lookup ⟨label, inner⟩ path ≠ some (.leaf p)

theorem stub_ofShape_eq_ok_iff {shape : RouterShape} {t : Transport τ} {path : String}
    {s : Stub τ} :
    (Client.ofShape shape t).stub path = .ok s ↔
      ∃ p, shape.lookup path = some (.leaf p) ∧ s = ⟨Path.trimmed path, p.kind, t⟩ := by
  unfold Client.stub
  rw [Projection.stub_eq_ok_iff, Projection.leaf?_ofShape, Option.map_eq_some_iff,
    Path.foldl_below_segments_eq]
  simp only [Projection.lookup_eq_leaf_iff, eq_comm]

/-- What a shape has at a path behind the separator is what the level of the empty name has at the
path. -/
theorem lookup_separator_iff {shape : RouterShape} {path : String} {p : ProcedureShape} :
    shape.lookup ("." ++ path) = some (.leaf p) ↔
      ∃ label inner, shape.entries.find? "" = some (.level label inner) ∧
        RouterShape.lookup ⟨label, inner⟩ path = some (.leaf p) := by
  obtain ⟨first, rest, hsegments⟩ := List.exists_cons_of_ne_nil (Path.segments_ne_nil path)
  simp only [Projection.lookup_eq_leaf_iff, Path.segments_separator]
  unfold Tree.leaf? RouterShape.node
  rw [Tree.find?]
  rcases Table.find? shape.entries "" with _ | ⟨q⟩ | ⟨label, inner⟩
  · simp
  · -- A procedure has nothing below it.
    simp [hsegments, Tree.find?]
  · constructor
    · intro h
      exact ⟨label, inner, rfl, h⟩
    · rintro ⟨label', inner', heq, h⟩
      cases heq
      exact h

/-- Of every shape a stub has the path at which it is found without the separators in front. So all
stubs have the very paths at which they are found exactly if nothing is below an empty name at the
top level, and then stubs at different paths call different paths of the server. -/
theorem stubs_keep_their_paths_iff (shape : RouterShape) (t : Transport τ) (start : τ) :
    ∃ c : Client τ, (Client.project shape t : Attempt τ ε _).ends start = (.ok c, start) ∧
      (∀ path s, c.stub path = .ok s → s.path = Path.trimmed path ∧ s.transport = t) ∧
      ((∀ path s, c.stub path = .ok s → s.path = path) ↔ NothingBelowEmpty shape) ∧
      (NothingBelowEmpty shape → ∀ path other s s', path ≠ other → c.stub path = .ok s →
        c.stub other = .ok s' → s.path ≠ s'.path) := by
  have hstub : ∀ path s, (Client.ofShape shape t).stub path = .ok s →
      s.path = Path.trimmed path ∧ s.transport = t := by
    intro path s h
    obtain ⟨p, -, rfl⟩ := stub_ofShape_eq_ok_iff.mp h
    exact ⟨rfl, rfl⟩
  have hkeeps : NothingBelowEmpty shape →
      ∀ path s, (Client.ofShape shape t).stub path = .ok s → s.path = path := by
    intro hnothing path s h
    obtain ⟨p, hp, rfl⟩ := stub_ofShape_eq_ok_iff.mp h
    apply Path.trimmed_eq_self_iff.mpr
    rintro inner rfl
    obtain ⟨label, entries, hlevel, hinner⟩ := lookup_separator_iff.mp hp
    exact hnothing label entries hlevel inner p hinner
  refine ⟨Client.ofShape shape t, rfl, hstub, ⟨fun hall => ?_, hkeeps⟩, ?_⟩
  · intro label inner hlevel path p hp
    have hfound := lookup_separator_iff.mpr ⟨label, inner, hlevel, hp⟩
    have hpath := hall ("." ++ path) _ (stub_ofShape_eq_ok_iff.mpr ⟨p, hfound, rfl⟩)
    exact Path.trimmed_eq_self_iff.mp hpath path rfl
  · intro hnothing path other s s' hne hs hs'
    rw [hkeeps hnothing path s hs, hkeeps hnothing other s' hs']
    exact hne

/-! ## A level of the empty name -/

/-- A shape with a procedure `x` below an empty name and another one at the top level. -/
def belowEmpty : RouterShape :=
  ⟨passthrough.name,
    [("", .level passthrough.name [("x", .leaf ⟨.query, passthrough.name⟩)]),
      ("x", .leaf ⟨.mutation, passthrough.name⟩)]⟩

/-- The stub at `.x` has the path `x`, so its calls go where those of the stub at `x` go. -/
theorem dotted_stub_calls_elsewhere :
    (Client.ofShape belowEmpty (recording .count)).stub ".x" =
        .ok ⟨"x", .query, recording .count⟩ ∧
      (Client.ofShape belowEmpty (recording .count)).stub "x" =
        .ok ⟨"x", .mutation, recording .count⟩ ∧
      ((Stub.mk "x" .query (recording .count)).call .null).ends [] =
        (.ok (Json.whole 1), [("x", .null)]) ∧
      ¬ ∀ path s, (Client.ofShape belowEmpty (recording .count)).stub path = .ok s →
        s.path = path := by
  have hdotted : (Client.ofShape belowEmpty (recording .count)).stub ".x" =
      .ok ⟨"x", .query, recording .count⟩ := rfl
  refine ⟨hdotted, rfl, rfl, fun hall => ?_⟩
  have hpath := hall ".x" _ hdotted
  revert hpath
  decide

end StubPaths

end GuardedCall
