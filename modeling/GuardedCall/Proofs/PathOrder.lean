-- The order of the paths that a router lists. The list follows the names level
-- by level. As texts the paths are in order too, unless a name goes on from the
-- name of a level beside it with a character in front of the separator.
import GuardedCall.Proofs.Resolution

namespace GuardedCall

namespace Path

/-! ## Lists in order -/

/-- Of two lists in order the later one goes on from the earlier one, or they differ at a place. -/
theorem parts_of_lt {α : Type} [LT α] {a b : List α} (h : a < b) :
    (∃ x rest, b = a ++ x :: rest) ∨
      ∃ front x y p q, a = front ++ x :: p ∧ b = front ++ y :: q ∧ x < y := by
  induction h with
  | @nil x rest => exact .inl ⟨x, rest, rfl⟩
  | @rel x p y q hxy => exact .inr ⟨[], x, y, p, q, rfl, rfl, hxy⟩
  | @cons z a b _ ih =>
    rcases ih with ⟨x, rest, rfl⟩ | ⟨front, x, y, p, q, rfl, rfl, hxy⟩
    · exact .inl ⟨x, rest, rfl⟩
    · exact .inr ⟨z :: front, x, y, p, q, rfl, rfl, hxy⟩

theorem append_lt_append_iff {a u v : List Char} : a ++ u < a ++ v ↔ u < v := by
  induction a with
  | nil => rfl
  | cons c rest ih => simp [ih]

theorem lt_append_cons (a : List Char) (c : Char) (rest : List Char) : a < a ++ c :: rest := by
  have hlonger : a ++ [] < a ++ c :: rest := List.append_left_lt .nil
  rwa [List.append_nil] at hlonger

/-- What begins with a list comes before what begins with a later one, unless the later list goes
on from it. -/
theorem goes_on_or_lt {a b : List Char} (h : a < b) :
    (∃ c rest, b = a ++ c :: rest) ∨ ∀ u v, a ++ u < b ++ v := by
  rcases parts_of_lt h with hgo | ⟨front, x, y, p, q, rfl, rfl, hxy⟩
  · exact .inl hgo
  · refine .inr fun u v => ?_
    simp only [List.append_assoc, List.cons_append]
    exact List.append_left_lt (.rel hxy)

/-! ## Names and the paths they make up -/

/-- A name that goes on from another one with a character in front of the separator. It follows
the other name, but comes before every path below it. -/
def Overtakes (other name : String) : Prop :=
  ∃ c rest, other.toList = name.toList ++ c :: rest ∧ c < separator

theorem Overtakes.lt {other name : String} (h : Overtakes other name) : name < other := by
  obtain ⟨c, rest, hrest, -⟩ := h
  rw [String.lt_iff, hrest]
  exact lt_append_cons _ c rest

/-- A path below a name comes before what begins with a later name exactly if the later name does
not overtake it. -/
theorem below_lt_iff {name other : String} (h : name < other) (hother : separator ∉ other.toList)
    (u v : List Char) :
    name.toList ++ separator :: u < other.toList ++ v ↔ ¬ Overtakes other name := by
  unfold Overtakes
  rcases goes_on_or_lt (String.lt_iff.mp h) with ⟨c, rest, hgo⟩ | hlt
  · -- The first character behind the shared name decides, against the separator.
    rw [hgo] at hother ⊢
    have hc : separator ≠ c := by
      rintro rfl
      simp at hother
    rw [List.append_assoc, append_lt_append_iff, List.cons_append, List.cons_lt_cons_iff]
    simp only [hc, false_and, or_false, List.append_cancel_left_eq, List.cons.injEq]
    constructor
    · rintro hlt ⟨c', rest', ⟨rfl, -⟩, hbefore⟩
      exact Char.lt_asymm hlt hbefore
    · intro hnot
      apply Std.lt_of_le_of_ne _ hc
      apply Char.not_lt.mp
      intro hbefore
      exact hnot ⟨c, rest, ⟨rfl, rfl⟩, hbefore⟩
  · refine iff_of_true (hlt _ _) ?_
    rintro ⟨c, rest, hgo, -⟩
    have hself := hlt (c :: rest) []
    rw [← hgo, List.append_nil] at hself
    exact List.lt_irrefl _ hself

theorem toList_intercalate_cons_cons (name next : String) (names : List String) :
    (".".intercalate (name :: next :: names)).toList =
      name.toList ++ separator :: (".".intercalate (next :: names)).toList := by
  rw [String.intercalate_cons_cons, String.toList_append, String.toList_append, List.append_assoc]
  rfl

/-- A path begins with its first name. -/
theorem toList_intercalate_cons (name : String) (names : List String) :
    ∃ rest, (".".intercalate (name :: names)).toList = name.toList ++ rest := by
  cases names with
  | nil => exact ⟨[], by simp⟩
  | cons next names => exact ⟨_, toList_intercalate_cons_cons name next names⟩

/-- A first name that two paths share does not count for their order. -/
theorem intercalate_cons_lt_iff (name : String) {p q : List String} (hp : p ≠ []) (hq : q ≠ []) :
    ".".intercalate (name :: p) < ".".intercalate (name :: q) ↔
      ".".intercalate p < ".".intercalate q := by
  obtain ⟨n, p, rfl⟩ := List.exists_cons_of_ne_nil hp
  obtain ⟨m, q, rfl⟩ := List.exists_cons_of_ne_nil hq
  rw [String.lt_iff, toList_intercalate_cons_cons, toList_intercalate_cons_cons,
    append_lt_append_iff, List.cons_lt_cons_iff, String.lt_iff]
  simp

/-- The paths along two lists of names that differ at a place are in the order of the names there,
unless the first path goes on below a name that the other one overtakes. -/
theorem intercalate_lt_iff (front : List String) {p q : List String} {x y : String} (hxy : x < y)
    (hy : separator ∉ y.toList) :
    ".".intercalate (front ++ x :: p) < ".".intercalate (front ++ y :: q) ↔
      (p ≠ [] → ¬ Overtakes y x) := by
  -- The names in front are the same in both paths and drop out one by one.
  induction front with
  | nil =>
    obtain ⟨v, hv⟩ := toList_intercalate_cons y q
    rw [List.nil_append, List.nil_append, String.lt_iff, hv]
    cases p with
    | nil =>
      rw [String.intercalate_singleton]
      refine iff_of_true ?_ fun h => absurd rfl h
      rcases goes_on_or_lt (String.lt_iff.mp hxy) with ⟨c, rest, hgo⟩ | hlt
      · rw [hgo, List.append_assoc]
        exact lt_append_cons _ c _
      · simpa using hlt [] v
    | cons next p =>
      rw [toList_intercalate_cons_cons, below_lt_iff hxy hy]
      simp
  | cons name front ih =>
    rw [List.cons_append, List.cons_append, intercalate_cons_lt_iff name (by simp) (by simp), ih]

/-- The path along the first names of a list comes before the path along all of them. -/
theorem intercalate_lt_append {names : List String} (h : names ≠ []) (x : String)
    (rest : List String) : ".".intercalate names < ".".intercalate (names ++ x :: rest) := by
  induction names with
  | nil => exact absurd rfl h
  | cons name names ih =>
    cases names with
    | nil =>
      rw [List.singleton_append, String.lt_iff, toList_intercalate_cons_cons,
        String.intercalate_singleton]
      exact lt_append_cons _ _ _
    | cons next names =>
      rw [List.cons_append, intercalate_cons_lt_iff name (by simp) (by simp)]
      exact ih (by simp)

end Path

/-! ## The order of the paths -/

namespace PathOrder

variable {σ : Type}

/-- In a list that is in one order another order holds from place to place exactly if it holds
wherever the first one does. -/
theorem pairwise_iff_of_ordered {α : Type} {R S : α → α → Prop} {l : List α}
    (asymm : ∀ a b, S a b → ¬ S b a) (h : l.Pairwise S) :
    l.Pairwise R ↔ ∀ a ∈ l, ∀ b ∈ l, S a b → R a b := by
  constructor
  · intro hR
    induction l with
    | nil => simp
    | cons x rest ih =>
      obtain ⟨hSx, hS⟩ := List.pairwise_cons.mp h
      obtain ⟨hRx, hR⟩ := List.pairwise_cons.mp hR
      intro a ha b hb hab
      rcases List.mem_cons.mp ha with rfl | ha'
      · rcases List.mem_cons.mp hb with rfl | hb'
        · exact absurd hab (asymm _ _ hab)
        · exact hRx b hb'
      · rcases List.mem_cons.mp hb with rfl | hb'
        · exact absurd hab (asymm _ _ (hSx a ha'))
        · exact ih hS hR a ha' b hb' hab
  · intro hR
    exact h.imp_of_mem fun ha hb hab => hR _ ha _ hb hab

/-- Somewhere in a router the name of an entry that is or holds a procedure overtakes the name of
a level that holds one. -/
def Overtaken (r : Router σ) : Prop :=
  ∃ (above : List String) (level next : String) (below : List String) (other : String)
    (rest : List String) (e f : Endpoint σ),
    r.entry.Leads (above ++ level :: next :: below) e ∧ r.entry.Leads (above ++ other :: rest) f ∧
      Path.Overtakes other level

section Obtained

variable {r : Router σ} (h : r.Obtained)
include h

/-- The paths are listed in the order of the names that they are made of. -/
theorem pairwise_segments :
    r.paths.Pairwise fun p q => Path.segments p < Path.segments q := by
  rw [Resolution.paths_eq_map h, List.pairwise_map]
  refine h.ordered.pairwise_namedLeaves.imp_of_mem fun {p q} hp hq hlt => ?_
  rw [Resolution.segments_of_leads h (Tree.mem_namedLeaves_iff.mp hp),
    Resolution.segments_of_leads h (Tree.mem_namedLeaves_iff.mp hq)]
  exact hlt

/-- The paths are in order exactly if the paths of any two procedures are in the order of their
names. -/
theorem pairwise_paths_iff :
    r.paths.Pairwise (· < ·) ↔ ∀ {p q e f}, r.entry.Leads p e → r.entry.Leads q f → p < q →
      ".".intercalate p < ".".intercalate q := by
  rw [Resolution.paths_eq_map h, List.pairwise_map,
    pairwise_iff_of_ordered (fun a b => List.lt_asymm) h.ordered.pairwise_namedLeaves]
  constructor
  · intro hall p q e f hp hq hlt
    exact hall (p, e) (Tree.mem_namedLeaves_iff.mpr hp) (q, f) (Tree.mem_namedLeaves_iff.mpr hq) hlt
  · intro hall a ha b hb hlt
    exact hall (Tree.mem_namedLeaves_iff.mp ha) (Tree.mem_namedLeaves_iff.mp hb) hlt

theorem separator_not_mem_of_leads {names : List String} {e : Endpoint σ}
    (he : r.entry.Leads names e) {name : String} (hname : name ∈ names) :
    Path.separator ∉ name.toList :=
  Router.separator_not_mem_of_isValidName (Resolution.valid_of_leads h he name hname)

end Obtained

/-- A router lists its paths in the order of their names, level by level. As texts they are in
strictly increasing order exactly if no name in the router overtakes the name of a level. -/
theorem paths_sorted_iff {r : Router σ} (h : r.Obtained) :
    (r.paths.Pairwise fun p q => Path.segments p < Path.segments q) ∧
      (r.paths.Pairwise (· < ·) ↔ ¬ Overtaken r) := by
  refine ⟨pairwise_segments h, ?_⟩
  rw [pairwise_paths_iff h]
  constructor
  · rintro hall ⟨above, level, next, below, other, rest, e, f, he, hf, hover⟩
    have hsep : Path.separator ∉ other.toList := separator_not_mem_of_leads h hf (by simp)
    have hnames : above ++ level :: next :: below < above ++ other :: rest :=
      List.append_left_lt (.rel hover.lt)
    exact (Path.intercalate_lt_iff above hover.lt hsep).mp (hall he hf hnames) (by simp) hover
  · intro hnot p q e f he hf hlt
    rcases Path.parts_of_lt hlt with ⟨x, rest, rfl⟩ | ⟨above, x, y, p, q, rfl, rfl, hxy⟩
    · apply Path.intercalate_lt_append
      rintro rfl
      cases he
    · have hsep : Path.separator ∉ y.toList := separator_not_mem_of_leads h hf (by simp)
      rw [Path.intercalate_lt_iff above hxy hsep]
      intro hp hover
      obtain ⟨next, below, rfl⟩ := List.exists_cons_of_ne_nil hp
      exact hnot ⟨above, x, next, below, y, q, e, f, he, hf, hover⟩

/-! ## A level and a procedure beside it -/

/-- A router with a level `math` and a procedure of some name beside it. -/
def besideLevel (name : String) : Router Unit :=
  ⟨byType.name, [("math", Router.entry ⟨passthrough.name, [("add", .leaf Projection.echo)]⟩),
    (name, .leaf Projection.echo)]⟩

theorem obtained_besideLevel {name : String}
    (h : Router.addEntries [] (besideLevel name).entries = .ok (besideLevel name).entries) :
    (besideLevel name).Obtained := by
  have hinner : (⟨passthrough.name, [("add", .leaf Projection.echo)]⟩ : Router Unit).Obtained :=
    .ofEntries ⟨passthrough⟩ [("add", .leaf Projection.echo)] rfl (by simp [Router.proper_leaf])
  refine .ofEntries ⟨byType⟩ _ h ?_
  simp [besideLevel, hinner.proper, Router.proper_leaf]

/-- A name that goes on with a letter overtakes nothing, and the paths are in order. -/
theorem maths_in_order :
    (besideLevel "maths").Obtained ∧ (besideLevel "maths").paths = ["math.add", "maths"] ∧
      ¬ Overtaken (besideLevel "maths") := by
  have hobtained : (besideLevel "maths").Obtained := obtained_besideLevel rfl
  have hpaths : (besideLevel "maths").paths = ["math.add", "maths"] := rfl
  refine ⟨hobtained, hpaths, (paths_sorted_iff hobtained).2.mp ?_⟩
  rw [hpaths]
  decide

/-- A name that goes on with a hyphen stands behind the level, but its path comes before those
below the level: the list is not in order. -/
theorem hyphen_out_of_order :
    (besideLevel "math-x").Obtained ∧ (besideLevel "math-x").paths = ["math.add", "math-x"] ∧
      ¬ (besideLevel "math-x").paths.Pairwise (· < ·) := by
  have hpaths : (besideLevel "math-x").paths = ["math.add", "math-x"] := rfl
  refine ⟨obtained_besideLevel rfl, hpaths, ?_⟩
  rw [hpaths]
  decide

end PathOrder

end GuardedCall
