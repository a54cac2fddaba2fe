-- Building a router from a list of entries. It is built exactly if every name
-- can be part of a path and none is there twice, and then it holds the entries
-- of the list, in whatever order they are given. Otherwise the first entry that
-- cannot stay beside those before it is the fault, and nothing is built.
import GuardedCall.Proofs.Resolution

namespace GuardedCall.Construction

variable {α σ τ : Type}

/-! ## Lists of entries -/

/-- A name that can be part of a path: 1 to 128 bytes, none of them of a separator, a blank or a
control character. -/
structure Nameable (name : String) : Prop where
  nonempty : name ≠ ""
  short : name.utf8ByteSize ≤ 128
  plain : ∀ c ∈ name.toList, c ≠ '.' ∧ Text.isBlank c = false ∧ Text.isControl c = false

/-- Every name can be part of a path and none is there twice. -/
structure Addressable (entries : List (String × α)) : Prop where
  nameable : ∀ p ∈ entries, Nameable p.1
  distinct : (entries.map Prod.fst).Nodup

/-- Why an entry cannot stay beside those before it. -/
inductive Refused (before : List (String × α)) (name : String) : RouterFault → Prop
  | invalid (h : ¬ Nameable name) : Refused before name (.invalidName name)
  | repeated (hname : Nameable name) (h : name ∈ before.map Prod.fst) :
    Refused before name (.duplicateName name)

/-- The fault of the first entry that cannot stay beside those before it. -/
def FirstFault (entries : List (String × α)) (f : RouterFault) : Prop :=
  ∃ before p rest, entries = before ++ p :: rest ∧ Addressable before ∧ Refused before p.1 f

theorem isValidName_iff (name : String) : Router.isValidName name = true ↔ Nameable name := by
  have hbarred : ∀ c, Router.isBarred c = false ↔
      c ≠ '.' ∧ Text.isBlank c = false ∧ Text.isControl c = false := by
    intro c
    simp [Router.isBarred, Path.separator, and_assoc]
  unfold Router.isValidName Router.maxNameLength
  simp only [Bool.and_eq_true, Bool.not_eq_true', List.any_eq_false, decide_eq_true_eq,
    Bool.not_eq_true, hbarred]
  constructor
  · rintro ⟨⟨hne, hshort⟩, hplain⟩
    exact ⟨hne, hshort, hplain⟩
  · rintro ⟨hne, hshort, hplain⟩
    exact ⟨⟨hne, hshort⟩, hplain⟩

theorem Addressable.of_perm {entries others : List (String × α)} (h : Addressable entries)
    (hperm : others.Perm entries) : Addressable others where
  nameable p hp := h.nameable p (hperm.mem_iff.mp hp)
  distinct := (hperm.map Prod.fst).nodup_iff.mpr h.distinct

theorem Addressable.of_append {before rest : List (String × α)}
    (h : Addressable (before ++ rest)) : Addressable before where
  nameable p hp := h.nameable p (List.mem_append_left _ hp)
  distinct := by
    have hdistinct := h.distinct
    rw [List.map_append] at hdistinct
    exact (List.nodup_append.mp hdistinct).1

/-- One more entry can stay exactly if its name can be part of a path and is new. -/
theorem addressable_snoc_iff {before : List (String × α)} {p : String × α} :
    Addressable (before ++ [p]) ↔
      Addressable before ∧ Nameable p.1 ∧ p.1 ∉ before.map Prod.fst := by
  constructor
  · intro h
    refine ⟨h.of_append, h.nameable p (by simp), fun hmem => ?_⟩
    have hdistinct := h.distinct
    rw [List.map_append, List.nodup_append] at hdistinct
    exact hdistinct.2.2 p.1 hmem p.1 (by simp) rfl
  · rintro ⟨h, hname, hnew⟩
    constructor
    · intro q hq
      rcases List.mem_append.mp hq with hq | hq
      · exact h.nameable q hq
      · rw [List.mem_singleton.mp hq]
        exact hname
    · rw [List.map_append, List.nodup_append]
      refine ⟨h.distinct, by simp, ?_⟩
      intro a ha b hb heq
      rw [List.map_singleton, List.mem_singleton] at hb
      rw [heq, hb] at ha
      exact hnew ha

theorem addressable_or_firstFault (entries : List (String × α)) :
    Addressable entries ∨ ∃ f, FirstFault entries f := by
  suffices h : ∀ rest before : List (String × α), Addressable before →
      Addressable (before ++ rest) ∨ ∃ f, FirstFault (before ++ rest) f from
    h entries [] ⟨by simp, List.nodup_nil⟩
  intro rest
  induction rest with
  | nil =>
    intro before h
    rw [List.append_nil]
    exact .inl h
  | cons p rest ih =>
    intro before h
    by_cases hname : Nameable p.1
    · by_cases hold : p.1 ∈ before.map Prod.fst
      · exact .inr ⟨_, before, p, rest, rfl, h, .repeated hname hold⟩
      · have hsnoc := ih (before ++ [p]) (addressable_snoc_iff.mpr ⟨h, hname, hold⟩)
        rwa [List.append_assoc, List.singleton_append] at hsnoc
    · exact .inr ⟨_, before, p, rest, rfl, h, .invalid hname⟩

/-! ## Adding entries one by one -/

/-- The table has the pairs of a list, and no others. -/
structure Holds (t : Table α) (entries : List (String × α)) : Prop where
  sorted : t.Sorted
  perm : t.Perm entries

theorem holds_nil : Holds ([] : Table α) [] := ⟨.nil, .refl _⟩

theorem Holds.has_iff {t : Table α} {entries : List (String × α)} (h : Holds t entries)
    (name : String) : t.has name = true ↔ name ∈ entries.map Prod.fst := by
  unfold Table.has
  rw [Option.isSome_iff_exists, ← Table.mem_keys_iff]
  unfold Table.keys
  exact (h.perm.map Prod.fst).mem_iff

/-- An entry that can stay is put beside those before it. -/
theorem Holds.insert {t : Table α} {before : List (String × α)} (h : Holds t before)
    {name : String} (hnew : name ∉ before.map Prod.fst) (x : α) :
    Holds (t.insert name x) (before ++ [(name, x)]) where
  sorted := h.sorted.insert name x
  perm := by
    have hfree : t.find? name = none := by
      have hhas := mt (h.has_iff name).mp hnew
      simpa [Table.has] using hhas
    have hback : ((name, x) :: before).Perm (before ++ [(name, x)]) :=
      (List.perm_append_singleton _ _).symm
    exact ((Table.insert_perm x hfree).trans (h.perm.cons _)).trans hback

theorem addEntries_cons {t : Table α} {before : List (String × α)} (h : Holds t before)
    {name : String} (hname : Nameable name) (hnew : name ∉ before.map Prod.fst) (x : α)
    (rest : List (String × α)) :
    Router.addEntries t ((name, x) :: rest) = Router.addEntries (t.insert name x) rest := by
  have hvalid := (isValidName_iff name).mpr hname
  have hhas := mt (h.has_iff name).mp hnew
  rw [Router.addEntries]
  simp [hvalid, hhas]

/-- Entries that can stay are all added, and nothing else is. -/
theorem addEntries_of_addressable {t : Table α} {before rest : List (String × α)}
    (h : Holds t before) (ha : Addressable (before ++ rest)) :
    ∃ t', Router.addEntries t rest = .ok t' ∧ Holds t' (before ++ rest) := by
  induction rest generalizing t before with
  | nil =>
    rw [List.append_nil]
    exact ⟨t, rfl, h⟩
  | cons p rest ih =>
    obtain ⟨name, x⟩ := p
    rw [List.append_cons] at ha ⊢
    obtain ⟨-, hname, hnew⟩ := addressable_snoc_iff.mp ha.of_append
    rw [addEntries_cons h hname hnew]
    exact ih (h.insert hnew x) ha

theorem addEntries_append {t t' : Table α} {front : List (String × α)}
    (h : Router.addEntries t front = .ok t') (rest : List (String × α)) :
    Router.addEntries t (front ++ rest) = Router.addEntries t' rest := by
  induction front generalizing t with
  | nil =>
    obtain rfl := Except.ok.inj h
    rfl
  | cons p front ih =>
    obtain ⟨name, x⟩ := p
    rw [List.cons_append, Router.addEntries]
    rw [Router.addEntries] at h
    split at h
    · cases h
    · split at h
      · cases h
      · simp_all

theorem addEntries_of_firstFault {entries : List (String × α)} {f : RouterFault}
    (h : FirstFault entries f) : Router.addEntries [] entries = .error f := by
  obtain ⟨before, ⟨name, x⟩, rest, rfl, hbefore, hrefused⟩ := h
  obtain ⟨t, ht, hholds⟩ := addEntries_of_addressable holds_nil hbefore
  rw [addEntries_append ht, Router.addEntries]
  cases hrefused with
  | invalid hname =>
    have hvalid := mt (isValidName_iff name).mp hname
    simp [hvalid]
  | repeated hname hold =>
    have hvalid := (isValidName_iff name).mpr hname
    have hhas := (hholds.has_iff name).mpr hold
    simp [hvalid, hhas]

/-! ## Routers -/

section Router

variable {S : Type → Type} (c : RouterContext S) {entries : List (String × RouterEntry σ)}

/-- Building logs one event, and it fails where adding the entries does, before anything is
logged. -/
theorem run_router (entries : List (String × RouterEntry σ)) (s : τ) :
    (c.router entries : Attempt τ RouterFault (Router σ)).run s =
      match Router.addEntries [] entries with
      | .ok t => ⟨.ok ⟨c.adapter.name, t⟩, s, [Router.event .debug "router built"
          [("default_adapter", c.adapter.name), ("entries", toString t.length)]]⟩
      | .error f => ⟨.error f, s, []⟩ := by
  unfold RouterContext.router Router.build Router.ofEntries
  cases Router.addEntries [] entries <;> rfl

theorem router_eq_ok_iff {r : Router σ} (s : τ) :
    ((c.router entries : Attempt τ RouterFault (Router σ)).ends s).1 = .ok r ↔
      ∃ t, Router.addEntries [] entries = .ok t ∧ r = ⟨c.adapter.name, t⟩ := by
  unfold Attempt.ends
  rw [run_router]
  cases Router.addEntries [] entries <;> simp [eq_comm]

/-- A router has the entries of a list, each of which is found under its name, and no others. -/
structure MadeOf (entries : List (String × RouterEntry σ)) (r : Router σ) : Prop where
  defaultAdapter_eq : r.defaultAdapter = c.adapter.name
  holds : Holds r.entries entries
  get?_iff : ∀ name x, r.get? name = some x ↔ (name, x) ∈ entries

theorem addEntries_eq_ok_iff {t : Table α} {entries : List (String × α)} :
    Router.addEntries [] entries = .ok t ↔ Addressable entries ∧ Holds t entries := by
  rcases addressable_or_firstFault entries with ha | ⟨f, hf⟩
  · obtain ⟨t', ht', hholds⟩ := addEntries_of_addressable holds_nil ha
    rw [ht', Except.ok.injEq]
    constructor
    · rintro rfl
      exact ⟨ha, hholds⟩
    · rintro ⟨-, h⟩
      exact hholds.sorted.eq_of_perm h.sorted (hholds.perm.trans h.perm.symm)
  · rw [addEntries_of_firstFault hf]
    refine iff_of_false (by simp) ?_
    rintro ⟨ha, -⟩
    obtain ⟨t', ht', -⟩ := addEntries_of_addressable holds_nil ha
    rw [addEntries_of_firstFault hf] at ht'
    cases ht'

theorem madeOf_of_holds {t : Table (RouterEntry σ)} (h : Holds t entries) :
    MadeOf c entries ⟨c.adapter.name, t⟩ where
  defaultAdapter_eq := rfl
  holds := h
  get?_iff := by
    intro name x
    unfold Router.get?
    rw [← h.perm.mem_iff]
    constructor
    · exact Table.mem_of_find?
    · intro hmem
      exact h.sorted.find?_of_mem hmem

end Router

/-- A router is built exactly if every name can be part of a path and none is there twice, and then
it has the entries of the list and no others. If not, the fault is that of the first entry that
cannot stay beside those before it, and nothing is changed or logged. In any other order of the
list the very same router is built, or again none. -/
theorem router_is_built_iff {S : Type → Type} (c : RouterContext S)
    (entries : List (String × RouterEntry σ)) (s : τ) :
    ((∃ r, ((c.router entries : Attempt τ RouterFault (Router σ)).ends s).1 = .ok r) ↔
      Addressable entries) ∧
    (∀ r, ((c.router entries : Attempt τ RouterFault (Router σ)).ends s).1 = .ok r →
      MadeOf c entries r) ∧
    (¬ Addressable entries → ∃ f, FirstFault entries f ∧
      (c.router entries : Attempt τ RouterFault (Router σ)).run s = ⟨.error f, s, []⟩) ∧
    ∀ others : List (String × RouterEntry σ), others.Perm entries → ∀ r,
      ((c.router others : Attempt τ RouterFault (Router σ)).ends s).1 = .ok r ↔
        ((c.router entries : Attempt τ RouterFault (Router σ)).ends s).1 = .ok r := by
  simp only [router_eq_ok_iff, addEntries_eq_ok_iff]
  refine ⟨⟨?_, fun ha => ?_⟩, ?_, fun hnot => ?_, ?_⟩
  · rintro ⟨r, t, ⟨ha, -⟩, -⟩
    exact ha
  · obtain ⟨t, ht, hholds⟩ := addEntries_of_addressable holds_nil ha
    exact ⟨_, t, ⟨ha, hholds⟩, rfl⟩
  · rintro r ⟨t, ⟨-, hholds⟩, rfl⟩
    exact madeOf_of_holds c hholds
  · rcases addressable_or_firstFault entries with ha | ⟨f, hf⟩
    · exact absurd ha hnot
    · refine ⟨f, hf, ?_⟩
      rw [run_router, addEntries_of_firstFault hf]
  · intro others hperm r
    have haddressable : Addressable others ↔ Addressable entries :=
      ⟨fun h => h.of_perm hperm.symm, fun h => h.of_perm hperm⟩
    have hholds : ∀ t, Holds t others ↔ Holds t entries := fun t =>
      ⟨fun h => ⟨h.sorted, h.perm.trans hperm⟩, fun h => ⟨h.sorted, h.perm.trans hperm.symm⟩⟩
    simp only [haddressable, hholds]

/-- Of two entries with one name the second one is the fault, although a name behind it is invalid,
and in the other order that name is. -/
example (e : RouterEntry σ) :
    Router.addEntries [] [("a", e), ("a", e), ("", e)] = .error (.duplicateName "a") ∧
      Router.addEntries [] [("a", e), ("", e), ("a", e)] = .error (.invalidName "") := ⟨rfl, rfl⟩

end GuardedCall.Construction
