-- When closing says no less than before. Most keywords ask for more where the
-- schemas under them do; those that count the schemas that hold, or want one
-- not to hold, need these schemas to mean the same.
import GuardedCall.Proofs.Closing
import GuardedCall.Proofs.Keywords

namespace GuardedCall.Schema

open GuardedCall

/-! ## Reports -/

/-- A report says no less than another one. Where it has nothing against a value, the other one has
nothing either, and has looked at every part that it has looked at. -/
structure Tighter (r' r : Report) : Prop where
  holds : r'.holds = true → r.holds = true
  names : r'.holds = true → r'.names ⊆ r.names
  places : r'.holds = true → r'.places ⊆ r.places

theorem Tighter.refl (r : Report) : Tighter r r :=
  ⟨id, fun _ => List.Subset.refl _, fun _ => List.Subset.refl _⟩

theorem tighter_of_fails {r' r : Report} (h : r'.holds = false) : Tighter r' r := by
  have hne : r'.holds ≠ true := by simp [h]
  exact ⟨fun h' => absurd h' hne, fun h' => absurd h' hne, fun h' => absurd h' hne⟩

/-- A schema says no less of any value than another one. -/
def Tightens (ctx' ctx : Context) (w' w : Json) : Prop :=
  ∀ v, Tighter (meaning ctx' w' v) (meaning ctx w v)

/-! ## What becomes of schemas -/

/-- The two ways a schema may go: it stays, or it is closed. -/
inductive Fate : (Json → Json) → Prop
  | kept : Fate id
  | closed : Fate close

namespace Fate

variable {f : Json → Json}

theorem array_iff (h : Fate f) {w : Json} :
    (∃ items, f w = .array items) ↔ ∃ items, w = .array items := by
  cases h with
  | kept => rfl
  | closed => cases w <;> simp [close]

theorem object_iff (h : Fate f) {w : Json} :
    (∃ members, f w = .object members) ↔ ∃ members, w = .object members := by
  cases h with
  | kept => rfl
  | closed => cases w <;> simp [close]

theorem eq_of_close (h : Fate f) {w : Json} (hw : close w = w) : f w = w := by
  cases h with
  | kept => rfl
  | closed => exact hw

end Fate

/-- The keywords under which nothing is closed. -/
def keptKeywords : List String :=
  ["required", "minContains", "maxContains", "$ref", "dependencies"] ++ assertionKeywords

/-- The keywords whose schemas are closed, without the one that closing adds. -/
def innerKeywords : List String := schemaKeywords.filter (· ≠ "additionalProperties")

theorem mem_innerKeywords {key : String} (h : key ∈ innerKeywords) :
    key ∈ schemaKeywords ∧ key ≠ "additionalProperties" := by
  simpa [innerKeywords] using h

/-- The members of a schema whose schemas went one way. An open one may refuse further members. -/
structure Went (f : Json → Json) (members' members : Table Json) : Prop where
  kept : ∀ key ∈ keptKeywords, members'.find? key = members.find? key
  has : ∀ key, key ≠ "additionalProperties" → members'.has key = members.has key
  schema : ∀ key ∈ innerKeywords, members'.find? key = (members.find? key).map f
  named : ∀ key ∈ schemaMapKeywords,
    schemasByName members' key = (schemasByName members key).map fun m => (m.1, f m.2)
  additional : members'.find? "additionalProperties" = (members.find? "additionalProperties").map f ∨
    members.find? "additionalProperties" = none ∧
      members'.find? "additionalProperties" = some (.bool false)

theorem went_id (members : Table Json) : Went id members members where
  kept _ _ := rfl
  has _ _ := rfl
  schema _ _ := by simp
  named _ _ := by simp
  additional := .inl (by simp)

theorem not_closed_of_kept : ∀ key ∈ keptKeywords,
    key ∉ schemaMapKeywords ∧ key ∉ schemaKeywords ∧ key ≠ "additionalProperties" := by
  decide

theorem went_close (members : Table Json) : Went close (closeMembers members) members where
  kept key hkey := by
    obtain ⟨hmap, hschema, hne⟩ := not_closed_of_kept key hkey
    rw [find?_closeMembers_of_ne members hne, closeValue_other hmap hschema, Option.map_id_fun, id]
  has key hne := by
    rw [Table.has, Table.has, find?_closeMembers_of_ne members hne, Option.isSome_map]
  schema key hkey := by
    obtain ⟨hschema, hne⟩ := mem_innerKeywords hkey
    rw [find?_closeMembers_of_ne members hne, closeValue_schema hschema]
  named key hkey := by
    have hne : key ≠ "additionalProperties" := by
      rintro rfl
      revert hkey
      decide
    unfold schemasByName
    rw [find?_closeMembers_of_ne members hne]
    rcases members.find? key with _ | w
    · rfl
    · cases w <;> simp [closeValue_table hkey, closeTable, closeNamed_eq_map]
  additional := by
    rw [find?_closeMembers_additional]
    split
    · rename_i hopen
      exact .inr ⟨additional_of_isOpen hopen, rfl⟩
    · rw [closeValue_schema (by decide)]
      exact .inl rfl

namespace Went

variable {f : Json → Json} {members' members : Table Json}

/-- Every schema of a list went the same way. -/
theorem byPlace (h : Went f members' members) (hf : Fate f) {key : String}
    (hkey : key ∈ innerKeywords) :
    schemasByPlace members' key = (schemasByPlace members key).map f := by
  unfold schemasByPlace
  rw [h.schema key hkey]
  rcases members.find? key with _ | w
  · rfl
  · cases hf with
    | kept => cases w <;> simp
    | closed => cases w <;> simp [close, closeItems_eq_map]

theorem assertions_eq (h : Went f members' members) {ctx' ctx : Context}
    (hdialect : ctx'.dialect = ctx.dialect) (v : Json) :
    assertionFaults ctx' (partsOf ctx' members') v = assertionFaults ctx (partsOf ctx members) v := by
  apply assertionFaults_congr hdialect
  intro key hkey
  rw [value?_partsOf, value?_partsOf]
  exact h.kept key (List.mem_append_right _ hkey)

theorem undeclared_iff (h : Went f members' members) {name : String} :
    Undeclared members' name ↔ Undeclared members name := by
  unfold Undeclared
  rw [h.named "properties" (by decide), h.named "patternProperties" (by decide),
    Table.find?_map (fun _ => f), Option.map_eq_none_iff]
  simp only [List.forall_mem_map]

theorem requiredNames_eq (h : Went f members' members) :
    requiredNames members' = requiredNames members := by
  rw [requiredNames, requiredNames, h.kept "required" (by decide)]

/-- The schema of further members is an object before exactly if it is one afterwards. -/
theorem overlooksRequired_iff (h : Went f members' members) (hf : Fate f) :
    OverlooksRequired members' ↔ OverlooksRequired members := by
  have hfurther : (∃ inner, members'.find? "additionalProperties" = some (.object inner)) ↔
      ∃ inner, members.find? "additionalProperties" = some (.object inner) := by
    rcases h.additional with hadd | ⟨hnone, hadd⟩
    · rw [hadd]
      rcases members.find? "additionalProperties" with _ | w
      · simp
      · simpa using hf.object_iff
    · simp [hnone, hadd]
  have hproperties := h.has "properties" (by decide)
  have hpatterns := h.has "patternProperties" (by decide)
  constructor
  · rintro ⟨hp, hq, hn, hinner⟩
    exact ⟨hproperties ▸ hp, hpatterns ▸ hq, h.requiredNames_eq ▸ hn, hfurther.mp hinner⟩
  · rintro ⟨hp, hq, hn, hinner⟩
    exact ⟨hproperties.trans hp, hpatterns.trans hq, h.requiredNames_eq.symm ▸ hn, hfurther.mpr hinner⟩

theorem commonItem?_eq (h : Went f members' members) (hf : Fate f) :
    commonItem? members' = (commonItem? members).map f := by
  unfold commonItem?
  rw [h.schema "items" (by decide)]
  rcases members.find? "items" with _ | w
  · rfl
  · cases hf with
    | kept => cases w <;> simp
    | closed => cases w <;> simp [close]

theorem listsItems_iff (h : Went f members' members) (hf : Fate f) {dialect : Dialect} :
    listsItems dialect members' ↔ listsItems dialect members := by
  have hitems : (∃ schemas, members'.find? "items" = some (.array schemas)) ↔
      ∃ schemas, members.find? "items" = some (.array schemas) := by
    rw [h.schema "items" (by decide)]
    cases members.find? "items" <;> simp [hf.array_iff]
  exact and_congr_right fun _ => hitems

theorem placedSchemas_eq (h : Went f members' members) (hf : Fate f) (dialect : Dialect) :
    placedSchemas dialect members' = (placedSchemas dialect members).map f := by
  cases dialect <;> exact h.byPlace hf (by decide)

theorem leftOut_eq (h : Went f members' members) (hf : Fate f) (dialect : Dialect) :
    leftOut dialect members' = leftOut dialect members := by
  rw [leftOut, leftOut, h.byPlace hf (by decide), List.length_map]

end Went

/-! ## What a schema has to do with those under it -/

/-- The keywords that apply schemas by name. -/
def namedKeywords : List String :=
  ["properties", "patternProperties", "dependentSchemas", "dependencies"]

/-- A schema stands under a keyword that applies it to a value or to parts of it. -/
inductive Applies (members : Table Json) : Json → Prop
  | schema {key : String} {w : Json} (hkey : key ∈ schemaKeywords)
      (h : members.find? key = some w) : Applies members w
  | placed {key : String} {w : Json} (hkey : key ∈ schemaKeywords)
      (h : w ∈ schemasByPlace members key) : Applies members w
  | named {key : String} {m : String × Json} (hkey : key ∈ namedKeywords)
      (h : m ∈ schemasByName members key) : Applies members m.2

/-- An applied schema is the value of a keyword, or stands in it. -/
theorem Applies.exists_member {members : Table Json} {w : Json} (h : Applies members w) :
    ∃ m ∈ members, m.1 ∈ schemaKeywords ∧ (w = m.2 ∨ w ∈ itemsOf m.2) ∨
      m.1 ∈ namedKeywords ∧ ∃ n ∈ membersOf m.2, w = n.2 := by
  cases h with
  | schema hkey hfind => exact ⟨_, Table.mem_of_find? hfind, .inl ⟨hkey, .inl rfl⟩⟩
  | placed hkey hmem =>
    obtain ⟨schemas, hfind, hmem⟩ := mem_schemasByPlace hmem
    exact ⟨_, Table.mem_of_find? hfind, .inl ⟨hkey, .inr hmem⟩⟩
  | named hkey hmem =>
    obtain ⟨schemas, hfind, hmem⟩ := mem_schemasByName hmem
    exact ⟨_, Table.mem_of_find? hfind, .inr ⟨hkey, _, hmem, rfl⟩⟩

theorem find?_of_commonItem? {members : Table Json} {w : Json} (h : commonItem? members = some w) :
    members.find? "items" = some w := by
  unfold commonItem? at h
  split at h
  · cases h
  · exact h

theorem applies_of_placed {dialect : Dialect} {members : Table Json} {w : Json}
    (h : w ∈ placedSchemas dialect members) : Applies members w := by
  cases dialect <;> exact .placed (by decide) h

theorem selectedKey_mem (ctx : Context) (condition v : Json) :
    selectedKey ctx condition v ∈ innerKeywords := by
  unfold selectedKey
  split <;> decide

/-- A schema of which it counts where a value does not hold for it. -/
inductive TwoSided (dialect : Dialect) (members : Table Json) : Json → Prop
  | not {w : Json} (h : members.find? "not" = some w) : TwoSided dialect members w
  | condition {w : Json} (h : members.find? "if" = some w) : TwoSided dialect members w
  | oneOf {w : Json} (h : w ∈ schemasByPlace members "oneOf") : TwoSided dialect members w
  | limited {w : Json} (hdialect : dialect ≠ .draft7) (hmost : members.has "maxContains" = true)
      (h : members.find? "contains" = some w) : TwoSided dialect members w

/-- A schema went one way, and what it applies says no less than before, whichever way that goes. Where
it counts that a value does not hold, what it applies says the same. -/
structure Narrows (ctx' ctx : Context) (f : Json → Json) (members' members : Table Json) : Prop where
  dialect : ctx'.dialect = ctx.dialect
  fate : Fate f
  went : Went f members' members
  inside : ∀ w, Applies members w → ∀ g, Fate g → Tightens ctx' ctx (g w) w
  settled : ∀ w, TwoSided ctx.dialect members w → meaning ctx' (f w) = meaning ctx w
  referred : ∀ r, members.find? "$ref" = some (.string r) →
    ∀ v, Tighter (ctx'.resolve r v) (ctx.resolve r v)

namespace Narrows

variable {ctx' ctx : Context} {f : Json → Json} {members' members : Table Json} {v : Json}

theorem isRecent_eq (h : Narrows ctx' ctx f members' members) : ctx'.isRecent = ctx.isRecent := by
  rw [Context.isRecent, Context.isRecent, h.dialect]

theorem applied (h : Narrows ctx' ctx f members' members) {w : Json} (hw : Applies members w) :
    Tightens ctx' ctx (f w) w :=
  h.inside w hw f h.fate

/-- A schema under a keyword still stands there, as what became of it. -/
theorem find (h : Narrows ctx' ctx f members' members) {key : String} (hkey : key ∈ innerKeywords)
    {w : Json} (hw : members.find? key = some w) :
    members'.find? key = some (f w) ∧ Tightens ctx' ctx (f w) w := by
  rw [h.went.schema key hkey, hw]
  exact ⟨rfl, h.applied (.schema (mem_innerKeywords hkey).1 hw)⟩

theorem placed (h : Narrows ctx' ctx f members' members) {key : String} (hkey : key ∈ innerKeywords)
    {w : Json} (hw : w ∈ schemasByPlace members key) :
    f w ∈ schemasByPlace members' key ∧ Tightens ctx' ctx (f w) w := by
  rw [h.went.byPlace h.fate hkey]
  exact ⟨List.mem_map_of_mem hw, h.applied (.placed (mem_innerKeywords hkey).1 hw)⟩

theorem of_placed (h : Narrows ctx' ctx f members' members) {key : String} (hkey : key ∈ innerKeywords)
    {w' : Json} (hw' : w' ∈ schemasByPlace members' key) :
    ∃ w ∈ schemasByPlace members key, Tightens ctx' ctx w' w := by
  rw [h.went.byPlace h.fate hkey] at hw'
  obtain ⟨w, hw, rfl⟩ := List.mem_map.mp hw'
  exact ⟨w, hw, h.applied (.placed (mem_innerKeywords hkey).1 hw)⟩

theorem named (h : Narrows ctx' ctx f members' members) {key : String} (hkey : key ∈ schemaMapKeywords)
    (happlied : key ∈ namedKeywords) {m : String × Json} (hm : m ∈ schemasByName members key) :
    (m.1, f m.2) ∈ schemasByName members' key ∧ Tightens ctx' ctx (f m.2) m.2 := by
  rw [h.went.named key hkey]
  exact ⟨List.mem_map_of_mem hm, h.applied (.named happlied hm)⟩

theorem containsEnough (h : Narrows ctx' ctx f members' members) {n' n : Nat} (hle : n' ≤ n)
    (heq : ctx.isRecent = true → members.has "maxContains" = true → n' = n)
    (hn : Schema.containsEnough ctx' (partsOf ctx' members') n' = true) :
    Schema.containsEnough ctx (partsOf ctx members) n = true := by
  have hcount : ∀ key ∈ keptKeywords,
      Parts.count? (partsOf ctx' members') key = Parts.count? (partsOf ctx members) key := by
    intro key hkey
    simp only [Parts.count?, Parts.number?, value?_partsOf, h.went.kept key hkey]
  have hleast := hcount "minContains" (by decide)
  have hmost := hcount "maxContains" (by decide)
  simp only [Schema.containsEnough, h.isRecent_eq, hleast, hmost, Bool.and_eq_true,
    decide_eq_true_eq] at hn ⊢
  refine ⟨Nat.le_trans hn.1 hle, ?_⟩
  cases hrecent : ctx.isRecent with
  | false => simp
  | true =>
    rw [hrecent] at hn heq
    cases hhas : members.has "maxContains" with
    | true => rw [← heq rfl hhas]; exact hn.2
    | false =>
      have hnone : Parts.count? (partsOf ctx members) "maxContains" = none := by
        rw [Table.has, Option.isSome_eq_false_iff, Option.isNone_iff_eq_none] at hhas
        simp [Parts.count?, Parts.number?, value?_partsOf, hhas]
      simp [hnone]

/-! ### Parts that were looked at -/

/-- Closed members that a value has are all declared, so whoever looks at declared members looks at
all of them. -/
theorem ownNames_subset (h : Narrows ctx' ctx f members' members) (hs : Satisfies ctx' members' v) :
    ownNames (partsOf ctx' members') v ⊆ ownNames (partsOf ctx members) v := by
  intro name hname
  unfold ownNames at hname ⊢
  simp only [has_partsOf] at hname ⊢
  have hfurther : isFurther (partsOf ctx' members') name = isFurther (partsOf ctx members) name := by
    rw [Bool.eq_iff_iff, isFurther_partsOf_iff, isFurther_partsOf_iff, h.went.undeclared_iff]
  have hall : name ∈ (membersOf v).map Prod.fst := by
    split at hname
    · exact hname
    · exact (List.mem_filter.mp hname).1
  split
  · exact hall
  · rename_i hhas
    refine List.mem_filter.mpr ⟨hall, ?_⟩
    rcases h.went.additional with hadd | ⟨-, hadd⟩
    · have hhas' : ¬ members'.has "additionalProperties" = true := by
        rwa [Table.has, hadd, Option.isSome_map]
      rw [if_neg hhas'] at hname
      rw [← hfurther]
      exact (List.mem_filter.mp hname).2
    · -- Further members are refused, so this is none.
      obtain ⟨m, hm, rfl⟩ := List.mem_map.mp hall
      rw [← hfurther, Bool.not_eq_true', Bool.eq_false_iff]
      intro hf
      have hrefused := hs.further m hm (isFurther_partsOf_iff.mp hf) _ hadd
      simp [meaning, Check.refuse, Report.holds] at hrefused

theorem ownPlaces_subset (h : Narrows ctx' ctx f members' members) :
    ownPlaces ctx' (partsOf ctx' members') v ⊆ ownPlaces ctx (partsOf ctx members) v := by
  have hcommon : (commonItemCheck? (partsOf ctx' members')).isSome =
      (commonItemCheck? (partsOf ctx members)).isSome := by
    simp only [commonItemCheck?_partsOf, h.went.commonItem?_eq h.fate, Option.isSome_map]
  have hlist : hasItemList ctx' (partsOf ctx' members') = hasItemList ctx (partsOf ctx members) := by
    rw [Bool.eq_iff_iff, hasItemList_partsOf_iff, hasItemList_partsOf_iff, h.dialect,
      h.went.listsItems_iff h.fate]
  have hlength : (itemSchemas ctx' (partsOf ctx' members')).length =
      (itemSchemas ctx (partsOf ctx members)).length := by
    simp only [itemSchemas_partsOf, h.dialect, h.went.placedSchemas_eq h.fate, List.length_map]
  unfold ownPlaces
  simp only [hcommon, hlist, hlength, has_partsOf, h.went.has "additionalItems" (by decide),
    h.dialect, check?_partsOf]
  split
  · exact List.Subset.refl _
  · refine List.append_subset.mpr ⟨List.subset_append_left _ _, List.subset_append_of_subset_right _ ?_⟩
    cases hc : members.find? "contains" with
    | none =>
      rw [h.went.schema _ (by decide), hc]
      exact List.Subset.refl _
    | some w =>
      obtain ⟨hfind, ht⟩ := h.find (by decide) hc
      rw [hfind]
      cases ctx.dialect with
      | draft7 | draft2019 => exact List.Subset.refl _
      | draft2020 =>
        refine List.map_subset _ fun p hp => ?_
        obtain ⟨hmem, hholds⟩ := List.mem_filter.mp hp
        exact List.mem_filter.mpr ⟨hmem, (ht p.1).holds hholds⟩

/-- A branch that holds and counts for the one schema has a branch of the other that does. -/
theorem countsIfHolds (h : Narrows ctx' ctx f members' members) {r' : Report}
    (hr' : CountsIfHolds ctx' members' v r') :
    ∃ r, CountsIfHolds ctx members v r ∧ Tighter r' r := by
  cases hr' with
  | allOf hw' =>
    obtain ⟨w, hw, ht⟩ := h.of_placed (by decide) hw'
    exact ⟨_, .allOf hw, ht v⟩
  | anyOf hw' =>
    obtain ⟨w, hw, ht⟩ := h.of_placed (by decide) hw'
    exact ⟨_, .anyOf hw, ht v⟩
  | dependent hrecent hd' hname =>
    rw [h.went.named "dependentSchemas" (by decide)] at hd'
    obtain ⟨d, hd, rfl⟩ := List.mem_map.mp hd'
    have ht := h.applied (.named (by decide) hd)
    exact ⟨_, .dependent (h.isRecent_eq ▸ hrecent) hd hname, ht v⟩
  | condition hw' =>
    rw [h.went.schema _ (by decide)] at hw'
    obtain ⟨w, hw, rfl⟩ := Option.map_eq_some_iff.mp hw'
    exact ⟨_, .condition hw, h.applied (.schema (by decide) hw) v⟩
  | referred hr' =>
    rw [h.went.kept "$ref" (by decide)] at hr'
    exact ⟨_, .referred hr', h.referred _ hr' v⟩

theorem alternatives_eq (h : Narrows ctx' ctx f members' members) :
    alternatives ctx' members' v = alternatives ctx members v := by
  rw [alternatives, alternatives, h.went.byPlace h.fate (by decide), List.map_map]
  apply List.map_congr_left
  intro w hw
  rw [Function.comp_apply, h.settled w (.oneOf hw)]

/-- A branch that counts for the one schema has a branch of the other that counts, and has looked at
no less. -/
theorem counted (h : Narrows ctx' ctx f members' members) (hs : Satisfies ctx' members' v)
    {r' : Report} (hr' : r' ∈ countedBranches (branches ctx' (partsOf ctx' members') v)) :
    ∃ r ∈ countedBranches (branches ctx (partsOf ctx members) v),
      r'.names ⊆ r.names ∧ r'.places ⊆ r.places := by
  simp only [mem_countedBranches_iff] at hr' ⊢
  rcases hr' with ⟨hcounts, hholds⟩ | halone | ⟨c', w', hc', hw', rfl⟩
  · obtain ⟨r, hr, ht⟩ := h.countsIfHolds hcounts
    exact ⟨r, .inl ⟨hr, ht.holds hholds⟩, ht.names hholds, ht.places hholds⟩
  · rw [h.alternatives_eq] at halone
    exact ⟨r', .inr (.inl halone), List.Subset.refl _, List.Subset.refl _⟩
  · have hholds := hs.selected c' hc' w' hw'
    rw [h.went.schema _ (selectedKey_mem ctx' c' v)] at hw'
    rw [h.went.schema _ (by decide)] at hc'
    obtain ⟨c, hc, rfl⟩ := Option.map_eq_some_iff.mp hc'
    obtain ⟨w, hw, rfl⟩ := Option.map_eq_some_iff.mp hw'
    have ht := h.applied (.schema (mem_innerKeywords (selectedKey_mem ctx' _ v)).1 hw) v
    rw [selectedKey, h.settled c (.condition hc), ← selectedKey] at hw
    exact ⟨_, .inr (.inr ⟨c, w, hc, hw, rfl⟩), ht.names hholds, ht.places hholds⟩

theorem seenNames_subset (h : Narrows ctx' ctx f members' members) (hs : Satisfies ctx' members' v) :
    seenNames ctx' (partsOf ctx' members') v ⊆ seenNames ctx (partsOf ctx members) v := by
  intro name hname
  rcases List.mem_append.mp hname with hown | hbranch
  · exact List.mem_append_left _ (h.ownNames_subset hs hown)
  · obtain ⟨r', hr', hname⟩ := List.mem_flatMap.mp hbranch
    obtain ⟨r, hr, hsub, -⟩ := h.counted hs hr'
    exact List.mem_append_right _ (List.mem_flatMap.mpr ⟨r, hr, hsub hname⟩)

theorem seenPlaces_subset (h : Narrows ctx' ctx f members' members) (hs : Satisfies ctx' members' v) :
    seenPlaces ctx' (partsOf ctx' members') v ⊆ seenPlaces ctx (partsOf ctx members) v := by
  intro place hplace
  rcases List.mem_append.mp hplace with hown | hbranch
  · exact List.mem_append_left _ (h.ownPlaces_subset hown)
  · obtain ⟨r', hr', hplace⟩ := List.mem_flatMap.mp hbranch
    obtain ⟨r, hr, -, hsub⟩ := h.counted hs hr'
    exact List.mem_append_right _ (List.mem_flatMap.mpr ⟨r, hr, hsub hplace⟩)

/-! ### The schema as a whole -/

/-- A value that is as the keywords of the one schema ask for is as those of the other ask for. -/
theorem satisfies (h : Narrows ctx' ctx f members' members) (hs : Satisfies ctx' members' v) :
    Satisfies ctx members v where
  assertions := (h.went.assertions_eq h.dialect v).symm.trans hs.assertions
  required hnot := by
    rw [← h.went.requiredNames_eq]
    exact hs.required fun ho => hnot ((h.went.overlooksRequired_iff h.fate).mp ho)
  property m hm w hw := by
    refine (h.applied (.named (by decide) (Table.mem_of_find? hw)) m.2).holds
      (hs.property m hm (f w) ?_)
    rw [h.went.named "properties" (by decide), Table.find?_map (fun _ => f), hw,
      Option.map_some]
  pattern m hm p hp hmatch := by
    obtain ⟨hmem, ht⟩ := h.named (by decide) (by decide) hp
    exact (ht m.2).holds (hs.pattern m hm (p.1, f p.2) hmem hmatch)
  further m hm hundeclared w hw := by
    refine (h.applied (.schema (by decide) hw) m.2).holds
      (hs.further m hm (h.went.undeclared_iff.mpr hundeclared) (f w) ?_)
    rcases h.went.additional with hadd | ⟨hnone, -⟩
    · rw [hadd, hw, Option.map_some]
    · rw [hnone] at hw
      cases hw
  names w hw m hm := by
    obtain ⟨hfind, ht⟩ := h.find (by decide) hw
    exact (ht _).holds (hs.names _ hfind m hm)
  commonItems w hw x hx := by
    have hw' : commonItem? members' = some (f w) := by
      rw [h.went.commonItem?_eq h.fate, hw, Option.map_some]
    refine (h.applied (.schema (by decide) (find?_of_commonItem? hw)) x).holds
      (hs.commonItems (f w) hw' x ?_)
    rw [h.dialect, h.went.leftOut_eq h.fate]
    exact hx
  placedItems p hp := by
    have hw : Applies members p.1 := applies_of_placed (List.of_mem_zip hp).1
    refine (h.applied hw p.2).holds (hs.placedItems (f p.1, p.2) ?_)
    rw [h.dialect, h.went.placedSchemas_eq h.fate, List.zip_map_left]
    exact List.mem_map_of_mem (f := Prod.map f id) hp
  furtherItems hlists w hw x hx := by
    obtain ⟨hfind, ht⟩ := h.find (by decide) hw
    refine (ht x).holds (hs.furtherItems ?_ (f w) hfind x ?_)
    · rw [h.dialect]
      exact (h.went.listsItems_iff h.fate).mpr hlists
    · rw [h.went.byPlace h.fate (by decide), List.length_map]
      exact hx
  contains w hw items hitems := by
    obtain ⟨hfind, ht⟩ := h.find (by decide) hw
    refine h.containsEnough ?_ ?_ (hs.contains (f w) hfind items hitems)
    · exact List.countP_mono_left fun x _ => (ht x).holds
    · intro hrecent hmost
      rw [h.settled w (.limited (ctx.isRecent_iff.mp hrecent) hmost hw)]
  dependencies d hd hname := by
    have hsame : schemasByName members' "dependencies" = schemasByName members "dependencies" := by
      rw [schemasByName, schemasByName, h.went.kept "dependencies" (by decide)]
    have hholds := hs.dependencies d (hsame ▸ hd) hname
    have ht := h.inside d.2 (.named (by decide) hd) id .kept v
    obtain ⟨name, w⟩ := d
    cases w with
    | array names => exact hholds
    | null | bool | number | string | object => exact ht.holds hholds
  dependent hrecent d hd hname := by
    obtain ⟨hmem, ht⟩ := h.named (by decide) (by decide) hd
    exact (ht v).holds (hs.dependent (h.isRecent_eq ▸ hrecent) (d.1, f d.2) hmem hname)
  allOf w hw := by
    obtain ⟨hmem, ht⟩ := h.placed (by decide) hw
    exact (ht v).holds (hs.allOf (f w) hmem)
  anyOf hhas := by
    obtain ⟨w', hw', hholds⟩ := hs.anyOf ((h.went.has _ (by decide)).trans hhas)
    obtain ⟨w, hw, ht⟩ := h.of_placed (by decide) hw'
    exact ⟨w, hw, (ht v).holds hholds⟩
  oneOf hhas := by
    rw [← hs.oneOf ((h.went.has _ (by decide)).trans hhas),
      h.went.byPlace h.fate (by decide), List.countP_map]
    apply List.countP_congr
    intro w hw
    rw [Function.comp_apply, h.settled w (.oneOf hw)]
  not w hw := by
    rw [← h.settled w (.not hw)]
    exact hs.not (f w) (h.find (by decide) hw).1
  selected c hc w hw := by
    have hkey : selectedKey ctx' (f c) v = selectedKey ctx c v := by
      rw [selectedKey, selectedKey, h.settled c (.condition hc)]
    obtain ⟨hfind, ht⟩ := h.find (selectedKey_mem ctx c v) hw
    refine (ht v).holds (hs.selected (f c) (h.find (by decide) hc).1 (f w) ?_)
    rw [hkey]
    exact hfind
  unevaluatedNames hrecent w hw m hm hunseen := by
    obtain ⟨hfind, ht⟩ := h.find (by decide) hw
    exact (ht m.2).holds (hs.unevaluatedNames (h.isRecent_eq ▸ hrecent) (f w) hfind m hm
      fun hseen => hunseen (h.seenNames_subset hs hseen))
  unevaluatedItems hrecent w hw p hp hunseen := by
    obtain ⟨hfind, ht⟩ := h.find (by decide) hw
    exact (ht p.1).holds (hs.unevaluatedItems (h.isRecent_eq ▸ hrecent) (f w) hfind p hp
      fun hseen => hunseen (h.seenPlaces_subset hs hseen))
  referred r hr := by
    refine (h.referred r hr v).holds (hs.referred r ?_)
    rw [h.went.kept "$ref" (by decide)]
    exact hr

/-- One schema says no less than the other. -/
theorem tighter (h : Narrows ctx' ctx f members' members) (v : Json) :
    Tighter (keywordsReport ctx' (partsOf ctx' members') v)
      (keywordsReport ctx (partsOf ctx members) v) where
  holds hholds := keywordsReport_holds_iff.mpr (h.satisfies (keywordsReport_holds_iff.mp hholds))
  names hholds := by
    have hsub := h.seenNames_subset (keywordsReport_holds_iff.mp hholds)
    simp only [names_keywordsReport, h.isRecent_eq, has_partsOf,
      h.went.has "unevaluatedProperties" (by decide)]
    split
    · exact List.Subset.refl _
    · exact hsub
  places hholds := by
    have hsub := h.seenPlaces_subset (keywordsReport_holds_iff.mp hholds)
    simp only [places_keywordsReport, h.isRecent_eq, has_partsOf,
      h.went.has "unevaluatedItems" (by decide)]
    split
    · exact List.Subset.refl _
    · exact hsub

/-- In the oldest dialect nothing counts beside a reference, before and after. -/
theorem tightens (h : Narrows ctx' ctx f members' members) :
    Tightens ctx' ctx (.object members') (.object members) := by
  intro v
  have htext : Parts.text? (partsOf ctx' members') "$ref" =
      Parts.text? (partsOf ctx members) "$ref" := by
    simp only [Parts.text?, value?_partsOf, h.went.kept "$ref" (by decide)]
  simp only [meaning, objectReport, h.dialect, htext]
  split
  · rename_i r _ hr
    exact h.referred r (text?_partsOf_iff.mp hr) v
  · exact h.tighter v

end Narrows

section Schemas

variable {ctx' ctx : Context} {f : Json → Json}

theorem tightens_object (hf : Fate f) {members : Table Json}
    (h : ∀ members', Went f members' members → Narrows ctx' ctx f members' members) :
    Tightens ctx' ctx (f (.object members)) (.object members) := by
  cases hf with
  | kept => exact (h members (went_id members)).tightens
  | closed =>
    rw [close_object]
    exact (h (closeMembers members) (went_close members)).tightens

/-- What is no schema object means the same everywhere. -/
theorem tightens_other (hf : Fate f) {w : Json} (hw : ∀ members, w ≠ .object members) :
    Tightens ctx' ctx (f w) w := by
  intro v
  have hsame : meaning ctx' (f w) v = meaning ctx w v := by
    cases w with
    | object members => exact absurd rfl (hw members)
    | bool b => cases hf <;> cases b <;> simp [close, meaning]
    | null | number | string | array => cases hf <;> simp [close, meaning]
  rw [hsame]
  exact .refl _

end Schemas

end GuardedCall.Schema
