-- Compiling a closed document. A survey gets through what closing makes of a
-- part, and follows the same references, if it gets through the part. So a
-- document that compiles does so closed as well, and what a lenient registry
-- holds serves a strict adapter.
import GuardedCall.Proofs.Boundary
import GuardedCall.Proofs.Registration
import GuardedCall.Proofs.SchemaShape
import GuardedCall.Proofs.StrictMode

namespace GuardedCall

namespace Schema

variable {dialect : Dialect}

section Surveys

variable {follow' follow : String → List String → Survey}

/-! ## Surveys that get as far -/

/-- Where the one survey finds no fault the other finds none, and it follows the same references. -/
def AsFar (y x : List String → Survey) : Prop := ∀ seen found, x seen = .ok found → y seen = .ok found

theorem AsFar.refl (x : List String → Survey) : AsFar x x := fun _ _ h => h

theorem bind_eq_ok {ε α β : Type} {x : Except ε α} {f : α → Except ε β} {b : β}
    (h : (x >>= f) = .ok b) : ∃ a, x = .ok a ∧ f a = .ok b := by
  cases x with
  | error e => cases h
  | ok a => exact ⟨a, rfl, h⟩

/-- One survey after another gets as far if both of them do. -/
theorem AsFar.bind {y x y' x' : List String → Survey} (h : AsFar y x) (h' : AsFar y' x') :
    AsFar (fun seen => y seen >>= y') (fun seen => x seen >>= x') := by
  intro seen found hx
  obtain ⟨between, hfirst, hrest⟩ := bind_eq_ok hx
  show (y seen >>= y') = .ok found
  rw [h seen between hfirst]
  exact h' between found hrest

/-! ## Members that are kept -/

/-- Members that closing keeps: each of them is kept, and a refusal of further members may stand
between them. -/
inductive KeptMembers : List (String × Json) → List (String × Json) → Prop
  | nil : KeptMembers [] []
  | cons {key : String} {v' v : Json} {rest' rest : List (String × Json)} (h : Kept v' v)
      (hrest : KeptMembers rest' rest) : KeptMembers ((key, v') :: rest') ((key, v) :: rest)
  | refusing {members' members : List (String × Json)} (h : KeptMembers members' members) :
      KeptMembers (("additionalProperties", .bool false) :: members') members

theorem keptMembers_map {f : String → Json → Json} (hf : ∀ key v, Kept (f key v) v)
    (members : List (String × Json)) :
    KeptMembers (members.map fun m => (m.1, f m.1 m.2)) members := by
  induction members with
  | nil => exact .nil
  | cons m rest ih => exact .cons (hf m.1 m.2) ih

theorem KeptMembers.insert {members' members : Table Json} (h : KeptMembers members' members)
    (hnone : members'.find? "additionalProperties" = none) :
    KeptMembers (members'.insert "additionalProperties" (.bool false)) members := by
  induction h with
  | nil => exact .refusing .nil
  | @cons key v' v rest' rest hv hrest ih =>
    rw [Table.find?_cons] at hnone
    split at hnone
    · cases hnone
    · rename_i hkey
      rw [Table.insert, if_neg hkey]
      split
      · exact .refusing (.cons hv hrest)
      · exact .cons hv (ih hnone)
  | refusing => simp at hnone

theorem keptMembers_closeMembers (members : Table Json) :
    KeptMembers (closeMembers members) members := by
  have hinside : KeptMembers (closeInside members) members := by
    rw [closeInside_eq_map]
    exact keptMembers_map kept_closeValue members
  unfold closeMembers
  split
  · rename_i hopen
    refine hinside.insert ?_
    rw [find?_closeInside, additional_of_isOpen hopen, Option.map_none]
  · exact hinside

theorem keptMembers_refl (members : List (String × Json)) : KeptMembers members members := by
  induction members with
  | nil => exact .nil
  | cons m rest ih => exact .cons (.same m.2) ih

theorem Kept.members {v' v : Json} (h : Kept v' v) : KeptMembers (membersOf v') (membersOf v) := by
  cases h with
  | same => exact keptMembers_refl _
  | closed =>
    cases v with
    | object members =>
      rw [close_object]
      exact keptMembers_closeMembers members
    | null | bool | number | string | array => exact .nil
  | table schemas =>
    show KeptMembers (closeNamed schemas) schemas
    rw [closeNamed_eq_map]
    exact keptMembers_map (fun _ v => .closed v) schemas

/-! ## What is kept of a part itself -/

theorem Kept.object_eq {v' : Json} {members : List (String × Json)}
    (h : Kept v' (.object members)) : v' = .object (membersOf v') := by
  cases h with
  | same | table => rfl
  | closed =>
    rw [close_object]
    rfl

theorem Kept.array_eq {v' : Json} {items : List Json} (h : Kept v' (.array items)) :
    ∃ f : Json → Json, v' = .array (items.map f) ∧ ∀ v, Kept (f v) v := by
  cases h with
  | same => exact ⟨id, by rw [List.map_id], .same⟩
  | closed =>
    rw [close, closeItems_eq_map]
    exact ⟨close, rfl, .closed⟩

theorem Kept.bool_eq {v' : Json} {b : Bool} (h : Kept v' (.bool b)) : v' = .bool b := by
  cases h with
  | same => rfl
  | closed => simp only [close]

/-- A text, if a value is one. -/
def textOf? : Json → Option String
  | .string s => some s
  | _ => none

theorem Kept.textOf?_eq {v' v : Json} (h : Kept v' v) : textOf? v' = textOf? v := by
  cases h with
  | same | table => rfl
  | closed => cases v <;> simp only [close, textOf?]

theorem Kept.isList_eq {v' v : Json} (h : Kept v' v) : isList v' = isList v := by
  cases h with
  | same | table => rfl
  | closed => cases v <;> simp only [close, isList]

theorem KeptMembers.reference_eq {members' members : Table Json} (h : KeptMembers members' members) :
    (members'.find? "$ref").bind textOf? = (members.find? "$ref").bind textOf? := by
  induction h with
  | nil => rfl
  | @cons key v' v rest' rest hv hrest ih =>
    rw [Table.find?_cons, Table.find?_cons]
    split
    · exact hv.textOf?_eq
    · exact ih
  | refusing h ih =>
    rw [Table.find?_cons, if_neg (by decide)]
    exact ih

theorem soleReference?_eq (dialect : Dialect) (members : Table Json) :
    soleReference? dialect members =
      if dialect = .draft7 then (members.find? "$ref").bind textOf? else none := by
  unfold soleReference?
  cases dialect with
  | draft7 =>
    rcases Table.find? members "$ref" with _ | v
    · rfl
    · cases v <;> rfl
  | draft2019 | draft2020 => rfl

theorem KeptMembers.soleReference?_eq {members' members : Table Json}
    (h : KeptMembers members' members) :
    soleReference? dialect members' = soleReference? dialect members := by
  rw [Schema.soleReference?_eq, Schema.soleReference?_eq, h.reference_eq]

/-! ## One keyword -/

/-- What a survey does about one keyword. -/
def surveyKeyword (dialect : Dialect) (follow : String → List String → Survey) (key : String)
    (v : Json) (seen : List String) : Survey :=
  match holding dialect key with
  | .schemas => survey dialect follow v seen
  | .schemasByName => surveyNamed dialect follow (membersOf v) seen
  | .schemasByPattern => do
    surveyPatterns (membersOf v)
    surveyNamed dialect follow (membersOf v) seen
  | .pattern =>
    match textOf? v with
    | some s => do
      surveyPattern s (.string s)
      .ok seen
    | none => .ok seen
  | .reference =>
    match textOf? v with
    | some r => follow r seen
    | none => .ok seen
  | .nothing => .ok seen

theorem surveyMembers_cons (key : String) (v : Json) (rest : List (String × Json))
    (seen : List String) :
    surveyMembers dialect follow ((key, v) :: rest) seen =
      surveyKeyword dialect follow key v seen >>= surveyMembers dialect follow rest := by
  unfold surveyMembers surveyKeyword
  generalize holding dialect key = kind
  cases kind with
  | schemas | nothing => rfl
  | schemasByName | reference => cases v <;> rfl
  | schemasByPattern =>
    cases v with
    | object schemas =>
      simp only [membersOf]
      cases surveyPatterns schemas <;> rfl
    | null | bool | number | string | array => rfl
  | pattern =>
    cases v with
    | string s =>
      simp only [textOf?]
      cases surveyPattern s (.string s) <;> rfl
    | null | bool | number | array | object => rfl

theorem surveyPatterns_cons_eq_ok_iff {m : String × Json} {rest : List (String × Json)} :
    surveyPatterns (m :: rest) = .ok () ↔
      (Pattern.ofText? m.1).isSome = true ∧ surveyPatterns rest = .ok () := by
  have hcons : surveyPatterns (m :: rest) = (surveyPattern m.1 m.2 >>= fun _ => surveyPatterns rest) :=
    rfl
  rw [hcons]
  unfold surveyPattern
  cases Pattern.ofText? m.1 with
  | none => exact iff_of_false (fun h => nomatch h) fun h => nomatch h.1
  | some p => exact (and_iff_right rfl).symm

theorem surveyNamed_cons (name : String) (v : Json) (rest : List (String × Json))
    (seen : List String) :
    surveyNamed dialect follow ((name, v) :: rest) seen =
      (if isList v then .ok seen else survey dialect follow v seen) >>=
        surveyNamed dialect follow rest := by
  rw [surveyNamed]
  split <;> rfl

/-! ## Surveys of what is kept -/

/-- The names that have to write patterns stay, and the one that may come is a pattern. -/
theorem KeptMembers.patterns {members' members : List (String × Json)}
    (h : KeptMembers members' members) (hpatterns : surveyPatterns members = .ok ()) :
    surveyPatterns members' = .ok () := by
  induction h with
  | nil => rfl
  | cons hv hrest ih =>
    obtain ⟨hname, hothers⟩ := surveyPatterns_cons_eq_ok_iff.mp hpatterns
    exact surveyPatterns_cons_eq_ok_iff.mpr ⟨hname, ih hothers⟩
  | refusing h ih => exact surveyPatterns_cons_eq_ok_iff.mpr ⟨by decide, ih hpatterns⟩

theorem KeptMembers.named {members' members : List (String × Json)}
    (h : KeptMembers members' members)
    (hbelow : ∀ m ∈ members, ∀ v', Kept v' m.2 →
      AsFar (survey dialect follow' v') (survey dialect follow m.2)) :
    AsFar (surveyNamed dialect follow' members') (surveyNamed dialect follow members) := by
  induction h with
  | nil => exact .refl _
  | @cons key v' v rest' rest hv hrest ih =>
    have hhead : AsFar (fun seen => if isList v' then .ok seen else survey dialect follow' v' seen)
        fun seen => if isList v then .ok seen else survey dialect follow v seen := by
      rw [hv.isList_eq]
      split
      · exact .refl _
      · exact hbelow _ List.mem_cons_self v' hv
    have hrest := ih fun m hm => hbelow m (List.mem_cons_of_mem _ hm)
    intro seen found hok
    rw [surveyNamed_cons] at hok ⊢
    exact hhead.bind hrest seen found hok
  | refusing h ih => exact ih hbelow

theorem KeptMembers.keywords {members' members : List (String × Json)}
    (h : KeptMembers members' members)
    (hbelow : ∀ m ∈ members, ∀ v', Kept v' m.2 →
      AsFar (surveyKeyword dialect follow' m.1 v') (surveyKeyword dialect follow m.1 m.2)) :
    AsFar (surveyMembers dialect follow' members') (surveyMembers dialect follow members) := by
  induction h with
  | nil => exact .refl _
  | @cons key v' v rest' rest hv hrest ih =>
    have hrest := ih fun m hm => hbelow m (List.mem_cons_of_mem _ hm)
    intro seen found hok
    rw [surveyMembers_cons] at hok ⊢
    exact (hbelow _ List.mem_cons_self v' hv).bind hrest seen found hok
  | refusing h ih =>
    -- The schema that refuses everything is one that a survey gets through.
    intro seen found hok
    have hrefusal : surveyKeyword dialect follow' "additionalProperties" (.bool false) seen =
        .ok seen := by cases dialect <;> rfl
    rw [surveyMembers_cons, hrefusal]
    exact ih hbelow seen found hok

theorem surveyItems_map {f : Json → Json} {items : List Json}
    (h : ∀ v ∈ items, AsFar (survey dialect follow' (f v)) (survey dialect follow v)) :
    AsFar (surveyItems dialect follow' (items.map f)) (surveyItems dialect follow items) := by
  induction items with
  | nil => exact .refl _
  | cons v rest ih =>
    exact (h v List.mem_cons_self).bind (ih fun w hw => h w (List.mem_cons_of_mem _ hw))

/-- A survey of one keyword gets as far if the surveys of the schemas under it do. -/
theorem Kept.keyword {key : String} {v' v : Json} (h : Kept v' v)
    (hfollow : ∀ r, AsFar (follow' r) (follow r))
    (hschema : AsFar (survey dialect follow' v') (survey dialect follow v))
    (hbelow : ∀ m ∈ membersOf v, ∀ w', Kept w' m.2 →
      AsFar (survey dialect follow' w') (survey dialect follow m.2)) :
    AsFar (surveyKeyword dialect follow' key v') (surveyKeyword dialect follow key v) := by
  have hnamed := h.members.named hbelow
  intro seen found hok
  unfold surveyKeyword at hok ⊢
  generalize holding dialect key = kind at hok ⊢
  cases kind with
  | schemas => exact hschema seen found hok
  | schemasByName => exact hnamed seen found hok
  | schemasByPattern =>
    obtain ⟨u, hpatterns, hok⟩ := bind_eq_ok hok
    dsimp only
    rw [h.members.patterns hpatterns]
    exact hnamed seen found hok
  | pattern =>
    rw [h.textOf?_eq]
    exact hok
  | reference =>
    dsimp only at hok ⊢
    rw [h.textOf?_eq]
    split at hok
    · exact hfollow _ seen found hok
    · exact hok
  | nothing => exact hok

/-- A survey gets through what is kept of a part if it gets through the part. -/
theorem Kept.asFar (hfollow : ∀ r, AsFar (follow' r) (follow r)) {v' v : Json} (h : Kept v' v) :
    AsFar (survey dialect follow' v') (survey dialect follow v) := by
  -- By the depth of the part: what a keyword holds lies deeper, by name as well.
  induction hdepth : v.depth using Nat.strongRecOn generalizing v' v with
  | ind d ih =>
    subst hdepth
    intro seen found hok
    cases v with
    | object members =>
      have hlt : ∀ m ∈ members, m.2.depth < (Json.object members).depth := fun m hm =>
        Nat.lt_succ_of_le (depth_le_members hm)
      have hbelow : ∀ m ∈ members, ∀ w', Kept w' m.2 →
          AsFar (surveyKeyword dialect follow' m.1 w') (surveyKeyword dialect follow m.1 m.2) :=
        fun m hm w' hw => hw.keyword hfollow (ih _ (hlt m hm) hw rfl) fun k hk x' hx =>
          ih _ (Nat.lt_of_le_of_lt (depth_le_of_mem_membersOf hk) (hlt m hm)) hx rfl
      have hmembers : KeptMembers (membersOf v') members := h.members
      rw [h.object_eq, survey, hmembers.soleReference?_eq]
      rw [survey] at hok
      split at hok
      · exact hfollow _ seen found hok
      · exact hmembers.keywords hbelow seen found hok
    | array items =>
      obtain ⟨f, rfl, hf⟩ := h.array_eq
      have hitems := surveyItems_map fun w hw =>
        ih w.depth (Nat.lt_succ_of_le (depth_le_items hw)) (hf w) rfl
      exact hitems seen found hok
    | bool b =>
      rw [h.bool_eq]
      exact hok
    | null | number | string => cases hok

end Surveys

/-! ## References and documents -/

/-- A reference was followed before, or it leads to something that is no list and that a survey gets
through. -/
theorem follow_eq_ok_iff {root : Json} {n : Nat} {reference : String} {seen found : List String} :
    follow dialect root (n + 1) reference seen = .ok found ↔
      (reference ∈ seen ∧ seen = found) ∨
      (reference ∉ seen ∧ ∃ v, target? root reference = some v ∧ isList v = false ∧
        survey dialect (follow dialect root n) v (reference :: seen) = .ok found) := by
  rw [follow]
  split
  · rename_i hseen
    simp [hseen]
  · rename_i hseen
    rcases target? root reference with _ | v
    · simp [hseen]
    · cases v <;> simp [hseen, isList]

/-- References of a closed document are followed as far as those of the document. -/
theorem follow_close (root : Json) (n : Nat) (reference : String) :
    AsFar (follow dialect (close root) n reference) (follow dialect root n reference) := by
  induction n generalizing reference with
  | zero => exact .refl _
  | succ n ih =>
    intro seen found hok
    rw [follow_eq_ok_iff] at hok ⊢
    refine hok.imp_right fun ⟨hnew, v, hv, hlist, hsurvey⟩ => ⟨hnew, ?_⟩
    have hkept := keptPart_target? root reference
    rw [hv] at hkept
    generalize target? (close root) reference = o' at hkept
    -- The reference led somewhere, so it leads to what is kept of that.
    cases hkept with
    | kept h => exact ⟨_, rfl, h.isList_eq.trans hlist, h.asFar ih _ _ hsurvey⟩

/-- A document compiles if it is a schema and a survey gets through it. -/
theorem compile_eq_ok_iff {config : SchemaConfig} {document : Json} {c : Validator} :
    compile config document = .ok c ↔
      shapeFault? config.dialect (prepared config document) = none ∧
      (∃ seen, survey config.dialect
        (follow config.dialect (prepared config document)
          (countReferences (prepared config document) + 1)) (prepared config document) [] = .ok seen) ∧
      c = ⟨config.dialect, prepared config document⟩ := by
  unfold compile
  dsimp only
  generalize prepared config document = d
  cases shapeFault? config.dialect d with
  | some v => simp
  | none =>
    generalize survey _ _ _ _ = surveyed
    cases surveyed with
    | error f => exact iff_of_false (fun h => nomatch h) fun ⟨_, ⟨_, h⟩, _⟩ => nomatch h
    | ok seen =>
      constructor
      · intro h
        exact ⟨rfl, ⟨seen, rfl⟩, (Except.ok.inj h).symm⟩
      · rintro ⟨-, -, rfl⟩
        rfl

/-- A document that compiles does so in strict mode. -/
theorem compile_close {document : Json} {c : Validator}
    (h : compile ⟨dialect, false⟩ document = .ok c) :
    compile ⟨dialect, true⟩ document = .ok ⟨dialect, close document⟩ := by
  obtain ⟨hshape, ⟨seen, hsurvey⟩, -⟩ := compile_eq_ok_iff.mp h
  simp only [prepared, Bool.false_eq_true, if_false] at hshape hsurvey
  refine compile_eq_ok_iff.mpr ⟨shapeFault?_close hshape, ⟨seen, ?_⟩, rfl⟩
  simp only [prepared, if_true, countReferences_close]
  exact (Kept.closed document).asFar (follow_close document _) _ _ hsurvey

end Schema

namespace StrictMode

open Schema

variable {α β σ : Type}

/-! ## What is used with a strict adapter -/

/-- The fault in an answer, if it is one. -/
def faultOf? : SchemaCache.Verdict → Option AdapterFault
  | .prepared (.error f) | .validated (.error f) => some f
  | .prepared (.ok _) | .validated (.ok _) | .diagnosed _ => none

/-- Under these settings a document is evaluated on every value, however its copies were used
before. -/
structure Usable (config : SchemaConfig) (s : CachedSchema) : Prop where
  validates : ∀ {α : Type} (codec : Typed.Codec α) (v : Json),
    ∃ b, (byDocument config).validate ⟨s.document, codec⟩ v = .ok b
  answers : ∀ (tag : String) (ops : List SchemaCache.Operation),
    ∀ e ∈ SchemaCache.run ops [⟨tag, s⟩], ∀ i q k, e.operation = .use i config q →
      e.before[i]? = some k → ∃ verdict, e.verdict = some verdict ∧ faultOf? verdict = none

theorem usable_of_compile {config : SchemaConfig} {s : CachedSchema} {c : Validator}
    (hs : SchemaCache.Faithful s.document s) (h : compile config s.document = .ok c) :
    Usable config s where
  validates codec v :=
    ⟨_, validate_eq_ok_iff.mpr ⟨⟨c, compileDocument_eq_ok_iff.mpr h⟩, rfl⟩⟩
  answers tag ops e he i q k hop hk := by
    have hfamily : SchemaCache.AllFaithful s.document [⟨tag, s⟩] := by
      intro copy hcopy
      obtain rfl := List.mem_singleton.mp hcopy
      exact hs
    refine ⟨_, (SchemaCache.transparent_of_mem_run ops hfamily e he).verdict_eq i config q hop k hk, ?_⟩
    unfold SchemaCache.fresh
    rw [h]
    cases q <;> rfl

/-- A document of a lenient registry remembers that it compiles, so it does under strict settings. -/
theorem usable_of_checked {r : Registry} {dialect : Dialect} (hr : Registration.Checked r)
    (hlenient : r.config.schema = ⟨dialect, false⟩) {name : String} {s : CachedSchema}
    (hs : r.typed name = .ok s) : Usable ⟨dialect, true⟩ s := by
  have hget : r.get? name = some s := by
    unfold Registry.typed at hs
    split at hs
    · rename_i h
      rw [h, Except.ok.inj hs]
    · cases hs
  obtain ⟨c, hc, hcell⟩ := hr.compiled name s hget
  rw [hlenient] at hc hcell
  have hfaithful : SchemaCache.Faithful s.document s := by
    refine ⟨rfl, fun k hk => ?_⟩
    obtain rfl := Option.some.inj (hcell.symm.trans hk)
    exact hc.symm
  exact usable_of_compile hfaithful (compile_close (compileDocument_eq_ok_iff.mp hc))

/-- A method whose schemas are evaluated on every value never ends in the fault that one of them is
malformed. -/
theorem answer_ne_malformedSchema {m : Boundary.Guarded DocumentSchema σ α β}
    (hinput : ∀ v, ∃ b, m.descriptor.adapter.validate m.descriptor.input v = .ok b)
    (houtput : ∀ w, ∃ b, m.descriptor.adapter.validate m.descriptor.output w = .ok b)
    (request : Boundary.Request α) (state : σ) (name message : String) :
    (Boundary.exchange m request state).answer ≠
      .error (.adapterFault ⟨name, .malformedSchema message⟩) := by
  intro h
  cases (Boundary.lawful_exchange m request state).fails _ |>.mp h with
  | refused h =>
    cases h with
    | unchecked hv h =>
      obtain ⟨b, hb⟩ := hinput _
      cases h.symm.trans hb
    | @undecodable v f h hf =>
      unfold Adapter.decode at hf
      generalize Typed.Codec.decodeJson _ v = decoded at hf
      cases decoded <;> cases hf
  | withheld hx hy h =>
    cases h with
    | unchecked hw h =>
      obtain ⟨b, hb⟩ := houtput _
      cases h.symm.trans hb

/-- Strict mode makes no schema malformed, in any dialect: a document that compiles without it
compiles with it, closed. So every document of a lenient registry, wherever it comes from, is
evaluated by a strict adapter on every value, however it was used before, and a method between two
such documents never ends in the fault that one of them is malformed. -/
theorem strict_mode_breaks_no_schema (dialect : Dialect) :
    (∀ document c, compile ⟨dialect, false⟩ document = .ok c →
      compile ⟨dialect, true⟩ document = .ok ⟨dialect, close document⟩) ∧
    ∀ r, Registration.Obtained r → r.config.schema = ⟨dialect, false⟩ →
      (∀ name s, r.typed name = .ok s → Usable ⟨dialect, true⟩ s) ∧
      ∀ name name' s s', r.typed name = .ok s → r.typed name' = .ok s' →
        ∀ (m : Boundary.Guarded DocumentSchema σ α β) (input : Typed.Codec α)
          (output : Typed.Codec β),
          m.descriptor = ⟨byDocument ⟨dialect, true⟩, ⟨s.document, input⟩, ⟨s'.document, output⟩⟩ →
          ∀ request state adapter message, (Boundary.exchange m request state).answer ≠
            .error (.adapterFault ⟨adapter, .malformedSchema message⟩) := by
  refine ⟨fun document c h => compile_close h, fun r hr hlenient => ?_⟩
  have husable : ∀ name s, r.typed name = .ok s → Usable ⟨dialect, true⟩ s := fun name s hs =>
    usable_of_checked hr.checked hlenient hs
  refine ⟨husable, fun name name' s s' hs hs' m input output hm request state adapter message => ?_⟩
  refine answer_ne_malformedSchema ?_ ?_ request state adapter message
  · rw [hm]
    exact (husable name s hs).validates input
  · rw [hm]
    exact (husable name' s' hs').validates output

/-- A registry with the chains of objects, which refer to themselves. -/
def chains : Registry :=
  ((Registration.Call.given "chain" chain.document).perform.ends (.empty {})).2

/-- The chains with what is remembered of them. -/
def cachedChain : CachedSchema :=
  ⟨chain.document, some ⟨{}, .ok ⟨.draft7, chain.document⟩⟩⟩

set_option maxRecDepth 2048 in
/-- The chains of a lenient registry serve a strict adapter. -/
theorem chain_serves_strict :
    compile ⟨.draft7, true⟩ chain.document = .ok ⟨.draft7, close chain.document⟩ ∧
    chains.typed "chain" = .ok cachedChain ∧ Usable ⟨.draft7, true⟩ cachedChain ∧
    ∀ request adapter message,
      (Boundary.exchange (.now ⟨⟨byDocument ⟨.draft7, true⟩, chain, chain⟩, .ofTotal fun x s => (x, s)⟩)
        request ()).answer ≠ .error (.adapterFault ⟨adapter, .malformedSchema message⟩) := by
  have hcompiles : compile ⟨.draft7, false⟩ chain.document = .ok ⟨.draft7, chain.document⟩ := by rfl
  have hchain : chains.typed "chain" = .ok cachedChain := by rfl
  obtain ⟨hdocuments, hregistries⟩ := @strict_mode_breaks_no_schema Json Json Unit .draft7
  have hchains := hregistries chains (.called (.empty {}) _) (by rfl)
  refine ⟨hdocuments _ _ hcompiles, hchain, hchains.1 _ _ hchain, fun request adapter message => ?_⟩
  exact hchains.2 _ _ _ _ hchain hchain _ chain.codec chain.codec rfl request () adapter message

end StrictMode

end GuardedCall
