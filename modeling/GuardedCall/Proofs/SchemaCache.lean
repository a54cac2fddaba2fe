-- The laws of documents that remember how they were compiled. Copies of one
-- document are used in any order and under any settings, and further copies are
-- taken at any time: what is remembered never shows in an answer, and what is
-- logged tells when it was of no use.
import GuardedCall.Schema.Cached

namespace GuardedCall.SchemaCache

/-! ## Copies of one document -/

inductive Question where
  | prepare
  | validate (v : Json)
  | diagnose (v : Json)

/-- What comes out of a question. -/
inductive Verdict where
  | prepared (r : Except AdapterFault Unit)
  | validated (r : Except AdapterFault Bool)
  | diagnosed (r : Option String)

/-- Asks a document under some settings. -/
def ask (config : SchemaConfig) : Question → Attempt CachedSchema Empty Verdict
  | .prepare => Verdict.prepared <$> (CachedSchema.prepare config).attempt
  | .validate v => Verdict.validated <$> (CachedSchema.validate config v).attempt
  | .diagnose v => Verdict.diagnosed <$> CachedSchema.diagnose config v

/-- The fault of a document that does not compile. -/
def malformed (f : Schema.CompileFault) : AdapterFault :=
  ⟨documentAdapterName, .malformedSchema f.message⟩

/-- The answer of the document compiled on the spot. -/
def fresh (document : Json) (config : SchemaConfig) (q : Question) : Verdict :=
  match Schema.compile config document, q with
  | .ok _, .prepare => .prepared (.ok ())
  | .ok c, .validate v => .validated (.ok (c.accepts v))
  | .ok c, .diagnose v => .diagnosed (c.explain v)
  | .error f, .prepare => .prepared (.error (malformed f))
  | .error f, .validate _ => .validated (.error (malformed f))
  | .error _, .diagnose _ => .diagnosed none

/-- A document under the name of the type that its values are read as. -/
structure Copy where
  tag : String
  schema : CachedSchema

/-- All copies of a document, in the order in which they were taken. -/
abbrev Family := List Copy

/-- What is done with the copy at a place. -/
inductive Operation where
  | use (i : Nat) (config : SchemaConfig) (q : Question)
  | clone (i : Nat)
  | retag (i : Nat) (tag : String)

/-- One operation of a run: the family around it, the answer if there is one, and what was logged. -/
structure Entry where
  operation : Operation
  before : Family
  verdict : Option Verdict
  events : List LogEvent
  after : Family

/-- The answer of an operation, what it logs and the family it leaves. At a place without a copy
nothing happens. -/
def effect (family : Family) : Operation → Option Verdict × List LogEvent × Family
  | .use i config q =>
    match family[i]? with
    | some c =>
      let o := (ask config q).run c.schema
      (o.result.toOption, o.events, family.set i { c with schema := o.state })
    | none => (none, [], family)
  | .clone i => (none, [], family ++ family[i]?.toList)
  | .retag i tag => (none, [], family ++ (family[i]?.map ({ · with tag })).toList)

def perform (family : Family) (op : Operation) : Entry :=
  ⟨op, family, (effect family op).1, (effect family op).2.1, (effect family op).2.2⟩

/-- The operations one after another. -/
def run : List Operation → Family → List Entry
  | [], _ => []
  | op :: rest, family => perform family op :: run rest (perform family op).after

def familyAfter : List Operation → Family → Family
  | [], family => family
  | op :: rest, family => familyAfter rest (perform family op).after

/-- The family of a document that was not copied or used yet. -/
def start (tag : String) (document : Json) : Family := [⟨tag, .ofDocument document⟩]

/-! ## The invariant of one copy -/

/-- Nothing is remembered, or the outcome of compiling the document under some settings. -/
structure Faithful (document : Json) (s : CachedSchema) : Prop where
  document_eq : s.document = document
  result_eq : ∀ c, s.cell = some c → c.result = compileDocument c.config document

/-- What a use under some settings logs: one event if other settings are remembered. -/
def logged (s : CachedSchema) (config : SchemaConfig) : List LogEvent :=
  match s.cell with
  | some c => if c.config = config then [] else [CachedSchema.outsideEvent config]
  | none => []

/-- The document after a use under some settings: if nothing was remembered, then these. -/
def used (s : CachedSchema) (config : SchemaConfig) : CachedSchema :=
  { s with cell := some (s.cell.getD ⟨config, compileDocument config s.document⟩) }

theorem faithful_ofDocument (document : Json) : Faithful document (.ofDocument document) :=
  ⟨rfl, fun c h => by cases h⟩

theorem filled_eq (s : CachedSchema) (config : SchemaConfig) :
    s.filled config = s.cell.getD ⟨config, compileDocument config s.document⟩ := by
  unfold CachedSchema.filled
  cases s.cell <;> rfl

theorem filled_result {document : Json} {s : CachedSchema} (h : Faithful document s)
    (config : SchemaConfig) :
    (s.filled config).result = compileDocument (s.filled config).config document := by
  unfold CachedSchema.filled
  split
  · rename_i c hc
    exact h.result_eq c hc
  · rw [h.document_eq]

theorem faithful_used {document : Json} {s : CachedSchema} (h : Faithful document s)
    (config : SchemaConfig) : Faithful document (used s config) := by
  refine ⟨h.document_eq, ?_⟩
  intro c hc
  simp only [used, ← filled_eq, Option.some.injEq] at hc
  subst hc
  exact filled_result h config

theorem used_cell_of_some {s : CachedSchema} {k : Compiled} (h : s.cell = some k)
    (config : SchemaConfig) : (used s config).cell = some k := by
  simp [used, h]

theorem logged_eq (s : CachedSchema) (config : SchemaConfig) :
    logged s config =
      if (s.filled config).config = config then [] else [CachedSchema.outsideEvent config] := by
  unfold logged CachedSchema.filled
  cases s.cell <;> simp

/-! ## One question -/

theorem run_validator {document : Json} {s : CachedSchema} (h : Faithful document s)
    (config : SchemaConfig) :
    (CachedSchema.validator config).run s =
      ⟨compileDocument config document, used s config, logged s config⟩ := by
  have hd := h.document_eq
  have hr := filled_result h config
  show CachedSchema.validator config s = _
  unfold CachedSchema.validator used
  rw [logged_eq, ← filled_eq]
  dsimp only
  split
  · rename_i hc
    rw [hr, hc]
  · rw [hd]

/-- A question is answered as by a fresh compile, whatever is remembered. -/
theorem run_ask {document : Json} {s : CachedSchema} (h : Faithful document s)
    (config : SchemaConfig) (q : Question) :
    (ask config q).run s = ⟨.ok (fresh document config q), used s config, logged s config⟩ := by
  have hv := run_validator h config
  unfold fresh
  cases q with
  | prepare =>
    simp only [ask, CachedSchema.prepare, bind_pure_comp, Attempt.run_map, Attempt.run_attempt, hv,
      compileDocument]
    cases Schema.compile config document <;> rfl
  | validate v =>
    simp only [ask, CachedSchema.validate, bind_pure_comp, Attempt.run_map, Attempt.run_attempt, hv,
      compileDocument]
    cases Schema.compile config document <;> rfl
  | diagnose v =>
    have ha : ((CachedSchema.validator config).attempt : Attempt CachedSchema Empty _).run s =
        ⟨.ok (compileDocument config document), used s config, logged s config⟩ := by
      rw [Attempt.run_attempt, hv]
    unfold compileDocument at ha
    simp only [ask, CachedSchema.diagnose, Attempt.run_map, Attempt.run_bind_ok _ ha]
    cases Schema.compile config document <;> exact congrArg (Outcome.mk _ _) (List.append_nil _)

/-! ## One operation -/

def AllFaithful (document : Json) (family : Family) : Prop :=
  ∀ c ∈ family, Faithful document c.schema

theorem allFaithful_start (tag : String) (document : Json) :
    AllFaithful document (start tag document) := by
  intro c hc
  simp only [start, List.mem_singleton] at hc
  subst hc
  exact faithful_ofDocument document

theorem effect_use {document : Json} {family : Family} (h : AllFaithful document family)
    {i : Nat} {c : Copy} (hc : family[i]? = some c) (config : SchemaConfig) (q : Question) :
    effect family (.use i config q) =
      (some (fresh document config q), logged c.schema config,
        family.set i { c with schema := used c.schema config }) := by
  unfold effect
  simp only [hc, run_ask (h c (List.mem_of_getElem? hc)) config q]
  rfl

theorem effect_use_none {family : Family} {i : Nat} (hc : family[i]? = none)
    (config : SchemaConfig) (q : Question) :
    effect family (.use i config q) = (none, [], family) := by
  simp only [effect, hc]

/-- What one operation does to a family. -/
structure Transparent (document : Json) (e : Entry) : Prop where
  /-- An answer is that of a fresh compile under the settings of this very use. -/
  verdict_eq : ∀ i config q, e.operation = .use i config q → ∀ c, e.before[i]? = some c →
    e.verdict = some (fresh document config q)
  /-- An event is logged exactly by a use under other settings than those remembered. -/
  events_eq : ∀ i config q, e.operation = .use i config q → ∀ c, e.before[i]? = some c →
    e.events = logged c.schema config
  /-- Only uses answer and log. -/
  silent : (∀ i config q, e.operation ≠ .use i config q) → e.verdict = none ∧ e.events = []
  /-- The copy that is used remembers the first settings it was used under. -/
  used_eq : ∀ i config q, e.operation = .use i config q → ∀ c, e.before[i]? = some c →
    e.after[i]? = some { c with schema := used c.schema config }
  /-- Every copy that is not used stays as it was. -/
  others_eq : ∀ i c, (∀ config q, e.operation ≠ .use i config q) → e.before[i]? = some c →
    e.after[i]? = some c
  /-- A copy starts with what the original remembers. -/
  clone_eq : ∀ i, e.operation = .clone i → e.after = e.before ++ e.before[i]?.toList
  retag_eq : ∀ i tag, e.operation = .retag i tag →
    e.after = e.before ++ (e.before[i]?.map ({ · with tag })).toList
  faithful : AllFaithful document e.before ∧ AllFaithful document e.after

theorem allFaithful_effect {document : Json} {family : Family} (h : AllFaithful document family)
    (op : Operation) : AllFaithful document (effect family op).2.2 := by
  intro d hd
  cases op with
  | use i config q =>
    rcases hc : family[i]? with _ | c
    · rw [effect_use_none hc] at hd
      exact h d hd
    · rw [effect_use h hc] at hd
      rcases List.mem_or_eq_of_mem_set hd with hd | rfl
      · exact h d hd
      · exact faithful_used (h c (List.mem_of_getElem? hc)) config
  | clone i =>
    rcases List.mem_append.mp hd with hd | hd
    · exact h d hd
    · exact h d (List.mem_of_getElem? (Option.mem_toList.mp hd))
  | retag i tag =>
    rcases List.mem_append.mp hd with hd | hd
    · exact h d hd
    · obtain ⟨c, hc, rfl⟩ := Option.map_eq_some_iff.mp (Option.mem_toList.mp hd)
      exact h c (List.mem_of_getElem? hc)

theorem getElem?_append_of_some {family more : Family} {i : Nat} {c : Copy}
    (h : family[i]? = some c) : (family ++ more)[i]? = some c := by
  rw [List.getElem?_append_left (List.getElem?_eq_some_iff.mp h).1, h]

theorem others_effect {document : Json} {family : Family} (h : AllFaithful document family)
    (op : Operation) {i : Nat} {c : Copy} (hi : ∀ config q, op ≠ .use i config q)
    (hc : family[i]? = some c) : (effect family op).2.2[i]? = some c := by
  cases op with
  | use j config q =>
    rcases hj : family[j]? with _ | d
    · rw [effect_use_none hj]
      exact hc
    · rw [effect_use h hj]
      have hji : j ≠ i := fun hji => hi config q (by rw [hji])
      simp only [List.getElem?_set_ne hji]
      exact hc
  | clone j => exact getElem?_append_of_some hc
  | retag j tag => exact getElem?_append_of_some hc

theorem transparent_perform {document : Json} {family : Family} (h : AllFaithful document family)
    (op : Operation) : Transparent document (perform family op) where
  verdict_eq := by
    intro i config q (hop : op = _) c hc
    subst hop
    simp only [perform, effect_use h hc]
  events_eq := by
    intro i config q (hop : op = _) c hc
    subst hop
    simp only [perform, effect_use h hc]
  silent := by
    intro hop
    cases op with
    | use i config q => exact absurd rfl (hop i config q)
    | clone i => exact ⟨rfl, rfl⟩
    | retag i tag => exact ⟨rfl, rfl⟩
  used_eq := by
    intro i config q (hop : op = _) c hc
    subst hop
    simp only [perform, effect_use h hc]
    exact List.getElem?_set_self (List.getElem?_eq_some_iff.mp hc).1
  others_eq := fun i c hop hc => others_effect h op hop hc
  clone_eq := by
    intro i (hop : op = _)
    subst hop
    rfl
  retag_eq := by
    intro i tag (hop : op = _)
    subst hop
    rfl
  faithful := ⟨h, allFaithful_effect h op⟩

/-- What a copy remembers it remembers after every further operation. -/
theorem cell_effect {document : Json} {family : Family} (h : AllFaithful document family)
    (op : Operation) {i : Nat} {c : Copy} {k : Compiled} (hc : family[i]? = some c)
    (hk : c.schema.cell = some k) :
    ∃ d, (effect family op).2.2[i]? = some d ∧ d.schema.cell = some k := by
  -- Only a use of this very copy could change what it remembers, and it never does.
  by_cases hop : ∃ config q, op = .use i config q
  · obtain ⟨config, q, rfl⟩ := hop
    rw [effect_use h hc]
    exact ⟨_, List.getElem?_set_self (List.getElem?_eq_some_iff.mp hc).1,
      used_cell_of_some hk config⟩
  · exact ⟨c, others_effect h op (fun config q hq => hop ⟨config, q, hq⟩) hc, hk⟩

/-! ## Runs -/

theorem transparent_of_mem_run {document : Json} (ops : List Operation) {family : Family}
    (h : AllFaithful document family) : ∀ e ∈ run ops family, Transparent document e := by
  induction ops generalizing family with
  | nil => simp [run]
  | cons op rest ih =>
    intro e he
    rcases List.mem_cons.mp he with rfl | he
    · exact transparent_perform h op
    · exact ih (allFaithful_effect h op) e he

theorem map_operation_run (ops : List Operation) (family : Family) :
    (run ops family).map Entry.operation = ops := by
  induction ops generalizing family with
  | nil => rfl
  | cons op rest ih =>
    rw [run, List.map_cons, ih]
    rfl

theorem allFaithful_familyAfter {document : Json} (ops : List Operation) {family : Family}
    (h : AllFaithful document family) : AllFaithful document (familyAfter ops family) := by
  induction ops generalizing family with
  | nil => exact h
  | cons op rest ih => exact ih (allFaithful_effect h op)

theorem cell_familyAfter {document : Json} (ops : List Operation) {family : Family}
    (h : AllFaithful document family) {i : Nat} {c : Copy} {k : Compiled}
    (hc : family[i]? = some c) (hk : c.schema.cell = some k) :
    ∃ d, (familyAfter ops family)[i]? = some d ∧ d.schema.cell = some k := by
  induction ops generalizing family c with
  | nil => exact ⟨c, hc, hk⟩
  | cons op rest ih =>
    obtain ⟨d, hd, hdk⟩ := cell_effect h op hc hk
    exact ih (allFaithful_effect h op) hd hdk

theorem familyAfter_append (ops more : List Operation) (family : Family) :
    familyAfter (ops ++ more) family = familyAfter more (familyAfter ops family) := by
  induction ops generalizing family with
  | nil => rfl
  | cons op rest ih => exact ih _

/-- Whatever is done with a document and its copies, every answer is that of a fresh compile,
and what a copy remembers after some operations, which is what the document compiles to under
the settings that are remembered with it, the copy remembers after all further ones. -/
theorem what_is_remembered_never_shows (tag : String) (document : Json)
    (ops more : List Operation) :
    (run ops (start tag document)).map Entry.operation = ops ∧
    (∀ e ∈ run ops (start tag document), Transparent document e) ∧
    ∀ (i : Nat) (c : Copy) (k : Compiled), (familyAfter ops (start tag document))[i]? = some c →
      c.schema.cell = some k →
      k.result = compileDocument k.config document ∧
      ∃ d : Copy, (familyAfter (ops ++ more) (start tag document))[i]? = some d ∧
        d.schema.cell = some k := by
  have h := allFaithful_start tag document
  refine ⟨map_operation_run ops _, transparent_of_mem_run ops h, ?_⟩
  intro i c k hc hk
  have hops := allFaithful_familyAfter ops h
  refine ⟨(hops c (List.mem_of_getElem? hc)).result_eq k hk, ?_⟩
  rw [familyAfter_append]
  exact cell_familyAfter more hops hc hk

end GuardedCall.SchemaCache
