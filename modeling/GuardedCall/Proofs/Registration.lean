-- The laws of registries. Whatever is registered, as a text or as a document,
-- and however often it fails: a name keeps the first document that it got, every
-- document was compiled under the settings of the registry, so it is never
-- malformed, and a call that fails leaves no trace.
import GuardedCall.Proofs.SchemaCache
import GuardedCall.Registry.Directory

namespace GuardedCall

namespace Registration

open GuardedCall.Typed

variable {τ : Type}

/-! ## Calls and runs -/

/-- One call that registers a document under a name. -/
inductive Call where
  | written (name : String) (text : List Char)
  | given (name : String) (document : Json)

namespace Call

def name : Call → String
  | .written name _ => name
  | .given name _ => name

/-- The document of a call, if its text is JSON. -/
def document? : Call → Option Json
  | .written _ text => (Json.read text).toOption
  | .given _ document => some document

def perform : Call → Attempt Registry SchemaFault Unit
  | .written name text => Registry.register name text
  | .given name document => Registry.registerValue name document

end Call

/-- One call of a run with its answer and the registries around it. -/
structure Entry where
  call : Call
  before : Registry
  answer : Except SchemaFault Unit
  after : Registry

def entry (call : Call) (r : Registry) : Entry :=
  ⟨call, r, (call.perform.ends r).1, (call.perform.ends r).2⟩

/-- The calls one after another, each on the registry that the one before it left. -/
def run : List Call → Registry → List Entry
  | [], _ => []
  | call :: rest, r => entry call r :: run rest (entry call r).after

def registryAfter : List Call → Registry → Registry
  | [], r => r
  | call :: rest, r => registryAfter rest (entry call r).after

/-- The call succeeded with this name. -/
def Entry.registers (e : Entry) (name : String) : Bool := e.answer.toBool && e.call.name == name

/-- The document of the first call that succeeded with a name. -/
def firstDocument? (entries : List Entry) (name : String) : Option Json :=
  (entries.find? (·.registers name)).bind (·.call.document?)

/-! ## What may be registered -/

/-- One to 128 bytes, each of them an ASCII letter, a digit, a hyphen or an underscore. -/
structure WellFormed (name : String) : Prop where
  long : 1 ≤ name.utf8ByteSize
  short : name.utf8ByteSize ≤ 128
  plain : ∀ c ∈ name.toList, ('A' ≤ c ∧ c ≤ 'Z') ∨ ('a' ≤ c ∧ c ≤ 'z') ∨ ('0' ≤ c ∧ c ≤ '9') ∨
    c = '-' ∨ c = '_'

/-- Why a call is refused. Each fault stands behind the steps that went well before it. -/
inductive Refuses (r : Registry) : Call → SchemaFault → Prop
  /-- The text is no JSON. -/
  | unreadable {name : String} {text : List Char} {f : Json.ReadFault}
    (h : Json.read text = .error f) : Refuses r (.written name text) (.invalidJson (f.message text))
  /-- The name is none that a document may have. -/
  | misnamed {call : Call} {document : Json} (hd : call.document? = some document)
    (h : ¬ WellFormed call.name) : Refuses r call (.invalidName call.name)
  /-- The name is taken. -/
  | taken {call : Call} {document : Json} {s : CachedSchema} (hd : call.document? = some document)
    (hname : WellFormed call.name) (h : r.get? call.name = some s) :
    Refuses r call (.duplicateSchema call.name)
  /-- The document does not compile under the settings of the registry. -/
  | malformed {call : Call} {document : Json} {f : AdapterFault}
    (hd : call.document? = some document) (hname : WellFormed call.name)
    (hfree : r.get? call.name = none) (h : compileDocument r.config.schema document = .error f) :
    Refuses r call (.compileFailed call.name f.message)

/-- The call is as it has to be to succeed. -/
structure Admits (r : Registry) (call : Call) (document : Json) (c : Schema.Validator) : Prop where
  reads : call.document? = some document
  name : WellFormed call.name
  free : r.get? call.name = none
  compiles : compileDocument r.config.schema document = .ok c

theorem isNameChar_iff (c : Char) :
    Registry.isNameChar c = true ↔ ('A' ≤ c ∧ c ≤ 'Z') ∨ ('a' ≤ c ∧ c ≤ 'z') ∨ ('0' ≤ c ∧ c ≤ '9') ∨
      c = '-' ∨ c = '_' := by
  have hname : Registry.isNameChar c = (decide ('A' ≤ c ∧ c ≤ 'Z') ||
      decide ('a' ≤ c) && decide (c ≤ 'z') || decide ('0' ≤ c) && decide (c ≤ '9') ||
      c == '-' || c == '_') := rfl
  simp only [hname, Bool.or_eq_true, Bool.and_eq_true, decide_eq_true_eq, beq_iff_eq, or_assoc]

theorem isValidName_iff (name : String) : Registry.isValidName name = true ↔ WellFormed name := by
  have hempty : name ≠ "" ↔ 1 ≤ name.utf8ByteSize := by
    rw [Nat.one_le_iff_ne_zero, Ne, Ne, String.utf8ByteSize_eq_zero_iff]
  unfold Registry.isValidName Registry.maxNameLength
  simp only [Bool.and_eq_true, decide_eq_true_eq, List.all_eq_true, isNameChar_iff, hempty]
  exact ⟨fun ⟨⟨hlong, hshort⟩, hplain⟩ => ⟨hlong, hshort, hplain⟩,
    fun ⟨hlong, hshort, hplain⟩ => ⟨⟨hlong, hshort⟩, hplain⟩⟩

/-! ## One call -/

/-- The registry with a document that was compiled. -/
def adding (r : Registry) (name : String) (document : Json) (c : Schema.Validator) : Registry :=
  { r with schemas := r.schemas.insert name ⟨document, some ⟨r.config.schema, .ok c⟩⟩ }

theorem ends_registerValue (r : Registry) (name : String) (document : Json) :
    (Registry.registerValue name document).ends r =
      match r.withDocument name document with
      | .ok after => (.ok (), after)
      | .error f => (.error f, r) := by
  unfold Registry.registerValue
  rw [Attempt.ends_bind, Attempt.ends_change]
  cases r.withDocument name document <;> rfl

/-- A call goes on with its document, if it has one. -/
theorem ends_perform {call : Call} {document : Json} (hd : call.document? = some document)
    (r : Registry) :
    call.perform.ends r = (Registry.registerValue call.name document).ends r := by
  cases call with
  | given name d =>
    obtain rfl := Option.some.inj hd
    rfl
  | written name text =>
    rw [Call.document?] at hd
    rw [Call.perform, Registry.register, Attempt.ends_bind, Attempt.ends_ofExcept]
    rcases h : Json.read text with f | d
    · rw [h] at hd
      cases hd
    · rw [h] at hd
      obtain rfl := Option.some.inj hd
      rfl

/-- A document that was not used yet is compiled and remembers what came out. -/
theorem run_prepare (config : SchemaConfig) (document : Json) :
    (CachedSchema.prepare config).run (.ofDocument document) =
      ⟨(compileDocument config document).map fun _ => (),
        ⟨document, some ⟨config, compileDocument config document⟩⟩, []⟩ := by
  have h := SchemaCache.run_validator (SchemaCache.faithful_ofDocument document) config
  unfold CachedSchema.prepare
  rw [bind_pure_comp, Attempt.run_map, h]
  rfl

theorem withDocument_eq {r : Registry} {name : String} (hname : WellFormed name)
    (hfree : r.get? name = none) (document : Json) :
    r.withDocument name document =
      match compileDocument r.config.schema document with
      | .ok c => .ok (adding r name document c)
      | .error f => .error (.compileFailed name f.message) := by
  have hhas : r.schemas.has name = false := by
    rw [Table.has, show r.schemas.find? name = none from hfree]
    rfl
  unfold Registry.withDocument
  rw [(isValidName_iff name).mpr hname, hhas, run_prepare]
  rcases compileDocument r.config.schema document with f | c <;> rfl

/-- A refused call ends with its fault and leaves the registry alone. -/
theorem ends_of_refuses {r : Registry} {call : Call} {f : SchemaFault} (h : Refuses r call f) :
    call.perform.ends r = (.error f, r) := by
  cases h with
  | @unreadable name text f h =>
    rw [Call.perform, Registry.register, Attempt.ends_bind, Attempt.ends_ofExcept, h]
    rfl
  | misnamed hd h =>
    have hname : Registry.isValidName call.name = false := by
      rwa [← Bool.not_eq_true, isValidName_iff]
    rw [ends_perform hd, ends_registerValue, Registry.withDocument, hname]
    rfl
  | taken hd hname h =>
    have hhas : r.schemas.has call.name = true := by
      rw [Table.has, show r.schemas.find? call.name = some _ from h]
      rfl
    rw [ends_perform hd, ends_registerValue, Registry.withDocument,
      (isValidName_iff _).mpr hname, hhas]
    rfl
  | malformed hd hname hfree h =>
    rw [ends_perform hd, ends_registerValue, withDocument_eq hname hfree, h]

/-- An admitted call succeeds and adds its document. -/
theorem ends_of_admits {r : Registry} {call : Call} {document : Json} {c : Schema.Validator}
    (h : Admits r call document c) :
    call.perform.ends r = (.ok (), adding r call.name document c) := by
  rw [ends_perform h.reads, ends_registerValue, withDocument_eq h.name h.free, h.compiles]

theorem refuses_or_admits (r : Registry) (call : Call) :
    (∃ f, Refuses r call f) ∨ ∃ document c, Admits r call document c := by
  rcases hd : call.document? with _ | document
  · cases call with
    | given name d => cases hd
    | written name text =>
      rcases h : Json.read text with f | d
      · exact .inl ⟨_, .unreadable h⟩
      · rw [Call.document?, h] at hd
        cases hd
  · by_cases hname : WellFormed call.name
    · rcases hfree : r.get? call.name with _ | s
      · rcases hc : compileDocument r.config.schema document with f | c
        · exact .inl ⟨_, .malformed hd hname hfree hc⟩
        · exact .inr ⟨document, c, hd, hname, hfree, hc⟩
      · exact .inl ⟨_, .taken hd hname hfree⟩
    · exact .inl ⟨_, .misnamed hd hname⟩

/-! ## What one call promises -/

theorem get?_adding_self (r : Registry) (name : String) (document : Json) (c : Schema.Validator) :
    (adding r name document c).get? name = some ⟨document, some ⟨r.config.schema, .ok c⟩⟩ :=
  Table.find?_insert_self _ _ _

theorem get?_adding_of_ne (r : Registry) {name other : String} (document : Json)
    (c : Schema.Validator) (h : other ≠ name) :
    (adding r name document c).get? other = r.get? other :=
  Table.find?_insert_of_ne _ _ h

/-- What is promised of one call. -/
structure Lawful (e : Entry) : Prop where
  fails : ∀ f, e.answer = .error f ↔ Refuses e.before e.call f
  succeeds : e.answer = .ok () ↔ ∃ document c, Admits e.before e.call document c
  /-- A call that fails leaves the registry as it was. -/
  kept : ∀ f, e.answer = .error f → e.after = e.before
  /-- A call that succeeds adds its document, compiled, and changes nothing else. -/
  added : ∀ document c, Admits e.before e.call document c →
    e.after.config = e.before.config ∧
    e.after.get? e.call.name = some ⟨document, some ⟨e.before.config.schema, .ok c⟩⟩ ∧
    ∀ other, other ≠ e.call.name → e.after.get? other = e.before.get? other

theorem entry_of_refuses {r : Registry} {call : Call} {f : SchemaFault} (h : Refuses r call f) :
    entry call r = ⟨call, r, .error f, r⟩ := by
  rw [entry, ends_of_refuses h]

theorem entry_of_admits {r : Registry} {call : Call} {document : Json} {c : Schema.Validator}
    (h : Admits r call document c) :
    entry call r = ⟨call, r, .ok (), adding r call.name document c⟩ := by
  rw [entry, ends_of_admits h]

theorem lawful_entry (call : Call) (r : Registry) : Lawful (entry call r) := by
  rcases refuses_or_admits r call with ⟨f, hf⟩ | ⟨document, c, hc⟩
  · have hnot : ∀ document c, ¬ Admits r call document c := by
      intro document c hc
      cases (ends_of_refuses hf).symm.trans (ends_of_admits hc)
    rw [entry_of_refuses hf]
    refine ⟨fun g => ⟨?_, ?_⟩, ⟨?_, ?_⟩, fun _ _ => rfl, fun d c hc => absurd hc (hnot d c)⟩
    · rintro ⟨⟩
      exact hf
    · intro hg
      exact congrArg Prod.fst ((ends_of_refuses hf).symm.trans (ends_of_refuses hg))
    · rintro ⟨⟩
    · rintro ⟨d, c, hc⟩
      exact absurd hc (hnot d c)
  · have hnot : ∀ f, ¬ Refuses r call f := by
      intro f hf
      cases (ends_of_refuses hf).symm.trans (ends_of_admits hc)
    rw [entry_of_admits hc]
    refine ⟨fun g => ⟨?_, fun hg => absurd hg (hnot g)⟩, ⟨fun _ => ⟨_, _, hc⟩, fun _ => rfl⟩, ?_, ?_⟩
    · rintro ⟨⟩
    · rintro _ ⟨⟩
    · intro d' c' hc'
      obtain rfl := Option.some.inj (hc.reads.symm.trans hc'.reads)
      obtain rfl := Except.ok.inj (hc.compiles.symm.trans hc'.compiles)
      exact ⟨rfl, get?_adding_self _ _ _ _, fun other h => get?_adding_of_ne _ _ _ h⟩

theorem answer_eq_ok_iff {call : Call} {r : Registry} :
    (entry call r).answer = .ok () ↔ ∃ document c, Admits r call document c :=
  (lawful_entry call r).succeeds

/-! ## The invariant of a registry -/

/-- Every name is well formed, and every document remembers that it compiles under the settings of
the registry. -/
structure Checked (r : Registry) : Prop where
  named : ∀ name s, r.get? name = some s → WellFormed name
  compiled : ∀ name s, r.get? name = some s →
    ∃ c, compileDocument r.config.schema s.document = .ok c ∧
      s.cell = some ⟨r.config.schema, .ok c⟩

theorem checked_empty (config : RegistryConfig) : Checked (.empty config) :=
  ⟨fun _ _ h => (by cases h), fun _ _ h => (by cases h)⟩

theorem checked_adding {r : Registry} (hr : Checked r) {call : Call} {document : Json}
    {c : Schema.Validator} (h : Admits r call document c) :
    Checked (adding r call.name document c) := by
  have hcases : ∀ name s, (adding r call.name document c).get? name = some s →
      (name = call.name ∧ s = ⟨document, some ⟨r.config.schema, .ok c⟩⟩) ∨
        r.get? name = some s := by
    intro name s hs
    by_cases hname : name = call.name
    · subst hname
      rw [get?_adding_self] at hs
      exact .inl ⟨rfl, (Option.some.inj hs).symm⟩
    · rw [get?_adding_of_ne _ _ _ hname] at hs
      exact .inr hs
  constructor
  · intro name s hs
    rcases hcases name s hs with ⟨rfl, -⟩ | hs
    · exact h.name
    · exact hr.named name s hs
  · intro name s hs
    rcases hcases name s hs with ⟨-, rfl⟩ | hs
    · exact ⟨c, h.compiles, rfl⟩
    · exact hr.compiled name s hs

theorem checked_entry {r : Registry} (hr : Checked r) (call : Call) :
    Checked (entry call r).after := by
  rcases refuses_or_admits r call with ⟨f, hf⟩ | ⟨document, c, hc⟩
  · rw [entry_of_refuses hf]
    exact hr
  · rw [entry_of_admits hc]
    exact checked_adding hr hc

theorem config_entry (call : Call) (r : Registry) : (entry call r).after.config = r.config := by
  rcases refuses_or_admits r call with ⟨f, hf⟩ | ⟨document, c, hc⟩
  · rw [entry_of_refuses hf]
  · rw [entry_of_admits hc]
    rfl

/-- What stands under a name stays there. -/
theorem get?_entry_of_some {r : Registry} {name : String} {s : CachedSchema}
    (h : r.get? name = some s) (call : Call) : (entry call r).after.get? name = some s := by
  rcases refuses_or_admits r call with ⟨f, hf⟩ | ⟨document, c, hc⟩
  · rw [entry_of_refuses hf]
    exact h
  · have hne : name ≠ call.name := by
      rintro rfl
      cases hc.free.symm.trans h
    rw [entry_of_admits hc]
    exact (get?_adding_of_ne r document c hne).trans h

/-! ## Runs -/

theorem map_call_run (calls : List Call) (r : Registry) :
    (run calls r).map Entry.call = calls := by
  induction calls generalizing r with
  | nil => rfl
  | cons call rest ih =>
    rw [run, List.map_cons, ih]
    rfl

theorem lawful_of_mem_run (calls : List Call) (r : Registry) : ∀ e ∈ run calls r, Lawful e := by
  induction calls generalizing r with
  | nil => simp [run]
  | cons call rest ih =>
    intro e he
    rcases List.mem_cons.mp he with rfl | he
    · exact lawful_entry call r
    · exact ih _ e he

theorem checked_registryAfter (calls : List Call) {r : Registry} (hr : Checked r) :
    Checked (registryAfter calls r) := by
  induction calls generalizing r with
  | nil => exact hr
  | cons call rest ih => exact ih (checked_entry hr call)

theorem config_registryAfter (calls : List Call) (r : Registry) :
    (registryAfter calls r).config = r.config := by
  induction calls generalizing r with
  | nil => rfl
  | cons call rest ih => exact (ih _).trans (config_entry call r)

theorem get?_registryAfter_of_some (calls : List Call) {r : Registry} {name : String}
    {s : CachedSchema} (h : r.get? name = some s) : (registryAfter calls r).get? name = some s := by
  induction calls generalizing r with
  | nil => exact h
  | cons call rest ih => exact ih (get?_entry_of_some h call)

theorem registryAfter_append (calls more : List Call) (r : Registry) :
    registryAfter (calls ++ more) r = registryAfter more (registryAfter calls r) := by
  induction calls generalizing r with
  | nil => rfl
  | cons call rest ih => exact ih _

/-- A name has the document that it had, or else that of the first call that succeeded with it. -/
theorem document_registryAfter (calls : List Call) (r : Registry) (name : String) :
    ((registryAfter calls r).get? name).map (·.document) =
      ((r.get? name).map (·.document)).or (firstDocument? (run calls r) name) := by
  induction calls generalizing r with
  | nil => simp [registryAfter, run, firstDocument?]
  | cons call rest ih =>
    rw [registryAfter, ih, run, firstDocument?, firstDocument?, List.find?_cons]
    rcases refuses_or_admits r call with ⟨f, hf⟩ | ⟨document, c, hc⟩
    · rw [entry_of_refuses hf]
      rfl
    · rw [entry_of_admits hc]
      by_cases hname : call.name = name
      · subst hname
        simp [get?_adding_self, hc.free, hc.reads, Entry.registers, Except.toBool]
      · have hbeq : (call.name == name) = false := beq_eq_false_iff_ne.mpr hname
        simp only [get?_adding_of_ne r document c (Ne.symm hname), Entry.registers, hbeq,
          Bool.and_false]

/-! ## Documents that are ready -/

/-- Every value is accepted or rejected under the settings of the registry, whatever type it is read
as, and nothing is compiled for it: nothing is logged and nothing changes. -/
structure Ready (r : Registry) (s : CachedSchema) : Prop where
  validate : ∀ v, ∃ b, (CachedSchema.validate r.config.schema v).run s = ⟨.ok b, s, []⟩ ∧
    ∀ {α : Type} (codec : Codec α), r.adapter.validate ⟨s.document, codec⟩ v = .ok b
  inspect : ∀ {α : Type} (codec : Codec α) (v : Json), ∃ i b,
    (CachedSchema.inspect r.config.schema codec v : Attempt CachedSchema Empty _).run s =
      ⟨.ok i, s, []⟩ ∧ i.accepted = .ok b

theorem run_validator_of_cell {config : SchemaConfig} {s : CachedSchema} {c : Schema.Validator}
    (hcell : s.cell = some ⟨config, .ok c⟩) :
    (CachedSchema.validator config).run s = ⟨.ok c, s, []⟩ := by
  obtain ⟨document, cell⟩ := s
  obtain rfl : cell = _ := hcell
  show CachedSchema.validator config _ = _
  simp [CachedSchema.validator, CachedSchema.filled]

theorem run_validate_of_cell {config : SchemaConfig} {s : CachedSchema} {c : Schema.Validator}
    (hcell : s.cell = some ⟨config, .ok c⟩) (v : Json) :
    (CachedSchema.validate config v).run s = ⟨.ok (c.accepts v), s, []⟩ := by
  unfold CachedSchema.validate
  rw [bind_pure_comp, Attempt.run_map, run_validator_of_cell hcell]
  rfl

theorem ready_of_checked {r : Registry} (hr : Checked r) {name : String} {s : CachedSchema}
    (hs : r.get? name = some s) : Ready r s := by
  obtain ⟨c, hc, hcell⟩ := hr.compiled name s hs
  constructor
  · intro v
    refine ⟨c.accepts v, run_validate_of_cell hcell v, fun codec => ?_⟩
    show (compileDocument r.config.schema s.document).map _ = _
    rw [hc]
    rfl
  · intro α codec v
    have haccepted : ((CachedSchema.validate r.config.schema v).attempt : Attempt _ Empty _).run s =
        ⟨.ok (.ok (c.accepts v)), s, []⟩ := by
      rw [Attempt.run_attempt, run_validate_of_cell hcell]
    have hreason : (CachedSchema.diagnose r.config.schema v : Attempt _ Empty _).run s =
        ⟨.ok (c.explain v), s, []⟩ := by
      have hattempt : ((CachedSchema.validator r.config.schema).attempt : Attempt _ Empty _).run s =
          ⟨.ok (.ok c), s, []⟩ := by
        rw [Attempt.run_attempt, run_validator_of_cell hcell]
      rw [CachedSchema.diagnose, Attempt.run_bind_ok _ hattempt]
      rfl
    unfold CachedSchema.inspect
    rw [Attempt.run_bind_ok _ haccepted, Attempt.run_bind_ok _ hreason]
    exact ⟨_, _, rfl, rfl⟩

/-! ## Registries of texts -/

/-- The call that registers a text. -/
def callOf (t : String × String) : Call := .written t.1 t.2.toList

/-- The call would succeed if its name were free. -/
structure Registrable (config : RegistryConfig) (call : Call) : Prop where
  name : WellFormed call.name
  compiles : ∃ document c, call.document? = some document ∧
    compileDocument config.schema document = .ok c

theorem admits_iff {r : Registry} {call : Call} :
    (∃ document c, Admits r call document c) ↔
      Registrable r.config call ∧ r.get? call.name = none := by
  constructor
  · rintro ⟨document, c, h⟩
    exact ⟨⟨h.name, document, c, h.reads, h.compiles⟩, h.free⟩
  · rintro ⟨⟨hname, document, c, hd, hc⟩, hfree⟩
    exact ⟨document, c, hd, hname, hfree, hc⟩

theorem get?_adding_eq_none_iff {r : Registry} {name other : String} {document : Json}
    {c : Schema.Validator} :
    (adding r name document c).get? other = none ↔ other ≠ name ∧ r.get? other = none := by
  by_cases h : other = name
  · subst h
    simp [get?_adding_self]
  · simp [get?_adding_of_ne r document c h, h]

/-- A run succeeds as a whole exactly if its names are free, distinct and well formed and its
documents compile. -/
theorem all_succeed_iff (calls : List Call) (r : Registry) :
    (∀ e ∈ run calls r, e.answer = .ok ()) ↔
      (∀ call ∈ calls, Registrable r.config call ∧ r.get? call.name = none) ∧
        (calls.map Call.name).Nodup := by
  induction calls generalizing r with
  | nil => simp [run]
  | cons call rest ih =>
    simp only [run, List.forall_mem_cons, List.map_cons, List.nodup_cons, List.mem_map]
    rw [answer_eq_ok_iff, ih, config_entry]
    constructor
    · rintro ⟨⟨document, c, hc⟩, hrest, hnodup⟩
      simp only [entry_of_admits hc, get?_adding_eq_none_iff] at hrest
      refine ⟨⟨admits_iff.mp ⟨document, c, hc⟩, ?_⟩, ?_, hnodup⟩
      · intro other hother
        exact ⟨(hrest other hother).1, (hrest other hother).2.2⟩
      · rintro ⟨other, hother, hname⟩
        exact (hrest other hother).2.1 hname
    · rintro ⟨⟨hcall, hrest⟩, hnew, hnodup⟩
      obtain ⟨document, c, hc⟩ := admits_iff.mpr hcall
      refine ⟨⟨document, c, hc⟩, ?_, hnodup⟩
      simp only [entry_of_admits hc, get?_adding_eq_none_iff]
      intro other hother
      exact ⟨(hrest other hother).1, fun hname => hnew ⟨other, hother, hname⟩,
        (hrest other hother).2⟩

/-- What a run that succeeds leaves is what was there and the documents of its calls. -/
theorem document_of_all_succeed (calls : List Call) {r : Registry}
    (h : ∀ e ∈ run calls r, e.answer = .ok ()) (name : String) (document : Json) :
    (∃ s, (registryAfter calls r).get? name = some s ∧ s.document = document) ↔
      (∃ s, r.get? name = some s ∧ s.document = document) ∨
        ∃ call ∈ calls, call.name = name ∧ call.document? = some document := by
  induction calls generalizing r with
  | nil => simp [registryAfter]
  | cons call rest ih =>
    simp only [run, List.forall_mem_cons] at h
    obtain ⟨d, c, hc⟩ := answer_eq_ok_iff.mp h.1
    rw [registryAfter, ih h.2, entry_of_admits hc]
    by_cases hname : name = call.name
    · subst hname
      simp [get?_adding_self, hc.free, hc.reads]
    · simp [get?_adding_of_ne r d c hname, Ne.symm hname]

/-- Registering a text in front of others: they are registered if it is. -/
theorem ends_registerAll_cons (t : String × String) (rest : List (String × String)) (r : Registry) :
    ((t :: rest).forM fun t => Registry.register t.1 t.2.toList).ends r =
      match (entry (callOf t) r).answer with
      | .ok () => (rest.forM fun t => Registry.register t.1 t.2.toList).ends (entry (callOf t) r).after
      | .error f => (.error f, (entry (callOf t) r).after) := by
  show ((callOf t).perform >>= fun _ => _).ends r = _
  rw [Attempt.ends_bind, entry]
  rcases (callOf t).perform.ends r with ⟨_ | _, s⟩ <;> rfl

theorem ends_registerAll (texts : List (String × String)) {r : Registry}
    (h : ∀ e ∈ run (texts.map callOf) r, e.answer = .ok ()) :
    (texts.forM fun t => Registry.register t.1 t.2.toList).ends r =
      (.ok (), registryAfter (texts.map callOf) r) := by
  induction texts generalizing r with
  | nil => rfl
  | cons t rest ih =>
    simp only [List.map_cons, run, List.forall_mem_cons] at h
    rw [ends_registerAll_cons, h.1, ih h.2]
    rfl

theorem succeeds_of_ends_registerAll (texts : List (String × String)) {r : Registry} {s : Registry}
    (h : (texts.forM fun t => Registry.register t.1 t.2.toList).ends r = (.ok (), s)) :
    ∀ e ∈ run (texts.map callOf) r, e.answer = .ok () := by
  induction texts generalizing r with
  | nil => simp [run]
  | cons t rest ih =>
    rw [ends_registerAll_cons] at h
    rw [List.map_cons, run, List.forall_mem_cons]
    split at h
    · rename_i hanswer
      exact ⟨hanswer, ih h⟩
    · cases h

/-- A registry of texts is what the run of its calls leaves, if they all succeed. -/
theorem ends_ofTexts_iff {texts : List (String × String)} {t : τ} {r : Registry} :
    ((Registry.ofTexts texts).ends t).1 = .ok r ↔
      (∀ e ∈ run (texts.map callOf) (.empty {}), e.answer = .ok ()) ∧
        r = registryAfter (texts.map callOf) (.empty {}) := by
  have hends : ((Registry.ofTexts texts).ends t).1 =
      match (texts.forM fun t => Registry.register t.1 t.2.toList).ends (.empty {}) with
      | (.ok _, r) => .ok r
      | (.error f, _) => .error f := by
    unfold Registry.ofTexts
    rw [Attempt.ends_bind, Attempt.ends_within]
    rcases (texts.forM fun t => Registry.register t.1 t.2.toList).ends (.empty {}) with ⟨_ | _, s⟩ <;>
      rfl
  rw [hends]
  constructor
  · intro h
    split at h
    · rename_i s hs
      obtain rfl := Except.ok.inj h
      have hall := succeeds_of_ends_registerAll texts hs
      rw [ends_registerAll texts hall] at hs
      exact ⟨hall, (congrArg Prod.snd hs).symm⟩
    · cases h
  · rintro ⟨hall, rfl⟩
    rw [ends_registerAll texts hall]

theorem all_texts_succeed_iff (texts : List (String × String)) :
    (∀ e ∈ run (texts.map callOf) (.empty {}), e.answer = .ok ()) ↔
      (∀ p ∈ texts, Registrable {} (callOf p)) ∧ (texts.map Prod.fst).Nodup := by
  have hnames : (texts.map callOf).map Call.name = texts.map Prod.fst := by
    rw [List.map_map]
    rfl
  have hfree : ∀ name, (Registry.empty {}).get? name = none := fun _ => rfl
  rw [all_succeed_iff, hnames]
  simp only [List.forall_mem_map, hfree, and_true]
  rfl

/-- What was written for a name. -/
theorem document?_callOf {name : String} {document : Json} {texts : List (String × String)} :
    (∃ call ∈ texts.map callOf, call.name = name ∧ call.document? = some document) ↔
      ∃ text, (name, text) ∈ texts ∧ Json.read text.toList = .ok document := by
  have hread : ∀ text : String, (callOf (name, text)).document? = some document ↔
      Json.read text.toList = .ok document := by
    intro text
    rw [callOf, Call.document?]
    cases Json.read text.toList <;> simp [Except.toOption]
  simp only [← hread]
  constructor
  · rintro ⟨call, hcall, rfl, hd⟩
    obtain ⟨p, hp, rfl⟩ := List.mem_map.mp hcall
    exact ⟨p.2, hp, hd⟩
  · rintro ⟨text, hmem, hd⟩
    exact ⟨_, List.mem_map_of_mem hmem, rfl, hd⟩

/-! ## Registries of every origin -/

/-- How a registry comes about: empty, out of texts or out of a directory, and by calls, be they
successful or not. -/
inductive Obtained : Registry → Prop
  | empty (config : RegistryConfig) : Obtained (.empty config)
  | ofTexts {texts : List (String × String)} {r : Registry}
      (h : ((Registry.ofTexts texts).ends ()).1 = .ok r) : Obtained r
  | ofDirectory {config : RegistryConfig} {d : Directory} {r : Registry}
      (h : ((Registry.ofDirectory config d).ends ()).1 = .ok r) : Obtained r
  | called {r : Registry} (h : Obtained r) (call : Call) : Obtained (call.perform.ends r).2

/-- What an attempt and every next one keep, both of them keep together. -/
theorem bind_keeps {σ ε α β : Type} {P : σ → Prop} {x : Attempt σ ε α} {f : α → Attempt σ ε β} {s : σ}
    (hx : P (x.ends s).2) (hf : ∀ a t, P t → P ((f a).ends t).2) : P ((x >>= f).ends s).2 := by
  rw [Attempt.ends_bind]
  generalize x.ends s = o at hx ⊢
  obtain ⟨_ | a, t⟩ := o
  · exact hx
  · exact hf a t hx

/-- However far the files of a directory are registered, the registry stays checked. -/
theorem checked_loadItems (path : String) (items : List (String × DirectoryItem)) (loaded : Nat)
    {r : Registry} (hr : Checked r) : Checked ((Directory.loadItems path loaded items).ends r).2 := by
  induction items generalizing loaded r with
  | nil => exact hr
  | cons head rest ih =>
    obtain ⟨file, item⟩ := head
    unfold Directory.loadItems
    rcases Directory.schemaName? file with _ | name
    · exact ih loaded hr
    · cases item with
      | other => exact ih loaded hr
      | symlink => exact hr
      | file bytes =>
        refine bind_keeps hr fun current t ht => ?_
        dsimp only
        split
        · exact ht
        · exact bind_keeps ht fun text t ht =>
            bind_keeps (checked_entry ht (.written name text)) fun _ t ht => ih (loaded + 1) ht

theorem checked_ofDirectory {config : RegistryConfig} {d : Directory} {r : Registry}
    (h : ((Registry.ofDirectory config d).ends ()).1 = .ok r) : Checked r := by
  simp only [Registry.ofDirectory, Attempt.ends_bind, Attempt.ends_ofExcept, Attempt.ends_within] at h
  rcases hitems : d.items with reason | items
  · simp [hitems] at h
  · have hloaded := checked_loadItems d.path items 0 (checked_empty config)
    simp only [hitems, Attempt.except_mapError_ok] at h
    generalize (Directory.loadItems d.path 0 items).ends (.empty config) = o at h hloaded
    obtain ⟨_ | u, after⟩ := o
    · cases h
    · obtain rfl := Except.ok.inj h
      exact hloaded

theorem Obtained.checked {r : Registry} (h : Obtained r) : Checked r := by
  induction h with
  | empty config => exact checked_empty config
  | ofTexts h =>
    obtain ⟨-, rfl⟩ := ends_ofTexts_iff.mp h
    exact checked_registryAfter _ (checked_empty _)
  | ofDirectory h => exact checked_ofDirectory h
  | called h call ih => exact checked_entry ih call

/-! ## Registries -/

/-- What a registry holds after some calls, made on an empty one. -/
structure Holds (config : RegistryConfig) (entries : List Entry) (r : Registry) : Prop where
  config_eq : r.config = config
  named : ∀ name ∈ r.names, WellFormed name
  /-- A name has the document of the first call that succeeded with it. -/
  documents : ∀ name, (r.get? name).map (·.document) = firstDocument? entries name
  ready : ∀ name s, r.get? name = some s → r.typed name = .ok s ∧ Ready r s
  absent : ∀ name, name ∉ r.names → r.get? name = none ∧ r.typed name = .error (.noSchema name)

theorem holds_registryAfter (config : RegistryConfig) (calls : List Call) :
    Holds config (run calls (.empty config)) (registryAfter calls (.empty config)) := by
  have hchecked := checked_registryAfter calls (checked_empty config)
  constructor
  case config_eq => exact config_registryAfter calls _
  case named =>
    intro name hname
    obtain ⟨s, hs⟩ := Table.mem_keys_iff.mp hname
    exact hchecked.named name s hs
  case documents =>
    intro name
    rw [document_registryAfter]
    rfl
  case ready =>
    intro name s hs
    refine ⟨?_, ready_of_checked hchecked hs⟩
    rw [Registry.typed, hs]
  case absent =>
    intro name hname
    have hnone : (registryAfter calls (.empty config)).get? name = none := by
      rw [Option.eq_none_iff_forall_ne_some]
      exact fun s hs => hname (Table.mem_keys_iff.mpr ⟨s, hs⟩)
    refine ⟨hnone, ?_⟩
    rw [Registry.typed, hnone]

/-- Whatever calls are made on an empty registry, each of them does what is promised of it, its
first fault decides, and one that fails leaves everything as it was. After the calls every name is
well formed and has the document of the first call that succeeded with it, compiled, and it keeps
this document after all further calls. A registry of texts comes about exactly if the names are
well formed and distinct and every text writes a document that compiles; it holds these documents
and no others. -/
theorem names_keep_their_first_documents (config : RegistryConfig) (calls more : List Call)
    (texts : List (String × String)) (t : τ) :
    (run calls (.empty config)).map Entry.call = calls ∧
    (∀ e ∈ run calls (.empty config), Lawful e) ∧
    Holds config (run calls (.empty config)) (registryAfter calls (.empty config)) ∧
    (∀ name s, (registryAfter calls (.empty config)).get? name = some s →
      (registryAfter (calls ++ more) (.empty config)).get? name = some s) ∧
    ((∃ r, ((Registry.ofTexts texts).ends t).1 = .ok r) ↔
      (∀ p ∈ texts, Registrable {} (callOf p)) ∧ (texts.map Prod.fst).Nodup) ∧
    ∀ r, ((Registry.ofTexts texts).ends t).1 = .ok r →
      r = registryAfter (texts.map callOf) (.empty {}) ∧
      ∀ name document, (∃ s, r.get? name = some s ∧ s.document = document) ↔
        ∃ text, (name, text) ∈ texts ∧ Json.read text.toList = .ok document := by
  refine ⟨map_call_run calls _, lawful_of_mem_run calls _, holds_registryAfter config calls,
    ?_, ?_, ?_⟩
  · intro name s hs
    rw [registryAfter_append]
    exact get?_registryAfter_of_some more hs
  · rw [← all_texts_succeed_iff]
    simp only [ends_ofTexts_iff, exists_and_left, exists_eq, and_true]
  · intro r hr
    obtain ⟨hall, rfl⟩ := ends_ofTexts_iff.mp hr
    refine ⟨rfl, fun name document => ?_⟩
    rw [document_of_all_succeed _ hall, document?_callOf]
    simp [Registry.get?, Registry.empty]

end Registration

end GuardedCall
