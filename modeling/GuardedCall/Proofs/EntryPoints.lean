-- The law of entry points. A method may be called with a typed argument or
-- with its JSON value, at once or to complete later, by itself or as a procedure
-- that was built in stages. Whatever the adapter, the schemas and the
-- implementation are, all these calls end alike and log alike.
import GuardedCall.Adapter.ByDocument
import GuardedCall.Adapter.ByType
import GuardedCall.Proofs.TypedCalls

namespace GuardedCall

open GuardedCall.Boundary

/-! ## Ways to build a procedure -/

/-- How a builder came about: from a first adapter, stage by stage. -/
inductive Stages : (Type → Type) → Type → Type → Type 1 where
  | start {S : Type → Type} (a : Adapter S) : Stages S Missing Missing
  | adapter {S T : Type → Type} {I O : Type} (before : Stages S I O) (a : Adapter T) :
    Stages T I O
  | input {S : Type → Type} {I O : Type} (before : Stages S Missing O) (schema : I) :
    Stages S I O
  | output {S : Type → Type} {I O : Type} (before : Stages S I Missing) (schema : O) :
    Stages S I O

namespace Stages

def builder : {S : Type → Type} → {I O : Type} → Stages S I O → ProcedureBuilder S I O
  | _, _, _, .start a => .start a
  | _, _, _, .adapter before a => before.builder.withAdapter a
  | _, _, _, .input before schema => before.builder.withInput schema
  | _, _, _, .output before schema => before.builder.withOutput schema

/-- The adapter that was given last. -/
def lastAdapter : {S : Type → Type} → {I O : Type} → Stages S I O → Adapter S
  | _, _, _, .start a => a
  | _, _, _, .adapter _ a => a
  | _, _, _, .input before _ => before.lastAdapter
  | _, _, _, .output before _ => before.lastAdapter

/-- What was given for the arguments, at whichever stage. -/
def givenInput : {S : Type → Type} → {I O : Type} → Stages S I O → I
  | _, _, _, .start _ => .missing
  | _, _, _, .adapter before _ => before.givenInput
  | _, _, _, .input _ schema => schema
  | _, _, _, .output before _ => before.givenInput

/-- What was given for the results, at whichever stage. -/
def givenOutput : {S : Type → Type} → {I O : Type} → Stages S I O → O
  | _, _, _, .start _ => .missing
  | _, _, _, .adapter before _ => before.givenOutput
  | _, _, _, .input before _ => before.givenOutput
  | _, _, _, .output _ schema => schema

/-- Neither the order of the stages nor what was replaced leaves a trace. -/
theorem builder_eq {S : Type → Type} {I O : Type} (b : Stages S I O) :
    b.builder = ⟨b.lastAdapter, b.givenInput, b.givenOutput⟩ := by
  induction b with
  | start a => rfl
  | adapter before a ih => rw [builder, ih]; rfl
  | input before schema ih => rw [builder, ih]; rfl
  | output before schema ih => rw [builder, ih]; rfl

end Stages

/-- How an implementation is given to a builder that has both schemas. -/
inductive Ending (σ α β : Type) where
  | query (f : α → σ → β × σ)
  | tryQuery (f : Implementation σ α β)
  | queryLater (f : LaterImplementation σ α β)
  | mutation (f : α → σ → β × σ)
  | tryMutation (f : Implementation σ α β)
  | mutationLater (f : LaterImplementation σ α β)

namespace Ending

variable {S : Type → Type} {σ α β : Type}

def kind : Ending σ α β → ProcedureKind
  | .query _ | .tryQuery _ | .queryLater _ => .query
  | .mutation _ | .tryMutation _ | .mutationLater _ => .mutation

/-- What the implementation does up to its end. -/
def performs : Ending σ α β → Implementation σ α β
  | .query f | .mutation f => .ofTotal f
  | .tryQuery f | .tryMutation f => f
  | .queryLater f | .mutationLater f => fun x => (f x).finish

def build (b : ProcedureBuilder S (S α) (S β)) : Ending σ α β → Procedure S σ α β
  | .query f => b.query f
  | .tryQuery f => b.tryQuery f
  | .queryLater f => b.queryLater f
  | .mutation f => b.mutation f
  | .tryMutation f => b.tryMutation f
  | .mutationLater f => b.mutationLater f

theorem kind_build (b : ProcedureBuilder S (S α) (S β)) (t : Ending σ α β) :
    (t.build b).kind = t.kind := by
  cases t <;> rfl

theorem descriptor_build (b : ProcedureBuilder S (S α) (S β)) (t : Ending σ α β) :
    (t.build b).descriptor = ⟨b.adapter, b.input, b.output⟩ := by
  cases t <;> rfl

/-- However the implementation is given, the procedure runs it to its end. -/
theorem perform_build (b : ProcedureBuilder S (S α) (S β)) (t : Ending σ α β) :
    (Guarded.later (t.build b).method).perform = t.performs := by
  cases t <;> rfl

end Ending

namespace EntryPoints

variable {S : Type → Type} {σ α β : Type}

/-! ## Typed calls and calls with values -/

/-- A JSON value is that of an argument, which reads back from it. -/
structure Writes (d : Descriptor S α β) (x : α) (v : Json) : Prop where
  written : d.adapter.encode d.input x = .ok v
  read : d.adapter.decode d.input v = .ok x

/-- A call with a value ends as a typed call does, in the same state and with the same events: with
the value of its result, or with its fault. -/
structure Mirrors (d : Descriptor S α β) (typed : Attempt σ MethodFault β)
    (untyped : Attempt σ MethodFault Json) : Prop where
  results : ∀ s y s' events, typed.run s = ⟨.ok y, s', events⟩ →
    ∃ w, d.adapter.encode d.output y = .ok w ∧ untyped.run s = ⟨.ok w, s', events⟩
  values : ∀ s w s' events, untyped.run s = ⟨.ok w, s', events⟩ ↔
    ∃ y, d.adapter.encode d.output y = .ok w ∧ typed.run s = ⟨.ok y, s', events⟩
  faults : ∀ s f s' events, untyped.run s = ⟨.error f, s', events⟩ ↔
    typed.run s = ⟨.error f, s', events⟩

/-- An attempt whose results can be written is mirrored by the one that also writes them. -/
theorem mirrors_encodeOutput {d : Descriptor S α β} {typed : Attempt σ MethodFault β}
    (h : ∀ s y, (typed.run s).result = .ok y → ∃ w, d.adapter.encode d.output y = .ok w) :
    Mirrors d typed (typed >>= d.encodeOutput) := by
  have hfails : ∀ s f s' events, typed.run s = ⟨.error f, s', events⟩ →
      (typed >>= d.encodeOutput).run s = ⟨.error f, s', events⟩ := fun s f s' events ht =>
    Attempt.run_bind_error _ ht
  have hsucceeds : ∀ s y s' events, typed.run s = ⟨.ok y, s', events⟩ →
      ∃ w, d.adapter.encode d.output y = .ok w ∧
        (typed >>= d.encodeOutput).run s = ⟨.ok w, s', events⟩ := by
    intro s y s' events ht
    obtain ⟨w, hw⟩ := h s y (by rw [ht])
    refine ⟨w, hw, ?_⟩
    rw [Attempt.run_bind_ok _ ht, encodeOutput_of_encode hw, Attempt.run_pure, List.append_nil]
  constructor
  case results => exact hsucceeds
  case values =>
    intro s w s' events
    constructor
    · intro hw
      rcases ht : typed.run s with ⟨f | y, t, logged⟩
      · rw [hfails s f t logged ht] at hw
        cases hw
      · obtain ⟨w', hw', hrun⟩ := hsucceeds s y t logged ht
        obtain ⟨hresult, rfl, rfl⟩ := Outcome.mk.inj (hrun.symm.trans hw)
        obtain rfl := Except.ok.inj hresult
        exact ⟨y, hw', rfl⟩
    · rintro ⟨y, hy, ht⟩
      obtain ⟨w', hw', hrun⟩ := hsucceeds s y s' events ht
      obtain rfl := Except.ok.inj (hy.symm.trans hw')
      exact hrun
  case faults =>
    intro s f s' events
    constructor
    · intro hf
      rcases ht : typed.run s with ⟨g | y, t, logged⟩
      · obtain ⟨hresult, rfl, rfl⟩ := Outcome.mk.inj ((hfails s g t logged ht).symm.trans hf)
        obtain rfl := Except.error.inj hresult
        rfl
      · obtain ⟨w, -, hrun⟩ := hsucceeds s y t logged ht
        rw [hrun] at hf
        cases hf
    · exact hfails s f s' events

theorem mirrors_of_writes (m : Guarded S σ α β) {x : α} {v : Json} (h : Writes m.descriptor x v) :
    Mirrors m.descriptor (m.call x) (m.callValue v) := by
  rw [Guarded.callValue_eq, TypedCalls.callValueWith_eq h.written h.read, ← Guarded.call_eq]
  refine mirrors_encodeOutput fun s y hy => ?_
  have hends : (m.call x).ends s = (.ok y, ((m.call x).run s).state) := Prod.ext hy rfl
  exact (TypedCalls.result_of_call hends).2

/-! ## Methods and procedures -/

/-- A method is called as its boundaries and its implementation say, be it one that runs at once or
one that completes later. -/
theorem calls_eq {m n : Guarded S σ α β} (hd : m.descriptor = n.descriptor)
    (hf : m.perform = n.perform) : m.call = n.call ∧ m.callValue = n.callValue := by
  have hinvoke : m.invoke = n.invoke := by
    unfold Guarded.invoke
    rw [hf]
  constructor
  · funext x
    rw [Guarded.call_eq, Guarded.call_eq, hd, hinvoke]
  · funext v
    rw [Guarded.callValue_eq, Guarded.callValue_eq, hd, hinvoke]

theorem procedure_calls_eq (b : Stages S (S α) (S β)) (t : Ending σ α β) {m : Guarded S σ α β}
    (hd : ⟨b.lastAdapter, b.givenInput, b.givenOutput⟩ = m.descriptor)
    (hf : t.performs = m.perform) :
    (t.build b.builder).call = m.call ∧ (t.build b.builder).endpoint.invoke = m.callValue := by
  have hdescriptor : (Guarded.later (t.build b.builder).method).descriptor = m.descriptor := by
    rw [← hd]
    refine (t.descriptor_build b.builder).trans ?_
    rw [b.builder_eq]
  exact calls_eq hdescriptor ((t.perform_build b.builder).trans hf)

/-- Every way to call an implementation behind an adapter and two schemas ends alike. The call with
the value of an argument ends as the typed call with the argument does: with the value of its
result or with its very fault, in the same state. A method that completes later is called as one
that runs at once, and so is a procedure of either kind, in whatever order its stages came, however
often its adapter was replaced and in whatever form it got the implementation. -/
theorem invocation_paths_agree {a : Adapter S} {input : S α} {output : S β} {x : α} {v : Json}
    (h : Writes (⟨a, input, output⟩ : Descriptor S α β) x v) (f : Implementation σ α β) :
    let m := a.tryMethod input output f
    Mirrors m.descriptor (m.call x) (m.callValue v) ∧
    (∀ n : Guarded S σ α β, n.descriptor = m.descriptor → n.perform = f →
      n.call = m.call ∧ n.callValue = m.callValue) ∧
    ∀ (b : Stages S (S α) (S β)) (t : Ending σ α β),
      b.lastAdapter = a → b.givenInput = input → b.givenOutput = output → t.performs = f →
      (t.build b.builder).kind = t.kind ∧ (t.build b.builder).endpoint.adapter = a.name ∧
      (t.build b.builder).call = m.call ∧
      (t.build b.builder).endpoint.invoke = m.callValue := by
  intro m
  refine ⟨mirrors_of_writes (.now m) h, fun n hd hf => calls_eq (n := .now m) hd hf, ?_⟩
  rintro b t rfl rfl rfl rfl
  refine ⟨t.kind_build _, ?_, procedure_calls_eq b t (m := .now m) rfl rfl⟩
  show (t.build b.builder).descriptor.adapter.name = _
  rw [t.descriptor_build, b.builder_eq]

/-! ## A counter -/

/-- Counts its calls and gives the next number, unless there is none. -/
def bump : Implementation Nat Typed.U8 Typed.U8 := fun n count =>
  (match Typed.Ranged.ofInt? 0 255 (n.val + 1) with
    | some next => .ok next
    | none => .error "counter overflow", count + 1)

def byteSchema : TypeSchema Typed.U8 := ⟨Typed.u8⟩

/-- Built the other way round, from an adapter that is replaced twice. -/
def bumpStages : Stages TypeSchema (TypeSchema Typed.U8) (TypeSchema Typed.U8) :=
  .adapter (.input (.adapter (.output (.start passthrough) byteSchema) (byDocument {})) byteSchema)
    byType

/-- The last byte has no next one: the typed call of the method and the call of the procedure with
its value both end with the message of the implementation, which ran once in each. -/
theorem last_byte_overflows_alike :
    Writes (⟨byType, byteSchema, byteSchema⟩ : Descriptor TypeSchema Typed.U8 Typed.U8)
      ⟨255, by decide⟩ (Json.whole 255) ∧
    ((byType.tryMethod byteSchema byteSchema bump).call ⟨255, by decide⟩).ends 7 =
      (.error (.handler "counter overflow"), 8) ∧
    (((Ending.mutationLater (Implementation.later bump)).build bumpStages.builder).endpoint.invoke
      (Json.whole 255)).ends 7 = (.error (.handler "counter overflow"), 8) := by
  have hwrites : Writes (⟨byType, byteSchema, byteSchema⟩ : Descriptor TypeSchema Typed.U8 Typed.U8)
      ⟨255, by decide⟩ (Json.whole 255) := ⟨rfl, rfl⟩
  obtain ⟨hmirrors, -, hprocedures⟩ := invocation_paths_agree hwrites bump
  obtain ⟨-, -, -, hinvoke⟩ :=
    hprocedures bumpStages (.mutationLater (Implementation.later bump)) rfl rfl rfl rfl
  have hcall : ((byType.tryMethod byteSchema byteSchema bump).call ⟨255, by decide⟩).ends 7 =
      (.error (.handler "counter overflow"), 8) := rfl
  refine ⟨hwrites, hcall, ?_⟩
  obtain ⟨hresult, hstate⟩ := Prod.mk.inj hcall
  have hrun := (hmirrors.faults 7 (.handler "counter overflow") 8 _).mpr (by
    rw [← hresult, ← hstate])
  rw [hinvoke]
  exact Prod.ext (congrArg Outcome.result hrun) (congrArg Outcome.state hrun)

end EntryPoints

end GuardedCall
