-- The laws of the boundaries of a method. Whatever the adapter, the schemas and
-- the implementation do, and however long a run of calls is: the implementation
-- runs once for each request whose argument is accepted and for no other one,
-- a result comes out only between two accepted values, and a call that fails
-- names the first step that went wrong.
import GuardedCall.Method.Bound

namespace GuardedCall.Boundary

variable {S : Type → Type} {σ τ α β : Type}

/-! ## Requests and runs -/

/-- A method behind its checks, of either kind. -/
inductive Guarded (S : Type → Type) (σ α β : Type) where
  | now (m : Method S σ α β)
  | later (m : LaterMethod S σ α β)

/-- One call of a method: with a typed argument or with a JSON value. -/
inductive Request (α : Type) where
  | typed (x : α)
  | value (v : Json)

/-- What a call gives back: a result itself, or its JSON value. -/
inductive Response (β : Type) where
  | typed (y : β)
  | value (w : Json)

def Request.response : Request α → β → Json → Response β
  | .typed _, y, _ => .typed y
  | .value _, _, w => .value w

namespace Guarded

def descriptor : Guarded S σ α β → Descriptor S α β
  | .now m => m.descriptor
  | .later m => m.descriptor

/-- The implementation alone, up to its end. -/
def perform : Guarded S σ α β → α → σ → Except String β × σ
  | .now m, x => m.implementation x
  | .later m, x => (m.implementation x).finish

def call : Guarded S σ α β → α → Attempt σ MethodFault β
  | .now m => m.call
  | .later m => m.call

def callValue : Guarded S σ α β → Json → Attempt σ MethodFault Json
  | .now m => m.callValue
  | .later m => m.callValue

def serve (m : Guarded S σ α β) : Request α → Attempt σ MethodFault (Response β)
  | .typed x => do return .typed (← m.call x)
  | .value v => do return .value (← m.callValue v)

end Guarded

/-- One request of a run with its answer and the states around it. -/
structure Exchange (σ α β : Type) where
  request : Request α
  before : σ
  answer : Except MethodFault (Response β)
  after : σ

def exchange (m : Guarded S σ α β) (r : Request α) (s : σ) : Exchange σ α β :=
  ⟨r, s, ((m.serve r).run s).result, ((m.serve r).run s).state⟩

/-- The requests one after another, each in the state that the one before it left. -/
def run (m : Guarded S σ α β) : List (Request α) → σ → List (Exchange σ α β)
  | [], _ => []
  | r :: rest, s => exchange m r s :: run m rest (exchange m r s).after

def stateAfter (m : Guarded S σ α β) : List (Request α) → σ → σ
  | [], s => s
  | r :: rest, s => stateAfter m rest (exchange m r s).after

/-! ## Noting the arguments of the implementation -/

/-- The same work on a state that has a further part, which it leaves alone. -/
def beside : Later σ α → Later (σ × τ) α
  | .done x => .done x
  | .step change rest => .step (fun t => (change t.1, t.2)) fun t => beside (rest t.1)
  | .pause rest => .pause (beside rest)

/-- The method whose implementation also notes every argument that it is invoked with. -/
def Guarded.noting : Guarded S σ α β → Guarded S (σ × List α) α β
  | .now m => .now ⟨m.descriptor, fun x t =>
      ((m.implementation x t.1).1, ((m.implementation x t.1).2, t.2 ++ [x]))⟩
  | .later m => .later ⟨m.descriptor, fun x =>
      .step (fun t => (t.1, t.2 ++ [x])) fun _ => beside (m.implementation x)⟩

/-- An exchange without what was noted. -/
def Exchange.forget (e : Exchange (σ × τ) α β) : Exchange σ α β :=
  ⟨e.request, e.before.1, e.answer, e.after.1⟩

/-! ## What a boundary admits and refuses -/

/-- The value of a request that the input schema is asked about. -/
inductive Presents (d : Descriptor S α β) : Request α → Json → Prop
  | typed {x : α} {v : Json} : d.adapter.encode d.input x = .ok v → Presents d (.typed x) v
  | value (v : Json) : Presents d (.value v) v

/-- The argument that an accepted request has for the implementation. -/
def admitted (d : Descriptor S α β) : Request α → Option α
  | .typed x =>
    match d.adapter.encode d.input x with
    | .ok v =>
      match d.adapter.validate d.input v with
      | .ok true => some x
      | _ => none
    | .error _ => none
  | .value v =>
    match d.adapter.validate d.input v with
    | .ok true => (d.adapter.decode d.input v).toOption
    | _ => none

/-- Why a request is refused before the implementation. Each fault stands behind the steps that
went well before it. -/
inductive Refuses (d : Descriptor S α β) : Request α → MethodFault → Prop
  /-- The argument has no JSON value. -/
  | unwritable {x : α} {f : Typed.EncodeFault} (h : d.adapter.encode d.input x = .error f) :
    Refuses d (.typed x)
      (.invalidInput d.adapter.name ("input cannot be represented: " ++ f.message))
  /-- The adapter cannot evaluate the input schema. -/
  | unchecked {r : Request α} {v : Json} {f : AdapterFault} (hv : Presents d r v)
    (h : d.adapter.validate d.input v = .error f) : Refuses d r (.adapterFault f)
  /-- The input schema rejects the value. -/
  | rejected {r : Request α} {v : Json} (hv : Presents d r v)
    (h : d.adapter.validate d.input v = .ok false) :
    Refuses d r (.invalidInput d.adapter.name
      ((d.adapter.diagnose d.input v).getD "value does not match input schema"))
  /-- The accepted value is no argument. -/
  | undecodable {v : Json} {f : AdapterFault} (h : d.adapter.validate d.input v = .ok true)
    (hf : d.adapter.decode d.input v = .error f) : Refuses d (.value v) (.adapterFault f)

/-- Why a result does not come out. -/
inductive Withholds (d : Descriptor S α β) : β → MethodFault → Prop
  /-- The result has no JSON value. -/
  | unwritable {y : β} {f : Typed.EncodeFault} (h : d.adapter.encode d.output y = .error f) :
    Withholds d y
      (.invalidOutput d.adapter.name ("output cannot be represented: " ++ f.message))
  /-- The adapter cannot evaluate the output schema. -/
  | unchecked {y : β} {w : Json} {f : AdapterFault} (hw : d.adapter.encode d.output y = .ok w)
    (h : d.adapter.validate d.output w = .error f) : Withholds d y (.adapterFault f)
  /-- The output schema rejects the value. -/
  | rejected {y : β} {w : Json} (hw : d.adapter.encode d.output y = .ok w)
    (h : d.adapter.validate d.output w = .ok false) :
    Withholds d y (.invalidOutput d.adapter.name
      ((d.adapter.diagnose d.output w).getD "value does not match output schema"))

/-- The value of the result is accepted, so the result comes out. -/
def Releases (d : Descriptor S α β) (y : β) (w : Json) : Prop :=
  d.adapter.encode d.output y = .ok w ∧ d.adapter.validate d.output w = .ok true

/-- The fault of a request in a state: that of the first step that goes wrong. -/
inductive Fails (m : Guarded S σ α β) (r : Request α) (s : σ) : MethodFault → Prop
  /-- The request does not reach the implementation. -/
  | refused {f : MethodFault} (h : Refuses m.descriptor r f) : Fails m r s f
  /-- The implementation fails. -/
  | failed {x : α} {message : String} (hx : admitted m.descriptor r = some x)
    (h : (m.perform x s).1 = .error message) : Fails m r s (.handler message)
  /-- The result of the implementation does not come out. -/
  | withheld {x : α} {y : β} {f : MethodFault} (hx : admitted m.descriptor r = some x)
    (hy : (m.perform x s).1 = .ok y) (h : Withholds m.descriptor y f) : Fails m r s f

/-- The response to a request in a state: its value was accepted, the implementation gave a
result, and the value of the result was accepted. -/
inductive Succeeds (m : Guarded S σ α β) (r : Request α) (s : σ) : Response β → Prop
  | intro {v : Json} {x : α} {y : β} {w : Json} (hv : Presents m.descriptor r v)
    (hok : m.descriptor.adapter.validate m.descriptor.input v = .ok true)
    (hx : admitted m.descriptor r = some x) (hy : (m.perform x s).1 = .ok y)
    (hw : Releases m.descriptor y w) : Succeeds m r s (r.response y w)

/-! ## Every request is admitted or refused -/

theorem admitted_typed {d : Descriptor S α β} {x : α} {v : Json}
    (hv : d.adapter.encode d.input x = .ok v) (hok : d.adapter.validate d.input v = .ok true) :
    admitted d (.typed x) = some x := by
  simp [admitted, hv, hok]

theorem admitted_value {d : Descriptor S α β} {x : α} {v : Json}
    (hok : d.adapter.validate d.input v = .ok true) (hx : d.adapter.decode d.input v = .ok x) :
    admitted d (.value v) = some x := by
  simp [admitted, hok, hx, Except.toOption]

theorem eq_of_admitted_typed {d : Descriptor S α β} {x z : α}
    (h : admitted d (.typed z) = some x) : z = x := by
  simp only [admitted] at h
  split at h
  · split at h <;> simp_all
  · cases h

/-- Nothing that is refused is admitted. -/
theorem admitted_of_refuses {d : Descriptor S α β} {r : Request α} {f : MethodFault}
    (h : Refuses d r f) : admitted d r = none := by
  cases h with
  | unwritable h => simp [admitted, h]
  | unchecked hv h => cases hv <;> simp [admitted, *]
  | rejected hv h => cases hv <;> simp [admitted, *]
  | undecodable h hf => simp [admitted, h, hf, Except.toOption]

theorem refuses_or_accepted (d : Descriptor S α β) {r : Request α} {v : Json}
    (hv : Presents d r v) :
    (∃ f, Refuses d r f) ∨ d.adapter.validate d.input v = .ok true := by
  rcases h : d.adapter.validate d.input v with f | _ | _
  · exact Or.inl ⟨_, .unchecked hv h⟩
  · exact Or.inl ⟨_, .rejected hv h⟩
  · exact Or.inr rfl

theorem refuses_or_admitted (d : Descriptor S α β) (r : Request α) :
    (∃ f, Refuses d r f) ∨
      ∃ v x, Presents d r v ∧ d.adapter.validate d.input v = .ok true ∧ admitted d r = some x := by
  cases r with
  | typed x =>
    rcases hv : d.adapter.encode d.input x with f | v
    · exact Or.inl ⟨_, .unwritable hv⟩
    · rcases refuses_or_accepted d (.typed hv) with h | h
      · exact Or.inl h
      · exact Or.inr ⟨v, x, .typed hv, h, admitted_typed hv h⟩
  | value v =>
    rcases refuses_or_accepted d (.value v) with h | h
    · exact Or.inl h
    · rcases hx : d.adapter.decode d.input v with f | x
      · exact Or.inl ⟨_, .undecodable h hx⟩
      · exact Or.inr ⟨v, x, .value v, h, admitted_value h hx⟩

theorem presents_of_admitted {d : Descriptor S α β} {r : Request α} {x : α}
    (hx : admitted d r = some x) :
    ∃ v, Presents d r v ∧ d.adapter.validate d.input v = .ok true := by
  rcases refuses_or_admitted d r with ⟨f, hf⟩ | ⟨v, _, hv, hok, _⟩
  · rw [admitted_of_refuses hf] at hx
    cases hx
  · exact ⟨v, hv, hok⟩

theorem withholds_or_releases (d : Descriptor S α β) (y : β) :
    (∃ f, Withholds d y f) ∨ ∃ w, Releases d y w := by
  rcases hw : d.adapter.encode d.output y with f | w
  · exact Or.inl ⟨_, .unwritable hw⟩
  · rcases h : d.adapter.validate d.output w with f | _ | _
    · exact Or.inl ⟨_, .unchecked hw h⟩
    · exact Or.inl ⟨_, .rejected hw h⟩
    · exact Or.inr ⟨w, hw, h⟩

/-! ## One check -/

section Check

variable {γ : Type} (d : Descriptor S α β) (schema : S γ) (side : String)
  (fault : String → String → MethodFault) {v : Json} (s : σ)

theorem ends_check_accepted (h : d.adapter.validate schema v = .ok true) :
    (d.check schema side fault v).ends s = (.ok (), s) := by
  simp [Descriptor.check, Attempt.ends_bind, h]

theorem ends_check_rejected (h : d.adapter.validate schema v = .ok false) :
    (d.check schema side fault v).ends s = (.error (fault d.adapter.name
      ((d.adapter.diagnose schema v).getD ("value does not match " ++ side ++ " schema"))), s) := by
  simp [Descriptor.check, Attempt.ends_bind, h]

theorem ends_check_unchecked {f : AdapterFault} (h : d.adapter.validate schema v = .error f) :
    (d.check schema side fault v).ends s = (.error (.adapterFault f), s) := by
  simp [Descriptor.check, Attempt.ends_bind, h]

end Check

/-! ## Steps that go well -/

theorem encodeInput_of_encode {d : Descriptor S α β} {x : α} {v : Json}
    (h : d.adapter.encode d.input x = .ok v) :
    (d.encodeInput x : Attempt σ MethodFault Json) = pure v := by
  unfold Descriptor.encodeInput
  rw [h]
  rfl

theorem decodeInput_of_decode {d : Descriptor S α β} {x : α} {v : Json}
    (h : d.adapter.decode d.input v = .ok x) :
    (d.decodeInput v : Attempt σ MethodFault α) = pure x := by
  unfold Descriptor.decodeInput
  rw [h]
  rfl

theorem encodeOutput_of_encode {d : Descriptor S α β} {y : β} {w : Json}
    (h : d.adapter.encode d.output y = .ok w) :
    (d.encodeOutput y : Attempt σ MethodFault Json) = pure w := by
  unfold Descriptor.encodeOutput
  rw [h]
  rfl

/-! ## One request -/

namespace Guarded

/-- The implementation as part of a call. -/
def invoke (m : Guarded S σ α β) (x : α) : Attempt σ MethodFault β :=
  (Attempt.change (m.perform x)).mapError .handler

theorem call_eq (m : Guarded S σ α β) (x : α) : m.call x = m.descriptor.callWith m.invoke x := by
  cases m <;> rfl

theorem callValue_eq (m : Guarded S σ α β) (v : Json) :
    m.callValue v = m.descriptor.callValueWith m.invoke v := by
  cases m <;> rfl

end Guarded

/-- What is done with a result: it is checked and comes out. -/
def conclude (d : Descriptor S α β) (r : Request α) (y : β) :
    Attempt σ MethodFault (Response β) := do
  let w ← d.encodeOutput y
  d.checkOutput w
  return r.response y w

theorem conclude_of_encode {d : Descriptor S α β} {y : β} {w : Json}
    (hw : d.adapter.encode d.output y = .ok w) (r : Request α) :
    (conclude d r y : Attempt σ MethodFault (Response β)) =
      (fun _ => r.response y w) <$> d.checkOutput w := by
  simp [conclude, encodeOutput_of_encode hw]

theorem ends_conclude_withheld {d : Descriptor S α β} {y : β} {f : MethodFault}
    (h : Withholds d y f) (r : Request α) (s : σ) : (conclude d r y).ends s = (.error f, s) := by
  cases h with
  | unwritable h => simp [conclude, Attempt.ends_bind, Descriptor.encodeOutput, h]
  | unchecked hw h =>
    rw [conclude_of_encode hw, Attempt.ends_map, Descriptor.checkOutput,
      ends_check_unchecked _ _ _ _ _ h]
    rfl
  | rejected hw h =>
    rw [conclude_of_encode hw, Attempt.ends_map, Descriptor.checkOutput,
      ends_check_rejected _ _ _ _ _ h]
    rfl

theorem ends_conclude_released {d : Descriptor S α β} {y : β} {w : Json} (h : Releases d y w)
    (r : Request α) (s : σ) : (conclude d r y).ends s = (.ok (r.response y w), s) := by
  obtain ⟨hw, h⟩ := h
  rw [conclude_of_encode hw, Attempt.ends_map, Descriptor.checkOutput,
    ends_check_accepted _ _ _ _ _ h]
  rfl

/-- What is done with a request whose value was accepted. -/
def proceed (m : Guarded S σ α β) : Request α → Attempt σ MethodFault (Response β)
  | .typed x => do conclude m.descriptor (.typed x) (← m.invoke x)
  | .value v => do conclude m.descriptor (.value v) (← m.invoke (← m.descriptor.decodeInput v))

/-- Both kinds of call check the value that is presented and then proceed. -/
theorem ends_serve_presented (m : Guarded S σ α β) {r : Request α} {v : Json}
    (hv : Presents m.descriptor r v) (s : σ) :
    (m.serve r).ends s = (do m.descriptor.checkInput v; proceed m r).ends s := by
  cases hv with
  | @typed x v hv =>
    simp [Guarded.serve, Guarded.call_eq, Descriptor.callWith, encodeInput_of_encode hv, proceed,
      conclude, Request.response]
  | value v =>
    simp [Guarded.serve, Guarded.callValue_eq, Descriptor.callValueWith, proceed, conclude,
      Request.response]

/-- An admitted request reaches the implementation with its argument. -/
theorem ends_proceed (m : Guarded S σ α β) {r : Request α} {x : α}
    (hx : admitted m.descriptor r = some x) (s : σ) :
    (proceed m r).ends s = (do conclude m.descriptor r (← m.invoke x)).ends s := by
  cases r with
  | typed z =>
    obtain rfl := eq_of_admitted_typed hx
    rfl
  | value v =>
    have hd : m.descriptor.adapter.decode m.descriptor.input v = .ok x := by
      simp only [admitted] at hx
      split at hx
      · rcases h : m.descriptor.adapter.decode m.descriptor.input v with f | z
        · simp [h, Except.toOption] at hx
        · simp only [h, Except.toOption, Option.some.injEq] at hx
          rw [hx]
      · cases hx
    simp [proceed, Attempt.ends_bind, Descriptor.decodeInput, hd]

/-- A refused request ends with its fault and leaves the state alone. -/
theorem ends_serve_refused (m : Guarded S σ α β) {r : Request α} {f : MethodFault}
    (h : Refuses m.descriptor r f) (s : σ) : (m.serve r).ends s = (.error f, s) := by
  cases h with
  | unwritable h =>
    simp [Guarded.serve, Guarded.call_eq, Descriptor.callWith, Attempt.ends_bind,
      Descriptor.encodeInput, h]
  | unchecked hv h =>
    rw [ends_serve_presented m hv, Attempt.ends_bind, Descriptor.checkInput,
      ends_check_unchecked _ _ _ _ _ h]
  | rejected hv h =>
    rw [ends_serve_presented m hv, Attempt.ends_bind, Descriptor.checkInput,
      ends_check_rejected _ _ _ _ _ h]
    rfl
  | @undecodable v f h hf =>
    rw [ends_serve_presented m (.value v), Attempt.ends_bind, Descriptor.checkInput,
      ends_check_accepted _ _ _ _ _ h]
    simp [proceed, Attempt.ends_bind, Descriptor.decodeInput, hf]

/-- An admitted request ends as the implementation and the check of its result do. -/
theorem ends_serve_admitted (m : Guarded S σ α β) {r : Request α} {x : α}
    (hx : admitted m.descriptor r = some x) (s : σ) :
    (m.serve r).ends s =
      match m.perform x s with
      | (.ok y, s') => (conclude m.descriptor r y).ends s'
      | (.error message, s') => (.error (.handler message), s') := by
  obtain ⟨v, hv, hok⟩ := presents_of_admitted hx
  rw [ends_serve_presented m hv, Attempt.ends_bind, Descriptor.checkInput,
    ends_check_accepted _ _ _ _ _ hok]
  simp only [ends_proceed m hx, Guarded.invoke, Attempt.ends_bind, Attempt.ends_mapError,
    Attempt.ends_change]
  rcases m.perform x s with ⟨_ | _, _⟩ <;> rfl

/-- The check of a result looks at no state and leaves it alone. -/
theorem ends_conclude (d : Descriptor S α β) (r : Request α) (y : β) :
    ∃ a, ∀ {σ : Type} (s : σ), (conclude d r y).ends s = (a, s) := by
  rcases withholds_or_releases d y with ⟨f, h⟩ | ⟨w, h⟩
  · exact ⟨_, ends_conclude_withheld h r⟩
  · exact ⟨_, ends_conclude_released h r⟩

/-! ## One exchange -/

theorem exchange_eq (m : Guarded S σ α β) (r : Request α) (s : σ) :
    exchange m r s = ⟨r, s, ((m.serve r).ends s).1, ((m.serve r).ends s).2⟩ := rfl

theorem after_of_admitted_none (m : Guarded S σ α β) {r : Request α}
    (h : admitted m.descriptor r = none) (s : σ) : (exchange m r s).after = s := by
  rcases refuses_or_admitted m.descriptor r with ⟨f, hf⟩ | ⟨_, _, _, _, hx⟩
  · rw [exchange_eq, ends_serve_refused m hf]
  · rw [h] at hx
    cases hx

theorem after_of_admitted_some (m : Guarded S σ α β) {r : Request α} {x : α}
    (h : admitted m.descriptor r = some x) (s : σ) :
    (exchange m r s).after = (m.perform x s).2 := by
  rw [exchange_eq, ends_serve_admitted m h]
  rcases m.perform x s with ⟨_ | y, s'⟩
  · rfl
  · obtain ⟨a, ha⟩ := ends_conclude m.descriptor r y
    simp only [ha]

theorem answer_of_fails {m : Guarded S σ α β} {r : Request α} {s : σ} {f : MethodFault}
    (h : Fails m r s f) : (exchange m r s).answer = .error f := by
  rw [exchange_eq]
  cases h with
  | refused h => rw [ends_serve_refused m h]
  | @failed x message hx h =>
    rw [ends_serve_admitted m hx]
    rcases hp : m.perform x s with ⟨_, s'⟩
    simp only [hp] at h
    rw [h]
  | @withheld x y f hx hy h =>
    rw [ends_serve_admitted m hx]
    rcases hp : m.perform x s with ⟨_, s'⟩
    simp only [hp] at hy
    simp only [hy, ends_conclude_withheld h]

theorem answer_of_succeeds {m : Guarded S σ α β} {r : Request α} {s : σ} {a : Response β}
    (h : Succeeds m r s a) : (exchange m r s).answer = .ok a := by
  rw [exchange_eq]
  obtain @⟨v, x, y, w, _, _, hx, hy, hw⟩ := h
  rw [ends_serve_admitted m hx]
  rcases hp : m.perform x s with ⟨_, s'⟩
  simp only [hp] at hy
  simp only [hy, ends_conclude_released hw]

theorem fails_or_succeeds (m : Guarded S σ α β) (r : Request α) (s : σ) :
    (∃ f, Fails m r s f) ∨ ∃ a, Succeeds m r s a := by
  rcases refuses_or_admitted m.descriptor r with ⟨f, hf⟩ | ⟨v, x, hv, hok, hx⟩
  · exact Or.inl ⟨f, .refused hf⟩
  · rcases hy : (m.perform x s).1 with message | y
    · exact Or.inl ⟨_, .failed hx hy⟩
    · rcases withholds_or_releases m.descriptor y with ⟨f, h⟩ | ⟨w, hw⟩
      · exact Or.inl ⟨f, .withheld hx hy h⟩
      · exact Or.inr ⟨_, .intro hv hok hx hy hw⟩

/-- What the boundaries promise of one exchange. -/
structure Lawful (m : Guarded S σ α β) (e : Exchange σ α β) : Prop where
  unchanged : admitted m.descriptor e.request = none → e.after = e.before
  changed : ∀ x, admitted m.descriptor e.request = some x → e.after = (m.perform x e.before).2
  succeeds : ∀ a, e.answer = .ok a ↔ Succeeds m e.request e.before a
  fails : ∀ f, e.answer = .error f ↔ Fails m e.request e.before f

theorem lawful_exchange (m : Guarded S σ α β) (r : Request α) (s : σ) :
    Lawful m (exchange m r s) := by
  refine ⟨fun h => after_of_admitted_none m h s, fun x h => after_of_admitted_some m h s,
    fun a => ⟨fun h => ?_, answer_of_succeeds⟩, fun f => ⟨fun h => ?_, answer_of_fails⟩⟩
  · rcases fails_or_succeeds m r s with ⟨f, hf⟩ | ⟨b, hb⟩
    · rw [answer_of_fails hf] at h
      cases h
    · rw [answer_of_succeeds hb] at h
      cases h
      exact hb
  · rcases fails_or_succeeds m r s with ⟨g, hg⟩ | ⟨b, hb⟩
    · rw [answer_of_fails hg] at h
      cases h
      exact hg
    · rw [answer_of_succeeds hb] at h
      cases h

/-! ## Noting changes nothing else -/

theorem finish_beside (w : Later σ α) (s : σ) (t : τ) :
    (beside w).finish (s, t) = ((w.finish s).1, ((w.finish s).2, t)) := by
  induction w generalizing s with
  | done x => rfl
  | step change rest ih => exact ih s (change s)
  | pause rest ih => exact ih s

@[simp] theorem descriptor_noting (m : Guarded S σ α β) : m.noting.descriptor = m.descriptor := by
  cases m <;> rfl

theorem perform_noting (m : Guarded S σ α β) (x : α) (s : σ) (xs : List α) :
    m.noting.perform x (s, xs) = ((m.perform x s).1, ((m.perform x s).2, xs ++ [x])) := by
  cases m with
  | now m => rfl
  | later m => exact finish_beside _ _ _

/-- One exchange notes the argument of its invocation, if it has one. -/
theorem exchange_noting (m : Guarded S σ α β) (r : Request α) (s : σ) (xs : List α) :
    exchange m.noting r (s, xs) = ⟨r, (s, xs), (exchange m r s).answer,
      ((exchange m r s).after, xs ++ (admitted m.descriptor r).toList)⟩ := by
  rcases refuses_or_admitted m.descriptor r with ⟨f, hf⟩ | ⟨_, x, _, _, hx⟩
  · -- The boundaries of the noting method are the same, so it refuses and admits the same.
    have hf' : Refuses m.noting.descriptor r f := by rwa [descriptor_noting]
    rw [exchange_eq, exchange_eq, ends_serve_refused m hf, ends_serve_refused m.noting hf',
      admitted_of_refuses hf]
    simp
  · have hx' : admitted m.noting.descriptor r = some x := by rwa [descriptor_noting]
    rw [exchange_eq, exchange_eq, ends_serve_admitted m hx, ends_serve_admitted m.noting hx',
      perform_noting, hx]
    rcases m.perform x s with ⟨_ | y, s'⟩
    · rfl
    · obtain ⟨a, ha⟩ := ends_conclude m.descriptor r y
      simp only [descriptor_noting, ha, Option.toList_some]

/-! ## Runs -/

theorem stateAfter_noting (m : Guarded S σ α β) (rs : List (Request α)) (s : σ) (xs : List α) :
    stateAfter m.noting rs (s, xs) =
      (stateAfter m rs s, xs ++ rs.filterMap (admitted m.descriptor)) := by
  induction rs generalizing s xs with
  | nil => simp [stateAfter]
  | cons r rest ih =>
    rw [stateAfter, exchange_noting, ih, stateAfter]
    cases h : admitted m.descriptor r <;> simp [h]

theorem run_noting (m : Guarded S σ α β) (rs : List (Request α)) (s : σ) (xs : List α) :
    (run m.noting rs (s, xs)).map Exchange.forget = run m rs s := by
  induction rs generalizing s xs with
  | nil => rfl
  | cons r rest ih =>
    rw [run, exchange_noting, List.map_cons, ih, run]
    rfl

theorem stateAfter_eq_foldl (m : Guarded S σ α β) (rs : List (Request α)) (s : σ) :
    stateAfter m rs s =
      (rs.filterMap (admitted m.descriptor)).foldl (fun s x => (m.perform x s).2) s := by
  induction rs generalizing s with
  | nil => rfl
  | cons r rest ih =>
    rw [stateAfter, ih]
    cases h : admitted m.descriptor r with
    | none => rw [after_of_admitted_none m h, List.filterMap_cons_none h]
    | some x => rw [after_of_admitted_some m h, List.filterMap_cons_some h, List.foldl_cons]

theorem map_request_run (m : Guarded S σ α β) (rs : List (Request α)) (s : σ) :
    (run m rs s).map Exchange.request = rs := by
  induction rs generalizing s with
  | nil => rfl
  | cons r rest ih =>
    rw [run, List.map_cons, ih]
    rfl

theorem lawful_of_mem_run (m : Guarded S σ α β) (rs : List (Request α)) (s : σ) :
    ∀ e ∈ run m rs s, Lawful m e := by
  induction rs generalizing s with
  | nil => simp [run]
  | cons r rest ih =>
    intro e he
    rcases List.mem_cons.mp he with rfl | he
    · exact lawful_exchange m r s
    · exact ih _ e he

/-- The boundaries hold over every run. The implementation is invoked on exactly the arguments
that were admitted, in order, and noting them changes no answer; what the run leaves is what
these invocations leave; and every exchange is lawful: a request that is not admitted changes
nothing, a result stands between two accepted values, and a fault is that of the first step
that went wrong. -/
theorem only_accepted_arguments_reach_the_implementation (m : Guarded S σ α β)
    (requests : List (Request α)) (s : σ) :
    (stateAfter m.noting requests (s, [])).2 = requests.filterMap (admitted m.descriptor) ∧
    (run m.noting requests (s, [])).map Exchange.forget = run m requests s ∧
    (run m requests s).map Exchange.request = requests ∧
    stateAfter m requests s =
      (requests.filterMap (admitted m.descriptor)).foldl (fun s x => (m.perform x s).2) s ∧
    ∀ e ∈ run m requests s, Lawful m e := by
  refine ⟨?_, run_noting m requests s [], map_request_run m requests s,
    stateAfter_eq_foldl m requests s, lawful_of_mem_run m requests s⟩
  rw [stateAfter_noting]
  simp

end GuardedCall.Boundary
