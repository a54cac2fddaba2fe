-- The law of typed calls. A call through a client goes a long way: the argument
-- is written, sent, read, checked, decoded, and the result takes the same way
-- back. A direct call hands both over as they are. Whatever the procedure is,
-- both calls end alike and invoke it alike, as long as the argument and the
-- result survive being written and read.
import GuardedCall.Proofs.Boundary
import GuardedCall.Proofs.ErrorRelay
import GuardedCall.Proofs.Loopback
import GuardedCall.Proofs.Projection

namespace GuardedCall

open GuardedCall.Boundary
open GuardedCall.Json
open GuardedCall.Typed

variable {S : Type → Type} {σ τ α β : Type}

/-! ## Noting the invocations of one procedure -/

/-- The procedure whose implementation also notes every argument that it is invoked with. -/
def Procedure.noting (p : Procedure S σ α β) : Procedure S (σ × List α) α β :=
  ⟨p.kind, p.descriptor, fun x =>
    .step (fun t => (t.1, t.2 ++ [x])) fun _ => beside (p.method.implementation x)⟩

/-- The same procedure on a state that has a further part, which it leaves alone. -/
def Endpoint.beside (e : Endpoint σ) : Endpoint (σ × τ) :=
  ⟨e.kind, e.adapter, fun v => (e.invoke v).beside⟩

/-- The router with another procedure at a path, on a state with a further part, which the other
procedures leave alone. -/
def Router.replacing (r : Router σ) (path : String) (e : Endpoint (σ × τ)) : Router (σ × τ) :=
  ⟨r.defaultAdapter,
    Tree.mapEntries (fun q other => if q = path then e else other.beside) id "" r.entries⟩

theorem Router.resolve_replacing {r : Router σ} (h : r.Obtained) {path : String} {e : Endpoint σ}
    (he : r.resolve path = .ok e) (e' : Endpoint (σ × τ)) :
    (r.replacing path e').resolve path = .ok e' := by
  have hentry : (r.replacing path e').entry =
      Tree.mapPaths (fun q other => if q = path then e' else other.beside) id "" r.entry := by
    simp [replacing, entry, Tree.mapPaths]
  rw [Projection.resolve_eq_ok_iff, hentry, Tree.leaf?_mapPaths_foldl,
    Projection.resolve_eq_ok_iff.mp he, Projection.foldl_below_of_resolve h he]
  simp

namespace TypedCalls

/-! ## Typed calls and calls with values -/

/-- Writing a result again changes nothing: it fails with the first writing or gives the same. -/
theorem encodeOutput_twice (d : Descriptor S α β) (y : β) :
    (do d.checkOutput (← d.encodeOutput y); d.encodeOutput y : Attempt σ MethodFault Json) =
      do let w ← d.encodeOutput y; d.checkOutput w; return w := by
  unfold Descriptor.encodeOutput
  cases d.adapter.encode d.output y with
  | error f => rfl
  | ok w => rfl

/-- The call with the value of an argument is the call with the argument, whose result is then
written. -/
theorem callValueWith_eq {d : Descriptor S α β} {x : α} {v : Json}
    (hv : d.adapter.encode d.input x = .ok v) (hx : d.adapter.decode d.input v = .ok x)
    (run : α → Attempt σ MethodFault β) :
    d.callValueWith run v = d.callWith run x >>= d.encodeOutput := by
  unfold Descriptor.callValueWith Descriptor.callWith
  rw [encodeInput_of_encode hv, decodeInput_of_decode hx]
  simp only [pure_bind, bind_assoc]
  congr 1
  funext _
  congr 1
  funext y
  exact (encodeOutput_twice d y).symm

theorem exchange_typed (m : Guarded S σ α β) (x : α) (s : σ) :
    exchange m (.typed x) s =
      ⟨.typed x, s, ((m.call x).ends s).1.map .typed, ((m.call x).ends s).2⟩ := by
  have hserve : (m.serve (.typed x)).ends s = _ := Attempt.ends_map Response.typed (m.call x) s
  rw [exchange_eq, hserve]

theorem map_typed_injective {a b : Except MethodFault β}
    (h : a.map Response.typed = b.map Response.typed) : a = b := by
  cases a <;> cases b <;> cases h <;> rfl

/-- A typed call that succeeds gives the result of the implementation, which has a value. -/
theorem result_of_call {m : Guarded S σ α β} {x : α} {y : β} {s s' : σ}
    (h : (m.call x).ends s = (.ok y, s')) :
    (m.perform x s).1 = .ok y ∧
      ∃ w, m.descriptor.adapter.encode m.descriptor.output y = .ok w := by
  have hanswer : (exchange m (.typed x) s).answer = .ok (.typed y) := by
    rw [exchange_typed, h]
    rfl
  have hsucceeds := ((lawful_exchange m (.typed x) s).succeeds _).mp hanswer
  generalize hr : Response.typed y = answer at hsucceeds
  obtain @⟨v, x', y', w, hv, hok, hx, hy, hw, -⟩ := hsucceeds
  cases hr
  cases hv with
  | typed he =>
    obtain rfl := eq_of_admitted_typed hx
    exact ⟨hy, w, hw⟩

/-! ## Procedures at the end of a transport -/

/-- A typed value has this JSON value, which nests so deep at most and reads back as it. -/
structure Carries (c : Codec α) (depth : Nat) (x : α) (v : Json) : Prop where
  written : c.encode x = .ok v
  valid : v.Valid
  fits : v.depth ≤ depth
  read : c.decodeJson v = .ok x

theorem Carries.decode {a : Adapter S} {schema : S α} {n : Nat} {x : α} {v : Json}
    (h : Carries (a.codec schema) n x v) : a.decode schema v = .ok x := by
  unfold Adapter.decode
  rw [h.read]
  rfl

/-- The fault that a client sees of the fault of a procedure. -/
def relayed (path : String) (f : MethodFault) : ClientFault :=
  .remote f.kind (RouterFault.procedure path f).message

/-- A value that is not too deep reaches the procedure at the path, and the client sees what it
makes of the reply. -/
theorem ends_loopback_of_resolve {r : Router σ} {path : String} {e : Endpoint σ}
    (he : r.resolve path = .ok e) {v : Json} (hv : v.Valid) (hd : v.depth ≤ depthLimit) (s : σ) :
    ((loopback r).call path v).ends s =
      (received (Router.replyTo (((e.invoke v).ends s).1.mapError (.procedure path))).bytes,
        ((e.invoke v).ends s).2) := by
  have hcall : (r.call path v).ends s =
      (((e.invoke v).ends s).1.mapError (.procedure path), ((e.invoke v).ends s).2) := by
    unfold Router.call
    rw [he]
    simp [Attempt.ends_bind]
  rw [Loopback.ends_loopback_of_fits r path hv hd, hcall]

/-- What the results of a procedure on an argument need to come back to a client. -/
def ResultsCarried (p : Procedure S σ α β) (x : α) (s : σ) : Prop :=
  ∀ y w, ((p.method.implementation x).finish s).1 = .ok y →
    p.signature.output.encode y = .ok w → Carries p.signature.output (depthLimit - 1) y w

/-- The typed call of a stub ends as the direct call of the procedure at its path does, with the
fault of the procedure as a fault of the server. -/
theorem ends_typedCall {r : Router σ} {path : String} {p : Procedure S σ α β}
    (hp : r.resolve path = .ok p.endpoint) {x : α} {v : Json}
    (hx : Carries p.signature.input depthLimit x v) {s : σ} (hresults : ResultsCarried p x s)
    (kind : ProcedureKind) :
    (((⟨path, kind, loopback r⟩ : Stub σ).bind p.signature).call x).ends s =
      (((p.call x).ends s).1.mapError (relayed path), ((p.call x).ends s).2) := by
  have hinvoke : p.endpoint.invoke v = p.call x >>= p.descriptor.encodeOutput :=
    callValueWith_eq hx.written hx.decode _
  have hreply := ends_loopback_of_resolve hp hx.valid hx.fits s
  rw [hinvoke, Attempt.ends_bind] at hreply
  unfold TypedStub.call Stub.bind Stub.call
  simp only [hx.written, Attempt.ends_bind, Attempt.ends_ofExcept, Attempt.ends_onError,
    Attempt.except_mapError_ok]
  rw [hreply]
  rcases hcall : (p.call x).ends s with ⟨f | y, s'⟩
  · simp only [Attempt.except_mapError_error, Router.replyTo, ErrorRelay.received_error]
    rfl
  · -- The result has a value, which comes back and reads as the result.
    obtain ⟨hy, w, hw⟩ := result_of_call (m := .later p.method) hcall
    have hback := hresults y w hy hw
    have hroom : w.depth < depthLimit := Nat.lt_of_le_of_lt hback.fits (by decide)
    have hencode : (p.descriptor.encodeOutput y : Attempt σ MethodFault Json) = pure w :=
      encodeOutput_of_encode hw
    simp only [hencode, Attempt.ends_pure, Attempt.except_mapError_ok, Router.replyTo,
      Loopback.received_ok hback.valid hroom, hback.read]

/-! ## Noted calls -/

theorem ends_call_noting (p : Procedure S σ α β) (x : α) (s : σ) (log : List α) :
    (p.noting.call x).ends (s, log) = (((p.call x).ends s).1,
      (((p.call x).ends s).2, log ++ (admitted p.descriptor (.typed x)).toList)) := by
  have hnoting := exchange_noting (.later p.method) (.typed x) s log
  rw [exchange_typed, exchange_typed] at hnoting
  obtain ⟨-, -, hanswer, hafter⟩ := Exchange.mk.inj hnoting
  exact Prod.ext (map_typed_injective hanswer) hafter

theorem resultsCarried_noting {p : Procedure S σ α β} {x : α} {s : σ} (h : ResultsCarried p x s)
    (log : List α) : ResultsCarried p.noting x (s, log) := by
  have hperform := perform_noting (.later p.method) x s log
  intro y w hy hw
  exact h y w ((congrArg Prod.fst hperform).symm.trans hy) hw

/-! ## Typed calls of clients and of procedures -/

/-- The client that is made of the shape of the router has this stub at the path. -/
def Projects (r : Router σ) (t : Transport τ) (path : String) (s : τ) (stub : Stub τ) : Prop :=
  ∃ c, (Client.project r.shape t : Attempt τ ClientFault _).ends s = (.ok c, s) ∧
    c.stub path = .ok stub

/-- The typed call of a stub and the direct call of a procedure end alike, in the same state. -/
structure Agree (p : Procedure S σ α β) (stub : Stub σ) (x : α) (s : σ) : Prop where
  /-- Both give the same result, or neither gives one. -/
  results : ∀ y s', ((stub.bind p.signature).call x).ends s = (.ok y, s') ↔
    (p.call x).ends s = (.ok y, s')
  /-- The stub reports a failure of the server of the kind with which the procedure fails. -/
  failures : ∀ k s', (∃ m, ((stub.bind p.signature).call x).ends s = (.error (.remote k m), s')) ↔
    ∃ f, (p.call x).ends s = (.error f, s') ∧ f.kind = k

theorem projects_of_resolve {r : Router σ} (h : r.Obtained) {path : String} {e : Endpoint σ}
    (he : r.resolve path = .ok e) (t : Transport τ) (s : τ) :
    Projects r t path s ⟨path, e.kind, t⟩ :=
  ⟨_, rfl, (Projection.agree_ofShape h t path).stub_eq e he⟩

theorem agree_of_resolve {r : Router σ} {path : String} {p : Procedure S σ α β}
    (hp : r.resolve path = .ok p.endpoint) {x : α} {v : Json}
    (hx : Carries p.signature.input depthLimit x v) {s : σ} (hresults : ResultsCarried p x s) :
    Agree p ⟨path, p.kind, loopback r⟩ x s := by
  have hcall := ends_typedCall hp hx hresults p.kind
  rcases hdirect : (p.call x).ends s with ⟨f | y, s'⟩
  · rw [hdirect] at hcall
    constructor
    case results =>
      intro y s''
      simp [hcall, hdirect]
    case failures =>
      intro k s''
      simp only [hcall, hdirect, Attempt.except_mapError_error, relayed, Prod.mk.injEq,
        Except.error.injEq, ClientFault.remote.injEq]
      constructor
      · rintro ⟨m, ⟨hk, -⟩, hs⟩
        exact ⟨f, ⟨rfl, hs⟩, hk⟩
      · rintro ⟨g, ⟨rfl, hs⟩, hk⟩
        exact ⟨_, ⟨hk, rfl⟩, hs⟩
  · rw [hdirect] at hcall
    constructor
    case results =>
      intro y s''
      simp [hcall, hdirect]
    case failures =>
      intro k s''
      simp [hcall, hdirect]

/-- Wherever a procedure is in a router, the typed call of the stub at its path ends as the direct
call does: with the same result, or with a failure of the server of the same kind, in the same
state. Both invoke the implementation alike, with the argument itself and at most once. Asked for
is only that the argument and each result that has a value come back from being written and read,
with room for the reply around the result. -/
theorem typed_calls_agree {r : Router σ} (h : r.Obtained) {path : String} {p : Procedure S σ α β}
    (hp : r.resolve path = .ok p.endpoint) {x : α} {v : Json}
    (hx : Carries p.signature.input depthLimit x v) {s : σ} (hresults : ResultsCarried p x s)
    (log : List α) :
    ∃ stub noted, Projects r (loopback r) path s stub ∧
      Projects r (loopback (r.replacing path p.noting.endpoint)) path (s, log) noted ∧
      Agree p stub x s ∧ Agree p.noting noted x (s, log) ∧
      ∃ xs, (xs = [] ∨ xs = [x]) ∧
        (p.noting.call x).ends (s, log) =
          (((p.call x).ends s).1, (((p.call x).ends s).2, log ++ xs)) ∧
        ((noted.bind p.signature).call x).ends (s, log) =
          ((((stub.bind p.signature).call x).ends s).1,
            ((((stub.bind p.signature).call x).ends s).2, log ++ xs)) := by
  have hp' := Router.resolve_replacing h hp p.noting.endpoint
  have hresults' := resultsCarried_noting hresults log
  refine ⟨_, _, projects_of_resolve h hp _ s, projects_of_resolve h hp _ (s, log),
    agree_of_resolve hp hx hresults, agree_of_resolve hp' hx hresults',
    (admitted p.descriptor (.typed x)).toList, ?_, ends_call_noting p x s log, ?_⟩
  · cases hadmitted : admitted p.descriptor (.typed x) with
    | none => exact .inl rfl
    | some z =>
      obtain rfl := eq_of_admitted_typed hadmitted
      exact .inr rfl
  · -- Each client call ends as its direct call, and of those noting changes nothing else.
    have hnoted := ends_typedCall (p := p.noting) hp' hx hresults' p.kind
    rw [ends_call_noting] at hnoted
    refine hnoted.trans ?_
    rw [ends_typedCall hp hx hresults p.endpoint.kind]

/-! ## A deep argument -/

/-- The procedure of the router that echoes. -/
def echo : Procedure Untyped Unit Json Json :=
  (((ProcedureBuilder.start passthrough).withInput .any).withOutput .any).tryQuery fun v s => (.ok v, s)

theorem obtained_echoing : Loopback.echoing.Obtained :=
  .ofEntries ⟨passthrough⟩ Loopback.echoing.entries rfl
    (by simp [Loopback.echoing, Router.proper_leaf])

/-- The deepest argument whose echo leaves room for the reply comes back to a client as it does to
a direct caller. -/
theorem deepest_echo_agrees :
    Loopback.echoing.Obtained ∧ Loopback.echoing.resolve "echo" = .ok echo.endpoint ∧
      (Loopback.nested 125).depth + 1 = depthLimit ∧
      Carries echo.signature.input depthLimit (Loopback.nested 125) (Loopback.nested 125) ∧
      ResultsCarried echo (Loopback.nested 125) () ∧
      ∃ stub, Projects Loopback.echoing (loopback Loopback.echoing) "echo" () stub ∧
        ((stub.bind echo.signature).call (Loopback.nested 125)).ends () =
          (.ok (Loopback.nested 125), ()) := by
  have hvalid := Loopback.valid_nested 125
  have hdepth : (Loopback.nested 125).depth + 1 = depthLimit := by
    rw [Loopback.depth_nested]
    rfl
  have hresolve : Loopback.echoing.resolve "echo" = .ok echo.endpoint := by
    rw [Projection.resolve_eq_ok_iff]
    rfl
  have hx : Carries echo.signature.input depthLimit (Loopback.nested 125) (Loopback.nested 125) :=
    ⟨rfl, hvalid, by omega, Loopback.decodeJson_json hvalid⟩
  have hresults : ResultsCarried echo (Loopback.nested 125) () := by
    intro y w hy hw
    cases hy
    cases hw
    exact ⟨rfl, hvalid, by omega, Loopback.decodeJson_json hvalid⟩
  obtain ⟨stub, -, hstub, -, hagree, -⟩ :=
    typed_calls_agree obtained_echoing hresolve hx hresults []
  exact ⟨obtained_echoing, hresolve, hdepth, hx, hresults, stub, hstub,
    (hagree.results _ _).mpr rfl⟩

end TypedCalls

end GuardedCall
