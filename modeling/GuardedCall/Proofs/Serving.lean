-- What a server answers and which procedures it invokes for it. A router can
-- note every invocation of its procedures beside its state: nothing else
-- changes, and what is noted tells how often and with what each procedure was
-- invoked.
import GuardedCall.Client.Transport

namespace GuardedCall

variable {σ τ ε α : Type}

namespace Attempt

/-- The same attempt on a state that has a further part, which it leaves alone. -/
def beside (x : Attempt σ ε α) : Attempt (σ × τ) ε α := fun t =>
  let o := x t.1
  ⟨o.result, (o.state, t.2), o.events⟩

@[simp] theorem ends_beside (x : Attempt σ ε α) (s : σ) (t : τ) :
    (x.beside).ends (s, t) = ((x.ends s).1, ((x.ends s).2, t)) := rfl

def note (t : τ) : Attempt (σ × List τ) ε Unit := .change fun s => (.ok (), (s.1, s.2 ++ [t]))

end Attempt

/-- A procedure and the value that it was invoked with. -/
abbrev Invocation (σ : Type) := Endpoint σ × Json

/-- The procedure that also notes every invocation. -/
def Endpoint.noting (e : Endpoint σ) : Endpoint (σ × List (Invocation σ)) where
  kind := e.kind
  adapter := e.adapter
  invoke v := do
    .note (e, v)
    (e.invoke v).beside

/-- The router whose procedures also note every invocation. -/
def Router.noting (r : Router σ) : Router (σ × List (Invocation σ)) :=
  ⟨r.defaultAdapter, Tree.mapEntries (fun _ e => e.noting) id "" r.entries⟩

/-- The invocations of a call: one, of the procedure at the path, if there is one. -/
def Router.invoked (r : Router σ) (path : String) (v : Json) : List (Invocation σ) :=
  match r.resolve path with
  | .ok e => [(e, v)]
  | .error _ => []

namespace Router

theorem resolve_noting (r : Router σ) (path : String) :
    r.noting.resolve path = (r.resolve path).map Endpoint.noting := by
  have hentry : r.noting.entry = Tree.mapPaths (fun _ e => e.noting) id "" r.entry := by
    simp [noting, entry, Tree.mapPaths]
  unfold resolve
  rw [hentry, Tree.leaf?_mapPaths]
  cases r.entry.leaf? (Path.segments path) <;> rfl

/-- A call of the noting router is the same call, and what it notes is what the call invokes. -/
theorem ends_call_noting (r : Router σ) (path : String) (v : Json) (s : σ)
    (log : List (Invocation σ)) :
    (r.noting.call path v).ends (s, log) =
      (((r.call path v).ends s).1, (((r.call path v).ends s).2, log ++ r.invoked path v)) := by
  unfold call invoked
  rw [resolve_noting]
  simp only [Attempt.ends_bind, Attempt.ends_ofExcept, Attempt.ends_log]
  cases r.resolve path with
  | error f => simp [Except.map]
  | ok e => simp [Except.map, Endpoint.noting, Attempt.ends_bind, Attempt.note]

/-! ## Replies -/

/-- The reply to a call that ended with this result. -/
def replyTo : Except RouterFault Json → Reply
  | .ok w => .ok w
  | .error f => .error f.kind f.message

theorem ends_reply (r : Router σ) (path : String) (v : Json) (s : σ) :
    (r.reply path v : Attempt σ ε Reply).ends s =
      (.ok (replyTo ((r.call path v).ends s).1), ((r.call path v).ends s).2) := by
  unfold reply
  rw [Attempt.ends_bind, Attempt.ends_attempt]
  rcases (r.call path v).ends s with ⟨f | w, s'⟩
  · simp [replyTo, Except.map]
  · simp [replyTo]

/-- A request that is no JSON is answered without a call. -/
theorem ends_serve_unreadable (r : Router σ) (path : String) {request : List UInt8} {m : String}
    (h : Json.readBytes request = .error m) (s : σ) :
    (r.serve path request : Attempt σ ε _).ends s =
      (.ok (Reply.error .invalidInput ("request is not valid JSON: " ++ m)).bytes, s) := by
  unfold serve
  rw [h]
  rfl

/-- A request that reads as a value is answered with what a call with the value gives. -/
theorem ends_serve_readable (r : Router σ) (path : String) {request : List UInt8} {v : Json}
    (h : Json.readBytes request = .ok v) (s : σ) :
    (r.serve path request : Attempt σ ε _).ends s =
      (.ok (replyTo ((r.call path v).ends s).1).bytes, ((r.call path v).ends s).2) := by
  unfold serve
  rw [h]
  simp only [Attempt.ends_bind, ends_reply]
  rfl

end Router

/-- What a client makes of the bytes of a reply. -/
def received (bytes : List UInt8) : Except ClientFault Json := Reply.ofBytes bytes >>= Reply.result

/-- The transport within one process gives what a client makes of the bytes that the server
answers to the bytes of the argument. -/
theorem ends_loopback (r : Router σ) (path : String) (v : Json) (s : σ) {reply : List UInt8} {s' : σ}
    (h : (r.serve path v.bytes : Attempt σ ClientFault _).ends s = (.ok reply, s')) :
    ((loopback r).call path v).ends s = (received reply, s') := by
  unfold loopback
  simp only [Attempt.ends_bind, Attempt.ends_log, Attempt.ends_ofExcept, h]
  rfl

end GuardedCall
