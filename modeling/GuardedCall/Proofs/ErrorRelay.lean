-- The law of failed calls. Whatever goes wrong on the server, the client sees
-- the same kind and the same message, for every router, request and state: a
-- request that is no JSON reaches no procedure, and nothing else than such a
-- request or a failed call makes a client see a failure of the server.
import GuardedCall.Proofs.Replies
import GuardedCall.Proofs.Serving

namespace GuardedCall.ErrorRelay

variable {σ ε : Type}

/-! ## Where a failure comes from -/

/-- Why a call of a router fails, and the kind of the fault that is the reason. -/
inductive Origin (r : Router σ) (path : String) (v : Json) (s : σ) :
    RouterFault → FailureKind → Prop
  | notFound (h : r.resolve path = .error (.notFound path)) :
    Origin r path v s (.notFound path) .notFound
  | procedure {e : Endpoint σ} {source : MethodFault} (he : r.resolve path = .ok e)
    (h : ((e.invoke v).ends s).1 = .error source) :
    Origin r path v s (.procedure path source) source.kind

/-- What a client has to be told about a request: the kind and the message. -/
inductive Refusal (r : Router σ) (path : String) (request : List UInt8) (s : σ) :
    FailureKind → String → Prop
  | unreadable {m : String} (h : Json.readBytes request = .error m) :
    Refusal r path request s .invalidInput ("request is not valid JSON: " ++ m)
  | failed {v : Json} {f : RouterFault} (hv : Json.readBytes request = .ok v)
    (h : ((r.call path v).ends s).1 = .error f) : Refusal r path request s f.kind f.message

theorem resolve_error {r : Router σ} {path : String} {f : RouterFault}
    (h : r.resolve path = .error f) : f = .notFound path := by
  unfold Router.resolve at h
  split at h
  · cases h
  · exact (Except.error.inj h).symm

/-- Every failed call has its reason. -/
theorem origin_of_call {r : Router σ} {path : String} {v : Json} {s : σ} {f : RouterFault}
    (h : ((r.call path v).ends s).1 = .error f) : ∃ k, Origin r path v s f k := by
  unfold Router.call at h
  simp only [Attempt.ends_bind, Attempt.ends_ofExcept, Attempt.ends_log] at h
  rcases hr : r.resolve path with g | e
  · rw [hr] at h
    obtain rfl := resolve_error hr
    obtain rfl := Except.error.inj h
    exact ⟨_, .notFound hr⟩
  · rw [hr] at h
    simp only [Attempt.ends_mapError, Attempt.ends_onError] at h
    rcases hi : ((e.invoke v).ends s).1 with source | w
    · rw [hi] at h
      obtain rfl := Except.error.inj h
      exact ⟨_, .procedure hr hi⟩
    · rw [hi] at h
      cases h

theorem Origin.kind_eq {r : Router σ} {path : String} {v : Json} {s : σ} {f : RouterFault}
    {k : FailureKind} (h : Origin r path v s f k) : f.kind = k := by
  cases h <;> rfl

/-! ## What the client makes of a reply -/

theorem received_error (k : FailureKind) (m : String) :
    received (Reply.error k m).bytes = .error (.remote k m) := by
  unfold received
  rw [Reply.ofBytes_error]
  rfl

/-- A fault of a client that reads bytes is one of the text. -/
theorem ofBytes_eq_error {bytes : List UInt8} {f : ClientFault}
    (h : Reply.ofBytes bytes = .error f) : ∃ m, f = .json m := by
  unfold Reply.ofBytes Reply.ofText at h
  split at h
  · generalize replyCodec.readText _ = x at h
    rcases x with g | x
    · exact ⟨_, (Except.error.inj h).symm⟩
    · cases h
  · exact ⟨_, (Except.error.inj h).symm⟩

/-- No result is taken for a failure of the server. -/
theorem received_ok_ne_remote (w : Json) (k : FailureKind) (m : String) :
    received (Reply.ok w).bytes ≠ .error (.remote k m) := by
  intro h
  unfold received at h
  rcases hr : Reply.ofBytes (Reply.ok w).bytes with f | r
  · rw [hr] at h
    obtain ⟨n, rfl⟩ := ofBytes_eq_error hr
    cases Except.error.inj h
  · rw [hr] at h
    cases r with
    | ok u => cases h
    | error k' m' => exact Reply.ofBytes_ok_ne_error w k' m' hr

/-! ## Failures on their way to the client -/

theorem refusal_unreadable {r : Router σ} {path : String} {request : List UInt8} {s : σ} {m : String}
    (h : Json.readBytes request = .error m) (k : FailureKind) (n : String) :
    Refusal r path request s k n ↔ k = .invalidInput ∧ n = "request is not valid JSON: " ++ m := by
  constructor
  · intro hr
    cases hr with
    | unreadable h' =>
      obtain rfl := Except.error.inj (h.symm.trans h')
      exact ⟨rfl, rfl⟩
    | failed hv => cases h.symm.trans hv
  · rintro ⟨rfl, rfl⟩
    exact .unreadable h

theorem refusal_readable {r : Router σ} {path : String} {request : List UInt8} {s : σ} {v : Json}
    (h : Json.readBytes request = .ok v) (k : FailureKind) (n : String) :
    Refusal r path request s k n ↔
      ∃ f, ((r.call path v).ends s).1 = .error f ∧ k = f.kind ∧ n = f.message := by
  constructor
  · intro hr
    cases hr with
    | unreadable h' => cases h.symm.trans h'
    | failed hv hf =>
      obtain rfl := Except.ok.inj (h.symm.trans hv)
      exact ⟨_, hf, rfl, rfl⟩
  · rintro ⟨f, hf, rfl, rfl⟩
    exact .failed h hf

theorem received_error_eq_iff (k k' : FailureKind) (m m' : String) :
    received (Reply.error k m).bytes = .error (.remote k' m') ↔ k' = k ∧ m' = m := by
  rw [received_error]
  constructor
  · intro h
    cases h
    exact ⟨rfl, rfl⟩
  · rintro ⟨rfl, rfl⟩
    rfl

/-- Of the reply to a call the client sees a failure exactly if the call failed, and that one. -/
theorem received_replyTo (x : Except RouterFault Json) (k : FailureKind) (m : String) :
    received (Router.replyTo x).bytes = .error (.remote k m) ↔
      ∃ f, x = .error f ∧ k = f.kind ∧ m = f.message := by
  cases x with
  | error f =>
    rw [Router.replyTo, received_error_eq_iff]
    constructor
    · intro h
      exact ⟨f, rfl, h⟩
    · rintro ⟨g, hg, h⟩
      rwa [Except.error.inj hg]
  | ok w =>
    constructor
    · intro h
      exact absurd h (received_ok_ne_remote w k m)
    · rintro ⟨f, hf, -⟩
      cases hf

/-- The server answers every request with bytes, and those tell the client of a failure exactly
if the request is no JSON or the call fails: with the kind and the message of the failure, where
the kind is that of its reason. A request that is no JSON invokes no procedure and leaves the
state alone. -/
theorem failures_arrive_as_they_are (r : Router σ) (path : String) (request : List UInt8) (s : σ) :
    ∃ reply s',
      (∀ ε : Type, (r.serve path request : Attempt σ ε _).ends s = (.ok reply, s')) ∧
      (∀ k m, received reply = .error (.remote k m) ↔ Refusal r path request s k m) ∧
      (∀ m, Json.readBytes request = .error m →
        received reply = .error (.remote .invalidInput ("request is not valid JSON: " ++ m)) ∧
        ∀ (ε : Type) log, (r.noting.serve path request : Attempt _ ε _).ends (s, log) =
          (.ok reply, (s, log))) ∧
      (∀ v f, Json.readBytes request = .ok v → ((r.call path v).ends s).1 = .error f →
        received reply = .error (.remote f.kind f.message) ∧ s' = ((r.call path v).ends s).2 ∧
        ∃ k, Origin r path v s f k ∧ f.kind = k ∧ (ClientFault.remote f.kind f.message).kind = k) ∧
      (∀ v : Json, v.bytes = request → ((loopback r).call path v).ends s = (received reply, s')) := by
  rcases hread : Json.readBytes request with m | v
  · refine ⟨_, s, fun ε => r.ends_serve_unreadable path hread s, ?_, ?_, ?_, ?_⟩
    · intro k n
      rw [refusal_unreadable hread, received_error_eq_iff]
    · intro m' hm'
      obtain rfl := Except.error.inj hm'
      exact ⟨received_error _ _, fun ε log => r.noting.ends_serve_unreadable path hread (s, log)⟩
    · intro v f hv
      cases hv
    · rintro v rfl
      exact ends_loopback r path v s (r.ends_serve_unreadable path hread s)
  · refine ⟨_, _, fun ε => r.ends_serve_readable path hread s, ?_, ?_, ?_, ?_⟩
    · intro k n
      rw [refusal_readable hread, received_replyTo]
    · intro m hm
      cases hm
    · intro u f hu hf
      obtain rfl := Except.ok.inj hu
      obtain ⟨k, hk⟩ := origin_of_call hf
      exact ⟨(received_replyTo _ _ _).mpr ⟨f, hf, rfl, rfl⟩, rfl, k, hk, hk.kind_eq, hk.kind_eq⟩
    · rintro u rfl
      exact ends_loopback r path u s (r.ends_serve_readable path hread s)

end GuardedCall.ErrorRelay
