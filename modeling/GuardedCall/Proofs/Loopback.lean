-- The law of the transport within one process: a result that came out of a
-- router comes back to the caller exactly if the reply around it is not too
-- deep for a text. A result that fills the depth of a text is lost on the way
-- back, although an argument of that depth gets through.
import GuardedCall.Adapter.Passthrough
import GuardedCall.Proofs.Replies
import GuardedCall.Proofs.Serving

namespace GuardedCall.Loopback

open GuardedCall.Json

variable {σ : Type}

/-! ## A router that echoes -/

/-- A router with one procedure, which lets every value pass and gives it back. -/
def echoing : Router Unit :=
  ⟨passthrough.name, [("echo", .leaf ((((ProcedureBuilder.start passthrough).withInput
    Untyped.any).withOutput Untyped.any).tryQuery fun v s => (.ok v, s)).endpoint)]⟩

theorem decodeJson_json {v : Json} (hv : v.Valid) : Typed.json.decodeJson v = .ok v := by
  show (Written.ofJson v).toJson.mapError _ = _
  rw [toJson_of_shows (shows_ofJson v) hv]
  rfl

theorem ends_call_echoing {v : Json} (hv : v.Valid) :
    (echoing.call "echo" v).ends () = (.ok v, ()) := by
  have hdecode : (⟨passthrough, .any, .any⟩ : Descriptor Untyped Json Json).decodeInput v =
      (Attempt.ofExcept (.ok v) : Attempt Unit MethodFault Json) := by
    unfold Descriptor.decodeInput Adapter.decode
    show Attempt.ofExcept (((Typed.json.decodeJson v).mapError _).mapError _) = _
    rw [decodeJson_json hv]
    rfl
  unfold Router.call
  show (Attempt.mapError _ (Attempt.onError _
    (Descriptor.callValueWith ⟨passthrough, .any, .any⟩ _ v))).ends () = _
  rw [Attempt.ends_mapError, Attempt.ends_onError]
  unfold Descriptor.callValueWith
  rw [hdecode]
  rfl

/-- Arrays within arrays, `n` of them within the outermost one. -/
def nested : Nat → Json
  | 0 => .array []
  | n + 1 => .array [nested n]

theorem depth_nested (n : Nat) : (nested n).depth = n + 1 := by
  induction n with
  | zero => rfl
  | succ n ih => simp [nested, depth, depthItems, ih]

theorem valid_nested (n : Nat) : (nested n).Valid := by
  induction n with
  | zero => trivial
  | succ n ih => exact ⟨ih, trivial⟩

/-! ## Results on their way back -/

/-- An argument that is not too deep arrives as it is, and what the client sees is the reply to
the call with it. -/
theorem ends_loopback_of_fits (r : Router σ) (path : String) {v : Json} (hv : v.Valid)
    (hd : v.depth ≤ depthLimit) (s : σ) :
    ((loopback r).call path v).ends s =
      (received (Router.replyTo ((r.call path v).ends s).1).bytes, ((r.call path v).ends s).2) :=
  ends_loopback r path v s (r.ends_serve_readable path (readBytes_bytes hv hd) s)

theorem ends_loopback_of_call {r : Router σ} {path : String} {v w : Json} {s s' : σ} (hv : v.Valid)
    (hd : v.depth ≤ depthLimit) (hcall : (r.call path v).ends s = (.ok w, s')) :
    ((loopback r).call path v).ends s = (received (Reply.ok w).bytes, s') := by
  rw [ends_loopback_of_fits r path hv hd, hcall]
  rfl

theorem received_ok {w : Json} (hw : w.Valid) (hd : w.depth < depthLimit) :
    received (Reply.ok w).bytes = .ok w := by
  unfold received
  rw [Reply.ofBytes_ok hw hd]
  rfl

/-- The fault of a result that is too deep: a fault of the text, which counts as one of the
transport. -/
def TooDeepFault (w : Json) (f : ClientFault) : Prop :=
  f.kind = .transport ∧
    ∃ n, f = .json ((⟨.tooDeep, n⟩ : ReadFault).message (chars (Reply.ok w).toJson))

theorem received_tooDeep {w : Json} (hw : w.Valid) (hd : depthLimit ≤ w.depth) :
    ∃ f, received (Reply.ok w).bytes = .error f ∧ TooDeepFault w f := by
  obtain ⟨n, hn⟩ := Reply.ofBytes_ok_tooDeep hw hd
  unfold received
  rw [hn]
  exact ⟨_, rfl, rfl, n, rfl⟩

/-- The call that succeeded had a procedure at its path. -/
theorem resolve_of_call {r : Router σ} {path : String} {v w : Json} {s s' : σ}
    (hcall : (r.call path v).ends s = (.ok w, s')) : ∃ e, r.resolve path = .ok e := by
  unfold Router.call at hcall
  rw [Attempt.ends_bind, Attempt.ends_ofExcept] at hcall
  rcases h : r.resolve path with f | e
  · rw [h] at hcall
    cases hcall
  · exact ⟨e, rfl⟩

/-- A call that succeeds on the server comes back with its result exactly if the result leaves
room for the reply around it, and else with a fault of the transport. Either way the procedure at
the path was invoked once, with the argument, and the state is the one that the call left. -/
theorem results_come_back_iff {r : Router σ} {path : String} {v w : Json} {s s' : σ} (hv : v.Valid)
    (hd : v.depth ≤ depthLimit) (hw : w.Valid) (hcall : (r.call path v).ends s = (.ok w, s')) :
    (((loopback r).call path v).ends s = (.ok w, s') ↔ w.depth < depthLimit) ∧
      (depthLimit ≤ w.depth → ∃ f, ((loopback r).call path v).ends s = (.error f, s') ∧
        TooDeepFault w f) ∧
      ∃ e, r.resolve path = .ok e ∧ ∀ log, ((loopback r.noting).call path v).ends (s, log) =
        ((((loopback r).call path v).ends s).1, (s', log ++ [(e, v)])) := by
  have hback := ends_loopback_of_call hv hd hcall
  refine ⟨?_, ?_, ?_⟩
  · rw [hback]
    constructor
    · intro h
      by_contra hdeep
      obtain ⟨f, hf, -⟩ := received_tooDeep hw (not_lt.mp hdeep)
      rw [hf] at h
      cases congrArg Prod.fst h
    · intro hlt
      rw [received_ok hw hlt]
  · intro hdeep
    obtain ⟨f, hf, hfault⟩ := received_tooDeep hw hdeep
    exact ⟨f, by rw [hback, hf], hfault⟩
  · -- The noting router makes the same call, so its transport takes the same way.
    obtain ⟨e, he⟩ := resolve_of_call hcall
    refine ⟨e, he, fun log => ?_⟩
    have hnoting : (r.noting.call path v).ends (s, log) = (.ok w, (s', log ++ [(e, v)])) := by
      rw [Router.ends_call_noting, hcall, Router.invoked, he]
    rw [hback, ends_loopback_of_call hv hd hnoting]

/-- An array that leaves room for just the reply comes back from the router that echoes. -/
theorem deepest_echo_comes_back :
    (nested 125).Valid ∧ (nested 125).depth + 1 = depthLimit ∧
      (echoing.call "echo" (nested 125)).ends () = (.ok (nested 125), ()) ∧
      ((loopback echoing).call "echo" (nested 125)).ends () = (.ok (nested 125), ()) := by
  have hv := valid_nested 125
  have hd : (nested 125).depth + 1 = depthLimit := by rw [depth_nested]; rfl
  have hlt : (nested 125).depth < depthLimit := by omega
  have hcall := ends_call_echoing hv
  exact ⟨hv, hd, hcall, (results_come_back_iff hv hlt.le hv hcall).1.mpr hlt⟩

/-- An array that nests as deep as a text may is echoed by the router, and the caller of the
transport sees a fault of the transport instead. -/
theorem deep_echo_is_lost :
    (nested 126).Valid ∧ (nested 126).depth = depthLimit ∧
      (echoing.call "echo" (nested 126)).ends () = (.ok (nested 126), ()) ∧
      ∃ f, ((loopback echoing).call "echo" (nested 126)).ends () = (.error f, ()) ∧
        f.kind = .transport := by
  have hv := valid_nested 126
  have hd : (nested 126).depth = depthLimit := depth_nested 126
  have hcall := ends_call_echoing hv
  obtain ⟨f, hf, hkind, -⟩ := received_tooDeep hv hd.ge
  exact ⟨hv, hd, hcall, f, by rw [ends_loopback_of_call hv hd.le hcall, hf], hkind⟩

end GuardedCall.Loopback
