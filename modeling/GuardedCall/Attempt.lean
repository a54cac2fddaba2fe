-- Attempts: computations that may change a state, may log events and may
-- fail. A failure keeps the state and the events of what came before it.
import GuardedCall.Log.Event

namespace GuardedCall

/-- What a computation leaves behind. -/
structure Outcome (σ α : Type) where
  result : α
  state : σ
  /-- What was logged, in order. -/
  events : List LogEvent

/-- A computation on a state of `σ` that fails with an `ε` or gives an `α`. -/
def Attempt (σ ε α : Type) : Type := σ → Outcome σ (Except ε α)

namespace Attempt

variable {σ ε ε' α β : Type}

def run (x : Attempt σ ε α) (s : σ) : Outcome σ (Except ε α) := x s

def succeed (a : α) : Attempt σ ε α := fun s => ⟨.ok a, s, []⟩

def fail (e : ε) : Attempt σ ε α := fun s => ⟨.error e, s, []⟩

/-- One attempt and, unless it fails, another one with its result. -/
def andThen (x : Attempt σ ε α) (f : α → Attempt σ ε β) : Attempt σ ε β := fun s =>
  match x s with
  | ⟨.error e, s, events⟩ => ⟨.error e, s, events⟩
  | ⟨.ok a, s, events⟩ =>
    let o := f a s
    ⟨o.result, o.state, events ++ o.events⟩

instance : Monad (Attempt σ ε) where
  pure := succeed
  bind := andThen

/-- What has a result without a state. -/
def ofExcept (r : Except ε α) : Attempt σ ε α := fun s => ⟨r, s, []⟩

def log (event : LogEvent) : Attempt σ ε Unit := fun s => ⟨.ok (), s, [event]⟩

/-- The state changes and something comes out of it. -/
def change (f : σ → Except ε α × σ) : Attempt σ ε α := fun s => ⟨(f s).1, (f s).2, []⟩

/-- The failures of another type. -/
def mapError (f : ε → ε') (x : Attempt σ ε α) : Attempt σ ε' α := fun s =>
  let o := x s
  ⟨o.result.mapError f, o.state, o.events⟩

/-- Something is logged about a failure. -/
def onError (event : ε → LogEvent) (x : Attempt σ ε α) : Attempt σ ε α := fun s =>
  match x s with
  | ⟨.error e, s, events⟩ => ⟨.error e, s, events ++ [event e]⟩
  | o => o

/-- The result, be it a failure, as one that cannot fail. -/
def attempt (x : Attempt σ ε α) : Attempt σ ε' (Except ε α) := fun s =>
  let o := x s
  ⟨.ok o.result, o.state, o.events⟩

/-- The state. -/
def current : Attempt σ ε σ := fun s => ⟨.ok s, s, []⟩

/-- An attempt on a state of its own, which comes out beside its result. -/
def within {τ : Type} (s : σ) (x : Attempt σ ε α) : Attempt τ ε (α × σ) := fun t =>
  let o := x s
  ⟨o.result.map (·, o.state), t, o.events⟩

/-! ## Outcomes -/

@[simp] theorem run_pure (a : α) (s : σ) :
    (pure a : Attempt σ ε α).run s = ⟨.ok a, s, []⟩ := rfl

/-- Behind a failure nothing is attempted. -/
theorem run_bind_error {x : Attempt σ ε α} (f : α → Attempt σ ε β) {s s' : σ} {e : ε}
    {events : List LogEvent} (h : x.run s = ⟨.error e, s', events⟩) :
    (x >>= f).run s = ⟨.error e, s', events⟩ := by
  show andThen x f s = _
  simp only [run] at h
  simp [andThen, h]

/-- Behind a result the next attempt starts from the state that was left. -/
theorem run_bind_ok {x : Attempt σ ε α} (f : α → Attempt σ ε β) {s s' : σ} {a : α}
    {events : List LogEvent} (h : x.run s = ⟨.ok a, s', events⟩) :
    (x >>= f).run s =
      ⟨((f a).run s').result, ((f a).run s').state, events ++ ((f a).run s').events⟩ := by
  show andThen x f s = _
  simp only [run] at h
  simp [andThen, h, run]

/-- Attempts may be regrouped, and an attempt at which nothing happens may be left out. -/
instance : LawfulMonad (Attempt σ ε) := by
  refine LawfulMonad.mk' _ ?id_map ?pure_bind ?bind_assoc
  case id_map =>
    intro α x
    funext s
    show andThen x (fun a => succeed a) s = x s
    unfold andThen
    rcases x s with ⟨_ | _, _, _⟩ <;> simp [succeed]
  case pure_bind =>
    intro α β a f
    funext s
    show andThen (succeed a) f s = f a s
    simp [andThen, succeed]
  case bind_assoc =>
    intro α β γ x f g
    funext s
    show andThen (andThen x f) g s = andThen x (fun a => andThen (f a) g) s
    unfold andThen
    rcases x s with ⟨_ | a, s', _⟩
    · rfl
    · rcases h : f a s' with ⟨_ | _, _, _⟩ <;> simp [h]

@[simp] theorem run_map (f : α → β) (x : Attempt σ ε α) (s : σ) :
    (f <$> x).run s = ⟨(x.run s).result.map f, (x.run s).state, (x.run s).events⟩ := by
  show (andThen x fun a => succeed (f a)).run s = _
  unfold run andThen
  rcases x s with ⟨_ | _, _, _⟩ <;> simp [succeed, Except.map]

@[simp] theorem run_attempt (x : Attempt σ ε α) (s : σ) :
    (x.attempt : Attempt σ ε' _).run s = ⟨.ok (x.run s).result, (x.run s).state, (x.run s).events⟩ :=
  rfl

/-! ## Renamed failures -/

@[simp] theorem except_mapError_ok (f : ε → ε') (a : α) :
    (Except.ok a : Except ε α).mapError f = .ok a := rfl

@[simp] theorem except_mapError_error (f : ε → ε') (e : ε) :
    (Except.error e : Except ε α).mapError f = .error (f e) := rfl

/-! ## Outcomes without the events -/

/-- The result and the state that are left, whatever was logged. -/
def ends (x : Attempt σ ε α) (s : σ) : Except ε α × σ := ((x.run s).result, (x.run s).state)

@[simp] theorem ends_pure (a : α) (s : σ) : (pure a : Attempt σ ε α).ends s = (.ok a, s) := rfl

@[simp] theorem ends_fail (e : ε) (s : σ) : (fail e : Attempt σ ε α).ends s = (.error e, s) := rfl

@[simp] theorem ends_ofExcept (r : Except ε α) (s : σ) : (ofExcept r).ends s = (r, s) := rfl

@[simp] theorem ends_log (event : LogEvent) (s : σ) :
    (log event : Attempt σ ε Unit).ends s = (.ok (), s) := rfl

@[simp] theorem ends_change (f : σ → Except ε α × σ) (s : σ) : (change f).ends s = f s := rfl

@[simp] theorem ends_mapError (f : ε → ε') (x : Attempt σ ε α) (s : σ) :
    (x.mapError f).ends s = ((x.ends s).1.mapError f, (x.ends s).2) := rfl

@[simp] theorem ends_attempt (x : Attempt σ ε α) (s : σ) :
    (x.attempt : Attempt σ ε' _).ends s = (.ok (x.ends s).1, (x.ends s).2) := rfl

@[simp] theorem ends_within {τ : Type} (s : σ) (x : Attempt σ ε α) (t : τ) :
    (within s x).ends t = ((x.ends s).1.map (·, (x.ends s).2), t) := rfl

@[simp] theorem ends_onError (event : ε → LogEvent) (x : Attempt σ ε α) (s : σ) :
    (x.onError event).ends s = x.ends s := by
  unfold ends run onError
  rcases x s with ⟨_ | _, _, _⟩ <;> rfl

@[simp] theorem ends_map (f : α → β) (x : Attempt σ ε α) (s : σ) :
    (f <$> x).ends s = ((x.ends s).1.map f, (x.ends s).2) := by
  simp [ends]

theorem ends_bind (x : Attempt σ ε α) (f : α → Attempt σ ε β) (s : σ) :
    (x >>= f).ends s =
      match x.ends s with
      | (.ok a, s') => (f a).ends s'
      | (.error e, s') => (.error e, s') := by
  show (andThen x f).ends s = _
  unfold ends run andThen
  rcases x s with ⟨_ | _, _, _⟩ <;> rfl

end Attempt

end GuardedCall
