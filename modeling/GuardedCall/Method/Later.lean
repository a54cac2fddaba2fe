-- Work that completes later: it goes on in steps on a state and may wait in
-- between. Waiting takes nothing away from what comes out.
namespace GuardedCall

/-- Work on a state of `σ` that completes with an `α`. -/
inductive Later (σ α : Type) where
  /-- The work is done. -/
  | done (result : α)
  /-- The state changes, and the work goes on with what it was before. -/
  | step (change : σ → σ) (rest : σ → Later σ α)
  /-- The work waits and then goes on. -/
  | pause (rest : Later σ α)

namespace Later

variable {σ α : Type}

/-- The work up to its end: what comes out, and the state that it leaves. -/
def finish : Later σ α → σ → α × σ
  | .done x, s => (x, s)
  | .step change rest, s => (rest s).finish (change s)
  | .pause rest, s => rest.finish s

/-- Work that is done in one step. -/
def ofFunction (f : σ → α × σ) : Later σ α :=
  .step (fun s => (f s).2) fun s => .done (f s).1

end Later

end GuardedCall
