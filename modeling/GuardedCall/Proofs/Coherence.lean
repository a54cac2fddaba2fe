-- The law of reasons. Where an adapter rejects a value it can also say why, and
-- nowhere else, so no method falls back on a detail of its own. For documents the
-- verdict and the list of violations come from two traversals that agree.
import GuardedCall.Adapter.ByDocument
import GuardedCall.Adapter.ByType
import GuardedCall.Proofs.Boundary
import GuardedCall.Proofs.NumberText
import GuardedCall.Proofs.Verdicts

namespace GuardedCall

open GuardedCall.Json (allDigits_toDigits chars doubleLayout numberText wholeText)
open GuardedCall.Schema (Violation)

namespace Coherence

variable {S : Type → Type} {σ α β : Type}

/-! ## Documents -/

open Boundary

/-- A wording starts, and not as the fallbacks of the methods do. -/
def Apart (s : String) : Prop := ∃ c cs, s.toList = c :: cs ∧ c ≠ 'v'

theorem Apart.append {s : String} (h : Apart s) (t : String) : Apart (s ++ t) := by
  obtain ⟨c, cs, hs, hc⟩ := h
  exact ⟨c, cs ++ t.toList, by rw [String.toList_append, hs, List.cons_append], hc⟩

theorem Apart.joinWith {s : String} (h : Apart s) (separator : String) (rest : List String) :
    Apart (Text.joinWith separator (s :: rest)) := by
  cases rest with
  | nil => rwa [Text.joinWith, String.intercalate_singleton]
  | cons t rest =>
    rw [Text.joinWith, String.intercalate_cons_cons, String.append_assoc]
    exact h.append _

end Coherence

end GuardedCall
