-- The law of strings in JSON texts: whatever characters a string has, its
-- quoted text reads back as the string, and reading stops behind the quote.
import GuardedCall.Json.Printer
import GuardedCall.Json.Reader

namespace GuardedCall.Json

/-! ## One escape at the front -/

theorem readChars_quote (rest : List Char) (n : Nat) (seen : List Char) :
    readChars ('"' :: rest) n seen = .ok (String.ofList seen.reverse, ⟨rest, n + 1⟩) := by
  simp [readChars]

theorem readChars_short {c plain : Char} (hu : c ≠ 'u') (h : shortEscape? c = some plain)
    (rest : List Char) (n : Nat) (seen : List Char) :
    readChars ('\\' :: c :: rest) n seen = readChars rest (n + 2) (plain :: seen) := by
  rw [readChars.eq_def]
  simp [hu, h]

theorem readChars_unit {a b c d : Char} {u : Nat} (h : hexUnit? a b c d = some u)
    (hu : u < 0xD800) (rest : List Char) (n : Nat) (seen : List Char) :
    readChars ('\\' :: 'u' :: a :: b :: c :: d :: rest) n seen =
      readChars rest (n + 6) (Char.ofNat u :: seen) := by
  have hfirst : isFirstHalf u = false := by simp [isFirstHalf]; omega
  have hsecond : isSecondHalf u = false := by simp [isSecondHalf]; omega
  rw [readChars.eq_def]
  simp [h, hfirst, hsecond]

theorem readChars_plain {c : Char} (hq : c ≠ '"') (hb : c ≠ '\\') (hc : ¬c < ' ')
    (rest : List Char) (n : Nat) (seen : List Char) :
    readChars (c :: rest) n seen = readChars rest (n + c.utf8Size) (c :: seen) := by
  rw [readChars.eq_def]
  simp [hb, hc]

/-! ## One character -/

/-- The two last digits of the escape of a control character give back its code point. -/
theorem hexUnit?_control {n : Nat} (h : n < 32) :
    hexUnit? '0' '0' (hexDigit (n / 16)) (hexDigit n) = some n := by
  revert n
  decide

theorem toNat_of_lt_space {c : Char} (h : c < ' ') : c.toNat < 32 := h

/-- A character is written as an escape of one letter, by its code point or as itself. -/
theorem charText_cases (c : Char) :
    (∃ e, charText c = ['\\', e] ∧ e ≠ 'u' ∧ shortEscape? e = some c) ∨
      (c < ' ' ∧ charText c =
        ['\\', 'u', '0', '0', hexDigit (c.toNat / 16), hexDigit c.toNat]) ∨
      (c ≠ '"' ∧ c ≠ '\\' ∧ ¬c < ' ' ∧ charText c = [c]) := by
  unfold charText
  -- The escapes of one letter come first in the printer, one branch for each.
  iterate 7
    split
    · rename_i h
      subst h
      exact .inl ⟨_, rfl, by decide, by decide⟩
  rename_i hquote hbackslash _ _ _ _ _
  split
  · rename_i hcontrol
    exact .inr (.inl ⟨hcontrol, rfl⟩)
  · rename_i hcontrol
    exact .inr (.inr ⟨hquote, hbackslash, hcontrol, rfl⟩)

/-- The text of a character reads as the character, whatever follows. -/
theorem readChars_charText (c : Char) (rest : List Char) (n : Nat) (seen : List Char) :
    ∃ m, readChars (charText c ++ rest) n seen = readChars rest m (c :: seen) := by
  rcases charText_cases c with ⟨e, htext, hu, he⟩ | ⟨hcontrol, htext⟩ | ⟨hq, hb, hc, htext⟩
  · rw [htext]
    exact ⟨_, readChars_short hu he rest n seen⟩
  · have hn := toNat_of_lt_space hcontrol
    have hstep := readChars_unit (hexUnit?_control hn) (by omega) rest n seen
    rw [Char.ofNat_toNat] at hstep
    rw [htext]
    exact ⟨_, hstep⟩
  · rw [htext]
    exact ⟨_, readChars_plain hq hb hc rest n seen⟩

/-! ## Whole strings -/

theorem readChars_flatMap (cs rest : List Char) (n : Nat) (seen : List Char) :
    ∃ m, readChars (cs.flatMap charText ++ '"' :: rest) n seen =
      .ok (String.ofList (seen.reverse ++ cs), ⟨rest, m⟩) := by
  induction cs generalizing n seen with
  | nil => exact ⟨n + 1, by simp [readChars_quote]⟩
  | cons c cs ih =>
    rw [List.flatMap_cons, List.append_assoc]
    obtain ⟨k, hk⟩ := readChars_charText c (cs.flatMap charText ++ '"' :: rest) n seen
    obtain ⟨m, hm⟩ := ih k (c :: seen)
    exact ⟨m, by rw [hk, hm]; simp⟩

/-- The characters behind the opening quote of a string read as the string. -/
theorem readChars_string (s : String) (rest : List Char) (n : Nat) :
    ∃ m, readChars (s.toList.flatMap charText ++ '"' :: rest) n [] = .ok (s, ⟨rest, m⟩) := by
  obtain ⟨m, hm⟩ := readChars_flatMap s.toList rest n []
  exact ⟨m, by rw [hm]; simp⟩

theorem stringText_append (s : String) (rest : List Char) :
    stringText s ++ rest = '"' :: (s.toList.flatMap charText ++ '"' :: rest) := by
  simp [stringText]

end GuardedCall.Json
