-- The law of texts as bytes: what is written as UTF-8 reads back as the same
-- characters, and no byte is left over. Nothing else reads without a rest.
import GuardedCall.Text.Utf8

namespace GuardedCall.Text.Utf8

/-! ## One character at the front -/

theorem decodeFrom_one {a : UInt8} (h : a < 0x80) (rest : List UInt8) (seen : List Char) :
    decodeFrom (a :: rest) seen = decodeFrom rest (Char.ofNat a.toNat :: seen) := by
  cases rest with
  | nil => simp [decodeFrom, h]
  | cons b rest => rw [decodeFrom.eq_def]; simp [h]

theorem decodeFrom_two {a b : UInt8} {n : Nat} (ha : ¬a < 0x80) (h : two? a b = some n)
    (rest : List UInt8) (seen : List Char) :
    decodeFrom (a :: b :: rest) seen = decodeFrom rest (Char.ofNat n :: seen) := by
  simp [decodeFrom, ha, h]

theorem decodeFrom_three {a b c : UInt8} {n : Nat} (ha : ¬a < 0x80) (hab : two? a b = none)
    (h : three? a b c = some n) (rest : List UInt8) (seen : List Char) :
    decodeFrom (a :: b :: c :: rest) seen = decodeFrom rest (Char.ofNat n :: seen) := by
  simp [decodeFrom, ha, hab, h]

theorem decodeFrom_four {a b c d : UInt8} {n : Nat} (ha : ¬a < 0x80) (hab : two? a b = none)
    (habc : three? a b c = none) (h : four? a b c d = some n) (rest : List UInt8)
    (seen : List Char) :
    decodeFrom (a :: b :: c :: d :: rest) seen = decodeFrom rest (Char.ofNat n :: seen) := by
  simp [decodeFrom, ha, hab, habc, h]

/-! ## The bytes of one character -/

/-- The code points of characters: no halves of pairs. -/
theorem codePoint_lt (c : Char) :
    c.val.toNat < 0xD800 ∨ 0xDFFF < c.val.toNat ∧ c.val.toNat < 0x110000 := by
  simpa [UInt32.isValidChar, Nat.isValidChar] using c.valid

/-- The bytes of a character decode to the character, whatever stands around them. -/
theorem decodeFrom_char (c : Char) (rest : List UInt8) (seen : List Char) :
    decodeFrom (String.utf8EncodeChar c ++ rest) seen = decodeFrom rest (c :: seen) := by
  have hc : Char.ofNat c.val.toNat = c := Char.ofNat_toNat c
  have hvalid := codePoint_lt c
  generalize hv : c.val.toNat = v at hc hvalid
  unfold String.utf8EncodeChar
  simp only [hv]
  by_cases h1 : v ≤ 0x7f
  · have hbyte : (UInt8.ofNat v).toNat = v := by simp; omega
    have hlt : UInt8.ofNat v < 0x80 := by rw [UInt8.lt_iff_toNat_lt, hbyte]; simp; omega
    rw [if_pos h1, List.singleton_append, decodeFrom_one hlt, hbyte, hc]
  by_cases h2 : v ≤ 0x7ff
  · rw [if_neg h1, if_pos h2]
    refine (decodeFrom_two (n := v) ?_ ?_ rest seen).trans (by rw [hc])
    · simp [UInt8.lt_iff_toNat_lt]; omega
    · simp [two?, isTail, tailBits, UInt8.le_iff_toNat_le, UInt8.lt_iff_toNat_lt]; omega
  by_cases h3 : v ≤ 0xffff
  · rw [if_neg h1, if_neg h2, if_pos h3]
    refine (decodeFrom_three (n := v) ?_ ?_ ?_ rest seen).trans (by rw [hc])
    · simp [UInt8.lt_iff_toNat_lt]; omega
    · simp [two?, isTail, tailBits, UInt8.le_iff_toNat_le, UInt8.lt_iff_toNat_lt]; omega
    · simp [three?, isTail, tailBits, UInt8.le_iff_toNat_le, UInt8.lt_iff_toNat_lt]; omega
  · rw [if_neg h1, if_neg h2, if_neg h3]
    refine (decodeFrom_four (n := v) ?_ ?_ ?_ ?_ rest seen).trans (by rw [hc])
    · simp [UInt8.lt_iff_toNat_lt]; omega
    · simp [two?, isTail, tailBits, UInt8.le_iff_toNat_le, UInt8.lt_iff_toNat_lt]; omega
    · simp [three?, isTail, tailBits, UInt8.le_iff_toNat_le, UInt8.lt_iff_toNat_lt]; omega
    · simp [four?, isTail, tailBits, UInt8.le_iff_toNat_le, UInt8.lt_iff_toNat_lt]; omega

theorem val_ofNat {n : Nat} (h : n.isValidChar) : (Char.ofNat n).val.toNat = n := by
  unfold Char.ofNat
  rw [dif_pos h]
  rfl

theorem byte_of_toNat {n : Nat} {a : UInt8} (h : n = a.toNat) : UInt8.ofNat n = a := by
  rw [h]
  exact UInt8.ofNat_toNat

theorem encodeChar_one {a : UInt8} (h : a < 0x80) :
    String.utf8EncodeChar (Char.ofNat a.toNat) = [a] := by
  have ha : a.toNat < 128 := by simpa [UInt8.lt_iff_toNat_lt] using h
  have hv : (Char.ofNat a.toNat).val.toNat = a.toNat := val_ofNat (.inl (by omega))
  unfold String.utf8EncodeChar
  simp only [hv]
  rw [if_pos (by omega), UInt8.ofNat_toNat]

theorem encodeChar_two {a b : UInt8} {n : Nat} (h : two? a b = some n) :
    String.utf8EncodeChar (Char.ofNat n) = [a, b] := by
  simp [two?, isTail, tailBits, UInt8.le_iff_toNat_le, UInt8.lt_iff_toNat_lt] at h
  obtain ⟨⟨ha, ha', hb, hb'⟩, hn⟩ := h
  have hv : (Char.ofNat n).val.toNat = n := val_ofNat (.inl (by omega))
  unfold String.utf8EncodeChar
  simp only [hv]
  rw [if_neg (by omega), if_pos (by omega), byte_of_toNat (a := a) (by omega),
    byte_of_toNat (a := b) (by omega)]

theorem encodeChar_three {a b c : UInt8} {n : Nat} (h : three? a b c = some n) :
    String.utf8EncodeChar (Char.ofNat n) = [a, b, c] := by
  simp [three?, isTail, tailBits, UInt8.le_iff_toNat_le, UInt8.lt_iff_toNat_lt] at h
  obtain ⟨⟨ha, ha', ⟨hb, hb'⟩, ⟨hc, hc'⟩, hlow, hpair⟩, hn⟩ := h
  have hv : (Char.ofNat n).val.toNat = n := val_ofNat (by unfold Nat.isValidChar; omega)
  unfold String.utf8EncodeChar
  simp only [hv]
  rw [if_neg (by omega), if_neg (by omega), if_pos (by omega), byte_of_toNat (a := a) (by omega),
    byte_of_toNat (a := b) (by omega), byte_of_toNat (a := c) (by omega)]

theorem encodeChar_four {a b c d : UInt8} {n : Nat} (h : four? a b c d = some n) :
    String.utf8EncodeChar (Char.ofNat n) = [a, b, c, d] := by
  simp [four?, isTail, tailBits, UInt8.le_iff_toNat_le, UInt8.lt_iff_toNat_lt] at h
  obtain ⟨⟨ha, ha', ⟨hb, hb'⟩, ⟨hc, hc'⟩, ⟨hd, hd'⟩, hlow, hhigh⟩, hn⟩ := h
  have hv : (Char.ofNat n).val.toNat = n := val_ofNat (by unfold Nat.isValidChar; omega)
  unfold String.utf8EncodeChar
  simp only [hv]
  rw [if_neg (by omega), if_neg (by omega), if_neg (by omega), byte_of_toNat (a := a) (by omega),
    byte_of_toNat (a := b) (by omega), byte_of_toNat (a := c) (by omega),
    byte_of_toNat (a := d) (by omega)]

/-! ## Whole texts -/

theorem decodeFrom_encode (cs seen : List Char) :
    decodeFrom (encode cs) seen = (seen.reverse ++ cs, true) := by
  unfold encode
  induction cs generalizing seen with
  | nil => simp [decodeFrom]
  | cons c cs ih => rw [List.flatMap_cons, decodeFrom_char, ih]; simp

/-- A text that is written reads back. -/
theorem decode_encode (cs : List Char) : decode (encode cs) = (cs, true) := by
  unfold decode
  rw [decodeFrom_encode]
  simp

/-- Bytes that decode without a rest are those of the characters that come out. -/
theorem encode_of_decodeFrom {bytes : List UInt8} {seen text : List Char}
    (h : decodeFrom bytes seen = (text, true)) : encode seen.reverse ++ bytes = encode text := by
  have hsnoc : ∀ (seen : List Char) (c : Char) (rest : List UInt8),
      encode (c :: seen).reverse ++ rest =
        encode seen.reverse ++ (String.utf8EncodeChar c ++ rest) := by
    intro seen c rest
    simp [encode]
  -- each branch that goes on puts the bytes of one character behind those that were seen
  fun_induction decodeFrom bytes seen with
  | case1 =>
    cases h
    exact List.append_nil _
  | case2 _ _ ha =>
    cases h
    simp [encode, encodeChar_one ha]
  | case4 _ _ _ _ ha ih =>
    rw [← ih h, hsnoc, encodeChar_one ha]
    rfl
  | case5 _ _ _ _ _ _ hn ih =>
    rw [← ih h, hsnoc, encodeChar_two hn]
    rfl
  | case6 _ _ _ _ _ _ _ _ hn ih =>
    rw [← ih h, hsnoc, encodeChar_three hn]
    rfl
  | case7 _ _ _ _ _ _ _ _ _ _ hn ih =>
    rw [← ih h, hsnoc, encodeChar_four hn]
    rfl
  | case3 | case8 | case9 | case10 => cases h

/-- Bytes read as a text exactly if they are what is written for it. -/
theorem decode_eq_true_iff {bytes : List UInt8} {text : List Char} :
    decode bytes = (text, true) ↔ bytes = encode text := by
  constructor
  · intro h
    have hall : decodeFrom bytes [] = (text, true) := h
    exact encode_of_decodeFrom hall
  · rintro rfl
    exact decode_encode text

end GuardedCall.Text.Utf8
