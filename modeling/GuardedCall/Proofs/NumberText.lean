-- The law of numbers in JSON texts: a whole number of sixty-four bits and a
-- finite double read back from their texts, in whatever layout the digits are.
import GuardedCall.Json.Printer
import GuardedCall.Json.Reader
import GuardedCall.Proofs.Doubles

namespace GuardedCall.Json

open Nat (toDigits ofDigitChars)

/-! ## Runs of digits -/

def AllDigits (ds : List Char) : Prop := ∀ c ∈ ds, c.isDigit = true

/-- A text whose first character, if it has one, is no digit. -/
def NoDigit (rest : List Char) : Prop := ∀ c ∈ rest.head?, c.isDigit = false

/-- A text that does not go on with a number that ends before it. -/
def EndsNumber (rest : List Char) : Prop :=
  ∀ c ∈ rest.head?, c.isDigit = false ∧ c ≠ '.' ∧ c ≠ 'e' ∧ c ≠ 'E'

theorem endsNumber_nil : EndsNumber [] := fun c hc => by cases hc

theorem EndsNumber.noDigit {rest : List Char} (h : EndsNumber rest) : NoDigit rest :=
  fun c hc => (h c hc).1

theorem allDigits_toDigits (n : Nat) : AllDigits (toDigits 10 n) :=
  fun _ hc => Nat.isDigit_of_mem_toDigits (by decide) (by decide) hc

theorem AllDigits.append {ds es : List Char} (hds : AllDigits ds) (hes : AllDigits es) :
    AllDigits (ds ++ es) := by
  intro c hc
  rcases List.mem_append.mp hc with hc | hc
  · exact hds c hc
  · exact hes c hc

theorem allDigits_zeros (k : Nat) : AllDigits (List.replicate k '0') := by
  intro c hc
  obtain ⟨-, rfl⟩ := List.mem_replicate.mp hc
  decide

/-- Reading digits stops behind the last one and gives their value. -/
theorem readDigits_append {ds rest : List Char} (hds : AllDigits ds) (hrest : NoDigit rest)
    (n value count : Nat) :
    readDigits (ds ++ rest) n value count =
      (ofDigitChars 10 ds value, count + ds.length, ⟨rest, n + ds.length⟩) := by
  induction ds generalizing n value count with
  | nil =>
    cases rest with
    | nil => simp [readDigits]
    | cons c rest =>
      have hc : c.isDigit = false := hrest c (by simp)
      simp [readDigits, hc]
  | cons d ds ih =>
    have hd : d.isDigit = true := hds d List.mem_cons_self
    have hds' : AllDigits ds := fun c hc => hds c (List.mem_cons_of_mem d hc)
    rw [List.cons_append, readDigits, if_pos hd, ih hds', Nat.ofDigitChars_cons, Nat.mul_comm value]
    simp only [List.length_cons, Nat.add_assoc, Nat.add_comm 1]
    rfl

theorem digitChar_ne_zero : ∀ n < 10, n ≠ 0 → n.digitChar ≠ '0' := by decide

/-- The digits of a number other than zero do not start with a zero. -/
theorem head?_toDigits {n : Nat} (h : n ≠ 0) : (toDigits 10 n).head? ≠ some '0' := by
  induction n using Nat.strongRecOn with
  | ind n ih =>
    by_cases hlt : n < 10
    · rw [Nat.toDigits_of_lt_base hlt]
      simpa using digitChar_ne_zero n hlt h
    · rw [Nat.toDigits_of_base_le (by decide) (by omega), List.head?_append_of_ne_nil _ (by simp)]
      exact ih (n / 10) (by omega) (by omega)

/-! ## The parts of a number -/

/-- Digits that may stand in front of the point: a zero only alone. -/
structure WholePart (ds : List Char) : Prop where
  digits : AllDigits ds
  ne_nil : ds ≠ []
  noZero : ds.length = 1 ∨ ds.head? ≠ some '0'

theorem wholePart_toDigits (n : Nat) : WholePart (toDigits 10 n) := by
  refine ⟨allDigits_toDigits n, by simp, ?_⟩
  by_cases h : n = 0
  · exact .inl (by rw [h]; simp)
  · exact .inr (head?_toDigits h)

/-- Behind the digits in front of the point a number goes on with their value. -/
theorem readMagnitude_whole (negative : Bool) {ds rest : List Char} (hds : WholePart ds)
    (hrest : NoDigit rest) (n : Nat) :
    readMagnitude negative ⟨ds ++ rest, n⟩ =
      readAfterWhole negative (ofDigitChars 10 ds 0) ⟨rest, n + ds.length⟩ := by
  obtain ⟨hdigits, hne, hzero⟩ := hds
  obtain ⟨d, ds, rfl⟩ := List.exists_cons_of_ne_nil hne
  have hd : d.isDigit = true := hdigits d List.mem_cons_self
  have hread := readDigits_append hdigits hrest n 0 0
  by_cases hd0 : d = '0'
  · subst hd0
    obtain rfl : ds = [] := by simpa using hzero
    cases rest with
    | nil => simp [readMagnitude, readDigits, Nat.ofDigitChars_cons]
    | cons c rest =>
      have hc : c.isDigit = false := hrest c (by simp)
      simp [readMagnitude, hc, Nat.ofDigitChars_cons]
  · rw [List.cons_append] at hread ⊢
    unfold readMagnitude
    simp [hd0, hd, hread]

theorem readAfterWhole_point (negative : Bool) (value : Nat) {ds rest : List Char}
    (hds : AllDigits ds) (hne : ds ≠ []) (hrest : NoDigit rest) (n : Nat) :
    ∃ m, readAfterWhole negative value ⟨'.' :: (ds ++ rest), n⟩ =
      readScaled negative (ofDigitChars 10 ds value) (-ds.length) ⟨rest, m⟩ := by
  have hlen : ds.length ≠ 0 := by simpa using hne
  refine ⟨n + 1 + ds.length, ?_⟩
  unfold readAfterWhole
  simp [readDigits_append hds hrest, hlen]

/-- Without an exponent the digits are the number. -/
theorem readScaled_end (negative : Bool) (digits : Nat) (exponent : Int) {rest : List Char}
    (hrest : EndsNumber rest) (n : Nat) :
    readScaled negative digits exponent ⟨rest, n⟩ =
      .ok (readDouble negative digits exponent n, ⟨rest, n⟩) := by
  unfold readScaled
  cases rest with
  | nil => rfl
  | cons c rest =>
    obtain ⟨-, -, he, hE⟩ := hrest c (by simp)
    simp [he, hE]

/-- An exponent as it is written adds to the exponent so far. -/
theorem readScaled_exponent (negative : Bool) (digits : Nat) (exponent x : Int)
    {rest : List Char} (hrest : EndsNumber rest) (n : Nat) :
    ∃ k m, readScaled negative digits exponent ⟨Layout.exponentText x ++ rest, n⟩ =
      .ok (readDouble negative digits (exponent + x) k, ⟨rest, m⟩) := by
  have hread := readDigits_append (allDigits_toDigits x.natAbs) hrest.noDigit (n + 1 + 1) 0 0
  have hlen : (toDigits 10 x.natAbs).length ≠ 0 := by simp
  unfold Layout.exponentText readScaled readExponent
  by_cases hx : x < 0
  · simp [hx, hread, abs_of_neg hx]
  · simp [hx, hread, abs_of_nonneg (not_lt.mp hx)]

/-! ## The layouts of a decimal -/

/-- Whatever stands at the front reads as a number, it is a digit. -/
theorem head_of_readMagnitude {negative : Bool} {cs : List Char} {n : Nat}
    {r : NumberRead × Cursor} (h : readMagnitude negative ⟨cs, n⟩ = .ok r) :
    ∃ d rest, cs = d :: rest ∧ d.isDigit = true := by
  cases cs with
  | nil => simp [readMagnitude] at h
  | cons d rest =>
    refine ⟨d, rest, rfl, ?_⟩
    by_contra hd
    have hd0 : d ≠ '0' := by rintro rfl; exact hd (by decide)
    unfold readMagnitude at h
    simp [hd0, hd] at h

theorem readDouble_eq {negative : Bool} {digits : Nat} {exponent : Int} {x : Double}
    (h : Double.ofDecimal negative digits exponent = some x) (n : Nat) :
    readDouble negative digits exponent n = .value (.double x) := by
  unfold readDouble
  rw [h]

section Layouts

variable (negative : Bool) {x : Double} {ws fs rest : List Char}

theorem readMagnitude_point (hws : WholePart ws) (hfs : AllDigits fs) (hne : fs ≠ [])
    (hrest : NoDigit rest) (n : Nat) :
    ∃ m, readMagnitude negative ⟨ws ++ '.' :: (fs ++ rest), n⟩ =
      readScaled negative (ofDigitChars 10 (ws ++ fs) 0) (-fs.length) ⟨rest, m⟩ := by
  have hpoint : NoDigit ('.' :: (fs ++ rest)) := by
    intro c hc
    obtain rfl : '.' = c := by simpa using hc
    decide
  rw [readMagnitude_whole negative hws hpoint, Nat.ofDigitChars_append]
  exact readAfterWhole_point negative _ hfs hne hrest _

theorem readMagnitude_fraction (hws : WholePart ws) (hfs : AllDigits fs) (hne : fs ≠ [])
    (hrest : EndsNumber rest)
    (hx : Double.ofDecimal negative (ofDigitChars 10 (ws ++ fs) 0) (-fs.length) = some x) (n : Nat) :
    ∃ m, readMagnitude negative ⟨ws ++ '.' :: (fs ++ rest), n⟩ =
      .ok (.value (.double x), ⟨rest, m⟩) := by
  obtain ⟨m, hm⟩ := readMagnitude_point negative hws hfs hne hrest.noDigit n
  rw [readScaled_end negative _ _ hrest, readDouble_eq hx] at hm
  exact ⟨m, hm⟩

theorem exponentText_noDigit (e : Int) (rest : List Char) :
    NoDigit (Layout.exponentText e ++ rest) := by
  intro c hc
  obtain rfl : 'e' = c := by simpa [Layout.exponentText] using hc
  decide

theorem readMagnitude_scientific (hws : WholePart ws) (hfs : AllDigits fs) (e : Int)
    (hrest : EndsNumber rest)
    (hx : Double.ofDecimal negative (ofDigitChars 10 (ws ++ fs) 0) (-fs.length + e) = some x)
    (n : Nat) :
    ∃ m, readMagnitude negative
        ⟨ws ++ (if fs = [] then [] else '.' :: fs) ++ Layout.exponentText e ++ rest, n⟩ =
      .ok (.value (.double x), ⟨rest, m⟩) := by
  have hexponent := exponentText_noDigit e rest
  by_cases hne : fs = []
  · subst hne
    rw [List.append_nil] at hx
    obtain ⟨k, m, hm⟩ := readScaled_exponent negative (ofDigitChars 10 ws 0) 0 e hrest
      (n + ws.length)
    refine ⟨m, ?_⟩
    have hmark : readAfterWhole negative (ofDigitChars 10 ws 0)
        ⟨Layout.exponentText e ++ rest, n + ws.length⟩ = readScaled negative (ofDigitChars 10 ws 0) 0
        ⟨Layout.exponentText e ++ rest, n + ws.length⟩ := by
      simp [readAfterWhole, Layout.exponentText]
    rw [if_pos rfl, List.append_nil, List.append_assoc,
      readMagnitude_whole negative hws hexponent, hmark, hm]
    have hx' : Double.ofDecimal negative (ofDigitChars 10 ws 0) (0 + e) = some x := by simpa using hx
    rw [readDouble_eq hx']
  · obtain ⟨k, hk⟩ := readMagnitude_point negative hws hfs hne hexponent n
    obtain ⟨j, m, hm⟩ := readScaled_exponent negative (ofDigitChars 10 (ws ++ fs) 0) (-fs.length)
      e hrest k
    rw [hm, readDouble_eq hx] at hk
    refine ⟨m, ?_⟩
    rw [if_neg hne]
    simpa using hk

end Layouts

/-! ## Numbers as JSON writes them -/

theorem WholePart.take {ds : List Char} (h : WholePart ds) {k : Nat} (hk : 0 < k) :
    WholePart (ds.take k) := by
  obtain ⟨hdigits, hne, hzero⟩ := h
  obtain ⟨d, ds, rfl⟩ := List.exists_cons_of_ne_nil hne
  obtain ⟨k, rfl⟩ := Nat.exists_eq_add_of_lt hk
  refine ⟨fun c hc => hdigits c (List.mem_of_mem_take hc), by simp, ?_⟩
  rcases hzero with hlen | hhead
  · left
    simp at hlen ⊢
    simp [hlen]
  · right
    simpa using hhead

theorem WholePart.append_zeros {ds : List Char} (h : WholePart ds) (hhead : ds.head? ≠ some '0')
    (k : Nat) : WholePart (ds ++ List.replicate k '0') := by
  refine ⟨?_, by simp [h.ne_nil], .inr (by rwa [List.head?_append_of_ne_nil _ h.ne_nil])⟩
  intro c hc
  rcases List.mem_append.mp hc with hc | hc
  · exact h.digits c hc
  · obtain ⟨-, rfl⟩ := List.mem_replicate.mp hc
    decide

section Texts

variable {negative : Bool} {x : Double} {d : Decimal} {rest : List Char}

/-- Digits far behind the point read back. -/
theorem readMagnitude_belowOne {ds : List Char} {k : Nat} (hds : AllDigits ds) (hne : ds ≠ [])
    (hx : Double.ofDecimal negative (ofDigitChars 10 ds 0) (-(k + ds.length)) = some x)
    (hrest : EndsNumber rest) (n : Nat) :
    ∃ m, readMagnitude negative
        ⟨['0'] ++ '.' :: (List.replicate k '0' ++ ds ++ rest), n⟩ =
      .ok (.value (.double x), ⟨rest, m⟩) := by
  have hzero : WholePart ['0'] := by simpa using wholePart_toDigits 0
  have hfs : AllDigits (List.replicate k '0' ++ ds) := (allDigits_zeros k).append hds
  have hlen : ((List.replicate k '0' ++ ds).length : Int) = k + ds.length := by simp
  have hval : ofDigitChars 10 (['0'] ++ (List.replicate k '0' ++ ds)) 0 = ofDigitChars 10 ds 0 := by
    simp [Nat.ofDigitChars_append, Nat.ofDigitChars_cons]
  refine readMagnitude_fraction negative hzero hfs (by simp [hne]) hrest ?_ n
  rw [hval, hlen, hx]

/-- Digits with zeros up to the point and one zero behind it read back. -/
theorem readMagnitude_integral {ds : List Char} {k : Nat} (hds : WholePart ds)
    (hhead : k = 0 ∨ ds.head? ≠ some '0')
    (hx : Double.ofDecimal negative (ofDigitChars 10 ds 0) k = some x) (hrest : EndsNumber rest)
    (n : Nat) :
    ∃ m, readMagnitude negative ⟨ds ++ List.replicate k '0' ++ '.' :: (['0'] ++ rest), n⟩ =
      .ok (.value (.double x), ⟨rest, m⟩) := by
  have hws : WholePart (ds ++ List.replicate k '0') := by
    rcases hhead with rfl | hhead
    · simpa using hds
    · exact hds.append_zeros hhead k
  have hval : ofDigitChars 10 (ds ++ List.replicate k '0' ++ ['0']) 0 =
      ofDigitChars 10 ds 0 * 10 ^ (k + 1) := by
    simp [Nat.ofDigitChars_append, Nat.ofDigitChars_cons]
    ring
  refine readMagnitude_fraction negative hws (allDigits_zeros 1) (by simp) hrest ?_ n
  rw [List.replicate_one, hval, Double.ofDecimal_mul_pow, ← hx]
  congr 1
  rw [List.length_singleton]
  omega

/-- Digits of which some stand in front of the point and some behind it read back. -/
theorem readMagnitude_split {ds : List Char} {k : Nat} (hds : WholePart ds) (hpos : 0 < k)
    (hk : k < ds.length)
    (hx : Double.ofDecimal negative (ofDigitChars 10 ds 0) (k - ds.length) = some x)
    (hrest : EndsNumber rest) (n : Nat) :
    ∃ m, readMagnitude negative ⟨ds.take k ++ '.' :: (ds.drop k ++ rest), n⟩ =
      .ok (.value (.double x), ⟨rest, m⟩) := by
  have hfs : AllDigits (ds.drop k) := fun c hc => hds.digits c (List.mem_of_mem_drop hc)
  have hlen : (-((ds.drop k).length : Int)) = k - ds.length := by
    rw [List.length_drop]
    omega
  refine readMagnitude_fraction negative (hds.take hpos) hfs (by simpa using hk) hrest ?_ n
  rw [List.take_append_drop, hlen, hx]

/-- Digits around the point read back. -/
theorem readMagnitude_positional (hx : Double.ofDecimal negative d.digits d.exponent = some x)
    (hzero : d.digits = 0 → d.exponent = 0) (hrest : EndsNumber rest) (n : Nat) :
    ∃ m, readMagnitude negative
        ⟨Layout.positional true (toDigits 10 d.digits)
          (d.exponent + (toDigits 10 d.digits).length - 1) ++ rest, n⟩ =
      .ok (.value (.double x), ⟨rest, m⟩) := by
  have hwhole := wholePart_toDigits d.digits
  have hhead : d.digits ≠ 0 → (toDigits 10 d.digits).head? ≠ some '0' := head?_toDigits
  have hpos : 0 < (toDigits 10 d.digits).length := Nat.length_toDigits_pos
  rw [← Nat.ofDigitChars_ten_toDigits (n := d.digits)] at hx
  generalize toDigits 10 d.digits = ds at hx hwhole hhead hpos
  unfold Layout.positional
  by_cases hneg : d.exponent + ds.length - 1 < 0
  · rw [if_pos hneg]
    generalize hk : (-(d.exponent + ds.length - 1) - 1).toNat = k
    have hexp : d.exponent = -(k + ds.length) := by omega
    rw [hexp] at hx
    simpa using readMagnitude_belowOne hwhole.digits hwhole.ne_nil hx hrest n
  rw [if_neg hneg]
  extract_lets whole
  by_cases hlong : ds.length ≤ whole
  · rw [if_pos hlong]
    generalize hk : whole - ds.length = k
    have hexp : d.exponent = k := by omega
    have hends : k = 0 ∨ ds.head? ≠ some '0' := by
      by_cases h0 : d.digits = 0
      · have := hzero h0
        exact .inl (by omega)
      · exact .inr (hhead h0)
    rw [hexp] at hx
    simpa using readMagnitude_integral hwhole hends hx hrest n
  · rw [if_neg hlong]
    have hexp : d.exponent = whole - ds.length := by omega
    rw [hexp] at hx
    simpa using readMagnitude_split hwhole (by omega) (by omega) hx hrest n

/-- Digits with an exponent read back. -/
theorem readMagnitude_scientificText (hx : Double.ofDecimal negative d.digits d.exponent = some x)
    (hrest : EndsNumber rest) (n : Nat) :
    ∃ m, readMagnitude negative
        ⟨Layout.scientific (toDigits 10 d.digits)
          (d.exponent + (toDigits 10 d.digits).length - 1) ++ rest, n⟩ =
      .ok (.value (.double x), ⟨rest, m⟩) := by
  have hwhole := wholePart_toDigits d.digits
  have hvalue : ofDigitChars 10 (toDigits 10 d.digits) 0 = d.digits := Nat.ofDigitChars_ten_toDigits
  generalize toDigits 10 d.digits = ds at hwhole hvalue
  obtain ⟨c, fs, rfl⟩ := List.exists_cons_of_ne_nil hwhole.ne_nil
  have hws : WholePart [c] := hwhole.take Nat.one_pos
  have hfs : AllDigits fs := fun b hb => hwhole.digits b (List.mem_cons_of_mem c hb)
  generalize he : d.exponent + (c :: fs).length - 1 = e
  have hexp : -(fs.length : Int) + e = d.exponent := by
    rw [List.length_cons] at he
    omega
  obtain ⟨m, hm⟩ := readMagnitude_scientific negative hws hfs e hrest
    (by rw [List.singleton_append, hvalue, hexp, hx]) n
  refine ⟨m, ?_⟩
  rw [← hm]
  cases fs with
  | nil => simp [Layout.scientific]
  | cons b fs => simp [Layout.scientific]

/-- The text of a decimal reads back as the double that the decimal names. -/
theorem readMagnitude_layout (hx : Double.ofDecimal negative d.digits d.exponent = some x)
    (hzero : d.digits = 0 → d.exponent = 0) (hrest : EndsNumber rest) (n : Nat) :
    ∃ m, readMagnitude negative ⟨doubleLayout.text d ++ rest, n⟩ =
      .ok (.value (.double x), ⟨rest, m⟩) := by
  unfold Layout.text
  extract_lets ds e
  split
  · exact readMagnitude_positional hx hzero hrest n
  · exact readMagnitude_scientificText hx hrest n

end Texts

/-- A whole number of sixty-four bits reads back from its digits. -/
theorem readMagnitude_wholeText {k : Int} (hk : Number.FitsWord k) {rest : List Char}
    (hrest : EndsNumber rest) (n : Nat) :
    ∃ m, readMagnitude (k < 0) ⟨toDigits 10 k.natAbs ++ rest, n⟩ =
      .ok (.value (.whole k), ⟨rest, m⟩) := by
  refine ⟨n + (toDigits 10 k.natAbs).length, ?_⟩
  rw [readMagnitude_whole _ (wholePart_toDigits k.natAbs) hrest.noDigit,
    Nat.ofDigitChars_ten_toDigits]
  have hend : readAfterWhole (k < 0) k.natAbs ⟨rest, n + (toDigits 10 k.natAbs).length⟩ =
      .ok (wholeOrDouble (k < 0) k.natAbs (n + (toDigits 10 k.natAbs).length),
        ⟨rest, n + (toDigits 10 k.natAbs).length⟩) := by
    unfold readAfterWhole
    cases rest with
    | nil => rfl
    | cons c rest =>
      obtain ⟨-, hp, he, hE⟩ := hrest c (by simp)
      simp [hp, he, hE]
  rw [hend]
  unfold wholeOrDouble
  have hval : (if decide (k < 0) = true then -(k.natAbs : Int) else k.natAbs) = k := by
    simp only [decide_eq_true_eq]
    split <;> omega
  simp only [hval]
  rw [if_pos ⟨hk, by simp; omega⟩]

/-! ## Numbers as values -/

/-- A cursor that stands on no blank is where it was after blanks are skipped. -/
theorem trim_cons {c : Char} (h : isBlank c = false) (rest : List Char) (n : Nat) :
    Cursor.trim ⟨c :: rest, n⟩ = ⟨c :: rest, n⟩ := by
  unfold Cursor.trim skipBlanks
  simp [h]

theorem ne_of_isDigit {d c : Char} (hd : d.isDigit = true) (hc : c.isDigit = false) : d ≠ c := by
  rintro rfl
  rw [hc] at hd
  cases hd

theorem isBlank_of_isDigit {d : Char} (hd : d.isDigit = true) : isBlank d = false := by
  have hne {c : Char} (hc : c.isDigit = false) : d ≠ c := ne_of_isDigit hd hc
  unfold isBlank
  simp [hne (c := ' ') (by decide), hne (c := '\n') (by decide), hne (c := '\t') (by decide),
    hne (c := '\r') (by decide)]

theorem readNested_minus (inner : Option (Cursor → Reading)) (cs : List Char) (n : Nat) :
    readNested inner ⟨'-' :: cs, n⟩ = numberReading n (readMagnitude true ⟨cs, n + 1⟩) := by
  unfold readNested
  rw [trim_cons (by decide)]
  rfl

theorem readNested_digit (inner : Option (Cursor → Reading)) {d : Char} (hd : d.isDigit = true)
    (cs : List Char) (n : Nat) :
    readNested inner ⟨d :: cs, n⟩ = numberReading n (readMagnitude false ⟨d :: cs, n⟩) := by
  have hne {c : Char} (hc : c.isDigit = false) : d ≠ c := ne_of_isDigit hd hc
  unfold readNested
  rw [trim_cons (isBlank_of_isDigit hd)]
  simp [hd, hne (c := 'n') (by decide), hne (c := 't') (by decide), hne (c := 'f') (by decide),
    hne (c := '"') (by decide), hne (c := '[') (by decide), hne (c := '\x7b') (by decide),
    hne (c := '-') (by decide)]

/-- What reads as a number behind its sign reads as a value with its sign. -/
theorem readNested_signed (inner : Option (Cursor → Reading)) {negative : Bool} {k : Number}
    {cs rest : List Char}
    (h : ∀ n, ∃ m, readMagnitude negative ⟨cs, n⟩ = .ok (.value k, ⟨rest, m⟩)) (n : Nat) :
    ∃ span m, readNested inner ⟨(if negative then ['-'] else []) ++ cs, n⟩ =
      (.scalar span (.number k), some ⟨rest, m⟩) := by
  cases negative with
  | true =>
    obtain ⟨m, hm⟩ := h (n + 1)
    refine ⟨⟨n, m⟩, m, ?_⟩
    rw [if_pos rfl, List.singleton_append, readNested_minus, hm]
    rfl
  | false =>
    obtain ⟨m, hm⟩ := h n
    obtain ⟨d, cs, rfl, hd⟩ := head_of_readMagnitude hm
    refine ⟨⟨n, m⟩, m, ?_⟩
    rw [if_neg (by decide), List.nil_append, readNested_digit inner hd, hm]
    rfl

/-- Behind its sign every number reads as its digits say. -/
theorem readMagnitude_numberText {k : Number} (hk : k.Valid) :
    ∃ negative cs, numberText k = (if negative then ['-'] else []) ++ cs ∧
      ∀ {rest}, EndsNumber rest → ∀ n, ∃ m,
        readMagnitude negative ⟨cs ++ rest, n⟩ = .ok (.value k, ⟨rest, m⟩) := by
  cases k with
  | whole k =>
    refine ⟨k < 0, toDigits 10 k.natAbs, by simp [numberText, wholeText], ?_⟩
    intro rest hrest
    exact readMagnitude_wholeText hk hrest
  | double x =>
    have hx : x.isFinite = true := hk
    have hnames := Double.names_shortest hx
    unfold Decimal.names at hnames
    rw [beq_iff_eq] at hnames
    refine ⟨x.negative, doubleLayout.text (Decimal.shortest x), rfl, ?_⟩
    intro rest hrest
    exact readMagnitude_layout hnames (Double.shortest_zero hx) hrest

/-- A number that JSON holds reads back from its text. -/
theorem readNested_number (inner : Option (Cursor → Reading)) {k : Number} (hk : k.Valid)
    {rest : List Char} (hrest : EndsNumber rest) (n : Nat) :
    ∃ span m, readNested inner ⟨numberText k ++ rest, n⟩ =
      (.scalar span (.number k), some ⟨rest, m⟩) := by
  obtain ⟨negative, cs, htext, hread⟩ := readMagnitude_numberText hk
  rw [htext, List.append_assoc]
  exact readNested_signed inner (hread hrest) n

/-- A number starts with its sign or with a digit. -/
theorem head_of_numberText {k : Number} (hk : k.Valid) :
    ∃ c cs, numberText k = c :: cs ∧ (c = '-' ∨ c.isDigit = true) := by
  obtain ⟨negative, cs, htext, hread⟩ := readMagnitude_numberText hk
  obtain ⟨m, hm⟩ := hread endsNumber_nil 0
  obtain ⟨d, ds, hcs, hd⟩ := head_of_readMagnitude hm
  rw [List.append_nil] at hcs
  rw [htext, hcs]
  cases negative with
  | true => exact ⟨'-', d :: ds, by simp, .inl rfl⟩
  | false => exact ⟨d, ds, by simp, .inr hd⟩

end GuardedCall.Json
