-- The law of extraction for whole numbers between bounds. A document accepts a
-- number by its value, and the type reads it by its form: what is accepted decodes
-- exactly if it is not a double.
import GuardedCall.Proofs.AdapterIndependence
import GuardedCall.Proofs.Boundary
import GuardedCall.Proofs.Compilation
import GuardedCall.Proofs.SchemaShape
import GuardedCall.Proofs.StrictMode
import GuardedCall.Typed.Basic

namespace GuardedCall

/-! ## Whole values -/

namespace Number

/-- The number has the value of this whole number. -/
def Is (n : Number) (k : Int) : Prop := n.same (.whole k) = true

@[simp] theorem is_whole_iff {n k : Int} : (whole n).Is k ↔ n = k := by
  simp [Is, same, aligned, parts]

/-- A number is a fraction: beside a whole number it counts so many parts of one. -/
theorem exists_fraction (n : Number) :
    ∃ (m : Int) (q : Nat), 0 < q ∧ (∀ k, aligned n (.whole k) = (m, k * q)) ∧
      (∀ k, aligned (.whole k) n = (k * q, m)) ∧
      (n.Valid → (n.isIntegral = true ↔ (q : Int) ∣ m)) := by
  cases n with
  | whole m => exact ⟨m, 1, by simp [aligned, parts, isIntegral]⟩
  | double x =>
    by_cases hscale : 0 ≤ x.scale
    · -- The power of two is a whole number itself.
      refine ⟨x.signedSignificand * (2 ^ x.scale.toNat : Nat), 1, Nat.one_pos, ?_, ?_, fun hx => ?_⟩
      · simp [aligned, parts, Int.min_eq_right hscale]
      · simp [aligned, parts, Int.min_eq_left hscale]
      · have hfinite : x.isFinite = true := hx
        simp [isIntegral, Double.isIntegral, hfinite, hscale]
    · have hlow : x.scale ≤ 0 := by omega
      refine ⟨x.signedSignificand, 2 ^ (-x.scale).toNat, Nat.two_pow_pos _, ?_, ?_, fun hx => ?_⟩
      · simp [aligned, parts, Int.min_eq_left hlow]
      · simp [aligned, parts, Int.min_eq_right hlow]
      · have hfinite : x.isFinite = true := hx
        have hsign : ((2 ^ (-x.scale).toNat : Nat) : Int) ∣ x.signedSignificand ↔
            2 ^ (-x.scale).toNat ∣ x.significand := by
          unfold Double.signedSignificand
          split
          · rw [Int.dvd_neg, Int.natCast_dvd_natCast]
          · rw [Int.natCast_dvd_natCast]
        rw [hsign, Nat.dvd_iff_mod_eq_zero]
        simp [isIntegral, Double.isIntegral, hfinite, hscale]

/-- A number without a fractional part has the value of a whole number. -/
theorem isIntegral_iff {n : Number} (h : n.Valid) : n.isIntegral = true ↔ ∃ k, n.Is k := by
  obtain ⟨m, q, -, hleft, -, hwhole⟩ := n.exists_fraction
  rw [hwhole h]
  constructor
  · rintro ⟨k, rfl⟩
    exact ⟨k, by simp [Is, same, hleft, Int.mul_comm]⟩
  · rintro ⟨k, hk⟩
    have hm : m = k * q := by simpa [Is, same, hleft] using hk
    exact ⟨k, by rw [hm, Int.mul_comm]⟩

section Is

variable {n : Number} {j k : Int}

theorem Is.lt_whole_iff (h : n.Is j) : n.lt (.whole k) = true ↔ j < k := by
  obtain ⟨m, q, hq, hleft, -, -⟩ := n.exists_fraction
  have hm : m = j * q := by simpa [Is, same, hleft] using h
  simp [lt, hleft, hm, Int.mul_lt_mul_right (Int.natCast_pos.mpr hq)]

theorem Is.whole_lt_iff (h : n.Is j) : (whole k).lt n = true ↔ k < j := by
  obtain ⟨m, q, hq, hleft, hright, -⟩ := n.exists_fraction
  have hm : m = j * q := by simpa [Is, same, hleft] using h
  simp [lt, hright, hm, Int.mul_lt_mul_right (Int.natCast_pos.mpr hq)]

end Is

end Number

namespace Typed

variable {name : String} {lo hi : Int}

/-- A range is read from the whole numbers in it, as they are written, and from nothing else. -/
theorem decodeJson_ranged_iff {v : Json} {x : Ranged lo hi} :
    (ranged name lo hi).decodeJson v = .ok x ↔ v = Json.whole x.val := by
  simp only [Codec.decodeJson, ranged, Json.whole]
  cases v with
  | number n =>
    cases n with
    | whole n =>
      simp only [Json.Written.ofJson, Json.number.injEq, Number.whole.injEq]
      by_cases hn : lo ≤ n ∧ n ≤ hi
      · simp [Ranged.ofInt?, hn, Subtype.ext_iff]
      · refine iff_of_false (by simp [Ranged.ofInt?, hn]) ?_
        rintro rfl
        exact hn x.property
    | double d => simp [Json.Written.ofJson]
  | null | bool | string | array | object => simp [Json.Written.ofJson]

end Typed

theorem Adapter.decode_eq_ok_iff {S : Type → Type} {α : Type} {a : Adapter S} {schema : S α}
    {v : Json} {x : α} : a.decode schema v = .ok x ↔ (a.codec schema).decodeJson v = .ok x := by
  unfold Adapter.decode
  cases (a.codec schema).decodeJson v <;> simp

theorem Adapter.decode_fault {S : Type → Type} {α : Type} {a : Adapter S} {schema : S α} {v : Json}
    {f : AdapterFault} (h : a.decode schema v = .error f) :
    ∃ text, f = ⟨a.name, .projection text⟩ := by
  unfold Adapter.decode at h
  cases hd : (a.codec schema).decodeJson v with
  | error fault =>
    rw [hd] at h
    exact ⟨fault.message, (Except.error.inj h).symm⟩
  | ok x =>
    rw [hd] at h
    cases h

namespace Extraction

open GuardedCall.Boundary
open GuardedCall.Schema
open GuardedCall.Typed

variable {σ α β : Type}

/-! ## Whole numbers between bounds -/

def boundsMembers (lo hi : Int) : Table Json :=
  [("maximum", Json.whole hi), ("minimum", Json.whole lo), ("type", .string "integer")]

/-- The whole numbers between two bounds by a document, read as words of sixty-four bits. -/
def integers (lo hi : Int) : DocumentSchema I64 := ⟨.object (boundsMembers lo hi), i64⟩

section Bounds

variable {lo hi : Int} {ctx : Context} {v : Json}

theorem typed_bounds_iff :
    typeFaults (partsOf ctx (boundsMembers lo hi)) v = [] ↔ hasType v "integer" = true := by
  unfold typeFaults
  rw [value?_partsOf]
  simp [boundsMembers, allowedTypes, expect]

theorem numbered_bounds_iff :
    numberFaults (partsOf ctx (boundsMembers lo hi)) v = [] ↔
      ∀ n, v = .number n → n.lt (.whole lo) = false ∧ (Number.whole hi).lt n = false := by
  cases v <;>
    simp [numberFaults, boundFaults, Parts.number?, boundsMembers, expect, Json.whole]

/-- The document asks for nothing but its type and its bounds. -/
theorem holds_bounds_iff :
    (meaning ctx (.object (boundsMembers lo hi)) v).holds = true ↔
      hasType v "integer" = true ∧
        ∀ n, v = .number n → n.lt (.whole lo) = false ∧ (Number.whole hi).lt n = false := by
  have hasserts : OnlyAsserts (boundsMembers lo hi) := by
    simp [OnlyAsserts, boundsMembers, assertionKeywords]
  have hassertions : assertionFaults ctx (partsOf ctx (boundsMembers lo hi)) v = [] ↔
      typeFaults (partsOf ctx (boundsMembers lo hi)) v = [] ∧
        numberFaults (partsOf ctx (boundsMembers lo hi)) v = [] := by
    simp [assertionFaults, sizesFaults, sizeFaults, constFaults, enumFaults, dependentNameFaults,
      patternFaults, formatFaults, uniqueFaults, Parts.count?, Parts.number?, Parts.text?,
      boundsMembers]
  rw [hasserts.holds_iff, hassertions, typed_bounds_iff, numbered_bounds_iff]

/-- The document holds for the numbers whose value is a whole number between the bounds. -/
theorem meaning_bounds_iff (hv : v.Valid) :
    (meaning ctx (.object (boundsMembers lo hi)) v).holds = true ↔
      ∃ n k, v = .number n ∧ n.Is k ∧ lo ≤ k ∧ k ≤ hi := by
  rw [holds_bounds_iff]
  cases v with
  | number n =>
    have hn : n.Valid := hv
    have htype : hasType (.number n) "integer" = true ↔ ∃ k, n.Is k := by
      rw [← Number.isIntegral_iff hn]
      simp [hasType]
    rw [htype]
    constructor
    · rintro ⟨⟨k, hk⟩, hbounds⟩
      obtain ⟨hlow, hhigh⟩ := hbounds n rfl
      rw [Bool.eq_false_iff, ne_eq, hk.lt_whole_iff] at hlow
      rw [Bool.eq_false_iff, ne_eq, hk.whole_lt_iff] at hhigh
      exact ⟨n, k, rfl, hk, by omega, by omega⟩
    · rintro ⟨_, k, ⟨⟩, hk, hlow, hhigh⟩
      refine ⟨⟨k, hk⟩, ?_⟩
      rintro _ ⟨⟩
      rw [Bool.eq_false_iff, ne_eq, hk.lt_whole_iff, Bool.eq_false_iff, ne_eq, hk.whole_lt_iff]
      omega
  | null | bool | string | array | object => simp [hasType]

/-! ## The document compiles -/

theorem asked_maximum (dialect : Dialect) : asked dialect "maximum" = [MetaSchema.number] := by
  cases dialect <;> rfl

theorem asked_minimum (dialect : Dialect) : asked dialect "minimum" = [MetaSchema.number] := by
  cases dialect <;> rfl

theorem asked_type (dialect : Dialect) : asked dialect "type" = [MetaSchema.types] := by
  cases dialect <;> rfl

theorem enumerated_holds {options : List Json} (h : options.any (·.same v) = true) :
    (meaning ctx (.object [("enum", .array options)]) v).holds = true := by
  have hasserts : OnlyAsserts [("enum", .array options)] := by
    simp [OnlyAsserts, assertionKeywords]
  rw [hasserts.holds_iff]
  simp [assertionFaults, typeFaults, constFaults, enumFaults, numberFaults, boundFaults,
    sizesFaults, sizeFaults, dependentNameFaults, patternFaults, formatFaults, uniqueFaults,
    Parts.count?, Parts.number?, Parts.text?, expect, h]

theorem types_holds_of_mem {name : String} (h : name ∈ typeNames) :
    (meaning ctx MetaSchema.types (.string name)).holds = true := by
  refine either_holds_iff.mpr ⟨MetaSchema.typeName, List.mem_cons_self, ?_⟩
  have hlisted : (typeNames.map Json.string).any (·.same (.string name)) = true := by
    rw [List.any_map, List.any_eq_true]
    exact ⟨name, h, by simp [Json.same]⟩
  exact enumerated_holds hlisted

theorem shapeFault?_bounds (dialect : Dialect) (lo hi : Int) :
    shapeFault? dialect (.object (boundsMembers lo hi)) = none := by
  rw [shapeFault?_eq_none_iff, judge, metaSchema_object_holds_iff]
  generalize (⟨dialect, _⟩ : Context) = ctx
  have hnumber : ∀ n, (meaning ctx MetaSchema.number (Json.whole n)).holds = true :=
    fun _ => AdapterIndependence.number_holds_iff.mpr ⟨_, rfl⟩
  have htype : (meaning ctx MetaSchema.types (.string "integer")).holds = true :=
    types_holds_of_mem (by decide)
  simp [boundsMembers, asked_maximum, asked_minimum, asked_type, hnumber, htype]

/-- The document describes no objects, so it is the same in strict mode. -/
theorem prepared_integers (config : SchemaConfig) (lo hi : Int) :
    prepared config (integers lo hi).document = (integers lo hi).document := by
  unfold prepared
  split <;> rfl

theorem compile_integers (config : SchemaConfig) (lo hi : Int) :
    compileDocument config (integers lo hi).document =
      .ok ⟨config.dialect, (integers lo hi).document⟩ := by
  have hcompile : Schema.compile config (integers lo hi).document =
      .ok ⟨config.dialect, (integers lo hi).document⟩ := by
    rw [compile_eq_ok_iff, prepared_integers]
    exact ⟨shapeFault?_bounds config.dialect lo hi, ⟨[], by cases config.dialect <;> rfl⟩, rfl⟩
  rw [compileDocument, hcompile]
  rfl

theorem validate_integers_iff (config : SchemaConfig) (lo hi : Int) (hv : v.Valid) :
    (byDocument config).validate (integers lo hi) v = .ok true ↔
      ∃ n k, v = .number n ∧ n.Is k ∧ lo ≤ k ∧ k ≤ hi := by
  rw [StrictMode.validate_eq_ok_iff, and_iff_right ⟨_, compile_integers config lo hi⟩,
    prepared_integers]
  exact meaning_bounds_iff hv

end Bounds

/-! ## Faults of projection -/

/-- A call ends because an accepted value did not decode. -/
def FaultsProjection (answer : Except MethodFault (Response β)) : Prop :=
  ∃ name text, answer = .error (.adapterFault ⟨name, .projection text⟩)

theorem validate_fault {config : SchemaConfig} {schema : DocumentSchema α} {v : Json}
    {f : AdapterFault} (h : (byDocument config).validate schema v = .error f) :
    ∃ text, f = ⟨documentAdapterName, .malformedSchema text⟩ := by
  have hvalidate : (byDocument config).validate schema v =
      (compileDocument config schema.document).map (·.accepts v) := rfl
  rw [hvalidate, compileDocument] at h
  cases hc : Schema.compile config schema.document with
  | ok c =>
    rw [hc] at h
    cases h
  | error fault =>
    rw [hc] at h
    exact ⟨fault.message, (Except.error.inj h).symm⟩

/-- A call with a value faults for its projection exactly if the value is accepted and does not
decode. -/
theorem faultsProjection_iff {config : SchemaConfig} (m : Guarded DocumentSchema σ α β)
    (hadapter : m.descriptor.adapter = byDocument config) (v : Json) (s : σ) :
    FaultsProjection (exchange m (.value v) s).answer ↔
      (byDocument config).validate m.descriptor.input v = .ok true ∧
        ¬ ∃ x, (byDocument config).decode m.descriptor.input v = .ok x := by
  rw [← hadapter]
  constructor
  · rintro ⟨name, text, h⟩
    have hmalformed : ∀ {γ : Type} {schema : DocumentSchema γ} {w : Json},
        m.descriptor.adapter.validate schema w ≠ .error ⟨name, .projection text⟩ := by
      intro γ schema w herror
      rw [hadapter] at herror
      obtain ⟨_, hf⟩ := validate_fault herror
      cases hf
    -- Of all that can go wrong only the decoding of an accepted argument is such a fault.
    cases ((lawful_exchange m (.value v) s).fails _).mp h with
    | refused h =>
      cases h with
      | unchecked hw herror => exact (hmalformed herror).elim
      | undecodable hok hf => exact ⟨hok, fun ⟨x, hx⟩ => by rw [hf] at hx; cases hx⟩
    | withheld hx hy h =>
      cases h with
      | unchecked hw herror => exact (hmalformed herror).elim
  · rintro ⟨hok, hnone⟩
    rcases hf : m.descriptor.adapter.decode m.descriptor.input v with f | x
    · obtain ⟨text, rfl⟩ := Adapter.decode_fault hf
      exact ⟨_, _, answer_of_fails (.refused (.undecodable hok hf))⟩
    · exact (hnone ⟨x, hf⟩).elim

/-! ## The law -/

/-- What is accepted between two bounds has the value of a whole number between them. Of that,
what is written as a whole number decodes, and what is written as a double does not: a call with
it faults for its projection. -/
theorem accepted_integers_decode_iff (config : SchemaConfig) (lo hi : Int)
    (hlo : -9223372036854775808 ≤ lo) (hhi : hi ≤ 9223372036854775807) {v : Json} (hv : v.Valid) :
    ((byDocument config).validate (integers lo hi) v = .ok true ↔
      ∃ n k, v = .number n ∧ n.Is k ∧ lo ≤ k ∧ k ≤ hi) ∧
    ((byDocument config).validate (integers lo hi) v = .ok true →
      ((∃ x, (byDocument config).decode (integers lo hi) v = .ok x) ↔
        ∃ n, v = .number (.whole n)) ∧
      ∀ m : Guarded DocumentSchema σ I64 β, m.descriptor.adapter = byDocument config →
        m.descriptor.input = integers lo hi → ∀ s,
        (FaultsProjection (exchange m (.value v) s).answer ↔ ∃ x, v = .number (.double x))) := by
  have haccepted := validate_integers_iff config lo hi hv
  refine ⟨haccepted, fun hok => ?_⟩
  obtain ⟨n, k, rfl, hn, hlow, hhigh⟩ := haccepted.mp hok
  have hdecodes : (∃ x, (byDocument config).decode (integers lo hi) (.number n) = .ok x) ↔
      ∃ j, (.number n : Json) = .number (.whole j) := by
    simp only [Adapter.decode_eq_ok_iff]
    constructor
    · rintro ⟨x, hx⟩
      exact ⟨x.val, decodeJson_ranged_iff.mp hx⟩
    · rintro ⟨j, ⟨⟩⟩
      obtain rfl : j = k := Number.is_whole_iff.mp hn
      exact ⟨⟨j, by omega, by omega⟩, decodeJson_ranged_iff.mpr rfl⟩
  refine ⟨hdecodes, fun m hadapter hinput s => ?_⟩
  rw [faultsProjection_iff m hadapter, hinput, and_iff_right hok, hdecodes]
  cases n <;> simp

/-- The method that gives its argument back, from nothing to two. -/
def echo : Method DocumentSchema Unit I64 I64 :=
  (byDocument ⟨.draft7, false⟩).tryMethod (integers 0 2) (integers 0 2) fun x s => (.ok x, s)

theorem whole_one_decodes :
    (∃ x, (byDocument ⟨.draft7, false⟩).decode (integers 0 2) (Json.whole 1) = .ok x) ∧
      ¬ FaultsProjection (exchange (.now echo) (.value (Json.whole 1)) ()).answer := by
  have hone : (Json.whole 1).Valid := by
    show Number.FitsWord 1
    decide
  obtain ⟨haccepted, hlaw⟩ :=
    accepted_integers_decode_iff ⟨.draft7, false⟩ 0 2 (by decide) (by decide) hone
  obtain ⟨hdecodes, hcalls⟩ :=
    hlaw (haccepted.mpr ⟨.whole 1, 1, rfl, by simp, by decide, by decide⟩)
  refine ⟨hdecodes.mpr ⟨1, rfl⟩, ?_⟩
  rw [hcalls (.now echo) rfl rfl]
  rintro ⟨x, hx⟩
  cases hx

/-- One as a double is accepted and does not decode. -/
theorem double_one_accepted_not_decoded :
    (Json.number (.double ⟨0x3ff0000000000000⟩)).Valid ∧
      (byDocument ⟨.draft7, false⟩).validate (integers 0 2)
        (.number (.double ⟨0x3ff0000000000000⟩)) = .ok true ∧
      (exchange (.now echo) (.value (.number (.double ⟨0x3ff0000000000000⟩))) ()).answer =
        .error (.adapterFault ⟨"json-schema",
          .projection "invalid type: floating point `1.0`, expected i64"⟩) :=
  ⟨rfl, rfl, rfl⟩

end Extraction

end GuardedCall
