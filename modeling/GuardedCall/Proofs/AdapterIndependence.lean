-- The same method behind different adapters. Where two adapters accept the same
-- values and read and write them alike, a method ends alike behind both. For a
-- pair of numbers a document and a type accept the same values but for one
-- form: a type is also read out of an array of its two fields.
import GuardedCall.Adapter.ByType
import GuardedCall.Proofs.Boundary
import GuardedCall.Proofs.PlainSchemas
import GuardedCall.Proofs.Records
import GuardedCall.Proofs.StrictMode
import GuardedCall.Typed.Records

namespace GuardedCall.AdapterIndependence

open GuardedCall.Boundary
open GuardedCall.Json
open GuardedCall.Schema
open GuardedCall.Typed

variable {S T : Type → Type} {σ α β γ : Type}

/-! ## Calls that end alike -/

/-- Two calls end with the same result or with failures of the same kind, in the same state. -/
def SameKinds (x y : Attempt σ MethodFault α) : Prop :=
  ∀ s, (x.mapError MethodFault.kind).ends s = (y.mapError MethodFault.kind).ends s

theorem SameKinds.refl (x : Attempt σ MethodFault α) : SameKinds x x := fun _ => rfl

theorem SameKinds.bind {x y : Attempt σ MethodFault α} {f g : α → Attempt σ MethodFault β}
    (h : SameKinds x y) (hfg : ∀ a, SameKinds (f a) (g a)) : SameKinds (x >>= f) (y >>= g) := by
  intro s
  have hs := h s
  simp only [Attempt.ends_mapError, Attempt.ends_bind] at hs ⊢
  rcases hx : x.ends s with ⟨e | a, s'⟩ <;> rcases hy : y.ends s with ⟨e' | a', s''⟩ <;>
    simp [hx, hy] at hs
  · simp [hs]
  · obtain ⟨rfl, rfl⟩ := hs
    exact hfg a s'

/-- Two boundaries read and write alike, and accept a value, and any result, alike. -/
structure Alike (d : Descriptor S α β) (d' : Descriptor T α β) (v : Json) : Prop where
  input : d.adapter.codec d.input = d'.adapter.codec d'.input
  output : d.adapter.codec d.output = d'.adapter.codec d'.output
  accepts : ∃ b, d.adapter.validate d.input v = .ok b ∧ d'.adapter.validate d'.input v = .ok b
  releases : ∀ w, ∃ b, d.adapter.validate d.output w = .ok b ∧
    d'.adapter.validate d'.output w = .ok b

section Alike

variable {d : Descriptor S α β} {d' : Descriptor T α β}

theorem sameKinds_check {schema : S γ} {schema' : T γ} (side : String)
    (fault : String → String → MethodFault) {kind : FailureKind}
    (hfault : ∀ name detail, (fault name detail).kind = kind) {v : Json}
    (h : ∃ b, d.adapter.validate schema v = .ok b ∧ d'.adapter.validate schema' v = .ok b) :
    SameKinds (d.check schema side fault v : Attempt σ _ _) (d'.check schema' side fault v) := by
  obtain ⟨b, hb, hb'⟩ := h
  intro s
  cases b with
  | true =>
    rw [Attempt.ends_mapError, Attempt.ends_mapError, ends_check_accepted _ _ _ _ s hb,
      ends_check_accepted _ _ _ _ s hb']
  | false =>
    rw [Attempt.ends_mapError, Attempt.ends_mapError, ends_check_rejected _ _ _ _ s hb,
      ends_check_rejected _ _ _ _ s hb']
    simp [hfault]

theorem sameKinds_decodeInput (h : d.adapter.codec d.input = d'.adapter.codec d'.input) (v : Json) :
    SameKinds (d.decodeInput v : Attempt σ _ _) (d'.decodeInput v) := by
  intro s
  unfold Descriptor.decodeInput Adapter.decode
  rw [h]
  cases (d'.adapter.codec d'.input).decodeJson v <;> rfl

theorem sameKinds_encodeOutput (h : d.adapter.codec d.output = d'.adapter.codec d'.output) (y : β) :
    SameKinds (d.encodeOutput y : Attempt σ _ _) (d'.encodeOutput y) := by
  intro s
  unfold Descriptor.encodeOutput Adapter.encode
  rw [h]
  cases (d'.adapter.codec d'.output).encode y <;> rfl

/-- Behind boundaries that are alike the same implementation ends alike. -/
theorem sameKinds_callValueWith {v : Json} (h : Alike d d' v) (run : α → Attempt σ MethodFault β) :
    SameKinds (d.callValueWith run v) (d'.callValueWith run v) := by
  refine .bind (sameKinds_check "input" .invalidInput (fun _ _ => rfl) h.accepts) fun _ => ?_
  refine .bind (sameKinds_decodeInput h.input v) fun x => ?_
  refine .bind (.refl (run x)) fun y => ?_
  refine .bind (sameKinds_encodeOutput h.output y) fun w => ?_
  exact .bind (sameKinds_check "output" .invalidOutput (fun _ _ => rfl) (h.releases w)) fun _ => .refl _

end Alike

/-- A value that is rejected reaches no implementation. -/
theorem ends_callValueWith_rejected {d : Descriptor S α β} {v : Json}
    (h : d.adapter.validate d.input v = .ok false) (run : α → Attempt σ MethodFault β) (s : σ) :
    (d.callValueWith run v).ends s = (.error (.invalidInput d.adapter.name
      ((d.adapter.diagnose d.input v).getD "value does not match input schema")), s) := by
  unfold Descriptor.callValueWith Descriptor.checkInput
  rw [Attempt.ends_bind, ends_check_rejected _ _ _ _ s h]
  rfl

/-! ## Reading a pair of numbers -/

/-- The number that a field gets from the member of its name, or from before it. -/
def fieldOf (found : Option Json) (slot : Option Double) : Option (Option Double) :=
  match found with
  | none => some slot
  | some (.number n) => some (some n.toDouble)
  | some _ => none

/-- That is how any field is filled. -/
theorem filled_f64 (found : Option Json) (slot : Option Double) :
    filled f64 found slot = fieldOf found slot := by
  rcases found with _ | v
  · rfl
  · cases v <;> rfl

/-- Each of the two fields takes every member for itself. -/
theorem taken_pair (s : Option Double × Option Double) (m : String × Json) :
    taken (Pair.step false .value) ⟨s.1, s.2⟩ m =
      (sideBySide (give "a" f64) (give "b" f64) s m).map fun s => ⟨s.1, s.2⟩ := by
  obtain ⟨a, b⟩ := s
  obtain ⟨key, v⟩ := m
  unfold taken Pair.step sideBySide
  by_cases ha : key = "a"
  · subst ha
    have hb : "a" ≠ "b" := by decide
    rw [if_pos rfl, toOption_put, give_of_ne hb]
    cases give "a" f64 a ("a", v) <;> rfl
  · by_cases hb : key = "b"
    · subst hb
      rw [if_neg ha, if_pos rfl, toOption_put, give_of_ne ha]
      cases give "b" f64 b ("b", v) <;> rfl
    · rw [if_neg ha, if_neg hb, if_neg Bool.false_ne_true, skip_ofJson, give_of_ne ha,
        give_of_ne hb]
      rfl

theorem fieldOf_eq_filled_iff {found : Option Json} {x : Double} :
    fieldOf found none = some (some x) ↔ ∃ n, found = some (.number n) ∧ x = n.toDouble := by
  rcases found with _ | v
  · simp [fieldOf]
  · cases v <;> simp [fieldOf, eq_comm]

/-- The value has a number under the name of each of the two fields. -/
def HasNumbers (v : Json) (m n : Number) : Prop :=
  v.member? "a" = some (.number m) ∧ v.member? "b" = some (.number n)

/-- The pair of two fields, if both were given. -/
def pairOf (s : Pair.Slots) : Option Pair := s.a.bind fun a => s.b.map fun b => ⟨a, b⟩

theorem toOption_decode_object {members : Table Json} (hsorted : Table.Sorted members) :
    (openPair.decodeJson (.object members)).toOption =
      (fieldOf (members.find? "a") none).bind fun a =>
        (fieldOf (members.find? "b") none).bind fun b => pairOf ⟨a, b⟩ := by
  have hvisit : (openPair.decodeJson (.object members)).toOption =
      (visit (Pair.step false .value) {} (Written.membersOfJson members) none).toOption.bind
        pairOf := by
    show (visit (Pair.step false .value) {} (Written.membersOfJson members) none >>= _).toOption = _
    rw [toOption_bind]
    congr
    funext s
    obtain ⟨a, b⟩ := s
    cases a <;> cases b <;> rfl
  have hparts : (visit (Pair.step false .value) {} (Written.membersOfJson members) none).toOption =
      _ := toOption_visit_image taken_pair members (none, none)
  rw [hvisit, hparts, foldlM_sideBySide, foldlM_give hsorted (by simp),
    foldlM_give hsorted (by simp), filled_f64, filled_f64]
  simp [Option.map_eq_bind, Option.bind_assoc]

/-- An object reads as the pair of its numbers under the two names. -/
theorem decode_object_iff {members : Table Json} (hsorted : Table.Sorted members) {p : Pair} :
    openPair.decodeJson (.object members) = .ok p ↔
      ∃ m n, HasNumbers (.object members) m n ∧ p = ⟨m.toDouble, n.toDouble⟩ := by
  rw [← toOption_eq_some_iff, toOption_decode_object hsorted]
  constructor
  · intro h
    obtain ⟨a, ha, h⟩ := Option.bind_eq_some_iff.mp h
    obtain ⟨b, hb, h⟩ := Option.bind_eq_some_iff.mp h
    obtain ⟨x, rfl, h⟩ := Option.bind_eq_some_iff.mp h
    obtain ⟨y, rfl, rfl⟩ := Option.map_eq_some_iff.mp h
    obtain ⟨m, hm, rfl⟩ := fieldOf_eq_filled_iff.mp ha
    obtain ⟨n, hn, rfl⟩ := fieldOf_eq_filled_iff.mp hb
    exact ⟨m, n, ⟨hm, hn⟩, rfl⟩
  · rintro ⟨m, n, ⟨hm, hn⟩, rfl⟩
    have ha := fieldOf_eq_filled_iff.mpr ⟨m, hm, rfl⟩
    have hb := fieldOf_eq_filled_iff.mpr ⟨n, hn, rfl⟩
    simp only [Json.member?] at ha hb
    rw [ha, hb]
    rfl

/-- An array reads as a pair exactly if it holds two numbers and nothing else. -/
theorem decode_array_iff {items : List Json} {p : Pair} :
    openPair.decodeJson (.array items) = .ok p ↔
      ∃ m n, items = [.number m, .number n] ∧ p = ⟨m.toDouble, n.toDouble⟩ := by
  constructor
  · intro h
    rcases items with _ | ⟨x, _ | ⟨y, _ | ⟨z, rest⟩⟩⟩
    · cases h
    · cases x <;> cases h
    · cases x <;> cases y <;> cases h
      exact ⟨_, _, rfl, rfl⟩
    · cases x <;> cases y <;> cases h
  · rintro ⟨m, n, rfl, rfl⟩
    rfl

theorem decode_pair_iff {v : Json} (hv : v.Valid) {p : Pair} :
    openPair.decodeJson v = .ok p ↔
      (∃ m n, HasNumbers v m n ∧ p = ⟨m.toDouble, n.toDouble⟩) ∨
        ∃ m n, v = .array [.number m, .number n] ∧ p = ⟨m.toDouble, n.toDouble⟩ := by
  cases v with
  | object members => simp [decode_object_iff hv.1]
  | array items => simp [decode_array_iff, HasNumbers, Json.member?]
  | null | bool | number | string =>
    constructor
    · intro h
      cases h
    · simp [HasNumbers, Json.member?]

/-! ## The document of a pair of numbers -/

def numberMembers : Table Json := [("type", .string "number")]

def pairMembers : Table Json :=
  [("properties", .object [("a", .object numberMembers), ("b", .object numberMembers)]),
    ("required", .array [.string "a", .string "b"]), ("type", .string "object")]

section Document

variable {ctx : Context} {v : Json}

theorem number_holds_iff :
    (meaning ctx (.object numberMembers) v).holds = true ↔ ∃ n, v = .number n := by
  unfold numberMembers
  rw [typed_holds_iff]
  cases v <;> simp [allowedTypes, hasType]

/-- The properties of the document are the two fields. -/
theorem property_iff {name : String} {w : Json} :
    (schemasByName pairMembers "properties").find? name = some w ↔
      (name = "a" ∨ name = "b") ∧ w = .object numberMembers := by
  simp only [pairMembers, schemasByName, Table.find?_cons, Table.find?_nil]
  by_cases ha : name = "a"
  · subst ha
    simp [eq_comm]
  · by_cases hb : name = "b"
    · subst hb
      simp [eq_comm]
    · simp [ha, hb, Ne.symm ha, Ne.symm hb]

/-- Only objects are as the document asks for, and those with the two numbers. -/
theorem pair_holds_iff (hv : v.Valid) :
    (meaning ctx (.object pairMembers) v).holds = true ↔ ∃ m n, HasNumbers v m n := by
  have hplain : Plain pairMembers := by
    simp [Plain, pairMembers, plainKeywords, assertionKeywords]
  have htyped : OnlyTyped pairMembers := by simp [OnlyTyped, pairMembers, assertionKeywords]
  have hnot : ¬ OverlooksRequired pairMembers := by
    rintro ⟨-, -, -, inner, hinner⟩
    cases hinner
  have hobject : (∃ members, v = .object members) ∨
      hasType v "object" = false ∧ ∀ name, v.member? name = none := by
    cases v <;> simp [hasType, Json.member?]
  rw [hplain.holds_iff rfl]
  rcases hobject with ⟨members, rfl⟩ | ⟨htype, hmember⟩
  case inr =>
    constructor
    · intro hmeets
      have hallowed := (htyped.assertions_iff.mp hmeets.assertions).1 _ rfl
      simp [allowedTypes, htype] at hallowed
    · rintro ⟨m, n, hm, -⟩
      cases (hmember "a").symm.trans hm
  have hsorted : Table.Sorted members := hv.1
  constructor
  · intro hmeets
    have hfield : ∀ name, name = "a" ∨ name = "b" →
        ∃ n, Table.find? members name = some (.number n) := by
      intro name hname
      have hnames : name ∈ requiredNames pairMembers := by
        rcases hname with rfl | rfl <;> simp [requiredNames, pairMembers, Parts.textsOf]
      have hhas := missingNames_eq_nil_iff.mp (hmeets.required hnot) members rfl name hnames
      obtain ⟨x, hx⟩ := Option.isSome_iff_exists.mp hhas
      have hholds := hmeets.property _ (Table.mem_of_find? hx) _ (property_iff.mpr ⟨hname, rfl⟩)
      obtain ⟨n, rfl⟩ := number_holds_iff.mp hholds
      exact ⟨n, hx⟩
    obtain ⟨m, hm⟩ := hfield "a" (.inl rfl)
    obtain ⟨n, hn⟩ := hfield "b" (.inr rfl)
    exact ⟨m, n, hm, hn⟩
  · rintro ⟨m, n, hm, hn⟩
    have hfield : ∀ name, name = "a" ∨ name = "b" → ∃ n, Table.find? members name = some (.number n) := by
      rintro name (rfl | rfl)
      · exact ⟨m, hm⟩
      · exact ⟨n, hn⟩
    exact {
      assertions := by
        rw [htyped.assertions_iff]
        simp [pairMembers, allowedTypes, hasType]
      required := fun _ => by
        refine missingNames_eq_nil_iff.mpr fun inner hinner name hname => ?_
        cases hinner
        obtain ⟨n, hn⟩ := hfield name (by simpa [requiredNames, pairMembers, Parts.textsOf] using hname)
        simp [Table.has, hn]
      property := fun p hp w hw => by
        obtain ⟨hname, rfl⟩ := property_iff.mp hw
        obtain ⟨n, hn⟩ := hfield p.1 hname
        have hvalue := Option.some.inj ((hsorted.find?_of_mem hp).symm.trans hn)
        exact number_holds_iff.mpr ⟨n, hvalue⟩
      further := fun _ _ _ w hw => by cases hw
      names := fun w hw => by cases hw
      commonItems := fun w hw => by cases hw
      placedItems := fun _ p hp => by cases hp
      allOf := fun w hw => by cases hw
      anyOf := fun h => by cases h
      referred := fun r hr => by cases hr }

end Document

/-! ## The same method behind both adapters -/

/-- The pair by its document. -/
def pairByDocument : DocumentSchema Pair := ⟨.object pairMembers, openPair⟩

def numberByDocument : DocumentSchema Double := ⟨.object numberMembers, f64⟩

/-- The pair by its type. -/
def pairByType : TypeSchema Pair := ⟨openPair⟩

def numberByType : TypeSchema Double := ⟨f64⟩

/-- An implementation on pairs behind documents. -/
def viaDocument (dialect : Dialect) (f : Implementation σ Pair Double) :
    Method DocumentSchema σ Pair Double :=
  (byDocument ⟨dialect, false⟩).tryMethod pairByDocument numberByDocument f

/-- An implementation on pairs behind types. -/
def viaType (f : Implementation σ Pair Double) : Method TypeSchema σ Pair Double :=
  byType.tryMethod pairByType numberByType f

/-- An array of two numbers and nothing else. -/
def IsNumberPair (v : Json) : Prop := ∃ m n, v = .array [.number m, .number n]

set_option maxRecDepth 2048 in
theorem compile_pair (dialect : Dialect) :
    compileDocument ⟨dialect, false⟩ pairByDocument.document =
      .ok ⟨dialect, pairByDocument.document⟩ := by
  cases dialect <;> rfl

theorem compile_number (dialect : Dialect) :
    compileDocument ⟨dialect, false⟩ numberByDocument.document =
      .ok ⟨dialect, numberByDocument.document⟩ := by
  cases dialect <;> rfl

/-- A document that compiles can always be asked. -/
theorem asked_of_compiles {config : SchemaConfig} {schema : DocumentSchema α} {c : Validator}
    (h : compileDocument config schema.document = .ok c) (v : Json) :
    ∃ b, (byDocument config).validate schema v = .ok b :=
  ⟨_, StrictMode.validate_eq_ok_iff.mpr ⟨⟨c, h⟩, rfl⟩⟩

theorem byDocument_pair_iff (dialect : Dialect) {v : Json} (hv : v.Valid) :
    (byDocument ⟨dialect, false⟩).validate pairByDocument v = .ok true ↔ ∃ m n, HasNumbers v m n := by
  rw [StrictMode.validate_eq_ok_iff, and_iff_right ⟨_, compile_pair dialect⟩]
  exact pair_holds_iff hv

theorem byDocument_number_iff (dialect : Dialect) {w : Json} :
    (byDocument ⟨dialect, false⟩).validate numberByDocument w = .ok true ↔ ∃ n, w = .number n := by
  rw [StrictMode.validate_eq_ok_iff, and_iff_right ⟨_, compile_number dialect⟩]
  exact number_holds_iff

/-- A type accepts what reads as a value of it. -/
theorem byType_iff {schema : TypeSchema α} {v : Json} :
    byType.validate schema v = .ok true ↔ ∃ x, schema.codec.decodeJson v = .ok x := by
  show Except.ok (schema.codec.decodeJson v).toBool = .ok true ↔ _
  cases schema.codec.decodeJson v <;> simp [Except.toBool]

theorem byType_pair_iff {v : Json} (hv : v.Valid) :
    byType.validate pairByType v = .ok true ↔ (∃ m n, HasNumbers v m n) ∨ IsNumberPair v := by
  rw [byType_iff]
  constructor
  · rintro ⟨p, hp⟩
    rcases (decode_pair_iff hv).mp hp with ⟨m, n, h, -⟩ | ⟨m, n, h, -⟩
    · exact .inl ⟨m, n, h⟩
    · exact .inr ⟨m, n, h⟩
  · rintro (⟨m, n, h⟩ | ⟨m, n, h⟩)
    · exact ⟨_, (decode_pair_iff hv).mpr (.inl ⟨m, n, h, rfl⟩)⟩
    · exact ⟨_, (decode_pair_iff hv).mpr (.inr ⟨m, n, h, rfl⟩)⟩

theorem byType_number_iff {w : Json} :
    byType.validate numberByType w = .ok true ↔ ∃ n, w = .number n := by
  rw [byType_iff]
  cases w <;> simp [numberByType, Codec.decodeJson, Written.ofJson, f64]

/-- Two verdicts that accept the same are the same. -/
theorem same_verdict {x y : Except AdapterFault Bool} (hx : ∃ b, x = .ok b) (hy : ∃ b, y = .ok b)
    (h : x = .ok true ↔ y = .ok true) : ∃ b, x = .ok b ∧ y = .ok b := by
  obtain ⟨b, rfl⟩ := hx
  obtain ⟨c, rfl⟩ := hy
  cases b <;> cases c <;> simp_all

theorem alike_pair (dialect : Dialect) (f : Implementation σ Pair Double) {v : Json} (hv : v.Valid)
    (hpair : ¬ IsNumberPair v) :
    Alike (viaDocument dialect f).descriptor (viaType f).descriptor v where
  input := rfl
  output := rfl
  accepts := by
    refine same_verdict (asked_of_compiles (compile_pair dialect) v) ⟨_, rfl⟩ ?_
    exact (byDocument_pair_iff dialect hv).trans
      ((or_iff_left hpair).symm.trans (byType_pair_iff hv).symm)
  releases w := by
    refine same_verdict (asked_of_compiles (compile_number dialect) w) ⟨_, rfl⟩ ?_
    exact (byDocument_number_iff dialect).trans byType_number_iff.symm

theorem document_rejects_pair (dialect : Dialect) {v : Json} (hv : v.Valid) (hpair : IsNumberPair v) :
    (byDocument ⟨dialect, false⟩).validate pairByDocument v = .ok false := by
  obtain ⟨b, hb⟩ := asked_of_compiles (compile_pair dialect) v
  cases b with
  | false => exact hb
  | true =>
    obtain ⟨m, n, hnumbers⟩ := (byDocument_pair_iff dialect hv).mp hb
    obtain ⟨m', n', rfl⟩ := hpair
    cases hnumbers.1

theorem viaDocument_rejects_pair (dialect : Dialect) (f : Implementation σ Pair Double) {v : Json}
    (hv : v.Valid) (hpair : IsNumberPair v) (s : σ) :
    ∃ fault, ((viaDocument dialect f).callValue v).ends s = (.error fault, s) ∧
      fault.kind = .invalidInput :=
  ⟨_, ends_callValueWith_rejected (document_rejects_pair dialect hv hpair) _ s, rfl⟩

/-- A type reads the array of its fields as it reads the object with them. -/
theorem viaType_callValue_array (f : Implementation σ Pair Double) (m n : Number) :
    (viaType f).callValue (.array [.number m, .number n]) =
      (viaType f).callValue (.object [("a", .number m), ("b", .number n)]) := by
  rfl

/-- The document and the type accept the same values but for arrays of two numbers, and neither
ever faults. A method of the same implementation ends alike behind both: with the same result, or
with a failure of the same kind, in the same state. An array of two numbers is rejected by the
document, and behind the type the call ends as with the object of the two numbers. -/
theorem pair_adapters_agree (dialect : Dialect) (f : Implementation σ Pair Double) {v : Json}
    (hv : v.Valid) :
    (∃ b, (byDocument ⟨dialect, false⟩).validate pairByDocument v = .ok b) ∧
      (∃ b, byType.validate pairByType v = .ok b) ∧
      (byType.validate pairByType v = .ok true ↔
        (byDocument ⟨dialect, false⟩).validate pairByDocument v = .ok true ∨ IsNumberPair v) ∧
      (¬ IsNumberPair v →
        SameKinds ((viaDocument dialect f).callValue v) ((viaType f).callValue v)) ∧
      ∀ m n, v = .array [.number m, .number n] →
        (byDocument ⟨dialect, false⟩).validate pairByDocument v = .ok false ∧
        (∀ s, ∃ fault, ((viaDocument dialect f).callValue v).ends s = (.error fault, s) ∧
          fault.kind = .invalidInput) ∧
        (viaType f).callValue v =
          (viaType f).callValue (.object [("a", .number m), ("b", .number n)]) := by
  refine ⟨asked_of_compiles (compile_pair dialect) v, ⟨_, rfl⟩, ?_, ?_, ?_⟩
  · rw [byType_pair_iff hv, byDocument_pair_iff dialect hv]
  · intro hpair
    exact sameKinds_callValueWith (alike_pair dialect f hv hpair) _
  · intro m n hvalue
    exact ⟨document_rejects_pair dialect hv ⟨m, n, hvalue⟩,
      viaDocument_rejects_pair dialect f hv ⟨m, n, hvalue⟩, hvalue ▸ viaType_callValue_array f m n⟩

/-- The sum of the two numbers. -/
def add : Implementation Unit Pair Double := .ofTotal fun p s => (p.a.add p.b, s)

/-- One and two as the members of an object. -/
def oneAndTwo : Json := .object [("a", Json.whole 1), ("b", Json.whole 2)]

theorem one_valid : (Json.whole 1).Valid := show Number.FitsWord 1 by decide

theorem two_valid : (Json.whole 2).Valid := show Number.FitsWord 2 by decide

/-- An object of two numbers is added alike behind both adapters. -/
theorem object_is_added_alike :
    oneAndTwo.Valid ∧ ¬ IsNumberPair oneAndTwo ∧
      SameKinds ((viaDocument .draft2020 add).callValue oneAndTwo) ((viaType add).callValue oneAndTwo) ∧
      ((viaType add).callValue oneAndTwo).ends () = (.ok (Json.ofDouble (Double.ofInt 3)), ()) := by
  have hsorted : Table.Sorted [("a", Json.whole 1), ("b", Json.whole 2)] :=
    List.pairwise_pair.mpr (by decide)
  have hvalid : oneAndTwo.Valid := ⟨hsorted, one_valid, two_valid, trivial⟩
  have hobject : ¬ IsNumberPair oneAndTwo := by
    rintro ⟨m, n, h⟩
    cases h
  obtain ⟨-, -, -, hsame, -⟩ := pair_adapters_agree .draft2020 add hvalid
  exact ⟨hvalid, hobject, hsame hobject, rfl⟩

/-- One and two as the items of an array. -/
def oneThenTwo : Json := .array [Json.whole 1, Json.whole 2]

/-- An array of two numbers is a pair for the type alone, and only behind the type it is added. -/
theorem array_is_added_only_by_type :
    (byDocument ⟨.draft2020, false⟩).validate pairByDocument oneThenTwo = .ok false ∧
      byType.validate pairByType oneThenTwo = .ok true ∧
      (((viaDocument .draft2020 add).callValue oneThenTwo).mapError MethodFault.kind).ends () =
        (.error .invalidInput, ()) ∧
      ((viaType add).callValue oneThenTwo).ends () = (.ok (Json.ofDouble (Double.ofInt 3)), ()) := by
  have hvalid : oneThenTwo.Valid := ⟨one_valid, two_valid, trivial⟩
  obtain ⟨fault, hends, hkind⟩ := viaDocument_rejects_pair .draft2020 add hvalid ⟨_, _, rfl⟩ ()
  refine ⟨document_rejects_pair .draft2020 hvalid ⟨_, _, rfl⟩, rfl, ?_, rfl⟩
  rw [Attempt.ends_mapError, hends, ← hkind]
  rfl

end GuardedCall.AdapterIndependence
