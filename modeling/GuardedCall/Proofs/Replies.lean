-- The laws of replies on the wire. A failure reads back as it was written,
-- whatever its message is. A result reads back if it leaves room for the one
-- level that the reply puts around it, and it never reads as a failure. So a
-- reply as a whole reads back exactly if its result leaves that room.
import GuardedCall.Client.Reply
import GuardedCall.Proofs.JsonText

namespace GuardedCall.Reply

open GuardedCall.Json GuardedCall.Typed

/-! ## Parts of a text that shows a value -/

theorem ok_bind {ε α β : Type} (a : α) (f : α → Except ε β) : (Except.ok a >>= f) = f a := rfl

theorem shows_string {w : Written} {s : String} (h : Shows w (.string s)) :
    ∃ span, w = .scalar span (.string s) := by
  generalize hv : Json.string s = v at h
  cases h with
  | scalar span t =>
    cases t <;> cases hv
    exact ⟨span, rfl⟩
  | array => cases hv
  | object => cases hv

theorem shows_object {w : Written} {ps : List (String × Json)} (h : Shows w (.object ps)) :
    ∃ span ms, w = .object span ms none ∧ ShowsMembers ms ps := by
  generalize hv : Json.object ps = v at h
  cases h with
  | scalar span t => cases t <;> cases hv
  | array => cases hv
  | object span h =>
    cases hv
    exact ⟨span, _, rfl, h⟩

/-- An object of one member is shown by one member. -/
theorem shows_singleton {w : Written} {k : String} {v : Json} (h : Shows w (.object [(k, v)])) :
    ∃ span key content, w = .object span [(key, content)] none ∧ key.name = k ∧ Shows content v := by
  obtain ⟨span, ms, rfl, hms⟩ := shows_object h
  cases hms with
  | cons key hv hrest =>
    cases hrest
    exact ⟨span, key, _, rfl, rfl, hv⟩

theorem shows_pair {w : Written} {k k' : String} {v v' : Json}
    (h : Shows w (.object [(k, v), (k', v')])) :
    ∃ span key content key' content', w = .object span [(key, content), (key', content')] none ∧
      key.name = k ∧ key'.name = k' ∧ Shows content v ∧ Shows content' v' := by
  obtain ⟨span, ms, rfl, hms⟩ := shows_object h
  cases hms with
  | cons key hv hrest =>
    cases hrest with
    | cons key' hv' hrest =>
      cases hrest
      exact ⟨span, key, _, key', _, rfl, rfl, rfl, hv, hv'⟩

/-! ## Failures -/

theorem decode_kind (span : Span) (k : FailureKind) :
    failureKindCodec.decode .text (.scalar span (.string k.name)) = .ok k := by
  cases k <;> rfl

theorem toJson_error_valid (k : FailureKind) (m : String) : (Reply.error k m).toJson.Valid := by
  have hlt : "kind" < "message" := by decide
  have hsorted : Table.Sorted [("kind", Json.string k.name), ("message", Json.string m)] :=
    List.pairwise_pair.mpr hlt
  exact ⟨List.pairwise_singleton _ _, ⟨hsorted, trivial, trivial, trivial⟩, trivial⟩

/-- A text that shows a failure is decoded as the failure. -/
theorem decodeFailure_of_shows {w : Written} {k : FailureKind} {m : String}
    (h : Shows w (.object [("kind", .string k.name), ("message", .string m)])) :
    decodeFailure .text w = .ok (.error k m) := by
  obtain ⟨span, key, content, key', content', rfl, hkey, hkey', hcontent, hcontent'⟩ :=
    shows_pair h
  obtain ⟨span', rfl⟩ := shows_string hcontent
  obtain ⟨span'', rfl⟩ := shows_string hcontent'
  have hkind : step .text {} key (.scalar span' (.string k.name)) = .ok ⟨some k, none⟩ := by
    unfold step
    rw [if_pos hkey, decode_kind]
    rfl
  have hmessage : step .text ⟨some k, none⟩ key' (.scalar span'' (.string m)) =
      .ok ⟨some k, some m⟩ := by
    unfold step
    rw [if_neg (by rw [hkey']; decide), if_pos hkey']
    rfl
  unfold decodeFailure visit
  simp only [List.foldlM_cons, List.foldlM_nil, hkind, hmessage, ok_bind]
  rfl

/-- The first member of an object names the variant, whatever follows. -/
theorem read_variant {names : List String} {key : Key} (h : key.name ∈ names) (span : Span)
    (content : Written) (more : List (Key × Written)) (ending : Option ReadFault) :
    Variant.read .text names (.object span ((key, content) :: more) ending) =
      .ok ⟨key.name, some content⟩ := by
  have hknown : known names key.name key.stop = .ok () := if_pos h
  show (known names key.name key.stop >>= fun _ => _) = _
  rw [hknown, ok_bind]
  rfl

theorem decode_error {w : Written} {k : FailureKind} {m : String}
    (h : Shows w (Reply.error k m).toJson) : Reply.decode .text w = .ok (.error k m) := by
  obtain ⟨span, key, content, rfl, hkey, hcontent⟩ := shows_singleton h
  unfold Reply.decode
  rw [read_variant (by simp [hkey])]
  simp only [ok_bind, Variant.payload, hkey]
  rw [if_neg (by decide), decodeFailure_of_shows hcontent]
  rfl

/-- Of the bytes of a reply the decoder sees the text. -/
theorem ofBytes_bytes (r : Reply) :
    Reply.ofBytes r.bytes =
      (Reply.decode .text (readDocument depthLimit (chars r.toJson)).written >>= fun x =>
        match (readDocument depthLimit (chars r.toJson)).trailing with
        | none => pure x
        | some f => throw (.ofRead f)).mapError fun f => .json (f.messageIn (chars r.toJson)) := by
  unfold ofBytes bytes Json.bytes
  rw [Text.Utf8.decode_encode]
  rfl

/-- A failure reads back from its bytes, whatever characters its message has. -/
theorem ofBytes_error (k : FailureKind) (m : String) :
    Reply.ofBytes (Reply.error k m).bytes = .ok (.error k m) := by
  have hdepth : (Reply.error k m).toJson.depth ≤ depthLimit := by
    show 2 ≤ 127
    decide
  obtain ⟨w, hw, hshows⟩ := readDocument_chars (toJson_error_valid k m) hdepth
  rw [ofBytes_bytes, hw]
  simp only [decode_error hshows, ok_bind]
  rfl

/-! ## Results -/

theorem decode_ok {w : Written} {v : Json} (hv : v.Valid) (h : Shows w (Reply.ok v).toJson) :
    Reply.decode .text w = .ok (.ok v) := by
  obtain ⟨span, key, content, rfl, hkey, hcontent⟩ := shows_singleton h
  unfold Reply.decode
  rw [read_variant (by simp [hkey])]
  simp only [ok_bind, Variant.payload, hkey, if_true, Typed.json, toJson_of_shows hcontent hv]
  rfl

theorem depth_ok (v : Json) : (Reply.ok v).toJson.depth = v.depth + 1 := by
  simp [Reply.toJson, Json.depth, depthMembers]

/-- A result reads back from its bytes if the reply around it is not too deep. -/
theorem ofBytes_ok {v : Json} (hv : v.Valid) (hd : v.depth < depthLimit) :
    Reply.ofBytes (Reply.ok v).bytes = .ok (.ok v) := by
  have hvalid : (Reply.ok v).toJson.Valid := ⟨List.pairwise_singleton _ _, hv, trivial⟩
  obtain ⟨w, hw, hshows⟩ := readDocument_chars hvalid
    (show (Reply.ok v).toJson.depth ≤ depthLimit by rw [depth_ok]; omega)
  rw [ofBytes_bytes, hw]
  simp only [decode_ok hv hshows, ok_bind]
  rfl

theorem written_readDocument (d : Nat) (text : List Char) :
    (readDocument d text).written = (readValue d ⟨text, 0⟩).1 := by
  unfold readDocument
  rcases readValue d ⟨text, 0⟩ with ⟨w, _ | next⟩ <;> rfl

/-- Whatever the result is, the reply is read as an object whose first member has the name of a
result and holds what the reader makes of the result one level down. -/
theorem written_ok (v : Json) :
    ∃ n span key more ending,
      (readDocument depthLimit (chars (Reply.ok v).toJson)).written =
        .object span ((key, (readValue 126 ⟨chars v ++ ['\x7d'], n⟩).1) :: more) ending ∧
      key.name = "ok" := by
  obtain ⟨n, p, hfirst⟩ := readFirstMember_value (readValue 126) "ok" (chars v ++ ['\x7d']) 1
  have hread : readValue depthLimit ⟨chars (Reply.ok v).toJson, 0⟩ =
      readNested (some (readValue 126))
        ⟨'\x7b' :: (stringText "ok" ++ ':' :: (chars v ++ ['\x7d'])), 0⟩ := by
    show readNested _ _ = _
    simp [Reply.toJson, chars, membersText]
  rw [written_readDocument, hread, readNested_object, hfirst]
  rcases hone : readValue 126 ⟨chars v ++ ['\x7d'], n⟩ with ⟨w, _ | next⟩
  · exact ⟨n, _, ⟨"ok", p, p⟩, _, _, by rw [hone]; rfl, rfl⟩
  · exact ⟨n, _, ⟨"ok", p, next.trim.offset⟩, _, _, by rw [hone]; rfl, rfl⟩

/-- A reply with a result is never decoded as a failure, whatever the result is. -/
theorem ofBytes_ok_ne_error (v : Json) (k : FailureKind) (m : String) :
    Reply.ofBytes (Reply.ok v).bytes ≠ .ok (.error k m) := by
  obtain ⟨n, span, key, more, ending, hw, hkey⟩ := written_ok v
  rw [ofBytes_bytes, hw]
  unfold Reply.decode
  rw [read_variant (by simp [hkey])]
  simp only [ok_bind, Variant.payload, hkey, if_true, Typed.json]
  generalize Variant.finish _ _ = finish
  generalize (readDocument depthLimit (chars (Reply.ok v).toJson)).trailing = trailing
  rcases (readValue 126 ⟨chars v ++ ['\x7d'], n⟩).1.toJson with f | u
  · intro h
    cases h
  · rcases finish with f | _
    · intro h
      cases h
    · rcases trailing with _ | f <;> (intro h; cases h)

/-- A result that fills the depth of a text leaves no room for the reply around it, and the
client sees a fault of the text. -/
theorem ofBytes_ok_tooDeep {v : Json} (hv : v.Valid) (hd : depthLimit ≤ v.depth) :
    ∃ n, Reply.ofBytes (Reply.ok v).bytes =
      .error (.json ((⟨.tooDeep, n⟩ : ReadFault).message (chars (Reply.ok v).toJson))) := by
  obtain ⟨n, span, key, more, ending, hw, hkey⟩ := written_ok v
  obtain ⟨w, k, hdeep, hk⟩ := readValue_tooDeep hv (show 126 < v.depth from hd) ['\x7d'] n
  rw [hdeep] at hw
  refine ⟨k, ?_⟩
  rw [ofBytes_bytes, hw]
  unfold Reply.decode
  rw [read_variant (by simp [hkey])]
  simp only [ok_bind, Variant.payload, hkey, if_true, Typed.json, hk]
  rfl

/-! ## Replies as a whole -/

/-- The result of a reply, if there is one, is a well-formed value. -/
def WellFormed : Reply → Prop
  | .ok v => v.Valid
  | .error _ _ => True

/-- How deep the result nests. A failure has none. -/
def resultDepth : Reply → Nat
  | .ok v => v.depth
  | .error _ _ => 0

/-- A reply reads back from its bytes as it was, and tells the client what it told before, exactly
if its result leaves room for the one level that the reply puts around it. -/
theorem reads_back_iff_room {r : Reply} (h : r.WellFormed) :
    (Reply.ofBytes r.bytes = .ok r ↔ r.resultDepth ≤ 126) ∧
      (r.resultDepth ≤ 126 →
        (∀ v, r = .ok v → (Reply.ofBytes r.bytes >>= Reply.result) = .ok v) ∧
        ∀ k m, r = .error k m → (Reply.ofBytes r.bytes >>= Reply.result) = .error (.remote k m)) := by
  have hback : r.resultDepth ≤ 126 → Reply.ofBytes r.bytes = .ok r := by
    intro hd
    cases r with
    | ok v => exact ofBytes_ok h (Nat.lt_succ_of_le hd)
    | error k m => exact ofBytes_error k m
  refine ⟨⟨?_, hback⟩, ?_⟩
  · intro hr
    by_contra hdeep
    cases r with
    | ok v =>
      obtain ⟨n, hn⟩ := ofBytes_ok_tooDeep h (not_le.mp hdeep)
      rw [hn] at hr
      cases hr
    | error k m => exact hdeep (Nat.zero_le 126)
  · intro hd
    rw [hback hd]
    constructor
    · rintro v rfl
      rfl
    · rintro k m rfl
      rfl

/-- Whole numbers at both ends of their range, an empty key, characters that are escaped and
characters of every length in bytes. -/
def extremes : Json :=
  .object [("", .whole (-0x8000000000000000)),
    ("\"\\\n", .array [.whole 0xffffffffffffffff, .object [], .null]),
    ("é€😀", .string "\x00\x1f\x7f")]

theorem extremes_valid : extremes.Valid := by
  have hsorted : Table.Sorted [("", Json.whole (-0x8000000000000000)),
      ("\"\\\n", .array [.whole 0xffffffffffffffff, .object [], .null]),
      ("é€😀", .string "\x00\x1f\x7f")] := .of_keys (by decide)
  have hlow : Number.FitsWord (-0x8000000000000000) := by decide
  have hhigh : Number.FitsWord 0xffffffffffffffff := by decide
  have hempty : Table.Sorted ([] : Table Json) := List.Pairwise.nil
  exact ⟨hsorted, hlow, ⟨hhigh, ⟨hempty, trivial⟩, trivial, trivial⟩, trivial, trivial⟩

/-- The reply with these extremes comes back. -/
theorem extremes_read_back :
    (Reply.ok extremes).WellFormed ∧
      Reply.ofBytes (Reply.ok extremes).bytes = .ok (.ok extremes) := by
  have hformed : (Reply.ok extremes).WellFormed := extremes_valid
  have hroom : (Reply.ok extremes).resultDepth ≤ 126 := by decide
  exact ⟨hformed, (reads_back_iff_room hformed).1.mpr hroom⟩

end GuardedCall.Reply
