-- The law of JSON texts: what is written for a value reads back as the value
-- when it nests no deeper than the reader follows, and when it nests deeper
-- the reader stops at the depth and says so.
import GuardedCall.Proofs.NumberText
import GuardedCall.Proofs.StringText
import GuardedCall.Proofs.Utf8
import GuardedCall.Json.Bytes

namespace GuardedCall.Json

/-! ## What a written text shows -/

mutual

/-- The text that was read shows the value: part by part the same, whatever the places are. -/
inductive Shows : Written → Json → Prop
  | scalar (span : Span) (s : Scalar) : Shows (.scalar span s) s.toJson
  | array (span : Span) {ws : List Written} {vs : List Json} :
    ShowsItems ws vs → Shows (.array span ws none) (.array vs)
  | object (span : Span) {ms : List (Key × Written)} {ps : List (String × Json)} :
    ShowsMembers ms ps → Shows (.object span ms none) (.object ps)

/-- The items show the values one by one. -/
inductive ShowsItems : List Written → List Json → Prop
  | nil : ShowsItems [] []
  | cons {w : Written} {v : Json} {ws : List Written} {vs : List Json} :
    Shows w v → ShowsItems ws vs → ShowsItems (w :: ws) (v :: vs)

/-- The members show the pairs one by one. -/
inductive ShowsMembers : List (Key × Written) → List (String × Json) → Prop
  | nil : ShowsMembers [] []
  | cons (key : Key) {w : Written} {v : Json} {ms : List (Key × Written)}
    {ps : List (String × Json)} :
    Shows w v → ShowsMembers ms ps → ShowsMembers ((key, w) :: ms) ((key.name, v) :: ps)

end

mutual

/-- A text that shows a well-formed value has the value. -/
theorem toJson_of_shows : ∀ {v : Json} {w : Written}, Shows w v → v.Valid → w.toJson = .ok v
  | _, _, .scalar span s, _ => rfl
  | .array vs, _, .array span h, hv => by
    rw [Written.toJson, itemsToJson_of_shows h hv]
    rfl
  | .object ps, _, .object span h, hv => by
    rw [Written.toJson, membersToJson_of_shows h hv.2]
    show Except.ok (ofPairs ps) = _
    rw [ofPairs, Table.ofList_of_sorted hv.1]

theorem itemsToJson_of_shows : ∀ {vs : List Json} {ws : List Written}, ShowsItems ws vs →
    ValidItems vs → Written.itemsToJson ws = .ok vs
  | _, _, .nil, _ => rfl
  | _, _, .cons h hrest, hv => by
    rw [Written.itemsToJson, toJson_of_shows h hv.1, itemsToJson_of_shows hrest hv.2]
    rfl

theorem membersToJson_of_shows : ∀ {ps : List (String × Json)} {ms : List (Key × Written)},
    ShowsMembers ms ps → ValidMembers ps → Written.membersToJson ms = .ok ps
  | _, _, .nil, _ => rfl
  | _, _, .cons key h hrest, hv => by
    rw [Written.membersToJson, toJson_of_shows h hv.1, membersToJson_of_shows hrest hv.2]
    rfl

end

mutual

/-- A value as a text without places shows itself. -/
theorem shows_ofJson : ∀ v : Json, Shows (Written.ofJson v) v
  | .null => .scalar _ .null
  | .bool b => .scalar _ (.bool b)
  | .number k => .scalar _ (.number k)
  | .string s => .scalar _ (.string s)
  | .array vs => .array _ (showsItems_ofJson vs)
  | .object ps => .object _ (showsMembers_ofJson ps)

theorem showsItems_ofJson : ∀ vs : List Json, ShowsItems (Written.itemsOfJson vs) vs
  | [] => .nil
  | v :: vs => .cons (shows_ofJson v) (showsItems_ofJson vs)

theorem showsMembers_ofJson :
    ∀ ps : List (String × Json), ShowsMembers (Written.membersOfJson ps) ps
  | [] => .nil
  | (k, v) :: ps => .cons ⟨k, 0, 0⟩ (shows_ofJson v) (showsMembers_ofJson ps)

end

/-! ## One step of the reader -/

/-- The items of an array from one on that was read, with the reader for those behind it. -/
def itemThen (r : Reading) (more : Cursor → Parts Written) : Parts Written :=
  match r with
  | (w, none) => ⟨[w], none, none⟩
  | (w, some next) => (more next).cons w

/-- The members of an object from one on whose value was read, with the reader for those
behind it. -/
def memberThen (k : String) (p : Nat) (r : Reading) (more : Cursor → Parts (Key × Written)) :
    Parts (Key × Written) :=
  match r with
  | (w, none) => ⟨[(⟨k, p, p⟩, w)], none, none⟩
  | (w, some next) => (more next).cons (⟨k, p, next.trim.offset⟩, w)

section Steps

variable (one : Cursor → Reading) (inner : Option (Cursor → Reading))

theorem readNested_string (s : String) (rest : List Char) (n : Nat) :
    ∃ span m, readNested inner ⟨stringText s ++ rest, n⟩ =
      (.scalar span (.string s), some ⟨rest, m⟩) := by
  obtain ⟨m, hm⟩ := readChars_string s rest (n + 1)
  refine ⟨⟨n, m⟩, m, ?_⟩
  rw [stringText_append]
  unfold readNested
  rw [trim_cons (by decide)]
  simp [hm]

theorem readNested_array (cs : List Char) (n : Nat) :
    readNested (some one) ⟨'[' :: cs, n⟩ =
      (.array ⟨n, (readFirstItem one ⟨cs, n + 1⟩).stopOr n⟩ (readFirstItem one ⟨cs, n + 1⟩).list
        (readFirstItem one ⟨cs, n + 1⟩).ending, (readFirstItem one ⟨cs, n + 1⟩).next) := by
  unfold readNested
  rw [trim_cons (by decide)]
  rfl

theorem readNested_object (cs : List Char) (n : Nat) :
    readNested (some one) ⟨'\x7b' :: cs, n⟩ =
      (.object ⟨n, (readFirstMember one ⟨cs, n + 1⟩).stopOr n⟩ (readFirstMember one ⟨cs, n + 1⟩).list
        (readFirstMember one ⟨cs, n + 1⟩).ending, (readFirstMember one ⟨cs, n + 1⟩).next) := by
  unfold readNested
  rw [trim_cons (by decide)]
  rfl

theorem readItems_end (fuel : Nat) (rest : List Char) (n : Nat) :
    readItems one (fuel + 1) ⟨']' :: rest, n⟩ = .done ⟨rest, n + 1⟩ := by
  unfold readItems
  rw [trim_cons (by decide)]
  rfl

/-- A character with which a value starts, so neither a blank nor the end of an array. -/
def StartsValue (c : Char) : Prop := isBlank c = false ∧ c ≠ ']'

theorem readFirstItem_value {c : Char} (hc : StartsValue c) (cs : List Char) (n : Nat) :
    readFirstItem one ⟨c :: cs, n⟩ =
      itemThen (one ⟨c :: cs, n⟩) fun next => readItems one next.rest.length next := by
  unfold readFirstItem itemThen
  rw [trim_cons hc.1]
  rcases h : one ⟨c :: cs, n⟩ with ⟨w, _ | next⟩ <;> simp [hc.2, h]

theorem readItems_value {c : Char} (hc : StartsValue c) (fuel : Nat) (cs : List Char) (n : Nat) :
    readItems one (fuel + 1) ⟨',' :: c :: cs, n⟩ =
      itemThen (one ⟨c :: cs, n + 1⟩) (readItems one fuel) := by
  unfold itemThen
  rw [readItems, trim_cons (by decide)]
  simp only [trim_cons hc.1]
  rcases one ⟨c :: cs, n + 1⟩ with ⟨w, _ | next⟩ <;> simp [hc.2]

theorem readMembers_end (fuel : Nat) (rest : List Char) (n : Nat) :
    readMembers one (fuel + 1) ⟨'\x7d' :: rest, n⟩ = .done ⟨rest, n + 1⟩ := by
  unfold readMembers
  rw [trim_cons (by decide)]
  rfl

theorem readMember_value (k : String) (cs : List Char) (n : Nat) :
    ∃ m p, readMember one (k.toList.flatMap charText ++ '"' :: ':' :: cs) n =
      match one ⟨cs, m⟩ with
      | (w, none) => .ok ((⟨k, p, p⟩, w), none)
      | (w, some next) => .ok ((⟨k, p, next.trim.offset⟩, w), some next) := by
  obtain ⟨p, hp⟩ := readChars_string k (':' :: cs) n
  refine ⟨p + 1, p, ?_⟩
  unfold readMember readMemberValue
  simp only [hp]
  rw [trim_cons (by decide)]
  rfl

theorem readFirstMember_value (k : String) (cs : List Char) (n : Nat) :
    ∃ m p, readFirstMember one ⟨stringText k ++ ':' :: cs, n⟩ =
      memberThen k p (one ⟨cs, m⟩) fun next => readMembers one next.rest.length next := by
  obtain ⟨m, p, hm⟩ := readMember_value one k cs (n + 1)
  refine ⟨m, p, ?_⟩
  rw [stringText_append]
  unfold readFirstMember memberThen
  rw [trim_cons (by decide)]
  simp only [hm]
  rcases one ⟨cs, m⟩ with ⟨w, _ | next⟩ <;> rfl

theorem readMembers_value (fuel : Nat) (k : String) (cs : List Char) (n : Nat) :
    ∃ m p, readMembers one (fuel + 1) ⟨',' :: (stringText k ++ ':' :: cs), n⟩ =
      memberThen k p (one ⟨cs, m⟩) (readMembers one fuel) := by
  obtain ⟨m, p, hm⟩ := readMember_value one k cs (n + 1 + 1)
  refine ⟨m, p, ?_⟩
  unfold memberThen
  rw [stringText_append]
  rw [readMembers, trim_cons (by decide)]
  simp only [trim_cons (show isBlank '"' = false by decide)]
  simp only [hm]
  rcases one ⟨cs, m⟩ with ⟨w, _ | next⟩ <;> rfl

end Steps

/-! ## Whole values -/

theorem head_of_chars : ∀ {v : Json}, v.Valid → ∃ c cs, chars v = c :: cs ∧ StartsValue c
  | .null, _ => ⟨'n', ['u', 'l', 'l'], by simp [chars], by decide, by decide⟩
  | .bool true, _ => ⟨'t', ['r', 'u', 'e'], by simp [chars], by decide, by decide⟩
  | .bool false, _ => ⟨'f', ['a', 'l', 's', 'e'], by simp [chars], by decide, by decide⟩
  | .number k, hk => by
    obtain ⟨c, cs, htext, hc⟩ := head_of_numberText hk
    refine ⟨c, cs, by simpa [chars] using htext, ?_⟩
    rcases hc with rfl | hc
    · exact ⟨by decide, by decide⟩
    · exact ⟨isBlank_of_isDigit hc, ne_of_isDigit hc (by decide)⟩
  | .string s, _ => ⟨'"', _, by simp only [chars, stringText]; rfl, by decide, by decide⟩
  | .array [], _ => ⟨'[', [']'], by simp [chars], by decide, by decide⟩
  | .array (_ :: _), _ => ⟨'[', _, by simp only [chars]; rfl, by decide, by decide⟩
  | .object [], _ => ⟨'\x7b', ['\x7d'], by simp [chars], by decide, by decide⟩
  | .object ((_, _) :: _), _ => ⟨'\x7b', _, by simp only [chars]; rfl, by decide, by decide⟩

theorem endsNumber_cons {c : Char}
    (h : c.isDigit = false ∧ c ≠ '.' ∧ c ≠ 'e' ∧ c ≠ 'E') (rest : List Char) :
    EndsNumber (c :: rest) := by
  intro b hb
  obtain rfl : c = b := by simpa using hb
  exact h

theorem endsNumber_itemsText (vs : List Json) (rest : List Char) :
    EndsNumber (itemsText vs ++ rest) := by
  cases vs with
  | nil => simpa [itemsText] using endsNumber_cons (by decide) rest
  | cons v vs => simpa [itemsText] using endsNumber_cons (by decide) _

theorem endsNumber_membersText (ps : List (String × Json)) (rest : List Char) :
    EndsNumber (membersText ps ++ rest) := by
  rcases ps with _ | ⟨⟨k, v⟩, ps⟩
  · simpa [membersText] using endsNumber_cons (by decide) rest
  · simpa [membersText] using endsNumber_cons (by decide) _

/-- The text of the further items is longer than their number, which bounds their reading. -/
theorem length_itemsText (vs : List Json) : vs.length < (itemsText vs).length := by
  induction vs with
  | nil => simp [itemsText]
  | cons v vs ih =>
    simp [itemsText]
    omega

theorem length_membersText (ps : List (String × Json)) : ps.length < (membersText ps).length := by
  induction ps with
  | nil => simp [membersText]
  | cons p ps ih =>
    simp [membersText]
    omega

theorem length_lt_append {k : Nat} {cs : List Char} (rest : List Char) (h : k < cs.length) :
    k < (cs ++ rest).length := by
  rw [List.length_append]
  omega

section Values

variable (one : Cursor → Reading) (inner : Option (Cursor → Reading))

theorem readNested_null (rest : List Char) (n : Nat) :
    readNested inner ⟨chars .null ++ rest, n⟩ =
      (.scalar ⟨n, n + 4⟩ .null, some ⟨rest, n + 4⟩) := by
  unfold readNested chars
  rw [List.cons_append, trim_cons (by decide)]
  rfl

theorem readNested_bool (b : Bool) (rest : List Char) (n : Nat) :
    ∃ m, readNested inner ⟨chars (.bool b) ++ rest, n⟩ =
      (.scalar ⟨n, m⟩ (.bool b), some ⟨rest, m⟩) := by
  cases b with
  | true =>
    refine ⟨n + 4, ?_⟩
    unfold readNested chars
    rw [List.cons_append, trim_cons (by decide)]
    rfl
  | false =>
    refine ⟨n + 5, ?_⟩
    unfold readNested chars
    rw [List.cons_append, trim_cons (by decide)]
    rfl

theorem readFirstItem_chars {v : Json} (hv : v.Valid) (rest : List Char) (n : Nat) :
    readFirstItem one ⟨chars v ++ rest, n⟩ =
      itemThen (one ⟨chars v ++ rest, n⟩) fun next => readItems one next.rest.length next := by
  obtain ⟨c, cs, htext, hc⟩ := head_of_chars hv
  rw [htext]
  exact readFirstItem_value one hc (cs ++ rest) n

theorem readItems_chars {v : Json} (hv : v.Valid) (fuel : Nat) (rest : List Char) (n : Nat) :
    readItems one (fuel + 1) ⟨',' :: (chars v ++ rest), n⟩ =
      itemThen (one ⟨chars v ++ rest, n + 1⟩) (readItems one fuel) := by
  obtain ⟨c, cs, htext, hc⟩ := head_of_chars hv
  rw [htext]
  exact readItems_value one hc fuel (cs ++ rest) n

/-- Where neither an array nor an object starts, the depth does not matter. -/
theorem readValue_eq (d : Nat) : ∃ inner, readValue d = readNested inner := by
  cases d with
  | zero => exact ⟨none, rfl⟩
  | succ d => exact ⟨some (readValue d), rfl⟩

end Values

/-- The reader came to the end of a value, and what was read shows it. -/
def ReadWhole (r : Reading) (v : Json) (rest : List Char) : Prop :=
  ∃ w m, r = (w, some ⟨rest, m⟩) ∧ Shows w v

/-- The reader came to the end of an array. -/
def ItemsReadWhole (p : Parts Written) (vs : List Json) (rest : List Char) : Prop :=
  ∃ ws m, p = ⟨ws, none, some ⟨rest, m⟩⟩ ∧ ShowsItems ws vs

/-- The reader came to the end of an object. -/
def MembersReadWhole (p : Parts (Key × Written)) (ps : List (String × Json)) (rest : List Char) :
    Prop :=
  ∃ ms m, p = ⟨ms, none, some ⟨rest, m⟩⟩ ∧ ShowsMembers ms ps

section ReadWhole

variable {r : Reading} {v : Json} {mid rest : List Char}

theorem ReadWhole.itemThen {more : Cursor → Parts Written} {vs : List Json}
    (h : ReadWhole r v mid) (hmore : ∀ m, ItemsReadWhole (more ⟨mid, m⟩) vs rest) :
    ItemsReadWhole (itemThen r more) (v :: vs) rest := by
  obtain ⟨w, m, rfl, hw⟩ := h
  obtain ⟨ws, k, hws, hshows⟩ := hmore m
  refine ⟨w :: ws, k, ?_, .cons hw hshows⟩
  simp only [Json.itemThen, hws]
  rfl

theorem ReadWhole.memberThen {more : Cursor → Parts (Key × Written)} {ps : List (String × Json)}
    (h : ReadWhole r v mid) (hmore : ∀ m, MembersReadWhole (more ⟨mid, m⟩) ps rest)
    (k : String) (p : Nat) : MembersReadWhole (memberThen k p r more) ((k, v) :: ps) rest := by
  obtain ⟨w, m, rfl, hw⟩ := h
  obtain ⟨ms, e, hms, hshows⟩ := hmore m
  have hshow := ShowsMembers.cons ⟨k, p, (Cursor.mk mid m).trim.offset⟩ hw hshows
  refine ⟨_, e, ?_, hshow⟩
  simp only [Json.memberThen, hms]
  rfl

theorem readWhole_array {one : Cursor → Reading} {cs : List Char} {n : Nat} {vs : List Json}
    (h : ItemsReadWhole (readFirstItem one ⟨cs, n + 1⟩) vs rest) :
    ReadWhole (readNested (some one) ⟨'[' :: cs, n⟩) (.array vs) rest := by
  obtain ⟨ws, m, hparts, hshows⟩ := h
  refine ⟨_, m, ?_, .array ⟨n, m⟩ hshows⟩
  rw [readNested_array, hparts]
  rfl

theorem readWhole_object {one : Cursor → Reading} {cs : List Char} {n : Nat}
    {ps : List (String × Json)} (h : MembersReadWhole (readFirstMember one ⟨cs, n + 1⟩) ps rest) :
    ReadWhole (readNested (some one) ⟨'\x7b' :: cs, n⟩) (.object ps) rest := by
  obtain ⟨ms, m, hparts, hshows⟩ := h
  refine ⟨_, m, ?_, .object ⟨n, m⟩ hshows⟩
  rw [readNested_object, hparts]
  rfl

end ReadWhole

-- A value is the whole document, an item or the value of a member; what stands behind it
-- differs, so the text behind is any that does not go on with a number.
mutual

/-- The text of a value that is not too deep is read to its end. -/
theorem readValue_chars : ∀ {v : Json} {d : Nat} {rest : List Char}, v.Valid → v.depth ≤ d →
    EndsNumber rest → ∀ n, ReadWhole (readValue d ⟨chars v ++ rest, n⟩) v rest
  | .null, d, rest, _, _, _, n => by
    obtain ⟨inner, hinner⟩ := readValue_eq d
    exact ⟨_, n + 4, by rw [hinner, readNested_null], .scalar _ .null⟩
  | .bool b, d, rest, _, _, _, n => by
    obtain ⟨inner, hinner⟩ := readValue_eq d
    obtain ⟨m, hm⟩ := readNested_bool inner b rest n
    exact ⟨_, m, by rw [hinner, hm], .scalar _ (.bool b)⟩
  | .number k, d, rest, hv, _, hrest, n => by
    obtain ⟨inner, hinner⟩ := readValue_eq d
    obtain ⟨span, m, hm⟩ := readNested_number inner hv hrest n
    exact ⟨_, m, by rw [hinner, chars, hm], .scalar span (.number k)⟩
  | .string s, d, rest, _, _, _, n => by
    obtain ⟨inner, hinner⟩ := readValue_eq d
    obtain ⟨span, m, hm⟩ := readNested_string inner s rest n
    exact ⟨_, m, by rw [hinner, chars, hm], .scalar span (.string s)⟩
  | .array [], d + 1, rest, _, _, _, n => by
    rw [chars]
    exact readWhole_array ⟨[], n + 2, rfl, .nil⟩
  | .array (v :: vs), d + 1, rest, hv, hd, hrest, n => by
    rw [depth, depthItems] at hd
    rw [chars, List.append_assoc, List.cons_append]
    apply readWhole_array
    rw [readFirstItem_chars _ hv.1]
    refine (readValue_chars hv.1 ?_ (endsNumber_itemsText vs rest) _).itemThen fun m => ?_
    · omega
    · exact readItems_itemsText hv.2 (show depthItems vs ≤ d by omega)
        (length_lt_append rest (length_itemsText vs)) rest m
  | .object [], d + 1, rest, _, _, _, n => by
    rw [chars]
    exact readWhole_object ⟨[], n + 2, rfl, .nil⟩
  | .object ((k, v) :: ps), d + 1, rest, hv, hd, hrest, n => by
    rw [depth, depthMembers] at hd
    obtain ⟨hsorted, hv, hps⟩ := hv
    rw [chars, List.append_assoc, List.append_assoc, List.cons_append, List.cons_append]
    apply readWhole_object
    obtain ⟨j, p, hfirst⟩ := readFirstMember_value (readValue d) k
      (chars v ++ (membersText ps ++ rest)) (n + 1)
    rw [hfirst]
    refine (readValue_chars hv ?_ (endsNumber_membersText ps rest) j).memberThen (fun m => ?_) k p
    · omega
    · exact readMembers_membersText hps (show depthMembers ps ≤ d by omega)
        (length_lt_append rest (length_membersText ps)) rest m
  | .array _, 0, _, _, hd, _, _ => by simp [depth] at hd
  | .object _, 0, _, _, hd, _, _ => by simp [depth] at hd

theorem readItems_itemsText : ∀ {vs : List Json} {d fuel : Nat}, ValidItems vs →
    depthItems vs ≤ d → vs.length < fuel → ∀ rest n,
    ItemsReadWhole (readItems (readValue d) fuel ⟨itemsText vs ++ rest, n⟩) vs rest
  | [], d, fuel + 1, _, _, _, rest, n => by
    refine ⟨[], n + 1, ?_, .nil⟩
    rw [itemsText, List.cons_append, readItems_end]
    rfl
  | v :: vs, d, fuel + 1, hv, hd, hfuel, rest, n => by
    rw [depthItems] at hd
    rw [List.length_cons] at hfuel
    rw [itemsText, List.append_assoc, List.cons_append, readItems_chars _ hv.1]
    refine (readValue_chars hv.1 ?_ (endsNumber_itemsText vs rest) _).itemThen fun m => ?_
    · omega
    · exact readItems_itemsText hv.2 (show depthItems vs ≤ d by omega)
        (show vs.length < fuel by omega) rest m

theorem readMembers_membersText : ∀ {ps : List (String × Json)} {d fuel : Nat}, ValidMembers ps →
    depthMembers ps ≤ d → ps.length < fuel → ∀ rest n,
    MembersReadWhole (readMembers (readValue d) fuel ⟨membersText ps ++ rest, n⟩) ps rest
  | [], d, fuel + 1, _, _, _, rest, n => by
    refine ⟨[], n + 1, ?_, .nil⟩
    rw [membersText, List.cons_append, readMembers_end]
    rfl
  | (k, v) :: ps, d, fuel + 1, hv, hd, hfuel, rest, n => by
    rw [depthMembers] at hd
    rw [List.length_cons] at hfuel
    rw [membersText, List.append_assoc, List.append_assoc, List.cons_append, List.cons_append]
    obtain ⟨j, p, hfirst⟩ := readMembers_value (readValue d) fuel k
      (chars v ++ (membersText ps ++ rest)) n
    rw [hfirst]
    refine (readValue_chars hv.1 ?_ (endsNumber_membersText ps rest) j).memberThen (fun m => ?_) k p
    · omega
    · exact readMembers_membersText hv.2 (show depthMembers ps ≤ d by omega)
        (show ps.length < fuel by omega) rest m

end

/-! ## Values that are too deep -/

/-- The reader stopped inside a value, at an array or an object that is too deep. -/
def StoppedDeep (r : Reading) : Prop :=
  ∃ w n, r = (w, none) ∧ w.toJson = .error ⟨.tooDeep, n⟩

/-- The reader stopped inside the items of an array. -/
def StoppedInItems (p : Parts Written) : Prop :=
  ∃ ws n, p = ⟨ws, none, none⟩ ∧ Written.itemsToJson ws = .error ⟨.tooDeep, n⟩

/-- The reader stopped inside the members of an object. -/
def StoppedInMembers (p : Parts (Key × Written)) : Prop :=
  ∃ ms n, p = ⟨ms, none, none⟩ ∧ Written.membersToJson ms = .error ⟨.tooDeep, n⟩

section Stopped

variable {r : Reading} {v : Json} {mid : List Char}

theorem StoppedDeep.itemThen (h : StoppedDeep r) (more : Cursor → Parts Written) :
    StoppedInItems (itemThen r more) := by
  obtain ⟨w, n, rfl, hn⟩ := h
  refine ⟨[w], n, rfl, ?_⟩
  rw [Written.itemsToJson, hn]
  rfl

theorem ReadWhole.itemThen_stopped {more : Cursor → Parts Written} (h : ReadWhole r v mid)
    (hv : v.Valid) (hmore : ∀ m, StoppedInItems (more ⟨mid, m⟩)) :
    StoppedInItems (Json.itemThen r more) := by
  obtain ⟨w, m, rfl, hw⟩ := h
  obtain ⟨ws, n, hws, hn⟩ := hmore m
  refine ⟨w :: ws, n, ?_, ?_⟩
  · simp only [Json.itemThen, hws]
    rfl
  · rw [Written.itemsToJson, toJson_of_shows hw hv, hn]
    rfl

theorem StoppedDeep.memberThen (h : StoppedDeep r) (k : String) (p : Nat)
    (more : Cursor → Parts (Key × Written)) : StoppedInMembers (memberThen k p r more) := by
  obtain ⟨w, n, rfl, hn⟩ := h
  refine ⟨[(⟨k, p, p⟩, w)], n, rfl, ?_⟩
  rw [Written.membersToJson, hn]
  rfl

theorem ReadWhole.memberThen_stopped {more : Cursor → Parts (Key × Written)}
    (h : ReadWhole r v mid) (hv : v.Valid) (hmore : ∀ m, StoppedInMembers (more ⟨mid, m⟩))
    (k : String) (p : Nat) : StoppedInMembers (Json.memberThen k p r more) := by
  obtain ⟨w, m, rfl, hw⟩ := h
  obtain ⟨ms, n, hms, hn⟩ := hmore m
  refine ⟨(⟨k, p, (Cursor.mk mid m).trim.offset⟩, w) :: ms, n, ?_, ?_⟩
  · simp only [Json.memberThen, hms]
    rfl
  · rw [Written.membersToJson, toJson_of_shows hw hv, hn]
    rfl

theorem stoppedDeep_array {one : Cursor → Reading} {cs : List Char} {n : Nat}
    (h : StoppedInItems (readFirstItem one ⟨cs, n + 1⟩)) :
    StoppedDeep (readNested (some one) ⟨'[' :: cs, n⟩) := by
  obtain ⟨ws, k, hparts, hk⟩ := h
  refine ⟨.array ⟨n, n⟩ ws none, k, ?_, ?_⟩
  · rw [readNested_array, hparts]
    rfl
  · rw [Written.toJson, hk]
    rfl

theorem stoppedDeep_object {one : Cursor → Reading} {cs : List Char} {n : Nat}
    (h : StoppedInMembers (readFirstMember one ⟨cs, n + 1⟩)) :
    StoppedDeep (readNested (some one) ⟨'\x7b' :: cs, n⟩) := by
  obtain ⟨ms, k, hparts, hk⟩ := h
  refine ⟨.object ⟨n, n⟩ ms none, k, ?_, ?_⟩
  · rw [readNested_object, hparts]
    rfl
  · rw [Written.toJson, hk]
    rfl

end Stopped

/-- Where nothing may nest, an array or an object is too deep from its bracket on. -/
theorem stoppedDeep_zero {v : Json} (hv : 0 < v.depth) (rest : List Char) (n : Nat) :
    StoppedDeep (readValue 0 ⟨chars v ++ rest, n⟩) := by
  have harray (cs : List Char) : StoppedDeep (readNested none ⟨'[' :: cs, n⟩) := by
    unfold readNested
    rw [trim_cons (by decide)]
    exact ⟨_, n + 1, rfl, rfl⟩
  have hobject (cs : List Char) : StoppedDeep (readNested none ⟨'\x7b' :: cs, n⟩) := by
    unfold readNested
    rw [trim_cons (by decide)]
    exact ⟨_, n + 1, rfl, rfl⟩
  cases v with
  | array vs => cases vs <;> (rw [chars]; exact harray _)
  | object ps => cases ps <;> (rw [chars]; exact hobject _)
  | _ => simp [depth] at hv

-- The first part that is too deep is where the reader stops; all parts before it were read
-- to their ends, so the fault of that part is the fault of the whole.
mutual

/-- Where a value nests deeper than the reader follows, reading stops with that fault. -/
theorem readValue_tooDeep : ∀ {v : Json} {d : Nat}, v.Valid → d < v.depth → ∀ rest n,
    StoppedDeep (readValue d ⟨chars v ++ rest, n⟩)
  | _, 0, _, hd, rest, n => stoppedDeep_zero hd rest n
  | .array [], d + 1, _, hd, _, _ => by simp [depth, depthItems] at hd
  | .object [], d + 1, _, hd, _, _ => by simp [depth, depthMembers] at hd
  | .array (v :: vs), d + 1, hv, hd, rest, n => by
    rw [depth, depthItems] at hd
    rw [chars, List.append_assoc, List.cons_append]
    apply stoppedDeep_array
    rw [readFirstItem_chars _ hv.1]
    by_cases hfirst : d < v.depth
    · exact (readValue_tooDeep hv.1 hfirst _ _).itemThen _
    · have hread := readValue_chars hv.1 (show v.depth ≤ d by omega) (endsNumber_itemsText vs rest)
      have hdeep : d < depthItems vs := by omega
      refine (hread (n + 1)).itemThen_stopped hv.1 fun m => ?_
      exact readItems_tooDeep hv.2 hdeep (length_lt_append rest (length_itemsText vs)) rest m
  | .object ((k, v) :: ps), d + 1, hv, hd, rest, n => by
    rw [depth, depthMembers] at hd
    obtain ⟨hsorted, hv, hps⟩ := hv
    rw [chars, List.append_assoc, List.append_assoc, List.cons_append, List.cons_append]
    apply stoppedDeep_object
    obtain ⟨j, p, hmember⟩ := readFirstMember_value (readValue d) k
      (chars v ++ (membersText ps ++ rest)) (n + 1)
    rw [hmember]
    by_cases hfirst : d < v.depth
    · exact (readValue_tooDeep hv hfirst _ _).memberThen k p _
    · have hread := readValue_chars hv (show v.depth ≤ d by omega) (endsNumber_membersText ps rest)
      have hdeep : d < depthMembers ps := by omega
      refine (hread j).memberThen_stopped hv (fun m => ?_) k p
      exact readMembers_tooDeep hps hdeep (length_lt_append rest (length_membersText ps)) rest m
  | .null, d + 1, _, hd, _, _ => by simp [depth] at hd
  | .bool _, d + 1, _, hd, _, _ => by simp [depth] at hd
  | .number _, d + 1, _, hd, _, _ => by simp [depth] at hd
  | .string _, d + 1, _, hd, _, _ => by simp [depth] at hd

theorem readItems_tooDeep : ∀ {vs : List Json} {d fuel : Nat}, ValidItems vs →
    d < depthItems vs → vs.length < fuel → ∀ rest n,
    StoppedInItems (readItems (readValue d) fuel ⟨itemsText vs ++ rest, n⟩)
  | [], d, fuel + 1, _, hd, _, rest, n => by simp [depthItems] at hd
  | v :: vs, d, fuel + 1, hv, hd, hfuel, rest, n => by
    rw [depthItems] at hd
    rw [List.length_cons] at hfuel
    rw [itemsText, List.append_assoc, List.cons_append, readItems_chars _ hv.1]
    by_cases hfirst : d < v.depth
    · exact (readValue_tooDeep hv.1 hfirst _ _).itemThen _
    · have hread := readValue_chars hv.1 (show v.depth ≤ d by omega) (endsNumber_itemsText vs rest)
      have hdeep : d < depthItems vs := by omega
      refine (hread (n + 1)).itemThen_stopped hv.1 fun m => ?_
      exact readItems_tooDeep hv.2 hdeep (by omega) rest m

theorem readMembers_tooDeep : ∀ {ps : List (String × Json)} {d fuel : Nat}, ValidMembers ps →
    d < depthMembers ps → ps.length < fuel → ∀ rest n,
    StoppedInMembers (readMembers (readValue d) fuel ⟨membersText ps ++ rest, n⟩)
  | [], d, fuel + 1, _, hd, _, rest, n => by simp [depthMembers] at hd
  | (k, v) :: ps, d, fuel + 1, hv, hd, hfuel, rest, n => by
    rw [depthMembers] at hd
    rw [List.length_cons] at hfuel
    rw [membersText, List.append_assoc, List.append_assoc, List.cons_append, List.cons_append]
    obtain ⟨j, p, hmember⟩ := readMembers_value (readValue d) fuel k
      (chars v ++ (membersText ps ++ rest)) n
    rw [hmember]
    by_cases hfirst : d < v.depth
    · exact (readValue_tooDeep hv.1 hfirst _ _).memberThen k p _
    · have hread := readValue_chars hv.1 (show v.depth ≤ d by omega)
        (endsNumber_membersText ps rest)
      have hdeep : d < depthMembers ps := by omega
      refine (hread j).memberThen_stopped hv.1 (fun m => ?_) k p
      exact readMembers_tooDeep hv.2 hdeep (by omega) rest m

end

/-! ## Whole texts -/

/-- The text of a value that is not too deep is a document that shows the value. -/
theorem readDocument_chars {v : Json} {d : Nat} (hv : v.Valid) (hd : v.depth ≤ d) :
    ∃ w, readDocument d (chars v) = ⟨w, none⟩ ∧ Shows w v := by
  obtain ⟨w, m, hw, hshows⟩ := readValue_chars hv hd endsNumber_nil 0
  refine ⟨w, ?_, hshows⟩
  rw [List.append_nil] at hw
  unfold readDocument
  rw [hw]
  rfl

theorem read_chars {v : Json} (hv : v.Valid) (hd : v.depth ≤ depthLimit) :
    read (chars v) = .ok v := by
  obtain ⟨w, hw, hshows⟩ := readDocument_chars hv hd
  unfold read readWithin
  simp only [hw]
  rw [toJson_of_shows hshows hv]
  rfl

/-- A value that is not too deep reads back from its bytes. -/
theorem readBytes_bytes {v : Json} (hv : v.Valid) (hd : v.depth ≤ depthLimit) :
    readBytes v.bytes = .ok v := by
  unfold readBytes readBytesWith bytes
  rw [Text.Utf8.decode_encode]
  show (read (chars v)).mapError _ = _
  rw [read_chars hv hd]
  rfl

end GuardedCall.Json
