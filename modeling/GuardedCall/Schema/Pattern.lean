-- Patterns of texts: literals, classes, choices, repetitions and the two
-- ends of a text. A pattern may match anywhere in a text.
--
-- Left out are look-around and groups with names, the bounds of words (`\b`,
-- `\B`), classes by property (`\p`, `\P`), back-references, escapes by code
-- (`\x`, `\u`, `\c`, `\0`), repetitions of an end of the text, and what a class
-- is not (`\D`, `\W`, `\S`) inside another one. A text with one of them writes
-- no pattern here, so a document does not compile if a schema that it uses has
-- that text as a pattern.
namespace GuardedCall.Schema

/-- What one character may be: one of some ranges, or none of them. -/
structure CharClass where
  negated : Bool
  ranges : List (Char × Char)
deriving DecidableEq

namespace CharClass

def has (k : CharClass) (c : Char) : Bool :=
  (k.ranges.any fun r => r.1 ≤ c && c ≤ r.2) != k.negated

def single (c : Char) : CharClass := ⟨false, [(c, c)]⟩

/-- Every character but the end of a line. -/
def anyInLine : CharClass := ⟨true, [('\n', '\n')]⟩

def digitRanges : List (Char × Char) := [('0', '9')]
def wordRanges : List (Char × Char) := [('A', 'Z'), ('a', 'z'), ('0', '9'), ('_', '_')]
def blankRanges : List (Char × Char) :=
  [('\t', '\r'), (' ', ' '), ('\u00a0', '\u00a0'), ('\ufeff', '\ufeff'), ('\u2028', '\u2029')]

end CharClass

/-- A pattern. -/
inductive Pattern where
  /-- The empty text. -/
  | empty
  | char (k : CharClass)
  /-- The start of the text. -/
  | start
  /-- The end of the text. -/
  | stop
  | seq (p q : Pattern)
  | either (p q : Pattern)
  /-- At least `least` times, and at most `most` times if there is a bound. -/
  | repeated (p : Pattern) (least : Nat) (most : Option Nat)
deriving DecidableEq

namespace Pattern

/-! ## Matching -/

/-- The texts, where of two of one length the earlier one stays. All of them
are ends of one text, so those of one length are the same. -/
def distinct : List (List Char) → List (List Char)
  | [] => []
  | t :: rest => t :: (distinct rest).filter fun u => u.length != t.length

/-- What is left of each text after exactly `n` steps. -/
def times (step : List Char → List (List Char)) : Nat → List (List Char) → List (List Char)
  | 0, ts => ts
  | n + 1, ts => times step n (distinct (ts.flatMap step))

/-- What is left of each text after at most `n` steps. -/
def upTo (step : List Char → List (List Char)) : Nat → List (List Char) → List (List Char)
  | 0, ts => ts
  | n + 1, ts => distinct (ts ++ upTo step n (distinct (ts.flatMap step)))

/-- What is left of a text after a match at its start. `total` is the length
of the whole text that the text is an end of. More steps of a repetition than
the text has characters lead to nothing new. -/
def rests (total : Nat) : Pattern → List Char → List (List Char)
  | .empty, t => [t]
  | .char k, t =>
    match t with
    | c :: rest => if k.has c then [rest] else []
    | [] => []
  | .start, t => if t.length = total then [t] else []
  | .stop, t => if t.isEmpty then [t] else []
  | .seq p q, t => distinct ((rests total p t).flatMap (rests total q))
  | .either p q, t => distinct (rests total p t ++ rests total q t)
  | .repeated p least most, t =>
    let further := match most with
      | some n => min (n - least) (t.length + 1)
      | none => t.length + 1
    upTo (rests total p) further (times (rests total p) least [t])

/-- The ends of a text, from the whole text to the empty one. -/
def ends : List Char → List (List Char)
  | [] => [[]]
  | c :: rest => (c :: rest) :: ends rest

/-- The pattern matches somewhere in the text. -/
def matchesText (p : Pattern) (s : String) : Bool :=
  (ends s.toList).any fun t => !(rests s.length p t).isEmpty

/-! ## Reading a pattern -/

/-- What a character behind a backslash stands for, outside a class. -/
def escaped (c : Char) : Option CharClass :=
  match c with
  | 'd' => some ⟨false, CharClass.digitRanges⟩
  | 'D' => some ⟨true, CharClass.digitRanges⟩
  | 'w' => some ⟨false, CharClass.wordRanges⟩
  | 'W' => some ⟨true, CharClass.wordRanges⟩
  | 's' => some ⟨false, CharClass.blankRanges⟩
  | 'S' => some ⟨true, CharClass.blankRanges⟩
  | 'n' => some (.single '\n')
  | 'r' => some (.single '\r')
  | 't' => some (.single '\t')
  | 'f' => some (.single '\x0c')
  | 'v' => some (.single '\x0b')
  | c => if c.isAlphanum then none else some (.single c)

/-- One item of a class: a range, or the ranges of an escape. -/
inductive ClassItem where
  | one (c : Char)
  | many (ranges : List (Char × Char))

/-- The item at the start of a text inside a class, and what follows it. -/
def classItem? : List Char → Option (ClassItem × List Char)
  | '\\' :: c :: rest =>
    match escaped c with
    | some ⟨false, [(a, b)]⟩ => some (if a = b then .one a else .many [(a, b)], rest)
    | some ⟨false, ranges⟩ => some (.many ranges, rest)
    | _ => none
  | '\\' :: [] => none
  | c :: rest => some (.one c, rest)
  | [] => none

/-- The ranges up to the bracket that ends a class, and what follows it. -/
def classRanges : Nat → List Char → List (Char × Char) → Option (List (Char × Char) × List Char)
  | 0, _, _ => none
  | fuel + 1, text, seen =>
    match text with
    | ']' :: rest => some (seen.reverse, rest)
    | text =>
      match classItem? text with
      | none => none
      | some (.many ranges, rest) => classRanges fuel rest (ranges.reverse ++ seen)
      | some (.one a, '-' :: ']' :: rest) => some ((('-', '-') :: (a, a) :: seen).reverse, rest)
      | some (.one a, '-' :: rest) =>
        match classItem? rest with
        | some (.one b, rest) => if a ≤ b then classRanges fuel rest ((a, b) :: seen) else none
        | _ => none
      | some (.one a, rest) => classRanges fuel rest ((a, a) :: seen)

/-- A decimal number at the start of a text, and what follows it. -/
def number? (text : List Char) : Option (Nat × List Char) :=
  match text.takeWhile Char.isDigit with
  | [] => none
  | ds => some (ds.foldl (fun n d => 10 * n + (d.toNat - '0'.toNat)) 0, text.dropWhile Char.isDigit)

/-- The bounds of a repetition between braces, and what follows them. -/
def bounds? (text : List Char) : Option (Nat × Option Nat × List Char) :=
  match number? text with
  | some (n, '\x7d' :: rest) => some (n, some n, rest)
  | some (n, ',' :: '\x7d' :: rest) => some (n, none, rest)
  | some (n, ',' :: rest) =>
    match number? rest with
    | some (m, '\x7d' :: rest) => some (n, some m, rest)
    | _ => none
  | _ => none

/-- The repetition that stands behind an item, and what follows it. A question
mark behind it changes what is preferred, not what matches. -/
def repetition? (text : List Char) : Option (Nat × Option Nat × List Char) :=
  let found := match text with
    | '*' :: rest => some (0, none, rest)
    | '+' :: rest => some (1, none, rest)
    | '?' :: rest => some (0, some 1, rest)
    | '\x7b' :: rest => bounds? rest
    | _ => none
  match found with
  | some (least, most, '?' :: rest) => some (least, most, rest)
  | found => found

/-- An item that is no group at the start of a text, and what follows it. -/
def plainItem? : List Char → Option (Pattern × List Char)
  | '[' :: '^' :: rest =>
    (classRanges (rest.length + 1) rest []).map fun r => (.char ⟨true, r.1⟩, r.2)
  | '[' :: rest => (classRanges (rest.length + 1) rest []).map fun r => (.char ⟨false, r.1⟩, r.2)
  | '.' :: rest => some (.char .anyInLine, rest)
  | '\\' :: c :: rest => (escaped c).map fun k => (.char k, rest)
  | '\\' :: [] | '*' :: _ | '+' :: _ | '?' :: _ | [] => none
  | c :: rest => some (.char (.single c), rest)

/-- An item with the repetition that stands behind it, and what follows. -/
def withRepetition (item : Pattern) (text : List Char) : Option (Pattern × List Char) :=
  match repetition? text with
  | some (least, most, rest) =>
    if most.any (· < least) then none else some (.repeated item least most, rest)
  | none => some (item, text)

/-- The marks that make a group one that is not counted. -/
def groupStart? : List Char → Option (List Char)
  | '?' :: ':' :: rest => some rest
  | '?' :: _ => none
  | rest => some rest

/-- The pattern up to a closing parenthesis or to the end of the text, and
what follows it. `done` holds the choices before, `current` the items of this
choice, and `fuel` is more than the length of the text. -/
def parse : Nat → List Char → (done : Option Pattern) → (current : Pattern) →
    Option (Pattern × List Char)
  | 0, _, _, _ => none
  | fuel + 1, text, done, current =>
    let closed := match done with
      | some p => .either p current
      | none => current
    match text with
    | [] => some (closed, [])
    | ')' :: rest => some (closed, ')' :: rest)
    | '|' :: rest => parse fuel rest (some closed) .empty
    | '^' :: rest => parse fuel rest done (.seq current .start)
    | '$' :: rest => parse fuel rest done (.seq current .stop)
    | '(' :: rest => do
      let (inner, rest) ← parse fuel (← groupStart? rest) none .empty
      match rest with
      | ')' :: rest =>
        let (item, rest) ← withRepetition inner rest
        parse fuel rest done (.seq current item)
      | _ => none
    | text => do
      let (item, rest) ← plainItem? text
      let (item, rest) ← withRepetition item rest
      parse fuel rest done (.seq current item)

/-- The pattern that a text writes, if it writes one. -/
def ofText? (text : String) : Option Pattern :=
  match parse (text.length + 1) text.toList none .empty with
  | some (p, []) => some p
  | _ => none

/-! ## Showing a pattern -/

/-- The text of a pattern with the escapes of digits and of word characters
written out as classes. -/
def shown : List Char → List Char
  | '\\' :: 'd' :: rest => "[0-9]".toList ++ shown rest
  | '\\' :: 'D' :: rest => "[^0-9]".toList ++ shown rest
  | '\\' :: 'w' :: rest => "[A-Za-z0-9_]".toList ++ shown rest
  | '\\' :: 'W' :: rest => "[^A-Za-z0-9_]".toList ++ shown rest
  | '\\' :: c :: rest => '\\' :: c :: shown rest
  | c :: rest => c :: shown rest
  | [] => []

end Pattern

end GuardedCall.Schema
