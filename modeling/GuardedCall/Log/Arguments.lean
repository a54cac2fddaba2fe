-- The options of a command line that set up logging.
import GuardedCall.Log.Event

namespace GuardedCall

/-- How log lines are written. -/
inductive LogFormat where
  | text
  | json
deriving DecidableEq

namespace LogFormat

def byName : List (String × LogFormat) := [("text", .text), ("json", .json)]

def name : LogFormat → String
  | .text => "text"
  | .json => "json"

end LogFormat

/-- What the options ask for. -/
structure LogArguments where
  format : LogFormat := .text
  level : LogLevel := .info
deriving DecidableEq

/-- Why a command line is not taken. -/
inductive ArgumentFault where
  /-- A value that the option does not have, or no value at all. -/
  | invalidValue
  /-- A word that is no option and no value of one. -/
  | unknownArgument
  /-- An option that is there twice. -/
  | argumentConflict
  /-- A value for an option that takes none. -/
  | tooManyValues
  /-- Not a fault: the command line asks for help. -/
  | displayHelp
deriving DecidableEq

def ArgumentFault.name : ArgumentFault → String
  | .invalidValue => "InvalidValue"
  | .unknownArgument => "UnknownArgument"
  | .argumentConflict => "ArgumentConflict"
  | .tooManyValues => "TooManyValues"
  | .displayHelp => "DisplayHelp"

namespace LogArguments

/-- The two options. -/
inductive Choice where
  | format
  | level
deriving DecidableEq

def choices : List (String × Choice) := [("log-format", .format), ("log-level", .level)]

/-- The options that were given so far. -/
structure Given where
  format : Option LogFormat := none
  level : Option LogLevel := none

def Given.has (g : Given) : Choice → Bool
  | .format => g.format.isSome
  | .level => g.level.isSome

/-- An option with the value that was found for it. -/
def Given.settle (g : Given) (choice : Choice) (value : Option String) :
    Except ArgumentFault Given :=
  match value with
  | none => .error .invalidValue
  | some v =>
    if g.has choice then .error .argumentConflict
    else
      match choice with
      | .format =>
        match LogFormat.byName.lookup v with
        | some f => .ok { g with format := some f }
        | none => .error .invalidValue
      | .level =>
        match LogLevel.ofName? v with
        | some l => .ok { g with level := some l }
        | none => .error .invalidValue

/-- The option that was named last, with its value once one is found. -/
abbrev Pending := Option (Choice × Option String)

/-- The options that were given, with the one that was named last. -/
def settlePending (g : Given) : Pending → Except ArgumentFault Given
  | none => .ok g
  | some (choice, value) => g.settle choice value

/-- A word of a command line. -/
inductive Word where
  /-- From here on no word is an option. -/
  | separator
  | long (name : String) (value : Option String)
  | short (letters : List Char)
  | plain (text : String)

def Word.ofText (text : String) : Word :=
  match text.toList with
  | ['-', '-'] => .separator
  | '-' :: '-' :: rest =>
    let name := rest.takeWhile (· != '=')
    match rest.dropWhile (· != '=') with
    | _ :: value => .long (String.ofList name) (some (String.ofList value))
    | [] => .long (String.ofList name) none
  | '-' :: c :: rest => .short (c :: rest)
  | _ => .plain text

/-- Reads the words one after the other. A word that is not known is refused
before the option in front of it is looked at. -/
def parseWords : List String → Given → Pending → Except ArgumentFault Given
  | [], g, pending => settlePending g pending
  | text :: rest, g, pending =>
    match Word.ofText text with
    | .separator => if rest.isEmpty then settlePending g pending else .error .unknownArgument
    | .long name value =>
      match choices.lookup name, value with
      | some choice, none => do
        let g ← settlePending g pending
        parseWords rest g (some (choice, none))
      | some choice, some v => do
        let g ← settlePending g pending
        let g ← g.settle choice (some v)
        parseWords rest g none
      | none, value =>
        if name = "help" then
          if value.isSome then .error .tooManyValues
          else do
            let _ ← settlePending g pending
            .error .displayHelp
        else .error .unknownArgument
    | .short letters =>
      if letters.head? = some 'h' then do
        let _ ← settlePending g pending
        .error .displayHelp
      else .error .unknownArgument
    | .plain v =>
      match pending with
      | some (choice, none) => parseWords rest g (some (choice, some v))
      | _ => .error .unknownArgument

def parse (words : List String) : Except ArgumentFault LogArguments := do
  let g ← parseWords words {} none
  return ⟨g.format.getD .text, g.level.getD .info⟩

end LogArguments

end GuardedCall
