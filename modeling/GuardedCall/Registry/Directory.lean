-- Loading the documents of a directory into a registry.
import GuardedCall.Registry.Basic
import GuardedCall.Text.Utf8

namespace GuardedCall

/-- What stands under a name in a directory. -/
inductive DirectoryItem where
  /-- A regular file with its bytes. -/
  | file (bytes : List UInt8)
  | symlink
  /-- A directory, or anything else. -/
  | other

/-- A directory: its path, and what stands in it in the order in which it is
listed, or the reason why it cannot be listed. -/
structure Directory where
  path : String
  items : Except String (List (String × DirectoryItem))

namespace Directory

/-- A directory that is not there. -/
def missing (path : String) : Directory :=
  ⟨path, .error "No such file or directory (os error 2)"⟩

/-- The path of a name in a directory. -/
def pathOf (path name : String) : String := path ++ "/" ++ name

/-- The end of the name of a schema file. -/
def suffix : List Char := ".schema.json".toList

/-- The name of the document in a file of this name. -/
def schemaName? (file : String) : Option String :=
  let cs := file.toList
  if suffix.isSuffixOf cs then some (String.ofList (cs.take (cs.length - suffix.length))) else none

/-- The text of a file that is not too large. -/
def readFile (maxSize : Nat) (path : String) (bytes : List UInt8) : Except SchemaFault (List Char) :=
  if maxSize < bytes.length then
    .error (.loadFailed
      ("schema file too large (" ++ toString bytes.length ++ " bytes): " ++ path))
  else
    match Text.Utf8.decode bytes with
    | (text, true) => .ok text
    | (_, false) =>
      .error (.loadFailed
        ("failed reading schema " ++ path ++ ": stream did not contain valid UTF-8"))

/-- Registers the files one by one, where `loaded` of them came before. What
has no name of a schema file, or is no file, does not count. -/
def loadItems (path : String) : Nat → List (String × DirectoryItem) →
    Attempt Registry SchemaFault Unit
  | _, [] => pure ()
  | loaded, (file, item) :: rest =>
    match schemaName? file, item with
    | none, _ => loadItems path loaded rest
    | some _, .other => loadItems path loaded rest
    | some _, .symlink => .fail (.loadFailed ("refusing to load schema symlink: " ++ file))
    | some name, .file bytes => do
      let config := (← .current).config
      if config.maxSchemas ≤ loaded then
        .fail (.loadFailed
          ("schema count exceeds configured max (" ++ toString config.maxSchemas ++ ")"))
      else
        let text ← .ofExcept (readFile config.maxFileSize (pathOf path file) bytes)
        Registry.register name text
        loadItems path (loaded + 1) rest

end Directory

/-- A registry of the schema files of a directory. -/
def Registry.ofDirectory {τ : Type} (config : RegistryConfig) (d : Directory) :
    Attempt τ SchemaFault Registry := do
  let items ← .ofExcept (d.items.mapError fun reason => .loadFailed (d.path ++ ": " ++ reason))
  let (_, r) ← .within (Registry.empty config) (Directory.loadItems d.path 0 items)
  return r

end GuardedCall
