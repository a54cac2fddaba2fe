-- Registries: documents by name, each compiled when it is registered, so
-- that what a registry holds is never malformed.
import GuardedCall.Json.Reader
import GuardedCall.Schema.Cached

namespace GuardedCall

/-- Documents by name, with the settings they were checked under. -/
structure Registry where
  config : RegistryConfig
  schemas : Table CachedSchema

namespace Registry

variable {τ ε : Type}

def empty (config : RegistryConfig) : Registry := ⟨config, []⟩

/-! ## Names -/

/-- The longest name of a document, in bytes. -/
def maxNameLength : Nat := 128

/-- A character that a name may have. -/
def isNameChar (c : Char) : Bool := c.isAlphanum || c == '-' || c == '_'

/-- A name that a document may have. -/
def isValidName (name : String) : Bool :=
  name ≠ "" && name.utf8ByteSize ≤ maxNameLength && name.toList.all isNameChar

/-! ## Registering -/

/-- The registry with one more document. It is compiled under the settings of
the registry, and what it was compiled to is kept. -/
def withDocument (r : Registry) (name : String) (document : Json) : Except SchemaFault Registry :=
  if !isValidName name then .error (.invalidName name)
  else if r.schemas.has name then .error (.duplicateSchema name)
  else
    let o := (CachedSchema.prepare r.config.schema).run (.ofDocument document)
    match o.result with
    | .ok _ => .ok { r with schemas := r.schemas.insert name o.state }
    | .error f => .error (.compileFailed name f.message)

/-- What is logged about a document that was registered. -/
def registeredEvent (config : RegistryConfig) (name : String) : LogEvent :=
  ⟨.debug, "typeadapt_schema::registry", "registered schema",
    [("name", name), ("dialect", config.schema.dialect.name)]⟩

/-- Registers a document. On a fault the registry stays as it was. -/
def registerValue (name : String) (document : Json) : Attempt Registry SchemaFault Unit := do
  .change fun r =>
    match r.withDocument name document with
    | .ok after => (.ok (), after)
    | .error f => (.error f, r)
  .log (registeredEvent (← .current).config name)

/-- Registers the document that a text writes. -/
def register (name : String) (text : List Char) : Attempt Registry SchemaFault Unit := do
  let document ← .ofExcept ((Json.read text).mapError fun f => .invalidJson (f.message text))
  registerValue name document

/-- A registry under default settings of some names and texts. -/
def ofTexts (texts : List (String × String)) : Attempt τ SchemaFault Registry := do
  let (_, r) ← .within (empty {}) (texts.forM fun t => register t.1 t.2.toList)
  return r

/-! ## Looking up -/

/-- The names, in order. -/
def names (r : Registry) : List String := r.schemas.keys

/-- The document of a name, with what is remembered of it. -/
def get? (r : Registry) (name : String) : Option CachedSchema := r.schemas.find? name

/-- A copy of the document of a name. -/
def typed (r : Registry) (name : String) : Except SchemaFault CachedSchema :=
  match r.get? name with
  | some s => .ok s
  | none => .error (.noSchema name)

/-- The adapter with the settings of the registry. -/
def adapter (r : Registry) : Adapter DocumentSchema := byDocument r.config.schema

end Registry

end GuardedCall
