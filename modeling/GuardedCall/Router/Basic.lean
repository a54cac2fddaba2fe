-- Routers: procedures by name, in levels. A dotted path leads to one of
-- them, and a call at a path reaches the procedure there.
import GuardedCall.Procedure.Builder
import GuardedCall.Router.Fault
import GuardedCall.Text.Blank
import GuardedCall.Tree

namespace GuardedCall

variable {σ : Type}

/-- An entry of a router: a procedure or a router of its own, which has the
name of its default adapter. -/
abbrev RouterEntry (σ : Type) := Tree (Endpoint σ) String

/-- Procedures and routers by name. -/
structure Router (σ : Type) where
  /-- The name of the adapter that procedures have unless they choose one. -/
  defaultAdapter : String
  entries : Table (RouterEntry σ)

namespace Router

/-- A router as an entry of another one. -/
def entry (r : Router σ) : RouterEntry σ := .level r.defaultAdapter r.entries

/-! ## Building -/

/-- The longest name of an entry, in bytes. -/
def maxNameLength : Nat := 128

/-- A character that a name cannot have. -/
def isBarred (c : Char) : Bool := c == Path.separator || Text.isBlank c || Text.isControl c

/-- A name that can be part of a path. -/
def isValidName (name : String) : Bool :=
  name ≠ "" && name.utf8ByteSize ≤ maxNameLength && !name.toList.any isBarred

/-- Puts entries into a level one by one. The first one whose name is invalid
or taken is the fault. -/
def addEntries {α : Type} (t : Table α) : List (String × α) → Except RouterFault (Table α)
  | [] => .ok t
  | (name, x) :: rest =>
    if !isValidName name then .error (.invalidName name)
    else if t.has name then .error (.duplicateName name)
    else addEntries (t.insert name x) rest

def ofEntries (defaultAdapter : String) (entries : List (String × RouterEntry σ)) :
    Except RouterFault (Router σ) :=
  (addEntries [] entries).map (⟨defaultAdapter, ·⟩)

def event (level : LogLevel) (message : String) (fields : List (String × String)) : LogEvent :=
  ⟨level, "typeadapt_router::router", message, fields⟩

def build {τ : Type} (defaultAdapter : String) (entries : List (String × RouterEntry σ)) :
    Attempt τ RouterFault (Router σ) := do
  let r ← .ofExcept (ofEntries defaultAdapter entries)
  .log (event .debug "router built"
    [("default_adapter", r.defaultAdapter), ("entries", toString r.entries.length)])
  return r

/-! ## Looking up -/

/-- The names at the top level, in order. -/
def names (r : Router σ) : List String := r.entries.keys

/-- The entry of a name at the top level. -/
def get? (r : Router σ) (name : String) : Option (RouterEntry σ) := r.entries.find? name

/-- The procedure at a path. -/
def resolve (r : Router σ) (path : String) : Except RouterFault (Endpoint σ) :=
  match r.entry.leaf? (Path.segments path) with
  | some e => .ok e
  | none => .error (.notFound path)

def paths (r : Router σ) : List String :=
  (r.entry.mapPaths (fun path _ => path) id "").leaves

/-! ## Calling -/

/-- Calls the procedure at a path with a JSON value. -/
def call (r : Router σ) (path : String) (v : Json) : Attempt σ RouterFault Json := do
  let e ← .ofExcept (r.resolve path)
  .log (event .trace "calling procedure" [("path", path), ("kind", e.kind.name)])
  ((e.invoke v).onError fun f =>
    event .debug "procedure failed"
      [("path", path), ("kind", f.kind.name), ("error", f.message)]).mapError (.procedure path)

end Router

/-! ## Showing -/

mutual

def RouterEntry.text : Tree (Endpoint σ) String → String
  | .leaf e => e.text
  | .level label entries =>
    "Router \x7b default_adapter: " ++ Text.quoted label ++ ", entries: \x7b" ++
      Text.joinWith ", " (RouterEntry.texts entries) ++ "\x7d \x7d"

/-- How the entries of a level are shown. -/
def RouterEntry.texts : List (String × Tree (Endpoint σ) String) → List String
  | [] => []
  | (name, t) :: rest => (Text.quoted name ++ ": " ++ RouterEntry.text t) :: RouterEntry.texts rest

end

def Router.text (r : Router σ) : String := RouterEntry.text r.entry

/-! ## Contexts -/

/-- A default adapter, from which procedures and routers are built. -/
structure RouterContext (S : Type → Type) where
  adapter : Adapter S

namespace RouterContext

variable {S : Type → Type} {τ : Type}

/-- A procedure that has the default adapter unless another one is chosen. -/
def procedure (c : RouterContext S) : ProcedureBuilder S Missing Missing := .start c.adapter

/-- A router with the name of the default adapter. -/
def router (c : RouterContext S) (entries : List (String × RouterEntry σ)) :
    Attempt τ RouterFault (Router σ) :=
  Router.build c.adapter.name entries

end RouterContext

end GuardedCall
