-- Clients: made from the shape of a router, with a stub for each procedure
-- and a namespace for each level.
import GuardedCall.Client.Transport
import GuardedCall.Router.Shape

namespace GuardedCall

open GuardedCall.Typed

variable {τ α β : Type}

/-! ## Stubs -/

def clientEvent (message : String) (fields : List (String × String)) : LogEvent :=
  ⟨.debug, "typeadapt_client::client", message, fields⟩

/-- The client's side of one procedure. -/
structure Stub (τ : Type) where
  /-- The path of the procedure on the server. -/
  path : String
  kind : ProcedureKind
  transport : Transport τ

namespace Stub

/-- Sends an argument and gives back the result. -/
def call (s : Stub τ) (v : Json) : Attempt τ ClientFault Json :=
  (s.transport.call s.path v).onError fun f =>
    clientEvent "remote call failed" [("path", s.path), ("kind", f.kind.name)]

def text (s : Stub τ) : String :=
  "ClientStub \x7b path: " ++ Text.quoted s.path ++ ", kind: " ++ s.kind.shown ++ " \x7d"

end Stub

/-- A stub with the types of its procedure. -/
structure TypedStub (τ α β : Type) where
  stub : Stub τ
  signature : Signature α β

/-- A stub with the types of a signature. Nothing checks that they are those of
its procedure. -/
def Stub.bind (s : Stub τ) (signature : Signature α β) : TypedStub τ α β := ⟨s, signature⟩

namespace TypedStub

/-- Sends a typed argument and reads the result. -/
def call (s : TypedStub τ α β) (x : α) : Attempt τ ClientFault β := do
  let v ← .ofExcept ((s.signature.input.encode x).mapError fun f => .json f.message)
  let w ← s.stub.call v
  .ofExcept ((s.signature.output.decodeJson w).mapError fun f => .json f.message)

def text (s : TypedStub τ α β) : String :=
  "TypedStub \x7b path: " ++ Text.quoted s.stub.path ++ ", signature: " ++ s.signature.text ++ " \x7d"

end TypedStub

/-! ## Namespaces -/

/-- An entry of a namespace: a stub or a further namespace. -/
abbrev ClientNode (τ : Type) := Tree (Stub τ) Unit

/-- The client's side of one level of a router. -/
structure Namespace (τ : Type) where
  entries : Table (ClientNode τ)

namespace Namespace

/-- A namespace as an entry of another one. -/
def node (n : Namespace τ) : ClientNode τ := .level () n.entries

/-- The names of the entries, in order. -/
def names (n : Namespace τ) : List String := n.entries.keys

def namespace? (n : Namespace τ) (name : String) : Option (Namespace τ) :=
  match n.entries.find? name with
  | some (.level _ entries) => some ⟨entries⟩
  | _ => none

def stub (n : Namespace τ) (path : String) : Except ClientFault (Stub τ) :=
  match n.node.leaf? (Path.segments path) with
  | some s => .ok s
  | none => .error (.unknownProcedure path)

def stubs (n : Namespace τ) : List (Stub τ) := n.node.leaves

end Namespace

/-! ## Clients -/

/-- A client of one router. -/
structure Client (τ : Type) where
  root : Namespace τ

namespace Client

def ofShape (shape : RouterShape) (transport : Transport τ) : Client τ :=
  ⟨⟨Tree.mapEntries (fun path p => ⟨path, p.kind, transport⟩) (fun _ => ()) "" shape.entries⟩⟩

/-- Makes the client of a shape and logs it. -/
def project {ε : Type} (shape : RouterShape) (transport : Transport τ) :
    Attempt τ ε (Client τ) := do
  let c := ofShape shape transport
  .log (clientEvent "client projected"
    [("procedures", toString c.root.stubs.length), ("default_adapter", shape.defaultAdapter)])
  return c

def stub (c : Client τ) (path : String) : Except ClientFault (Stub τ) := c.root.stub path

/-- The namespace of a name at the top level. -/
def namespace? (c : Client τ) (name : String) : Option (Namespace τ) := c.root.namespace? name

end Client

/-! ## Showing -/

mutual

def ClientNode.text : Tree (Stub τ) Unit → String
  | .leaf s => "Stub(" ++ s.text ++ ")"
  | .level _ entries =>
    "Namespace(Namespace \x7b entries: \x7b" ++ Text.joinWith ", " (ClientNode.texts entries) ++
      "\x7d \x7d)"

/-- How the entries of a namespace are shown. -/
def ClientNode.texts : List (String × Tree (Stub τ) Unit) → List String
  | [] => []
  | (name, t) :: rest => (Text.quoted name ++ ": " ++ ClientNode.text t) :: ClientNode.texts rest

end

def Namespace.text (n : Namespace τ) : String :=
  "Namespace \x7b entries: \x7b" ++ Text.joinWith ", " (ClientNode.texts n.entries) ++ "\x7d \x7d"

def Client.text (c : Client τ) : String := "Client \x7b root: " ++ c.root.text ++ " \x7d"

end GuardedCall
