-- Building a procedure in stages. The schemas may come in either order and
-- the adapter may be replaced at any time; only what has both schemas can be
-- given an implementation.
import GuardedCall.Procedure.Basic

namespace GuardedCall

/-- In the place of a schema that was not given yet. -/
inductive Missing where
  | missing

/-- A procedure that is being built. -/
structure ProcedureBuilder (S : Type → Type) (I O : Type) where
  adapter : Adapter S
  input : I
  output : O

namespace ProcedureBuilder

variable {S T : Type → Type} {I O σ α β : Type}

def start (adapter : Adapter S) : ProcedureBuilder S Missing Missing :=
  ⟨adapter, .missing, .missing⟩

def withAdapter (b : ProcedureBuilder S I O) (adapter : Adapter T) : ProcedureBuilder T I O :=
  ⟨adapter, b.input, b.output⟩

/-- The same with a schema of the arguments. -/
def withInput (b : ProcedureBuilder S Missing O) (schema : I) : ProcedureBuilder S I O :=
  ⟨b.adapter, schema, b.output⟩

/-- The same with a schema of the results. -/
def withOutput (b : ProcedureBuilder S I Missing) (schema : O) : ProcedureBuilder S I O :=
  ⟨b.adapter, b.input, schema⟩

/-- A procedure of an implementation that completes later. -/
def bind (b : ProcedureBuilder S (S α) (S β)) (kind : ProcedureKind)
    (f : LaterImplementation σ α β) : Procedure S σ α β :=
  ⟨kind, b.adapter.laterMethod b.input b.output f⟩

def query (b : ProcedureBuilder S (S α) (S β)) (f : α → σ → β × σ) : Procedure S σ α β :=
  b.bind .query (Implementation.ofTotal f).later

def tryQuery (b : ProcedureBuilder S (S α) (S β)) (f : Implementation σ α β) : Procedure S σ α β :=
  b.bind .query f.later

def queryLater (b : ProcedureBuilder S (S α) (S β)) (f : LaterImplementation σ α β) :
    Procedure S σ α β :=
  b.bind .query f

def mutation (b : ProcedureBuilder S (S α) (S β)) (f : α → σ → β × σ) : Procedure S σ α β :=
  b.bind .mutation (Implementation.ofTotal f).later

def tryMutation (b : ProcedureBuilder S (S α) (S β)) (f : Implementation σ α β) :
    Procedure S σ α β :=
  b.bind .mutation f.later

def mutationLater (b : ProcedureBuilder S (S α) (S β)) (f : LaterImplementation σ α β) :
    Procedure S σ α β :=
  b.bind .mutation f

end ProcedureBuilder

end GuardedCall
