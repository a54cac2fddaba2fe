-- What a procedure is meant for. Procedures of both kinds are called alike.
import GuardedCall.Typed.Codec

namespace GuardedCall

open GuardedCall.Typed

/-- What a procedure is meant for. -/
inductive ProcedureKind where
  /-- It reads. -/
  | query
  /-- It writes. -/
  | mutation
deriving DecidableEq

namespace ProcedureKind

def name : ProcedureKind → String
  | .query => "query"
  | .mutation => "mutation"

def byName : List (String × ProcedureKind) := [("query", .query), ("mutation", .mutation)]

/-- A kind as it is shown to developers. -/
def shown : ProcedureKind → String
  | .query => "Query"
  | .mutation => "Mutation"

end ProcedureKind

/-- A kind as JSON: its name. -/
def procedureKindCodec : Codec ProcedureKind :=
  named "ProcedureKind" ProcedureKind.byName ProcedureKind.name

end GuardedCall
