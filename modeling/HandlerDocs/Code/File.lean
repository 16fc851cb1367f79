import HandlerDocs.Code.Expr

namespace HandlerDocs.Code

structure Span where
  start : Nat
  stop : Nat
  line : Nat
  column : Nat
  endLine : Nat
deriving DecidableEq

structure ImportSpec where
  name : Option String
  path : String
deriving DecidableEq

structure DocComment where
  span : Option Span
  lines : List String
deriving DecidableEq

structure TypeSpec where
  name : String
  type : TypeExpr
  isAlias : Bool

structure FuncNode where
  name : String
  receiver : Option Param
  params : List Param
  results : List Param
  body : Option Block
  span : Span
  doc : DocComment

structure File where
  package : String
  imports : List ImportSpec
  vars : List ValueSpec
  types : List TypeSpec
  functions : List FuncNode

inductive ParseError where
  | invalid
  | missingPackage
deriving DecidableEq

/-- What is said about a text that is no source file. The line and the column where it goes wrong
come from the parser in use and may be left out. -/
def ParseError.message (e : ParseError) (fault : Option (Nat × Nat) := none) : String :=
  match e with
  | .missingPackage => "missing package clause"
  | .invalid =>
    match fault with
    | none => "syntax error"
    | some (line, column) => "syntax error at " ++ Nat.repr line ++ ":" ++ Nat.repr column

end HandlerDocs.Code
