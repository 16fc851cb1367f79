import HandlerDocs.Code.File

namespace HandlerDocs

structure Receiver where
  name : Option String
  type : String
deriving DecidableEq

/-- A function with its comment block; `pending` lines are to replace that block. -/
structure FuncDecl where
  name : String
  receiver : Option Receiver
  params : List Code.Param
  results : List Code.TypeExpr
  body : Code.Block
  span : Code.Span
  doc : Code.DocComment
  pending : Option (List String)

namespace FuncDecl

def receiverOf (p : Code.Param) : Receiver :=
  ⟨p.name, (p.type.baseName?.map (Text.upTo '[')).getD p.type.render⟩

def ofNode (node : Code.FuncNode) : FuncDecl where
  name := node.name
  receiver := node.receiver.map receiverOf
  params := node.params
  results := node.results.map (·.type)
  body := node.body.getD []
  span := node.span
  doc := node.doc
  pending := none

def code (f : FuncDecl) : FuncDecl :=
  { f with span := ⟨0, 0, 0, 0, 0⟩, doc := ⟨none, []⟩, pending := none }

def qualifiedName (f : FuncDecl) : String :=
  match f.receiver with
  | some r => r.type ++ "." ++ f.name
  | none => f.name

def docLines (f : FuncDecl) : List String :=
  f.pending.getD f.doc.lines

/-- Asks for another comment block; nothing changes when it is the current one. -/
def setDoc (f : FuncDecl) (lines : List String) : FuncDecl × Bool :=
  if f.docLines = lines then (f, false) else ({ f with pending := some lines }, true)

def paramOfType? (f : FuncDecl) (type : String) : Option String :=
  (f.params.find? (·.type.render = type)).bind (·.name)

def isCallTo (qualifier name : String) (e : Code.Expr) : Bool :=
  match e.methodCall? with
  | some (.ident q, n, _) => q = qualifier && n = name
  | _ => false

def calls (f : FuncDecl) (qualifier name : String) : Bool :=
  (Code.partsOfBlock f.body).any (isCallTo qualifier name)

end FuncDecl

end HandlerDocs
