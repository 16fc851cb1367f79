import HandlerDocs.Code.Parser.Stream

namespace HandlerDocs.Code

/-- Where an expression stands: whether a brace may open a composite literal after a type name,
and whether `.(type)` may follow. -/
structure Place where
  literal : Bool
  guard : Bool

namespace Place

def inner : Place := ⟨true, false⟩

def header : Place := ⟨false, false⟩

def switchHeader : Place := ⟨false, true⟩

end Place

/-- What a piece of code may be before its surroundings decide: a value, a type, or both.
An index that could be type arguments remembers the operand it applies to. -/
inductive Reading where
  | value (expr : Expr)
  | name (expr : Expr) (type : TypeExpr)
  | generic (expr base : Expr) (type : TypeExpr)
  | indexed (expr base : Expr)
  | type (type : TypeExpr)

namespace Reading

def value? : Reading → Option Expr
  | .value e | .name e _ | .generic e _ _ | .indexed e _ => some e
  | .type _ => none

def type? : Reading → Option TypeExpr
  | .name _ t | .generic _ _ t | .type t => some t
  | .value _ | .indexed _ _ => none

/-- In parentheses a name is a value, and type arguments no longer reach through. -/
def parenthesized : Reading → Reading
  | .name e _ | .indexed e _ => .value e
  | .generic e _ t => .generic e e t
  | r => r

def pointer : Reading → Reading
  | .value e | .indexed e _ => .value (.unary .deref e)
  | .name e t => .name (.unary .deref e) (.pointer t)
  | .generic e _ t => .generic (.unary .deref e) (.unary .deref e) (.pointer t)
  | .type t => .type (.pointer t)

end Reading

structure Grammar where
  type : Parse TypeExpr
  expr : Place → Parse Reading
  literal : Parse (List Element)
  block : Parse Block
  stmt : Parse (Option Stmt)

namespace Grammar

def empty : Grammar :=
  ⟨failure, fun _ ↦ failure, failure, failure, failure⟩

def value (g : Grammar) (place : Place) : Parse Expr := do
  match (← g.expr place).value? with
  | some e => return e
  | none => failure

def values (g : Grammar) (place : Place) : Parse (List Expr) :=
  Parse.commaList (g.value place)

end Grammar

end HandlerDocs.Code
