import HandlerDocs.Code.Type

namespace HandlerDocs.Code

inductive LitKind where
  | string | int | float | imaginary | rune | bool | nil
deriving DecidableEq

inductive UnaryOp where
  | plus | minus | not | complement | deref | address | receive
deriving DecidableEq

def UnaryOp.text : UnaryOp → String
  | .plus => "+"
  | .minus => "-"
  | .not => "!"
  | .complement => "^"
  | .deref => "*"
  | .address => "&"
  | .receive => "<-"

/-- A parameter or result; a group such as `a, b int` makes two of them. -/
structure Param where
  name : Option String
  type : TypeExpr
deriving Inhabited

structure ElementOf (ε : Type) where
  key : Option ε
  value : ε

structure SpecOf (ε : Type) where
  names : List String
  type : Option TypeExpr
  values : List ε

mutual

inductive Expr where
  | ident (name : String)
  | lit (kind : LitKind) (text : String)
  | selector (operand : Expr) (field : String)
  | call (fn : Expr) (args : List Expr)
  | composite (type : Option TypeExpr) (elements : List (ElementOf Expr))
  | unary (op : UnaryOp) (operand : Expr)
  | assertion (operand : Expr) (type : Option TypeExpr)
  | funcLit (params : List Param) (body : List Stmt)
  | type (type : TypeExpr)
  | other (text : String)

inductive Stmt where
  | assign (targets values : List Expr) (define : Bool)
  | declare (specs : List (SpecOf Expr))
  | eval (expr : Expr)
  | branch (init : Option Stmt) (body : List Stmt) (otherwise : Option Stmt)
  | block (body : List Stmt)
  | scoped (init : Option Stmt) (bodies : List (List Stmt))
  | result (values : List Expr)
  | deferred (expr : Expr)
  | other (text : String)

end

instance : Inhabited Expr := ⟨.other ""⟩

instance : Inhabited Stmt := ⟨.other ""⟩

abbrev Element := ElementOf Expr

abbrev ValueSpec := SpecOf Expr

abbrev Block := List Stmt

/-- The contents of a string literal, with escapes left alone; other literals as written. -/
def LitKind.value (kind : LitKind) (text : String) : String :=
  match kind with
  | .string => ((Text.unwrap? "\"" text).orElse fun _ ↦ Text.unwrap? "`" text).getD text
  | _ => text

namespace Expr

mutual

def render : Expr → String
  | .ident name => name
  | .lit _ text => text
  | .selector operand field => operand.render ++ "." ++ field
  | .call fn args => fn.render ++ "(" ++ renderArgs args ++ ")"
  | .composite (some t) _ => t.render ++ "\x7b\x7d"
  | .composite none _ => "\x7b\x7d"
  | .unary op operand => op.text ++ operand.render
  | .assertion operand (some t) => operand.render ++ ".(" ++ t.render ++ ")"
  | .assertion operand none => operand.render ++ ".(type)"
  | .funcLit _ _ => "func()\x7b\x7d"
  | .type t => t.render
  | .other text => text

def renderArgs : List Expr → String
  | [] => ""
  | [arg] => arg.render
  | arg :: more => arg.render ++ ", " ++ renderArgs more

end

def ident? : Expr → Option String
  | .ident name => some name
  | _ => none

def stringLit? : Expr → Option String
  | .lit .string text => some (LitKind.value .string text)
  | _ => none

def peel : Expr → Expr
  | .unary .address operand => operand.peel
  | e => e

def methodCall? : Expr → Option (Expr × String × List Expr)
  | .call (.selector operand field) args => some (operand, field, args)
  | _ => none

end Expr

mutual

/-- The expression and all inside it, outer ones first; bodies of function literals count. -/
def Expr.parts : Expr → List Expr
  | .selector operand field => .selector operand field :: operand.parts
  | .call fn args => .call fn args :: (fn.parts ++ partsOfList args)
  | .composite type elements => .composite type elements :: partsOfElements elements
  | .unary op operand => .unary op operand :: operand.parts
  | .assertion operand type => .assertion operand type :: operand.parts
  | .funcLit params body => .funcLit params body :: partsOfBlock body
  | e => [e]

def partsOfList : List Expr → List Expr
  | [] => []
  | e :: es => e.parts ++ partsOfList es

def partsOfElements : List Element → List Expr
  | [] => []
  | ⟨none, value⟩ :: more => value.parts ++ partsOfElements more
  | ⟨some key, value⟩ :: more => key.parts ++ value.parts ++ partsOfElements more

def partsOfSpecs : List ValueSpec → List Expr
  | [] => []
  | ⟨_, _, values⟩ :: more => partsOfList values ++ partsOfSpecs more

def Stmt.parts : Stmt → List Expr
  | .assign targets values _ => partsOfList targets ++ partsOfList values
  | .declare specs => partsOfSpecs specs
  | .eval expr => expr.parts
  | .branch init body otherwise =>
    partsOfOption init ++ partsOfBlock body ++ partsOfOption otherwise
  | .block body => partsOfBlock body
  | .scoped init bodies => partsOfOption init ++ partsOfBlocks bodies
  | .result values => partsOfList values
  | .deferred expr => expr.parts
  | .other _ => []

def partsOfOption : Option Stmt → List Expr
  | none => []
  | some s => s.parts

def partsOfBlock : List Stmt → List Expr
  | [] => []
  | s :: ss => s.parts ++ partsOfBlock ss

def partsOfBlocks : List (List Stmt) → List Expr
  | [] => []
  | b :: bs => partsOfBlock b ++ partsOfBlocks bs

end

end HandlerDocs.Code
