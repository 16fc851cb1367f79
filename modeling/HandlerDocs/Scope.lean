import HandlerDocs.Fact

namespace HandlerDocs

structure ParamSource where
  kind : ParamKind
  name : String
deriving DecidableEq

/-- What is known of the variables in sight: their shapes, and which of them hold a parameter. -/
structure Scope where
  shapes : List (String × Shape) := []
  sources : List (String × ParamSource) := []

namespace Scope

def empty : Scope := {}

def get? (scope : Scope) (name : String) : Option Shape :=
  Assoc.get? name scope.shapes

def contains (scope : Scope) (name : String) : Bool :=
  (scope.get? name).isSome

def bind (scope : Scope) (name : String) (shape : Shape) : Scope :=
  if name = "_" then scope else { scope with shapes := Assoc.put name shape scope.shapes }

def source? (scope : Scope) (name : String) : Option ParamSource :=
  Assoc.get? name scope.sources

def setSource (scope : Scope) (name : String) : Option ParamSource → Scope
  | some source =>
    if name = "_" then { scope with sources := Assoc.erase name scope.sources }
    else { scope with sources := Assoc.put name source scope.sources }
  | none => { scope with sources := Assoc.erase name scope.sources }

def modify (scope : Scope) (name : String) (f : Shape → Shape) : Scope :=
  match scope.get? name with
  | some shape => { scope with shapes := Assoc.put name (f shape) scope.shapes }
  | none => scope

def size (scope : Scope) : Nat :=
  scope.shapes.length

/-- Later entries win. -/
def ofShapes (shapes : List (String × Shape)) : Scope :=
  shapes.foldl (fun scope e ↦ { scope with shapes := Assoc.put e.1 e.2 scope.shapes }) empty

/-- Two scopes agree when they bind the same names alike, in whatever order. -/
def agrees (a b : Scope) : Bool :=
  a.shapes.length = b.shapes.length && a.shapes.all (fun e ↦ b.get? e.1 = some e.2) &&
  a.sources.length = b.sources.length && a.sources.all fun e ↦ b.source? e.1 = some e.2

end Scope

end HandlerDocs
