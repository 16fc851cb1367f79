import HandlerDocs.Naming

namespace HandlerDocs.Code

structure FieldOf (τ : Type) where
  names : List String
  type : τ
  tag : Option String

inductive TypeExpr where
  | name (text : String)
  | pointer (elem : TypeExpr)
  | slice (elem : TypeExpr)
  | array (len : String) (elem : TypeExpr)
  | map (key value : TypeExpr)
  | interface (text : String)
  | struct (fields : List (FieldOf TypeExpr))
  | other (text : String)
deriving Inhabited

abbrev FieldSpec := FieldOf TypeExpr

namespace TypeExpr

def render : TypeExpr → String
  | .name text => text
  | .pointer elem => "*" ++ elem.render
  | .slice elem => "[]" ++ elem.render
  | .array len elem => "[" ++ len ++ "]" ++ elem.render
  | .map key value => "map[" ++ key.render ++ "]" ++ value.render
  | .interface text => text
  | .struct [] => "struct\x7b\x7d"
  | .struct (_ :: _) => "struct\x7b...\x7d"
  | .other text => text

def isInterface : TypeExpr → Bool
  | .interface _ => true
  | .name text => text = "any"
  | _ => false

def baseName? : TypeExpr → Option String
  | .name text => some text
  | .pointer elem => elem.baseName?
  | _ => none

def qualify (package : String) : TypeExpr → TypeExpr
  | .name text => .name (Naming.qualify text package)
  | .pointer elem => .pointer (elem.qualify package)
  | .slice elem => .slice (elem.qualify package)
  | .array len elem => .array len (elem.qualify package)
  | .map key value => .map (key.qualify package) (value.qualify package)
  | t => t

end TypeExpr

end HandlerDocs.Code
