import HandlerDocs.Flow.Resolve

namespace HandlerDocs.Flow

open Code

variable (site : Site)

def chain? : Expr → Option (String × List String)
  | .ident name => some (name, [])
  | .selector operand field => (chain? operand).map fun c ↦ (c.1, c.2 ++ [field])
  | _ => none

/-- The documented name and the type of each field along a chain that starts at a type. Fields of
unknown structs get their name in snake case and no known type. -/
def fieldsAlong : String → List String → List (String × String)
  | _, [] => []
  | type, name :: more =>
    let found := (site.struct? type).bind fun s ↦ (s.2.field? name).map (s.1, ·)
    match found with
    | some (package, field) =>
      let next := site.relative field.type package
      (field.docName name, next) :: fieldsAlong next more
    | none => (Naming.snake name, "object") :: fieldsAlong "object" more

def assignField (scope : Scope) (target : Expr) (value : Shape) : Scope :=
  if value.isUnresolved then scope
  else match chain? target with
    | none => scope
    | some (root, names) =>
      match scope.get? root with
      | none => scope
      | some shape =>
        let fields := fieldsAlong site shape.name names
        let naming (walked : List String) := ((fields[walked.length - 1]?).map (·.2)).getD "object"
        scope.modify root fun s ↦ s.setPath naming (fields.map (·.1)) value

def sourceOf? (scope : Scope) (e : Expr) : Option ParamSource := do
  let (receiver, method, args) ← e.methodCall?
  let kind ← match Vocabulary.contextCall? method with
    | some (.query _) => some ParamKind.query
    | some (.form _ false) => some ParamKind.form
    | _ => none
  if isContext site receiver (resolve site scope receiver) then
    let name ← args.head?.bind (·.stringLit?)
    return ⟨kind, name⟩
  else none

def assignTarget (scope : Scope) (target : Expr) (value : Shape) : Scope :=
  match target with
  | .ident name => scope.bind name value
  | .selector _ _ => assignField site scope target value
  | _ => scope

def boundName? : Expr → Option String
  | .ident name => if name = "_" then none else some name
  | _ => none

def assignSource (scope : Scope) (targets values : List Expr) : Scope :=
  match targets.head?, values.head? with
  | some (.ident name), some value => scope.setSource name (sourceOf? site scope value)
  | _, _ => scope

/-- Assigns shapes to targets, from left to right, as far as both last. -/
def assign (scope : Scope) (targets values : List Expr) (shapes : List Shape) : Scope :=
  (targets.zip shapes).foldl (fun scope p ↦ assignTarget site scope p.1 p.2)
    (assignSource site scope targets values)

def assigned (targets : List Expr) (shapes : List Shape) : List String :=
  (targets.zip shapes).filterMap fun p ↦ boundName? p.1

def declareZero (scope : Scope) (names : List String) (type : Option TypeExpr) : Scope :=
  let shape := Shape.named ((type.map (·.render)).getD "object")
  names.foldl (fun scope name ↦ scope.bind name shape) scope

end HandlerDocs.Flow
