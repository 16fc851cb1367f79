import HandlerDocs.Flow.Site

namespace HandlerDocs.Flow

open Code

variable (site : Site) (scope : Scope)

def literalShape : LitKind → Option Shape
  | .string => some (.named "string")
  | .int => some (.named "int")
  | .float => some (.named "float64")
  | .imaginary => some (.named "complex128")
  | .rune => some (.named "rune")
  | .bool => some (.named "bool")
  | .nil => none

def derefName (name : String) : String :=
  Text.dropLeading (· = '*') name

def deref : Shape → Shape
  | .named name => .named (derefName name)
  | .unresolved text => .unresolved text
  | .record name fields => .record (derefName name) fields

def looksLikeContext (shape : Shape) : Bool :=
  Text.endsWith shape.baseName "Context"

/-- Whether the receiver of a call is a request context, given what is known of its shape. An
identifier that is neither a variable nor a package is taken for one. -/
def isContext (receiver : Expr) (shape : Option Shape) : Bool :=
  match shape, receiver with
  | some shape, _ => looksLikeContext shape
  | none, .ident name => !site.project.isPackageName site.unit name
  | none, _ => false

def conversion? (receiver : Expr) (method : String) : Option (String × String) := do
  let qualifier ← receiver.ident?
  if site.importPath? qualifier = some Vocabulary.conversionPackage then
    Vocabulary.conversion? method
  else none

/-- The project function that a callee names, and the shape of the receiver of a method;
`receiver` is what is known of the operand of a selector. -/
def callee? (fn : Expr) (receiver : Option Shape) : Option (FuncRef × Option Shape) :=
  match fn with
  | .ident name =>
    if scope.contains name then none
    else (site.project.functionsNamed site.package name).head?.map (·, none)
  | .selector operand field =>
    match Site.qualifier? scope operand with
    | some qualifier => do
      let package ← site.packageOf? qualifier
      (site.project.functionsNamed package field).head?.map (·, none)
    | none => do
      let shape ← receiver
      let f ← site.method? shape field
      return (f, some shape)
  | _ => none

def knownResults? (fn : Expr) (receiver : Option Shape) : Option (List Shape) :=
  match fn with
  | .selector operand method =>
    if (Vocabulary.contextCall? method).isSome && isContext site operand receiver then
      some ((Vocabulary.contextResults method).map .named)
    else (conversion? site operand method).map fun c ↦ [.named c.2, .named "error"]
  | _ => none

def builtinResults? (fn : Expr) (args : List Expr) (first : Option Shape) : Option (List Shape) :=
  match fn with
  | .type t => some [.named t.render]
  | .ident name =>
    if scope.contains name then none
    else if Naming.isPredeclared name then some [.named name]
    else match name with
      | "new" => args.head?.map fun arg ↦ [.named ("*" ++ arg.render)]
      | "make" => args.head?.map fun arg ↦ [.named arg.render]
      | "len" => some [.named "int"]
      | "cap" => some [.named "int"]
      | "copy" => some [.named "int"]
      | "append" => first.map ([·])
      | _ => none
  | _ => none

def callResults? (fn : Expr) (args : List Expr) (receiver first : Option Shape) :
    Option (List Shape) :=
  match knownResults? site fn receiver with
  | some results => some results
  | none =>
    match callee? site scope fn receiver with
    | some (f, _) => some (site.resultsOf f)
    | none => builtinResults? scope fn args first

/-- The shape of a selector: a variable of another package, or a field of a struct; `base` is the
shape of the operand. What was written to the field is known better than its declared type. -/
def selectorShape? (operand : Expr) (field : String) (base : Option Shape) : Option Shape :=
  match Site.qualifier? scope operand with
  | some qualifier => do
    let package ← site.packageOf? qualifier
    let shape ← Assoc.get? field (site.project.globals package)
    return if package = site.package then shape else shape.qualify qualifier
  | none => do
    let base ← base
    let (package, decl) ← site.struct? base.name
    let declared ← decl.field? field
    let type := site.relative declared.type package
    return (base.field? (declared.docName field)).getD (.named type)

/-- A composite literal of which some elements were read: its shape so far, and its struct with
the package that declares it. -/
structure Literal where
  shape : Shape
  struct : Option (String × StructDecl)

namespace Literal

def start (type : String) : Literal :=
  match site.struct? type with
  | some found => ⟨.record type [], some found⟩
  | none => ⟨.named type, none⟩

def field? (literal : Literal) : Option Expr → Option (String × TypeExpr)
  | some (.ident name) => do
    let (package, decl) ← literal.struct
    let field ← decl.field? name
    let type := if package = site.package then field.type else field.type.qualify package
    return (field.docName name, type)
  | _ => none

def put (literal : Literal) (key : String) (value : Option Shape) : Literal :=
  match value with
  | some shape => { literal with shape := literal.shape.setField key shape }
  | none => literal

end Literal

def resolvedOnly : Option Shape → Option Shape
  | some (.unresolved _) => none
  | shape => shape

mutual

def resolve : Expr → Option Shape
  | .ident name => scope.get? name
  | .lit kind _ => literalShape kind
  | .selector operand field => selectorShape? site scope operand field (resolve operand)
  | .call fn args =>
    (callResults? site scope fn args (resolveOperand fn) (resolveHead args)).bind (·.head?)
  | .composite (some t) elements => some (resolveElements (.start site t.render) elements)
  | .composite none _ => none
  | .unary op operand =>
    match op with
    | .deref => (resolve operand).map deref
    | .not => some (.named "bool")
    | .receive => none
    | _ => resolve operand
  | .assertion _ (some t) => some (.named t.render)
  | .assertion operand none => resolve operand
  | .type t => some (.named t.render)
  | .funcLit _ _ => some (.named "func")
  | .other _ => none

def resolveOperand : Expr → Option Shape
  | .selector operand _ => resolve operand
  | _ => none

def resolveHead : List Expr → Option Shape
  | [] => none
  | e :: _ => resolve e

/-- What an element of a composite literal writes to a field of type `type`; nothing for constants
and for values that are not known. -/
def resolveValue (type : TypeExpr) : Expr → Option Shape
  | .unary .address operand => resolveValue type operand
  | .composite (some t) elements => some (resolveElements (.start site t.render) elements)
  | .composite none elements => some (resolveElements (.start site type.render) elements)
  | .ident name => resolvedOnly (scope.get? name)
  | .selector operand field =>
    resolvedOnly (selectorShape? site scope operand field (resolve operand))
  | .call fn args => resolvedOnly
      ((callResults? site scope fn args (resolveOperand fn) (resolveHead args)).bind (·.head?))
  | _ => none

def resolveElements (literal : Literal) : List Element → Shape
  | [] => literal.shape
  | ⟨key, value⟩ :: more =>
    match literal.field? site key with
    | some (name, type) => resolveElements (literal.put name (resolveValue type value)) more
    | none => resolveElements literal more

end

def declaredResults? : Expr → Option (List Shape)
  | .call fn args =>
    callResults? site scope fn args (resolveOperand site scope fn) (resolveHead site scope args)
  | _ => none

/-- The shape of an expression; its own text where nothing is known of it. -/
def shapeOf (e : Expr) : Shape :=
  (resolve site scope e).getD (.unresolved e.render)

def calleeOf? (fn : Expr) : Option (FuncRef × Option Shape) :=
  callee? site scope fn (resolveOperand site scope fn)

def status? : Expr → Option Nat
  | .lit .int text => Text.decimalBelow? 65536 text
  | .selector operand field => do
    let qualifier ← Site.qualifier? scope operand
    if site.importPath? qualifier = some Vocabulary.statusPackage then Vocabulary.statusCode? field
    else none
  | _ => none

end HandlerDocs.Flow
