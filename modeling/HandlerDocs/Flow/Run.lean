import HandlerDocs.Flow.Assign
import HandlerDocs.Flow.Request
import HandlerDocs.Trace

namespace HandlerDocs.Flow

open Code

structure Outcome where
  results : Option (List Shape)
  trace : Trace Fact

/-- The outcome of a statement: the names it bound, the scope after it, and what happened. -/
structure Step where
  bound : List String
  scope : Scope
  trace : Trace Fact

variable (site : Site) (enter : FuncRef → Scope → Trace Fact)

/-- Shapes go over to another package qualified by the one they come from. -/
def carry (f : FuncRef) (shape : Shape) : Shape :=
  if site.project.packageOf f.unit = site.package then shape else shape.qualify site.package

def bindParam (scope : Scope) (f : FuncRef) (inner : Scope) (param : Param) (arg : Expr) : Scope :=
  match param.name with
  | none => inner
  | some name =>
    let shape := match resolve site scope arg with
      | some shape => carry site f shape
      | none => .named param.type.render
    let inner := inner.bind name shape
    match arg.ident?.bind scope.source? with
    | some source => inner.setSource name (some source)
    | none => inner

def calleeScope (scope : Scope) (f : FuncRef) (receiver : Option Shape) (args : List Expr) :
    Scope :=
  let globals := Scope.ofShapes (site.project.globals (site.project.packageOf f.unit))
  match site.project.function? f with
  | none => globals
  | some decl =>
    let own := match decl.receiver.bind (·.name), receiver with
      | some name, some shape => globals.bind name (carry site f shape)
      | _, _ => globals
    (decl.params.zip args).foldl (fun inner p ↦ bindParam site scope f inner p.1 p.2) own

def closureScope (scope : Scope) (params : List Param) (args : List Expr) : Scope :=
  params.zipIdx.foldl (fun inner p ↦
    match p.1.name with
    | none => inner
    | some name =>
      inner.bind name (((args[p.2]?).bind (resolve site scope)).getD (.named p.1.type.render)))
    scope

def found (facts : List Fact) : Trace Fact :=
  .ofItems (facts.map site.view)

def knownCall? (scope : Scope) (fn : Expr) (args : List Expr) : Option Outcome :=
  match fn with
  | .selector operand method =>
    let context := (Vocabulary.contextCall? method).filter fun _ ↦
      isContext site operand (resolve site scope operand)
    match context with
    | some call => some ⟨some ((Vocabulary.contextResults method).map .named),
        found site (contextFacts site scope call method args)⟩
    | none => (conversion? site operand method).map fun (type, result) ↦
        ⟨some [.named result, .named "error"], found site (conversionFacts scope type args)⟩
  | _ => none

/-- A call of anything but a function literal, once its arguments are evaluated. Project functions
are entered with the shapes of the arguments. -/
def callNamed (scope : Scope) (fn : Expr) (args : List Expr) : Outcome :=
  match knownCall? site scope fn args with
  | some outcome => outcome
  | none =>
    match calleeOf? site scope fn with
    | some (f, receiver) =>
      ⟨some (site.resultsOf f), enter f (calleeScope site scope f receiver args)⟩
    | none => ⟨declaredResults? site scope (.call fn args), []⟩

def Outcome.value (outcome : Outcome) (text : String) : Shape :=
  (outcome.results.bind (·.head?)).getD (.unresolved text)

/-- As many results of a call as there are targets, or its text for all of them. -/
def Outcome.values (outcome : Outcome) (count : Nat) (text : String) : List Shape :=
  match outcome.results with
  | some results => if results.length = count then results else .replicate count (.unresolved text)
  | none => .replicate count (.unresolved text)

mutual

def evalExpr (scope : Scope) : Expr → Shape × Trace Fact
  | .call fn args =>
    let before := evalArgs scope args
    let outcome := evalCallee scope args fn
    (outcome.value (Expr.call fn args).render, before ++ outcome.trace)
  | .unary .address operand => evalExpr scope operand
  | e => (shapeOf site scope e, [])

/-- The values of an assignment to `count` targets: one call or assertion may give all of them. -/
def evalSpread (scope : Scope) (count : Nat) : Expr → List Shape × Trace Fact
  | .assertion operand type =>
    let text := (Expr.assertion operand type).render
    let value := match type with
      | some t => .named t.render
      | none => shapeOf site scope operand
    ([value, .named "bool"] ++ .replicate (count - 2) (.unresolved text), [])
  | .call fn args =>
    let before := evalArgs scope args
    let outcome := evalCallee scope args fn
    (outcome.values count (Expr.call fn args).render, before ++ outcome.trace)
  | e => (.replicate count (.unresolved e.render), [])

def evalCallee (scope : Scope) (args : List Expr) : Expr → Outcome
  | .funcLit params body => ⟨none, evalBlock (closureScope site scope params args) body⟩
  | fn => callNamed site enter scope fn args

/-- Nested calls come before the outer call, and function literals run where they are passed. -/
def evalArg (scope : Scope) : Expr → Trace Fact
  | .unary .address operand => evalArg scope operand
  | .call fn args => evalArgs scope args ++ (evalCallee scope args fn).trace
  | .funcLit params body => evalBlock (closureScope site scope params []) body
  | _ => []

def evalArgs (scope : Scope) : List Expr → Trace Fact
  | [] => []
  | arg :: more => evalArg scope arg ++ evalArgs scope more

def evalEach (scope : Scope) : List Expr → List Shape × Trace Fact
  | [] => ([], [])
  | e :: more =>
    let (shape, trace) := evalExpr scope e
    let (shapes, rest) := evalEach scope more
    (shape :: shapes, trace ++ rest)

def evalValues (scope : Scope) (count : Nat) : List Expr → List Shape × Trace Fact
  | [] => ([], [])
  | e :: more =>
    if 1 < count && more.isEmpty then evalSpread scope count e
    else
      let (shape, trace) := evalExpr scope e
      let (shapes, rest) := evalEach scope more
      (shape :: shapes, trace ++ rest)

def evalSpecs (scope : Scope) : List ValueSpec → Step
  | [] => ⟨[], scope, []⟩
  | ⟨names, type, values⟩ :: more =>
    let step : Step :=
      if values.isEmpty then ⟨names.filter (· ≠ "_"), declareZero scope names type, []⟩
      else
        let targets := names.map Expr.ident
        let (shapes, trace) := evalValues scope names.length values
        ⟨assigned targets shapes, assign site scope targets values shapes, trace⟩
    let rest := evalSpecs step.scope more
    ⟨step.bound ++ rest.bound, rest.scope, step.trace ++ rest.trace⟩

/-- Evaluates a statement. Branches and blocks work on a scope of their own. -/
def evalStmt (scope : Scope) : Stmt → Step
  | .assign targets values _ =>
    let (shapes, trace) := evalValues scope targets.length values
    ⟨assigned targets shapes, assign site scope targets values shapes, trace⟩
  | .declare specs => evalSpecs scope specs
  | .eval e => ⟨[], scope, (evalExpr scope e).2⟩
  | .deferred e => ⟨[], scope, (evalExpr scope e).2⟩
  | .branch init body otherwise =>
    let start := evalInit scope init
    ⟨[], scope, start.2 ++ evalBlock start.1 body ++ (evalInit start.1 otherwise).2⟩
  | .block body => ⟨[], scope, evalBlock scope body⟩
  | .scoped init bodies =>
    let start := evalInit scope init
    ⟨[], scope, start.2 ++ evalBlocks start.1 bodies⟩
  | .result values => ⟨[], scope, (evalEach scope values).2⟩
  | .other _ => ⟨[], scope, []⟩

def evalInit (scope : Scope) : Option Stmt → Scope × Trace Fact
  | none => (scope, [])
  | some s =>
    let step := evalStmt scope s
    (step.scope, step.trace)

def evalBlock (scope : Scope) : List Stmt → Trace Fact
  | [] => []
  | s :: more =>
    let step := evalStmt scope s
    step.trace ++ evalBlock step.scope more

def evalBlocks (scope : Scope) : List (List Stmt) → Trace Fact
  | [] => []
  | body :: more => evalBlock scope body ++ evalBlocks scope more

end

def evalCall (scope : Scope) : Expr → Outcome
  | .call fn args =>
    let outcome := evalCallee site enter scope args fn
    ⟨outcome.results, evalArgs site enter scope args ++ outcome.trace⟩
  | _ => ⟨none, []⟩

end HandlerDocs.Flow
