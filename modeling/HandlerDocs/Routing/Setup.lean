import HandlerDocs.Flow.Run
import HandlerDocs.Routing.Path
import HandlerDocs.Vocabulary.Router

namespace HandlerDocs.Routing

open Code

/-- A registered endpoint: where it is reached, the path of the group it was registered on, and
the function that serves it. -/
structure Route where
  path : String
  method : String
  group : String
  handler : FuncRef
deriving DecidableEq

abbrev Routers := List (String × String)

structure RouterPackage where
  path : String

namespace RouterPackage

def default : RouterPackage := ⟨"github.com/gin-gonic/gin"⟩

def nameIn? (package : RouterPackage) (project : Project) (unit : Nat) : Option String :=
  (project.unit? unit).bind (·.localName? package.path (Naming.packageOf package.path))

end RouterPackage

structure Setup where
  routers : Routers
  scope : Scope

variable (site : Site) (package : RouterPackage) (enter : FuncRef → Routers → Trace Route)

def isFreshRouter (scope : Scope) (receiver : Expr) (method : String) : Bool :=
  match package.nameIn? site.project site.unit with
  | some name =>
    receiver.ident? = some name && !scope.contains name && Vocabulary.isRootConstructor method
  | none => false

/-- The path under which a router expression serves: a fresh router, a router variable, or a group
of either. -/
def mount? (setup : Setup) : Expr → Option String
  | .ident name => Assoc.get? name setup.routers
  | .call (.selector receiver method) args =>
    if isFreshRouter site package setup.scope receiver method then some ""
    else if Vocabulary.routerCall? method = some .group then do
      let base ← mount? setup receiver
      let path ← args.head?.bind (·.stringLit?)
      return Path.join base (Path.normalize path)
    else none
  | _ => none

def handler? (setup : Setup) (e : Expr) : Option FuncRef := do
  let (f, _) ← Flow.calleeOf? site setup.scope e
  let name ← package.nameIn? site.project f.unit
  let decl ← site.project.function? f
  let _ ← decl.paramOfType? ("*" ++ name ++ ".Context")
  return f

/-- The route that a registration makes; its last argument is the handler, those before are run
on the way to it. -/
def route? (setup : Setup) (base : String) (path : Expr) (method : String) (args : List Expr) :
    Option Route := do
  let raw ← path.stringLit?
  let last ← args.getLast?
  let handler ← handler? site package setup last
  return ⟨Path.join base (Path.normalize raw), method, base, handler⟩

/-- The verb of a registration that names it by a constant such as `MethodGet` or by a text. -/
def verb? : Expr → Option String
  | .selector _ field => (Text.dropStart? "Method" field).map Text.lower
  | e => e.stringLit?.map Text.lower

def registered? (setup : Setup) (base method : String) (args : List Expr) : Option Route :=
  match Vocabulary.routerCall? method, args with
  | some (.verb verb), path :: _ :: _ => route? site package setup base path verb args
  | some .handle, verb :: path :: _ :: _ => do
    let verb ← verb? verb
    route? site package setup base path verb args
  | _, _ => none

/-- Gives parameters the routers they are called with. The other routers of the caller stay. -/
def passRouters (routers : Routers) (params : List Param) (mounts : List (Option String)) :
    Routers :=
  (params.zip mounts).foldl (fun routers p ↦
    match p.1.name, p.2 with
    | none, _ => routers
    | some name, some mount => Assoc.put name mount routers
    | some name, none => Assoc.erase name routers) routers

def walkHelper (setup : Setup) (fn : Expr) (args : List Expr) : Trace Route :=
  let mounts := args.map (mount? site package setup)
  if mounts.all (·.isNone) then []
  else match Flow.calleeOf? site setup.scope fn with
    | none => []
    | some (f, _) =>
      let params := ((site.project.function? f).map (·.params)).getD []
      enter f (passRouters setup.routers params mounts)

def walkCall (setup : Setup) : Expr → Trace Route
  | .call (.selector receiver method) args =>
    match mount? site package setup receiver with
    | some base => .ofItems (registered? site package setup base method args).toList
    | none => walkHelper site package enter setup (.selector receiver method) args
  | .call fn args => walkHelper site package enter setup fn args
  | _ => []

/-- One target and its value: the target becomes a router variable or ceases to be one. -/
def walkPair (setup : Setup) (target value : Expr) : Setup × Trace Route :=
  match Flow.boundName? target, mount? site package setup value with
  | none, _ => (setup, walkCall site package enter setup value)
  | some name, some mount => ({ setup with routers := Assoc.put name mount setup.routers }, [])
  | some name, none =>
    let setup := { setup with routers := Assoc.erase name setup.routers }
    (setup, walkCall site package enter setup value)

def walkPairs (setup : Setup) : List (Expr × Expr) → Setup × Trace Route
  | [] => (setup, [])
  | (target, value) :: more =>
    let (setup, trace) := walkPair site package enter setup target value
    let (setup, rest) := walkPairs setup more
    (setup, trace ++ rest)

def forget (setup : Setup) (names : List String) : Setup :=
  { setup with routers := names.foldl (fun routers name ↦ Assoc.erase name routers) setup.routers }

/-- The routers after an assignment; targets that share one value hold none. -/
def walkTargets (setup : Setup) (targets values : List Expr) : Setup × Trace Route :=
  if targets.length = values.length then walkPairs site package enter setup (targets.zip values)
  else (forget setup (targets.filterMap (·.ident?)), [])

def walkSpecs (setup : Setup) : List ValueSpec → Setup × Trace Route
  | [] => (setup, [])
  | spec :: more =>
    let (setup, trace) :=
      if spec.values.isEmpty then (forget setup spec.names, [])
      else walkTargets site package enter setup (spec.names.map .ident) spec.values
    let (setup, rest) := walkSpecs setup more
    (setup, trace ++ rest)

def scopeAfter (scope : Scope) (s : Stmt) : Scope :=
  (Flow.evalStmt site (fun _ _ ↦ []) scope s).scope

mutual

/-- Walks a statement of setup code. Branches and blocks keep their variables to themselves. -/
def walkStmt (setup : Setup) : Stmt → Setup × Trace Route
  | .assign targets values define =>
    let (after, trace) := walkTargets site package enter setup targets values
    ({ after with scope := scopeAfter site setup.scope (.assign targets values define) }, trace)
  | .declare specs =>
    let (after, trace) := walkSpecs site package enter setup specs
    ({ after with scope := scopeAfter site setup.scope (.declare specs) }, trace)
  | .eval e => (setup, walkCall site package enter setup e)
  | .branch init body otherwise =>
    let start := walkInit setup init
    (setup, start.2 ++ walkBlock start.1 body ++ (walkInit start.1 otherwise).2)
  | .block body => (setup, walkBlock setup body)
  | .scoped init bodies =>
    let start := walkInit setup init
    (setup, start.2 ++ walkBlocks start.1 bodies)
  | .result _ => (setup, [])
  | .deferred _ => (setup, [])
  | .other _ => (setup, [])

def walkInit (setup : Setup) : Option Stmt → Setup × Trace Route
  | none => (setup, [])
  | some s => walkStmt setup s

def walkBlock (setup : Setup) : List Stmt → Trace Route
  | [] => []
  | s :: more =>
    let after := walkStmt setup s
    after.2 ++ walkBlock after.1 more

def walkBlocks (setup : Setup) : List (List Stmt) → Trace Route
  | [] => []
  | body :: more => walkBlock setup body ++ walkBlocks setup more

end

end HandlerDocs.Routing
