import HandlerDocs.Flow.Handler
import HandlerDocs.Routing.Setup

namespace HandlerDocs.Routing

/-- How routes are looked for: the router package, the only handler of interest, if any, and how
deep calls are followed. -/
structure Options where
  package : RouterPackage := .default
  handler : Option String := none
  maxDepth : Nat := Flow.defaultDepth

/-- Walks a function that sets up routers. Functions that are active are not entered again, and no
more than `limit` are entered one inside the other. -/
def followSetup (project : Project) (package : RouterPackage) :
    (limit : Nat) → (active : List FuncRef) → FuncRef → Routers → Trace Route
  | 0, _, _, _ => []
  | limit + 1, active, f, routers =>
    if f ∈ active then []
    else
      let body := ((project.function? f).map (·.body)).getD []
      .inside f (walkBlock (Site.ofUnit project f.unit) package
        (followSetup project package limit (f :: active)) ⟨routers, Site.entryScope project f⟩ body)

def setupTrace (project : Project) (package : RouterPackage) (limit : Nat) (f : FuncRef) :
    Trace Route :=
  followSetup project package (limit + 1) [] f []

def makesRouter (name : String) (f : FuncDecl) : Bool :=
  Vocabulary.rootConstructors.any (f.calls name)

def setupsIn (project : Project) (package : RouterPackage) (unit : Nat) : List FuncRef :=
  match project.unit? unit, package.nameIn? project unit with
  | some file, some name =>
    (file.functions.zipIdx.filter fun p ↦ makesRouter name p.1).map fun p ↦ ⟨unit, p.2⟩
  | _, _ => []

def setups (project : Project) (package : RouterPackage) : List FuncRef :=
  (project.unitsImporting package.path).flatMap (setupsIn project package)

def Route.key (r : Route) : String × String × FuncRef :=
  (r.path, r.method, r.handler)

/-- Keeps the first of the routes with one key. -/
def distinctFrom (seen : List (String × String × FuncRef)) : List Route → List Route
  | [] => []
  | r :: more =>
    if r.key ∈ seen then distinctFrom seen more else r :: distinctFrom (r.key :: seen) more

def distinct (routes : List Route) : List Route :=
  distinctFrom [] routes

def Options.accepts (options : Options) (project : Project) (r : Route) : Bool :=
  match options.handler with
  | none => true
  | some name => (project.function? r.handler).any (·.name = name)

def Options.select (options : Options) (project : Project) (trace : Trace Route) : List Route :=
  distinct (trace.items.filter (options.accepts project))

def routesOf (project : Project) (options : Options) (f : FuncRef) : List Route :=
  options.select project (setupTrace project options.package options.maxDepth f)

def routes (project : Project) (options : Options) : List Route :=
  options.select project
    ((setups project options.package).flatMap (setupTrace project options.package options.maxDepth))

end HandlerDocs.Routing
