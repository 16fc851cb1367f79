import HandlerDocs.Glob
import HandlerDocs.Overview
import HandlerDocs.Routing.Discovery
import HandlerDocs.Text.Quoted

namespace HandlerDocs

structure Config where
  version : String := ""
  routerPath : Option String := none
  includeTestFiles : Option Bool := none
  excludedPaths : List String := []
  workers : Option Nat := none
  maxDepth : Option Nat := none
  handler : Option String := none
  overview : OverviewOptions := {}

namespace Config

def defaultWorkers : Nat := 20

def effectiveRouterPath (c : Config) : String :=
  c.routerPath.getD Routing.RouterPackage.default.path

def includesTestFiles (c : Config) : Bool :=
  c.includeTestFiles.getD false

def effectiveWorkers (c : Config) : Nat :=
  c.workers.getD defaultWorkers

def effectiveMaxDepth (c : Config) : Nat :=
  c.maxDepth.getD Flow.defaultDepth

def routing (c : Config) : Routing.Options :=
  ⟨⟨c.effectiveRouterPath⟩, c.handler, c.effectiveMaxDepth⟩

/-- Whether a pattern excludes a path; patterns that cannot be read exclude none. -/
def excludes (path pattern : String) : Bool :=
  match Glob.parse pattern with
  | .ok glob => glob.accepts path
  | .error _ => false

def isExcluded (c : Config) (path : String) : Bool :=
  c.excludedPaths.any (excludes path)

inductive Invalid where
  | noWorkers
  | emptyRouterPath
  | badPattern (pattern : String) (cause : Glob.Error)
  | badKey (key : String)
deriving DecidableEq

def Invalid.message : Invalid → String
  | .noWorkers => "workers must be at least 1"
  | .emptyRouterPath => "router_path must not be empty"
  | .badPattern pattern cause =>
    "invalid excluded_paths pattern " ++ Text.quote pattern ++ ": error parsing glob '" ++
      pattern ++ "': " ++ cause.message
  | .badKey key => "invalid info key " ++ Text.quote key

def patternFault? (pattern : String) : Option Invalid :=
  match Glob.parse pattern with
  | .ok _ => none
  | .error cause => some (.badPattern pattern cause)

def keyFault? (key : String) : Option Invalid :=
  if key.toList.any Text.isBlank then some (.badKey key) else none

def fault? (c : Config) : Option Invalid :=
  if c.workers = some 0 then some .noWorkers
  else if c.routerPath.any fun path ↦ (Text.trim path).isEmpty then some .emptyRouterPath
  else match c.excludedPaths.findSome? patternFault? with
    | some fault => some fault
    | none => c.overview.values.findSome? fun v ↦ keyFault? v.1

end Config

end HandlerDocs
