import HandlerDocs.Config.Basic
import HandlerDocs.Endpoint

namespace HandlerDocs

namespace SourceFile

def loadFrom (disk : Disk) (cwd : Disk.Place) (path : String) : Except LoadError SourceFile := do
  let bytes ← (disk.read cwd path).mapError (.unreadable path)
  let source ← (Text.decodeUtf8 bytes).mapError (.notText path)
  load path source

end SourceFile

namespace Generation

/-- What a run does: how it looks for routes, how deep it follows the calls of a handler, the
general information, and whether files are written. -/
structure Options where
  routing : Routing.Options := {}
  depth : Nat := Flow.defaultDepth
  overview : OverviewOptions := {}
  write : Bool := true

def Options.ofConfig (config : Config) (write : Bool) : Options :=
  ⟨config.routing, config.effectiveMaxDepth, config.overview, write⟩

structure HandlerReport where
  handler : String
  file : String
  routes : List RouterDoc
  lines : List String
  changed : Bool

structure Report where
  filesLoaded : Nat
  failed : List String
  handlers : List HandlerReport
  overviewChanged : Option Bool
  unitsWritten : Nat

def Report.changedHandlers (r : Report) : Nat :=
  r.handlers.countP (·.changed)

def failure? (wording : SourceFile.Wording) :
    Except SourceFile.LoadError SourceFile → Option String
  | .ok _ => none
  | .error e => some (e.message wording)

/-- The project of the files that could be loaded, and the messages about the others in order.
The results may come in any order. -/
def collect (wording : SourceFile.Wording)
    (results : List (Except SourceFile.LoadError SourceFile)) : Project × List String :=
  (.ofFiles (results.filterMap (·.toOption)),
    (results.filterMap (failure? wording)).mergeSort fun a b ↦ decide (a ≤ b))

def load (disk : Disk) (cwd : Disk.Place) (paths : List String)
    (wording : SourceFile.Wording := .text) : Project × List String :=
  collect wording (paths.map (SourceFile.loadFrom disk cwd))

def handlerReport (project : Project) (c : Endpoint.Change) : HandlerReport where
  handler := project.packageOf c.handler.unit ++ "." ++
    ((project.function? c.handler).map (·.qualifiedName)).getD ""
  file := ((project.unit? c.handler.unit).map (·.path)).getD ""
  routes := c.doc.routers
  lines := c.lines
  changed := c.changed

def endpoints (options : Options) (project : Project) : List Endpoint :=
  Endpoint.all project options.routing options.depth

/-- Brings the general information up to date where it is asked for. Without a main function it
is left alone. -/
def describe (project : Project) (options : OverviewOptions) : Project × Option Bool :=
  if options.isEnabled then
    match project.describe options with
    | .ok (project, changed) => (project, some changed)
    | .error _ => (project, none)
  else (project, none)

def document (options : Options) (project : Project) (failed : List String) : Project × Report :=
  let filesLoaded := project.units.length
  let (project, changes) := Endpoint.applyAll project (endpoints options project)
  let handlers := changes.map (handlerReport project)
  let (project, overviewChanged) := describe project options.overview
  (project, ⟨filesLoaded, failed, handlers, overviewChanged, 0⟩)

def run (options : Options) (disk : Disk) (cwd : Disk.Place) (paths : List String) :
    Disk × Except Project.SaveError Report :=
  let (project, failed) := load disk cwd paths
  let (project, report) := document options project failed
  if options.write then
    let (_, disk, outcome) := project.save cwd disk
    (disk, outcome.map fun written ↦ { report with unitsWritten := written })
  else (disk, .ok report)

def failure (e : Project.SaveError) : String :=
  "writing annotated units: " ++ e.message ++ ": " ++ e.cause.message

end Generation

end HandlerDocs
