import HandlerDocs.Project
import HandlerDocs.Scope
import HandlerDocs.Vocabulary.Context
import HandlerDocs.Vocabulary.Status

namespace HandlerDocs

/-- Where the code under evaluation stands: its file and package, and the package of the handler
for which it is read. -/
structure Site where
  project : Project
  unit : Nat
  package : String
  reader : String

namespace Site

open Code

def ofUnit (project : Project) (unit : Nat) : Site :=
  ⟨project, unit, project.packageOf unit, project.packageOf unit⟩

def inside (site : Site) (f : FuncRef) : Site :=
  { site with unit := f.unit, package := site.project.packageOf f.unit }

def packageOf? (site : Site) (name : String) : Option String :=
  site.project.packageOfName? site.unit name

def importPath? (site : Site) (name : String) : Option String :=
  site.project.importPath? site.unit name

def locate (site : Site) (name : String) : String × String :=
  match Text.cutAt? '.' name with
  | some (front, base) => ((site.packageOf? front).getD front, base)
  | none => (site.package, name)

def struct? (site : Site) (type : String) : Option (String × StructDecl) :=
  let name := Text.dropLeading Shape.isReference type
  if name.isEmpty || Text.startsWith name "[" || Text.startsWith name "map[" then none
  else
    let (package, base) := site.locate name
    (site.project.structNamed package base).toOption

/-- A type declared in some package, as it is written here. -/
def relative (site : Site) (type : TypeExpr) (package : String) : String :=
  if package = site.package then type.render else (type.qualify package).render

def method? (site : Site) (receiver : Shape) (name : String) : Option FuncRef :=
  let (package, base) := site.locate (Text.upTo '[' receiver.baseName)
  site.project.methodNamed? package base name

def resultsOf (site : Site) (f : FuncRef) : List Shape :=
  let results := ((site.project.function? f).map (·.results)).getD []
  results.map fun type ↦ .named (site.relative type (site.project.packageOf f.unit))

def qualifier? (scope : Scope) : Expr → Option String
  | .ident name => if scope.contains name then none else some name
  | _ => none

def view (site : Site) (fact : Fact) : Fact :=
  if site.package = site.reader then fact else fact.qualify site.package

def entryScope (project : Project) (f : FuncRef) : Scope :=
  let globals := Scope.ofShapes (project.globals (project.packageOf f.unit))
  match project.function? f with
  | none => globals
  | some decl =>
    let receiver := decl.receiver.bind fun r ↦ r.name.map fun name ↦ (name, r.type)
    let params := decl.params.filterMap fun p ↦ p.name.map fun name ↦ (name, p.type.render)
    (receiver.toList ++ params).foldl (fun scope b ↦ scope.bind b.1 (.named b.2)) globals

end Site

end HandlerDocs
