import HandlerDocs.Disk.Basic
import HandlerDocs.EndpointDoc.Merge
import HandlerDocs.Overview
import HandlerDocs.SourceFile.Splice

namespace HandlerDocs

/-- A function of a project: the number of its file and its number there. -/
structure FuncRef where
  unit : Nat
  index : Nat
deriving DecidableEq

namespace SourceFile

def save (write : String → String → Disk → Except DiskError Disk) (file : SourceFile)
    (disk : Disk) : Except DiskError (SourceFile × Disk) :=
  if file.dirty then
    (write file.path file.render disk).map fun disk ↦ (file.stored, disk)
  else .ok (file, disk)

end SourceFile

/-- The source files of a project, in the order of their paths. -/
structure Project where
  units : List SourceFile

structure NotFound where
  kind : String
  package : String
  name : String
deriving DecidableEq

def NotFound.message (e : NotFound) : String :=
  e.kind ++ " " ++ e.package ++ "." ++ e.name ++ " not found"

namespace Project

def ofFiles (files : List SourceFile) : Project :=
  ⟨files.mergeSort fun a b ↦ PathName.le a.path b.path⟩

def code (p : Project) : Project :=
  ⟨p.units.map SourceFile.code⟩

def unit? (p : Project) (id : Nat) : Option SourceFile :=
  p.units[id]?

def function? (p : Project) (f : FuncRef) : Option FuncDecl :=
  (p.unit? f.unit).bind (·.functions[f.index]?)

def packageOf (p : Project) (id : Nat) : String :=
  ((p.unit? id).map (·.package)).getD ""

def functions (p : Project) : List FuncRef :=
  p.units.zipIdx.flatMap fun (file, unit) ↦ (List.range file.functions.length).map (⟨unit, ·⟩)

def packageFiles (p : Project) (package : String) : List (SourceFile × Nat) :=
  p.units.zipIdx.filter (·.1.package = package)

def packageUnits (p : Project) (package : String) : List Nat :=
  (p.packageFiles package).map (·.2)

/-- A dotted name is looked up in the package before the dot, any other in the given one. -/
def splitQualified (package name : String) : String × String :=
  match Text.cutAt? '.' name with
  | some (before, after) =>
    if before.isEmpty || after.isEmpty then (package, name) else (before, after)
  | none => (package, name)

def functionsNamed (p : Project) (package name : String) : List FuncRef :=
  let (package, name) := splitQualified package name
  (p.packageFiles package).filterMap fun (file, unit) ↦
    (file.functionIndex? name).map (⟨unit, ·⟩)

def methodNamed? (p : Project) (package receiver name : String) : Option FuncRef :=
  let (package, receiver) := splitQualified package receiver
  let receiver := Text.dropLeading Shape.isReference receiver
  (p.packageFiles package).findSome? fun (file, unit) ↦
    (file.methodIndex? receiver name).map (⟨unit, ·⟩)

def maxHops : Nat := 8

def isTypeName (type : String) : Bool :=
  let base := Text.dropLeading (· = '*') type
  let others := ["[", "map[", "func", "chan", "interface", "struct"]
  !others.any (Text.startsWith base)

/-- The first declaration of a type that is a struct or a name for another type. -/
def typeDecl? (p : Project) (package name : String) : Option TypeDecl :=
  (p.packageFiles package).findSome? fun (file, _) ↦
    match Assoc.get? name file.types with
    | some (.struct decl) => some (.struct decl)
    | some (.named type) => some (.named type)
    | _ => none

/-- Follows names for types until a struct is found, looking at no more than `hops` of them. -/
def structFrom? (p : Project) : Nat → String → String → Option (String × StructDecl)
  | 0, _, _ => none
  | hops + 1, package, type =>
    match p.typeDecl? package (Text.upTo '[' type) with
    | some (.struct decl) => some (package, decl)
    | some (.named target) =>
      if isTypeName target then
        let (package, type) := splitQualified package (Text.dropLeading (· = '*') target)
        structFrom? p hops package type
      else none
    | _ => none

def structNamed (p : Project) (package name : String) : Except NotFound (String × StructDecl) :=
  let (pkg, type) := splitQualified package (Text.dropLeading Shape.isReference name)
  match p.structFrom? maxHops pkg type with
  | some found => .ok found
  | none => .error ⟨"struct", package, name⟩

def globals (p : Project) (package : String) : List (String × Shape) :=
  (p.packageFiles package).flatMap (·.1.globals)

def unitsImporting (p : Project) (path : String) : List Nat :=
  (p.units.zipIdx.filter (·.1.importsPath path)).map (·.2)

def importPath? (p : Project) (unit : Nat) (name : String) : Option String :=
  (p.unit? unit).bind (·.importPath? name)

def packageOfName? (p : Project) (unit : Nat) (name : String) : Option String :=
  (p.importPath? unit name).map Naming.packageOf

def isPackageName (p : Project) (unit : Nat) (name : String) : Bool :=
  (p.importPath? unit name).isSome

def setDoc (p : Project) (f : FuncRef) (lines : List String) : Project × Bool :=
  match p.unit? f.unit with
  | none => (p, false)
  | some file =>
    let (file, changed) := file.setDoc f.index lines
    (⟨p.units.set f.unit file⟩, changed)

def docLines (p : Project) (f : FuncRef) : List String :=
  ((p.function? f).map (·.docLines)).getD []

def annotate (p : Project) (f : FuncRef) (derived : EndpointDoc) : Project × Bool :=
  p.setDoc f (derived.update (p.docLines f))

def findMain (p : Project) : Except NotFound FuncRef :=
  match p.functionsNamed "main" "main" with
  | f :: _ => .ok f
  | [] => .error ⟨"function", "main", "main"⟩

def describe (p : Project) (options : OverviewOptions) : Except NotFound (Project × Bool) := do
  let main ← p.findMain
  return p.setDoc main (Overview.update options (p.docLines main))

def dirtyPaths (p : Project) : List String :=
  (p.units.filter (·.dirty)).map (·.path)

structure SaveError where
  path : String
  cause : DiskError
deriving DecidableEq

def SaveError.message (e : SaveError) : String :=
  "failed to write " ++ e.path ++ ": " ++ e.cause.message

/-- The outcome of saving files one after another: the files and the disk as they are then, and
how many were written, or what went wrong. -/
structure Saved where
  units : List SourceFile
  disk : Disk
  outcome : Except SaveError Nat

def saveFiles (write : String → String → Disk → Except DiskError Disk) :
    List SourceFile → Disk → Saved
  | [], disk => ⟨[], disk, .ok 0⟩
  | file :: more, disk =>
    match file.save write disk with
    | .ok (saved, disk) =>
      let rest := saveFiles write more disk
      ⟨saved :: rest.units, rest.disk, rest.outcome.map (· + file.dirty.toNat)⟩
    | .error cause => ⟨file :: more, disk, .error ⟨file.path, cause⟩⟩

def save (p : Project) (cwd : Disk.Place) (disk : Disk) : Project × Disk × Except SaveError Nat :=
  let saved := saveFiles (fun path text disk ↦ disk.writeText cwd path text) p.units disk
  (⟨saved.units⟩, saved.disk, saved.outcome)

end Project

end HandlerDocs
