import HandlerDocs.Code.Parser.File
import HandlerDocs.Declaration.Function
import HandlerDocs.Declaration.Struct
import HandlerDocs.Disk.Basic
import HandlerDocs.Shape

namespace HandlerDocs

inductive TypeDecl where
  | struct (decl : StructDecl)
  | interface
  | named (type : String)

/-- A loaded source file: its declarations, its text, and whether comment blocks are pending. -/
structure SourceFile where
  path : String
  package : String
  imports : List Code.ImportSpec
  globals : List (String × Shape)
  functions : List FuncDecl
  types : List (String × TypeDecl)
  source : String
  dirty : Bool

namespace SourceFile

open Code

def typeDecl (spec : TypeSpec) : TypeDecl :=
  match spec.type, spec.isAlias with
  | .struct fields, false => .struct ⟨spec.name, fields⟩
  | type, _ => if type.isInterface then .interface else .named type.render

def initialType (value : Expr) : String :=
  match value.peel with
  | .lit .string _ => "string"
  | .lit .int _ => "int"
  | .lit .float _ => "float64"
  | .lit .imaginary _ => "complex128"
  | .lit .rune _ => "rune"
  | .lit .bool _ => "bool"
  | .lit .nil _ => "object"
  | .composite (some type) _ => type.render
  | .call fn _ => fn.render
  | e => e.render

def globalType (spec : ValueSpec) (index : Nat) : String :=
  match spec.type, spec.values[index]? with
  | some type, _ => type.render
  | none, some value => initialType value
  | none, none => "object"

def globalsOf (spec : ValueSpec) : List (String × Shape) :=
  (spec.names.zipIdx.filter (·.1 ≠ "_")).map fun (name, i) ↦ (name, .named (globalType spec i))

def ofFile (path source : String) (file : File) : SourceFile where
  path := path
  package := file.package
  imports := file.imports
  globals := file.vars.flatMap globalsOf
  functions := file.functions.map FuncDecl.ofNode
  types := Assoc.ofList (file.types.map fun spec ↦ (spec.name, typeDecl spec))
  source := source
  dirty := false

def parse (path source : String) : Except ParseError SourceFile :=
  (File.parse source).map (ofFile path source)

inductive LoadError where
  | unreadable (path : String) (cause : DiskError)
  | notText (path : String) (fault : Text.Utf8Fault)
  | notParsed (path source : String) (cause : ParseError)
deriving DecidableEq

/-- What messages depend on besides the files: how a path is shown, and the line and the column
where a text goes wrong. -/
structure Wording where
  path : String → String
  fault : String → Option (Nat × Nat) := fun _ ↦ none

namespace Wording

def text : Wording := ⟨id, fun _ ↦ none⟩

/-- Path names that need not be text have a character for each of their bytes. -/
def bytes : Wording := { path := PathName.showBytes }

end Wording

namespace LoadError

def path : LoadError → String
  | .unreadable path _ => path
  | .notText path _ => path
  | .notParsed path _ _ => path

def message (e : LoadError) (wording : Wording := .text) : String :=
  match e with
  | .unreadable path cause => "failed to read " ++ wording.path path ++ ": " ++ cause.message
  | .notText path fault => wording.path path ++ ": not valid UTF-8: " ++ fault.message
  | .notParsed path source cause =>
    wording.path path ++ ": " ++ cause.message (wording.fault source)

end LoadError

def load (path source : String) : Except LoadError SourceFile :=
  (parse path source).mapError (.notParsed path source)

def code (file : SourceFile) : SourceFile :=
  { file with functions := file.functions.map FuncDecl.code, source := "", dirty := false }

def functionIndex? (file : SourceFile) (name : String) : Option Nat :=
  file.functions.findIdx? fun f ↦ f.receiver.isNone && f.name = name

def methodIndex? (file : SourceFile) (receiver name : String) : Option Nat :=
  file.functions.findIdx? fun f ↦ f.name = name && f.receiver.any (·.type = receiver)

def struct? (file : SourceFile) (name : String) : Option StructDecl :=
  match Assoc.get? name file.types with
  | some (.struct decl) => some decl
  | _ => none

def aliased? (file : SourceFile) (name : String) : Option String :=
  match Assoc.get? name file.types with
  | some (.named type) => some type
  | _ => none

def global? (file : SourceFile) (name : String) : Option Shape :=
  Assoc.get? name file.globals

def importOf? (file : SourceFile) (path : String) : Option ImportSpec :=
  file.imports.find? (·.path = path)

def importName? (file : SourceFile) (path : String) : Option String :=
  (file.importOf? path).bind (·.name)

def localName? (file : SourceFile) (path fallback : String) : Option String :=
  match file.importOf? path with
  | none => none
  | some ⟨none, _⟩ => some fallback
  | some ⟨some name, _⟩ => if name = "_" || name = "." then none else some name

def isImportOf (name : String) (spec : ImportSpec) : Bool :=
  match spec.name with
  | some a => a = name
  | none => Naming.packageOf spec.path = name

def importPath? (file : SourceFile) (name : String) : Option String :=
  (file.imports.find? (isImportOf name)).map (·.path)

def importsPath (file : SourceFile) (path : String) : Bool :=
  file.imports.any (·.path = path)

def setDoc (file : SourceFile) (index : Nat) (lines : List String) : SourceFile × Bool :=
  match file.functions[index]? with
  | none => (file, false)
  | some f =>
    let (f, changed) := f.setDoc lines
    if changed then ({ file with functions := file.functions.set index f, dirty := true }, true)
    else (file, false)

end SourceFile

end HandlerDocs
