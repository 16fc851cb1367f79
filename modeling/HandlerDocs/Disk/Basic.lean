import HandlerDocs.PathName
import HandlerDocs.Text.Utf8

namespace HandlerDocs

inductive DiskError where
  | notFound
  | fileExists
  | notDirectory
  | isDirectory
  | tooManyLinks
deriving DecidableEq

def DiskError.message : DiskError → String
  | .notFound => "No such file or directory (os error 2)"
  | .fileExists => "File exists (os error 17)"
  | .notDirectory => "Not a directory (os error 20)"
  | .isDirectory => "Is a directory (os error 21)"
  | .tooManyLinks => "Too many levels of symbolic links (os error 40)"

inductive Disk.Node where
  | file (bytes : ByteArray)
  | dir
  | link (target : String)

def Disk.Node.linkLength : Disk.Node → Nat
  | .link target => (PathName.parts target).length
  | _ => 0

/-- What is stored, by absolute place: the names on the way from the root. The root is a
directory and has no entry. -/
structure Disk where
  entries : List (List String × Disk.Node) := []

namespace Disk

abbrev Place := List String

def empty : Disk := {}

def node? (disk : Disk) (place : Place) : Option Node :=
  if place.isEmpty then some .dir else disk.entries.lookup place

def putEntry (place : Place) (node : Node) : List (Place × Node) → List (Place × Node)
  | [] => [(place, node)]
  | e :: more => if e.1 = place then (place, node) :: more else e :: putEntry place node more

def put (disk : Disk) (place : Place) (node : Node) : Disk :=
  ⟨putEntry place node disk.entries⟩

def maxLinks : Nat := 40

def start (cwd : Place) (path : String) : Place :=
  if PathName.isAbsolute path then [] else cwd

/-- Goes from a directory along path parts, following links. `steps` bounds the parts walked and
`links` the links followed. -/
def walkFrom (disk : Disk) : Nat → Nat → Place → List PathPart → Except DiskError Place
  | 0, _, _, _ => .error .tooManyLinks
  | _ + 1, _, here, [] => .ok here
  | steps + 1, links, here, part :: more =>
    match part with
    | .root => walkFrom disk steps links [] more
    | .current => walkFrom disk steps links here more
    | .parent => walkFrom disk steps links here.dropLast more
    | .named name =>
      match disk.node? (here ++ [name]), links with
      | none, _ => .error .notFound
      | some .dir, _ => walkFrom disk steps links (here ++ [name]) more
      | some (.file _), _ => if more.isEmpty then .ok (here ++ [name]) else .error .notDirectory
      | some (.link _), 0 => .error .tooManyLinks
      | some (.link target), links + 1 =>
        walkFrom disk steps links here (PathName.parts target ++ more)

def stepBound (disk : Disk) (path : String) : Nat :=
  let longest := disk.entries.foldl (fun n e ↦ max n e.2.linkLength) 0
  (PathName.parts path).length + (maxLinks + 1) * (longest + 1) + 1

def asksForDir (path : String) : Bool :=
  Text.endsWith path "/" || Text.endsWith path "/."

/-- The place that a path names, which must exist; a file may not be named like a
directory. -/
def resolve (disk : Disk) (cwd : Place) (path : String) : Except DiskError Place := do
  if path.isEmpty then throw .notFound
  let place ← disk.walkFrom (disk.stepBound path) maxLinks cwd (PathName.parts path)
  match disk.node? place with
  | some (.file _) => if asksForDir path then throw .notDirectory else return place
  | _ => return place

def pathOf (place : Place) : String :=
  "/" ++ "/".intercalate place

def isDir (disk : Disk) (cwd : Place) (path : String) : Bool :=
  match disk.resolve cwd path with
  | .ok place => match disk.node? place with
    | some .dir => true
    | _ => false
  | .error _ => false

def isFile (disk : Disk) (cwd : Place) (path : String) : Bool :=
  match disk.resolve cwd path with
  | .ok place => match disk.node? place with
    | some (.file _) => true
    | _ => false
  | .error _ => false

def exists? (disk : Disk) (cwd : Place) (path : String) : Bool :=
  (disk.resolve cwd path).isOk

def read (disk : Disk) (cwd : Place) (path : String) : Except DiskError ByteArray := do
  match disk.node? (← disk.resolve cwd path) with
  | some (.file bytes) => return bytes
  | some .dir => throw .isDirectory
  | _ => throw .notFound

/-- The place where a path would put a new file: its directory must exist. -/
def newPlace (disk : Disk) (cwd : Place) : Nat → String → Except DiskError Place
  | 0, _ => .error .tooManyLinks
  | links + 1, path =>
    match (PathName.parts path).reverse with
    | .named name :: before => do
      let dir ← disk.walkFrom (disk.stepBound path) maxLinks cwd before.reverse
      match disk.node? dir with
      | some .dir =>
        match disk.node? (dir ++ [name]) with
        | some (.link target) => newPlace disk dir links target
        | _ => if asksForDir path then throw .isDirectory else return dir ++ [name]
      | _ => throw .notDirectory
    | _ => .error .isDirectory

def destination (disk : Disk) (cwd : Place) (path : String) : Except DiskError Place :=
  match disk.resolve cwd path with
  | .error .notFound => if path.isEmpty then .error .notFound else disk.newPlace cwd maxLinks path
  | found => found

def write (disk : Disk) (cwd : Place) (path : String) (bytes : ByteArray) :
    Except DiskError Disk := do
  let place ← disk.destination cwd path
  match disk.node? place with
  | some .dir => throw .isDirectory
  | some (.link _) => throw .tooManyLinks
  | _ => return disk.put place (.file bytes)

def writeText (disk : Disk) (cwd : Place) (path text : String) : Except DiskError Disk :=
  disk.write cwd path text.toUTF8

/-- Makes one directory; its parent must exist, and nothing may stand in its place. -/
def makeDir (disk : Disk) (cwd : Place) (path : String) : Except DiskError Disk :=
  match disk.resolve cwd path with
  | .ok _ => .error .fileExists
  | .error .notFound => do
    match (PathName.parts path).reverse with
    | .named name :: before =>
      let dir ← disk.walkFrom (disk.stepBound path) maxLinks cwd before.reverse
      match disk.node? dir, disk.node? (dir ++ [name]) with
      | some .dir, none => return disk.put (dir ++ [name]) .dir
      | some .dir, some _ => throw .fileExists
      | _, _ => throw .notDirectory
    | _ => throw .notFound
  | .error e => .error e

/-- Makes a directory and those above it that are missing. `fuel` bounds their number. -/
def makeDirsFrom (disk : Disk) (cwd : Place) : Nat → String → Except DiskError Disk
  | 0, _ => .error .notFound
  | fuel + 1, path =>
    if path.isEmpty then .ok disk
    else match disk.makeDir cwd path, PathName.parent? path with
      | .ok disk, _ => .ok disk
      | .error .notFound, some parent =>
        match makeDirsFrom disk cwd fuel parent with
        | .error e => .error e
        | .ok disk =>
          match disk.makeDir cwd path with
          | .ok disk => .ok disk
          | .error e => if disk.isDir cwd path then .ok disk else .error e
      | .error e, _ => if disk.isDir cwd path then .ok disk else .error e

def makeDirs (disk : Disk) (cwd : Place) (path : String) : Except DiskError Disk :=
  disk.makeDirsFrom cwd ((PathName.parts path).length + 1) path

def filesUnder (disk : Disk) (place : Place) : List (String × ByteArray) :=
  let found := disk.entries.filterMap fun (here, node) ↦
    match node with
    | .file bytes =>
      if place.isPrefixOf here then some ("/".intercalate (here.drop place.length), bytes) else none
    | _ => none
  found.mergeSort fun a b ↦ decide (a.1 ≤ b.1)

end Disk

end HandlerDocs
