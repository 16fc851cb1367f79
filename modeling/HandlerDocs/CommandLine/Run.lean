import HandlerDocs.CommandLine.Command
import HandlerDocs.CommandLine.Template
import HandlerDocs.Config.Reader
import HandlerDocs.Disk.Walk
import HandlerDocs.Report.Writer

namespace HandlerDocs.CommandLine

structure Output where
  exit : Nat
  stdout : String := ""
  stderr : String := ""
  disk : Disk

def success : Nat := 0

def someFailed : Nat := 1

def error : Nat := 2

structure Setting where
  disk : Disk
  cwd : Disk.Place
  color : Bool

def Setting.fail (s : Setting) (message : String) : Output :=
  ⟨error, "", message ++ "\n", s.disk⟩

def configNames : List String :=
  ["swaggen.yaml", ".swaggen.yaml"]

/-- Looks for a configuration file in a directory, then in the current one. -/
def discoverConfig? (s : Setting) (root : String) : Option String :=
  let candidates := [root, "."].flatMap fun dir ↦ configNames.map (PathName.join dir)
  candidates.find? (s.disk.isFile s.cwd)

def readConfig? (s : Setting) (path : String) : Option Config :=
  match s.disk.read s.cwd path with
  | .error _ => none
  | .ok bytes => (String.fromUTF8? bytes).bind Config.parse?

def isSkippedDir (name : String) : Bool :=
  Text.startsWith name "." || name = "vendor" || name = "node_modules" || name = "testdata"

def isWanted (config : Config) (root path : String) : Bool :=
  let name := (PathName.fileName? path).getD ""
  let below := ((Text.dropStart? root path).map (Text.dropLeading (· = '/'))).getD path
  PathName.extensionOf? name = some "go" &&
  (config.includesTestFiles || !Text.endsWith name "_test.go") &&
  !config.isExcluded below

def collectFiles (s : Setting) (config : Config) (place : Disk.Place) :
    Except Disk.WalkError (List String) := do
  let files ← s.disk.walk (fun name ↦ !isSkippedDir name) place
  return PathName.sort (files.filter (isWanted config (Disk.pathOf place)))

def report (s : Setting) (args : GenArgs) (config : Option String) (r : Generation.Report) :
    String :=
  let subject : Report.Subject := ⟨args.path, config, args.print⟩
  if args.format = "json" then Report.json subject r else Report.pretty s.color subject r

def generate (s : Setting) (args : GenArgs) (configPath : Option String) (config : Config)
    (files : List String) : Output :=
  let (disk, outcome) := Generation.run (.ofConfig config (!args.print)) s.disk s.cwd files
  match outcome with
  | .error e => { s with disk := disk : Setting }.fail ("Error: " ++ Generation.failure e)
  | .ok r =>
    ⟨if r.failed.isEmpty then success else someFailed, report s args configPath r, "", disk⟩

def genAt (s : Setting) (args : GenArgs) (place : Disk.Place) (configPath : Option String)
    (config : Config) : Output :=
  let files := if s.disk.isDir [] (Disk.pathOf place) then collectFiles s config place
    else .ok [Disk.pathOf place]
  match files with
  | .error e => s.fail ("Error: " ++ e.message)
  | .ok [] => ⟨success, "", "Warning: no Go files found\n", s.disk⟩
  | .ok files => generate s args configPath config files

def runGen (s : Setting) (args : GenArgs) : Output :=
  if args.format ≠ "pretty" && args.format ≠ "json" then
    s.fail ("Error: invalid format " ++ Text.quote args.format ++ ", must be 'pretty' or 'json'")
  else match s.disk.resolve s.cwd args.path with
    | .error e =>
      s.fail ("Error: cannot access path " ++ Text.quote args.path ++ ": " ++ e.message)
    | .ok place =>
      let root := if s.disk.isDir [] (Disk.pathOf place) then place else place.dropLast
      let configPath := args.config.orElse fun _ ↦ discoverConfig? s (Disk.pathOf root)
      let found := match configPath with
        | none => some ({} : Config)
        | some path => readConfig? s path
      match found with
      | none => s.fail ("Error parsing config " ++ configPath.getD "")
      | some config =>
        let config := args.overlay config
        match config.fault? with
        | some fault => s.fail ("Error: invalid config: " ++ fault.message)
        | none => genAt s args place configPath config

def makeParents (s : Setting) (path : String) : Except DiskError Disk :=
  match PathName.parent? path with
  | none => .ok s.disk
  | some parent =>
    if parent.isEmpty || parent = "." then .ok s.disk else s.disk.makeDirs s.cwd parent

def createdText (output : String) : String :=
  "Created " ++ output ++ "\n\nNext steps:\n  1. Edit " ++ output ++
  " to customize for your project\n  2. Run: swaggen gen . --print\n"

def runInit (s : Setting) (output : String) : Output :=
  if s.disk.exists? s.cwd output then
    s.fail ("Error: file already exists: " ++ output ++
      "\nRemove it or use --output to specify a different path")
  else match makeParents s output with
    | .error e => s.fail ("Error: failed to create directory: " ++ e.message)
    | .ok disk =>
      match disk.writeText s.cwd output configTemplate with
      | .error e =>
        { s with disk := disk : Setting }.fail ("Error: failed to write config: " ++ e.message)
      | .ok disk => ⟨success, createdText output, "", disk⟩

def run (s : Setting) : Command → Output
  | .gen args => runGen s args
  | .init output => runInit s output

end HandlerDocs.CommandLine
