import HandlerDocs.CommandLine.Run

namespace HandlerDocs.Main

partial def readLines (input : IO.FS.Stream) : IO (List String) := do
  let line ← input.getLine
  if line.isEmpty then return []
  return (Text.trim line) :: (← readLines input)

/-- Puts a file of the real disk, named relative to the current directory, into a model of it. -/
def loadFile (cwd : Disk.Place) (disk : Disk) (path : String) : IO Disk := do
  let bytes ← IO.FS.readBinFile path
  let stored := do
    let disk ← disk.makeDirs cwd ((PathName.parent? path).getD "")
    disk.write cwd path bytes
  match stored with
  | .ok disk => return disk
  | .error e => throw (IO.userError (path ++ ": " ++ e.message))

def storeFiles (before after : Disk) : IO Unit := do
  let old := before.filesUnder []
  for (path, bytes) in after.filesUnder [] do
    if (old.lookup path).map (·.toList) ≠ some bytes.toList then
      IO.FS.createDirAll ((PathName.parent? ("/" ++ path)).getD "/")
      IO.FS.writeBinFile ("/" ++ path) bytes

end HandlerDocs.Main

open HandlerDocs

/-- Runs a command on the files whose names stand on standard input, one a line. -/
def main (args : List String) : IO UInt32 := do
  match CommandLine.Invocation.ofArgs args with
  | .error usage =>
    (← IO.getStderr).putStrLn "usage: swaggen [-v] gen|init [OPTIONS] [PATH] < FILES"
    return usage.exit.toUInt32
  | .ok invocation =>
    let start := (← IO.getEnv "PWD").getD "/"
    let color := (← IO.getEnv "NO_COLOR").isNone
    let cwd := (Text.fields '/' start).filter (!·.isEmpty)
    let names ← Main.readLines (← IO.getStdin)
    let base ← match Disk.empty.makeDirs [] start with
      | .ok disk => pure disk
      | .error e => throw (IO.userError e.message)
    let disk ← (names.filter (!·.isEmpty)).foldlM (Main.loadFile cwd) base
    let out := CommandLine.run ⟨disk, cwd, color⟩ invocation.command
    Main.storeFiles disk out.disk
    (← IO.getStdout).putStr out.stdout
    (← IO.getStderr).putStr out.stderr
    return out.exit.toUInt32
