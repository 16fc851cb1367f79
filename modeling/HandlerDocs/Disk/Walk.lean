import HandlerDocs.Disk.Basic

namespace HandlerDocs.Disk

inductive WalkError where
  | unreadable (path : String) (cause : DiskError)
  | loop (path ancestor : String)
deriving DecidableEq

def WalkError.message : WalkError → String
  | .unreadable path cause => "IO error for operation on " ++ path ++ ": " ++ cause.message
  | .loop path ancestor =>
    "File system loop found: " ++ path ++ " points to an ancestor " ++ ancestor

def names (disk : Disk) (place : Place) : List String :=
  let found := disk.entries.filterMap fun e ↦
    if e.1.dropLast = place then e.1.getLast? else none
  found.mergeSort fun a b ↦ decide (a ≤ b)

structure Step where
  path : String
  place : Place

/-- Where an entry leads: links are followed, but not to a directory that is being walked. -/
def followEntry (disk : Disk) (above : List Step) (path : String) (place : Place) :
    Except WalkError Place :=
  match disk.node? place with
  | some (.link _) =>
    match disk.resolve [] (pathOf place) with
    | .error cause => .error (.unreadable path cause)
    | .ok target =>
      match above.find? (·.place = target) with
      | some step => .error (.loop path step.path)
      | none => .ok target
  | _ => .ok place

/-- The files below the directories `above`, of which the first is being walked. Directories whose
name is not accepted are passed over. `fuel` bounds the depth. -/
def filesFrom (disk : Disk) (accepts : String → Bool) :
    Nat → List Step → Except WalkError (List String)
  | 0, _ => .ok []
  | _ + 1, [] => .ok []
  | fuel + 1, dir :: above => do
    let found ← (disk.names dir.place).mapM fun name ↦ do
      let path := PathName.join dir.path name
      let place ← disk.followEntry (dir :: above) path (dir.place ++ [name])
      match disk.node? place with
      | some (.file _) => return [path]
      | some .dir =>
        if accepts name then filesFrom disk accepts fuel (⟨path, place⟩ :: dir :: above)
        else return []
      | _ => return []
    return found.flatten

def walk (disk : Disk) (accepts : String → Bool) (place : Place) : Except WalkError (List String) :=
  disk.filesFrom accepts (2 * disk.entries.length + 2) [⟨pathOf place, place⟩]

end HandlerDocs.Disk
