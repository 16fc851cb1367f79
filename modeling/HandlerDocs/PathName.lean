import HandlerDocs.Text.Cut
import HandlerDocs.Text.Utf8

namespace HandlerDocs

/-- A part of a path name. Repeated slashes and inner dots make no part of their own. -/
inductive PathPart where
  | root
  | current
  | parent
  | named (name : String)
deriving DecidableEq

namespace PathPart

def rank : PathPart → Nat
  | .root => 0
  | .current => 1
  | .parent => 2
  | .named _ => 3

def le : PathPart → PathPart → Bool
  | .named a, .named b => decide (a ≤ b)
  | a, b => a.rank ≤ b.rank

def text : PathPart → String
  | .root => ""
  | .current => "."
  | .parent => ".."
  | .named name => name

def ofText : String → PathPart
  | ".." => .parent
  | name => .named name

end PathPart

namespace PathName

def isAbsolute (path : String) : Bool :=
  Text.startsWith path "/"

def parts (path : String) : List PathPart :=
  let names := Text.fields '/' path
  let inner := (names.filter fun n ↦ !n.isEmpty && n ≠ ".").map PathPart.ofText
  if isAbsolute path then .root :: inner
  else if names.head? = some "." then .current :: inner
  else inner

def partsLe : List PathPart → List PathPart → Bool
  | [], _ => true
  | _ :: _, [] => false
  | a :: as, b :: bs => if a = b then partsLe as bs else a.le b

def le (a b : String) : Bool :=
  partsLe (parts a) (parts b)

def sort (paths : List String) : List String :=
  paths.mergeSort le

def ofParts : List PathPart → String
  | .root :: more => "/" ++ "/".intercalate (more.map PathPart.text)
  | parts => "/".intercalate (parts.map PathPart.text)

def join (dir name : String) : String :=
  if isAbsolute name then name
  else if dir.isEmpty || Text.endsWith dir "/" then dir ++ name
  else dir ++ "/" ++ name

/-- The path without its last part; the root and the empty path have none to drop. -/
def parent? (path : String) : Option String :=
  match (parts path).reverse with
  | [] => none
  | .root :: _ => none
  | _ :: before => some (ofParts before.reverse)

def fileName? (path : String) : Option String :=
  match (parts path).getLast? with
  | some (.named name) => some name
  | _ => none

/-- What follows the last dot of a file name that does not only begin with it. -/
def extensionOf? (name : String) : Option String :=
  let cs := name.toList.reverse
  match cs.dropWhile (· ≠ '.') with
  | _ :: _ :: _ => some (String.ofList (cs.takeWhile (· ≠ '.')).reverse)
  | _ => none

/-- The name that has a character for each byte. Its parts and its order are those of the bytes. -/
def ofBytes (bytes : List UInt8) : String :=
  String.ofList (bytes.map fun b ↦ Char.ofNat b.toNat)

def showBytes (path : String) : String :=
  Text.lossy (path.toList.map fun c ↦ c.toNat.toUInt8)

end PathName

end HandlerDocs
