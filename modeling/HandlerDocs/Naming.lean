import HandlerDocs.Text.Blank
import HandlerDocs.Text.CharClass
import HandlerDocs.Text.Cut

namespace HandlerDocs.Naming

open Text

def predeclared : List String :=
  ["bool", "string", "int", "int8", "int16", "int32", "int64", "uint", "uint8", "uint16",
   "uint32", "uint64", "uintptr", "byte", "rune", "float32", "float64", "complex64",
   "complex128", "error", "any"]

def isPredeclared (name : String) : Bool :=
  predeclared.contains name

/-- A bare type name is prefixed with its package; a dotted or predeclared one stays. -/
def qualify (name package : String) : String :=
  let head := upTo '[' name
  if package.isEmpty || hasChar '.' head || isPredeclared head then name
  else package ++ "." ++ name

def documentary : List String :=
  ["integer", "number", "boolean", "file", "object", "array"]

def isMarker (c : Char) : Bool :=
  c = '*' || c = '&' || c = '[' || c = ']'

def isNameChar (c : Char) : Bool :=
  isAlphanumeric c || c = '_' || c = '.'

/-- Qualifies the element name of a written type such as `*Book` or `[]Book`. Map and interface
types and texts that are no type at all stay as they are. -/
def qualifyText (text package : String) : String :=
  let rest := dropLeading isMarker text
  let head := (upTo '[' rest).toList
  if head.isEmpty || !head.all isNameChar || startsWith rest "map[" ||
      startsWith rest "interface\x7b" || documentary.contains rest then text
  else String.ofList (text.toList.takeWhile isMarker) ++ qualify rest package

def isSeparator (c : Char) : Bool :=
  c = '-' || c = '_' || c = ' ' || c = '\t'

def startsWord (prev next : Option Char) : Bool :=
  match prev with
  | none => false
  | some p => p.isLower || (p.isUpper && next.any Char.isLower)

/-- `out` holds what is written so far, last character first. -/
def snakeFrom (out : List Char) (prev : Option Char) : List Char → List Char
  | [] => out.reverse
  | c :: cs =>
    if isSeparator c then
      snakeFrom (if out.isEmpty || out.head? = some '_' then out else '_' :: out) (some c) cs
    else if c.isUpper then
      let gap := startsWord prev cs.head? && out.head? ≠ some '_'
      snakeFrom (c.toLower :: if gap then '_' :: out else out) (some c) cs
    else snakeFrom (c :: out) (some c) cs

/-- `UserID` becomes `user_id`. -/
def snake (name : String) : String :=
  String.ofList (snakeFrom [] none (trim name).toList)

def isVersion (digits : List Char) : Bool :=
  !digits.isEmpty && digits.all Char.isDigit

/-- The text before its last `.v`, when digits follow that. -/
def dropVersion (cs : List Char) : List Char :=
  match cs.reverse.dropWhile Char.isDigit with
  | 'v' :: '.' :: before => if cs.reverse.head?.any Char.isDigit then before.reverse else cs
  | _ => cs

/-- The package name that an import path suggests: its last part, without a version. -/
def packageOf (path : String) : String :=
  match (fields '/' path).reverse with
  | [] => path
  | last :: before =>
    let part := match last.toList with
      | 'v' :: digits => if isVersion digits then before.headD last else last
      | _ => last
    String.ofList (dropVersion part.toList)

end HandlerDocs.Naming
