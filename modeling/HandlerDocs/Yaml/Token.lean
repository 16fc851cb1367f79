import HandlerDocs.Text.Utf8
import HandlerDocs.Yaml.Scalar

namespace HandlerDocs.Yaml

inductive Style where
  | plain | quoted | literal
deriving DecidableEq

inductive Token where
  | version (major minor : Nat)
  | handle (handle start : String)
  | documentStart
  | documentEnd
  | blockSequence
  | blockMapping
  | blockEnd
  | flowSequence
  | flowSequenceEnd
  | flowMapping
  | flowMappingEnd
  | entry
  | flowEntry
  | key
  | value
  | reference (name : String)
  | anchor (name : String)
  | tag (handle suffix : String)
  | scalar (style : Style) (text : String)
deriving DecidableEq

def readName (c : Cursor) : Option (String × Cursor) :=
  let (name, c) := c.span isNameChar
  let ends := c.gapAt 0 || c.looksAt 0 fun ch ↦ "?:,]\x7d%@`".toList.contains ch
  if name.isEmpty || !ends then none else some (String.ofList name, c)

def isUriChar (verbatim : Bool) (c : Char) : Bool :=
  isNameChar c || ";/?:@&=+$.!~*'()".toList.contains c ||
  verbatim && (c = ',' || c = '[' || c = ']')

/-- The text of a tag; bytes may be written as a percent sign with two digits. -/
def readUriBytes (verbatim : Bool) : Nat → List UInt8 → Cursor → Option (List UInt8 × Cursor)
  | 0, bytes, c => some (bytes, c)
  | fuel + 1, bytes, c =>
    match c.rest with
    | '%' :: a :: b :: _ => do
      let code ← hexValue? [a, b]
      readUriBytes verbatim fuel (bytes ++ [code.toUInt8]) (c.move 3)
    | ch :: _ =>
      if isUriChar verbatim ch then
        readUriBytes verbatim fuel (bytes ++ ch.toString.toUTF8.toList) c.next
      else if ch = '%' then none
      else some (bytes, c)
    | [] => some (bytes, c)

def readUri (verbatim : Bool) (c : Cursor) : Option (String × Cursor) := do
  let (bytes, c) ← readUriBytes verbatim c.fuel [] c
  let text ← String.fromUTF8? ⟨bytes.toArray⟩
  return (text, c)

/-- A tag from its exclamation mark on: a handle and what it is the start of. -/
def readTag (flow : Bool) (c : Cursor) : Option (Token × Cursor) := do
  let (token, c) ←
    if c.looksAt 1 (· = '<') then do
      let (suffix, c) ← readUri true (c.move 2)
      if suffix.isEmpty || !c.sees '>' then none
      else some (Token.tag "" suffix, c.next)
    else do
      let (name, after) := c.next.span isNameChar
      if after.sees '!' then
        let (suffix, after) ← readUri false after.next
        if suffix.isEmpty then none
        else some (Token.tag ("!" ++ String.ofList name ++ "!") suffix, after)
      else
        let (suffix, after) ← readUri false c.next
        if suffix.isEmpty then some (Token.tag "" "!", after)
        else some (Token.tag "!" suffix, after)
  if c.gapAt 0 || (flow && c.sees ',') then return (token, c) else none

def readNumber (c : Cursor) : Option (Nat × Cursor) :=
  let (digits, c) := c.span Char.isDigit
  if digits.isEmpty || 9 < digits.length then none else some (Text.decimalOf digits, c)

def endDirective (c : Cursor) : Option Cursor :=
  let c := (c.span isBlank).2
  let c := if c.sees '#' then (c.span fun ch ↦ !isBreak ch).2 else c
  if c.breakAt 0 then some c.next else none

def readDirective (c : Cursor) : Option (Token × Cursor) := do
  let (name, c) := c.span isNameChar
  if !c.gapAt 0 then none
  let c := (c.span isBlank).2
  match String.ofList name with
  | "YAML" =>
    let (major, c) ← readNumber c
    if !c.sees '.' then none
    let (minor, c) ← readNumber c.next
    return (.version major minor, ← endDirective c)
  | "TAG" =>
    if !c.sees '!' then none
    let (name, after) := c.next.span isNameChar
    let closed := after.sees '!'
    if !closed && !name.isEmpty then none
    let handle := "!" ++ String.ofList name ++ (if closed then "!" else "")
    let c := if closed then after.next else after
    if !c.looksAt 0 isBlank then none
    let (start, c) ← readUri true (c.span isBlank).2
    if start.isEmpty || !c.gapAt 0 then none
    return (.handle handle start, ← endDirective c)
  | _ => none

end HandlerDocs.Yaml
