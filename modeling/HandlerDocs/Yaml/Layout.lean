import HandlerDocs.Yaml.Token

namespace HandlerDocs.Yaml

/-- A place where the key of a mapping may have started: the number of tokens before it, where it
stands, and whether a colon must follow. -/
structure KeyStart where
  number : Nat
  index : Nat
  line : Nat
  column : Nat
  required : Bool

def KeyStart.isStale (key : KeyStart) (c : Cursor) : Bool :=
  key.line < c.line || key.index + 1024 < c.index

/-- The tokens of a document so far. Columns of open blocks are counted from one, and zero is the
column outside all of them. `keys` holds a possible key for every open bracket, from the inside
out, and one for the block around them. -/
structure Layout where
  cursor : Cursor
  tokens : List Token := []
  indent : Nat := 0
  indents : List Nat := []
  keyAllowed : Bool := true
  keys : List (Option KeyStart) := [none]

namespace Layout

def inFlow (s : Layout) : Bool :=
  1 < s.keys.length

def push (s : Layout) (t : Token) : Layout :=
  { s with tokens := s.tokens ++ [t] }

def moveTo (s : Layout) (c : Cursor) : Layout :=
  { s with cursor := c }

def allowKey (s : Layout) (allowed : Bool) : Layout :=
  { s with keyAllowed := allowed }

def closeTo (column : Nat) : List Nat → Layout → Layout
  | [], s => if s.indent ≤ column then s else { s.push .blockEnd with indent := 0, indents := [] }
  | outer :: more, s =>
    if s.indent ≤ column then s
    else closeTo column more { s.push .blockEnd with indent := outer, indents := more }

def unroll (s : Layout) (column : Nat) : Layout :=
  if s.inFlow then s else closeTo column s.indents s

/-- Opens a block at a column, unless it is open already; its mark goes in at a place among the
tokens. -/
def roll (s : Layout) (column place : Nat) (t : Token) : Layout :=
  if s.inFlow || column + 1 ≤ s.indent then s
  else { s with
    tokens := s.tokens.insertIdx place t
    indent := column + 1
    indents := s.indent :: s.indents }

def dropKey (s : Layout) : Option Layout :=
  match s.keys with
  | some key :: more => if key.required then none else some { s with keys := none :: more }
  | _ => some s

def saveKey (s : Layout) : Option Layout :=
  if s.keyAllowed then do
    let c := s.cursor
    let required := !s.inFlow && s.indent = c.column + 1
    let s ← s.dropKey
    let key := ⟨s.tokens.length, c.index, c.line, c.column, required⟩
    return { s with keys := some key :: s.keys.tail }
  else some s

def dropStale (s : Layout) : Option Layout :=
  let stale (key : Option KeyStart) := key.any (·.isStale s.cursor)
  if s.keys.any fun key ↦ stale key && key.any (·.required) then none
  else some { s with keys := s.keys.map fun key ↦ if stale key then none else key }

/-- Goes over blanks, comments and line breaks to the next token. Tabs do not indent. -/
def skip : Nat → Layout → Layout
  | 0, s => s
  | fuel + 1, s =>
    let tabs := s.inFlow || !s.keyAllowed
    let c := (s.cursor.span fun ch ↦ ch = ' ' || tabs && ch = '\t').2
    let c := if c.sees '#' then (c.span fun ch ↦ !isBreak ch).2 else c
    if c.looksAt 0 isBreak then
      skip fuel { s with cursor := c.next, keyAllowed := s.keyAllowed || !s.inFlow }
    else { s with cursor := c }

def readDocumentMark (s : Layout) (t : Token) : Option Layout := do
  let s ← (s.unroll 0).dropKey
  return ((s.push t).allowKey false).moveTo (s.cursor.move 3)

def readDirectiveLine (s : Layout) : Option Layout := do
  let s ← (s.unroll 0).dropKey
  let (t, c) ← readDirective s.cursor.next
  return ((s.push t).allowKey false).moveTo c

def openFlow (s : Layout) (t : Token) : Option Layout := do
  let s ← s.saveKey
  return ({ s.push t with keys := none :: s.keys }.allowKey true).moveTo s.cursor.next

def closeFlow (s : Layout) (t : Token) : Option Layout := do
  let s ← s.dropKey
  let keys := if s.inFlow then s.keys.tail else s.keys
  return ({ s.push t with keys := keys }.allowKey false).moveTo s.cursor.next

def readFlowEntry (s : Layout) : Option Layout := do
  let s ← s.dropKey
  return ((s.push .flowEntry).allowKey true).moveTo s.cursor.next

def readEntry (s : Layout) : Option Layout := do
  if !s.inFlow && !s.keyAllowed then none
  let s ← (s.roll s.cursor.column s.tokens.length .blockSequence).dropKey
  return ((s.push .entry).allowKey true).moveTo s.cursor.next

def readKey (s : Layout) : Option Layout := do
  if !s.inFlow && !s.keyAllowed then none
  let s ← (s.roll s.cursor.column s.tokens.length .blockMapping).dropKey
  return ((s.push .key).allowKey !s.inFlow).moveTo s.cursor.next

/-- A colon: what stands before it on the line was a key, if a key could start there. -/
def readValue (s : Layout) : Option Layout :=
  match s.keys with
  | some key :: more =>
    let s := { s with tokens := s.tokens.insertIdx key.number .key, keys := none :: more }
    let s := s.roll key.column key.number .blockMapping
    some (((s.push .value).allowKey false).moveTo s.cursor.next)
  | _ =>
    if !s.inFlow && !s.keyAllowed then none
    else
      let s := s.roll s.cursor.column s.tokens.length .blockMapping
      some (((s.push .value).allowKey !s.inFlow).moveTo s.cursor.next)

def readNamed (s : Layout) (token : String → Token) : Option Layout := do
  let s ← s.saveKey
  let (name, c) ← readName s.cursor.next
  return ((s.push (token name)).allowKey false).moveTo c

def readTagged (s : Layout) : Option Layout := do
  let s ← s.saveKey
  let (t, c) ← readTag s.inFlow s.cursor
  return ((s.push t).allowKey false).moveTo c

def readBlockScalar (s : Layout) (literal : Bool) : Option Layout := do
  let s ← s.dropKey
  let (text, c) ← readBlock literal s.indent s.cursor.next
  let style := if literal then Style.literal else .quoted
  return ((s.push (.scalar style (String.ofList text))).allowKey true).moveTo c

def readQuotedScalar (s : Layout) (single : Bool) : Option Layout := do
  let s ← s.saveKey
  let c := s.cursor.next
  let (text, c) ← readQuoted single c.fuel [] c
  return ((s.push (.scalar .quoted (String.ofList text))).allowKey false).moveTo c

def readPlainScalar (s : Layout) : Option Layout := do
  let s ← s.saveKey
  let scalar ← readPlain s.inFlow s.indent s.cursor.fuel [] {} s.cursor
  let s := s.push (.scalar .plain (String.ofList scalar.text))
  return (s.allowKey scalar.broken).moveTo scalar.after

def startsPlain (s : Layout) (ch : Char) : Bool :=
  let c := s.cursor
  if ch = '-' then !c.looksAt 1 isBlank
  else if ch = '?' || ch = ':' then !s.inFlow && !c.gapAt 1
  else !",[]\x7b\x7d#&*!|>'\"%@`".toList.contains ch

def readToken (s : Layout) (ch : Char) : Option Layout :=
  let c := s.cursor
  let flow := s.inFlow
  if c.column = 0 && ch = '%' then s.readDirectiveLine
  else if c.marks '-' then s.readDocumentMark .documentStart
  else if c.marks '.' then s.readDocumentMark .documentEnd
  else if ch = '[' then s.openFlow .flowSequence
  else if ch = '\x7b' then s.openFlow .flowMapping
  else if ch = ']' then s.closeFlow .flowSequenceEnd
  else if ch = '\x7d' then s.closeFlow .flowMappingEnd
  else if ch = ',' then s.readFlowEntry
  else if ch = '-' && c.gapAt 1 then s.readEntry
  else if ch = '?' && (flow || c.gapAt 1) then s.readKey
  else if ch = ':' && (flow || c.gapAt 1) then s.readValue
  else if ch = '*' then s.readNamed .reference
  else if ch = '&' then s.readNamed .anchor
  else if ch = '!' then s.readTagged
  else if ch = '|' && !flow then s.readBlockScalar true
  else if ch = '>' && !flow then s.readBlockScalar false
  else if ch = '\x27' then s.readQuotedScalar true
  else if ch = '\x22' then s.readQuotedScalar false
  else if s.startsPlain ch && !isBlank ch then s.readPlainScalar
  else none

def readAll : Nat → Layout → Option (List Token)
  | 0, _ => none
  | fuel + 1, s => do
    let s ← (s.skip s.cursor.fuel).dropStale
    match s.cursor.peek? with
    | none => do
      let s ← (s.unroll 0).dropKey
      return s.tokens
    | some ch => do
      let s := s.unroll (s.cursor.column + 1)
      readAll fuel (← s.readToken ch)

end Layout

def tokens? (text : String) : Option (List Token) :=
  let cs := text.toList
  if cs.all isAllowed then
    let cs := unifyBreaks (if cs.head? = some '\ufeff' then cs.tail else cs)
    Layout.readAll (cs.length + 1) ⟨⟨cs, 0, 0, 0⟩, [], 0, [], true, [none]⟩
  else none

end HandlerDocs.Yaml
