import HandlerDocs.Text.Decimal
import HandlerDocs.Yaml.Cursor

namespace HandlerDocs.Yaml

/-- Blanks and line breaks between words of a scalar. Once a line is broken its blanks do not
count, and `first` is the first break unless that was escaped. -/
structure Gap where
  blanks : List Char := []
  broken : Bool := false
  first : Option Char := none
  more : List Char := []

namespace Gap

def addBreak (g : Gap) (c : Char) : Gap :=
  if g.broken then { g with more := g.more ++ [c] } else { g with broken := true, first := some c }

/-- What the gap stands for: one line feed is a blank, more of them are one less. -/
def text (g : Gap) : List Char :=
  if g.broken then
    match g.first with
    | some '\n' => if g.more.isEmpty then [' '] else g.more
    | some c => c :: g.more
    | none => g.more
  else g.blanks

def read (indent : Nat) : Nat → Gap → Cursor → Option (Gap × Cursor)
  | 0, g, c => some (g, c)
  | fuel + 1, g, c =>
    match c.peek? with
    | none => some (g, c)
    | some ch =>
      if isBlank ch then
        if !g.broken then read indent fuel { g with blanks := g.blanks ++ [ch] } c.next
        else if ch = '\t' && c.column < indent then none
        else read indent fuel g c.next
      else if isBreak ch then read indent fuel (g.addBreak ch) c.next
      else some (g, c)

end Gap

def isFlowMark (c : Char) : Bool :=
  c = ',' || c = '[' || c = ']' || c = '\x7b' || c = '\x7d'

/-- The characters of a plain scalar up to a gap or an indicator; inside brackets a colon must not
touch another indicator. -/
def plainRun (flow : Bool) : List Char → Option (List Char)
  | [] => some []
  | c :: cs =>
    if isBlank c || isBreak c then some []
    else if flow && c = ':' && cs.head?.any (fun d ↦ isFlowMark d || d = '?') then none
    else if c = ':' && cs.head?.all (fun d ↦ isBlank d || isBreak d) then some []
    else if flow && isFlowMark c then some []
    else (plainRun flow cs).map (c :: ·)

/-- A scalar that was read: its text, the place after it, and whether line breaks before that
place were consumed. -/
structure PlainScalar where
  text : List Char
  after : Cursor
  broken : Bool

/-- Reads a plain scalar after `text` and a gap. Its lines are indented by `indent` columns. -/
def readPlain (flow : Bool) (indent : Nat) :
    Nat → List Char → Gap → Cursor → Option PlainScalar
  | 0, _, _, _ => none
  | fuel + 1, text, g, c =>
    if c.atDocumentMark || c.sees '#' then some ⟨text, c, g.broken⟩
    else do
      let run ← plainRun flow c.rest
      let after := c.move run.length
      let (text, g) := if run.isEmpty then (text, g) else (text ++ g.text ++ run, {})
      if after.peek?.any fun ch ↦ isBlank ch || isBreak ch then
        let (g, next) ← Gap.read indent after.fuel g after
        if !flow && next.column < indent then return ⟨text, next, g.broken⟩
        else readPlain flow indent fuel text g next
      else return ⟨text, after, g.broken⟩

def hexDigit? (c : Char) : Option Nat :=
  if c.isDigit then some (c.toNat - '0'.toNat)
  else if 'a' ≤ c && c ≤ 'f' then some (c.toNat - 'a'.toNat + 10)
  else if 'A' ≤ c && c ≤ 'F' then some (c.toNat - 'A'.toNat + 10)
  else none

def hexValue? (digits : List Char) : Option Nat := do
  return (← digits.mapM hexDigit?).foldl (fun n d ↦ 16 * n + d) 0

def escape? : List Char → Option (Char × Nat)
  | [] => none
  | c :: cs =>
    let coded (n : Nat) : Option (Char × Nat) := do
      if cs.length < n then none
      let code ← hexValue? (cs.take n)
      if code < 0xD800 || (0xDFFF < code && code ≤ 0x10FFFF) then some (Char.ofNat code, n + 1)
      else none
    match c with
    | '0' => some ('\x00', 1)
    | 'a' => some ('\x07', 1)
    | 'b' => some ('\x08', 1)
    | 't' => some ('\t', 1)
    | '\t' => some ('\t', 1)
    | 'n' => some ('\n', 1)
    | 'v' => some ('\x0b', 1)
    | 'f' => some ('\x0c', 1)
    | 'r' => some ('\r', 1)
    | 'e' => some ('\x1b', 1)
    | ' ' => some (' ', 1)
    | '/' => some ('/', 1)
    | '\\' => some ('\\', 1)
    | 'N' => some ('\u0085', 1)
    | '_' => some ('\u00a0', 1)
    | 'L' => some ('\u2028', 1)
    | 'P' => some ('\u2029', 1)
    | 'x' => coded 2
    | 'u' => coded 4
    | 'U' => coded 8
    | _ => if c = '\x22' then some (c, 1) else none

def readQuoted (single : Bool) : Nat → List Char → Cursor → Option (List Char × Cursor)
  | 0, _, _ => none
  | fuel + 1, text, c =>
    let quote := if single then '\x27' else '\x22'
    if c.atDocumentMark then none
    else match c.peek? with
      | none => none
      | some ch =>
        if ch = quote then
          if single && c.looksAt 1 (· = quote) then
            readQuoted single fuel (text ++ [quote]) (c.move 2)
          else some (text, c.next)
        else if isBlank ch || isBreak ch then do
          let (g, next) ← Gap.read 0 c.fuel {} c
          readQuoted single fuel (text ++ g.text) next
        else if !single && ch = '\\' then
          if c.looksAt 1 isBreak then do
            let (g, next) ← Gap.read 0 c.fuel { broken := true } (c.move 2)
            readQuoted single fuel (text ++ g.text) next
          else do
            let (value, length) ← escape? c.next.rest
            readQuoted single fuel (text ++ [value]) (c.next.move length)
        else readQuoted single fuel (text ++ [ch]) c.next

inductive Chomping where
  | strip | clip | keep
deriving DecidableEq

/-- The header of a block scalar after its indicator: what becomes of the last line breaks, and
the indentation, where it is given. -/
def readHeader (c : Cursor) : Option (Chomping × Nat × Cursor) :=
  let chomping? (c : Cursor) : Option (Chomping × Cursor) :=
    if c.sees '+' then some (.keep, c.next)
    else if c.sees '-' then some (.strip, c.next)
    else none
  let digit? (c : Cursor) : Option (Nat × Cursor) :=
    (c.peek?.filter Char.isDigit).map fun d ↦ (Text.digitValue d, c.next)
  let (chomping, indent, c) :=
    match chomping? c with
    | some (chomping, c) =>
      match digit? c with
      | some (n, c) => (chomping, some n, c)
      | none => (chomping, none, c)
    | none =>
      match digit? c with
      | some (n, c) =>
        match chomping? c with
        | some (chomping, c) => (chomping, some n, c)
        | none => (.clip, some n, c)
      | none => (.clip, none, c)
  if indent = some 0 then none
  else
    let c := (c.span isBlank).2
    let c := if c.sees '#' then (c.span fun ch ↦ !isBreak ch).2 else c
    if c.breakAt 0 then some (chomping, indent.getD 0, c.next) else none

/-- Reads empty lines of a block scalar. With no known indentation (zero) it finds the deepest
column of a blank line start. -/
def readBreaks (indent : Nat) : Nat → Nat → List Char → Cursor → Option (List Char × Nat × Cursor)
  | 0, deepest, breaks, c => some (breaks, deepest, c)
  | fuel + 1, deepest, breaks, c =>
    let spaces := (c.rest.takeWhile (· = ' ')).length
    let c := c.move (if indent = 0 then spaces else min spaces (indent - c.column))
    let deepest := max deepest c.column
    if (indent = 0 || c.column < indent) && c.sees '\t' then none
    else match c.peek? with
      | some ch =>
        if isBreak ch then readBreaks indent fuel deepest (breaks ++ [ch]) c.next
        else some (breaks, deepest, c)
      | none => some (breaks, deepest, c)

/-- Lines of a block scalar: `ended` is the break of the line before, `breaks` are those of empty
lines after it, and `blank` tells whether that line started with a blank. -/
def readLines (literal : Bool) (indent : Nat) :
    Nat → (text ended breaks : List Char) → (blank : Bool) → Cursor →
    Option (List Char × List Char × List Char × Cursor)
  | 0, text, ended, breaks, _, c => some (text, ended, breaks, c)
  | fuel + 1, text, ended, breaks, blank, c =>
    if c.column ≠ indent || c.peek?.isNone then some (text, ended, breaks, c)
    else
      let starts := c.looksAt 0 isBlank
      let joined :=
        if !literal && ended = ['\n'] && !blank && !starts then
          if breaks.isEmpty then [' '] else []
        else ended
      let (line, c) := c.span fun ch ↦ !isBreak ch
      let ended := (c.peek?.map ([·])).getD []
      do
        let next := c.next
        let (more, _, next) ← readBreaks indent next.fuel 0 [] next
        readLines literal indent fuel (text ++ joined ++ breaks ++ line) ended more starts next

def readBlock (literal : Bool) (outer : Nat) (c : Cursor) : Option (List Char × Cursor) := do
  let (chomping, given, c) ← readHeader c
  let indent := if given = 0 then 0 else given + (outer - 1)
  let (breaks, deepest, c) ← readBreaks indent c.fuel 0 [] c
  let indent := if indent = 0 then max (max deepest outer) 1 else indent
  let (text, ended, breaks, c) ← readLines literal indent c.fuel [] [] breaks false c
  let text := if chomping = .strip then text else text ++ ended
  return (if chomping = .keep then text ++ breaks else text, c)

end HandlerDocs.Yaml
