namespace HandlerDocs.Yaml

def isBreak (c : Char) : Bool :=
  c = '\n' || c = '\u2028' || c = '\u2029'

def isBlank (c : Char) : Bool :=
  c = ' ' || c = '\t'

def isNameChar (c : Char) : Bool :=
  c.isAlphanum || c = '_' || c = '-'

def isAllowed (c : Char) : Bool :=
  let n := c.toNat
  n = 0x09 || n = 0x0A || n = 0x0D || (0x20 ≤ n && n ≤ 0x7E) || n = 0x85 ||
  (0xA0 ≤ n && n ≤ 0xFFFD) || 0x10000 ≤ n

/-- Line ends of every spelling become line feeds; the two Unicode separators stay. -/
def unifyBreaks : List Char → List Char
  | [] => []
  | '\r' :: '\n' :: cs => '\n' :: unifyBreaks cs
  | c :: cs => (if c = '\r' || c = '\u0085' then '\n' else c) :: unifyBreaks cs

structure Cursor where
  rest : List Char
  index : Nat := 0
  line : Nat := 0
  column : Nat := 0

namespace Cursor

def peek? (c : Cursor) : Option Char :=
  c.rest.head?

def sees (c : Cursor) (ch : Char) : Bool :=
  c.rest.head? = some ch

def looksAt (c : Cursor) (n : Nat) (test : Char → Bool) : Bool :=
  (c.rest[n]?).any test

def gapAt (c : Cursor) (n : Nat) : Bool :=
  (c.rest[n]?).all fun ch ↦ isBlank ch || isBreak ch

def breakAt (c : Cursor) (n : Nat) : Bool :=
  (c.rest[n]?).all isBreak

def next (c : Cursor) : Cursor :=
  match c.rest with
  | [] => c
  | ch :: more =>
    if isBreak ch then ⟨more, c.index + 1, c.line + 1, 0⟩
    else ⟨more, c.index + 1, c.line, c.column + 1⟩

def move : Nat → Cursor → Cursor
  | 0, c => c
  | n + 1, c => move n c.next

def span (c : Cursor) (test : Char → Bool) : List Char × Cursor :=
  let taken := c.rest.takeWhile test
  (taken, c.move taken.length)

def marks (c : Cursor) (mark : Char) : Bool :=
  c.column = 0 && c.rest.take 3 = [mark, mark, mark] && c.gapAt 3

def atDocumentMark (c : Cursor) : Bool :=
  c.marks '-' || c.marks '.'

def fuel (c : Cursor) : Nat :=
  c.rest.length + 1

end Cursor

end HandlerDocs.Yaml
