import HandlerDocs.Text.CharClass

namespace HandlerDocs.Code

/-- What stands between tokens: blanks and comments. A line comment ends before its line feed. -/
inductive Trivia where
  | space (c : Char)
  | line (text : List Char)
  | block (text : List Char)
deriving DecidableEq

namespace Trivia

def chars : Trivia → List Char
  | .space c => [c]
  | .line text => text
  | .block text => text

def isComment : Trivia → Bool
  | .space _ => false
  | _ => true

def breaksLine (t : Trivia) : Bool :=
  t.chars.contains '\n'

end Trivia

inductive TokenKind where
  | name | keyword | int | float | imaginary | rune | string | symbol | stop
deriving DecidableEq

/-- A token with what precedes it. A `stop` is a semicolon: written, or with no text where a line
ends a statement. -/
structure Token where
  lead : List Trivia
  kind : TokenKind
  text : String
deriving DecidableEq

def Token.chars (t : Token) : List Char :=
  t.lead.flatMap Trivia.chars ++ t.text.toList

namespace Lexer

def keywords : List String :=
  ["break", "case", "chan", "const", "continue", "default", "defer", "else", "fallthrough", "for",
   "func", "go", "goto", "if", "import", "interface", "map", "package", "range", "return",
   "select", "struct", "switch", "type", "var"]

/-- Operators and punctuation; of two that match, the longer one comes first. -/
def symbols : List (List Char) :=
  ["<<=", ">>=", "&^=", "...", "&&", "||", "<-", "++", "--", "==", "!=", "<=", ">=", ":=", "+=",
   "-=", "*=", "/=", "%=", "&=", "|=", "^=", "<<", ">>", "&^", "+", "-", "*", "/", "%", "&", "|",
   "^", "<", ">", "=", "!", "(", ")", "[", "]", "\x7b", "\x7d", ",", ".", ":", "~"].map
    String.toList

def isSpace (c : Char) : Bool :=
  c = ' ' || (9 ≤ c.toNat && c.toNat ≤ 13) || c.toNat = 65279

def isNameStart (c : Char) : Bool :=
  Text.isAlphabetic c || c = '_'

def isNamePart (c : Char) : Bool :=
  isNameStart c || Text.isDecimal c

def blockComment : List Char → Option (List Char × List Char)
  | '*' :: '/' :: rest => some (['*', '/'], rest)
  | c :: rest => (blockComment rest).map fun r ↦ (c :: r.1, r.2)
  | [] => none

def trivia : Nat → List Char → Option (List Trivia × List Char)
  | 0, _ => none
  | n + 1, '/' :: '/' :: cs =>
    (trivia n (cs.dropWhile (· ≠ '\n'))).map fun r ↦
      (.line ('/' :: '/' :: cs.takeWhile (· ≠ '\n')) :: r.1, r.2)
  | n + 1, '/' :: '*' :: cs => do
    let (text, cs) ← blockComment cs
    let (more, rest) ← trivia n cs
    pure (.block ('/' :: '*' :: text) :: more, rest)
  | n + 1, c :: cs =>
    if isSpace c then (trivia n cs).map fun r ↦ (.space c :: r.1, r.2)
    else some ([], c :: cs)
  | _ + 1, [] => some ([], [])

def isHexDigit (c : Char) : Bool :=
  c.isDigit || ('a' ≤ c && c ≤ 'f') || ('A' ≤ c && c ≤ 'F')

def isOctalDigit (c : Char) : Bool :=
  '0' ≤ c && c ≤ '7'

def isBinaryDigit (c : Char) : Bool :=
  c = '0' || c = '1'

def codeLength (c : Char) : Nat :=
  if c = 'x' then 2 else if c = 'u' then 4 else if c = 'U' then 8 else 0

def hasCode (c : Char) (cs : List Char) : Bool :=
  let code := cs.take (codeLength c)
  code.length = codeLength c && code.all isHexDigit

def stringRest : List Char → Option (List Char × List Char)
  | '\x22' :: rest => some (['\x22'], rest)
  | '\\' :: c :: rest =>
    if c = '\n' || !hasCode c rest then none
    else (stringRest rest).map fun r ↦ ('\\' :: c :: r.1, r.2)
  | c :: rest => if c = '\n' then none else (stringRest rest).map fun r ↦ (c :: r.1, r.2)
  | [] => none

def rawRest : List Char → Option (List Char × List Char)
  | [] => none
  | c :: rest =>
    if c = '\x60' then some ([c], rest) else (rawRest rest).map fun r ↦ (c :: r.1, r.2)

def escapeLength? : List Char → Option Nat
  | [] => none
  | c :: cs =>
    if 0 < codeLength c then if hasCode c cs then some (1 + codeLength c) else none
    else if isOctalDigit c then
      if (cs.take 2).length = 2 && (cs.take 2).all isOctalDigit then some 3 else none
    else if ['a', 'b', 'f', 'n', 'r', 't', 'v', '\\', '\x27', '\x22'].contains c then some 1
    else none

def runeLength? : List Char → Option Nat
  | [] => none
  | '\\' :: cs => (escapeLength? cs).map (· + 1)
  | c :: _ => if c = '\x27' || c = '\n' then none else some 1

def runeRest (cs : List Char) : Option (List Char × List Char) := do
  let n ← runeLength? cs
  match cs.drop n with
  | '\x27' :: rest => return (cs.take n ++ ['\x27'], rest)
  | _ => none

/-- Digits, with at most one bar between two of them. -/
def digitRun (digit : Char → Bool) : List Char → List Char
  | [] => []
  | [c] => if digit c then [c] else []
  | c :: d :: cs =>
    if digit c then c :: digitRun digit (d :: cs)
    else if c = '_' && digit d then c :: digitRun digit (d :: cs)
    else []

def digits (digit : Char → Bool) (cs : List Char) : List Char :=
  if cs.head? = some '_' then [] else digitRun digit cs

def fraction (digit : Char → Bool) : List Char → List Char
  | '.' :: cs => '.' :: digits digit cs
  | _ => []

def exponent (mark : Char → Bool) : List Char → List Char
  | c :: d :: cs =>
    if mark c then
      let sign := if d = '+' || d = '-' then [d] else []
      match digits Char.isDigit ((d :: cs).drop sign.length) with
      | [] => []
      | power => c :: sign ++ power
    else []
  | _ => []

def isExponentMark (c : Char) : Bool := c = 'e' || c = 'E'

def isPowerMark (c : Char) : Bool := c = 'p' || c = 'P'

/-- A decimal number. Without fraction and exponent, and unless it is imaginary, a leading zero
makes it octal. -/
def decimalNumber (cs : List Char) : TokenKind × List Char :=
  let whole := digits Char.isDigit cs
  let part := fraction Char.isDigit (cs.drop whole.length)
  let power := exponent isExponentMark (cs.drop (whole.length + part.length))
  let text := whole ++ part ++ power
  if (cs.drop text.length).head? = some 'i' then (.imaginary, text ++ ['i'])
  else if !(part.isEmpty && power.isEmpty) then (.float, text)
  else if whole.head? = some '0' then (.int, digits isOctalDigit cs)
  else (.int, whole)

/-- A number after the mark of its base. A power makes it a fraction, and a fraction needs one. -/
def basedNumber (digit mark : Char → Bool) (cs : List Char) : TokenKind × List Char :=
  let whole := digitRun digit cs
  let part := fraction digit (cs.drop whole.length)
  let power := exponent mark (cs.drop (whole.length + part.length))
  if !power.isEmpty && (whole ++ part).any digit then (.float, whole ++ part ++ power)
  else (.int, whole)

def baseOf? (mark : Char) : Option ((Char → Bool) × (Char → Bool)) :=
  if mark = 'x' || mark = 'X' then some (isHexDigit, isPowerMark)
  else if mark = 'o' || mark = 'O' then some (isOctalDigit, fun _ ↦ false)
  else if mark = 'b' || mark = 'B' then some (isBinaryDigit, fun _ ↦ false)
  else none

def number (cs : List Char) : TokenKind × List Char :=
  match cs with
  | '0' :: x :: more =>
    match baseOf? x with
    | some (digit, mark) =>
      let (kind, text) := basedNumber digit mark more
      if text.isEmpty then (.int, ['0'])
      else if (more.drop text.length).head? = some 'i' then (.imaginary, '0' :: x :: text ++ ['i'])
      else (kind, '0' :: x :: text)
    | none => decimalNumber cs
  | _ => decimalNumber cs

def nameKind (text : String) : TokenKind :=
  if keywords.contains text then .keyword else .name

def token (cs : List Char) : Option (TokenKind × List Char × List Char) :=
  match cs with
  | [] => none
  | c :: rest =>
    if isNameStart c then
      let text := cs.takeWhile isNamePart
      some (nameKind (String.ofList text), text, cs.drop text.length)
    else if c.isDigit || (c = '.' && rest.head?.any Char.isDigit) then
      let (kind, text) := number cs
      some (kind, text, cs.drop text.length)
    else if c = '\x22' then (stringRest rest).map fun r ↦ (.string, c :: r.1, r.2)
    else if c = '\x60' then (rawRest rest).map fun r ↦ (.string, c :: r.1, r.2)
    else if c = '\x27' then (runeRest rest).map fun r ↦ (.rune, c :: r.1, r.2)
    else if c = ';' then some (.stop, [c], rest)
    else (symbols.find? (·.isPrefixOf cs)).map fun s ↦ (.symbol, s, cs.drop s.length)

def endsStatement (kind : TokenKind) (text : String) : Bool :=
  match kind with
  | .keyword => ["break", "continue", "fallthrough", "return"].contains text
  | .symbol => ["++", "--", ")", "]", "\x7d"].contains text
  | .stop => false
  | _ => true

/-- The tokens of a text and the trivia after the last one. `ends` tells whether a line end here
would end the statement. -/
def tokensFrom : Nat → Bool → List Char → Option (List Token × List Trivia)
  | 0, _, _ => none
  | n + 1, ends, cs => do
    let (lead, rest) ← trivia (n + 1) cs
    if ends && (rest.isEmpty || lead.any Trivia.breaksLine) then
      let (more, tail) ← tokensFrom n false cs
      pure (⟨[], .stop, ""⟩ :: more, tail)
    else if rest.isEmpty then pure ([], lead)
    else
      let (kind, text, rest) ← token rest
      let (more, tail) ← tokensFrom n (endsStatement kind (String.ofList text)) rest
      pure (⟨lead, kind, String.ofList text⟩ :: more, tail)

end Lexer

def tokens (source : List Char) : Option (List Token × List Trivia) :=
  Lexer.tokensFrom (2 * source.length + 2) false source

end HandlerDocs.Code
