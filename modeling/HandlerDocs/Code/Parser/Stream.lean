import HandlerDocs.Code.Expr
import HandlerDocs.Code.Token

namespace HandlerDocs.Code

abbrev Parse := StateT (List Token) Option

namespace Parse

def peek : Parse (Option Token) := do
  return (← get).head?

def isNext (kind : TokenKind) (text : String) (t : Token) : Bool :=
  t.kind = kind && t.text = text

def atSymbol (text : String) : Parse Bool := do
  return (← peek).any (isNext .symbol text)

def atKeyword (text : String) : Parse Bool := do
  return (← peek).any (isNext .keyword text)

def atStop : Parse Bool := do
  return (← peek).any (·.kind = .stop)

def advance : Parse Token := do
  match ← get with
  | [] => failure
  | t :: rest => do
    set rest
    return t

def accept (found : Token → Bool) : Parse Bool := do
  match ← get with
  | t :: rest => if found t then do set rest; return true else return false
  | [] => return false

def acceptSymbol (text : String) : Parse Bool :=
  accept (isNext .symbol text)

def acceptKeyword (text : String) : Parse Bool :=
  accept (isNext .keyword text)

def expect (found : Token → Bool) : Parse Token := do
  let t ← advance
  if found t then return t else failure

def symbol (text : String) : Parse Unit := do
  let _ ← expect (isNext .symbol text)

def keyword (text : String) : Parse Unit := do
  let _ ← expect (isNext .keyword text)

def name : Parse String := do
  return (← expect (·.kind = .name)).text

/-- A statement ends with a semicolon, which may be left out before a closing bracket. -/
def endStatement : Parse Unit := do
  if ← atStop then
    let _ ← advance
  else if (← atSymbol ")") || (← atSymbol "\x7d") then
    return ()
  else failure

def separated (separator : String) (item : Parse α) : Nat → Parse (List α)
  | 0 => failure
  | fuel + 1 => do
    let first ← item
    if ← acceptSymbol separator then
      return first :: (← separated separator item fuel)
    else return [first]

def commaList (item : Parse α) : Parse (List α) := do
  separated "," item (← get).length

/-- Items with commas between them and perhaps one at the end, up to a closing symbol. -/
def closedList (close : String) (item : Parse α) : Nat → Parse (List α)
  | 0 => failure
  | fuel + 1 => do
    if ← acceptSymbol close then return []
    let first ← item
    if ← acceptSymbol "," then
      return first :: (← closedList close item fuel)
    else do
      symbol close
      return [first]

def commaListTo (close : String) (item : Parse α) : Parse (List α) := do
  closedList close item ((← get).length + 1)

def statementsTo (close : String) (item : Parse α) : Nat → Parse (List α)
  | 0 => failure
  | fuel + 1 => do
    if ← acceptSymbol close then return []
    let first ← item
    endStatement
    return first :: (← statementsTo close item fuel)

def linesTo (close : String) (item : Parse α) : Parse (List α) := do
  statementsTo close item ((← get).length + 1)

def textBetween (start rest : List Token) : String :=
  match start.take (start.length - rest.length) with
  | [] => ""
  | t :: more => String.ofList (t.text.toList ++ more.flatMap Token.chars)

def textSince (start : List Token) : Parse String := do
  return textBetween start (← get)

def comment? : Parse (Option String) := do
  match ← peek with
  | none => return none
  | some t => return (t.lead.find? Trivia.isComment).map fun c ↦ String.ofList c.chars

end Parse

end HandlerDocs.Code
