import HandlerDocs.Code.File
import HandlerDocs.Code.Parser.Expr

namespace HandlerDocs.Code.Grammar

open Parse

variable (g : Grammar)

def updates : List String :=
  ["+=", "-=", "*=", "/=", "%=", "&=", "|=", "^=", "<<=", ">>=", "&^="]

def simple (place : Place) : Parse Stmt := do
  let start ← get
  let targets ← g.values place
  match ← peek with
  | none => failure
  | some t =>
    let other : Parse Stmt := do return .other (Text.compact (← textSince start))
    if isNext .symbol ":=" t then do
      let _ ← advance
      return .assign targets (← g.values place) true
    else if isNext .symbol "=" t then do
      let _ ← advance
      return .assign targets (← g.values place) false
    else if t.kind = .symbol && updates.contains t.text then do
      let _ ← advance
      let _ ← g.values place
      other
    else if isNext .symbol "++" t || isNext .symbol "--" t then do
      let _ ← advance
      other
    else if isNext .symbol "<-" t then do
      let _ ← advance
      let _ ← g.value place
      other
    else match targets with
      | [e] => return .eval e
      | _ => failure

def varSpec : Parse ValueSpec := do
  let names ← commaList Parse.name
  if ← acceptSymbol "=" then return ⟨names, none, ← g.values .inner⟩
  let type ← g.type
  if ← acceptSymbol "=" then return ⟨names, some type, ← g.values .inner⟩
  return ⟨names, some type, []⟩

/-- The names of a constant list; the commas between them count as names of their own. -/
def constNames (names : List String) : List String :=
  names.intersperse ","

def constSpec : Parse ValueSpec := do
  let names ← commaList Parse.name
  if ← acceptSymbol "=" then return ⟨constNames names, none, ← g.values .inner⟩
  if (← atStop) || (← atSymbol ")") then return ⟨constNames names, none, []⟩
  let type ← g.type
  symbol "="
  return ⟨constNames names, some type, ← g.values .inner⟩

def group (item : Parse α) : Parse (List α) := do
  if ← acceptSymbol "(" then linesTo ")" item else return [← item]

/-- After a name, a bracket opens an array or slice type unless only type parameters fit. -/
def typeSpec : Parse TypeSpec := do
  let name ← Parse.name
  if ← acceptSymbol "=" then return ⟨name, ← g.type, true⟩
  (do
    let type ← g.type
    if (← atStop) || (← atSymbol ")") || (← atSymbol "\x7d") then return ⟨name, type, false⟩
    else failure) <|>
  (do
    g.typeParameters
    let isAlias ← acceptSymbol "="
    return ⟨name, ← g.type, isAlias⟩)

def returned : Parse Stmt := do
  keyword "return"
  if (← atStop) || (← atSymbol "\x7d") then return .result []
  let note ← comment?
  let values ← g.values .inner
  match note with
  | some text => return .result [.other (Text.compact text)]
  | none => return .result values

def deferredCall : Parse Stmt := do
  let _ ← advance
  let note ← comment?
  let e ← g.value .inner
  return .deferred ((note.map fun text ↦ .other (Text.compact text)).getD e)

def jump (label : Parse Unit) : Parse Stmt := do
  let start ← get
  let _ ← advance
  label
  return .other (Text.compact (← textSince start))

def goal : Parse Unit := do
  let _ ← Parse.name

def maybeGoal : Parse Unit := do
  let _ ← accept (·.kind = .name)

def condition : Parse (Option Stmt) := do
  if ← accept (·.kind = .stop) then
    let _ ← g.value .header
    return none
  let first ← g.simple .header
  if ← accept (·.kind = .stop) then
    let _ ← g.value .header
    return some first
  match first with
  | .eval _ => return none
  | _ => failure

def ifStmt : Parse Stmt := do
  keyword "if"
  let init ← g.condition
  let body ← g.block
  if ← acceptKeyword "else" then
    if ← atSymbol "\x7b" then return .branch init body (some (.block (← g.block)))
    else if ← atKeyword "if" then return .branch init body (← g.stmt)
    else failure
  return .branch init body none

def rangeClause : Parse Unit := do
  if !(← atKeyword "range") then
    let _ ← g.values .header
    if !((← acceptSymbol ":=") || (← acceptSymbol "=")) then failure
  keyword "range"
  let _ ← g.value .header

def stopMark : Parse Unit := do
  let _ ← expect (·.kind = .stop)

def forClause : Parse Unit := do
  if !(← atStop) then
    let _ ← g.simple .header
  if !(← atSymbol "\x7b") then
    stopMark
    if !(← atStop) then
      let _ ← g.value .header
    stopMark
    if !(← atSymbol "\x7b") then
      let _ ← g.simple .header

def forStmt : Parse Stmt := do
  keyword "for"
  if !(← atSymbol "\x7b") then
    g.rangeClause <|> g.forClause
  return .scoped none [← g.block]

def switchHeader : Parse (Option Stmt) := do
  if ← atSymbol "\x7b" then return none
  if ← accept (·.kind = .stop) then
    if !(← atSymbol "\x7b") then
      let _ ← g.simple .switchHeader
    return none
  let first ← g.simple .switchHeader
  if ← accept (·.kind = .stop) then
    if !(← atSymbol "\x7b") then
      let _ ← g.simple .switchHeader
    return some first
  return none

def statements : Nat → Parse Block
  | 0 => failure
  | fuel + 1 => do
    if (← atSymbol "\x7d") || (← atKeyword "case") || (← atKeyword "default") then return []
    if ← accept (·.kind = .stop) then statements fuel
    else do
      let s ← g.stmt
      if !((← atStop) || (← atSymbol "\x7d")) then failure
      return s.toList ++ (← statements fuel)

def clauseBody : Parse Block := do
  symbol ":"
  g.statements ((← get).length + 1)

/-- The clauses of a `switch` or `select`; `label` reads what follows `case` and may yield a
statement of the body. -/
def clauses (label : Parse (Option Stmt)) : Nat → Parse (List Block)
  | 0 => failure
  | fuel + 1 => do
    if ← acceptSymbol "\x7d" then return []
    else if ← acceptKeyword "default" then
      let body ← g.clauseBody
      return body :: (← clauses label fuel)
    else do
      keyword "case"
      let first ← label
      let body ← g.clauseBody
      return (first.toList ++ body) :: (← clauses label fuel)

def caseList : Parse (Option Stmt) := do
  let _ ← commaList (g.expr .inner)
  return none

def communication : Parse (Option Stmt) := do
  let start ← get
  let _ ← g.simple .inner
  return some (.other (Text.compact (← textSince start)))

def switchStmt : Parse Stmt := do
  keyword "switch"
  let init ← g.switchHeader
  symbol "\x7b"
  return .scoped init (← g.clauses g.caseList ((← get).length + 1))

def selectStmt : Parse Stmt := do
  keyword "select"
  symbol "\x7b"
  return .scoped none (← g.clauses g.communication ((← get).length + 1))

def localTypes : Parse Stmt := do
  let start ← get
  keyword "type"
  let _ ← group g.typeSpec
  return .other (Text.compact (← textSince start))

def isLabel : List Token → Bool
  | label :: colon :: _ => label.kind = .name && isNext .symbol ":" colon
  | _ => false

/-- A label stands for the statement after it, if there is one. -/
def labeled : Parse (Option Stmt) := do
  let _ ← advance
  let _ ← advance
  if (← atStop) || (← atSymbol "\x7d") || (← atKeyword "case") || (← atKeyword "default") then
    return none
  else g.stmt

def nextStmt : Parse (Option Stmt) := do
  match ← get with
  | [] => failure
  | t :: rest =>
    match t.kind, t.text with
    | .keyword, "var" => do
      let _ ← advance
      return some (.declare (← group g.varSpec))
    | .keyword, "const" => do
      let _ ← advance
      return some (.declare (← group g.constSpec))
    | .keyword, "type" => return some (← g.localTypes)
    | .keyword, "return" => return some (← g.returned)
    | .keyword, "if" => return some (← g.ifStmt)
    | .keyword, "for" => return some (← g.forStmt)
    | .keyword, "switch" => return some (← g.switchStmt)
    | .keyword, "select" => return some (← g.selectStmt)
    | .keyword, "go" => return some (← g.deferredCall)
    | .keyword, "defer" => return some (← g.deferredCall)
    | .keyword, "goto" => return some (← jump goal)
    | .keyword, "break" => return some (← jump maybeGoal)
    | .keyword, "continue" => return some (← jump maybeGoal)
    | .keyword, "fallthrough" => return some (← jump (pure ()))
    | .symbol, "\x7b" => return some (.block (← g.block))
    | _, _ => if isLabel (t :: rest) then g.labeled else return some (← g.simple .inner)

def nextBlock : Parse Block := do
  symbol "\x7b"
  let body ← g.statements ((← get).length + 1)
  symbol "\x7d"
  return body

def next : Grammar :=
  ⟨g.nextType, g.nextExpr, g.nextLiteral, g.nextBlock, g.nextStmt⟩

def upTo : Nat → Grammar
  | 0 => empty
  | depth + 1 => (upTo depth).next

end HandlerDocs.Code.Grammar
