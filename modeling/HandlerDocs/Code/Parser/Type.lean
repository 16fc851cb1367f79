import HandlerDocs.Code.Parser.Grammar
import HandlerDocs.Text.Blank

namespace HandlerDocs.Code.Grammar

open Parse

variable (g : Grammar)

def union : Parse (List TypeExpr) := do
  separated "|" (do let _ ← acceptSymbol "~"; g.type) (← get).length

def typeArguments : Parse Unit := do
  symbol "["
  let args ← commaListTo "]" g.union
  if args.isEmpty then failure

def typeName : Parse TypeExpr := do
  let start ← get
  let _ ← Parse.name
  if ← acceptSymbol "." then
    let _ ← Parse.name
  if ← atSymbol "[" then g.typeArguments
  return .name (Text.squeeze (← textSince start))

inductive Entry where
  | bare (name : String)
  | named (name : String) (type : TypeExpr)
  | typed (type : TypeExpr)

namespace Entry

def isNamed : Entry → Bool
  | .named _ _ => true
  | _ => false

def unnamed : Entry → Option Param
  | .bare name => some ⟨none, .name name⟩
  | .typed type => some ⟨none, type⟩
  | .named _ _ => none

/-- A bare name takes the type of the next named entry. -/
def grouped : List Entry → Option (List Param × Option TypeExpr)
  | [] => some ([], none)
  | .named name type :: more => do
    let (params, _) ← grouped more
    return (⟨some name, type⟩ :: params, some type)
  | .bare name :: more => do
    let (params, next) ← grouped more
    let type ← next
    return (⟨some name, type⟩ :: params, some type)
  | .typed _ :: _ => none

def params (entries : List Entry) : Option (List Param) :=
  if entries.any isNamed then (grouped entries).map (·.1) else entries.mapM unnamed

end Entry

def entry : Parse Entry := do
  if ← acceptSymbol "..." then return .typed (.slice (← g.type))
  match ← get with
  | first :: second :: _ =>
    if first.kind ≠ .name || isNext .symbol "." second then return .typed (← g.type)
    else if isNext .symbol "," second || isNext .symbol ")" second then
      return .bare (← Parse.name)
    else if isNext .symbol "[" second then
      (do return .named (← Parse.name) (← g.type)) <|> (do return .typed (← g.type))
    else do
      let name ← Parse.name
      if ← acceptSymbol "..." then return .named name (.slice (← g.type))
      return .named name (← g.type)
  | _ => failure

def parameters : Parse (List Param) := do
  symbol "("
  match Entry.params (← commaListTo ")" g.entry) with
  | some params => return params
  | none => failure

def typeStarts : List (TokenKind × String) :=
  [(.symbol, "*"), (.symbol, "["), (.symbol, "<-"), (.keyword, "map"), (.keyword, "chan"),
   (.keyword, "func"), (.keyword, "interface"), (.keyword, "struct")]

def startsType (t : Token) : Bool :=
  t.kind = .name || typeStarts.contains (t.kind, t.text)

def results : Parse (List Param) := do
  if ← atSymbol "(" then g.parameters
  else if (← peek).any startsType then return [⟨none, ← g.type⟩]
  else return []

def signature : Parse (List Param × List Param) := do
  let params ← g.parameters
  return (params, ← g.results)

def tag : Parse (Option String) := do
  match ← peek with
  | some t =>
    if t.kind = .string then do
      let _ ← advance
      return some (((Text.unwrap? "`" t.text).orElse fun _ ↦ Text.unwrap? "\"" t.text).getD t.text)
    else return none
  | none => return none

def embeddedField : Parse FieldSpec := do
  let _ ← acceptSymbol "*"
  let type ← g.typeName
  return ⟨[], type, ← tag⟩

def namedField : Parse FieldSpec := do
  let names ← commaList Parse.name
  let type ← g.type
  return ⟨names, type, ← tag⟩

def field : Parse FieldSpec := do
  match ← get with
  | first :: second :: _ =>
    if isNext .symbol "*" first || second.kind = .string || second.kind = .stop ||
        isNext .symbol "." second || isNext .symbol "\x7d" second then g.embeddedField
    else g.namedField <|> g.embeddedField
  | _ => failure

def method : Parse Unit := do
  let _ ← Parse.name
  let _ ← g.signature

def interfaceElement : Parse Unit :=
  (do g.method; if !((← atStop) || (← atSymbol "\x7d")) then failure) <|>
  (do let _ ← g.union)

def interfaceType : Parse TypeExpr := do
  let start ← get
  keyword "interface"
  symbol "\x7b"
  let elements ← linesTo "\x7d" g.interfaceElement
  let read := start.take (start.length - (← get).length)
  if elements.isEmpty && !(read.drop 1).any (·.lead.any Trivia.isComment) then
    return .interface "interface\x7b\x7d"
  else return .interface (Text.compact (← textSince start))

def structType : Parse TypeExpr := do
  keyword "struct"
  symbol "\x7b"
  return .struct (← linesTo "\x7d" g.field)

def bracketType : Parse TypeExpr := do
  symbol "["
  if ← acceptSymbol "]" then return .slice (← g.type)
  let start ← get
  if !(← acceptSymbol "...") then
    let _ ← g.value .inner
  let len ← textSince start
  symbol "]"
  return .array len (← g.type)

/-- A comment right after the opening mark stands for the type that follows it. -/
def inner : Parse TypeExpr := do
  let note ← comment?
  let type ← g.type
  return (note.map fun text ↦ .other (Text.compact text)).getD type

def nextType : Parse TypeExpr := do
  let start ← get
  match start with
  | [] => failure
  | t :: _ =>
    match t.kind, t.text with
    | .name, _ => g.typeName
    | .symbol, "*" => do
      let _ ← advance
      return .pointer (← g.inner)
    | .symbol, "(" => do
      let _ ← advance
      let type ← g.inner
      symbol ")"
      return type
    | .symbol, "[" => g.bracketType
    | .symbol, "<-" => do
      let _ ← advance
      keyword "chan"
      let _ ← g.type
      return .other (Text.compact (← textSince start))
    | .keyword, "chan" => do
      let _ ← advance
      let _ ← acceptSymbol "<-"
      let _ ← g.type
      return .other (Text.compact (← textSince start))
    | .keyword, "map" => do
      let _ ← advance
      symbol "["
      let key ← g.type
      symbol "]"
      return .map key (← g.type)
    | .keyword, "func" => do
      let _ ← advance
      let _ ← g.signature
      return .other (Text.compact (← textSince start))
    | .keyword, "interface" => g.interfaceType
    | .keyword, "struct" => g.structType
    | _, _ => failure

/-- The name list of a generic declaration; only its extent matters. -/
def typeParameters : Parse Unit := do
  symbol "["
  let params ← commaListTo "]" do
    let _ ← Parse.name
    if !((← atSymbol ",") || (← atSymbol "]")) then
      let _ ← g.union
  if params.isEmpty then failure

end HandlerDocs.Code.Grammar
