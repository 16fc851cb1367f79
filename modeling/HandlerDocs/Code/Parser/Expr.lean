import HandlerDocs.Code.Parser.Type

namespace HandlerDocs.Code.Grammar

open Parse

variable (g : Grammar)

def literal? (t : Token) : Option Expr :=
  match t.kind with
  | .int => some (.lit .int t.text)
  | .float => some (.lit .float t.text)
  | .imaginary => some (.lit .imaginary t.text)
  | .rune => some (.lit .rune t.text)
  | .string => some (.lit .string t.text)
  | .name =>
    if t.text = "true" || t.text = "false" then some (.lit .bool t.text)
    else if t.text = "nil" then some (.lit .nil t.text)
    else if t.text = "iota" then some (.lit .int t.text)
    else none
  | _ => none

def elementValue : Parse Expr := do
  if ← atSymbol "\x7b" then return .composite none (← g.literal)
  else g.value .inner

def element : Parse Element := do
  let first ← g.elementValue
  if ← acceptSymbol ":" then return ⟨some first, ← g.elementValue⟩
  else return ⟨none, first⟩

def nextLiteral : Parse (List Element) := do
  symbol "\x7b"
  commaListTo "\x7d" g.element

/-- An argument, and whether it is one plain value: neither a type nor spread by `...`. -/
def argument : Parse (Expr × Bool) := do
  match ← g.expr .inner with
  | .type t => return (.type t, false)
  | r =>
    let some e := r.value? | failure
    return (e, !(← acceptSymbol "..."))

/-- A call. What can only be a type is converted to, and so is a name with type arguments when it
is given one plain value; otherwise the type arguments are left out. -/
def apply (callee : Reading) (args : List (Expr × Bool)) : Option Expr :=
  let values := args.map (·.1)
  match callee, args with
  | .type t, [(e, true)] => some (.call (.type t) [e])
  | .type _, _ => none
  | .generic _ _ t, [(e, true)] => some (.call (.type t) [e])
  | .generic _ base _, _ => some (.call base values)
  | .indexed _ base, _ => some (.call base values)
  | .value e, _ => some (.call e values)
  | .name e _, _ => some (.call e values)

/-- The first argument of `new` and `make` is a type; a bare name is kept as a name. -/
def typeArgument : Parse Expr := do
  let start ← get
  let type ← g.type
  match start.head?.map (·.text), type with
  | some "(", _ => return .other (Text.compact (← textSince start))
  | some first, .name text => return if first = text then .ident text else .type type
  | _, _ => return .type type

def typedArguments : Parse (List Expr) := do
  symbol "("
  if ← acceptSymbol ")" then return []
  let first ← g.typeArgument
  if ← acceptSymbol "," then return first :: (← commaListTo ")" (g.value .inner))
  symbol ")"
  return [first]

def isAllocator (name : String) : Bool :=
  name = "new" || name = "make"

def nameOperand (name : String) : Parse Reading := do
  if isAllocator name && (← atSymbol "(") then
    return .value (.call (.ident name) (← g.typedArguments))
  else return .name (.ident name) (.name name)

def functionOperand : Parse Reading := do
  let start ← get
  keyword "func"
  let (params, _) ← g.signature
  if ← atSymbol "\x7b" then return .value (.funcLit params (← g.block))
  else return .type (.other (Text.compact (← textSince start)))

def parenthesized : Parse Reading := do
  symbol "("
  let note ← comment?
  let r ← g.expr .inner
  symbol ")"
  match note, r with
  | some text, .type _ => return .type (.other (Text.compact text))
  | some text, _ => return .value (.other (Text.compact text))
  | none, r => return r.parenthesized

def operand : Parse Reading := do
  match ← peek with
  | none => failure
  | some t =>
    match literal? t with
    | some e => do
      let _ ← advance
      return .value e
    | none =>
      match t.kind, t.text with
      | .name, name => do
        let _ ← advance
        g.nameOperand name
      | .symbol, "(" => g.parenthesized
      | .keyword, "func" => g.functionOperand
      | _, _ => return .type (← g.type)

def opensLiteral (place : Place) : Reading → Option TypeExpr
  | .name _ t | .generic _ _ t => if place.literal then some t else none
  | .type t =>
    match t with
    | .slice _ | .array _ _ | .map _ _ | .struct _ => some t
    | _ => none
  | .value _ | .indexed _ _ => none

def bounds : Parse Unit := do
  if !((← atSymbol ":") || (← atSymbol "]")) then
    let _ ← g.value .inner
  if ← acceptSymbol ":" then
    let _ ← g.value .inner

def index : Parse (List Reading) := do
  symbol "["
  if ← acceptSymbol ":" then
    g.bounds
    symbol "]"
    return []
  let first ← g.expr .inner
  if ← acceptSymbol ":" then
    g.bounds
    symbol "]"
    return []
  if ← acceptSymbol "," then return first :: (← commaListTo "]" (g.expr .inner))
  symbol "]"
  return [first]

def indexing (base : Reading) (text : String) (items : List Reading) : Option Reading := do
  let e ← base.value?
  let whole := Expr.other (Text.compact text)
  if items.isEmpty then return .value whole
  else if items.all (·.type?.isSome) then
    match base with
    | .name _ _ => return .generic whole e (.name (Text.squeeze text))
    | _ => return .indexed whole e
  else if items.length = 1 then return .value whole
  else none

def selection (base : Reading) (text field : String) : Option Reading := do
  let e ← base.value?
  match base with
  | .name (.ident _) _ => return .name (.selector e field) (.name (Text.squeeze text))
  | _ => return .value (.selector e field)

def afterDot (place : Place) (start : List Token) (base : Reading) : Parse Reading := do
  if ← acceptSymbol "(" then
    let some e := base.value? | failure
    if place.guard && (← acceptKeyword "type") then
      symbol ")"
      return .value (.assertion e none)
    let type ← g.type
    symbol ")"
    return .value (.assertion e (some type))
  else do
    let field ← Parse.name
    let some r := selection base (← textSince start) field | failure
    return r

def suffixes (place : Place) (start : List Token) : Nat → Reading → Parse Reading
  | 0, _ => failure
  | fuel + 1, r => do
    if ← acceptSymbol "." then
      suffixes place start fuel (← g.afterDot place start r)
    else if (← atSymbol "[") && r.value?.isSome then
      let items ← g.index
      let some r := indexing r (← textSince start) items | failure
      suffixes place start fuel r
    else if ← acceptSymbol "(" then
      let some e := apply r (← commaListTo ")" g.argument) | failure
      suffixes place start fuel (.value e)
    else
      match opensLiteral place r, ← atSymbol "\x7b" with
      | some t, true => suffixes place start fuel (.value (.composite (some t) (← g.literal)))
      | _, _ => return r

def primary (place : Place) : Parse Reading := do
  let start ← get
  g.suffixes place start (start.length + 1) (← g.operand)

def unaryOp? : String → Option UnaryOp
  | "+" => some .plus
  | "-" => some .minus
  | "!" => some .not
  | "^" => some .complement
  | "&" => some .address
  | "*" => some .deref
  | "<-" => some .receive
  | _ => none

def isChannelType : List Token → Bool
  | arrow :: chan :: _ => isNext .symbol "<-" arrow && isNext .keyword "chan" chan
  | _ => false

def unary (place : Place) : Nat → Parse Reading
  | 0 => failure
  | fuel + 1 => do
    let start ← get
    match (start.head?.filter (·.kind = .symbol)).bind fun t ↦ unaryOp? t.text with
    | none => g.primary place
    | some op =>
      if isChannelType start then g.primary place
      else do
        let _ ← advance
        let r ← unary place fuel
        match op, r.value? with
        | .deref, _ => return r.pointer
        | _, some e => return .value (.unary op e)
        | _, none => failure

def binaryOps : List String :=
  ["||", "&&", "==", "!=", "<", "<=", ">", ">=", "+", "-", "|", "^", "*", "/", "%", "<<", ">>",
   "&", "&^"]

def isBinary (t : Token) : Bool :=
  t.kind = .symbol && binaryOps.contains t.text

def operands (place : Place) : Nat → Parse Nat
  | 0 => failure
  | fuel + 1 => do
    if ← accept isBinary then
      let r ← g.unary place (← get).length
      if r.value?.isNone then failure
      return (← operands place fuel) + 1
    else return 0

def nextExpr (place : Place) : Parse Reading := do
  let start ← get
  let first ← g.unary place start.length
  if (← peek).any isBinary && first.value?.isSome then
    let _ ← g.operands place start.length
    return .value (.other (Text.compact (← textSince start)))
  else return first

end HandlerDocs.Code.Grammar
