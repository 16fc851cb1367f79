import HandlerDocs.Code.Parser.Stmt

namespace HandlerDocs.Code

open Parse

structure Pos where
  byte : Nat
  row : Nat
  column : Nat
deriving DecidableEq

namespace Pos

def start : Pos := ⟨0, 0, 0⟩

def step (p : Pos) (c : Char) : Pos :=
  if c = '\n' then ⟨p.byte + 1, p.row + 1, 0⟩
  else ⟨p.byte + c.utf8Size, p.row, p.column + c.utf8Size⟩

def after (p : Pos) (cs : List Char) : Pos :=
  cs.foldl step p

end Pos

def Span.between (a b : Pos) : Span :=
  ⟨a.byte, b.byte, a.row + 1, a.column + 1, b.row + 1⟩

namespace DocComment

def absent : DocComment := ⟨none, []⟩

/-- From trivia read backwards from a line feed: the line comments that each fill a line of their
own, from the first column on, without a gap. Nearest line first. -/
def run : List Trivia → List (List Char)
  | .space '\n' :: .line text :: .space '\n' :: more => text :: run (.space '\n' :: more)
  | _ => []

def sameLine : Trivia → Bool
  | .space c => c ≠ '\n'
  | _ => false

def block (lead : List Trivia) : List (List Char) :=
  (run (lead.reverse.dropWhile sameLine)).reverse

def ofLead (lead : List Trivia) (origin : Pos) : DocComment :=
  match block lead with
  | [] => absent
  | lines =>
    let text := List.intercalate ['\n'] lines
    let gap := lead.reverse.takeWhile sameLine
    let rest := (lead.flatMap Trivia.chars).length - (text.length + 1 + gap.length)
    let first := origin.after ((lead.flatMap Trivia.chars).take rest)
    ⟨some (.between first (first.after text)),
      lines.map fun line ↦ String.ofList (Text.dropWhileEnd Text.isBlank line)⟩

end DocComment

namespace Grammar

variable (g : Grammar)

def importSpec : Parse ImportSpec := do
  let name ← (do
    let t ← expect fun t ↦ t.kind = .name || isNext .symbol "." t
    return some t.text) <|> pure none
  let path ← expect (·.kind = .string)
  return ⟨name, ((Text.unwrap? "`" path.text).orElse fun _ ↦
    Text.unwrap? "\"" path.text).getD path.text⟩

structure Signature where
  name : String
  receiver : Option Param
  params : List Param
  results : List Param
  body : Option Block

def function : Parse Signature := do
  keyword "func"
  let receiver ← if ← atSymbol "(" then g.parameters else pure []
  let name ← Parse.name
  if ← atSymbol "[" then g.typeParameters
  let (params, results) ← g.signature
  let body ← if ← atSymbol "\x7b" then some <$> g.block else pure none
  return ⟨name, receiver.head?, params, results, body⟩

inductive Decl where
  | imports (specs : List ImportSpec)
  | vars (specs : List ValueSpec)
  | types (specs : List TypeSpec)
  | function (signature : Signature)

def declAt (first : Token) : Parse Decl :=
  match first.kind, first.text with
  | .keyword, "import" => do
    let _ ← advance
    return .imports (← group importSpec)
  | .keyword, "var" => do
    let _ ← advance
    return .vars (← group g.varSpec)
  | .keyword, "const" => do
    let _ ← advance
    return .vars (← group g.constSpec)
  | .keyword, "type" => do
    let _ ← advance
    return .types (← group g.typeSpec)
  | .keyword, "func" => return .function (← g.function)
  | _, _ => failure

def decl : Parse Decl := do
  let some t ← peek | failure
  g.declAt t

def declOf? (piece : List Token) : Option (Option Decl) :=
  if piece.map (·.kind) = [.stop] then some none
  else do
    let (decl, rest) ← g.decl piece
    if rest.map (·.kind) = [.stop] then return some decl else none

end Grammar

def depthAfter (depth : Nat) (t : Token) : Nat :=
  if t.kind ≠ .symbol then depth
  else if ["(", "[", "\x7b"].contains t.text then depth + 1
  else if [")", "]", "\x7d"].contains t.text then depth - 1
  else depth

/-- The tokens cut after each semicolon that stands in no brackets. -/
def pieces : Nat → List Token → List (List Token)
  | _, [] => []
  | depth, t :: rest =>
    if t.kind = .stop && depth = 0 then [t] :: pieces 0 rest
    else match pieces (depthAfter depth t) rest with
      | [] => [[t]]
      | piece :: more => (t :: piece) :: more

structure Placed where
  decl : Grammar.Decl
  origin : Pos
  used : List Token

namespace Placed

def imports (p : Placed) : List ImportSpec :=
  match p.decl with
  | .imports specs => specs
  | _ => []

def vars (p : Placed) : List ValueSpec :=
  match p.decl with
  | .vars specs => specs
  | _ => []

def types (p : Placed) : List TypeSpec :=
  match p.decl with
  | .types specs => specs
  | _ => []

def lead (p : Placed) : List Trivia :=
  (p.used.head?.map (·.lead)).getD []

def span (p : Placed) : Span :=
  .between (p.origin.after (p.lead.flatMap Trivia.chars))
    (p.origin.after (p.used.flatMap Token.chars))

def function? (p : Placed) : Option FuncNode :=
  match p.decl with
  | .function f =>
    some ⟨f.name, f.receiver, f.params, f.results, f.body, p.span, .ofLead p.lead p.origin⟩
  | _ => none

end Placed

namespace File

def decls (g : Grammar) : Pos → List (List Token) → Option (List Placed)
  | _, [] => some []
  | origin, piece :: more => do
    let decl? ← g.declOf? piece
    let rest ← decls g (origin.after (piece.flatMap Token.chars)) more
    return (decl?.map (⟨·, origin, piece.dropLast⟩)).toList ++ rest

/-- Of several imports of a path the first counts. -/
def addImport (imports : List ImportSpec) (spec : ImportSpec) : List ImportSpec :=
  if spec.path.isEmpty || imports.any (·.path = spec.path) then imports else imports ++ [spec]

def ofDecls (package : String) (decls : List Placed) : File where
  package := package
  imports := (decls.flatMap Placed.imports).foldl addImport []
  vars := decls.flatMap Placed.vars
  types := decls.flatMap Placed.types
  functions := decls.filterMap Placed.function?

def ofTokens : List Token → Option File
  | word :: name :: stop :: rest =>
    if isNext .keyword "package" word && name.kind = .name && stop.kind = .stop then
      let origin := Pos.start.after (word.chars ++ name.chars ++ stop.chars)
      (decls (.upTo (4 * rest.length + 8)) origin (pieces 0 rest)).map (ofDecls name.text)
    else none
  | _ => none

/-- Reads a source file. A text without any token lacks its package clause. -/
def parse (source : String) : Except ParseError File :=
  match tokens source.toList with
  | none => .error .invalid
  | some ([], _) => .error .missingPackage
  | some (ts, _) =>
    match ofTokens ts with
    | some file => .ok file
    | none => .error .invalid

end File

end HandlerDocs.Code
