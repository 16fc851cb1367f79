import HandlerDocs.EndpointDoc.Basic
import HandlerDocs.Text.CharClass
import HandlerDocs.Text.Decimal

namespace HandlerDocs.EndpointDoc

open Text

def isInk (c : Char) : Bool :=
  !isBlank c

def run? (p : Char → Bool) (cs : List Char) : Option (List Char × List Char) :=
  match cs.takeWhile p with
  | [] => none
  | text => some (text, cs.dropWhile p)

def column? (p : Char → Bool) (cs : List Char) : Option (String × List Char) := do
  let (text, rest) ← run? p cs
  let (_, rest) ← run? isBlank rest
  return (String.ofList text, rest)

def quoted? : List Char → Option String
  | '\x22' :: cs => do
    let (text, rest) ← run? (· ≠ '\x22') cs
    if rest.isEmpty then none else return String.ofList text
  | _ => none

def paramAt? (cs : List Char) : Option (String × String × String × String × String) := do
  let (name, cs) ← column? isInk cs
  let (kind, cs) ← column? isWord cs
  let (type, cs) ← column? isInk cs
  let (required, cs) ← column? isWord cs
  return (name, kind, type, required, ← quoted? cs)

def findParam? : List Char → Option (String × String × String × String × String)
  | [] => none
  | c :: cs => (paramAt? (c :: cs)).orElse fun _ ↦ findParam? cs

def readParam? (text : String) : Option ParamDoc := do
  let (name, kind, type, required, description) ← findParam? text.toList
  return ⟨name, ← ParamKind.ofText? kind, type, lower required = "true", description⟩

def braced? : List Char → Option (String × List Char)
  | '\x7b' :: cs => do
    let (word, rest) ← run? isWord cs
    match rest with
    | '\x7d' :: rest => return ("\x7b" ++ String.ofList word ++ "\x7d", rest)
    | _ => none
  | _ => none

/-- A response line: a status below 65536, a schema in braces and a type on the same line. -/
def readResponse? (text : String) : Option ResponseDoc := do
  let (status, cs) ← column? isDecimal text.toList
  let (schema, cs) ← braced? cs
  let (_, cs) ← run? isBlank cs
  if cs.isEmpty || cs.contains '\n' then none
  else return ⟨← decimalBelow? 65536 status, schema, trim (String.ofList cs)⟩

def readRouter? (text : String) : Option RouterDoc := do
  let (path, cs) ← column? isInk text.toList
  match cs with
  | '[' :: cs => do
    let (method, rest) ← run? isWord cs
    match rest with
    | ']' :: _ => return ⟨path, lower (String.ofList method)⟩
    | _ => none
  | _ => none

def readMedia (list : String) : List String :=
  ((fields ',' list).map trim).filter fun item ↦ !item.isEmpty

def bare (raw : String) : String :=
  trim (dropLeading (· = '/') (trim raw))

def keyword (line : String) : String :=
  String.ofList (line.toList.takeWhile isInk)

def remainder (line : String) : String :=
  trim (dropLeading isInk line)

def addExtra (line : String) (doc : EndpointDoc) : EndpointDoc :=
  { doc with extra := doc.extra ++ [line] }

/-- Reads one line that is not blank. Of summary, id and tags the first one counts; a line that
is meant for a managed attribute but cannot be read is kept as it stands. -/
def readLine (doc : EndpointDoc) (line : String) : EndpointDoc :=
  let rest := remainder line
  match lower (keyword line) with
  | "@summary" => if doc.summary.isEmpty then { doc with summary := rest } else doc
  | "@id" => { doc with id := some (doc.id.getD rest) }
  | "@tags" => { doc with tags := some (doc.tags.getD rest) }
  | "@description" => doc.addDescription rest
  | "@accept" => { doc with accept := doc.accept ++ readMedia rest }
  | "@produce" => { doc with produce := doc.produce ++ readMedia rest }
  | "@param" => ((readParam? rest).map fun p ↦ doc.addParam p).getD (doc.addExtra line)
  | "@success" => ((readResponse? rest).map fun r ↦ doc.addResponse r).getD (doc.addExtra line)
  | "@failure" => ((readResponse? rest).map fun r ↦ doc.addResponse r).getD (doc.addExtra line)
  | "@router" => ((readRouter? rest).map fun r ↦ doc.addRouter r).getD doc
  | _ => if startsWith line "@" then doc.addExtra line else doc.addDescription line

def read (lines : List String) : EndpointDoc :=
  ((lines.map bare).filter fun line ↦ !line.isEmpty).foldl readLine empty

end HandlerDocs.EndpointDoc
