import HandlerDocs.Config.Basic
import HandlerDocs.Text.Decimal
import HandlerDocs.Yaml.Node

namespace HandlerDocs.Config

open Yaml

variable (doc : Document)

def text? (node : Node) : Option String :=
  match doc.resolve node with
  | .scalar _ _ text => some text
  | _ => none

/-- The text of a scalar that may write something else than a text: it is not quoted, or a literal
block with the tag of what is asked for. -/
def unquoted? (tag : String) (node : Node) : Option String :=
  match doc.resolve node with
  | .scalar .plain _ text => some text
  | .scalar .literal (some t) text => if t = "tag:yaml.org,2002:" ++ tag then some text else none
  | _ => none

def flagOf? : String → Option Bool
  | "true" => some true
  | "True" => some true
  | "TRUE" => some true
  | "false" => some false
  | "False" => some false
  | "FALSE" => some false
  | _ => none

def flag? (node : Node) : Option Bool :=
  (unquoted? doc "bool" node).bind flagOf?

def numberBound : Nat := UInt64.size

def digit? (base : Nat) (c : Char) : Option Nat :=
  (hexDigit? c).filter (· < base)

def inBase? (base : Nat) (digits : List Char) : Option Nat := do
  if digits.isEmpty then none
  let n := (← digits.mapM (digit? base)).foldl (fun n d ↦ base * n + d) 0
  if n < numberBound then some n else none

/-- A whole number, after an optional plus sign: decimal without leading zeros, or with the mark
of another base. -/
def numberOf? (text : String) : Option Nat :=
  let cs := text.toList
  let cs := if cs.head? = some '+' then cs.tail else cs
  match cs with
  | '0' :: 'x' :: digits => inBase? 16 digits
  | '0' :: 'o' :: digits => inBase? 8 digits
  | '0' :: 'b' :: digits => inBase? 2 digits
  | '0' :: _ :: _ => none
  | _ => inBase? 10 cs

def number? (node : Node) : Option Nat :=
  (unquoted? doc "int" node).bind numberOf?

def isNullText (text : String) : Bool :=
  text = "null" || text = "Null" || text = "NULL" || text = "~"

def optional? {α : Type} (read : Node → Option α) (node : Node) : Option (Option α) :=
  match doc.resolve node with
  | .scalar .plain none text =>
    if text.isEmpty || isNullText text then some none else (read node).map some
  | .scalar .plain (some tag) text =>
    if tag = "tag:yaml.org,2002:null" then (if isNullText text then some none else none)
    else (read node).map some
  | _ => (read node).map some

def isNothing : Node → Bool
  | .scalar .plain _ "" => true
  | _ => false

def texts? (node : Node) : Option (List String) :=
  match doc.resolve node with
  | .sequence items => items.mapM (text? doc)
  | other => if isNothing other then some [] else none

/-- A mapping of texts, ordered by key; of equal keys the last one counts. -/
def table? (node : Node) : Option (List (String × String)) :=
  match doc.resolve node with
  | .mapping entries => do
    let pairs ← entries.mapM fun (key, value) ↦ do return (← text? doc key, ← text? doc value)
    return (Assoc.ofList pairs).mergeSort fun a b ↦ decide (a.1 ≤ b.1)
  | other => if isNothing other then some [] else none

/-- The values of the named fields of a record. Other keys are passed over, and no field may be
given twice. A list gives the fields in their order. -/
def fields? (names : List String) (node : Node) : Option (List (String × Node)) :=
  match doc.resolve node with
  | .mapping entries => do
    let pairs ← entries.mapM fun (key, value) ↦ do return (← text? doc key, value)
    let known := pairs.filter fun p ↦ names.contains p.1
    if (known.map (·.1)).Nodup then some known else none
  | .sequence items => if items.length ≤ names.length then some (names.zip items) else none
  | other => if isNothing other then some [] else none

def field? {α : Type} (fields : List (String × Node)) (name : String) (default : α)
    (read : Node → Option α) : Option α :=
  match fields.lookup name with
  | some node => read node
  | none => some default

def overview? (node : Node) : Option OverviewOptions := do
  let fields ← fields? doc ["base", "license", "tag", "security", "values"] node
  return {
    base := ← field? fields "base" false (flag? doc)
    license := ← field? fields "license" false (flag? doc)
    tag := ← field? fields "tag" false (flag? doc)
    security := ← field? fields "security" false (flag? doc)
    values := ← field? fields "values" [] (table? doc) }

def fieldNames : List String :=
  ["version", "router_path", "include_test_files", "excluded_paths", "workers", "max_depth",
   "handler", "info"]

def ofNode? (node : Node) : Option Config := do
  let fields ← fields? doc fieldNames node
  return {
    version := ← field? fields "version" "" (text? doc)
    routerPath := ← field? fields "router_path" none (optional? doc (text? doc))
    includeTestFiles := ← field? fields "include_test_files" none (optional? doc (flag? doc))
    excludedPaths := ← field? fields "excluded_paths" [] (texts? doc)
    workers := ← field? fields "workers" none (optional? doc (number? doc))
    maxDepth := ← field? fields "max_depth" none (optional? doc (number? doc))
    handler := ← field? fields "handler" none (optional? doc (text? doc))
    overview := ← field? fields "info" {} (overview? doc) }

def parse? (text : String) : Option Config := do
  let doc ← Document.parse? text
  match doc.root with
  | some node => ofNode? doc node
  | none => return {}

end HandlerDocs.Config
