import HandlerDocs.Text.Quoted

namespace HandlerDocs.Report

inductive Json where
  | null
  | bool (value : Bool)
  | number (value : Nat)
  | text (value : String)
  | array (items : List Json)
  | object (fields : List (String × Json))

namespace Json

def hex4 (n : Nat) : List Char :=
  let digits := Text.hexDigits n
  List.replicate (4 - digits.length) '0' ++ digits

def escapeChar (c : Char) : List Char :=
  if c = '\x22' then ['\\', '\x22']
  else if c = '\\' then ['\\', '\\']
  else if c = '\n' then ['\\', 'n']
  else if c = '\r' then ['\\', 'r']
  else if c = '\t' then ['\\', 't']
  else if c = '\x08' then ['\\', 'b']
  else if c = '\x0c' then ['\\', 'f']
  else if c.toNat < 0x20 then ['\\', 'u'] ++ hex4 c.toNat
  else [c]

def escape (s : String) : String :=
  String.ofList ('\x22' :: s.toList.flatMap escapeChar ++ ['\x22'])

def indent (depth : Nat) : String :=
  String.ofList (List.replicate (2 * depth) ' ')

mutual

def pretty (depth : Nat) : Json → String
  | .null => "null"
  | .bool value => if value then "true" else "false"
  | .number value => Nat.repr value
  | .text value => escape value
  | .array [] => "[]"
  | .array (item :: items) =>
    "[\n" ++ prettyItems (depth + 1) (item :: items) ++ "\n" ++ indent depth ++ "]"
  | .object [] => "\x7b\x7d"
  | .object (field :: fields) =>
    "\x7b\n" ++ prettyFields (depth + 1) (field :: fields) ++ "\n" ++ indent depth ++ "\x7d"

def prettyItems (depth : Nat) : List Json → String
  | [] => ""
  | [item] => indent depth ++ item.pretty depth
  | item :: more => indent depth ++ item.pretty depth ++ ",\n" ++ prettyItems depth more

def prettyFields (depth : Nat) : List (String × Json) → String
  | [] => ""
  | [(key, value)] => indent depth ++ escape key ++ ": " ++ value.pretty depth
  | (key, value) :: more =>
    indent depth ++ escape key ++ ": " ++ value.pretty depth ++ ",\n" ++ prettyFields depth more

end

end Json

end HandlerDocs.Report
