import HandlerDocs.Text.CharClass

namespace HandlerDocs.Text

def hexDigits (n : Nat) : List Char :=
  Nat.toDigits 16 n

/-- A character inside double quotes: control characters, quotes and backslashes are written with
a backslash, unprintable characters by their code point. -/
def quoteChar (c : Char) : List Char :=
  if c = '\x22' then ['\\', '\x22']
  else if c = '\\' then ['\\', '\\']
  else if c = '\n' then ['\\', 'n']
  else if c = '\r' then ['\\', 'r']
  else if c = '\t' then ['\\', 't']
  else if c = Char.ofNat 0 then ['\\', '0']
  else if isPrintable c then [c]
  else ['\\', 'u', '\x7b'] ++ hexDigits c.toNat ++ ['\x7d']

def quote (s : String) : String :=
  String.ofList ('\x22' :: s.toList.flatMap quoteChar ++ ['\x22'])

end HandlerDocs.Text
