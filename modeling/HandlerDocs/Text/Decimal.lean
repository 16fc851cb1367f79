namespace HandlerDocs.Text

def digitValue (c : Char) : Nat :=
  c.toNat - '0'.toNat

def decimalOf (digits : List Char) : Nat :=
  digits.foldl (fun n c ↦ 10 * n + digitValue c) 0

def decimalBelow? (bound : Nat) (s : String) : Option Nat :=
  let digits := s.toList
  if !digits.isEmpty && digits.all Char.isDigit && decimalOf digits < bound then
    some (decimalOf digits)
  else none

end HandlerDocs.Text
