import HandlerDocs.Text.Alphabetic
import HandlerDocs.Text.Numeric
import HandlerDocs.Text.Joining
import HandlerDocs.Text.Unprintable

namespace HandlerDocs.Text

def inRanges (rs : List (Nat × Nat)) (c : Char) : Bool :=
  rs.any fun r ↦ r.1 ≤ c.toNat && c.toNat ≤ r.2

def isAlphabetic (c : Char) : Bool :=
  if c.toNat < 128 then c.isAlpha else inRanges alphabeticRanges c

def isDecimal (c : Char) : Bool :=
  if c.toNat < 128 then c.isDigit else inRanges decimalRanges c

def isNumeric (c : Char) : Bool :=
  isDecimal c || inRanges numberRanges c

def isAlphanumeric (c : Char) : Bool :=
  isAlphabetic c || isNumeric c

/-- Word characters: letters, decimal digits, marks, connectors such as `_`, and join controls. -/
def isWord (c : Char) : Bool :=
  if c.toNat < 128 then c.isAlphanum || c = '_'
  else isAlphabetic c || isDecimal c || inRanges joiningRanges c

def isPrintable (c : Char) : Bool :=
  if c.toNat < 128 then 32 ≤ c.toNat && c.toNat ≠ 127 else !inRanges unprintableRanges c

end HandlerDocs.Text
