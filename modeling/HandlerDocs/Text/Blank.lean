namespace HandlerDocs.Text

def isBlank (c : Char) : Bool :=
  (9 ≤ c.toNat && c.toNat ≤ 13) || c.toNat = 32 || c.toNat = 133 || c.toNat = 160 ||
  c.toNat = 5760 || (8192 ≤ c.toNat && c.toNat ≤ 8202) || c.toNat = 8232 || c.toNat = 8233 ||
  c.toNat = 8239 || c.toNat = 8287 || c.toNat = 12288

def dropBlanks (cs : List Char) : List Char :=
  cs.dropWhile isBlank

def dropWhileEnd (p : Char → Bool) (cs : List Char) : List Char :=
  (cs.reverse.dropWhile p).reverse

def trimEnd (s : String) : String :=
  String.ofList (dropWhileEnd isBlank s.toList)

def trim (s : String) : String :=
  String.ofList (dropWhileEnd isBlank (dropBlanks s.toList))

def wordsOf : List Char → List (List Char)
  | [] => []
  | [c] => if isBlank c then [] else [[c]]
  | c :: d :: cs =>
    if isBlank c then wordsOf (d :: cs)
    else if isBlank d then [c] :: wordsOf (d :: cs)
    else match wordsOf (d :: cs) with
      | [] => [[c]]
      | w :: ws => (c :: w) :: ws

def words (s : String) : List String :=
  (wordsOf s.toList).map String.ofList

/-- Every run of blanks becomes one space, and none is left at either end. -/
def compact (s : String) : String :=
  " ".intercalate (words s)

def squeeze (s : String) : String :=
  String.ofList (s.toList.filter fun c ↦ !isBlank c)

end HandlerDocs.Text
