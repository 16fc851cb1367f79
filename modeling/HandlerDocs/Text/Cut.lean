namespace HandlerDocs.Text

def fieldsOf (sep : Char) : List Char → List (List Char)
  | [] => [[]]
  | c :: cs =>
    if c = sep then [] :: fieldsOf sep cs
    else match fieldsOf sep cs with
      | [] => [[c]]
      | f :: fs => (c :: f) :: fs

def fields (sep : Char) (s : String) : List String :=
  (fieldsOf sep s.toList).map String.ofList

def upTo (sep : Char) (s : String) : String :=
  String.ofList (s.toList.takeWhile (· ≠ sep))

def cutAt? (sep : Char) (s : String) : Option (String × String) :=
  match s.toList.dropWhile (· ≠ sep) with
  | [] => none
  | _ :: after => some (upTo sep s, String.ofList after)

def startsWith (s start : String) : Bool :=
  start.toList.isPrefixOf s.toList

def endsWith (s stop : String) : Bool :=
  stop.toList.isSuffixOf s.toList

def dropStart? (start s : String) : Option String :=
  (start.toList.isPrefixOf? s.toList).map String.ofList

def dropEnd? (stop s : String) : Option String :=
  (stop.toList.isSuffixOf? s.toList).map String.ofList

def hasChar (c : Char) (s : String) : Bool :=
  s.toList.contains c

def dropLeading (p : Char → Bool) (s : String) : String :=
  String.ofList (s.toList.dropWhile p)

def unwrap? (quote : String) (s : String) : Option String :=
  (dropStart? quote s).bind (dropEnd? quote)

def lower (s : String) : String :=
  String.ofList (s.toList.map Char.toLower)

end HandlerDocs.Text
