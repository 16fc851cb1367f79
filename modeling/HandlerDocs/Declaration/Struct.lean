import HandlerDocs.Code.Type

namespace HandlerDocs

namespace Tag

open Text

def isKeyStart (c : Char) : Bool :=
  c.isAlpha || c = '_'

def isKeyPart (c : Char) : Bool :=
  isWord c || c = '-'

/-- The text up to an unescaped quote, and what follows that; a backslash must not end a line. -/
def valueOf : List Char → Option (List Char × List Char)
  | [] => none
  | '\\' :: c :: cs => if c = '\n' then none else (valueOf cs).map fun r ↦ ('\\' :: c :: r.1, r.2)
  | c :: cs =>
    if c = '\x22' then some ([], cs)
    else if c = '\\' then none
    else (valueOf cs).map fun r ↦ (c :: r.1, r.2)

def pairAt? : List Char → Option ((String × String) × List Char)
  | [] => none
  | c :: cs =>
    if isKeyStart c then
      match cs.dropWhile isKeyPart with
      | ':' :: '\x22' :: more => do
        let (value, rest) ← valueOf more
        return ((String.ofList (c :: cs.takeWhile isKeyPart), String.ofList value), rest)
      | _ => none
    else none

/-- The pairs of a tag, from left to right; what is no pair is skipped. `fuel` bounds the steps. -/
def pairsFrom : Nat → List Char → List (String × String)
  | 0, _ => []
  | _ + 1, [] => []
  | fuel + 1, c :: cs =>
    match pairAt? (c :: cs) with
    | some (pair, rest) => pair :: pairsFrom fuel rest
    | none => pairsFrom fuel cs

def pairs (tag : String) : List (String × String) :=
  pairsFrom tag.toList.length tag.toList

end Tag

namespace Code.FieldOf

variable {τ : Type} (field : FieldOf τ)

def tagValue? (key : String) : Option String :=
  field.tag.bind fun tag ↦ (Tag.pairs tag).lookup key

/-- The first item of a tag's list, unless it is empty or a dash: then the name in snake case. -/
def nameIn (key name : String) : String :=
  match (field.tagValue? key).map (Text.upTo ',') with
  | some given => if given.isEmpty || given = "-" then Naming.snake name else given
  | none => Naming.snake name

def docName (name : String) : String := field.nameIn "json" name

def formName (name : String) : String := field.nameIn "form" name

def isRequired : Bool :=
  (field.tagValue? "binding").any fun list ↦
    (Text.fields ',' list).any fun item ↦ Text.trim item = "required"

end Code.FieldOf

structure StructDecl where
  name : String
  fields : List Code.FieldSpec

def StructDecl.field? (decl : StructDecl) (name : String) : Option Code.FieldSpec :=
  decl.fields.find? (·.names.contains name)

end HandlerDocs
