import HandlerDocs.Assoc
import HandlerDocs.Naming

namespace HandlerDocs

/-- What is known of a value: a type, the text of an expression that nothing is known about, or a
struct type together with what its fields hold, in the order in which they were first written. -/
inductive Shape where
  | named (name : String)
  | unresolved (text : String)
  | record (name : String) (fields : List (String × Shape))
deriving Inhabited

namespace Shape

def name : Shape → String
  | .named name => name
  | .unresolved text => text
  | .record name _ => name

def isUnresolved : Shape → Bool
  | .unresolved _ => true
  | _ => false

def isRecord : Shape → Bool
  | .record _ _ => true
  | _ => false

def fields : Shape → List (String × Shape)
  | .record _ fields => fields
  | _ => []

def hasFields (s : Shape) : Bool :=
  !s.fields.isEmpty

def isReference (c : Char) : Bool :=
  c = '*' || c = '&'

def baseName (s : Shape) : String :=
  Text.dropLeading isReference s.name

def field? (s : Shape) (key : String) : Option Shape :=
  Assoc.get? key s.fields

def setField (s : Shape) (key : String) (value : Shape) : Shape :=
  .record s.name (Assoc.put key value s.fields)

/-- Writes a field of a field, and so on. A record that is missing on the way is created under the
name that `naming` gives to the keys down to it. The second part lists the key paths for which a
name was needed, in order; `walked` are the keys walked so far. -/
def setPathFrom (naming : List String → String) (value : Shape) (walked : List String) :
    List String → Shape → Shape × List (List String)
  | [], s => (s, [])
  | [key], s => (s.setField key value, [])
  | key :: next :: keys, s =>
    let here := walked ++ [key]
    match s.field? key with
    | some child =>
      let (child, asked) := setPathFrom naming value here (next :: keys) child
      (s.setField key child, asked)
    | none =>
      let (child, asked) := setPathFrom naming value here (next :: keys) (.record (naming here) [])
      (s.setField key child, here :: asked)

def setPath (s : Shape) (naming : List String → String) (keys : List String) (value : Shape) :
    Shape :=
  (setPathFrom naming value [] keys s).1

def missingPaths (s : Shape) (naming : List String → String) (keys : List String) (value : Shape) :
    List (List String) :=
  (setPathFrom naming value [] keys s).2

mutual

def qualify (package : String) : Shape → Shape
  | .named name => .named (Naming.qualifyText name package)
  | .unresolved text => .unresolved text
  | .record name fields => .record (Naming.qualifyText name package) (qualifyFields package fields)

def qualifyFields (package : String) : List (String × Shape) → List (String × Shape)
  | [] => []
  | (key, value) :: more => (key, value.qualify package) :: qualifyFields package more

end

mutual

/-- `Resp{data=model.Book,meta=int}`; braces only around fields. -/
def render : Shape → String
  | .named name => name
  | .unresolved text => text
  | .record name [] => name
  | .record name (field :: more) => name ++ "\x7b" ++ renderFields (field :: more) ++ "\x7d"

def renderFields : List (String × Shape) → String
  | [] => ""
  | [(key, value)] => key ++ "=" ++ value.render
  | (key, value) :: more => key ++ "=" ++ value.render ++ "," ++ renderFields more

end

mutual

def same : Shape → Shape → Bool
  | .named a, .named b => a = b
  | .unresolved a, .unresolved b => a = b
  | .record a xs, .record b ys => a = b && sameFields xs ys
  | _, _ => false

def sameFields : List (String × Shape) → List (String × Shape) → Bool
  | [], [] => true
  | (k, x) :: xs, (l, y) :: ys => k = l && x.same y && sameFields xs ys
  | _, _ => false

end

mutual

theorem same_iff : ∀ a b : Shape, a.same b = true ↔ a = b
  | .named a, b => by cases b <;> simp [same]
  | .unresolved a, b => by cases b <;> simp [same]
  | .record a xs, b => by cases b <;> simp [same, sameFields_iff xs]

theorem sameFields_iff : ∀ xs ys : List (String × Shape), sameFields xs ys = true ↔ xs = ys
  | [], ys => by cases ys <;> simp [sameFields]
  | (k, x) :: xs, ys => by
    cases ys with
    | nil => simp [sameFields]
    | cons y ys => simp [sameFields, same_iff x, sameFields_iff xs, Prod.ext_iff]

end

instance : DecidableEq Shape := fun a b ↦ decidable_of_iff _ (same_iff a b)

end Shape

end HandlerDocs
