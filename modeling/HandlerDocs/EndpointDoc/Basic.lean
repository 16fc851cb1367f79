import HandlerDocs.Fact
import HandlerDocs.Routing.Path
import HandlerDocs.Text.Blank

namespace HandlerDocs

structure ParamDoc where
  name : String
  kind : ParamKind
  type : String
  required : Bool
  description : String
deriving DecidableEq

def ParamDoc.isPlain (p : ParamDoc) : Bool :=
  p.description.isEmpty || p.description = p.name

def ParamDoc.sameKey (p q : ParamDoc) : Bool :=
  p.kind = q.kind && p.name = q.name

structure ResponseDoc where
  status : Nat
  schema : String
  type : String
deriving DecidableEq

def ResponseDoc.isSuccess (r : ResponseDoc) : Bool :=
  200 ≤ r.status && r.status < 300

structure RouterDoc where
  path : String
  method : String
deriving DecidableEq

@[ext]
structure EndpointDoc where
  summary : String := ""
  id : Option String := none
  tags : Option String := none
  descriptions : List String := []
  accept : List String := []
  produce : List String := []
  params : List ParamDoc := []
  responses : List ResponseDoc := []
  routers : List RouterDoc := []
  extra : List String := []
deriving DecidableEq

def Shape.documented (s : Shape) : String :=
  String.ofList (s.render.toList.filter fun c ↦ c ≠ '*' && !Text.isBlank c)

namespace ResponseDoc

def scalarSchemas : List (String × String) :=
  [("string", "\x7bstring\x7d"), ("rune", "\x7bstring\x7d"), ("byte", "\x7bstring\x7d"),
   ("int", "\x7binteger\x7d"), ("int8", "\x7binteger\x7d"), ("int16", "\x7binteger\x7d"),
   ("int32", "\x7binteger\x7d"), ("int64", "\x7binteger\x7d"), ("uint", "\x7binteger\x7d"),
   ("uint8", "\x7binteger\x7d"), ("uint16", "\x7binteger\x7d"), ("uint32", "\x7binteger\x7d"),
   ("uint64", "\x7binteger\x7d"), ("integer", "\x7binteger\x7d"), ("float32", "\x7bnumber\x7d"),
   ("float64", "\x7bnumber\x7d"), ("number", "\x7bnumber\x7d"), ("bool", "\x7bboolean\x7d"),
   ("boolean", "\x7bboolean\x7d")]

def dropSlices : List Char → List Char
  | '[' :: ']' :: cs => dropSlices cs
  | cs => cs

def ofShape (status : Nat) (shape : Shape) : ResponseDoc :=
  let type := shape.documented
  match scalarSchemas.lookup type, type.toList with
  | some schema, _ => ⟨status, schema, type⟩
  | none, '[' :: ']' :: cs => ⟨status, "\x7barray\x7d", String.ofList (dropSlices cs)⟩
  | none, _ => ⟨status, "\x7bobject\x7d", type⟩

end ResponseDoc

namespace EndpointDoc

def empty : EndpointDoc := {}

/-- A new handler is tagged by its group, unless that is the root. -/
def start (summary group : String) : EndpointDoc :=
  let tag := Routing.Path.tag group
  { empty with summary, tags := if tag.isEmpty then none else some tag }

def param? (doc : EndpointDoc) (kind : ParamKind) (name : String) : Option ParamDoc :=
  doc.params.find? fun p ↦ p.kind = kind && p.name = name

def refine (known seen : ParamDoc) : ParamDoc :=
  let described :=
    if known.isPlain && !seen.isPlain then
      { known with description := seen.description, required := seen.required }
    else known
  if described.type = "string" && seen.type ≠ "string" then { described with type := seen.type }
  else described

def putParam (param : ParamDoc) : List ParamDoc → List ParamDoc
  | [] => [param]
  | p :: more => if p.sameKey param then refine p param :: more else p :: putParam param more

def addParam (param : ParamDoc) (doc : EndpointDoc) : EndpointDoc :=
  { doc with params := putParam param doc.params }

/-- The first response with a status stays. -/
def addResponse (response : ResponseDoc) (doc : EndpointDoc) : EndpointDoc :=
  if doc.responses.any (·.status = response.status) then doc
  else { doc with responses := doc.responses ++ [response] }

def addDescription (line : String) (doc : EndpointDoc) : EndpointDoc :=
  if doc.descriptions.contains line then doc
  else { doc with descriptions := doc.descriptions ++ [line] }

def addRouter (router : RouterDoc) (doc : EndpointDoc) : EndpointDoc :=
  if doc.routers.contains router then doc else { doc with routers := doc.routers ++ [router] }

def addPathParam (doc : EndpointDoc) (name : String) : EndpointDoc :=
  doc.addParam ⟨name, .path, "string", true, name⟩

def addRoute (path method : String) (doc : EndpointDoc) : EndpointDoc :=
  ((Routing.Path.params path).foldl addPathParam doc).addRouter ⟨path, method⟩

def emit (doc : EndpointDoc) : Fact → EndpointDoc
  | .param kind name shape required default =>
    let description := match default with
      | some value => "default " ++ value
      | none => name
    doc.addParam ⟨name, kind, shape.documented, required, description⟩
  | .accept media => { doc with accept := doc.accept ++ [media] }
  | .produce media => { doc with produce := doc.produce ++ [media] }
  | .response status shape => doc.addResponse (.ofShape status shape)

end EndpointDoc

end HandlerDocs
