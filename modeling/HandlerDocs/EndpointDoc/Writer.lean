import HandlerDocs.EndpointDoc.Basic

namespace HandlerDocs.EndpointDoc

def dedup : List String → List String
  | a :: b :: more => if a = b then dedup (b :: more) else a :: dedup (b :: more)
  | items => items

/-- Media types are written in alphabetical order, each once. -/
def mediaList (media : List String) : List String :=
  dedup (media.mergeSort fun a b ↦ decide (a ≤ b))

def writeMedia (keyword : String) (media : List String) : List String :=
  match mediaList media with
  | [] => []
  | items => ["// @" ++ keyword ++ " " ++ ",".intercalate items]

def writeOptional (keyword : String) : Option String → List String
  | some text => if text.isEmpty then [] else ["// @" ++ keyword ++ " " ++ text]
  | none => []

def writeFlag : Bool → String
  | true => "true"
  | false => "false"

def writeParam (p : ParamDoc) : String :=
  let description := if p.description.isEmpty then p.name else p.description
  "// @Param " ++ p.name ++ " " ++ p.kind.text ++ " " ++ p.type ++ " " ++ writeFlag p.required ++
    " \"" ++ description ++ "\""

def writeResponse (r : ResponseDoc) : String :=
  "// @" ++ (if r.isSuccess then "Success" else "Failure") ++ " " ++ Nat.repr r.status ++ " " ++
    r.schema ++ " " ++ r.type

def writeRouter (r : RouterDoc) : String :=
  "// @Router " ++ r.path ++ " [" ++ r.method ++ "]"

/-- The comment block: parameters by kind and responses by status, each in order of appearance. -/
def write (doc : EndpointDoc) : List String :=
  ["// @Summary " ++ doc.summary] ++ writeOptional "ID" doc.id ++ writeOptional "Tags" doc.tags ++
  doc.descriptions.map ("// @Description " ++ ·) ++
  writeMedia "Accept" doc.accept ++ writeMedia "Produce" doc.produce ++
  (doc.params.mergeSort fun p q ↦ decide (p.kind.rank ≤ q.kind.rank)).map writeParam ++
  (doc.responses.mergeSort fun r s ↦ decide (r.status ≤ s.status)).map writeResponse ++
  doc.extra.map ("// " ++ ·) ++ doc.routers.map writeRouter

end HandlerDocs.EndpointDoc
