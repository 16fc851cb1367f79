import HandlerDocs.EndpointDoc.Reader
import HandlerDocs.EndpointDoc.Writer

namespace HandlerDocs.EndpointDoc

def describe (existing : EndpointDoc) (param : ParamDoc) : ParamDoc :=
  match existing.param? param.kind param.name with
  | some old => if old.isPlain then param else { param with description := old.description }
  | none => param

def keepParam (doc : EndpointDoc) (old : ParamDoc) : EndpointDoc :=
  if (doc.param? old.kind old.name).isSome then doc
  else { doc with params := doc.params ++ [old] }

def appendNew (items : List String) (more : List String) : List String :=
  more.foldl (fun acc item ↦ if acc.contains item then acc else acc ++ [item]) items

/-- What was derived, with all that was written by hand: texts of the existing block win, its
parameters, responses and other lines are kept, and its routes are not. -/
def merge (derived existing : EndpointDoc) : EndpointDoc :=
  let doc : EndpointDoc :=
    { derived with
      summary := if existing.summary.isEmpty then derived.summary else existing.summary
      id := existing.id.orElse fun _ ↦ derived.id
      tags := existing.tags.orElse fun _ ↦ derived.tags
      descriptions := appendNew existing.descriptions derived.descriptions
      accept := derived.accept ++ existing.accept
      produce := derived.produce ++ existing.produce
      params := derived.params.map (describe existing)
      extra := appendNew derived.extra existing.extra }
  existing.responses.foldl (fun doc r ↦ doc.addResponse r) (existing.params.foldl keepParam doc)

def update (derived : EndpointDoc) (lines : List String) : List String :=
  (merge derived (read lines)).write

end HandlerDocs.EndpointDoc
