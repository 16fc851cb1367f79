import HandlerDocs.EndpointDoc.Merge
import HandlerDocs.Routing.Discovery

namespace HandlerDocs

structure Endpoint where
  handler : FuncRef
  doc : EndpointDoc

namespace Endpoint

open Routing

def handlers (routes : List Route) : List FuncRef :=
  (routes.map (·.handler)).foldl (fun seen f ↦ if f ∈ seen then seen else seen ++ [f]) []

def routed (project : Project) (f : FuncRef) (routes : List Route) : EndpointDoc :=
  let name := ((project.function? f).map (·.name)).getD ""
  let group := (routes.head?.map (·.group)).getD ""
  routes.foldl (fun doc r ↦ doc.addRoute r.path r.method) (.start name group)

def document (project : Project) (limit : Nat) (f : FuncRef) (routes : List Route) : EndpointDoc :=
  (Flow.handlerFacts project limit f).foldl EndpointDoc.emit (routed project f routes)

/-- The documentation of every handler that is reached by a route; `limit` tells how deep the calls
in its body are followed. Only code tells it: comments are not looked at. -/
def all (project : Project) (options : Routing.Options) (limit : Nat := options.maxDepth) :
    List Endpoint :=
  let code := project.code
  let found := routes code options
  (handlers found).map fun f ↦ ⟨f, document code limit f (found.filter (·.handler = f))⟩

structure Change where
  handler : FuncRef
  doc : EndpointDoc
  lines : List String
  changed : Bool

def applyAll (project : Project) : List Endpoint → Project × List Change
  | [] => (project, [])
  | ⟨f, doc⟩ :: more =>
    let (project, changed) := project.annotate f doc
    let rest := applyAll project more
    (rest.1, ⟨f, doc, project.docLines f, changed⟩ :: rest.2)

end Endpoint

end HandlerDocs
