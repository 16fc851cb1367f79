import HandlerDocs.Endpoint
import HandlerDocs.Proofs.Flow.Plan
import HandlerDocs.Proofs.Project.Describe

namespace HandlerDocs

def Project.isNamed (p : Project) (name : String) (f : FuncRef) : Bool :=
  (p.function? f).any (·.name = name)

theorem Project.isNamed_code (p : Project) (name : String) (f : FuncRef) :
    p.code.isNamed name f = p.isNamed name f := by
  rw [isNamed, isNamed, function?_code]
  cases p.function? f <;> rfl

namespace Routing

/-- A filter that looks at handlers only may come before or after duplicates are dropped. What was
seen may differ in routes that the filter rejects. -/
theorem distinctFrom_filter {accepts : FuncRef → Bool}
    {seen seen' : List (String × String × FuncRef)}
    (h : ∀ r : Route, accepts r.handler → (r.key ∈ seen ↔ r.key ∈ seen')) (routes : List Route) :
    distinctFrom seen (routes.filter (accepts ·.handler)) =
      (distinctFrom seen' routes).filter (accepts ·.handler) := by
  induction routes generalizing seen seen' with
  | nil => rfl
  | cons r routes ih =>
    by_cases hr : accepts r.handler
    · rw [List.filter_cons, if_pos hr, distinctFrom, distinctFrom]
      by_cases hseen : r.key ∈ seen
      · rw [if_pos hseen, if_pos ((h r hr).1 hseen), ih h]
      · rw [if_neg hseen, if_neg fun hseen' ↦ hseen ((h r hr).2 hseen'),
          List.filter_cons, if_pos hr]
        refine congrArg (r :: ·) (ih fun r' hr' ↦ ?_)
        rw [List.mem_cons, List.mem_cons, h r' hr']
    · rw [List.filter_cons, if_neg hr, distinctFrom]
      split
      · exact ih h
      · rw [List.filter_cons, if_neg hr]
        -- The key that is seen now belongs to a rejected handler.
        refine ih fun r' hr' ↦ ?_
        have hne : r'.key ≠ r.key := by
          intro heq
          have hhandler : r'.handler = r.handler := congrArg (·.2.2) heq
          exact hr (hhandler ▸ hr')
        rw [List.mem_cons, h r' hr', or_iff_right hne]

theorem routes_of_handler (project : Project) (options : Options) (name : String) :
    routes project { options with handler := some name } =
      (routes project { options with handler := none }).filter
        (project.isNamed name ·.handler) := by
  have honly (trace : Trace Route) : Options.select { options with handler := some name } project
      trace = distinctFrom [] (trace.items.filter (project.isNamed name ·.handler)) := rfl
  have hevery (trace : Trace Route) : Options.select { options with handler := none } project
      trace = distinctFrom [] trace.items := congrArg distinct (List.filter_eq_self.2 fun _ _ ↦ rfl)
  rw [routes, routes, honly, hevery]
  exact distinctFrom_filter (fun _ _ ↦ Iff.rfl) _

end Routing

def Flow.handlerTraceFrom (project : Project) (limit : ℕ) (active : List FuncRef) (f : FuncRef) :
    Trace Fact :=
  let body := ((project.function? f).map (·.body)).getD []
  let enter := follow project (project.packageOf f.unit) limit (f :: active)
  .inside f (evalBlock (Site.ofUnit project f.unit) enter (Site.entryScope project f) body)

theorem Flow.handlerTraceFrom_nil (project : Project) (limit : ℕ) (f : FuncRef) :
    handlerTraceFrom project limit [] f = handlerTrace project limit f := by
  rw [handlerTrace, follow, if_neg List.not_mem_nil]
  rfl

namespace Endpoint

open Routing

theorem handlers_filter (accepts : FuncRef → Bool) (routes : List Route) :
    handlers (routes.filter (accepts ·.handler)) = (handlers routes).filter accepts := by
  have hfold (fs seen : List FuncRef) :
      (fs.filter accepts).foldl (fun seen f ↦ if f ∈ seen then seen else seen ++ [f])
        (seen.filter accepts) =
      (fs.foldl (fun seen f ↦ if f ∈ seen then seen else seen ++ [f]) seen).filter accepts := by
    induction fs generalizing seen with
    | nil => rfl
    | cons f fs ih =>
      rw [List.foldl_cons, ← ih]
      by_cases haccepts : accepts f <;> by_cases hf : f ∈ seen <;> simp [haccepts, hf]
  have hmap : (routes.filter (accepts ·.handler)).map (·.handler) =
      (routes.map (·.handler)).filter accepts := List.filter_map.symm
  rw [handlers, handlers, hmap]
  exact hfold _ []

def ofRoutes (code : Project) (limit : ℕ) (found : List Route) : List Endpoint :=
  (handlers found).map fun f ↦ ⟨f, document code limit f (found.filter (·.handler = f))⟩

theorem all_eq_ofRoutes (p : Project) (options : Options) (limit : ℕ) :
    all p options limit = ofRoutes p.code limit (routes p.code options) := rfl

theorem ofRoutes_filter (code : Project) (limit : ℕ) (accepts : FuncRef → Bool)
    (found : List Route) :
    ofRoutes code limit (found.filter (accepts ·.handler)) =
      (ofRoutes code limit found).filter (accepts ·.handler) := by
  rw [ofRoutes, ofRoutes, handlers_filter, List.filter_map]
  refine List.map_congr_left fun f hf ↦ ?_
  have haccepts : accepts f := (List.mem_filter.1 hf).2
  have hroutes : (found.filter (accepts ·.handler)).filter (·.handler = f) =
      found.filter (·.handler = f) := by
    rw [List.filter_filter]
    refine List.filter_congr fun r _ ↦ ?_
    by_cases hr : r.handler = f <;> simp [hr, haccepts]
  rw [hroutes]

/-- The documentation of handlers that are walked one after the other: the functions that one walk
leaves active are active in the next. -/
def carried (code : Project) (limit : ℕ) (found : List Route) :
    (active : List FuncRef) → List FuncRef → List Endpoint
  | _, [] => []
  | active, f :: fs =>
    let walk := Flow.handlerTraceFrom code limit active f
    let doc := walk.items.foldl EndpointDoc.emit (routed code f (found.filter (·.handler = f)))
    ⟨f, doc⟩ :: carried code limit found (Trace.activeAfter active walk) fs

/-- Since no walk leaves a function active, each handler is walked as if it were the only one. -/
theorem carried_eq_ofRoutes (code : Project) (limit : ℕ) (found : List Route) :
    carried code limit found [] (handlers found) = ofRoutes code limit found := by
  rw [ofRoutes]
  induction handlers found with
  | nil => rfl
  | cons f fs ih =>
    have hrestored := (Flow.orderly_handlerTrace code limit f).restored
    rw [carried, Flow.handlerTraceFrom_nil, hrestored, ih, List.map_cons]
    rfl

/-- To ask for one handler is to look at all of them and to keep those with its name: the routes are
the same, and so is the documentation, however deep calls are followed for it and also when one set
of active functions is carried from handler to handler. -/
theorem handler_filter_selects (project : Project) (options : Options) (name : String) :
    let only : Options := { options with handler := some name }
    let every : Options := { options with handler := none }
    routes project only = (routes project every).filter (project.isNamed name ·.handler) ∧
    all project only = (all project every).filter (project.isNamed name ·.handler) ∧
    ∀ limit, ofRoutes project.code limit (routes project.code only) =
      (ofRoutes project.code limit (routes project.code every)).filter
        (project.isNamed name ·.handler) ∧
      let inTurn (options : Options) :=
        let found := routes project.code options
        carried project.code limit found [] (handlers found)
      inTurn only = (inTurn every).filter (project.isNamed name ·.handler) := by
  intro only every
  have hnamed : project.code.isNamed name = project.isNamed name :=
    funext (project.isNamed_code name)
  have hdocs (limit : ℕ) : ofRoutes project.code limit (routes project.code only) =
      (ofRoutes project.code limit (routes project.code every)).filter
        (project.isNamed name ·.handler) := by
    rw [routes_of_handler project.code options name, hnamed, ofRoutes_filter]
  refine ⟨routes_of_handler project options name, ?_, fun limit ↦ ⟨hdocs limit, ?_⟩⟩
  · rw [all_eq_ofRoutes, all_eq_ofRoutes]
    exact hdocs options.maxDepth
  · dsimp only
    rw [carried_eq_ofRoutes, carried_eq_ofRoutes]
    exact hdocs limit

end Endpoint

end HandlerDocs
