import HandlerDocs.Proofs.EndpointDoc.Distinct
import HandlerDocs.Proofs.Limits
import HandlerDocs.Proofs.Project.Annotate
import HandlerDocs.Proofs.Routing.CodeOnly

namespace HandlerDocs

namespace EndpointDoc

theorem keepNew_eq_eraseDups {α : Type} [DecidableEq α] (items more : List α) :
    keepNew (fun x ↦ x) items more = items ++ (more.filter (· ∉ items)).eraseDups := by
  induction more generalizing items with
  | nil => simp [keepNew]
  | cons x more ih =>
    rw [keepNew_cons, List.map_id', ih, eraseDups_filter_cons]
    split
    · rfl
    · have hseen : more.filter (· ∉ items ++ [x]) = more.filter (· ∉ x :: items) :=
        List.filter_congr fun y _ ↦ by simp [and_comm]
      rw [hseen, List.append_assoc, List.singleton_append]

theorem mem_map_key_putParam {p : ParamDoc} {params : List ParamDoc} {key : ParamKind × String} :
    key ∈ (putParam p params).map ParamDoc.key ↔ key = p.key ∨ key ∈ params.map ParamDoc.key := by
  rw [map_key_putParam]
  split
  · rename_i hmem
    constructor
    · exact .inr
    · rintro (rfl | hkey)
      · exact hmem
      · exact hkey
  · rw [List.mem_append, List.mem_singleton, or_comm]

theorem mem_params_addRoute {d : EndpointDoc} {path method : String} {key : ParamKind × String} :
    key ∈ (d.addRoute path method).params.map ParamDoc.key ↔
      (∃ name ∈ Routing.Path.params path, key = (.path, name)) ∨
        key ∈ d.params.map ParamDoc.key := by
  have hnames (names : List String) (d : EndpointDoc) :
      key ∈ (names.foldl addPathParam d).params.map ParamDoc.key ↔
        (∃ name ∈ names, key = (.path, name)) ∨ key ∈ d.params.map ParamDoc.key := by
    induction names generalizing d with
    | nil => simp
    | cons name names ih =>
      rw [List.foldl_cons, ih, addPathParam, addParam, mem_map_key_putParam]
      simp [ParamDoc.key, or_left_comm, or_assoc]
  rw [← hnames, addRoute, addRouter]
  split <;> rfl

theorem mem_params_emit {d : EndpointDoc} {key : ParamKind × String}
    (h : key ∈ d.params.map ParamDoc.key) (fact : Fact) :
    key ∈ (d.emit fact).params.map ParamDoc.key := by
  cases fact with
  | param => exact mem_map_key_putParam.2 (.inr h)
  | accept | produce => exact h
  | response => rwa [emit, addResponse_eq]

theorem routers_addRoute (d : EndpointDoc) (path method : String) :
    (d.addRoute path method).routers = keepNew (fun x ↦ x) d.routers [⟨path, method⟩] := by
  have hnames (names : List String) (d : EndpointDoc) :
      (names.foldl addPathParam d).routers = d.routers := by
    induction names generalizing d with
    | nil => rfl
    | cons name names ih => exact ih _
  rw [addRoute, addRouter, keepNew_cons, hnames]
  simp only [List.contains_iff_mem, List.map_id']
  split
  · exact hnames _ d
  · rfl

end EndpointDoc

namespace Routing

def Route.router (r : Route) : RouterDoc :=
  ⟨r.path, r.method⟩

theorem map_key_distinctFrom (seen : List (String × String × FuncRef)) (routes : List Route) :
    (distinctFrom seen routes).map Route.key =
      ((routes.map Route.key).filter (· ∉ seen)).eraseDups := by
  induction routes generalizing seen with
  | nil => rfl
  | cons r routes ih =>
    rw [distinctFrom, List.map_cons, eraseDups_filter_cons]
    split
    · exact ih seen
    · rw [List.map_cons, ih]

theorem nodup_distinctFrom (seen : List (String × String × FuncRef)) (routes : List Route) :
    ((distinctFrom seen routes).map Route.key).Nodup := by
  induction routes generalizing seen with
  | nil => exact .nil
  | cons r routes ih =>
    rw [distinctFrom]
    split
    · exact ih seen
    · rw [List.map_cons, List.nodup_cons]
      refine ⟨fun hmem ↦ ?_, ih _⟩
      exact (mem_map_key_distinctFrom.1 hmem).2 List.mem_cons_self

/-- The routes of one handler differ in path or verb. -/
theorem nodup_routers {found : List Route} (h : (found.map Route.key).Nodup) (f : FuncRef) :
    ((found.filter (·.handler = f)).map Route.router).Nodup := by
  have hkeys : ((found.filter (·.handler = f)).map Route.router).map
      (fun r ↦ (r.path, r.method, f)) = (found.filter (·.handler = f)).map Route.key := by
    rw [List.map_map]
    refine List.map_congr_left fun r hr ↦ ?_
    have hf : r.handler = f := by simpa using (List.mem_filter.1 hr).2
    rw [Route.key, hf]
    rfl
  apply List.Nodup.of_map (fun r : RouterDoc ↦ (r.path, r.method, f))
  rw [hkeys]
  exact h.sublist (List.filter_sublist.map _)

end Routing

namespace Endpoint

open Routing

section Document

variable (project : Project) (limit : ℕ) (f : FuncRef)

theorem distinct_document (routes : List Route) :
    (document project limit f routes).Distinct := by
  refine List.foldlRecOn _ _ ?_ fun d hd fact _ ↦ hd.emit fact
  exact List.foldlRecOn _ _ (EndpointDoc.distinct_start _ _) fun d hd r _ ↦
    hd.addRoute r.path r.method

theorem routers_document (routes : List Route) : (document project limit f routes).routers =
    EndpointDoc.keepNew (fun x ↦ x) [] (routes.map Route.router) := by
  have hroutes (d : EndpointDoc) :
      (routes.foldl (fun doc r ↦ doc.addRoute r.path r.method) d).routers =
        EndpointDoc.keepNew (fun x ↦ x) d.routers (routes.map Route.router) := by
    induction routes generalizing d with
    | nil => rfl
    | cons r routes ih =>
      rw [List.foldl_cons, ih, EndpointDoc.routers_addRoute]
      rfl
  have hfacts (facts : List Fact) (d : EndpointDoc) :
      (facts.foldl EndpointDoc.emit d).routers = d.routers := by
    induction facts generalizing d with
    | nil => rfl
    | cons fact facts ih => rw [List.foldl_cons, ih, routers_emit]
  rw [document, hfacts, routed, hroutes]
  rfl

theorem mem_params_document {routes : List Route} {r : Route} (hr : r ∈ routes) {name : String}
    (hname : name ∈ Path.params r.path) :
    (.path, name) ∈ (document project limit f routes).params.map ParamDoc.key := by
  let motive (d : EndpointDoc) := (ParamKind.path, name) ∈ d.params.map ParamDoc.key
  refine List.foldlRecOn (motive := motive) _ _ ?_ fun d hd fact _ ↦
    EndpointDoc.mem_params_emit hd fact
  obtain ⟨before, after, rfl⟩ := List.append_of_mem hr
  rw [routed, List.foldl_append, List.foldl_cons]
  refine List.foldlRecOn (motive := motive) _ _ ?_ fun d hd r _ ↦
    EndpointDoc.mem_params_addRoute.2 (.inr hd)
  exact EndpointDoc.mem_params_addRoute.2 (.inl ⟨name, hname, rfl⟩)

end Document

/-- Each handler that routes lead to is documented once, in the order of first routes, with all its
routes and with one parameter for each name in their paths, also beside an existing block. -/
structure DocumentOnce (found : List Route) (endpoints : List Endpoint) : Prop where
  handlers : endpoints.map handler = (found.map (·.handler)).eraseDups
  nodup : (endpoints.map handler).Nodup
  routers : ∀ e ∈ endpoints,
    e.doc.routers = (found.filter (·.handler = e.handler)).map Route.router
  params : ∀ e ∈ endpoints, ∀ r ∈ found, r.handler = e.handler → ∀ name ∈ Path.params r.path,
    (e.doc.params.map ParamDoc.key).count (.path, name) = 1 ∧
    ∀ existing, ((EndpointDoc.merge e.doc existing).params.map ParamDoc.key).count
      (.path, name) = 1

theorem documentOnce_ofRoutes (code : Project) (limit : ℕ) {found : List Route}
    (h : (found.map Route.key).Nodup) : DocumentOnce found (ofRoutes code limit found) := by
  have hhandlers : (ofRoutes code limit found).map handler = Endpoint.handlers found := by
    rw [ofRoutes, List.map_map]
    exact List.map_id _
  refine ⟨?_, ?_, fun e he ↦ ?_, fun e he r hr hhandler name hname ↦ ?_⟩
  · rw [hhandlers, handlers_eq, EndpointDoc.keepNew_eq_eraseDups]
    simp
  · rw [hhandlers]
    exact nodup_handlers found
  · obtain ⟨f, -, rfl⟩ := List.mem_map.1 he
    have hnodup := nodup_routers h f
    rw [← List.map_id' ((found.filter (·.handler = f)).map Route.router)] at hnodup
    dsimp only
    rw [routers_document, EndpointDoc.keepNew_eq _ _ hnodup]
    simp
  · obtain ⟨f, -, rfl⟩ := List.mem_map.1 he
    dsimp only at hhandler ⊢
    have hown : r ∈ found.filter (·.handler = f) := by simp [hr, hhandler]
    have hmem := mem_params_document code limit f hown hname
    have hnodup := (distinct_document code limit f (found.filter (·.handler = f))).params
    refine ⟨List.count_eq_one_of_mem hnodup hmem, fun existing ↦ ?_⟩
    apply List.count_eq_one_of_mem (EndpointDoc.nodup_params_merge hnodup existing)
    rw [EndpointDoc.merge_eq, EndpointDoc.mem_map_keepNew, EndpointDoc.map_key_describe]
    exact .inl hmem

/-- No route is lost on the way from its registration to the documentation, and none comes twice:
the routes are those that setup code registers, each where it is met first, and every handler is
documented with its own, however deep calls are followed for it. -/
theorem routes_documented_once (project : Project) (options : Options) :
    let registered := (searchTrace project options.package options.maxDepth).items.filter
      (options.accepts project)
    let found := routes project options
    found.map Route.key = (registered.map Route.key).eraseDups ∧
    (found.map Route.key).Nodup ∧
    DocumentOnce found (all project options) ∧
    ∀ limit, DocumentOnce found (ofRoutes project.code limit found) := by
  intro registered found
  have hnodup : (found.map Route.key).Nodup := nodup_distinctFrom [] registered
  refine ⟨?_, hnodup, ?_, fun limit ↦ documentOnce_ofRoutes _ limit hnodup⟩
  · have hfound : found = distinctFrom [] registered := rfl
    rw [hfound, map_key_distinctFrom]
    simp
  · rw [all_eq_ofRoutes, routes_code]
    exact documentOnce_ofRoutes _ _ hnodup

/-- One route is registered twice, and one handler is reached by three, which share a parameter that
its body reads from the query under the same name. -/
theorem routes_documented_once_books :
    let func (name type : String) (body : List Code.Stmt) : FuncDecl :=
      ⟨name, none, [⟨some "c", .pointer (.name type)⟩], [], body, ⟨0, 0, 0, 0, 0⟩, ⟨none, []⟩, none⟩
    let on (router method : String) (args : List Code.Expr) : Code.Expr :=
      .call (.selector (.ident router) method) args
    let register (router method path handler : String) : Code.Stmt :=
      .eval (on router method [.lit .string path, .ident handler])
    let file : SourceFile := ⟨"main.go", "main", [⟨none, "github.com/gin-gonic/gin"⟩], [],
      [func "List" "gin.Context" [],
       func "Show" "gin.Context" [.eval (on "c" "Query" [.lit .string "\"id\""])],
       func "main" "int"
        [.assign [.ident "r"] [on "gin" "New" []] true,
         .assign [.ident "api"] [on "r" "Group" [.lit .string "\"/api\""]] true,
         register "r" "GET" "\"/books/:id\"" "Show",
         register "api" "GET" "\"/books\"" "List",
         register "api" "GET" "\"/books/:id\"" "Show",
         register "r" "GET" "\"/books/:id\"" "Show",
         register "api" "PUT" "\"/books/:id/*rest\"" "Show"]],
      [], "", false⟩
    let p : Project := ⟨[file]⟩
    let list : FuncRef := ⟨0, 0⟩
    let shown : FuncRef := ⟨0, 1⟩
    ((searchTrace p .default 32).items.length = 5 ∧
      (routes p {}).map Route.key =
        [("/books/\x7bid\x7d", "get", shown), ("/api/books", "get", list),
          ("/api/books/\x7bid\x7d", "get", shown),
          ("/api/books/\x7bid\x7d/\x7brest\x7d", "put", shown)] ∧
      (all p {}).map (fun e ↦ (e.handler, e.doc.routers, e.doc.params.map ParamDoc.key)) =
        [(shown, [⟨"/books/\x7bid\x7d", "get"⟩, ⟨"/api/books/\x7bid\x7d", "get"⟩,
            ⟨"/api/books/\x7bid\x7d/\x7brest\x7d", "put"⟩],
          [(.path, "id"), (.path, "rest"), (.query, "id")]),
         (list, [⟨"/api/books", "get"⟩], [])]) ∧
    DocumentOnce (routes p {}) (all p {}) := by
  intro func on register file p list shown
  exact ⟨by decide +kernel, (routes_documented_once p {}).2.2.1⟩

end Endpoint

end HandlerDocs
