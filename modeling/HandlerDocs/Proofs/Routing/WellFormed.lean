import HandlerDocs.Proofs.Routing.Path
import HandlerDocs.Proofs.Routing.Walk

namespace HandlerDocs.Routing

open Code

structure Route.WellFormed (r : Route) : Prop where
  path : Path.WellFormed r.path
  group : Path.IsGroup r.group
  below : r.group.toList <+: r.path.toList

section Register

variable {site : Site} {package : RouterPackage} {setup : Setup}

theorem isGroup_of_mount? (h : Mounted Path.IsGroup setup.routers) {e : Expr} {mount : String}
    (hmount : mount? site package setup e = some mount) : Path.IsGroup mount := by
  fun_induction mount? site package setup e generalizing mount with
  | case1 name => exact h _ (Assoc.mem_of_get? hmount)
  | case2 receiver method args hfresh => exact .inl (Option.some.inj hmount).symm
  | case3 receiver method args hfresh hgroup ih =>
    obtain ⟨base, hbase, hmount⟩ := Option.bind_eq_some_iff.1 hmount
    obtain ⟨path, -, hmount⟩ := Option.bind_eq_some_iff.1 hmount
    obtain rfl := Option.some.inj hmount
    exact .inr (Path.join_wellFormed (ih hbase) (Path.unmarked_normalize path)).1
  | case4 => cases hmount
  | case5 => cases hmount

theorem wellFormed_of_route? {base method : String} (hbase : Path.IsGroup base) {path : Expr}
    {args : List Expr} {r : Route} (h : route? site package setup base path method args = some r) :
    r.WellFormed := by
  unfold route? at h
  obtain ⟨raw, -, h⟩ := Option.bind_eq_some_iff.1 h
  obtain ⟨last, -, h⟩ := Option.bind_eq_some_iff.1 h
  obtain ⟨handler, -, h⟩ := Option.bind_eq_some_iff.1 h
  obtain ⟨hpath, hbelow⟩ := Path.join_wellFormed hbase (Path.unmarked_normalize raw)
  generalize Path.join base (Path.normalize raw) = joined at h hpath hbelow
  obtain rfl := Option.some.inj h
  exact ⟨hpath, hbase, hbelow⟩

theorem wellFormed_of_registered? {base method : String} (hbase : Path.IsGroup base)
    {args : List Expr} {r : Route} (h : registered? site package setup base method args = some r) :
    r.WellFormed := by
  rw [registered?.eq_def] at h
  split at h
  · exact wellFormed_of_route? hbase h
  · obtain ⟨verb, -, h⟩ := Option.bind_eq_some_iff.1 h
    exact wellFormed_of_route? hbase h
  · cases h

theorem keeps_wellFormed : Keeps site package Path.IsGroup Route.WellFormed where
  mount h hmount := isGroup_of_mount? h hmount
  route hbase h := wellFormed_of_registered? hbase h

end Register

/-- Whatever texts a project gives to its groups and routes, every route is documented under a path
that starts with a slash, has no empty segment and no parameter outside braces, and continues the
path of its group, which is empty or of the same form. -/
theorem routes_wellFormed (project : Project) (options : Options) :
    ∀ r ∈ routes project options,
      Path.WellFormed r.path ∧ r.group.toList <+: r.path.toList ∧
        (r.group = "" ∨ Path.WellFormed r.group) := by
  intro r hr
  obtain ⟨hpath, hgroup, hbelow⟩ := forall_mem_routes (fun _ _ ↦ keeps_wellFormed) r hr
  exact ⟨hpath, hbelow, hgroup⟩

/-- Groups and a route with blanks, doubled slashes and colons in all places. -/
theorem routes_wellFormed_nested :
    let func (name : String) (body : List Stmt) : FuncDecl :=
      ⟨name, none, [⟨some "c", .pointer (.name "gin.Context")⟩], [], body, ⟨0, 0, 0, 0, 0⟩,
        ⟨none, []⟩, none⟩
    let group (router : Expr) (path : String) : Expr :=
      .call (.selector router "Group") [.lit .string path]
    let file : SourceFile := ⟨"main.go", "main", [⟨none, "github.com/gin-gonic/gin"⟩], [],
      [func "List" [],
       func "main"
        [.assign [.ident "r"] [.call (.selector (.ident "gin") "New") []] true,
         .assign [.ident "g"] [group (.ident "r") "\" //api/ \""] true,
         .eval (.call (.selector (group (.ident "g") "\"v1:\"") "GET")
          [.lit .string "\"/:id//*rest\"", .ident "List"])]],
      [], "", false⟩
    let p : Project := ⟨[file]⟩
    let r : Route := ⟨"/api/v1:/\x7bid\x7d/\x7brest\x7d", "get", "/api/v1:", ⟨0, 0⟩⟩
    r ∈ routes p {} ∧ Path.WellFormed r.path ∧ r.group.toList <+: r.path.toList ∧
      (r.group = "" ∨ Path.WellFormed r.group) := by
  intro func group file p r
  have hr : r ∈ routes p {} := by decide +kernel
  exact ⟨hr, routes_wellFormed p {} r hr⟩

end HandlerDocs.Routing
