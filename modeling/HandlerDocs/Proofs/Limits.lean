import HandlerDocs.Proofs.Routing.Plan

namespace HandlerDocs

namespace Flow

theorem handlerTrace_sublist (project : Project) (f : FuncRef) {m n : ℕ} (h : m ≤ n) :
    (handlerTrace project m f).Sublist (handlerTrace project n f) := by
  rw [handlerTrace_eq_descend, handlerTrace_eq_descend]
  exact (bodies_followedBody project _).descend_sublist (Nat.succ_le_succ h) [] f _

theorem handlerTrace_eq (project : Project) (f : FuncRef) {m n : ℕ} (h : m ≤ n)
    (hm : project.functions.length ≤ m + 1) :
    handlerTrace project m f = handlerTrace project n f := by
  rw [handlerTrace_eq_descend, handlerTrace_eq_descend]
  exact (bodies_followedBody project _).descend_top_eq h hm f _

end Flow

namespace Routing

def searchTrace (project : Project) (package : RouterPackage) (limit : ℕ) : Trace Route :=
  (setups project package).flatMap (setupTrace project package limit)

theorem searchTrace_sublist (project : Project) (package : RouterPackage) {m n : ℕ} (h : m ≤ n) :
    (searchTrace project package m).Sublist (searchTrace project package n) := by
  refine List.Sublist.flatMap_right _ fun f _ ↦ ?_
  rw [setupTrace_eq_descend, setupTrace_eq_descend]
  exact (bodies_setupBody project package).descend_sublist (Nat.succ_le_succ h) [] f []

theorem searchTrace_eq (project : Project) (package : RouterPackage) {m n : ℕ} (h : m ≤ n)
    (hm : project.functions.length ≤ m + 1) :
    searchTrace project package m = searchTrace project package n := by
  have htrace : setupTrace project package m = setupTrace project package n := by
    funext f
    rw [setupTrace_eq_descend, setupTrace_eq_descend]
    exact (bodies_setupBody project package).descend_top_eq h hm f []
  rw [searchTrace, searchTrace, htrace]

theorem mem_map_key_distinctFrom {seen : List (String × String × FuncRef)} {routes : List Route}
    {key : String × String × FuncRef} :
    key ∈ (distinctFrom seen routes).map Route.key ↔ key ∈ routes.map Route.key ∧ key ∉ seen := by
  induction routes generalizing seen with
  | nil => simp [distinctFrom]
  | cons r routes ih =>
    rw [distinctFrom]
    split
    · rename_i hseen
      rw [ih, List.map_cons, List.mem_cons]
      constructor
      · exact fun h ↦ ⟨.inr h.1, h.2⟩
      · rintro ⟨rfl | hkey, hnew⟩
        · exact absurd hseen hnew
        · exact ⟨hkey, hnew⟩
    · rename_i hnew
      rw [List.map_cons, List.map_cons, List.mem_cons, List.mem_cons, ih, List.mem_cons, not_or]
      by_cases hkey : key = r.key
      · simp [hkey, hnew]
      · simp [hkey]

theorem map_key_select_subset {options : Options} {project : Project} {a b : Trace Route}
    (h : a.Sublist b) : (options.select project a).map Route.key ⊆
      (options.select project b).map Route.key := by
  intro key hkey
  rw [Options.select, distinct, mem_map_key_distinctFrom] at hkey ⊢
  exact ⟨(((h.filterMap _).filter _).map _).subset hkey.1, hkey.2⟩

end Routing

namespace Project

open Code HandlerDocs.Flow HandlerDocs.Routing

/-- A larger limit only adds to what is found: the facts of a handler keep their order, and no route
is lost. A limit that lets every function be entered inside the others finds all. -/
theorem larger_limit_keeps_findings (project : Project) (options : Options) (f : FuncRef) {m n : ℕ}
    (h : m ≤ n) :
    (handlerFacts project m f).Sublist (handlerFacts project n f) ∧
    (routes project { options with maxDepth := m }).map Route.key ⊆
      (routes project { options with maxDepth := n }).map Route.key ∧
    (project.functions.length ≤ m + 1 →
      handlerFacts project m f = handlerFacts project n f ∧
      routes project { options with maxDepth := m } =
        routes project { options with maxDepth := n }) := by
  refine ⟨(handlerTrace_sublist project f h).filterMap Trace.item?,
    map_key_select_subset (searchTrace_sublist project options.package h), fun hm ↦ ⟨?_, ?_⟩⟩
  · rw [handlerFacts, handlerFacts, handlerTrace_eq project f h hm]
  · exact congrArg (options.select project) (searchTrace_eq project options.package h hm)

/-- A handler and its helper that call each other, and a setup that hands its router on. -/
theorem larger_limit_keeps_findings_recursive :
    let func (name type : String) (body : List Stmt) : FuncDecl :=
      ⟨name, none, [⟨some "c", .pointer (.name type)⟩], [], body, ⟨0, 0, 0, 0, 0⟩, ⟨none, []⟩, none⟩
    let file : SourceFile := ⟨"main.go", "main", [⟨none, "github.com/gin-gonic/gin"⟩], [],
      [func "List" "gin.Context" [.eval (.call (.ident "reply") [.ident "c"])],
       func "reply" "gin.Context"
        [.eval (.call (.selector (.ident "c") "JSON") [.lit .int "200", .lit .int "1"]),
         .eval (.call (.ident "List") [.ident "c"])],
       func "main" "gin.Context"
        [.assign [.ident "r"] [.call (.selector (.ident "gin") "New") []] true,
         .eval (.call (.ident "mount") [.ident "r"])],
       func "mount" "gin.Engine"
        [.eval (.call (.selector (.ident "c") "GET") [.lit .string "\"/list\"", .ident "List"])]],
      [], "", false⟩
    let p : Project := ⟨[file]⟩
    let list : FuncRef := ⟨0, 0⟩
    let limited (limit : ℕ) : Options := { maxDepth := limit }
    (handlerFacts p 0 list = [] ∧
      handlerFacts p 1 list = [.produce "json", .response 200 (.named "int")] ∧
      routes p (limited 0) = [] ∧
      (routes p (limited 1)).map Route.key = [("/list", "get", list)]) ∧
    ((handlerFacts p 0 list).Sublist (handlerFacts p 1 list) ∧
      (routes p (limited 0)).map Route.key ⊆ (routes p (limited 1)).map Route.key) ∧
    p.functions.length ≤ 3 + 1 ∧ handlerFacts p 3 list = handlerFacts p 32 list ∧
      routes p (limited 3) = routes p (limited 32) := by
  intro func file p list limited
  obtain ⟨hfacts, hroutes, -⟩ := larger_limit_keeps_findings p {} list (Nat.zero_le 1)
  obtain ⟨-, -, hsame⟩ := larger_limit_keeps_findings p {} list (show 3 ≤ 32 by decide)
  have hcount : p.functions.length ≤ 3 + 1 := by decide +kernel
  exact ⟨by decide +kernel, ⟨hfacts, hroutes⟩, hcount, hsame hcount⟩

/-- How often functions can be entered in a walk: on each level no more often than the longest body
has expressions, and there are no more levels than functions, however large the limit. -/
def entryBound (p : Project) (limit : ℕ) : ℕ :=
  ∑ i ∈ Finset.range (min limit p.functions.length + 1), p.longestBody ^ i

/-- The walks of handlers one after the other, and the walk that looks for routes, come to an end
that the number of functions bounds, whatever the limit. No function is entered while it is active
or deeper than the limit, and in the end no function is active. -/
theorem walks_end_in_order (project : Project) (limit : ℕ) :
    (∀ fs : List FuncRef, let walk := fs.flatMap (handlerTrace project limit)
      Trace.Orderly limit [] walk ∧ Trace.entries walk ≤ fs.length * project.entryBound limit) ∧
    ∀ package : RouterPackage, let walk := searchTrace project package limit
      Trace.Orderly limit [] walk ∧
        Trace.entries walk ≤ (setups project package).length * project.entryBound limit := by
  have hhandler (f : FuncRef) :
      Trace.entries (handlerTrace project limit f) ≤ project.entryBound limit := by
    rw [handlerTrace_eq_descend]
    exact (bodies_followedBody project _).entries_descend_top_le limit f _
  have hsetup (package : RouterPackage) (f : FuncRef) :
      Trace.Orderly limit [] (setupTrace project package limit f) ∧
      Trace.entries (setupTrace project package limit f) ≤ project.entryBound limit := by
    have hbodies := bodies_setupBody project package
    rw [setupTrace_eq_descend]
    exact ⟨hbodies.orderly_descend le_rfl f _, hbodies.entries_descend_top_le limit f _⟩
  constructor
  · intro fs
    exact ⟨.flatMap (orderly_handlerTrace project limit) fs, Trace.entries_flatMap_le hhandler fs⟩
  · intro package
    exact ⟨.flatMap (fun f ↦ (hsetup package f).1) _,
      Trace.entries_flatMap_le (fun f ↦ (hsetup package f).2) _⟩

end Project

end HandlerDocs
