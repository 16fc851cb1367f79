import Mathlib.Data.List.Nodup
import HandlerDocs.Proofs.Routing.Hygiene

namespace HandlerDocs.Routing

open Code

section Together

variable (site : Site) (package : RouterPackage) (enter : FuncRef → Routers → Trace Route)

def setRouter (routers : Routers) (target : Expr) (mount : Option String) : Routers :=
  match Flow.boundName? target, mount with
  | none, _ => routers
  | some name, some mount => Assoc.put name mount routers
  | some name, none => Assoc.erase name routers

def valueTrace (setup : Setup) (pair : Expr × Expr) : Trace Route :=
  if (Flow.boundName? pair.1).isSome && (mount? site package setup pair.2).isSome then []
  else walkCall site package enter setup pair.2

def setRouters (setup : Setup) (routers : Routers) (pairs : List (Expr × Expr)) : Routers :=
  pairs.foldl (fun routers pair ↦ setRouter routers pair.1 (mount? site package setup pair.2))
    routers

def walkTogether (setup : Setup) (pairs : List (Expr × Expr)) : Setup × Trace Route :=
  ({ setup with routers := setRouters site package setup setup.routers pairs },
    pairs.flatMap (valueTrace site package enter setup))

def changedNames (setup : Setup) (pair : Expr × Expr) : List String :=
  (Flow.boundName? pair.1).toList.filter fun name ↦
    Assoc.get? name setup.routers ≠ mount? site package setup pair.2

variable (inherits : FuncRef → List String)

def readNames (setup : Setup) (pair : Expr × Expr) : List String :=
  match Flow.boundName? pair.1, mount? site package setup pair.2 with
  | none, _ => callNames site inherits setup.scope pair.2
  | some _, some _ => mountNames pair.2
  | some _, none => mountNames pair.2 ++ callNames site inherits setup.scope pair.2

/-- No value reads a variable whose router is changed by a pair before it, nor does a call read the
variable that it is assigned to and that holds a router up to then. -/
def Undisturbed (setup : Setup) (pairs : List (Expr × Expr)) : Prop :=
  pairs.Pairwise (fun p q ↦
    ∀ name ∈ changedNames site package setup p, name ∉ readNames site package inherits setup q) ∧
  ∀ p ∈ pairs, mount? site package setup p.2 = none → ∀ name ∈ changedNames site package setup p,
    name ∉ callNames site inherits setup.scope p.2

instance (setup : Setup) (pairs : List (Expr × Expr)) :
    Decidable (Undisturbed site package inherits setup pairs) :=
  inferInstanceAs (Decidable (_ ∧ _))

end Together

theorem get?_setRouter (routers : Routers) (target : Expr) (mount : Option String) (name : String) :
    Assoc.get? name (setRouter routers target mount) =
      if Flow.boundName? target = some name then mount else Assoc.get? name routers := by
  cases hbound : Flow.boundName? target with
  | none => simp [setRouter, hbound]
  | some bound =>
    by_cases hname : name = bound
    · subst hname
      cases mount <;> simp [setRouter, hbound]
    · have hne : some bound ≠ some name := fun heq ↦ hname (Option.some.inj heq).symm
      cases mount <;> simp [setRouter, hbound, hne, hname]

section Targets

variable {site : Site} (package : RouterPackage) {setup : Setup} {name : String}

theorem get?_eq_mount? {pair : Expr × Expr} (hbound : Flow.boundName? pair.1 = some name)
    (hkept : name ∉ changedNames site package setup pair) :
    Assoc.get? name setup.routers = mount? site package setup pair.2 := by
  by_contra hne
  apply hkept
  rw [changedNames, hbound]
  exact List.mem_filter.2 ⟨List.mem_singleton_self name, decide_eq_true hne⟩

theorem get?_setRouters_of_not_mem {routers : Routers} {pairs : List (Expr × Expr)}
    (hname : name ∉ boundNames (pairs.map Prod.fst)) :
    Assoc.get? name (setRouters site package setup routers pairs) = Assoc.get? name routers := by
  induction pairs generalizing routers with
  | nil => rfl
  | cons pair pairs ih =>
    rw [List.map_cons, boundNames, List.flatMap_cons, List.mem_append, not_or] at hname
    have hne : Flow.boundName? pair.1 ≠ some name := fun h ↦ hname.1 (Option.mem_toList.2 h)
    rw [setRouters, List.foldl_cons, ← setRouters, ih hname.2, get?_setRouter, if_neg hne]

theorem get?_setRouters_of_mem {routers : Routers} {pairs : List (Expr × Expr)} {pair : Expr × Expr}
    (hnodup : (boundNames (pairs.map Prod.fst)).Nodup) (hpair : pair ∈ pairs)
    (hbound : Flow.boundName? pair.1 = some name) :
    Assoc.get? name (setRouters site package setup routers pairs) =
      mount? site package setup pair.2 := by
  induction pairs generalizing routers with
  | nil => cases hpair
  | cons first pairs ih =>
    rw [List.map_cons, boundNames, List.flatMap_cons, List.nodup_append'] at hnodup
    obtain ⟨-, hrest, hdisjoint⟩ := hnodup
    rw [setRouters, List.foldl_cons, ← setRouters]
    rcases List.mem_cons.1 hpair with rfl | hpair
    · -- no later pair binds the name again
      have hlast := List.disjoint_left.1 hdisjoint (Option.mem_toList.2 hbound)
      rw [get?_setRouters_of_not_mem package hlast, get?_setRouter, if_pos hbound]
    · exact ih hrest hpair

theorem get?_setRouters_perm {routers : Routers} {pairs pairs' : List (Expr × Expr)}
    (hperm : pairs.Perm pairs') (hnodup : (boundNames (pairs.map Prod.fst)).Nodup) :
    Assoc.get? name (setRouters site package setup routers pairs) =
      Assoc.get? name (setRouters site package setup routers pairs') := by
  have hbounds : (boundNames (pairs.map Prod.fst)).Perm (boundNames (pairs'.map Prod.fst)) :=
    (hperm.map Prod.fst).flatMap_right _
  by_cases hname : name ∈ boundNames (pairs.map Prod.fst)
  · obtain ⟨target, htarget, hbound⟩ := List.mem_flatMap.1 hname
    obtain ⟨pair, hpair, rfl⟩ := List.mem_map.1 htarget
    have hbound := Option.mem_toList.1 hbound
    rw [get?_setRouters_of_mem package hnodup hpair hbound,
      get?_setRouters_of_mem package (hbounds.nodup_iff.1 hnodup) (hperm.mem_iff.1 hpair) hbound]
  · rw [get?_setRouters_of_not_mem package hname,
      get?_setRouters_of_not_mem package (mt hbounds.mem_iff.2 hname)]

end Targets

section Walk

variable {site : Site} (package : RouterPackage) {enter : FuncRef → Routers → Trace Route}
  {inherits : FuncRef → List String} {setup now : Setup}

theorem walkPair_eq (henter : EntersAlike enter inherits) {pair : Expr × Expr}
    (hscope : now.scope = setup.scope)
    (hread : ∀ x ∈ readNames site package inherits setup pair, Agree now.routers setup.routers x)
    (hown : mount? site package setup pair.2 = none → ∀ x ∈ changedNames site package setup pair,
      x ∉ callNames site inherits setup.scope pair.2) :
    walkPair site package enter now pair.1 pair.2 =
      ({ now with routers := setRouter now.routers pair.1 (mount? site package setup pair.2) },
        valueTrace site package enter setup pair) := by
  have hmount (h : ∀ x ∈ mountNames pair.2, Agree now.routers setup.routers x) :
      mount? site package now pair.2 = mount? site package setup pair.2 :=
    mount?_congr package ⟨hscope, rfl, h⟩
  have hcall {routers : Routers}
      (h : ∀ x ∈ callNames site inherits setup.scope pair.2, Agree routers setup.routers x) :
      walkCall site package enter { now with routers } pair.2 =
        walkCall site package enter setup pair.2 :=
    walkCall_congr package henter ⟨hscope, rfl, h⟩
  cases hbound : Flow.boundName? pair.1 with
  | none =>
    simp only [readNames, hbound] at hread
    have htrace := hcall hread
    simp only [walkPair, valueTrace, setRouter, hbound]
    exact Prod.ext rfl htrace
  | some name =>
    cases hvalue : mount? site package setup pair.2 with
    | some mount =>
      simp only [readNames, hbound, hvalue] at hread
      simp [walkPair, valueTrace, setRouter, hbound, hmount hread, hvalue]
    | none =>
      simp only [readNames, hbound, hvalue, List.forall_mem_append] at hread
      -- the call is walked without the router that its target held
      have herased : ∀ x ∈ callNames site inherits setup.scope pair.2,
          Agree (Assoc.erase name now.routers) setup.routers x := by
        intro x hx
        rw [Agree]
        by_cases hname : x = name
        · subst hname
          have hkept : x ∉ changedNames site package setup pair := fun hmem ↦ hown hvalue x hmem hx
          rw [Assoc.get?_erase_self, get?_eq_mount? package hbound hkept, hvalue]
        · rw [Assoc.get?_erase_ne hname]
          exact hread.2 x hx
      have htrace := hcall herased
      simp only [walkPair, valueTrace, setRouter, hbound, hmount hread.1, hvalue]
      exact Prod.ext rfl htrace

theorem walkPairs_eq (henter : EntersAlike enter inherits) {pairs : List (Expr × Expr)}
    (hscope : now.scope = setup.scope)
    (hread : ∀ p ∈ pairs, ∀ x ∈ readNames site package inherits setup p,
      Agree now.routers setup.routers x)
    (hpairs : Undisturbed site package inherits setup pairs) :
    walkPairs site package enter now pairs =
      ({ now with routers := setRouters site package setup now.routers pairs },
        pairs.flatMap (valueTrace site package enter setup)) := by
  -- the invariant is `hread`: what the pairs ahead read is as it was at the start
  induction pairs generalizing now with
  | nil => rfl
  | cons pair pairs ih =>
    obtain ⟨hlater, howns⟩ := hpairs
    rw [List.pairwise_cons] at hlater
    rw [List.forall_mem_cons] at hread howns
    let next : Setup :=
      { now with routers := setRouter now.routers pair.1 (mount? site package setup pair.2) }
    have hahead : ∀ p ∈ pairs, ∀ x ∈ readNames site package inherits setup p,
        Agree next.routers setup.routers x := by
      intro p hp x hx
      rw [Agree, get?_setRouter]
      split
      · rename_i hbound
        have hkept : x ∉ changedNames site package setup pair :=
          fun hmem ↦ hlater.1 p hp x hmem hx
        exact (get?_eq_mount? package hbound hkept).symm
      · exact hread.2 p hp x hx
    have hfirst : walkPair site package enter now pair.1 pair.2 =
        (next, valueTrace site package enter setup pair) :=
      walkPair_eq package henter hscope hread.1 howns.1
    have hrest := @ih next hscope hahead ⟨hlater.2, howns.2⟩
    simp only [walkPairs, hfirst, hrest]
    rfl

theorem walkStmt_assign_eq (henter : EntersAlike enter inherits) {targets values : List Expr}
    {define : Bool} (hlength : targets.length = values.length)
    (hpairs : Undisturbed site package inherits setup (targets.zip values)) :
    walkStmt site package enter setup (.assign targets values define) =
      let (after, trace) := walkTogether site package enter setup (targets.zip values)
      ({ after with scope := scopeAfter site setup.scope (.assign targets values define) },
        trace) := by
  have hwalk := walkPairs_eq package henter rfl (fun _ _ _ _ ↦ rfl) hpairs
  rw [walkStmt, walkTargets, if_pos hlength, hwalk]
  rfl

end Walk

/-- An assignment finds and sets the routers that it would if all its values were read before the
first target is set, when no pair changes a router that is still to be read. Its pairs may then
stand in any order of that kind. -/
theorem assignment_reads_routers_before (package : RouterPackage) (limit : ℕ)
    (active : List FuncRef) {site : Site} {setup : Setup} {targets values : List Expr}
    (define : Bool) (hlength : targets.length = values.length)
    (hpairs : Undisturbed site package (inherited site.project limit active) setup
      (targets.zip values)) :
    let enter := followSetup site.project package limit active
    let walk (targets values : List Expr) :=
      walkStmt site package enter setup (.assign targets values define)
    let together := walkTogether site package enter setup (targets.zip values)
    walk targets values =
      ({ together.1 with scope := scopeAfter site setup.scope (.assign targets values define) },
        together.2) ∧
    ((boundNames targets).Nodup → ∀ targets' values', targets'.length = values'.length →
      (targets.zip values).Perm (targets'.zip values') →
      Undisturbed site package (inherited site.project limit active) setup
        (targets'.zip values') →
      (walk targets values).2.Perm (walk targets' values').2 ∧
        ∀ name, Assoc.get? name (walk targets values).1.routers =
          Assoc.get? name (walk targets' values').1.routers) := by
  intro enter walk together
  have henter := entersAlike_followSetup site.project package limit active
  have hwalk : walk targets values = _ := walkStmt_assign_eq package henter hlength hpairs
  refine ⟨hwalk, fun hnodup targets' values' hlength' hperm hpairs' ↦ ?_⟩
  have hwalk' : walk targets' values' = _ := walkStmt_assign_eq package henter hlength' hpairs'
  rw [← List.map_fst_zip (Nat.le_of_eq hlength)] at hnodup
  rw [hwalk, hwalk']
  exact ⟨hperm.flatMap_right _, fun name ↦ get?_setRouters_perm package hperm hnodup⟩

/-- Code in which `main` makes the groups `a` and `b` of a router and swaps them, serves an item
from each, and hands the first on to `Mount`. -/
def swapProject : Project :=
  let func (name : String) (params : List Param) (results : List TypeExpr) (body : List Stmt) :
      FuncDecl :=
    ⟨name, none, params, results, body, ⟨0, 0, 0, 0, 0⟩, ⟨none, []⟩, none⟩
  let group : TypeExpr := .pointer (.name "gin.RouterGroup")
  let get (router path : String) : Stmt :=
    .eval (.call (.selector (.ident router) "GET") [.lit .string path, .ident "List"])
  let groupOf (router path : String) : Expr :=
    .call (.selector (.ident router) "Group") [.lit .string path]
  ⟨[⟨"main.go", "main", [⟨none, "github.com/gin-gonic/gin"⟩], [],
    [func "List" [⟨some "c", .pointer (.name "gin.Context")⟩] [] [],
     func "Mount" [⟨some "g", group⟩] [group] [get "g" "\"/list\"", .result [.ident "g"]],
     func "main" [] []
      [.assign [.ident "r"] [.call (.selector (.ident "gin") "New") []] true,
       .assign [.ident "a"] [groupOf "r" "\"/a\""] true,
       .assign [.ident "b"] [groupOf "r" "\"/b\""] true,
       .assign [.ident "a", .ident "b"] [.ident "b", .ident "a"] false,
       get "a" "\"/item\"", get "b" "\"/item\"",
       .assign [.ident "a"] [.call (.ident "Mount") [.ident "a"]] false]],
    [], "", false⟩]⟩

/-- A group is replaced by one of its own groups while `Mount` gets the other one, in either
order. -/
theorem assignment_reads_routers_before_mount :
    let site := Site.ofUnit swapProject 0
    let setup : Setup := ⟨[("a", "/a"), ("b", "/b")], .empty⟩
    let targets : List Expr := [.ident "a", .ident "v"]
    let values : List Expr := [.call (.selector (.ident "a") "Group") [.lit .string "\"/v1\""],
      .call (.ident "Mount") [.ident "b"]]
    let walk (targets values : List Expr) := walkStmt site .default
      (followSetup swapProject .default 32 [⟨0, 2⟩]) setup (.assign targets values true)
    let undisturbed (targets values : List Expr) := Undisturbed site .default
      (inherited swapProject 32 [⟨0, 2⟩]) setup (targets.zip values)
    (undisturbed targets values ∧ undisturbed targets.reverse values.reverse) ∧
    (Assoc.get? "a" (walk targets values).1.routers = some "/a/v1" ∧
      Trace.items (walk targets values).2 = [⟨"/b/list", "get", "/b", ⟨0, 0⟩⟩]) ∧
    (walk targets values).2.Perm (walk targets.reverse values.reverse).2 ∧
      ∀ name, Assoc.get? name (walk targets values).1.routers =
        Assoc.get? name (walk targets.reverse values.reverse).1.routers := by
  intro site setup targets values walk undisturbed
  have hpairs : undisturbed targets values := by decide +kernel
  have hpairs' : undisturbed targets.reverse values.reverse := by decide +kernel
  obtain ⟨hwalk, horder⟩ := @assignment_reads_routers_before .default 32 [⟨0, 2⟩] site setup
    targets values true rfl hpairs
  refine ⟨⟨hpairs, hpairs'⟩, ?_, ?_⟩
  · rw [show walk targets values = _ from hwalk]
    decide +kernel
  · exact horder (by decide) _ _ rfl (List.Perm.swap _ _ []) hpairs'

/-- After the swap both groups serve under one path, and a call finds nothing in a router that its
own result replaces. -/
theorem later_value_reads_replaced_router :
    let site := Site.ofUnit swapProject 0
    let enter := followSetup swapProject .default 32 [⟨0, 2⟩]
    let setup : Setup := ⟨[("a", "/a"), ("b", "/b")], .empty⟩
    let swap : List Expr × List Expr := ([.ident "a", .ident "b"], [.ident "b", .ident "a"])
    let mount : List Expr × List Expr := ([.ident "a"], [.call (.ident "Mount") [.ident "a"]])
    let walk (s : List Expr × List Expr) :=
      walkStmt site .default enter setup (.assign s.1 s.2 false)
    let together (s : List Expr × List Expr) :=
      walkTogether site .default enter setup (s.1.zip s.2)
    ((walk swap).1.routers = [("a", "/b"), ("b", "/b")] ∧
      (together swap).1.routers = [("a", "/b"), ("b", "/a")]) ∧
    (Trace.items (walk mount).2 = [] ∧
      Trace.items (together mount).2 = [⟨"/a/list", "get", "/a", ⟨0, 0⟩⟩]) ∧
    routes swapProject {} = [⟨"/b/item", "get", "/b", ⟨0, 0⟩⟩] := by
  decide +kernel

end HandlerDocs.Routing
