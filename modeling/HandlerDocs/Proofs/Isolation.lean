import HandlerDocs.Proofs.Descent
import HandlerDocs.Routing.Setup

namespace HandlerDocs

def Scope.known (scope : Scope) (name : String) : Option Shape × Option ParamSource :=
  (scope.get? name, scope.source? name)

namespace Scope

variable {scope : Scope} {name other : String}

@[simp] theorem known_bind_ne (h : other ≠ name) (shape : Shape) :
    (scope.bind name shape).known other = scope.known other := by
  rw [bind]
  split
  · rfl
  · exact Prod.ext (Assoc.get?_put_ne h ..) rfl

@[simp] theorem known_setSource_ne (h : other ≠ name) (source : Option ParamSource) :
    (scope.setSource name source).known other = scope.known other := by
  rw [setSource.eq_def]
  split
  · split
    · exact Prod.ext rfl (Assoc.get?_erase_ne h _)
    · exact Prod.ext rfl (Assoc.get?_put_ne h ..)
  · exact Prod.ext rfl (Assoc.get?_erase_ne h _)

@[simp] theorem known_modify_ne (h : other ≠ name) (f : Shape → Shape) :
    (scope.modify name f).known other = scope.known other := by
  rw [modify]
  split
  · exact Prod.ext (Assoc.get?_put_ne h ..) rfl
  · rfl

end Scope

namespace Flow

open Code

def rootOf? (target : Expr) : Option String :=
  (chain? target).map (·.1)

/-- The variables that a statement assigns or declares, or of which it writes a field. -/
def writes : Stmt → List String
  | .assign targets _ _ => targets.filterMap rootOf?
  | .declare specs => specs.flatMap (·.names)
  | _ => []

def binds : Stmt → Bool
  | .assign _ _ _ => true
  | .declare _ => true
  | _ => false

section Assign

variable (site : Site) {scope : Scope} {name : String}

theorem known_assignField {target : Expr} (h : rootOf? target ≠ some name) (value : Shape) :
    (assignField site scope target value).known name = scope.known name := by
  rw [assignField]
  split
  · rfl
  · split
    · rfl
    · rename_i root names hchain
      have hne : name ≠ root := by
        rintro rfl
        exact h (by rw [rootOf?, hchain]; rfl)
      split
      · rfl
      · exact Scope.known_modify_ne hne _

theorem known_assignTarget {target : Expr} (h : rootOf? target ≠ some name) (value : Shape) :
    (assignTarget site scope target value).known name = scope.known name := by
  rw [assignTarget.eq_def]
  split
  · rename_i other
    have hne : name ≠ other := fun heq ↦ h (congrArg some heq.symm)
    exact Scope.known_bind_ne hne value
  · exact known_assignField site h value
  · rfl

theorem known_assignSource {targets : List Expr} (h : name ∉ targets.filterMap rootOf?)
    (values : List Expr) :
    (assignSource site scope targets values).known name = scope.known name := by
  rw [assignSource]
  split
  · rename_i other value hhead _
    have hne : name ≠ other := by
      rintro rfl
      exact h (List.mem_filterMap.2 ⟨_, List.mem_of_head? hhead, rfl⟩)
    exact Scope.known_setSource_ne hne _
  · rfl

/-- An assignment changes the variables of its targets only. -/
theorem known_assign {targets : List Expr} (h : name ∉ targets.filterMap rootOf?)
    (values : List Expr) (shapes : List Shape) :
    (assign site scope targets values shapes).known name = scope.known name := by
  have htargets : ∀ p ∈ targets.zip shapes, rootOf? p.1 ≠ some name := fun p hp hroot ↦
    h (List.mem_filterMap.2 ⟨p.1, (List.of_mem_zip hp).1, hroot⟩)
  refine Eq.trans ?_ (known_assignSource site h values)
  rw [assign]
  generalize assignSource site scope targets values = start
  generalize targets.zip shapes = pairs at htargets
  induction pairs generalizing start with
  | nil => rfl
  | cons p pairs ih =>
    rw [List.foldl_cons, ih _ fun q hq ↦ htargets q (List.mem_cons_of_mem _ hq)]
    exact known_assignTarget site (htargets p List.mem_cons_self) p.2

theorem known_declareZero {names : List String} (h : name ∉ names) (type : Option TypeExpr) :
    (declareZero scope names type).known name = scope.known name := by
  rw [declareZero]
  induction names generalizing scope with
  | nil => rfl
  | cons other names ih =>
    rw [List.mem_cons, not_or] at h
    rw [List.foldl_cons, ih h.2, Scope.known_bind_ne h.1]

end Assign

section Eval

variable (site : Site) (enter : FuncRef → Scope → Trace Fact)

theorem filterMap_rootOf?_ident (names : List String) :
    (names.map Expr.ident).filterMap rootOf? = names := by
  rw [List.filterMap_map]
  exact List.filterMap_some

theorem known_evalSpecs {scope : Scope} {name : String} {specs : List ValueSpec}
    (h : name ∉ specs.flatMap (·.names)) :
    (evalSpecs site enter scope specs).scope.known name = scope.known name := by
  induction specs generalizing scope with
  | nil => simp only [evalSpecs]
  | cons spec specs ih =>
    obtain ⟨names, type, values⟩ := spec
    rw [List.flatMap_cons, List.mem_append, not_or] at h
    simp only [evalSpecs]
    rw [ih h.2]
    split
    · exact known_declareZero h.1 type
    · exact known_assign site (by rw [filterMap_rootOf?_ident]; exact h.1) _ _

/-- A statement changes the variables that it writes only. -/
theorem known_evalStmt {scope : Scope} {name : String} {s : Stmt} (h : name ∉ writes s) :
    (evalStmt site enter scope s).scope.known name = scope.known name := by
  cases s with
  | assign targets values define =>
    simp only [evalStmt]
    exact known_assign site h _ _
  | declare specs =>
    simp only [evalStmt]
    exact known_evalSpecs site enter h
  | _ => simp only [evalStmt]

theorem scope_evalStmt (scope : Scope) {s : Stmt} (h : binds s = false) :
    (evalStmt site enter scope s).scope = scope := by
  cases s with
  | assign => cases h
  | declare => cases h
  | _ => simp only [evalStmt]

theorem evalBlocks_eq_flatMap (scope : Scope) (bodies : List (List Stmt)) :
    evalBlocks site enter scope bodies = bodies.flatMap (evalBlock site enter scope) := by
  induction bodies with
  | nil => simp only [evalBlocks, List.flatMap_nil]
  | cons body bodies ih => simp only [evalBlocks, List.flatMap_cons, ih]

end Eval

end Flow

namespace Routing

open Code HandlerDocs.Flow

variable (site : Site) (package : RouterPackage) (enter : FuncRef → Routers → Trace Route)
  {setup : Setup} {name : String}

theorem rootOf?_of_boundName? {target : Expr} {bound : String}
    (h : boundName? target = some bound) : rootOf? target = some bound := by
  cases target with
  | ident other =>
    rw [boundName?] at h
    split at h
    · cases h
    · exact h
  | _ => cases h

theorem get?_walkPair {target : Expr} (h : rootOf? target ≠ some name) (value : Expr) :
    Assoc.get? name (walkPair site package enter setup target value).1.routers =
      Assoc.get? name setup.routers := by
  have hne {bound : String} (hbound : boundName? target = some bound) : name ≠ bound := by
    rintro rfl
    exact h (rootOf?_of_boundName? hbound)
  rw [walkPair]
  split
  · rfl
  · rename_i hbound _
    exact Assoc.get?_put_ne (hne hbound) ..
  · rename_i hbound _
    exact Assoc.get?_erase_ne (hne hbound) _

theorem get?_walkPairs {pairs : List (Expr × Expr)} (h : ∀ p ∈ pairs, rootOf? p.1 ≠ some name) :
    Assoc.get? name (walkPairs site package enter setup pairs).1.routers =
      Assoc.get? name setup.routers := by
  induction pairs generalizing setup with
  | nil => rfl
  | cons p pairs ih =>
    simp only [walkPairs]
    rw [ih fun q hq ↦ h q (List.mem_cons_of_mem _ hq)]
    exact get?_walkPair site package enter (h p List.mem_cons_self) p.2

theorem get?_forget {names : List String} (h : name ∉ names) :
    Assoc.get? name (forget setup names).routers = Assoc.get? name setup.routers := by
  rw [forget]
  generalize setup.routers = routers
  induction names generalizing routers with
  | nil => rfl
  | cons other names ih =>
    rw [List.mem_cons, not_or] at h
    exact (ih h.2 _).trans (Assoc.get?_erase_ne h.1 _)

theorem get?_walkTargets {targets : List Expr} (h : name ∉ targets.filterMap rootOf?)
    (values : List Expr) :
    Assoc.get? name (walkTargets site package enter setup targets values).1.routers =
      Assoc.get? name setup.routers := by
  rw [walkTargets]
  split
  · refine get?_walkPairs site package enter fun p hp hroot ↦ h ?_
    exact List.mem_filterMap.2 ⟨p.1, (List.of_mem_zip hp).1, hroot⟩
  · refine get?_forget fun hname ↦ h ?_
    obtain ⟨target, htarget, hident⟩ := List.mem_filterMap.1 hname
    cases target with
    | ident other => exact List.mem_filterMap.2 ⟨_, htarget, hident⟩
    | _ => cases hident

theorem get?_walkSpecs {specs : List ValueSpec} (h : name ∉ specs.flatMap (·.names)) :
    Assoc.get? name (walkSpecs site package enter setup specs).1.routers =
      Assoc.get? name setup.routers := by
  induction specs generalizing setup with
  | nil => rfl
  | cons spec specs ih =>
    rw [List.flatMap_cons, List.mem_append, not_or] at h
    simp only [walkSpecs]
    rw [ih h.2]
    split
    · exact get?_forget h.1
    · exact get?_walkTargets site package enter (by rw [filterMap_rootOf?_ident]; exact h.1) _

theorem get?_walkStmt {s : Stmt} (h : name ∉ writes s) :
    Assoc.get? name (walkStmt site package enter setup s).1.routers =
      Assoc.get? name setup.routers := by
  cases s with
  | assign targets values define =>
    simp only [walkStmt]
    exact get?_walkTargets site package enter h values
  | declare specs =>
    simp only [walkStmt]
    exact get?_walkSpecs site package enter h
  | _ => simp only [walkStmt]

theorem known_walkStmt {s : Stmt} (h : name ∉ writes s) :
    (walkStmt site package enter setup s).1.scope.known name = setup.scope.known name := by
  cases s with
  | assign targets values define =>
    simp only [walkStmt]
    exact known_evalStmt site _ h
  | declare specs =>
    simp only [walkStmt]
    exact known_evalStmt site _ h
  | _ => simp only [walkStmt]

theorem fst_walkStmt (setup : Setup) {s : Stmt} (h : binds s = false) :
    (walkStmt site package enter setup s).1 = setup := by
  cases s with
  | assign => cases h
  | declare => cases h
  | _ => simp only [walkStmt]

end Routing

namespace Flow

open Code HandlerDocs.Routing

def factsOfBodies (site : Site) (enter : FuncRef → Scope → Trace Fact) (scope : Scope)
    (init : Option Stmt) (bodies : List (List Stmt)) : List (List Fact) :=
  bodies.map fun body ↦ Trace.items (evalBlock site enter (evalInit site enter scope init).1 body)

theorem items_scoped (site : Site) (enter : FuncRef → Scope → Trace Fact) (scope : Scope)
    (init : Option Stmt) (bodies : List (List Stmt)) :
    Trace.items (evalStmt site enter scope (.scoped init bodies)).trace =
      Trace.items (evalInit site enter scope init).2 ++
        (factsOfBodies site enter scope init bodies).flatten := by
  simp only [evalStmt, Trace.items_append, evalBlocks_eq_flatMap, Trace.items_flatMap,
    factsOfBodies]

/-- Branches, loops, calls and all other statements but assignments and declarations leave every
variable as it was, for what follows too, whether they are evaluated or walked for routes. An
assignment or declaration changes no variable but those that it assigns or declares, or of which it
writes a field. The bodies of a statement do not see each other: in another order they show the same
facts, each its own. -/
theorem only_assignments_change_variables (site : Site) (package : RouterPackage)
    (enter : FuncRef → Scope → Trace Fact) (enterSetup : FuncRef → Routers → Trace Route)
    (setup : Setup) :
    (∀ s, binds s = false →
      (evalStmt site enter setup.scope s).scope = setup.scope ∧
      (walkStmt site package enterSetup setup s).1 = setup ∧
      ∀ rest, evalBlock site enter setup.scope (s :: rest) =
          (evalStmt site enter setup.scope s).trace ++ evalBlock site enter setup.scope rest ∧
        walkBlock site package enterSetup setup (s :: rest) =
          (walkStmt site package enterSetup setup s).2 ++
            walkBlock site package enterSetup setup rest) ∧
    (∀ s, ∀ name ∉ writes s,
      (evalStmt site enter setup.scope s).scope.known name = setup.scope.known name ∧
      (walkStmt site package enterSetup setup s).1.scope.known name = setup.scope.known name ∧
      Assoc.get? name (walkStmt site package enterSetup setup s).1.routers =
        Assoc.get? name setup.routers) ∧
    ∀ init bodies bodies', bodies.Perm bodies' →
      Trace.items (evalStmt site enter setup.scope (.scoped init bodies)).trace =
        Trace.items (evalInit site enter setup.scope init).2 ++
          (factsOfBodies site enter setup.scope init bodies).flatten ∧
      Trace.items (evalStmt site enter setup.scope (.scoped init bodies')).trace =
        Trace.items (evalInit site enter setup.scope init).2 ++
          (factsOfBodies site enter setup.scope init bodies').flatten ∧
      (factsOfBodies site enter setup.scope init bodies).Perm
        (factsOfBodies site enter setup.scope init bodies') := by
  refine ⟨fun s hs ↦ ?_, fun s name hname ↦ ?_, fun init bodies bodies' hperm ↦ ?_⟩
  · have hscope := scope_evalStmt site enter setup.scope hs
    have hsetup := fst_walkStmt site package enterSetup setup hs
    refine ⟨hscope, hsetup, fun rest ↦ ⟨?_, ?_⟩⟩
    · rw [evalBlock, hscope]
    · rw [walkBlock, hsetup]
  · exact ⟨known_evalStmt site enter hname, known_walkStmt site package enterSetup hname,
      get?_walkStmt site package enterSetup hname⟩
  · exact ⟨items_scoped .., items_scoped .., hperm.map _⟩

/-- One clause of a switch gives `x` another type, which neither the other clause nor the code after
the switch sees. -/
theorem only_assignments_change_variables_switch :
    let site : Site := ⟨⟨[]⟩, 0, "main", "main"⟩
    let scope : Scope := ⟨[("c", .named "*gin.Context"), ("x", .named "int")], []⟩
    let reply (status : String) : Stmt :=
      .eval (.call (.selector (.ident "c") "JSON") [.lit .int status, .ident "x"])
    let write : Stmt := .assign [.ident "x"] [.lit .string "\"a\""] false
    let facts (bodies : List (List Stmt)) := factsOfBodies site (fun _ _ ↦ []) scope none bodies
    let switch : Stmt := .scoped none [[write, reply "200"], [reply "404"]]
    facts [[write, reply "200"], [reply "404"]] =
      [[.produce "json", .response 200 (.named "string")],
       [.produce "json", .response 404 (.named "int")]] ∧
    (facts [[reply "404"], [write, reply "200"]]).Perm
      (facts [[write, reply "200"], [reply "404"]]) ∧
    binds switch = false ∧ (evalStmt site (fun _ _ ↦ []) scope switch).scope = scope ∧
    "c" ∉ writes write ∧
      (evalStmt site (fun _ _ ↦ []) scope write).scope.known "c" = scope.known "c" := by
  intro site scope reply write facts switch
  obtain ⟨hkeep, hframe, hperm⟩ := only_assignments_change_variables site .default
    (fun _ _ ↦ []) (fun _ _ ↦ []) ⟨[], scope⟩
  have hswap := hperm none _ _ (List.Perm.swap [write, reply "200"] [reply "404"] [])
  exact ⟨by decide +kernel, hswap.2.2, rfl, (hkeep switch rfl).1, by decide,
    (hframe write "c" (by decide)).1⟩

end Flow

end HandlerDocs
