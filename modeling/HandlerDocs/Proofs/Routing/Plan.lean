import HandlerDocs.Proofs.Flow.Plan
import HandlerDocs.Routing.Discovery

namespace HandlerDocs.Routing

open Code

section Independent

variable (site : Site) (package : RouterPackage) (enter enter' : FuncRef → Routers → Trace Route)

theorem fst_walkPair_congr (setup : Setup) (target value : Expr) :
    (walkPair site package enter setup target value).1 =
      (walkPair site package enter' setup target value).1 := by
  rw [walkPair, walkPair]
  split <;> rfl

theorem fst_walkPairs_congr (setup : Setup) (pairs : List (Expr × Expr)) :
    (walkPairs site package enter setup pairs).1 =
      (walkPairs site package enter' setup pairs).1 := by
  induction pairs generalizing setup with
  | nil => rfl
  | cons pair pairs ih =>
    simp only [walkPairs]
    rw [fst_walkPair_congr site package enter enter']
    exact ih _

theorem fst_walkTargets_congr (setup : Setup) (targets values : List Expr) :
    (walkTargets site package enter setup targets values).1 =
      (walkTargets site package enter' setup targets values).1 := by
  rw [walkTargets, walkTargets]
  split
  · exact fst_walkPairs_congr ..
  · rfl

theorem fst_walkSpecs_congr (setup : Setup) (specs : List ValueSpec) :
    (walkSpecs site package enter setup specs).1 =
      (walkSpecs site package enter' setup specs).1 := by
  induction specs generalizing setup with
  | nil => rfl
  | cons spec specs ih =>
    simp only [walkSpecs]
    split
    · exact ih _
    · rw [fst_walkTargets_congr site package enter enter']
      exact ih _

/-- Where helpers lead has no influence on the routers and the scope after a statement. -/
theorem fst_walkStmt_congr (setup : Setup) (s : Stmt) :
    (walkStmt site package enter setup s).1 = (walkStmt site package enter' setup s).1 := by
  cases s with
  | assign targets values define =>
    simp only [walkStmt]
    rw [fst_walkTargets_congr site package enter enter']
  | declare specs =>
    simp only [walkStmt]
    rw [fst_walkSpecs_congr site package enter enter']
  | _ => simp only [walkStmt]

theorem fst_walkInit_congr (setup : Setup) (init : Option Stmt) :
    (walkInit site package enter setup init).1 = (walkInit site package enter' setup init).1 := by
  cases init with
  | none => simp only [walkInit]
  | some s =>
    simp only [walkInit]
    exact fst_walkStmt_congr ..

end Independent

section Plan

variable (site : Site) (package : RouterPackage)

theorem planned_walkHelper (setup : Setup) (fn : Expr) (args : List Expr) :
    Trace.Planned site.project.functions 1 fun enter ↦
      walkHelper site package enter setup fn args := by
  simp only [walkHelper]
  split
  · exact Trace.Planned.nil.weaken (Nat.zero_le 1)
  · cases hcallee : Flow.calleeOf? site setup.scope fn with
    | none => exact Trace.Planned.nil.weaken (Nat.zero_le 1)
    | some found => exact .enter (Flow.mem_functions_of_calleeOf? hcallee) _

theorem planned_walkCall (setup : Setup) (e : Expr) :
    Trace.Planned site.project.functions 1 fun enter ↦ walkCall site package enter setup e := by
  cases e with
  | call fn args =>
    cases fn with
    | selector receiver method =>
      simp only [walkCall]
      cases mount? site package setup receiver with
      | none => exact planned_walkHelper ..
      | some base => exact (Trace.Planned.ofItems _).weaken (Nat.zero_le 1)
    | _ =>
      simp only [walkCall]
      exact planned_walkHelper ..
  | _ => exact Trace.Planned.nil.weaken (Nat.zero_le 1)

theorem planned_walkPair (setup : Setup) (target value : Expr) :
    Trace.Planned site.project.functions 1 fun enter ↦
      (walkPair site package enter setup target value).2 := by
  simp only [walkPair]
  cases Flow.boundName? target with
  | none => exact planned_walkCall ..
  | some name =>
    cases mount? site package setup value with
    | none => exact planned_walkCall ..
    | some mount => exact Trace.Planned.nil.weaken (Nat.zero_le 1)

theorem planned_walkPairs (setup : Setup) (pairs : List (Expr × Expr)) :
    Trace.Planned site.project.functions pairs.length fun enter ↦
      (walkPairs site package enter setup pairs).2 := by
  induction pairs generalizing setup with
  | nil => exact .nil
  | cons pair pairs ih =>
    simp only [walkPairs, fst_walkPair_congr site package _ fun _ _ ↦ []]
    exact ((planned_walkPair ..).append (ih _)).weaken (by rw [List.length_cons]; omega)

theorem length_le_partsOfList (es : List Expr) : es.length ≤ (partsOfList es).length := by
  induction es with
  | nil => exact Nat.zero_le _
  | cons e es ih =>
    have hpos := Flow.length_parts_pos e
    simp only [partsOfList, List.length_cons, List.length_append]
    omega

theorem planned_walkTargets (setup : Setup) (targets values : List Expr) :
    Trace.Planned site.project.functions (partsOfList values).length fun enter ↦
      (walkTargets site package enter setup targets values).2 := by
  simp only [walkTargets]
  split
  · refine (planned_walkPairs ..).weaken ?_
    rw [List.length_zip]
    exact (Nat.min_le_right _ _).trans (length_le_partsOfList values)
  · exact Trace.Planned.nil.weaken (Nat.zero_le _)

theorem planned_walkSpecs (setup : Setup) (specs : List ValueSpec) :
    Trace.Planned site.project.functions (partsOfSpecs specs).length fun enter ↦
      (walkSpecs site package enter setup specs).2 := by
  induction specs generalizing setup with
  | nil => exact .nil
  | cons spec specs ih =>
    simp only [walkSpecs, partsOfSpecs, List.length_append]
    split
    · exact (ih _).weaken (Nat.le_add_left _ _)
    · simp only [fst_walkTargets_congr site package _ fun _ _ ↦ []]
      exact (planned_walkTargets ..).append (ih _)

mutual

theorem planned_walkStmt (setup : Setup) : (s : Stmt) → Trace.Planned site.project.functions
    s.parts.length fun enter ↦ (walkStmt site package enter setup s).2
  | .assign targets values _ => by
    simp only [walkStmt, Stmt.parts, List.length_append]
    exact (planned_walkTargets ..).weaken (Nat.le_add_left _ _)
  | .declare specs => by
    simp only [walkStmt, Stmt.parts]
    exact planned_walkSpecs ..
  | .eval e => by
    simp only [walkStmt, Stmt.parts]
    exact (planned_walkCall ..).weaken (Flow.length_parts_pos e)
  | .branch init body otherwise => by
    simp only [walkStmt, Stmt.parts, List.length_append,
      fst_walkInit_congr site package _ (fun _ _ ↦ []) setup]
    exact ((planned_walkInit setup init).append (planned_walkBlock _ body)).append
      (planned_walkInit _ otherwise)
  | .block body => by
    simp only [walkStmt, Stmt.parts]
    exact planned_walkBlock setup body
  | .scoped init bodies => by
    simp only [walkStmt, Stmt.parts, List.length_append,
      fst_walkInit_congr site package _ (fun _ _ ↦ []) setup]
    exact (planned_walkInit setup init).append (planned_walkBlocks _ bodies)
  | .result _ | .deferred _ | .other _ => by
    simp only [walkStmt]
    exact Trace.Planned.nil.weaken (Nat.zero_le _)

theorem planned_walkInit (setup : Setup) : (init : Option Stmt) →
    Trace.Planned site.project.functions (partsOfOption init).length fun enter ↦
      (walkInit site package enter setup init).2
  | none => by
    simp only [walkInit]
    exact .nil
  | some s => by
    simp only [walkInit, partsOfOption]
    exact planned_walkStmt setup s

theorem planned_walkBlock (setup : Setup) : (body : List Stmt) →
    Trace.Planned site.project.functions (partsOfBlock body).length fun enter ↦
      walkBlock site package enter setup body
  | [] => by
    simp only [walkBlock]
    exact .nil
  | s :: body => by
    simp only [walkBlock, partsOfBlock, List.length_append,
      fst_walkStmt_congr site package _ (fun _ _ ↦ []) setup]
    exact (planned_walkStmt setup s).append (planned_walkBlock _ body)

theorem planned_walkBlocks (setup : Setup) : (bodies : List (List Stmt)) →
    Trace.Planned site.project.functions (partsOfBlocks bodies).length fun enter ↦
      walkBlocks site package enter setup bodies
  | [] => by
    simp only [walkBlocks]
    exact .nil
  | body :: bodies => by
    simp only [walkBlocks, partsOfBlocks, List.length_append]
    exact (planned_walkBlock setup body).append (planned_walkBlocks setup bodies)

end

end Plan

def setupBody (project : Project) (package : RouterPackage) (f : FuncRef) (routers : Routers) :
    Trace.Walk Route Routers := fun enter ↦
  walkBlock (Site.ofUnit project f.unit) package enter ⟨routers, Site.entryScope project f⟩
    (((project.function? f).map (·.body)).getD [])

theorem followSetup_eq_descend (project : Project) (package : RouterPackage) :
    followSetup project package = Trace.descend (setupBody project package) := by
  funext limit
  induction limit with
  | zero => rfl
  | succ limit ih =>
    funext active f routers
    rw [followSetup, Trace.descend, setupBody, ih]

theorem bodies_setupBody (project : Project) (package : RouterPackage) :
    Trace.Bodies project.functions project.longestBody (setupBody project package) := by
  have houtside (f : FuncRef) (routers : Routers) (hf : f ∉ project.functions) :
      setupBody project package f routers = fun _ ↦ [] := by
    funext enter
    rw [setupBody, Project.function?_eq_none hf]
    simp [walkBlock]
  refine ⟨fun f routers ↦ ?_, houtside⟩
  by_cases hf : f ∈ project.functions
  · exact (planned_walkBlock (Site.ofUnit project f.unit) package _ _).weaken
      (Project.bodySize_le_longestBody hf)
  · rw [houtside f routers hf]
    exact Trace.Planned.nil.weaken (Nat.zero_le _)

theorem setupTrace_eq_descend (project : Project) (package : RouterPackage) (limit : ℕ)
    (f : FuncRef) : setupTrace project package limit f =
      Trace.descend (setupBody project package) (limit + 1) [] f [] := by
  rw [setupTrace, followSetup_eq_descend]

end HandlerDocs.Routing
