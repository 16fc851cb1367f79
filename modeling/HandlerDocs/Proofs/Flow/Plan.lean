import HandlerDocs.Flow.Handler
import HandlerDocs.Proofs.Descent
import HandlerDocs.Proofs.Flow.Values
import HandlerDocs.Proofs.Project.Describe

namespace HandlerDocs

namespace Project

theorem mem_functions {p : Project} {f : FuncRef} :
    f ∈ p.functions ↔ (p.function? f).isSome := by
  obtain ⟨unit, index⟩ := f
  rw [functions, function?, unit?]
  cases hunit : p.units[unit]? with
  | none => simp [List.mk_mem_zipIdx_iff_getElem?, hunit]
  | some file => simp [List.mk_mem_zipIdx_iff_getElem?, hunit]

theorem mem_functions_of_methodNamed? {p : Project} {package receiver name : String} {f : FuncRef}
    (h : p.methodNamed? package receiver name = some f) : f ∈ p.functions := by
  obtain ⟨⟨file, unit⟩, hfile, hf⟩ := List.exists_of_findSome?_eq_some h
  obtain ⟨index, hindex, rfl⟩ := Option.map_eq_some_iff.1 hf
  have hunit : p.units[unit]? = some file :=
    List.mem_zipIdx_iff_getElem?.1 (List.mem_of_mem_filter hfile)
  have hlt : index < file.functions.length := (List.findIdx?_eq_some_iff_findIdx_eq.1 hindex).1
  rw [mem_functions, function?, unit?, hunit]
  simpa using hlt

def bodySize (p : Project) (f : FuncRef) : ℕ :=
  (Code.partsOfBlock (((p.function? f).map (·.body)).getD [])).length

def longestBody (p : Project) : ℕ :=
  p.functions.toFinset.sup p.bodySize

theorem bodySize_le_longestBody {p : Project} {f : FuncRef} (h : f ∈ p.functions) :
    p.bodySize f ≤ p.longestBody :=
  Finset.le_sup (f := p.bodySize) (List.mem_toFinset.2 h)

theorem function?_eq_none {p : Project} {f : FuncRef} (h : f ∉ p.functions) :
    p.function? f = none := by
  rwa [mem_functions, Option.not_isSome_iff_eq_none] at h

end Project

namespace Flow

open Code

theorem mem_functions_of_calleeOf? {site : Site} {scope : Scope} {fn : Expr} {f : FuncRef}
    {receiver : Option Shape} (h : calleeOf? site scope fn = some (f, receiver)) :
    f ∈ site.project.functions := by
  rcases calleeOf?_cases h with ⟨-, _, _, hhead⟩ | ⟨_, _, _, -, -, hmethod⟩
  · exact Project.mem_functions.2 (Project.isSome_function?_of_mem (List.mem_of_head? hhead))
  · rw [Site.method?] at hmethod
    exact Project.mem_functions_of_methodNamed? hmethod

theorem length_parts_pos (e : Expr) : 0 < e.parts.length := by
  cases e <;> simp [Expr.parts]

/-- The arguments of a call are evaluated before it. -/
theorem planned_call {functions : List FuncRef} {fn : Expr} {args : List Expr}
    {before after : Trace.Walk Fact Scope}
    (hargs : Trace.Planned functions (partsOfList args).length before)
    (hfn : Trace.Planned functions fn.parts.length after) :
    Trace.Planned functions (Expr.call fn args).parts.length fun enter ↦
      before enter ++ after enter := by
  refine (hargs.append hfn).weaken ?_
  simp only [Expr.parts, List.length_cons, List.length_append]
  omega

section Plan

variable (site : Site)

theorem exists_trace_knownCall? {site : Site} {scope : Scope} {fn : Expr} {args : List Expr}
    {outcome : Outcome} (h : knownCall? site scope fn args = some outcome) :
    ∃ facts, outcome.trace = found site facts := by
  cases fn with
  | selector operand method =>
    simp only [knownCall?] at h
    split at h
    · exact ⟨_, congrArg Outcome.trace (Option.some.inj h).symm⟩
    · obtain ⟨types, -, rfl⟩ := Option.map_eq_some_iff.1 h
      exact ⟨_, rfl⟩
  | _ => cases h

theorem planned_callNamed (scope : Scope) (fn : Expr) (args : List Expr) :
    Trace.Planned site.project.functions 1 fun enter ↦
      (callNamed site enter scope fn args).trace := by
  simp only [callNamed]
  cases hknown : knownCall? site scope fn args with
  | some outcome =>
    obtain ⟨facts, hfacts⟩ := exists_trace_knownCall? hknown
    simp only [hfacts]
    exact (Trace.Planned.ofItems _).weaken (Nat.zero_le 1)
  | none =>
    cases hcallee : calleeOf? site scope fn with
    | some found => exact .enter (mem_functions_of_calleeOf? hcallee) _
    | none => exact Trace.Planned.nil.weaken (Nat.zero_le 1)

mutual

theorem planned_evalExpr (scope : Scope) : (e : Expr) → Trace.Planned site.project.functions
    e.parts.length fun enter ↦ (evalExpr site enter scope e).2
  | .call fn args => by
    simp only [evalExpr]
    exact planned_call (planned_evalArgs scope args) (planned_evalCallee scope args fn)
  | .unary .address operand => by
    simp only [evalExpr, Expr.parts]
    exact (planned_evalExpr scope operand).weaken (Nat.le_succ _)
  | .unary .plus operand | .unary .minus operand | .unary .not operand
  | .unary .complement operand | .unary .deref operand | .unary .receive operand
  | .ident _ | .lit _ _ | .selector _ _ | .composite _ _ | .assertion _ _ | .funcLit _ _
  | .type _ | .other _ => by
    simp only [evalExpr]
    exact Trace.Planned.nil.weaken (Nat.zero_le _)

theorem planned_evalSpread (scope : Scope) (count : ℕ) : (e : Expr) →
    Trace.Planned site.project.functions e.parts.length fun enter ↦
      (evalSpread site enter scope count e).2
  | .call fn args => by
    simp only [evalSpread]
    exact planned_call (planned_evalArgs scope args) (planned_evalCallee scope args fn)
  | .unary _ _ | .ident _ | .lit _ _ | .selector _ _ | .composite _ _ | .assertion _ _
  | .funcLit _ _ | .type _ | .other _ => by
    simp only [evalSpread]
    exact Trace.Planned.nil.weaken (Nat.zero_le _)

theorem planned_evalCallee (scope : Scope) (args : List Expr) : (fn : Expr) →
    Trace.Planned site.project.functions fn.parts.length fun enter ↦
      (evalCallee site enter scope args fn).trace
  | .funcLit params body => by
    simp only [evalCallee, Expr.parts]
    exact (planned_evalBlock _ body).weaken (Nat.le_succ _)
  | .call _ _ | .unary _ _ | .ident _ | .lit _ _ | .selector _ _ | .composite _ _
  | .assertion _ _ | .type _ | .other _ => by
    simp only [evalCallee]
    exact (planned_callNamed site scope _ args).weaken (length_parts_pos _)

theorem planned_evalArg (scope : Scope) : (e : Expr) → Trace.Planned site.project.functions
    e.parts.length fun enter ↦ evalArg site enter scope e
  | .unary .address operand => by
    simp only [evalArg, Expr.parts]
    exact (planned_evalArg scope operand).weaken (Nat.le_succ _)
  | .call fn args => by
    simp only [evalArg]
    exact planned_call (planned_evalArgs scope args) (planned_evalCallee scope args fn)
  | .funcLit params body => by
    simp only [evalArg, Expr.parts]
    exact (planned_evalBlock _ body).weaken (Nat.le_succ _)
  | .unary .plus operand | .unary .minus operand | .unary .not operand
  | .unary .complement operand | .unary .deref operand | .unary .receive operand
  | .ident _ | .lit _ _ | .selector _ _ | .composite _ _ | .assertion _ _ | .type _ | .other _ => by
    simp only [evalArg]
    exact Trace.Planned.nil.weaken (Nat.zero_le _)

theorem planned_evalArgs (scope : Scope) : (es : List Expr) →
    Trace.Planned site.project.functions (partsOfList es).length fun enter ↦
      evalArgs site enter scope es
  | [] => by
    simp only [evalArgs]
    exact .nil
  | e :: es => by
    simp only [evalArgs, partsOfList, List.length_append]
    exact (planned_evalArg scope e).append (planned_evalArgs scope es)

theorem planned_evalEach (scope : Scope) : (es : List Expr) →
    Trace.Planned site.project.functions (partsOfList es).length fun enter ↦
      (evalEach site enter scope es).2
  | [] => by
    simp only [evalEach]
    exact .nil
  | e :: es => by
    simp only [evalEach, partsOfList, List.length_append]
    exact (planned_evalExpr scope e).append (planned_evalEach scope es)

theorem planned_evalValues (scope : Scope) (count : ℕ) : (es : List Expr) →
    Trace.Planned site.project.functions (partsOfList es).length fun enter ↦
      (evalValues site enter scope count es).2
  | [] => by
    simp only [evalValues]
    exact .nil
  | e :: es => by
    simp only [evalValues, partsOfList, List.length_append]
    split
    · exact (planned_evalSpread scope count e).weaken (Nat.le_add_right _ _)
    · exact (planned_evalExpr scope e).append (planned_evalEach scope es)

theorem planned_evalSpecs (scope : Scope) : (specs : List ValueSpec) →
    Trace.Planned site.project.functions (partsOfSpecs specs).length fun enter ↦
      (evalSpecs site enter scope specs).trace
  | [] => by
    simp only [evalSpecs]
    exact .nil
  | ⟨names, type, values⟩ :: specs => by
    simp only [evalSpecs, partsOfSpecs, List.length_append]
    split
    · exact (planned_evalSpecs _ specs).weaken (Nat.le_add_left _ _)
    · simp only [fst_evalValues_congr site _ scope fun _ _ ↦ []]
      exact (planned_evalValues scope _ values).append (planned_evalSpecs _ specs)

theorem planned_evalStmt (scope : Scope) : (s : Stmt) → Trace.Planned site.project.functions
    s.parts.length fun enter ↦ (evalStmt site enter scope s).trace
  | .assign targets values _ => by
    simp only [evalStmt, Stmt.parts, List.length_append]
    exact (planned_evalValues scope _ values).weaken (Nat.le_add_left _ _)
  | .declare specs => by
    simp only [evalStmt, Stmt.parts]
    exact planned_evalSpecs scope specs
  | .eval e | .deferred e => by
    simp only [evalStmt, Stmt.parts]
    exact planned_evalExpr scope e
  | .branch init body otherwise => by
    simp only [evalStmt, Stmt.parts, List.length_append,
      fst_evalInit_congr site _ scope fun _ _ ↦ []]
    exact ((planned_evalInit scope init).append (planned_evalBlock _ body)).append
      (planned_evalInit _ otherwise)
  | .block body => by
    simp only [evalStmt, Stmt.parts]
    exact planned_evalBlock scope body
  | .scoped init bodies => by
    simp only [evalStmt, Stmt.parts, List.length_append,
      fst_evalInit_congr site _ scope fun _ _ ↦ []]
    exact (planned_evalInit scope init).append (planned_evalBlocks _ bodies)
  | .result values => by
    simp only [evalStmt, Stmt.parts]
    exact planned_evalEach scope values
  | .other _ => by
    simp only [evalStmt]
    exact Trace.Planned.nil.weaken (Nat.zero_le _)

theorem planned_evalInit (scope : Scope) : (init : Option Stmt) →
    Trace.Planned site.project.functions (partsOfOption init).length fun enter ↦
      (evalInit site enter scope init).2
  | none => by
    simp only [evalInit]
    exact .nil
  | some s => by
    simp only [evalInit, partsOfOption]
    exact planned_evalStmt scope s

theorem planned_evalBlock (scope : Scope) : (body : List Stmt) →
    Trace.Planned site.project.functions (partsOfBlock body).length fun enter ↦
      evalBlock site enter scope body
  | [] => by
    simp only [evalBlock]
    exact .nil
  | s :: body => by
    -- The scope after the first statement is the same whatever becomes of the calls in it.
    simp only [evalBlock, partsOfBlock, List.length_append,
      scope_evalStmt_congr site _ scope fun _ _ ↦ []]
    exact (planned_evalStmt scope s).append (planned_evalBlock _ body)

theorem planned_evalBlocks (scope : Scope) : (bodies : List (List Stmt)) →
    Trace.Planned site.project.functions (partsOfBlocks bodies).length fun enter ↦
      evalBlocks site enter scope bodies
  | [] => by
    simp only [evalBlocks]
    exact .nil
  | body :: bodies => by
    simp only [evalBlocks, partsOfBlocks, List.length_append]
    exact (planned_evalBlock scope body).append (planned_evalBlocks scope bodies)

end

end Plan

def followedBody (project : Project) (reader : String) (f : FuncRef) (scope : Scope) :
    Trace.Walk Fact Scope := fun enter ↦
  evalBlock { Site.ofUnit project f.unit with reader := reader } enter scope
    (((project.function? f).map (·.body)).getD [])

theorem follow_eq_descend (project : Project) (reader : String) :
    follow project reader = Trace.descend (followedBody project reader) := by
  funext limit
  induction limit with
  | zero => rfl
  | succ limit ih =>
    funext active f scope
    rw [follow, Trace.descend, followedBody, ih]

theorem bodies_followedBody (project : Project) (reader : String) :
    Trace.Bodies project.functions project.longestBody (followedBody project reader) := by
  have houtside (f : FuncRef) (scope : Scope) (hf : f ∉ project.functions) :
      followedBody project reader f scope = fun _ ↦ [] := by
    funext enter
    rw [followedBody, Project.function?_eq_none hf]
    simp [evalBlock]
  refine ⟨fun f scope ↦ ?_, houtside⟩
  by_cases hf : f ∈ project.functions
  · exact (planned_evalBlock { Site.ofUnit project f.unit with reader := reader } scope _).weaken
      (Project.bodySize_le_longestBody hf)
  · rw [houtside f scope hf]
    exact Trace.Planned.nil.weaken (Nat.zero_le _)

theorem handlerTrace_eq_descend (project : Project) (limit : ℕ) (f : FuncRef) :
    handlerTrace project limit f = Trace.descend
      (followedBody project (project.packageOf f.unit)) (limit + 1) [] f
        (Site.entryScope project f) := by
  rw [handlerTrace, follow_eq_descend]

theorem orderly_handlerTrace (project : Project) (limit : ℕ) (f : FuncRef) :
    Trace.Orderly limit [] (handlerTrace project limit f) := by
  rw [handlerTrace_eq_descend]
  exact (bodies_followedBody project _).orderly_descend le_rfl f _

end Flow

end HandlerDocs
