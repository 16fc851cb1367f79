import HandlerDocs.Flow.Run

namespace HandlerDocs.Flow

open Code

/-- A callee is the first function of its name in a package, or a method of what its operand is. -/
theorem calleeOf?_cases {site : Site} {scope : Scope} {fn : Expr} {f : FuncRef}
    {receiver : Option Shape} (h : calleeOf? site scope fn = some (f, receiver)) :
    (receiver = none ∧ ∃ package name, (site.project.functionsNamed package name).head? = some f) ∨
      ∃ operand shape name, resolve site scope operand = some shape ∧ receiver = some shape ∧
        site.method? shape name = some f := by
  have hnamed {package name : String}
      (hhead : ((site.project.functionsNamed package name).head?.map fun g ↦ (g, none)) =
        some (f, receiver)) :
      receiver = none ∧
        ∃ package name, (site.project.functionsNamed package name).head? = some f := by
    obtain ⟨g, hg, hpair⟩ := Option.map_eq_some_iff.1 hhead
    cases hpair
    exact ⟨rfl, package, name, hg⟩
  cases fn with
  | ident name =>
    simp only [calleeOf?, callee?] at h
    split at h
    · cases h
    · exact .inl (hnamed h)
  | selector operand field =>
    simp only [calleeOf?, callee?] at h
    split at h
    · obtain ⟨package, -, hhead⟩ := Option.bind_eq_some_iff.1 h
      exact .inl (hnamed hhead)
    · obtain ⟨shape, hshape, hmethod⟩ := Option.bind_eq_some_iff.1 h
      obtain ⟨g, hg, hpair⟩ := Option.bind_eq_some_iff.1 hmethod
      cases hpair
      exact .inr ⟨operand, shape, field, hshape, rfl, hg⟩
  | _ => cases h

variable (site : Site) (enter : FuncRef → Scope → Trace Fact) (scope : Scope)

theorem results_knownCall? (fn : Expr) (args : List Expr) :
    (knownCall? site scope fn args).map (·.results) =
      (knownResults? site fn (resolveOperand site scope fn)).map some := by
  cases fn with
  | selector operand method =>
    simp only [knownCall?, knownResults?, resolveOperand]
    cases Vocabulary.contextCall? method with
    | none => cases conversion? site operand method <;> rfl
    | some call =>
      by_cases hcontext : isContext site operand (resolve site scope operand)
      · simp only [hcontext]
        rfl
      · simp only [hcontext]
        cases conversion? site operand method <;> rfl
  | _ => rfl

/-- A named call is told the results that it declares, whether or not it is followed. -/
theorem results_callNamed (fn : Expr) (args : List Expr) :
    (callNamed site enter scope fn args).results = declaredResults? site scope (.call fn args) := by
  have hknown := results_knownCall? site scope fn args
  rw [callNamed]
  cases hcall : knownCall? site scope fn args with
  | some outcome =>
    rw [hcall] at hknown
    obtain ⟨results, hresults, hsome⟩ := Option.map_eq_some_iff.1 hknown.symm
    rw [declaredResults?, callResults?, hresults]
    exact hsome.symm
  | none =>
    rw [hcall] at hknown
    cases hcallee : calleeOf? site scope fn with
    | some found =>
      rw [declaredResults?, callResults?, Option.map_eq_none_iff.1 hknown.symm, ← calleeOf?,
        hcallee]
    | none => rfl

theorem results_evalCallee (args : List Expr) (fn : Expr) :
    (evalCallee site enter scope args fn).results =
      declaredResults? site scope (.call fn args) := by
  cases fn with
  | funcLit params body => simp only [evalCallee]; rfl
  | _ => simp only [evalCallee]; exact results_callNamed ..

theorem results_evalCall (e : Expr) :
    (evalCall site enter scope e).results = declaredResults? site scope e := by
  cases e with
  | call fn args => exact results_evalCallee ..
  | _ => rfl

theorem fst_evalExpr (e : Expr) :
    (evalExpr site enter scope e).1 = shapeOf site scope e.peel := by
  fun_induction Expr.peel e with
  | case1 operand ih => simpa only [evalExpr] using ih
  | case2 e hne =>
    cases e with
    | call fn args =>
      simp only [evalExpr, Outcome.value, results_evalCallee, shapeOf, resolve, declaredResults?]
    | unary op operand =>
      cases op with
      | address => exact absurd rfl (hne operand)
      | _ => simp only [evalExpr]
    | _ => simp only [evalExpr]

theorem fst_evalEach (es : List Expr) :
    (evalEach site enter scope es).1 = es.map fun e ↦ shapeOf site scope e.peel := by
  induction es with
  | nil => simp only [evalEach, List.map_nil]
  | cons e es ih => simp only [evalEach, fst_evalExpr, ih, List.map_cons]

/-- Whatever is entered on the way, an expression evaluates to the shape that it has in the scope
before, a call gives the results that it declares, and the scope stays as it was until the value
is assigned. -/
theorem evaluation_agrees_with_resolution (e : Expr) :
    (evalExpr site enter scope e).1 = shapeOf site scope e.peel ∧
    (evalCall site enter scope e).results = declaredResults? site scope e ∧
    (evalStmt site enter scope (.eval e)).scope = scope ∧
    ∀ target define, (evalStmt site enter scope (.assign [target] [e] define)).scope =
      assign site scope [target] [e] [shapeOf site scope e.peel] := by
  refine ⟨fst_evalExpr .., results_evalCall .., by simp only [evalStmt], fun target define ↦ ?_⟩
  simp [evalStmt, evalValues, evalEach, fst_evalExpr]

section Independent

variable (enter' : FuncRef → Scope → Trace Fact)

theorem fst_evalSpread_congr (count : Nat) (e : Expr) :
    (evalSpread site enter scope count e).1 = (evalSpread site enter' scope count e).1 := by
  cases e with
  | call fn args => simp only [evalSpread, Outcome.values, results_evalCallee]
  | _ => simp only [evalSpread]

theorem fst_evalValues_congr (count : Nat) (es : List Expr) :
    (evalValues site enter scope count es).1 = (evalValues site enter' scope count es).1 := by
  cases es with
  | nil => simp only [evalValues]
  | cons e es =>
    simp only [evalValues]
    split
    · exact fst_evalSpread_congr ..
    · simp only [fst_evalExpr, fst_evalEach]

theorem scope_evalSpecs_congr (specs : List ValueSpec) :
    (evalSpecs site enter scope specs).scope = (evalSpecs site enter' scope specs).scope := by
  induction specs generalizing scope with
  | nil => simp only [evalSpecs]
  | cons spec specs ih =>
    obtain ⟨names, type, values⟩ := spec
    simp only [evalSpecs]
    split
    · exact ih _
    · rw [fst_evalValues_congr site enter scope enter']
      exact ih _

/-- Where calls lead has no influence on what is known after a statement. -/
theorem scope_evalStmt_congr (s : Stmt) :
    (evalStmt site enter scope s).scope = (evalStmt site enter' scope s).scope := by
  cases s with
  | assign targets values define =>
    simp only [evalStmt]
    rw [fst_evalValues_congr site enter scope enter']
  | declare specs =>
    simp only [evalStmt]
    exact scope_evalSpecs_congr ..
  | _ => simp only [evalStmt]

theorem fst_evalInit_congr (init : Option Stmt) :
    (evalInit site enter scope init).1 = (evalInit site enter' scope init).1 := by
  cases init with
  | none => simp only [evalInit]
  | some s =>
    simp only [evalInit]
    exact scope_evalStmt_congr ..

end Independent

end HandlerDocs.Flow
