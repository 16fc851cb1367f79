import HandlerDocs.Proofs.Flow.Values
import HandlerDocs.Proofs.Routing.Filter

namespace HandlerDocs

open Code

namespace Project

variable (p : Project)

@[simp] theorem unit?_code (id : ℕ) : p.code.unit? id = (p.unit? id).map SourceFile.code :=
  List.getElem?_map

@[simp] theorem packageOf_code (id : ℕ) : p.code.packageOf id = p.packageOf id := by
  rw [packageOf, packageOf, unit?_code, Option.map_map]
  rfl

@[simp] theorem methodNamed?_code (package receiver name : String) :
    p.code.methodNamed? package receiver name = p.methodNamed? package receiver name := by
  have hindex (u : SourceFile) (receiver : String) :
      u.code.methodIndex? receiver name = u.methodIndex? receiver name := by
    rw [SourceFile.methodIndex?, SourceFile.code, List.findIdx?_map]
    rfl
  simp only [methodNamed?, packageFiles_code, List.findSome?_map, Function.comp_def, Prod.map_fst,
    Prod.map_snd, hindex, id_eq]

theorem typeDecl?_code (package name : String) :
    p.code.typeDecl? package name = p.typeDecl? package name := by
  rw [typeDecl?, typeDecl?, packageFiles_code, List.findSome?_map]
  rfl

theorem structFrom?_code (hops : ℕ) (package type : String) :
    p.code.structFrom? hops package type = p.structFrom? hops package type := by
  induction hops generalizing package type with
  | zero => rfl
  | succ hops ih => simp only [structFrom?, typeDecl?_code, ih]

@[simp] theorem structNamed_code (package name : String) :
    p.code.structNamed package name = p.structNamed package name := by
  simp only [structNamed, structFrom?_code]

@[simp] theorem globals_code (package : String) : p.code.globals package = p.globals package := by
  rw [globals, globals, packageFiles_code, List.flatMap_map]
  rfl

@[simp] theorem unitsImporting_code (path : String) :
    p.code.unitsImporting path = p.unitsImporting path := by
  rw [unitsImporting, unitsImporting, code, List.zipIdx_map, List.filter_map, List.map_map]
  rfl

@[simp] theorem importPath?_code (unit : ℕ) (name : String) :
    p.code.importPath? unit name = p.importPath? unit name := by
  rw [importPath?, importPath?, unit?_code, Option.bind_map]
  rfl

end Project

namespace Site

def code (site : Site) : Site :=
  { site with project := site.project.code }

variable (site : Site)

@[simp] theorem project_code : site.code.project = site.project.code := rfl

@[simp] theorem unit_code : site.code.unit = site.unit := rfl

@[simp] theorem package_code : site.code.package = site.package := rfl

theorem ofUnit_code (p : Project) (unit : ℕ) : ofUnit p.code unit = (ofUnit p unit).code := by
  simp only [ofUnit, code, Project.packageOf_code]

@[simp] theorem packageOf?_code (name : String) :
    site.code.packageOf? name = site.packageOf? name := by
  simp [packageOf?, Project.packageOfName?]

@[simp] theorem importPath?_code (name : String) :
    site.code.importPath? name = site.importPath? name := by
  simp [importPath?]

@[simp] theorem locate_code (name : String) : site.code.locate name = site.locate name := by
  simp [locate]

@[simp] theorem struct?_code (type : String) : site.code.struct? type = site.struct? type := by
  simp [struct?]

@[simp] theorem relative_code (type : TypeExpr) (package : String) :
    site.code.relative type package = site.relative type package := rfl

@[simp] theorem method?_code (receiver : Shape) (name : String) :
    site.code.method? receiver name = site.method? receiver name := by
  simp [method?]

@[simp] theorem resultsOf_code (f : FuncRef) : site.code.resultsOf f = site.resultsOf f := by
  simp only [resultsOf, project_code, relative_code, Project.function?_code, Option.map_map,
    Project.packageOf_code]
  rfl

theorem entryScope_code (p : Project) (f : FuncRef) : entryScope p.code f = entryScope p f := by
  simp only [entryScope, Project.packageOf_code, Project.globals_code, Project.function?_code]
  cases p.function? f <;> rfl

end Site

namespace Flow

variable (site : Site) (scope : Scope)

@[simp] theorem isContext_code (receiver : Expr) (shape : Option Shape) :
    isContext site.code receiver shape = isContext site receiver shape := by
  simp [isContext, Project.isPackageName]

@[simp] theorem conversion?_code (receiver : Expr) (method : String) :
    conversion? site.code receiver method = conversion? site receiver method := by
  simp [conversion?]

@[simp] theorem callee?_code (fn : Expr) (receiver : Option Shape) :
    callee? site.code scope fn receiver = callee? site scope fn receiver := by
  simp [callee?, Project.functionsNamed_code]

@[simp] theorem callResults?_code (fn : Expr) (args : List Expr) (receiver first : Option Shape) :
    callResults? site.code scope fn args receiver first =
      callResults? site scope fn args receiver first := by
  simp [callResults?, knownResults?]

@[simp] theorem selectorShape?_code (operand : Expr) (field : String) (base : Option Shape) :
    selectorShape? site.code scope operand field base =
      selectorShape? site scope operand field base := by
  simp only [selectorShape?, Site.packageOf?_code, Site.project_code, Project.globals_code,
    Site.struct?_code]
  rfl

@[simp] theorem Literal.start_code (type : String) : start site.code type = start site type := by
  simp [start]

@[simp] theorem Literal.field?_code (literal : Literal) (key : Option Expr) :
    literal.field? site.code key = literal.field? site key := rfl

mutual

@[simp] theorem resolve_code : (e : Expr) → resolve site.code scope e = resolve site scope e
  | .selector operand field => by simp [resolve, resolve_code operand]
  | .call fn args => by simp [resolve, resolveOperand_code fn, resolveHead_code args]
  | .composite (some t) elements => by simp [resolve, resolveElements_code _ elements]
  | .unary op operand => by simp only [resolve, resolve_code operand]
  | .assertion operand none => by simp only [resolve, resolve_code operand]
  | .ident _ | .lit _ _ | .composite none _ | .assertion _ (some _) | .type _ | .funcLit _ _
  | .other _ => by simp only [resolve]

@[simp] theorem resolveOperand_code : (fn : Expr) →
    resolveOperand site.code scope fn = resolveOperand site scope fn
  | .selector operand _ => by simp only [resolveOperand, resolve_code operand]
  | .ident _ | .lit _ _ | .call _ _ | .composite _ _ | .unary _ _ | .assertion _ _ | .type _
  | .funcLit _ _ | .other _ => by simp only [resolveOperand]

@[simp] theorem resolveHead_code : (args : List Expr) →
    resolveHead site.code scope args = resolveHead site scope args
  | [] => by simp only [resolveHead]
  | e :: _ => by simp only [resolveHead, resolve_code e]

theorem resolveValue_code (type : TypeExpr) : (e : Expr) →
    resolveValue site.code scope type e = resolveValue site scope type e
  | .unary .address operand => by simp only [resolveValue, resolveValue_code type operand]
  | .composite (some _) elements | .composite none elements => by
    simp [resolveValue, resolveElements_code _ elements]
  | .selector operand field => by simp [resolveValue, resolve_code operand]
  | .call fn args => by simp [resolveValue, resolveOperand_code fn, resolveHead_code args]
  | .unary .plus _ | .unary .minus _ | .unary .not _ | .unary .complement _ | .unary .deref _
  | .unary .receive _ | .ident _ | .lit _ _ | .assertion _ _ | .funcLit _ _ | .type _
  | .other _ => by simp only [resolveValue]

theorem resolveElements_code (literal : Literal) : (elements : List Element) →
    resolveElements site.code scope literal elements = resolveElements site scope literal elements
  | [] => by simp only [resolveElements]
  | ⟨key, value⟩ :: more => by
    simp only [resolveElements, Literal.field?_code, resolveValue_code _ value,
      resolveElements_code _ more]

end

@[simp] theorem calleeOf?_code (fn : Expr) :
    calleeOf? site.code scope fn = calleeOf? site scope fn := by
  simp [calleeOf?]

theorem fieldsAlong_code (type : String) (names : List String) :
    fieldsAlong site.code type names = fieldsAlong site type names := by
  induction names generalizing type with
  | nil => rfl
  | cons name names ih => simp [fieldsAlong, ih]

theorem assign_code (targets values : List Expr) (shapes : List Shape) :
    assign site.code scope targets values shapes = assign site scope targets values shapes := by
  have htarget : assignTarget site.code = assignTarget site := by
    funext scope target value
    simp only [assignTarget, assignField, fieldsAlong_code]
  have hsource : assignSource site.code scope targets values =
      assignSource site scope targets values := by
    simp [assignSource, sourceOf?]
  rw [assign, assign, hsource, htarget]

theorem fst_evalValues_code (count : ℕ) (es : List Expr) :
    (evalValues site.code (fun _ _ ↦ []) scope count es).1 =
      (evalValues site (fun _ _ ↦ []) scope count es).1 := by
  have hshape (e : Expr) : shapeOf site.code scope e = shapeOf site scope e := by simp [shapeOf]
  cases es with
  | nil => simp only [evalValues]
  | cons e es =>
    simp only [evalValues, fst_evalExpr, fst_evalEach, hshape]
    split
    · cases e with
      | call fn args =>
        simp [evalSpread, Outcome.values, results_evalCallee, declaredResults?]
      | _ => simp only [evalSpread, hshape]
    · rfl

end Flow

namespace Routing

variable (site : Site) (package : RouterPackage)

theorem scopeAfter_code (scope : Scope) (s : Stmt) :
    scopeAfter site.code scope s = scopeAfter site scope s := by
  have hspecs (specs : List ValueSpec) :
      (Flow.evalSpecs site.code (fun _ _ ↦ []) scope specs).scope =
        (Flow.evalSpecs site (fun _ _ ↦ []) scope specs).scope := by
    induction specs generalizing scope with
    | nil => simp only [Flow.evalSpecs]
    | cons spec specs ih =>
      obtain ⟨names, type, values⟩ := spec
      simp only [Flow.evalSpecs, Flow.fst_evalValues_code, Flow.assign_code]
      split <;> exact ih _
  cases s with
  | assign targets values define =>
    simp only [scopeAfter, Flow.evalStmt, Flow.fst_evalValues_code, Flow.assign_code]
  | declare specs => simpa only [scopeAfter, Flow.evalStmt] using hspecs specs
  | _ => simp only [scopeAfter, Flow.evalStmt]

@[simp] theorem nameIn?_code (p : Project) (unit : ℕ) :
    package.nameIn? p.code unit = package.nameIn? p unit := by
  rw [RouterPackage.nameIn?, RouterPackage.nameIn?, Project.unit?_code, Option.bind_map]
  rfl

@[simp] theorem mount?_code (setup : Setup) : (e : Expr) →
    mount? site.code package setup e = mount? site package setup e
  | .call (.selector receiver method) args => by
    simp [mount?, isFreshRouter, mount?_code setup receiver]
  | .call (.ident _) _ | .call (.lit _ _) _ | .call (.call _ _) _ | .call (.composite _ _) _
  | .call (.unary _ _) _ | .call (.assertion _ _) _ | .call (.funcLit _ _) _ | .call (.type _) _
  | .call (.other _) _ | .ident _ | .lit _ _ | .selector _ _ | .composite _ _ | .unary _ _
  | .assertion _ _ | .funcLit _ _ | .type _ | .other _ => by simp only [mount?]

@[simp] theorem registered?_code (setup : Setup) (base method : String) (args : List Expr) :
    registered? site.code package setup base method args =
      registered? site package setup base method args := by
  have hhandler (e : Expr) :
      handler? site.code package setup e = handler? site package setup e := by
    simp only [handler?, Flow.calleeOf?_code, Site.project_code, nameIn?_code,
      Project.function?_code]
    congr
    funext f
    congr
    funext name
    cases site.project.function? f.1 <;> rfl
  simp only [registered?, route?, hhandler]

variable (enter : FuncRef → Routers → Trace Route)

@[simp] theorem walkHelper_code (setup : Setup) (fn : Expr) (args : List Expr) :
    walkHelper site.code package enter setup fn args =
      walkHelper site package enter setup fn args := by
  have hparams (f : FuncRef) : ((site.project.code.function? f).map (·.params)).getD [] =
      ((site.project.function? f).map (·.params)).getD [] := by
    rw [Project.function?_code, Option.map_map]
    rfl
  have hmount : mount? site.code package setup = mount? site package setup :=
    funext (mount?_code site package setup)
  simp only [walkHelper, hmount, Flow.calleeOf?_code, Site.project_code, hparams]

@[simp] theorem walkCall_code (setup : Setup) : (e : Expr) →
    walkCall site.code package enter setup e = walkCall site package enter setup e
  | .call (.selector _ _) _ | .call (.ident _) _ | .call (.lit _ _) _ | .call (.call _ _) _
  | .call (.composite _ _) _ | .call (.unary _ _) _ | .call (.assertion _ _) _
  | .call (.funcLit _ _) _ | .call (.type _) _ | .call (.other _) _ => by simp [walkCall]
  | .ident _ | .lit _ _ | .selector _ _ | .composite _ _ | .unary _ _ | .assertion _ _
  | .funcLit _ _ | .type _ | .other _ => rfl

@[simp] theorem walkPairs_code (setup : Setup) (pairs : List (Expr × Expr)) :
    walkPairs site.code package enter setup pairs = walkPairs site package enter setup pairs := by
  induction pairs generalizing setup with
  | nil => rfl
  | cons pair pairs ih => simp [walkPairs, walkPair, ih]

@[simp] theorem walkTargets_code (setup : Setup) (targets values : List Expr) :
    walkTargets site.code package enter setup targets values =
      walkTargets site package enter setup targets values := by
  simp [walkTargets]

@[simp] theorem walkSpecs_code (setup : Setup) (specs : List ValueSpec) :
    walkSpecs site.code package enter setup specs = walkSpecs site package enter setup specs := by
  induction specs generalizing setup with
  | nil => rfl
  | cons spec specs ih => simp [walkSpecs, ih]

mutual

theorem walkStmt_code (setup : Setup) : (s : Stmt) →
    walkStmt site.code package enter setup s = walkStmt site package enter setup s
  | .assign targets values define => by simp [walkStmt, scopeAfter_code]
  | .declare specs => by simp [walkStmt, scopeAfter_code]
  | .eval e => by simp [walkStmt]
  | .branch init body otherwise => by
    simp only [walkStmt, walkInit_code _ init, walkBlock_code _ body, walkInit_code _ otherwise]
  | .block body => by simp only [walkStmt, walkBlock_code _ body]
  | .scoped init bodies => by
    simp only [walkStmt, walkInit_code _ init, walkBlocks_code _ bodies]
  | .result _ | .deferred _ | .other _ => by simp only [walkStmt]

theorem walkInit_code (setup : Setup) : (init : Option Stmt) →
    walkInit site.code package enter setup init = walkInit site package enter setup init
  | none => by simp only [walkInit]
  | some s => by simp only [walkInit, walkStmt_code _ s]

theorem walkBlock_code (setup : Setup) : (body : List Stmt) →
    walkBlock site.code package enter setup body = walkBlock site package enter setup body
  | [] => by simp only [walkBlock]
  | s :: more => by simp only [walkBlock, walkStmt_code _ s, walkBlock_code _ more]

theorem walkBlocks_code (setup : Setup) : (bodies : List (List Stmt)) →
    walkBlocks site.code package enter setup bodies = walkBlocks site package enter setup bodies
  | [] => by simp only [walkBlocks]
  | body :: more => by simp only [walkBlocks, walkBlock_code _ body, walkBlocks_code _ more]

end

theorem followSetup_code (p : Project) (limit : ℕ) (active : List FuncRef) (f : FuncRef)
    (routers : Routers) : followSetup p.code package limit active f routers =
      followSetup p package limit active f routers := by
  induction limit generalizing active f routers with
  | zero => rfl
  | succ limit ih =>
    have henter : followSetup p.code package limit (f :: active) =
        followSetup p package limit (f :: active) := by
      funext g routers
      exact ih (f :: active) g routers
    have hbody : ((p.code.function? f).map (·.body)).getD [] =
        ((p.function? f).map (·.body)).getD [] := by
      rw [Project.function?_code, Option.map_map]
      rfl
    simp only [followSetup, hbody, henter, Site.ofUnit_code, Site.entryScope_code, walkBlock_code]

theorem setups_code (p : Project) : setups p.code package = setups p package := by
  have hin : setupsIn p.code package = setupsIn p package := by
    funext unit
    simp only [setupsIn, Project.unit?_code, nameIn?_code]
    cases p.unit? unit with
    | none => rfl
    | some file =>
      cases package.nameIn? p unit with
      | none => rfl
      | some name =>
        simp only [Option.map_some, SourceFile.code, List.zipIdx_map, List.filter_map, List.map_map]
        rfl
  rw [setups, setups, hin, Project.unitsImporting_code]

/-- Comments have no part in what routes are found. -/
theorem routes_code (p : Project) (options : Options) :
    routes p.code options = routes p options := by
  have hselect : options.select p.code = options.select p := by
    funext trace
    rw [Options.select, Options.select]
    congr 2
    funext r
    rw [Options.accepts, Options.accepts]
    split
    · rfl
    · exact p.isNamed_code _ _
  have htrace : setupTrace p.code options.package options.maxDepth =
      setupTrace p options.package options.maxDepth := by
    funext f
    exact followSetup_code options.package p _ _ _ _
  rw [routes, routes, hselect, htrace, setups_code]

end Routing

end HandlerDocs
