import Mathlib.Data.Nat.Notation
import HandlerDocs.Routing.Discovery

namespace HandlerDocs.Routing

open Code

def mountNames : Expr → List String
  | .ident name => [name]
  | .call (.selector receiver method) _ =>
    if Vocabulary.routerCall? method = some .group then mountNames receiver else []
  | _ => []

def boundNames (targets : List Expr) : List String :=
  targets.flatMap fun target ↦ (Flow.boundName? target).toList

theorem boundNames_subset (targets : List Expr) :
    boundNames targets ⊆ targets.filterMap (·.ident?) := by
  intro x hx
  obtain ⟨target, htarget, hx⟩ := List.mem_flatMap.1 hx
  refine List.mem_filterMap.2 ⟨target, htarget, ?_⟩
  cases target with
  | ident name =>
    rw [Option.mem_toList, Flow.boundName?] at hx
    split at hx
    · cases hx
    · exact hx
  | _ => cases hx

def boundBy : Stmt → List String
  | .assign targets _ _ => boundNames targets
  | .declare specs => specs.flatMap fun spec ↦ boundNames (spec.names.map .ident)
  | _ => []

def boundByInit (init : Option Stmt) : List String :=
  init.elim [] boundBy

def passedNames (project : Project) (f : FuncRef) (count : ℕ) : List String :=
  ((((project.function? f).map (·.params)).getD []).take count).filterMap (·.name)

/-- The variables of its caller that a helper may read when it is called with `count` arguments;
`inherits` tells which variables a function may read before it binds them. -/
def captured (project : Project) (inherits : FuncRef → List String) (f : FuncRef) (count : ℕ) :
    List String :=
  (inherits f).filter (· ∉ passedNames project f count)

section Names

variable (site : Site) (inherits : FuncRef → List String)

def helperNames (scope : Scope) (fn : Expr) (args : List Expr) : List String :=
  match Flow.calleeOf? site scope fn with
  | none => []
  | some (f, _) => args.flatMap mountNames ++ captured site.project inherits f args.length

def callNames (scope : Scope) : Expr → List String
  | .call (.selector receiver method) args =>
    mountNames receiver ++ helperNames site inherits scope (.selector receiver method) args
  | .call fn args => helperNames site inherits scope fn args
  | _ => []

def pairNames (scope : Scope) (target value : Expr) : List String :=
  match Flow.boundName? target with
  | none => callNames site inherits scope value
  | some name => mountNames value ++ (callNames site inherits scope value).filter (· ≠ name)

def pairsNames (scope : Scope) : List (Expr × Expr) → List String
  | [] => []
  | (target, value) :: more =>
    pairNames site inherits scope target value ++
      (pairsNames scope more).filter (· ∉ (Flow.boundName? target).toList)

def targetsNames (scope : Scope) (targets values : List Expr) : List String :=
  if targets.length = values.length then pairsNames site inherits scope (targets.zip values) else []

def specsNames (scope : Scope) : List ValueSpec → List String
  | [] => []
  | spec :: more =>
    (if spec.values.isEmpty then []
      else targetsNames site inherits scope (spec.names.map .ident) spec.values) ++
      (specsNames scope more).filter (· ∉ boundNames (spec.names.map .ident))

mutual

def stmtNames (scope : Scope) : Stmt → List String
  | .assign targets values _ => targetsNames site inherits scope targets values
  | .declare specs => specsNames site inherits scope specs
  | .eval e => callNames site inherits scope e
  | .branch init body otherwise =>
    let start := init.elim scope (scopeAfter site scope)
    initNames scope init ++ (blockNames start body ++ initNames start otherwise).filter
      (· ∉ boundByInit init)
  | .block body => blockNames scope body
  | .scoped init bodies =>
    let start := init.elim scope (scopeAfter site scope)
    initNames scope init ++ (blocksNames start bodies).filter (· ∉ boundByInit init)
  | .result _ => []
  | .deferred _ => []
  | .other _ => []

def initNames (scope : Scope) : Option Stmt → List String
  | none => []
  | some s => stmtNames scope s

def blockNames (scope : Scope) : List Stmt → List String
  | [] => []
  | s :: more =>
    stmtNames scope s ++ (blockNames (scopeAfter site scope s) more).filter (· ∉ boundBy s)

def blocksNames (scope : Scope) : List (List Stmt) → List String
  | [] => []
  | body :: more => blockNames scope body ++ blocksNames scope more

end

end Names

/-- The variables of which a function that sets up routers may read what its caller left in them:
there is a use, in it or in a helper that it follows, before which they are not bound. -/
def inherited (project : Project) : (limit : ℕ) → (active : List FuncRef) → FuncRef → List String
  | 0, _, _ => []
  | limit + 1, active, f =>
    if f ∈ active then []
    else
      let body := ((project.function? f).map (·.body)).getD []
      blockNames (Site.ofUnit project f.unit) (inherited project limit (f :: active))
        (Site.entryScope project f) body

def Agree (a b : Routers) (name : String) : Prop :=
  Assoc.get? name a = Assoc.get? name b

section Agree

variable {a b : Routers} {name x : String}

theorem agree_put (h : Agree a b x ∨ x = name) (mount : String) :
    Agree (Assoc.put name mount a) (Assoc.put name mount b) x := by
  rw [Agree]
  by_cases hx : x = name
  · rw [hx, Assoc.get?_put_self, Assoc.get?_put_self]
  · rw [Assoc.get?_put_ne hx, Assoc.get?_put_ne hx]
    exact h.resolve_right hx

theorem agree_erase (h : Agree a b x ∨ x = name) :
    Agree (Assoc.erase name a) (Assoc.erase name b) x := by
  rw [Agree]
  by_cases hx : x = name
  · rw [hx, Assoc.get?_erase_self, Assoc.get?_erase_self]
  · rw [Assoc.get?_erase_ne hx, Assoc.get?_erase_ne hx]
    exact h.resolve_right hx

theorem agree_foldl_erase {names : List String} (h : Agree a b x ∨ x ∈ names) :
    Agree (names.foldl (fun routers name ↦ Assoc.erase name routers) a)
      (names.foldl (fun routers name ↦ Assoc.erase name routers) b) x := by
  induction names generalizing a b with
  | nil => exact h.resolve_right List.not_mem_nil
  | cons name names ih =>
    refine ih ?_
    rw [List.mem_cons, ← or_assoc] at h
    exact h.imp_left agree_erase

/-- Parameters that get an argument hold what is passed, whatever the maps of the callers. -/
theorem agree_passRouters {params : List Param} {mounts : List (Option String)}
    (h : Agree a b x ∨ x ∈ (params.take mounts.length).filterMap (·.name)) :
    Agree (passRouters a params mounts) (passRouters b params mounts) x := by
  induction params generalizing a b mounts with
  | nil =>
    rw [List.take_nil] at h
    exact h.resolve_right List.not_mem_nil
  | cons param params ih =>
    cases mounts with
    | nil => exact h.resolve_right List.not_mem_nil
    | cons mount mounts =>
      rw [List.length_cons, List.take_succ_cons] at h
      refine ih ?_
      dsimp only
      cases hname : param.name with
      | none =>
        rw [List.filterMap_cons_none hname] at h
        exact h
      | some name =>
        rw [List.filterMap_cons_some hname, List.mem_cons, ← or_assoc] at h
        cases mount with
        | some mount => exact h.imp_left fun h ↦ agree_put h mount
        | none => exact h.imp_left agree_erase

end Agree

structure Alike (names : List String) (scope : Scope) (a b : Setup) : Prop where
  left : a.scope = scope
  right : b.scope = scope
  agree : ∀ x ∈ names, Agree a.routers b.routers x

theorem alike_append {names names' : List String} {scope : Scope} {a b : Setup} :
    Alike (names ++ names') scope a b ↔ Alike names scope a b ∧ Alike names' scope a b := by
  constructor
  · rintro ⟨ha, hb, h⟩
    obtain ⟨hnames, hnames'⟩ := List.forall_mem_append.1 h
    exact ⟨⟨ha, hb, hnames⟩, ⟨ha, hb, hnames'⟩⟩
  · rintro ⟨⟨ha, hb, hnames⟩, ⟨-, -, hnames'⟩⟩
    exact ⟨ha, hb, List.forall_mem_append.2 ⟨hnames, hnames'⟩⟩

/-- Two walks that end in one scope: they find the same, and agree on what they bound and on all
routers on which they agreed before. -/
structure SameWalk (bound : List String) (scope : Scope) (a b : Setup)
    (p q : Setup × Trace Route) : Prop where
  trace : p.2 = q.2
  left : p.1.scope = scope
  right : q.1.scope = scope
  agree : ∀ x, Agree a.routers b.routers x ∨ x ∈ bound → Agree p.1.routers q.1.routers x

namespace SameWalk

variable {names bound bound' : List String} {scope scope' : Scope} {a b : Setup}
  {p q p' q' : Setup × Trace Route}

theorem alike (h : SameWalk bound scope' a b p q)
    (hnames : Alike (names.filter (· ∉ bound)) scope a b) : Alike names scope' p.1 q.1 := by
  refine ⟨h.left, h.right, fun x hx ↦ h.agree x ?_⟩
  by_cases hbound : x ∈ bound
  · exact .inr hbound
  · exact .inl (hnames.agree x (List.mem_filter.2 ⟨hx, decide_eq_true hbound⟩))

theorem refl {trace trace' : Trace Route} (h : Alike names scope a b) (htrace : trace = trace') :
    SameWalk [] scope a b (a, trace) (b, trace') :=
  ⟨htrace, h.left, h.right, fun _ hx ↦ hx.resolve_right List.not_mem_nil⟩

/-- A walk goes on from where another one ended. -/
theorem trans (h : SameWalk bound scope a b p q) (h' : SameWalk bound' scope' p.1 q.1 p' q') :
    SameWalk (bound ++ bound') scope' a b (p'.1, p.2 ++ p'.2) (q'.1, q.2 ++ q'.2) := by
  refine ⟨by rw [h.trace, h'.trace], h'.left, h'.right, fun x hx ↦ h'.agree x ?_⟩
  rw [List.mem_append, ← or_assoc] at hx
  exact hx.imp_left (h.agree x)

end SameWalk

def EntersAlike (enter : FuncRef → Routers → Trace Route) (inherits : FuncRef → List String) :
    Prop :=
  ∀ f a b, (∀ x ∈ inherits f, Agree a b x) → enter f a = enter f b

section Walk

variable {site : Site} (package : RouterPackage) {enter : FuncRef → Routers → Trace Route}
  {inherits : FuncRef → List String} {scope : Scope} {a b : Setup}

theorem mount?_congr {e : Expr} (h : Alike (mountNames e) scope a b) :
    mount? site package a e = mount? site package b e := by
  have hscope : a.scope = b.scope := h.left.trans h.right.symm
  fun_induction mountNames e with
  | case1 name => exact h.agree name (List.mem_singleton_self name)
  | case2 receiver method args hgroup ih => rw [mount?, mount?, ih h, hscope]
  | case3 receiver method args hgroup =>
    rw [mount?, mount?, if_neg hgroup, if_neg hgroup, hscope]
  | case4 e hident hcall => rw [mount?, mount?] <;> assumption

theorem map_mount?_congr {args : List Expr} (h : Alike (args.flatMap mountNames) scope a b) :
    args.map (mount? site package a) = args.map (mount? site package b) := by
  refine List.map_congr_left fun arg harg ↦ mount?_congr package ⟨h.left, h.right, fun x hx ↦ ?_⟩
  exact h.agree x (List.mem_flatMap.2 ⟨arg, harg, hx⟩)

/-- Wherever a helper is called from, only what is passed and what it inherits counts. -/
theorem walkHelper_eq (henter : EntersAlike enter inherits) {site' : Site}
    (hproject : site.project = site'.project) {fn fn' : Expr} {args args' : List Expr}
    {f : FuncRef} {receiver receiver' : Option Shape}
    (hcallee : Flow.calleeOf? site a.scope fn = some (f, receiver))
    (hcallee' : Flow.calleeOf? site' b.scope fn' = some (f, receiver'))
    (hmounts : args.map (mount? site package a) = args'.map (mount? site' package b))
    (h : ∀ x ∈ captured site.project inherits f args.length, Agree a.routers b.routers x) :
    walkHelper site package enter a fn args = walkHelper site' package enter b fn' args' := by
  simp only [walkHelper, hcallee, hcallee', ← hmounts, ← hproject]
  split
  · rfl
  · refine henter f _ _ fun x hx ↦ agree_passRouters ?_
    rw [List.length_map]
    by_cases hpassed : x ∈ passedNames site.project f args.length
    · exact .inr hpassed
    · exact .inl (h x (List.mem_filter.2 ⟨hx, decide_eq_true hpassed⟩))

theorem walkHelper_congr (henter : EntersAlike enter inherits) {fn : Expr} {args : List Expr}
    (h : Alike (helperNames site inherits scope fn args) scope a b) :
    walkHelper site package enter a fn args = walkHelper site package enter b fn args := by
  have hb := h.right
  obtain rfl := h.left
  rw [helperNames] at h
  cases hcallee : Flow.calleeOf? site a.scope fn with
  | none => simp only [walkHelper, hb, hcallee, ite_self]
  | some found =>
    obtain ⟨f, receiver⟩ := found
    rw [hcallee] at h
    obtain ⟨hargs, hinside⟩ := alike_append.1 h
    exact walkHelper_eq package henter rfl hcallee (hb ▸ hcallee) (map_mount?_congr package hargs)
      hinside.agree

theorem registered?_congr (hscope : a.scope = b.scope) (base method : String) (args : List Expr) :
    registered? site package a base method args = registered? site package b base method args := by
  simp only [registered?, route?, handler?, hscope]

theorem walkCall_congr (henter : EntersAlike enter inherits) : {e : Expr} →
    Alike (callNames site inherits scope e) scope a b →
    walkCall site package enter a e = walkCall site package enter b e
  | .call (.selector receiver method) args, h => by
    obtain ⟨hreceiver, hhelper⟩ := alike_append.1 h
    rw [walkCall, walkCall, mount?_congr package hreceiver, walkHelper_congr package henter hhelper]
    simp only [registered?_congr package (h.left.trans h.right.symm)]
  | .call (.ident _) _, h | .call (.lit _ _) _, h | .call (.call _ _) _, h
  | .call (.composite _ _) _, h | .call (.unary _ _) _, h | .call (.assertion _ _) _, h
  | .call (.funcLit _ _) _, h | .call (.type _) _, h | .call (.other _) _, h => by
    simp only [callNames] at h
    exact walkHelper_congr package henter h
  | .ident _, _ | .lit _ _, _ | .selector _ _, _ | .composite _ _, _ | .unary _ _, _
  | .assertion _ _, _ | .funcLit _ _, _ | .type _, _ | .other _, _ => rfl

theorem walkPair_congr (henter : EntersAlike enter inherits) {target value : Expr}
    (h : Alike (pairNames site inherits scope target value) scope a b) :
    SameWalk (Flow.boundName? target).toList scope a b
      (walkPair site package enter a target value)
      (walkPair site package enter b target value) := by
  rw [pairNames] at h
  rw [walkPair, walkPair]
  cases hbound : Flow.boundName? target with
  | none =>
    rw [hbound] at h
    exact .refl h (walkCall_congr package henter h)
  | some name =>
    rw [hbound] at h
    obtain ⟨hmount, hcall⟩ := alike_append.1 h
    rw [mount?_congr package hmount]
    cases mount? site package b value with
    | some mount =>
      exact ⟨rfl, h.left, h.right, fun x hx ↦ agree_put (hx.imp_right List.mem_singleton.1) mount⟩
    | none =>
      have herased : Alike (callNames site inherits scope value) scope
          { a with routers := Assoc.erase name a.routers }
          { b with routers := Assoc.erase name b.routers } := by
        refine ⟨h.left, h.right, fun x hx ↦ agree_erase ?_⟩
        by_cases hname : x = name
        · exact .inr hname
        · exact .inl (hcall.agree x (List.mem_filter.2 ⟨hx, decide_eq_true hname⟩))
      exact ⟨walkCall_congr package henter herased, h.left, h.right,
        fun x hx ↦ agree_erase (hx.imp_right List.mem_singleton.1)⟩

theorem walkPairs_congr (henter : EntersAlike enter inherits) {pairs : List (Expr × Expr)}
    (h : Alike (pairsNames site inherits scope pairs) scope a b) :
    SameWalk (boundNames (pairs.map Prod.fst)) scope a b
      (walkPairs site package enter a pairs) (walkPairs site package enter b pairs) := by
  induction pairs generalizing a b with
  | nil => exact .refl h rfl
  | cons pair pairs ih =>
    obtain ⟨target, value⟩ := pair
    obtain ⟨hfirst, hrest⟩ := alike_append.1 h
    have hpair := walkPair_congr package henter hfirst
    have hpairs := hpair.trans (ih (hpair.alike hrest))
    exact hpairs

theorem SameWalk.forget {bound names : List String} (h : Alike [] scope a b)
    (hbound : bound ⊆ names) :
    SameWalk bound scope a b (Routing.forget a names, []) (Routing.forget b names, []) :=
  ⟨rfl, h.left, h.right, fun _ hx ↦ agree_foldl_erase (hx.imp_right (hbound ·))⟩

theorem walkTargets_congr (henter : EntersAlike enter inherits) {targets values : List Expr}
    (h : Alike (targetsNames site inherits scope targets values) scope a b) :
    SameWalk (boundNames targets) scope a b (walkTargets site package enter a targets values)
      (walkTargets site package enter b targets values) := by
  rw [targetsNames] at h
  rw [walkTargets, walkTargets]
  split
  · rename_i hlength
    rw [if_pos hlength] at h
    have hpairs := walkPairs_congr package henter h
    rwa [List.map_fst_zip (Nat.le_of_eq hlength)] at hpairs
  · rename_i hlength
    rw [if_neg hlength] at h
    exact .forget h (boundNames_subset targets)

theorem walkSpecs_congr (henter : EntersAlike enter inherits) {specs : List ValueSpec}
    (h : Alike (specsNames site inherits scope specs) scope a b) :
    SameWalk (boundBy (.declare specs)) scope a b (walkSpecs site package enter a specs)
      (walkSpecs site package enter b specs) := by
  induction specs generalizing a b with
  | nil => exact .refl h rfl
  | cons spec specs ih =>
    obtain ⟨hfirst, hrest⟩ := alike_append.1 h
    have hspec : SameWalk (boundNames (spec.names.map .ident)) scope a b
        (if spec.values.isEmpty then (forget a spec.names, [])
          else walkTargets site package enter a (spec.names.map .ident) spec.values)
        (if spec.values.isEmpty then (forget b spec.names, [])
          else walkTargets site package enter b (spec.names.map .ident) spec.values) := by
      split
      · rename_i hempty
        rw [if_pos hempty] at hfirst
        refine .forget hfirst fun x hx ↦ ?_
        simpa [Expr.ident?] using boundNames_subset _ hx
      · rename_i hvalues
        rw [if_neg hvalues] at hfirst
        exact walkTargets_congr package henter hfirst
    exact hspec.trans (ih (hspec.alike hrest))

mutual

theorem walkStmt_congr (henter : EntersAlike enter inherits) {scope : Scope} {a b : Setup} :
    (s : Stmt) → Alike (stmtNames site inherits scope s) scope a b →
    SameWalk (boundBy s) (scopeAfter site scope s) a b (walkStmt site package enter a s)
      (walkStmt site package enter b s)
  | .assign targets values define, h => by
    simp only [stmtNames] at h
    obtain ⟨htrace, -, -, hagree⟩ := walkTargets_congr package henter h
    simp only [walkStmt, h.left, h.right]
    exact ⟨htrace, rfl, rfl, hagree⟩
  | .declare specs, h => by
    simp only [stmtNames] at h
    obtain ⟨htrace, -, -, hagree⟩ := walkSpecs_congr package henter h
    simp only [walkStmt, h.left, h.right]
    exact ⟨htrace, rfl, rfl, hagree⟩
  | .eval e, h => by
    simp only [stmtNames] at h
    simp only [walkStmt, scopeAfter, Flow.evalStmt]
    exact .refl h (walkCall_congr package henter h)
  | .branch init body otherwise, h => by
    simp only [stmtNames] at h
    obtain ⟨hinit, hrest⟩ := alike_append.1 h
    have hstart := walkInit_congr henter init hinit
    obtain ⟨hbody, hotherwise⟩ := alike_append.1 (hstart.alike hrest)
    simp only [walkStmt, scopeAfter, Flow.evalStmt]
    refine .refl h ?_
    rw [hstart.trace, walkBlock_congr henter body hbody,
      (walkInit_congr henter otherwise hotherwise).trace]
  | .block body, h => by
    simp only [stmtNames] at h
    simp only [walkStmt, scopeAfter, Flow.evalStmt]
    exact .refl h (walkBlock_congr henter body h)
  | .scoped init bodies, h => by
    simp only [stmtNames] at h
    obtain ⟨hinit, hrest⟩ := alike_append.1 h
    have hstart := walkInit_congr henter init hinit
    simp only [walkStmt, scopeAfter, Flow.evalStmt]
    refine .refl h ?_
    rw [hstart.trace, walkBlocks_congr henter bodies (hstart.alike hrest)]
  | .result _, h | .deferred _, h | .other _, h => by
    simp only [walkStmt, scopeAfter, Flow.evalStmt]
    exact .refl h rfl

theorem walkInit_congr (henter : EntersAlike enter inherits) {scope : Scope} {a b : Setup} :
    (init : Option Stmt) → Alike (initNames site inherits scope init) scope a b →
    SameWalk (boundByInit init) (init.elim scope (scopeAfter site scope)) a b
      (walkInit site package enter a init) (walkInit site package enter b init)
  | none, h => by
    simp only [walkInit]
    exact .refl h rfl
  | some s, h => by
    simp only [initNames] at h
    simp only [walkInit]
    exact walkStmt_congr henter s h

theorem walkBlock_congr (henter : EntersAlike enter inherits) {scope : Scope} {a b : Setup} :
    (body : List Stmt) → Alike (blockNames site inherits scope body) scope a b →
    walkBlock site package enter a body = walkBlock site package enter b body
  | [], _ => by simp only [walkBlock]
  | s :: body, h => by
    simp only [blockNames] at h
    obtain ⟨hfirst, hrest⟩ := alike_append.1 h
    have hstep := walkStmt_congr henter s hfirst
    simp only [walkBlock]
    rw [hstep.trace, walkBlock_congr henter body (hstep.alike hrest)]

theorem walkBlocks_congr (henter : EntersAlike enter inherits) {scope : Scope} {a b : Setup} :
    (bodies : List (List Stmt)) → Alike (blocksNames site inherits scope bodies) scope a b →
    walkBlocks site package enter a bodies = walkBlocks site package enter b bodies
  | [], _ => by simp only [walkBlocks]
  | body :: bodies, h => by
    simp only [blocksNames] at h
    obtain ⟨hfirst, hrest⟩ := alike_append.1 h
    simp only [walkBlocks]
    rw [walkBlock_congr henter body hfirst, walkBlocks_congr henter bodies hrest]

end

end Walk

theorem entersAlike_followSetup (project : Project) (package : RouterPackage) (limit : ℕ)
    (active : List FuncRef) :
    EntersAlike (followSetup project package limit active) (inherited project limit active) := by
  induction limit generalizing active with
  | zero => exact fun f a b _ ↦ rfl
  | succ limit ih =>
    intro f a b h
    rw [inherited] at h
    rw [followSetup, followSetup]
    split
    · rfl
    · rename_i hactive
      rw [if_neg hactive] at h
      exact congrArg (Trace.inside f) (walkBlock_congr package (ih (f :: active)) _ ⟨rfl, rfl, h⟩)

/-- A helper that sets up routers finds the same from wherever it is called with the same routers,
as long as the callers agree on the variables that it captures. A router variable of the caller that
it does not capture and that is not passed might as well not be there. -/
theorem helper_sees_passed_and_captured (package : RouterPackage) (limit : ℕ)
    (active : List FuncRef) {site : Site} {a : Setup} {fn : Expr} {args : List Expr} {f : FuncRef}
    {receiver : Option Shape} (hcallee : Flow.calleeOf? site a.scope fn = some (f, receiver)) :
    let enter := followSetup site.project package limit active
    let names := captured site.project (inherited site.project limit active) f args.length
    (∀ site' b fn' args' receiver', site.project = site'.project →
      Flow.calleeOf? site' b.scope fn' = some (f, receiver') →
      args.map (mount? site package a) = args'.map (mount? site' package b) →
      (∀ x ∈ names, Assoc.get? x a.routers = Assoc.get? x b.routers) →
      walkHelper site package enter a fn args = walkHelper site' package enter b fn' args') ∧
    ∀ x ∉ args.flatMap mountNames ++ names, ∀ mount,
      walkHelper site package enter { a with routers := Assoc.put x mount a.routers } fn args =
        walkHelper site package enter a fn args := by
  intro enter names
  have henter := entersAlike_followSetup site.project package limit active
  refine ⟨fun site' b fn' args' receiver' hproject hcallee' hmounts h ↦ ?_, fun x hx mount ↦ ?_⟩
  · exact walkHelper_eq package henter hproject hcallee hcallee' hmounts h
  · have halike : Alike (args.flatMap mountNames ++ names) a.scope a
        { a with routers := Assoc.put x mount a.routers } := by
      refine ⟨rfl, rfl, fun y hy ↦ ?_⟩
      have hne : y ≠ x := fun hyx ↦ hx (hyx ▸ hy)
      exact (Assoc.get?_put_ne hne mount _).symm
    obtain ⟨hargs, hnames⟩ := alike_append.1 halike
    symm
    exact walkHelper_eq package henter rfl hcallee hcallee (map_mount?_congr package hargs)
      hnames.agree

/-- Code in which `main` hands a group to the method `Mount` of a cache, which has a method `GET`
too; `name` is the router variable of `main`. -/
def cacheProject (name : String) : Project :=
  let func (name : String) (receiver : Option Receiver) (params : List Param)
      (body : List Stmt) : FuncDecl :=
    ⟨name, receiver, params, [], body, ⟨0, 0, 0, 0, 0⟩, ⟨none, []⟩, none⟩
  let cache : Receiver := ⟨some "r", "Cache"⟩
  let get (router path : String) : Stmt :=
    .eval (.call (.selector (.ident router) "GET") [.lit .string path, .ident "List"])
  ⟨[⟨"main.go", "main", [⟨none, "github.com/gin-gonic/gin"⟩], [],
    [func "List" none [⟨some "c", .pointer (.name "gin.Context")⟩] [],
     func "GET" (some cache) [⟨some "key", .name "string"⟩, ⟨some "load", .name "any"⟩] [],
     func "Mount" (some cache) [⟨some "g", .pointer (.name "gin.RouterGroup")⟩]
      [get "r" "\"/warm\"", get "g" "\"/list\""],
     func "main" none []
      [.assign [.ident name] [.call (.selector (.ident "gin") "New") []] true,
       .assign [.ident "cache"] [.unary .address (.composite (some (.name "Cache")) [])] true,
       .eval (.call (.selector (.ident "cache") "Mount")
        [.call (.selector (.ident name) "Group") [.lit .string "\"/api\""]])]],
    [], "", false⟩]⟩

/-- The cache is mounted on a group that one caller passes as it makes it, and another one as a
variable. -/
theorem helper_sees_passed_and_captured_cache :
    let p := cacheProject "engine"
    let site := Site.ofUnit p 0
    let scope : Scope := ⟨[("cache", .named "*Cache")], []⟩
    let a : Setup := ⟨[("engine", "")], scope⟩
    let b : Setup := ⟨[("v", "/api"), ("w", "/old")], scope⟩
    let fn : Expr := .selector (.ident "cache") "Mount"
    let group : Expr := .call (.selector (.ident "engine") "Group") [.lit .string "\"/api\""]
    let walk (setup : Setup) (arg : Expr) :=
      walkHelper site .default (followSetup p .default 32 [⟨0, 3⟩]) setup fn [arg]
    (Flow.calleeOf? site scope fn = some (⟨0, 2⟩, some (.named "*Cache")) ∧
      [group].map (mount? site .default a) = [.ident "v"].map (mount? site .default b) ∧
      captured p (inherited p 32 [⟨0, 3⟩]) ⟨0, 2⟩ 1 = ["r", "List"]) ∧
    Trace.items (walk a group) = [⟨"/api/list", "get", "/api", ⟨0, 0⟩⟩] ∧
    walk a group = walk b (.ident "v") ∧
      walk { a with routers := Assoc.put "w" "/old" a.routers } group = walk a group := by
  intro p site scope a b fn group walk
  have hcallee : Flow.calleeOf? site scope fn = some (⟨0, 2⟩, some (.named "*Cache")) := by
    decide +kernel
  have hmounts : [group].map (mount? site .default a) =
      [.ident "v"].map (mount? site .default b) := by decide +kernel
  have hcaptured : captured p (inherited p 32 [⟨0, 3⟩]) ⟨0, 2⟩ 1 = ["r", "List"] := by
    decide +kernel
  obtain ⟨hsame, hadded⟩ := @helper_sees_passed_and_captured .default 32 [⟨0, 3⟩] site a fn [group]
    ⟨0, 2⟩ _ hcallee
  have hfree : ∀ x ∈ ["r", "List"], Assoc.get? x a.routers = Assoc.get? x b.routers := by decide
  refine ⟨⟨hcallee, hmounts, hcaptured⟩, by decide +kernel, ?_, ?_⟩
  · exact hsame site b fn _ _ rfl hcallee hmounts (hcaptured ▸ hfree)
  · exact hadded "w" (by decide +kernel) _

/-- Routers of the caller get into a helper through the name of its receiver: a variable of that
name that is not passed adds a route to those of the helper, and renaming the variable of `main`
adds one to those of the program. -/
theorem receiver_captures_router :
    let p := cacheProject "engine"
    let site := Site.ofUnit p 0
    let scope : Scope := ⟨[("cache", .named "*Cache")], []⟩
    let passed (routers : Routers) := mount? site .default ⟨routers, scope⟩ (.ident "v")
    let found (routers : Routers) := Trace.items (walkHelper site .default
      (followSetup p .default 32 [⟨0, 3⟩]) ⟨routers, scope⟩ (.selector (.ident "cache") "Mount")
        [.ident "v"])
    let warm : Route := ⟨"/warm", "get", "", ⟨0, 0⟩⟩
    let list : Route := ⟨"/api/list", "get", "/api", ⟨0, 0⟩⟩
    (passed [("v", "/api")] = passed [("v", "/api"), ("r", "")] ∧
      found [("v", "/api")] = [list] ∧ found [("v", "/api"), ("r", "")] = [warm, list]) ∧
    routes (cacheProject "engine") {} = [list] ∧ routes (cacheProject "r") {} = [warm, list] := by
  decide +kernel

end HandlerDocs.Routing
