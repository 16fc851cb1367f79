import Mathlib.Logic.Relation
import HandlerDocs.Flow.Handler
import HandlerDocs.Proofs.Flow.Resolved

namespace HandlerDocs.Flow

open Code Relation

inductive Task where
  | block (body : List Stmt)
  | expr (passed : Bool) (e : Expr)
  | call (fn : Expr) (args : List Expr)

/-- A point of a run: how many more functions may be entered and which are active, where the code
stands, the environment, and what is evaluated in it. -/
structure Point where
  limit : ℕ
  active : List FuncRef
  site : Site
  scope : Scope
  task : Task

def valuesOf : Stmt → List Expr
  | .assign _ values _ => values
  | .declare (spec :: _) => spec.values
  | .eval e | .deferred e => [e]
  | .result values => values
  | _ => []

/-- The statements inside a statement, each list with the scope it starts in. The specs of a
declaration come one after the other, each in the scope after the one before. -/
def blocksOf (site : Site) (enter : FuncRef → Scope → Trace Fact) (scope : Scope) :
    Stmt → List (Scope × List Stmt)
  | .declare (spec :: specs) =>
    [((evalSpecs site enter scope [spec]).scope, [.declare specs])]
  | .branch init body otherwise =>
    let start := (evalInit site enter scope init).1
    [(scope, init.toList), (start, body), (start, otherwise.toList)]
  | .block body => [(scope, body)]
  | .scoped init bodies =>
    let start := (evalInit site enter scope init).1
    (scope, init.toList) :: bodies.map (start, ·)
  | _ => []

theorem fieldsResolved_blocksOf {site : Site} {scope : Scope}
    (enter : FuncRef → Scope → Trace Fact) (hproject : site.project.Declared)
    (hscope : scope.FieldsResolved) : (s : Stmt) →
    ∀ b ∈ blocksOf site enter scope s, b.1.FieldsResolved
  | .declare (spec :: specs) =>
    List.forall_mem_singleton.2 (fieldsResolved_evalSpecs enter hproject hscope [spec])
  | .branch init body otherwise => by
    have hstart := fieldsResolved_evalInit enter hproject hscope init
    simp only [blocksOf, List.forall_mem_cons]
    exact ⟨hscope, hstart, hstart, List.forall_mem_nil _⟩
  | .block body => List.forall_mem_singleton.2 hscope
  | .scoped init bodies => by
    have hstart := fieldsResolved_evalInit enter hproject hscope init
    simp only [blocksOf, List.forall_mem_cons, List.forall_mem_map]
    exact ⟨hscope, fun _ _ ↦ hstart⟩
  | .declare [] | .assign _ _ _ | .eval _ | .deferred _ | .result _ | .other _ =>
    List.forall_mem_nil _

def bodyOf (project : Project) (f : FuncRef) : List Stmt :=
  ((project.function? f).map (·.body)).getD []

def followFrom (site : Site) (limit : ℕ) (active : List FuncRef) : FuncRef → Scope → Trace Fact :=
  follow site.project site.reader limit active

/-- One point of a run leads to another. -/
inductive Leads : Point → Point → Prop
  | next {limit active site scope s more} :
    Leads ⟨limit, active, site, scope, .block (s :: more)⟩
      ⟨limit, active, site, (evalStmt site (followFrom site limit active) scope s).scope,
        .block more⟩
  | value {limit active site scope s more e} (h : e ∈ valuesOf s) :
    Leads ⟨limit, active, site, scope, .block (s :: more)⟩
      ⟨limit, active, site, scope, .expr false e⟩
  | inner {limit active site scope s more start body}
    (h : (start, body) ∈ blocksOf site (followFrom site limit active) scope s) :
    Leads ⟨limit, active, site, scope, .block (s :: more)⟩
      ⟨limit, active, site, start, .block body⟩
  | address {limit active site scope passed e} :
    Leads ⟨limit, active, site, scope, .expr passed (.unary .address e)⟩
      ⟨limit, active, site, scope, .expr passed e⟩
  | arg {limit active site scope passed fn args e} (h : e ∈ args) :
    Leads ⟨limit, active, site, scope, .expr passed (.call fn args)⟩
      ⟨limit, active, site, scope, .expr true e⟩
  | call {limit active site scope passed fn args} :
    Leads ⟨limit, active, site, scope, .expr passed (.call fn args)⟩
      ⟨limit, active, site, scope, .call fn args⟩
  | literal {limit active site scope params body} :
    Leads ⟨limit, active, site, scope, .expr true (.funcLit params body)⟩
      ⟨limit, active, site, closureScope site scope params [], .block body⟩
  | apply {limit active site scope params body args} :
    Leads ⟨limit, active, site, scope, .call (.funcLit params body) args⟩
      ⟨limit, active, site, closureScope site scope params args, .block body⟩
  | enter {limit active site scope fn args f receiver}
    (hknown : knownCall? site scope fn args = none)
    (hcallee : calleeOf? site scope fn = some (f, receiver)) (hactive : f ∉ active) :
    Leads ⟨limit + 1, active, site, scope, .call fn args⟩
      ⟨limit, f :: active, site.inside f, calleeScope site scope f receiver args,
        .block (bodyOf site.project f)⟩

namespace Point

def start (project : Project) (limit : ℕ) (f : FuncRef) : Point :=
  ⟨limit, [f], Site.ofUnit project f.unit, Site.entryScope project f, .block (bodyOf project f)⟩

def Reached (project : Project) (limit : ℕ) (f : FuncRef) (p : Point) : Prop :=
  ReflTransGen Leads (start project limit f) p

def facts (p : Point) : List Fact :=
  match p.task with
  | .call fn args =>
    ((knownCall? p.site p.scope fn args).map fun outcome ↦ Trace.items outcome.trace).getD []
  | _ => []

def Shows (p : Point) (fact : Fact) : Prop :=
  ∃ q, ReflTransGen Leads p q ∧ fact ∈ q.facts

theorem Shows.of_leads {p q : Point} {fact : Fact} (h : q.Shows fact) (hpq : Leads p q) :
    p.Shows fact := by
  obtain ⟨r, hr, hfact⟩ := h
  exact ⟨r, .head hpq hr, hfact⟩

structure Clean (p : Point) : Prop where
  declared : p.site.project.Declared
  resolved : p.scope.FieldsResolved

theorem Clean.of_leads {p q : Point} (h : Leads p q) (hp : p.Clean) : q.Clean := by
  obtain ⟨hproject, hscope⟩ := hp
  cases h with
  | next => exact ⟨hproject, fieldsResolved_evalStmt _ hproject hscope _⟩
  | inner hmem => exact ⟨hproject, fieldsResolved_blocksOf _ hproject hscope _ _ hmem⟩
  | literal => exact ⟨hproject, fieldsResolved_closureScope hproject hscope _ _⟩
  | apply => exact ⟨hproject, fieldsResolved_closureScope hproject hscope _ _⟩
  | enter hknown hcallee hactive =>
    have hreceiver := fieldsResolved_calleeOf? hproject hscope hcallee
    exact ⟨hproject, fieldsResolved_calleeScope hproject hscope _ hreceiver _⟩
  | _ => exact ⟨hproject, hscope⟩

theorem Clean.of_reached {project : Project} (hproject : project.Declared) {limit : ℕ} {f : FuncRef}
    {p : Point} (h : Reached project limit f p) : p.Clean := by
  induction h with
  | refl => exact ⟨hproject, fieldsResolved_entryScope hproject f⟩
  | tail _ hleads ih => exact ih.of_leads hleads

theorem Clean.facts {p : Point} (h : p.Clean) : ∀ fact ∈ p.facts, fact.FieldsResolved := by
  intro fact hfact
  rw [Point.facts] at hfact
  split at hfact
  · rename_i fn args _
    cases hknown : knownCall? p.site p.scope fn args with
    | none =>
      rw [hknown] at hfact
      cases hfact
    | some outcome =>
      rw [hknown] at hfact
      exact fieldsResolved_knownCall? h.declared h.resolved hknown fact hfact
  · cases hfact

end Point

section Shown

open Point

variable {limit : ℕ} {active : List FuncRef} {site : Site}

def FollowShows (limit : ℕ) (active : List FuncRef) (site : Site) : Prop :=
  ∀ f scope, ∀ fact ∈ Trace.items (followFrom site limit active f scope),
    ∃ n, limit = n + 1 ∧ f ∉ active ∧
      Shows ⟨n, f :: active, site.inside f, scope, .block (bodyOf site.project f)⟩ fact

theorem shows_callNamed (hfollow : FollowShows limit active site) (scope : Scope) (fn : Expr)
    (args : List Expr) :
    ∀ fact ∈ Trace.items (callNamed site (followFrom site limit active) scope fn args).trace,
      Shows ⟨limit, active, site, scope, .call fn args⟩ fact := by
  intro fact hfact
  rw [callNamed] at hfact
  cases hknown : knownCall? site scope fn args with
  | some outcome =>
    rw [hknown] at hfact
    refine ⟨_, .refl, ?_⟩
    simp only [Point.facts, hknown]
    exact hfact
  | none =>
    rw [hknown] at hfact
    cases hcallee : calleeOf? site scope fn with
    | none =>
      rw [hcallee] at hfact
      cases hfact
    | some found =>
      obtain ⟨f, receiver⟩ := found
      rw [hcallee] at hfact
      obtain ⟨n, rfl, hactive, hshows⟩ := hfollow f _ fact hfact
      exact hshows.of_leads (.enter hknown hcallee hactive)

theorem shows_call {scope : Scope} {fn : Expr} {args : List Expr} {before after : Trace Fact}
    (hargs : ∀ fact ∈ Trace.items before,
      ∃ arg ∈ args, Shows ⟨limit, active, site, scope, .expr true arg⟩ fact)
    (hfn : ∀ fact ∈ Trace.items after, Shows ⟨limit, active, site, scope, .call fn args⟩ fact) :
    ∀ fact ∈ Trace.items (before ++ after), ∀ passed,
      Shows ⟨limit, active, site, scope, .expr passed (.call fn args)⟩ fact := by
  intro fact hfact passed
  rw [Trace.items_append] at hfact
  rcases List.mem_append.1 hfact with hfact | hfact
  · obtain ⟨arg, harg, hshows⟩ := hargs fact hfact
    exact hshows.of_leads (.arg harg)
  · exact (hfn fact hfact).of_leads .call

mutual

theorem shows_evalExpr (hfollow : FollowShows limit active site) (scope : Scope) : (e : Expr) →
    ∀ fact ∈ Trace.items (evalExpr site (followFrom site limit active) scope e).2, ∀ passed,
      Shows ⟨limit, active, site, scope, .expr passed e⟩ fact
  | .call fn args => by
    simp only [evalExpr]
    exact shows_call (shows_evalArgs hfollow scope args) (shows_evalCallee hfollow scope args fn)
  | .unary .address operand => by
    simp only [evalExpr]
    exact fun fact hfact passed ↦
      (shows_evalExpr hfollow scope operand fact hfact passed).of_leads .address
  | .unary .plus operand | .unary .minus operand | .unary .not operand
  | .unary .complement operand | .unary .deref operand | .unary .receive operand
  | .ident _ | .lit _ _ | .selector _ _ | .composite _ _ | .assertion _ _ | .funcLit _ _
  | .type _ | .other _ => by
    simp only [evalExpr]
    exact List.forall_mem_nil _

theorem shows_evalSpread (hfollow : FollowShows limit active site) (scope : Scope) (count : ℕ) :
    (e : Expr) →
    ∀ fact ∈ Trace.items (evalSpread site (followFrom site limit active) scope count e).2,
      Shows ⟨limit, active, site, scope, .expr false e⟩ fact
  | .call fn args => by
    simp only [evalSpread]
    exact fun fact hfact ↦ shows_call (shows_evalArgs hfollow scope args)
      (shows_evalCallee hfollow scope args fn) fact hfact false
  | .unary _ _ | .ident _ | .lit _ _ | .selector _ _ | .composite _ _ | .assertion _ _
  | .funcLit _ _ | .type _ | .other _ => by
    simp only [evalSpread]
    exact List.forall_mem_nil _

theorem shows_evalCallee (hfollow : FollowShows limit active site) (scope : Scope)
    (args : List Expr) : (fn : Expr) →
    ∀ fact ∈ Trace.items (evalCallee site (followFrom site limit active) scope args fn).trace,
      Shows ⟨limit, active, site, scope, .call fn args⟩ fact
  | .funcLit params body => by
    simp only [evalCallee]
    exact fun fact hfact ↦ (shows_evalBlock hfollow _ body fact hfact).of_leads .apply
  | .call _ _ | .unary _ _ | .ident _ | .lit _ _ | .selector _ _ | .composite _ _
  | .assertion _ _ | .type _ | .other _ => by
    simp only [evalCallee]
    exact shows_callNamed hfollow scope _ args

theorem shows_evalArg (hfollow : FollowShows limit active site) (scope : Scope) : (e : Expr) →
    ∀ fact ∈ Trace.items (evalArg site (followFrom site limit active) scope e),
      Shows ⟨limit, active, site, scope, .expr true e⟩ fact
  | .unary .address operand => by
    simp only [evalArg]
    exact fun fact hfact ↦ (shows_evalArg hfollow scope operand fact hfact).of_leads .address
  | .call fn args => by
    simp only [evalArg]
    exact fun fact hfact ↦ shows_call (shows_evalArgs hfollow scope args)
      (shows_evalCallee hfollow scope args fn) fact hfact true
  | .funcLit params body => by
    simp only [evalArg]
    exact fun fact hfact ↦ (shows_evalBlock hfollow _ body fact hfact).of_leads .literal
  | .unary .plus operand | .unary .minus operand | .unary .not operand
  | .unary .complement operand | .unary .deref operand | .unary .receive operand
  | .ident _ | .lit _ _ | .selector _ _ | .composite _ _ | .assertion _ _ | .type _ | .other _ => by
    simp only [evalArg]
    exact List.forall_mem_nil _

theorem shows_evalArgs (hfollow : FollowShows limit active site) (scope : Scope) :
    (args : List Expr) →
    ∀ fact ∈ Trace.items (evalArgs site (followFrom site limit active) scope args),
      ∃ arg ∈ args, Shows ⟨limit, active, site, scope, .expr true arg⟩ fact
  | [] => by
    simp only [evalArgs]
    exact List.forall_mem_nil _
  | arg :: args => by
    simp only [evalArgs, Trace.items_append, List.exists_mem_cons_iff]
    intro fact hfact
    exact (List.mem_append.1 hfact).imp (shows_evalArg hfollow scope arg fact)
      (shows_evalArgs hfollow scope args fact)

theorem shows_evalEach (hfollow : FollowShows limit active site) (scope : Scope) :
    (es : List Expr) →
    ∀ fact ∈ Trace.items (evalEach site (followFrom site limit active) scope es).2,
      ∃ e ∈ es, Shows ⟨limit, active, site, scope, .expr false e⟩ fact
  | [] => by
    simp only [evalEach]
    exact List.forall_mem_nil _
  | e :: es => by
    simp only [evalEach, Trace.items_append, List.exists_mem_cons_iff]
    intro fact hfact
    exact (List.mem_append.1 hfact).imp (shows_evalExpr hfollow scope e fact · false)
      (shows_evalEach hfollow scope es fact)

theorem shows_evalValues (hfollow : FollowShows limit active site) (scope : Scope) (count : ℕ) :
    (es : List Expr) →
    ∀ fact ∈ Trace.items (evalValues site (followFrom site limit active) scope count es).2,
      ∃ e ∈ es, Shows ⟨limit, active, site, scope, .expr false e⟩ fact
  | [] => by
    simp only [evalValues]
    exact List.forall_mem_nil _
  | e :: es => by
    simp only [evalValues, List.exists_mem_cons_iff]
    split
    · exact fun fact hfact ↦ .inl (shows_evalSpread hfollow scope count e fact hfact)
    · rw [Trace.items_append]
      intro fact hfact
      exact (List.mem_append.1 hfact).imp (shows_evalExpr hfollow scope e fact · false)
        (shows_evalEach hfollow scope es fact)

theorem shows_evalSpecs (hfollow : FollowShows limit active site) (scope : Scope) :
    (specs : List ValueSpec) →
    ∀ fact ∈ Trace.items (evalSpecs site (followFrom site limit active) scope specs).trace,
    ∀ more, Shows ⟨limit, active, site, scope, .block (.declare specs :: more)⟩ fact
  | [] => by
    simp only [evalSpecs]
    exact List.forall_mem_nil _
  | ⟨names, type, values⟩ :: specs => by
    simp only [evalSpecs, Trace.items_append]
    intro fact hfact more
    rcases List.mem_append.1 hfact with hfact | hfact
    · split at hfact
      · cases hfact
      · obtain ⟨e, he, hshows⟩ := shows_evalValues hfollow scope _ values fact hfact
        exact hshows.of_leads (.value he)
    · refine (shows_evalSpecs hfollow _ specs fact hfact []).of_leads (.inner ?_)
      simp [blocksOf, evalSpecs]

theorem shows_evalStmt (hfollow : FollowShows limit active site) (scope : Scope) : (s : Stmt) →
    ∀ fact ∈ Trace.items (evalStmt site (followFrom site limit active) scope s).trace, ∀ more,
      Shows ⟨limit, active, site, scope, .block (s :: more)⟩ fact
  | .assign targets values _ => by
    simp only [evalStmt]
    intro fact hfact more
    obtain ⟨e, he, hshows⟩ := shows_evalValues hfollow scope _ values fact hfact
    exact hshows.of_leads (.value he)
  | .declare specs => by
    simp only [evalStmt]
    exact shows_evalSpecs hfollow scope specs
  | .eval e | .deferred e => by
    simp only [evalStmt]
    exact fun fact hfact more ↦ (shows_evalExpr hfollow scope e fact hfact false).of_leads
      (.value (List.mem_singleton_self e))
  | .branch init body otherwise => by
    simp only [evalStmt, Trace.items_append]
    intro fact hfact more
    rcases List.mem_append.1 hfact with hfact | hfact
    · rcases List.mem_append.1 hfact with hfact | hfact
      · refine (shows_evalInit hfollow scope init fact hfact).of_leads (.inner ?_)
        simp [blocksOf]
      · refine (shows_evalBlock hfollow _ body fact hfact).of_leads (.inner ?_)
        simp [blocksOf]
    · refine (shows_evalInit hfollow _ otherwise fact hfact).of_leads (.inner ?_)
      simp [blocksOf]
  | .block body => by
    simp only [evalStmt]
    exact fun fact hfact more ↦ (shows_evalBlock hfollow scope body fact hfact).of_leads
      (.inner (List.mem_singleton_self _))
  | .scoped init bodies => by
    simp only [evalStmt, Trace.items_append]
    intro fact hfact more
    rcases List.mem_append.1 hfact with hfact | hfact
    · refine (shows_evalInit hfollow scope init fact hfact).of_leads (.inner ?_)
      simp [blocksOf]
    · obtain ⟨body, hbody, hshows⟩ := shows_evalBlocks hfollow _ bodies fact hfact
      refine hshows.of_leads (.inner ?_)
      simp [blocksOf, hbody]
  | .result values => by
    simp only [evalStmt]
    intro fact hfact more
    obtain ⟨e, he, hshows⟩ := shows_evalEach hfollow scope values fact hfact
    exact hshows.of_leads (.value he)
  | .other _ => by
    simp only [evalStmt]
    exact List.forall_mem_nil _

theorem shows_evalInit (hfollow : FollowShows limit active site) (scope : Scope) :
    (init : Option Stmt) →
    ∀ fact ∈ Trace.items (evalInit site (followFrom site limit active) scope init).2,
      Shows ⟨limit, active, site, scope, .block init.toList⟩ fact
  | none => by
    simp only [evalInit]
    exact List.forall_mem_nil _
  | some s => by
    simp only [evalInit]
    exact fun fact hfact ↦ shows_evalStmt hfollow scope s fact hfact []

theorem shows_evalBlock (hfollow : FollowShows limit active site) (scope : Scope) :
    (body : List Stmt) →
    ∀ fact ∈ Trace.items (evalBlock site (followFrom site limit active) scope body),
      Shows ⟨limit, active, site, scope, .block body⟩ fact
  | [] => by
    simp only [evalBlock]
    exact List.forall_mem_nil _
  | s :: body => by
    simp only [evalBlock, Trace.items_append]
    intro fact hfact
    rcases List.mem_append.1 hfact with hfact | hfact
    · exact shows_evalStmt hfollow scope s fact hfact body
    · exact (shows_evalBlock hfollow _ body fact hfact).of_leads .next

theorem shows_evalBlocks (hfollow : FollowShows limit active site) (scope : Scope) :
    (bodies : List (List Stmt)) →
    ∀ fact ∈ Trace.items (evalBlocks site (followFrom site limit active) scope bodies),
      ∃ body ∈ bodies, Shows ⟨limit, active, site, scope, .block body⟩ fact
  | [] => by
    simp only [evalBlocks]
    exact List.forall_mem_nil _
  | body :: bodies => by
    simp only [evalBlocks, Trace.items_append, List.exists_mem_cons_iff]
    intro fact hfact
    exact (List.mem_append.1 hfact).imp (shows_evalBlock hfollow scope body fact)
      (shows_evalBlocks hfollow scope bodies fact)

end

end Shown

theorem followShows (limit : ℕ) (active : List FuncRef) (site : Site) :
    FollowShows limit active site := by
  induction limit generalizing active site with
  | zero => exact fun f scope ↦ List.forall_mem_nil _
  | succ limit ih =>
    intro f scope fact hfact
    rw [followFrom, follow] at hfact
    split at hfact
    · cases hfact
    · rename_i hactive
      rw [Trace.items_inside] at hfact
      exact ⟨limit, rfl, hactive,
        shows_evalBlock (ih (f :: active) (site.inside f)) scope _ fact hfact⟩

/-- Every fact of a handler is found at a point of its run. -/
theorem exists_reached_of_mem_handlerFacts {project : Project} {limit : ℕ} {f : FuncRef}
    {fact : Fact} (h : fact ∈ handlerFacts project limit f) :
    ∃ p, Point.Reached project limit f p ∧ fact ∈ p.facts := by
  obtain ⟨n, hn, -, hshows⟩ :=
    followShows (limit + 1) [] (Site.ofUnit project f.unit) f _ fact h
  obtain rfl : limit = n := Nat.succ.inj hn
  exact hshows

theorem fieldsResolved_of_mem_handlerFacts {project : Project} (hproject : project.Declared)
    {limit : ℕ} {f : FuncRef} {fact : Fact} (h : fact ∈ handlerFacts project limit f) :
    fact.FieldsResolved := by
  obtain ⟨p, hp, hfound⟩ := exists_reached_of_mem_handlerFacts h
  exact (Point.Clean.of_reached hproject hp).facts fact hfound

/-- Whatever files a project is loaded from, evaluating its handlers leaves no unresolved text
inside a shape. -/
theorem fieldsResolved_of_load (disk : Disk) (cwd : Disk.Place) (paths : List String) (limit : ℕ)
    (f : FuncRef) :
    let project := (Generation.load disk cwd paths).1
    (∀ p, Point.Reached project limit f p → p.scope.FieldsResolved) ∧
      ∀ fact ∈ handlerFacts project limit f, fact.FieldsResolved := by
  have hdeclared := Project.declared_load disk cwd paths
  exact ⟨fun p hp ↦ (Point.Clean.of_reached hdeclared hp).resolved,
    fun fact hfact ↦ fieldsResolved_of_mem_handlerFacts hdeclared hfact⟩

/-- Evaluating a handler never leaves an unresolved text inside a shape, neither in the variables
of an environment that its run reaches nor in the facts that it shows. -/
theorem unresolved_stays_out_of_fields (project : Project) (hproject : project.Declared)
    (limit : ℕ) (f : FuncRef) :
    (∀ p, Point.Reached project limit f p → p.scope.FieldsResolved) ∧
    ∀ fact ∈ handlerFacts project limit f,
      (∃ p, Point.Reached project limit f p ∧ fact ∈ p.facts) ∧ fact.FieldsResolved := by
  refine ⟨fun p hp ↦ (Point.Clean.of_reached hproject hp).resolved, fun fact hfact ↦ ?_⟩
  exact ⟨exists_reached_of_mem_handlerFacts hfact,
    fieldsResolved_of_mem_handlerFacts hproject hfact⟩

/-- A literal in a literal and an assigned field lose what `lookup` gives, which a response itself
may still be. The package variable `limit` is declared with its type. -/
theorem unresolved_stays_out_of_fields_page :
    let func (name : String) (params : List Param) (body : List Stmt) : FuncDecl :=
      ⟨name, none, params, [], body, ⟨0, 0, 0, 0, 0⟩, ⟨none, []⟩, none⟩
    let c : Param := ⟨some "c", .pointer (.name "gin.Context")⟩
    let pageOf (size : Expr) : Expr := .composite (some (.name "Page"))
      [⟨some (.ident "Size"), size⟩, ⟨some (.ident "Next"), .ident "next"⟩]
    let json (status value : String) : Stmt :=
      .eval (.call (.selector (.ident "c") "JSON") [.lit .int status, .ident value])
    let file : SourceFile := ⟨"p.go", "p", [⟨none, "github.com/gin-gonic/gin"⟩],
      SourceFile.globalsOf ⟨["limit"], some (.name "int"), []⟩,
      [func "List" [c]
        [.assign [.ident "next"] [.call (.ident "lookup") []] true,
         .assign [.ident "page"] [pageOf (pageOf (.ident "limit"))] true,
         .assign [.selector (.selector (.ident "page") "Size") "Next"] [.ident "next"] false,
         .eval (.call (.ident "send") [.ident "c", .ident "next", .ident "page"])],
       func "send" [c, ⟨some "note", .name "any"⟩, ⟨some "page", .name "Page"⟩]
        [json "200" "page", json "404" "note"]],
      [("Page", .struct ⟨"Page", [⟨["Size", "Next"], .name "any", none⟩]⟩)], "", false⟩
    let p : Project := ⟨[file]⟩
    let page := Shape.record "Page" [("size", .record "Page" [("size", .named "int")])]
    p.Declared ∧ handlerFacts p 1 ⟨0, 0⟩ = [.produce "json", .response 200 page,
      .produce "json", .response 404 (.unresolved "lookup()")] ∧
    (∀ q, Point.Reached p 1 ⟨0, 0⟩ q → q.scope.FieldsResolved) ∧ page.FieldsResolved := by
  intro func c pageOf json file p page
  have hdeclared : p.Declared :=
    List.forall_mem_singleton.2 ⟨[⟨["limit"], some (.name "int"), []⟩], rfl⟩
  have hview : handlerFacts p 1 ⟨0, 0⟩ = [.produce "json", .response 200 page,
      .produce "json", .response 404 (.unresolved "lookup()")] := by
    decide +kernel
  obtain ⟨hscopes, hfacts⟩ := unresolved_stays_out_of_fields p hdeclared 1 ⟨0, 0⟩
  have hpage := hfacts (.response 200 page) (hview ▸ by decide)
  exact ⟨hdeclared, hview, hscopes, hpage.2 page rfl⟩

end HandlerDocs.Flow
