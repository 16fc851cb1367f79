import HandlerDocs.Proofs.Isolation
import HandlerDocs.Proofs.Routing.Hygiene

namespace HandlerDocs

namespace Scope

variable (scope : Scope) (name : String)

@[simp] theorem sources_bind (shape : Shape) : (scope.bind name shape).sources = scope.sources := by
  rw [bind]
  split <;> rfl

@[simp] theorem sources_modify (f : Shape → Shape) :
    (scope.modify name f).sources = scope.sources := by
  rw [modify]
  split <;> rfl

theorem source?_setSource_self {name : String} (h : name ≠ "_") (source : Option ParamSource) :
    (scope.setSource name source).source? name = source := by
  cases source with
  | none => exact Assoc.get?_erase_self name scope.sources
  | some source =>
    rw [setSource, if_neg h]
    exact Assoc.get?_put_self name source scope.sources

end Scope

namespace Flow

open Code

/-- A call on a request context that reads one parameter by its literal name: a value of the query,
or a value of a form that is no file. -/
inductive ReadsParam (site : Site) (scope : Scope) : Expr → ParamSource → Prop
  | query {receiver : Expr} {method text : String} {hasDefault : Bool} {more : List Expr} :
      Vocabulary.contextCall? method = some (.query hasDefault) →
      isContext site receiver (resolve site scope receiver) →
      ReadsParam site scope (.call (.selector receiver method) (.lit .string text :: more))
        ⟨.query, LitKind.value .string text⟩
  | form {receiver : Expr} {method text : String} {hasDefault : Bool} {more : List Expr} :
      Vocabulary.contextCall? method = some (.form hasDefault false) →
      isContext site receiver (resolve site scope receiver) →
      ReadsParam site scope (.call (.selector receiver method) (.lit .string text :: more))
        ⟨.form, LitKind.value .string text⟩

theorem eq_of_methodCall? {e receiver : Expr} {method : String} {args : List Expr}
    (h : e.methodCall? = some (receiver, method, args)) :
    e = .call (.selector receiver method) args := by
  rw [Expr.methodCall?.eq_def] at h
  split at h
  · cases h
    rfl
  · cases h

theorem exists_of_literal_head {args : List Expr} {name : String}
    (h : args.head?.bind Expr.stringLit? = some name) :
    ∃ text more, args = .lit .string text :: more ∧ name = LitKind.value .string text := by
  obtain ⟨first, hfirst, hname⟩ := Option.bind_eq_some_iff.1 h
  obtain ⟨more, rfl⟩ := List.head?_eq_some_iff.1 hfirst
  rw [Expr.stringLit?.eq_def] at hname
  split at hname
  · rename_i text
    exact ⟨text, more, rfl, (Option.some.inj hname).symm⟩
  · cases hname

theorem sourceOf?_eq_some_iff {site : Site} {scope : Scope} {e : Expr} {source : ParamSource} :
    sourceOf? site scope e = some source ↔ ReadsParam site scope e source := by
  constructor
  · intro h
    obtain ⟨⟨receiver, method, args⟩, hcall, hsource⟩ := Option.bind_eq_some_iff.1 h
    obtain rfl := eq_of_methodCall? hcall
    have hread {kind : ParamKind}
        (hkind : (if isContext site receiver (resolve site scope receiver) then
          (args.head?.bind Expr.stringLit?).bind fun name ↦ some (ParamSource.mk kind name)
          else none) = some source) :
        isContext site receiver (resolve site scope receiver) ∧ ∃ text more,
          args = .lit .string text :: more ∧ source = ⟨kind, LitKind.value .string text⟩ := by
      split at hkind
      · rename_i hcontext
        obtain ⟨name, hname, hsource⟩ := Option.bind_eq_some_iff.1 hkind
        obtain ⟨text, more, rfl, rfl⟩ := exists_of_literal_head hname
        exact ⟨hcontext, text, more, rfl, (Option.some.inj hsource).symm⟩
      · cases hkind
    dsimp only at hsource
    split at hsource
    · rename_i hmethod
      obtain ⟨hcontext, text, more, rfl, rfl⟩ := hread hsource
      exact .query hmethod hcontext
    · rename_i hmethod
      obtain ⟨hcontext, text, more, rfl, rfl⟩ := hread hsource
      exact .form hmethod hcontext
    · cases hsource
  · intro h
    cases h with
    | query hmethod hcontext =>
      simp [sourceOf?, Expr.methodCall?, hmethod, hcontext, Expr.stringLit?]
    | form hmethod hcontext =>
      simp [sourceOf?, Expr.methodCall?, hmethod, hcontext, Expr.stringLit?]

/-- The value that an assignment gives to a name by itself. When one value is spread over several
targets, that is what the first of them gets. -/
def valueFor? (targets values : List Expr) (name : String) : Option Expr :=
  match targets, values with
  | target :: _ :: _, [value] => if boundName? target = some name then some value else none
  | _, _ => ((targets.zip values).find? fun p ↦ boundName? p.1 = some name).map (·.2)

def leader? : List Expr → List Expr → Option String
  | target :: _, _ :: _ => boundName? target
  | _, _ => none

def leaders : Stmt → List String
  | .assign targets values _ => (leader? targets values).toList
  | .declare specs => specs.filterMap fun spec ↦ leader? (spec.names.map .ident) spec.values
  | _ => []

section Given

variable (site : Site) (enter : FuncRef → Scope → Trace Fact)

/-- The value that the specs of a declaration give to a name, and the scope in which it stands: the
one after the specs before. -/
def specsGive? (scope : Scope) : List ValueSpec → String → Option (Scope × Expr)
  | [], _ => none
  | spec :: more, name =>
    if name ∈ spec.names then (valueFor? (spec.names.map .ident) spec.values name).map (scope, ·)
    else specsGive? (evalSpecs site enter scope [spec]).scope more name

def gives? (scope : Scope) : Stmt → String → Option (Scope × Expr)
  | .assign targets values _, name => (valueFor? targets values name).map (scope, ·)
  | .declare specs, name => specsGive? site enter scope specs name
  | _, _ => none

def GetsParam (scope : Scope) (s : Stmt) (name : String) (source : ParamSource) : Prop :=
  ∃ inner e, gives? site enter scope s name = some (inner, e) ∧ ReadsParam site inner e source

end Given

section Assign

variable (site : Site) (scope : Scope)

theorem sources_assignTarget (target : Expr) (value : Shape) :
    (assignTarget site scope target value).sources = scope.sources := by
  rw [assignTarget.eq_def]
  split
  · exact scope.sources_bind _ value
  · rw [assignField]
    split
    · rfl
    · split
      · rfl
      · split
        · rfl
        · exact scope.sources_modify _ _
  · rfl

theorem sources_assign (targets values : List Expr) (shapes : List Shape) :
    (assign site scope targets values shapes).sources =
      (assignSource site scope targets values).sources := by
  rw [assign]
  refine List.foldlRecOn (motive := fun after : Scope ↦ after.sources = _) _ _ rfl ?_
  intro after hafter p _
  rw [sources_assignTarget, hafter]

theorem sources_declareZero (names : List String) (type : Option TypeExpr) :
    (declareZero scope names type).sources = scope.sources := by
  rw [declareZero]
  refine List.foldlRecOn (motive := fun after : Scope ↦ after.sources = _) _ _ rfl ?_
  intro after hafter name _
  rw [Scope.sources_bind, hafter]

variable {targets values : List Expr} {name : String}

theorem exists_of_leader? (h : leader? targets values = some name) :
    ∃ targets' value values', targets = .ident name :: targets' ∧ values = value :: values' := by
  rw [leader?.eq_def] at h
  split at h
  · rename_i target targets value values
    rw [boundName?.eq_def] at h
    split at h
    · split at h
      · cases h
      · cases h
        exact ⟨targets, value, values, rfl, rfl⟩
    · cases h
  · cases h

theorem valueFor?_of_leader? (hname : name ≠ "_") (h : leader? targets values = some name) :
    valueFor? targets values name = values.head? := by
  obtain ⟨targets, value, values, rfl, rfl⟩ := exists_of_leader? h
  have hbound : boundName? (.ident name) = some name := if_neg hname
  rw [valueFor?.eq_def]
  split
  · rename_i heq hvalues
    cases heq
    cases hvalues
    rw [if_pos hbound]
    rfl
  · simp [hbound]

/-- Only the first target takes over where its value comes from. -/
theorem source?_assign (hname : name ≠ "_") (shapes : List Shape) :
    (assign site scope targets values shapes).source? name =
      if leader? targets values = some name then
        (valueFor? targets values name).bind (sourceOf? site scope)
      else scope.source? name := by
  rw [Scope.source?, sources_assign, ← Scope.source?]
  split
  · rename_i hleader
    rw [valueFor?_of_leader? hname hleader]
    obtain ⟨targets, value, values, rfl, rfl⟩ := exists_of_leader? hleader
    exact Scope.source?_setSource_self scope hname _
  · rename_i hleader
    rw [assignSource]
    split
    · rename_i other value htarget hvalue
      have hne : name ≠ other := by
        rintro rfl
        obtain ⟨targets, rfl⟩ := List.head?_eq_some_iff.1 htarget
        obtain ⟨values, rfl⟩ := List.head?_eq_some_iff.1 hvalue
        exact hleader (if_neg hname)
      exact congrArg Prod.snd (Scope.known_setSource_ne hne _)
    · rfl

end Assign

section Eval

variable (site : Site) (enter : FuncRef → Scope → Trace Fact)

theorem mem_boundNames_ident {names : List String} {name : String} (hname : name ≠ "_")
    (h : name ∈ names) : name ∈ Routing.boundNames (names.map .ident) := by
  refine List.mem_flatMap.2 ⟨.ident name, List.mem_map_of_mem h, ?_⟩
  rw [boundName?, if_neg hname]
  exact List.mem_singleton_self name

theorem mem_names_of_leader? {spec : ValueSpec} {name : String}
    (h : leader? (spec.names.map .ident) spec.values = some name) : name ∈ spec.names := by
  obtain ⟨targets, value, values, htargets, -⟩ := exists_of_leader? h
  have hmem : Expr.ident name ∈ spec.names.map .ident := htargets ▸ List.mem_cons_self
  obtain ⟨other, hother, heq⟩ := List.mem_map.1 hmem
  cases heq
  exact hother

theorem source?_evalSpec (scope : Scope) (spec : ValueSpec) {name : String} (hname : name ≠ "_") :
    (evalSpecs site enter scope [spec]).scope.source? name =
      if leader? (spec.names.map .ident) spec.values = some name then
        (valueFor? (spec.names.map .ident) spec.values name).bind (sourceOf? site scope)
      else scope.source? name := by
  obtain ⟨names, type, values⟩ := spec
  simp only [evalSpecs]
  split
  · rename_i hempty
    have hleader : leader? (names.map .ident) values ≠ some name := by
      rw [List.isEmpty_iff.1 hempty, leader?.eq_def]
      simp
    rw [if_neg hleader, Scope.source?, sources_declareZero, Scope.source?]
  · exact source?_assign site scope hname _

theorem evalSpecs_cons (scope : Scope) (spec : ValueSpec) (specs : List ValueSpec) :
    (evalSpecs site enter scope (spec :: specs)).scope =
      (evalSpecs site enter (evalSpecs site enter scope [spec]).scope specs).scope := by
  obtain ⟨names, type, values⟩ := spec
  simp only [evalSpecs]

theorem mem_leaders_cons {spec : ValueSpec} {specs : List ValueSpec} {name : String} :
    name ∈ leaders (.declare (spec :: specs)) ↔
      leader? (spec.names.map .ident) spec.values = some name ∨
        name ∈ leaders (.declare specs) := by
  simp [leaders, List.mem_filterMap]

theorem source?_evalSpecs (scope : Scope) {specs : List ValueSpec} {name : String}
    (hname : name ≠ "_") (hdistinct : (Routing.boundBy (.declare specs)).Nodup) :
    (evalSpecs site enter scope specs).scope.source? name =
      if name ∈ leaders (.declare specs) then
        (specsGive? site enter scope specs name).bind fun given ↦ sourceOf? site given.1 given.2
      else scope.source? name := by
  induction specs generalizing scope with
  | nil => simp [evalSpecs, leaders]
  | cons spec specs ih =>
    obtain ⟨-, hrest, hapart⟩ := List.nodup_append'.1 hdistinct
    rw [evalSpecs_cons]
    by_cases hspec : name ∈ spec.names
    · have hlater : name ∉ specs.flatMap (·.names) := by
        intro hmem
        obtain ⟨other, hother, hmem⟩ := List.mem_flatMap.1 hmem
        refine hapart (mem_boundNames_ident hname hspec) ?_
        exact List.mem_flatMap.2 ⟨other, hother, mem_boundNames_ident hname hmem⟩
      have hleaders : name ∉ leaders (.declare specs) := by
        intro hmem
        obtain ⟨other, hother, hleader⟩ := List.mem_filterMap.1 hmem
        exact hlater (List.mem_flatMap.2 ⟨other, hother, mem_names_of_leader? hleader⟩)
      calc
        _ = (evalSpecs site enter scope [spec]).scope.source? name :=
          congrArg Prod.snd (known_evalSpecs site enter hlater)
        _ = _ := by
          rw [source?_evalSpec site enter scope spec hname, specsGive?, if_pos hspec,
            Option.bind_map]
          simp only [mem_leaders_cons, hleaders, or_false]
          rfl
    · have hfirst : leader? (spec.names.map .ident) spec.values ≠ some name :=
        fun hleader ↦ hspec (mem_names_of_leader? hleader)
      rw [ih _ hrest, source?_evalSpec site enter scope spec hname, if_neg hfirst, specsGive?,
        if_neg hspec]
      simp only [mem_leaders_cons, hfirst, false_or]

theorem source?_evalStmt (scope : Scope) {s : Stmt} (hdistinct : (Routing.boundBy s).Nodup)
    {name : String} (hname : name ≠ "_") :
    (evalStmt site enter scope s).scope.source? name =
      if name ∈ leaders s then
        (gives? site enter scope s name).bind fun given ↦ sourceOf? site given.1 given.2
      else scope.source? name := by
  cases s with
  | assign targets values define =>
    simp only [evalStmt, source?_assign site scope hname, leaders, Option.mem_toList, gives?,
      Option.bind_map]
    rfl
  | declare specs =>
    simp only [evalStmt]
    exact source?_evalSpecs site enter scope hname hdistinct
  | _ => simp [evalStmt, leaders]

/-- After a statement the first target of an assignment, and of each declaration with values, is
known to hold a parameter exactly when that is what its value reads. Of any other name the record
stays as it was, whatever it is bound to. -/
theorem source_follows_first_target (scope : Scope) {s : Stmt}
    (hdistinct : (Routing.boundBy s).Nodup) {name : String} (hname : name ≠ "_") :
    let after := (evalStmt site enter scope s).scope
    (name ∈ leaders s →
      ∀ source, after.source? name = some source ↔ GetsParam site enter scope s name source) ∧
    (name ∉ leaders s → after.source? name = scope.source? name) := by
  intro after
  have hsource := source?_evalStmt site enter scope hdistinct hname
  constructor
  · intro hleader source
    rw [hsource, if_pos hleader, Option.bind_eq_some_iff]
    constructor
    · rintro ⟨⟨inner, e⟩, hgives, hreads⟩
      exact ⟨inner, e, hgives, sourceOf?_eq_some_iff.1 hreads⟩
    · rintro ⟨inner, e, hgives, hreads⟩
      exact ⟨(inner, e), hgives, sourceOf?_eq_some_iff.2 hreads⟩
  · intro hleader
    rw [hsource, if_neg hleader]

end Eval

/-- Of two values only the first is known to come from the form, and `n` is taken for a value of the
query although it is declared anew. -/
theorem source_follows_first_target_declared :
    let site : Site := ⟨⟨[]⟩, 0, "main", "main"⟩
    let scope : Scope := ⟨[("c", .named "*gin.Context")], [("n", ⟨.query, "n"⟩)]⟩
    let form (name : String) : Expr :=
      .call (.selector (.ident "c") "PostForm") [.lit .string name, .ident "c"]
    let s : Stmt := .declare [⟨["a", "b"], none, [form "\"id\"", form "\"name\""]⟩,
      ⟨["n"], some (.name "int"), []⟩]
    let after := (evalStmt site (fun _ _ ↦ []) scope s).scope
    ((Routing.boundBy s).Nodup ∧ leaders s = ["a"] ∧
      GetsParam site (fun _ _ ↦ []) scope s "a" ⟨.form, "id"⟩) ∧
    after.source? "a" = some ⟨.form, "id"⟩ ∧ after.source? "b" = none ∧
      after.source? "n" = some ⟨.query, "n"⟩ := by
  intro site scope form s after
  have hdistinct : (Routing.boundBy s).Nodup := by decide
  have hgets : GetsParam site (fun _ _ ↦ []) scope s "a" ⟨.form, "id"⟩ :=
    ⟨scope, form "\"id\"", rfl, sourceOf?_eq_some_iff.1 (by decide +kernel)⟩
  have hsource {name : String} (hname : name ≠ "_") :=
    source_follows_first_target site (fun _ _ ↦ []) scope hdistinct hname
  refine ⟨⟨hdistinct, rfl, hgets⟩, ?_, ?_, ?_⟩
  · exact ((hsource (by decide)).1 (by decide) _).2 hgets
  · exact (hsource (by decide)).2 (by decide)
  · exact (hsource (by decide)).2 (by decide)

/-- The second of two targets neither takes over the parameter that its value reads, nor does it
lose the one that was read before. -/
theorem second_target_keeps_source :
    let site : Site := ⟨⟨[]⟩, 0, "main", "main"⟩
    let enter : FuncRef → Scope → Trace Fact := fun _ _ ↦ []
    let scope : Scope := ⟨[("c", .named "*gin.Context")], []⟩
    let query (name : String) : Expr := .call (.selector (.ident "c") "Query") [.lit .string name]
    let read : Stmt :=
      .assign [.ident "page", .ident "size"] [query "\"page\"", query "\"size\""] true
    let reset : Stmt :=
      .assign [.ident "size", .ident "page"] [.lit .string "\"20\"", .lit .string "\"1\""] false
    let once := evalStmt site enter scope read
    let twice := evalStmt site enter once.scope reset
    ((Routing.boundBy read).Nodup ∧ "size" ∈ once.bound ∧
      GetsParam site enter scope read "size" ⟨.query, "size"⟩ ∧
      once.scope.source? "size" = none) ∧
    (Routing.boundBy reset).Nodup ∧ "page" ∈ twice.bound ∧
      (∀ source, ¬ GetsParam site enter once.scope reset "page" source) ∧
      twice.scope.source? "page" = some ⟨.query, "page"⟩ := by
  intro site enter scope query read reset once twice
  refine ⟨⟨by decide, by decide +kernel, ?_, by decide +kernel⟩, by decide, by decide +kernel, ?_,
    by decide +kernel⟩
  · exact ⟨scope, query "\"size\"", rfl, sourceOf?_eq_some_iff.1 (by decide +kernel)⟩
  · rintro source ⟨inner, e, hgives, hreads⟩
    cases hgives
    cases hreads

end Flow

end HandlerDocs
