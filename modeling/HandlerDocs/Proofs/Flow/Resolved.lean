import HandlerDocs.Proofs.Descent
import HandlerDocs.Proofs.Flow.Values
import HandlerDocs.Proofs.Shape

namespace HandlerDocs

def Fact.shape? : Fact → Option Shape
  | .param _ _ shape _ _ => some shape
  | .response _ shape => some shape
  | _ => none

def Fact.FieldsResolved (fact : Fact) : Prop :=
  ∀ shape ∈ fact.shape?, shape.FieldsResolved

namespace Flow

open Code

section Resolve

variable {site : Site} {scope : Scope}

theorem fieldsResolved_deref {s : Shape} (h : s.FieldsResolved) : (deref s).FieldsResolved := by
  cases s with
  | named name => exact Shape.fieldsResolved_named _
  | unresolved text => exact h
  | record name fields => exact Shape.fieldsResolved_record.2 (Shape.fieldsResolved_record.1 h)

theorem fieldsResolved_literalShape (kind : LitKind) :
    ∀ s ∈ literalShape kind, s.FieldsResolved := by
  intro s hs
  cases kind with
  | nil => cases hs
  | _ => exact Option.some.inj hs ▸ Shape.fieldsResolved_named _

theorem fieldsResolved_selectorShape? (hproject : site.project.Declared) {base : Option Shape}
    (hbase : ∀ s ∈ base, s.FieldsResolved) (operand : Expr) (field : String) :
    ∀ s ∈ selectorShape? site scope operand field base, s.FieldsResolved := by
  intro s hs
  rw [Option.mem_def, selectorShape?] at hs
  split at hs
  · obtain ⟨package, -, hs⟩ := Option.bind_eq_some_iff.1 hs
    obtain ⟨shape, hshape, hs⟩ := Option.bind_eq_some_iff.1 hs
    have hresolved := hproject.globals package _ (Assoc.mem_of_get? hshape)
    obtain rfl := Option.some.inj hs
    split
    · exact hresolved
    · exact hresolved.qualify _
  · obtain ⟨base, hmem, hs⟩ := Option.bind_eq_some_iff.1 hs
    obtain ⟨⟨package, decl⟩, -, hs⟩ := Option.bind_eq_some_iff.1 hs
    obtain ⟨declared, -, hs⟩ := Option.bind_eq_some_iff.1 hs
    obtain rfl := Option.some.inj hs
    cases hfield : base.field? (declared.docName field) with
    | none => exact Shape.fieldsResolved_named _
    | some value => exact ((hbase base hmem).of_field? hfield).2

theorem fieldsResolved_map_named (names : List String) :
    ∀ s ∈ names.map Shape.named, s.FieldsResolved :=
  List.forall_mem_map.2 fun name _ ↦ Shape.fieldsResolved_named name

theorem fieldsResolved_knownResults? {fn : Expr} {receiver : Option Shape} {results : List Shape}
    (h : knownResults? site fn receiver = some results) : ∀ s ∈ results, s.FieldsResolved := by
  cases fn with
  | selector operand method =>
    rw [knownResults?] at h
    split at h
    · obtain rfl := Option.some.inj h
      exact fieldsResolved_map_named _
    · obtain ⟨types, -, rfl⟩ := Option.map_eq_some_iff.1 h
      exact fieldsResolved_map_named [types.2, "error"]
  | _ => cases h

theorem fieldsResolved_builtinResults? {fn : Expr} {args : List Expr} {first : Option Shape}
    (hfirst : ∀ s ∈ first, s.FieldsResolved) {results : List Shape}
    (h : builtinResults? scope fn args first = some results) :
    ∀ s ∈ results, s.FieldsResolved := by
  have hone {name : String} (h : some [Shape.named name] = some results) :
      ∀ s ∈ results, s.FieldsResolved :=
    Option.some.inj h ▸ fieldsResolved_map_named [name]
  rw [builtinResults?.eq_def] at h
  split at h
  · exact hone h
  · split at h
    · cases h
    · split at h
      · exact hone h
      · split at h
        · obtain ⟨arg, -, h⟩ := Option.map_eq_some_iff.1 h
          exact hone (congrArg some h)
        · obtain ⟨arg, -, h⟩ := Option.map_eq_some_iff.1 h
          exact hone (congrArg some h)
        · exact hone h
        · exact hone h
        · exact hone h
        · obtain ⟨s, hs, rfl⟩ := Option.map_eq_some_iff.1 h
          exact List.forall_mem_singleton.2 (hfirst s hs)
        · cases h
  · cases h

theorem fieldsResolved_callResults? {fn : Expr} {args : List Expr} {receiver first : Option Shape}
    (hfirst : ∀ s ∈ first, s.FieldsResolved) {results : List Shape}
    (h : callResults? site scope fn args receiver first = some results) :
    ∀ s ∈ results, s.FieldsResolved := by
  rw [callResults?] at h
  split at h
  · rename_i hknown
    exact Option.some.inj h ▸ fieldsResolved_knownResults? hknown
  · split at h
    · obtain rfl := Option.some.inj h
      exact List.forall_mem_map.2 fun type _ ↦ Shape.fieldsResolved_named _
    · exact fieldsResolved_builtinResults? hfirst h

theorem fieldsResolved_firstResult {fn : Expr} {args : List Expr} {receiver first : Option Shape}
    (hfirst : ∀ s ∈ first, s.FieldsResolved) :
    ∀ s ∈ (callResults? site scope fn args receiver first).bind (·.head?), s.FieldsResolved := by
  intro s hs
  obtain ⟨results, hresults, hs⟩ := Option.bind_eq_some_iff.1 hs
  exact fieldsResolved_callResults? hfirst hresults s (List.mem_of_head? hs)

theorem resolved_of_mem_resolvedOnly {shape : Option Shape} (h : ∀ s ∈ shape, s.FieldsResolved) :
    ∀ s ∈ resolvedOnly shape, s.Resolved := by
  intro s hs
  cases shape with
  | none => cases hs
  | some shape =>
    cases shape with
    | unresolved text => cases hs
    | _ => exact Option.some.inj hs ▸ ⟨rfl, h _ rfl⟩

theorem resolved_start (site : Site) (type : String) :
    (Literal.start site type).shape.Resolved := by
  rw [Literal.start]
  split
  · exact ⟨rfl, Shape.fieldsResolved_record.2 (List.forall_mem_nil _)⟩
  · exact ⟨rfl, Shape.fieldsResolved_named type⟩

theorem resolved_put {literal : Literal} (h : literal.shape.Resolved) (key : String)
    {value : Option Shape} (hvalue : ∀ s ∈ value, s.Resolved) :
    (literal.put key value).shape.Resolved := by
  cases value with
  | none => exact h
  | some value => exact h.2.setField key (hvalue value rfl)

mutual

/-- What is read off a scope without unresolved fields has none. -/
theorem fieldsResolved_resolve (hproject : site.project.Declared) (hscope : scope.FieldsResolved) :
    (e : Expr) → ∀ s ∈ resolve site scope e, s.FieldsResolved
  | .ident name => by
    simp only [resolve]
    exact fun s hs ↦ hscope.of_get? hs
  | .lit kind _ => by
    simp only [resolve]
    exact fieldsResolved_literalShape kind
  | .selector operand field => by
    simp only [resolve]
    exact fieldsResolved_selectorShape? hproject
      (fieldsResolved_resolve hproject hscope operand) _ _
  | .call fn args => by
    simp only [resolve]
    exact fieldsResolved_firstResult (fieldsResolved_resolveHead hproject hscope args)
  | .composite (some t) elements => by
    simp only [resolve]
    intro s hs
    exact Option.some.inj hs ▸
      (resolved_resolveElements hproject hscope (resolved_start site t.render) elements).2
  | .composite none _ | .other _ => by
    simp only [resolve]
    exact fun s hs ↦ nomatch hs
  | .unary op operand => by
    have hoperand := fieldsResolved_resolve hproject hscope operand
    simp only [resolve]
    split
    · intro s hs
      obtain ⟨inner, hinner, rfl⟩ := Option.map_eq_some_iff.1 hs
      exact fieldsResolved_deref (hoperand inner hinner)
    · exact fun s hs ↦ Option.some.inj hs ▸ Shape.fieldsResolved_named _
    · exact fun s hs ↦ nomatch hs
    · exact hoperand
  | .assertion _ (some t) | .type t | .funcLit _ _ => by
    simp only [resolve]
    exact fun s hs ↦ Option.some.inj hs ▸ Shape.fieldsResolved_named _
  | .assertion operand none => by
    simp only [resolve]
    exact fieldsResolved_resolve hproject hscope operand

theorem fieldsResolved_resolveHead (hproject : site.project.Declared)
    (hscope : scope.FieldsResolved) :
    (es : List Expr) → ∀ s ∈ resolveHead site scope es, s.FieldsResolved
  | [] => by
    simp only [resolveHead]
    exact fun s hs ↦ nomatch hs
  | e :: _ => by
    simp only [resolveHead]
    exact fieldsResolved_resolve hproject hscope e

theorem resolved_resolveValue (hproject : site.project.Declared) (hscope : scope.FieldsResolved)
    (type : TypeExpr) : (e : Expr) → ∀ s ∈ resolveValue site scope type e, s.Resolved
  | .unary .address operand => by
    simp only [resolveValue]
    exact resolved_resolveValue hproject hscope type operand
  | .composite (some t) elements => by
    simp only [resolveValue]
    intro s hs
    exact Option.some.inj hs ▸
      resolved_resolveElements hproject hscope (resolved_start site t.render) elements
  | .composite none elements => by
    simp only [resolveValue]
    intro s hs
    exact Option.some.inj hs ▸
      resolved_resolveElements hproject hscope (resolved_start site type.render) elements
  | .ident name => by
    simp only [resolveValue]
    exact resolved_of_mem_resolvedOnly fun s hs ↦ hscope.of_get? hs
  | .selector operand field => by
    simp only [resolveValue]
    exact resolved_of_mem_resolvedOnly (fieldsResolved_selectorShape? hproject
      (fieldsResolved_resolve hproject hscope operand) _ _)
  | .call fn args => by
    simp only [resolveValue]
    exact resolved_of_mem_resolvedOnly
      (fieldsResolved_firstResult (fieldsResolved_resolveHead hproject hscope args))
  | .unary .plus _ | .unary .minus _ | .unary .not _ | .unary .complement _ | .unary .deref _
  | .unary .receive _ | .lit _ _ | .assertion _ _ | .funcLit _ _ | .type _ | .other _ => by
    simp only [resolveValue]
    exact fun s hs ↦ nomatch hs

theorem resolved_resolveElements (hproject : site.project.Declared)
    (hscope : scope.FieldsResolved) {literal : Literal} (h : literal.shape.Resolved) :
    (elements : List Element) → (resolveElements site scope literal elements).Resolved
  | [] => by
    simp only [resolveElements]
    exact h
  | ⟨key, value⟩ :: more => by
    simp only [resolveElements]
    split
    · rename_i name type _
      exact resolved_resolveElements hproject hscope
        (resolved_put h name (resolved_resolveValue hproject hscope type value)) more
    · exact resolved_resolveElements hproject hscope h more

end

theorem fieldsResolved_shapeOf (hproject : site.project.Declared) (hscope : scope.FieldsResolved)
    (e : Expr) : (shapeOf site scope e).FieldsResolved := by
  rw [shapeOf]
  cases hresolve : resolve site scope e with
  | none => exact Shape.fieldsResolved_unresolved _
  | some s => exact fieldsResolved_resolve hproject hscope e s hresolve

theorem fieldsResolved_declaredResults? (hproject : site.project.Declared)
    (hscope : scope.FieldsResolved) {e : Expr} {results : List Shape}
    (h : declaredResults? site scope e = some results) : ∀ s ∈ results, s.FieldsResolved := by
  cases e with
  | call fn args =>
    exact fieldsResolved_callResults? (fieldsResolved_resolveHead hproject hscope args) h
  | _ => cases h

end Resolve

section Assign

variable {site : Site} {scope : Scope} (hscope : scope.FieldsResolved)

include hscope

theorem fieldsResolved_assignField (target : Expr) {value : Shape} (hvalue : value.FieldsResolved) :
    (assignField site scope target value).FieldsResolved := by
  rw [assignField]
  split
  · exact hscope
  · rename_i hknown
    split
    · exact hscope
    · split
      · exact hscope
      · exact hscope.modify fun s hs ↦ hs.setPath ⟨Bool.eq_false_iff.2 hknown, hvalue⟩ _ _

theorem fieldsResolved_assignTarget (target : Expr) {value : Shape}
    (hvalue : value.FieldsResolved) : (assignTarget site scope target value).FieldsResolved := by
  rw [assignTarget.eq_def]
  split
  · exact hscope.bind _ hvalue
  · exact fieldsResolved_assignField hscope _ hvalue
  · exact hscope

theorem fieldsResolved_assign (targets values : List Expr) {shapes : List Shape}
    (hshapes : ∀ s ∈ shapes, s.FieldsResolved) :
    (assign site scope targets values shapes).FieldsResolved := by
  have hstart : (assignSource site scope targets values).FieldsResolved := by
    rw [assignSource]
    split
    · exact hscope.setSource _ _
    · exact hscope
  exact List.foldlRecOn _ _ hstart fun inner hinner p hp ↦
    fieldsResolved_assignTarget hinner p.1 (hshapes _ (List.of_mem_zip hp).2)

theorem fieldsResolved_declareZero (names : List String) (type : Option TypeExpr) :
    (declareZero scope names type).FieldsResolved :=
  List.foldlRecOn _ _ hscope fun _ hinner name _ ↦
    hinner.bind name (Shape.fieldsResolved_named _)

end Assign

section Run

variable {site : Site} {scope : Scope} (enter : FuncRef → Scope → Trace Fact)

theorem fieldsResolved_replicate (count : ℕ) (text : String) :
    ∀ s ∈ List.replicate count (Shape.unresolved text), s.FieldsResolved :=
  fun _ hs ↦ List.eq_of_mem_replicate hs ▸ Shape.fieldsResolved_unresolved text

theorem fieldsResolved_evalSpread (hproject : site.project.Declared)
    (hscope : scope.FieldsResolved) (count : ℕ) (e : Expr) :
    ∀ s ∈ (evalSpread site enter scope count e).1, s.FieldsResolved := by
  cases e with
  | call fn args =>
    simp only [evalSpread, Outcome.values, results_evalCallee]
    split
    · rename_i results hresults
      split
      · exact fieldsResolved_declaredResults? hproject hscope hresults
      · exact fieldsResolved_replicate _ _
    · exact fieldsResolved_replicate _ _
  | assertion operand type =>
    simp only [evalSpread]
    refine List.forall_mem_append.2 ⟨?_, fieldsResolved_replicate _ _⟩
    refine List.forall_mem_cons.2 ⟨?_, fieldsResolved_map_named ["bool"]⟩
    cases type with
    | none => exact fieldsResolved_shapeOf hproject hscope operand
    | some t => exact Shape.fieldsResolved_named _
  | _ =>
    simp only [evalSpread]
    exact fieldsResolved_replicate _ _

theorem fieldsResolved_evalValues (hproject : site.project.Declared)
    (hscope : scope.FieldsResolved) (count : ℕ) (es : List Expr) :
    ∀ s ∈ (evalValues site enter scope count es).1, s.FieldsResolved := by
  cases es with
  | nil =>
    simp only [evalValues]
    exact fun s hs ↦ nomatch hs
  | cons e es =>
    simp only [evalValues]
    split
    · exact fieldsResolved_evalSpread enter hproject hscope count e
    · rw [fst_evalExpr, fst_evalEach, List.forall_mem_cons, List.forall_mem_map]
      exact ⟨fieldsResolved_shapeOf hproject hscope _,
        fun e _ ↦ fieldsResolved_shapeOf hproject hscope _⟩

theorem fieldsResolved_evalSpecs (hproject : site.project.Declared)
    (hscope : scope.FieldsResolved) (specs : List ValueSpec) :
    (evalSpecs site enter scope specs).scope.FieldsResolved := by
  induction specs generalizing scope with
  | nil =>
    simp only [evalSpecs]
    exact hscope
  | cons spec specs ih =>
    obtain ⟨names, type, values⟩ := spec
    simp only [evalSpecs]
    refine ih ?_
    split
    · exact fieldsResolved_declareZero hscope names type
    · exact fieldsResolved_assign hscope _ _
        (fieldsResolved_evalValues enter hproject hscope _ values)

theorem fieldsResolved_evalStmt (hproject : site.project.Declared)
    (hscope : scope.FieldsResolved) (s : Stmt) :
    (evalStmt site enter scope s).scope.FieldsResolved := by
  cases s with
  | assign targets values define =>
    simp only [evalStmt]
    exact fieldsResolved_assign hscope _ _
      (fieldsResolved_evalValues enter hproject hscope _ values)
  | declare specs =>
    simp only [evalStmt]
    exact fieldsResolved_evalSpecs enter hproject hscope specs
  | _ =>
    simp only [evalStmt]
    exact hscope

theorem fieldsResolved_evalInit (hproject : site.project.Declared)
    (hscope : scope.FieldsResolved) (init : Option Stmt) :
    (evalInit site enter scope init).1.FieldsResolved := by
  cases init with
  | none =>
    simp only [evalInit]
    exact hscope
  | some s =>
    simp only [evalInit]
    exact fieldsResolved_evalStmt enter hproject hscope s

end Run

section Start

variable {site : Site} {scope : Scope}

theorem fieldsResolved_closureScope (hproject : site.project.Declared)
    (hscope : scope.FieldsResolved) (params : List Param) (args : List Expr) :
    (closureScope site scope params args).FieldsResolved := by
  refine List.foldlRecOn _ _ hscope fun inner hinner p _ ↦ ?_
  split
  · exact hinner
  · refine hinner.bind _ ?_
    cases harg : (args[p.2]?).bind (resolve site scope) with
    | none => exact Shape.fieldsResolved_named _
    | some shape =>
      obtain ⟨arg, -, hshape⟩ := Option.bind_eq_some_iff.1 harg
      exact fieldsResolved_resolve hproject hscope arg shape hshape

theorem fieldsResolved_carry (site : Site) (f : FuncRef) {shape : Shape}
    (h : shape.FieldsResolved) :
    (carry site f shape).FieldsResolved := by
  rw [carry]
  split
  · exact h
  · exact h.qualify _

theorem fieldsResolved_bindParam (hproject : site.project.Declared)
    (hscope : scope.FieldsResolved) (f : FuncRef) {inner : Scope} (hinner : inner.FieldsResolved)
    (param : Param) (arg : Expr) : (bindParam site scope f inner param arg).FieldsResolved := by
  rw [bindParam]
  split
  · exact hinner
  · rename_i name _
    dsimp only
    cases hshape : resolve site scope arg with
    | none =>
      have hbound := hinner.bind name (Shape.fieldsResolved_named param.type.render)
      split
      · exact hbound.setSource name _
      · exact hbound
    | some shape =>
      have hresolved := fieldsResolved_resolve hproject hscope arg shape hshape
      have hbound := hinner.bind name (fieldsResolved_carry site f hresolved)
      split
      · exact hbound.setSource name _
      · exact hbound

theorem fieldsResolved_calleeScope (hproject : site.project.Declared)
    (hscope : scope.FieldsResolved) (f : FuncRef) {receiver : Option Shape}
    (hreceiver : ∀ s ∈ receiver, s.FieldsResolved) (args : List Expr) :
    (calleeScope site scope f receiver args).FieldsResolved := by
  have hglobals : (Scope.ofShapes
      (site.project.globals (site.project.packageOf f.unit))).FieldsResolved :=
    .ofShapes (hproject.globals _)
  rw [calleeScope]
  dsimp only
  split
  · exact hglobals
  · refine List.foldlRecOn _ _ ?_ fun inner hinner p _ ↦
      fieldsResolved_bindParam hproject hscope f hinner p.1 p.2
    split
    · exact hglobals.bind _ (fieldsResolved_carry site f (hreceiver _ rfl))
    · exact hglobals

theorem fieldsResolved_calleeOf? (hproject : site.project.Declared)
    (hscope : scope.FieldsResolved) {fn : Expr} {f : FuncRef} {receiver : Option Shape}
    (h : calleeOf? site scope fn = some (f, receiver)) : ∀ s ∈ receiver, s.FieldsResolved := by
  rcases calleeOf?_cases h with ⟨rfl, -⟩ | ⟨operand, shape, -, hshape, rfl, -⟩
  · exact fun s hs ↦ nomatch hs
  · exact fun s hs ↦ Option.some.inj hs ▸
      fieldsResolved_resolve hproject hscope operand shape hshape

theorem fieldsResolved_entryScope {project : Project} (hproject : project.Declared) (f : FuncRef) :
    (Site.entryScope project f).FieldsResolved := by
  have hglobals : (Scope.ofShapes (project.globals (project.packageOf f.unit))).FieldsResolved :=
    .ofShapes (hproject.globals _)
  rw [Site.entryScope]
  dsimp only
  split
  · exact hglobals
  · exact List.foldlRecOn _ _ hglobals fun inner hinner b _ ↦
      hinner.bind b.1 (Shape.fieldsResolved_named b.2)

end Start

section Facts

variable {site : Site} {scope : Scope}

theorem fieldsResolved_of_shape? {fact : Fact} {shape : Shape} (hfact : fact.shape? = some shape)
    (hshape : shape.FieldsResolved) : fact.FieldsResolved :=
  fun _ hs ↦ Option.some.inj (hfact.symm.trans hs) ▸ hshape

theorem fieldsResolved_of_shape?_eq_none {fact : Fact} (h : fact.shape? = none) :
    fact.FieldsResolved :=
  fun _ hs ↦ nomatch h.symm.trans hs

theorem fieldsResolved_bindFacts (hproject : site.project.Declared) (hscope : scope.FieldsResolved)
    (media : String) (args : List Expr) :
    ∀ fact ∈ bindFacts site scope media args, fact.FieldsResolved := by
  rw [bindFacts]
  split
  · exact List.forall_mem_nil _
  · split
    · exact List.forall_mem_nil _
    · rename_i target _ _ shape hshape
      have hresolved := fieldsResolved_resolve hproject hscope target shape hshape
      simp only [List.forall_mem_cons, List.not_mem_nil, false_implies, implies_true, and_true]
      exact ⟨fieldsResolved_of_shape? rfl hresolved, fieldsResolved_of_shape?_eq_none rfl⟩

theorem fieldsResolved_bindQueryFacts (args : List Expr) :
    ∀ fact ∈ bindQueryFacts site scope args, fact.FieldsResolved := by
  intro fact hfact
  rw [bindQueryFacts] at hfact
  split at hfact
  · cases hfact
  · obtain ⟨field, -, hfact⟩ := List.mem_flatMap.1 hfact
    obtain ⟨name, -, rfl⟩ := List.mem_map.1 hfact
    exact fieldsResolved_of_shape? rfl (Shape.fieldsResolved_named _)

theorem fieldsResolved_readFacts (kind : ParamKind) (hasDefault file : Bool) (args : List Expr) :
    ∀ fact ∈ readFacts kind hasDefault file args, fact.FieldsResolved := by
  rw [readFacts]
  split
  · exact List.forall_mem_nil _
  · refine List.forall_mem_cons.2 ⟨fieldsResolved_of_shape? rfl (Shape.fieldsResolved_named _), ?_⟩
    split
    · exact List.forall_mem_singleton.2 (fieldsResolved_of_shape?_eq_none rfl)
    · exact List.forall_mem_nil _

theorem fieldsResolved_produceFacts (hproject : site.project.Declared)
    (hscope : scope.FieldsResolved) (media method : String) (args : List Expr) :
    ∀ fact ∈ produceFacts site scope media method args, fact.FieldsResolved := by
  rw [produceFacts.eq_def]
  split
  · rename_i status value _
    refine List.forall_mem_cons.2 ⟨fieldsResolved_of_shape?_eq_none rfl, ?_⟩
    split
    · exact List.forall_mem_nil _
    · refine List.forall_mem_singleton.2 (fieldsResolved_of_shape? rfl ?_)
      split
      · exact Shape.fieldsResolved_named _
      · cases hvalue : resolve site scope value with
        | none => exact Shape.fieldsResolved_named _
        | some shape => exact fieldsResolved_resolve hproject hscope value shape hvalue
  · exact List.forall_mem_nil _

theorem fieldsResolved_contextFacts (hproject : site.project.Declared)
    (hscope : scope.FieldsResolved) (call : Vocabulary.ContextCall) (method : String)
    (args : List Expr) :
    ∀ fact ∈ contextFacts site scope call method args, fact.FieldsResolved := by
  cases call with
  | bind media => exact fieldsResolved_bindFacts hproject hscope media args
  | bindQuery => exact fieldsResolved_bindQueryFacts args
  | query hasDefault => exact fieldsResolved_readFacts _ _ _ args
  | form hasDefault file => exact fieldsResolved_readFacts _ _ _ args
  | produce media => exact fieldsResolved_produceFacts hproject hscope media method args

theorem fieldsResolved_conversionFacts (type : String) (args : List Expr) :
    ∀ fact ∈ conversionFacts scope type args, fact.FieldsResolved := by
  rw [conversionFacts]
  split
  · exact List.forall_mem_singleton.2 (fieldsResolved_of_shape? rfl (Shape.fieldsResolved_named _))
  · exact List.forall_mem_nil _

theorem fieldsResolved_view {fact : Fact} (h : fact.FieldsResolved) :
    (site.view fact).FieldsResolved := by
  rw [Site.view]
  split
  · exact h
  · cases fact with
    | param kind name shape required default =>
      exact fieldsResolved_of_shape? rfl ((h shape rfl).qualify _)
    | response status shape => exact fieldsResolved_of_shape? rfl ((h shape rfl).qualify _)
    | _ => exact fieldsResolved_of_shape?_eq_none rfl

/-- The calls that show facts show none with an unresolved field. -/
theorem fieldsResolved_knownCall? (hproject : site.project.Declared)
    (hscope : scope.FieldsResolved) {fn : Expr} {args : List Expr} {outcome : Outcome}
    (h : knownCall? site scope fn args = some outcome) :
    ∀ fact ∈ Trace.items outcome.trace, fact.FieldsResolved := by
  cases fn with
  | selector operand method =>
    simp only [knownCall?] at h
    split at h
    · obtain rfl := Option.some.inj h
      rw [found, Trace.items_ofItems, List.forall_mem_map]
      exact fun fact hfact ↦ fieldsResolved_view
        (fieldsResolved_contextFacts hproject hscope _ method args fact hfact)
    · obtain ⟨types, -, rfl⟩ := Option.map_eq_some_iff.1 h
      rw [found, Trace.items_ofItems, List.forall_mem_map]
      exact fun fact hfact ↦ fieldsResolved_view
        (fieldsResolved_conversionFacts types.1 args fact hfact)
  | _ => cases h

end Facts

end Flow

end HandlerDocs
