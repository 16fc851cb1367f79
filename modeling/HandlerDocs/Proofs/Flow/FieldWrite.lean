import HandlerDocs.Proofs.Isolation
import HandlerDocs.Proofs.Shape.Path

namespace HandlerDocs

namespace Flow

open Code

variable {site : Site}

/-- The way along fields that are selected one after the other, from a type on: each has to be a
field of the struct found for the type reached so far. A step is the documented name of a field and
its type as it is written at the site. -/
def fieldSteps? (site : Site) : String → List String → Option (List (String × String))
  | _, [] => some []
  | type, name :: names => do
    let (package, decl) ← site.struct? type
    let field ← decl.field? name
    let next := site.relative field.type package
    return (field.docName name, next) :: (← fieldSteps? site next names)

theorem exists_of_fieldSteps?_cons {type name : String} {names : List String}
    {steps : List (String × String)} (h : fieldSteps? site type (name :: names) = some steps) :
    ∃ package decl field rest, site.struct? type = some (package, decl) ∧
      decl.field? name = some field ∧
      fieldSteps? site (site.relative field.type package) names = some rest ∧
      steps = (field.docName name, site.relative field.type package) :: rest := by
  obtain ⟨⟨package, decl⟩, hstruct, h⟩ := Option.bind_eq_some_iff.1 h
  obtain ⟨field, hfield, h⟩ := Option.bind_eq_some_iff.1 h
  obtain ⟨rest, hrest, h⟩ := Option.bind_eq_some_iff.1 h
  exact ⟨package, decl, field, rest, hstruct, hfield, hrest, (Option.some.inj h).symm⟩

theorem fieldsAlong_of_fieldSteps? {type : String} {names : List String}
    {steps : List (String × String)} (h : fieldSteps? site type names = some steps) :
    fieldsAlong site type names = steps := by
  induction names generalizing type steps with
  | nil => exact Option.some.inj h
  | cons name names ih =>
    obtain ⟨package, decl, field, rest, hstruct, hfield, hrest, rfl⟩ :=
      exists_of_fieldSteps?_cons h
    simp [fieldsAlong, hstruct, hfield, ih hrest]

inductive Recorded (site : Site) : Shape → List String → Shape → Prop
  | nil {s : Shape} : Recorded site s [] s
  | cons {s child value : Shape} {package name : String} {decl : StructDecl} {field : FieldSpec}
      {names : List String} :
      site.struct? s.name = some (package, decl) → decl.field? name = some field →
      s.field? (field.docName name) = some child → Recorded site child names value →
      Recorded site s (name :: names) value

def TypedAlong (s : Shape) (steps : List (String × String)) : Prop :=
  ∀ i (hi : i + 1 < steps.length) child,
    s.at? ((steps.take (i + 1)).map Prod.fst) = some child → child.name = steps[i].2

section TypedAlong

variable {s child : Shape} {key type : String} {step : String × String}
  {steps : List (String × String)}

theorem TypedAlong.name_eq (h : TypedAlong s ((key, type) :: step :: steps))
    (hchild : s.field? key = some child) : child.name = type := by
  apply h 0 (by simp)
  simp [Shape.at?, hchild]

theorem TypedAlong.inside (h : TypedAlong s ((key, type) :: step :: steps))
    (hchild : s.field? key = some child) : TypedAlong child (step :: steps) := by
  intro i hi inner hinner
  apply h (i + 1) (by simpa using hi) inner
  rw [List.take_succ_cons, List.map_cons, Shape.at?, hchild]
  exact hinner

theorem typedAlong_of_fields_eq_nil (h : s.fields = []) (steps : List (String × String)) :
    TypedAlong s steps := by
  intro i hi child hchild
  cases steps with
  | nil => simp at hi
  | cons step steps =>
    rw [List.take_succ_cons, List.map_cons, Shape.at?, Shape.field?, h] at hchild
    cases hchild

end TypedAlong

theorem Recorded.resolve_eq {scope : Scope} {s value : Shape} {names : List String}
    (h : Recorded site s names value) {e : Expr} (hvar : Site.qualifier? scope e = none)
    (he : resolve site scope e = some s) :
    resolve site scope (names.foldl Expr.selector e) = some value := by
  induction h generalizing e with
  | nil => exact he
  | cons hstruct hfield hchild _ ih =>
    rw [List.foldl_cons]
    apply ih rfl
    simp [resolve, selectorShape?, hvar, he, hstruct, hfield, hchild]

/-- Writing creates what is missing under the declared types, so that reading finds the way. -/
theorem recorded_setPathFrom {type : String} {names : List String} {steps : List (String × String)}
    (hsteps : fieldSteps? site type names = some steps) (hne : names ≠ [])
    {naming : List String → String} {walked : List String} {s : Shape} (hs : s.name = type)
    (hnaming : ∀ i (hi : i < steps.length),
      naming (walked ++ (steps.take (i + 1)).map Prod.fst) = steps[i].2)
    (htyped : TypedAlong s steps) (value : Shape) :
    Recorded site (Shape.setPathFrom naming value walked (steps.map Prod.fst) s).1 names value := by
  induction names generalizing type steps walked s with
  | nil => contradiction
  | cons name names ih =>
    obtain ⟨package, decl, field, rest, hstruct, hfield, hrest, rfl⟩ :=
      exists_of_fieldSteps?_cons hsteps
    subst hs
    cases names with
    | nil =>
      obtain rfl := Option.some.inj hrest
      exact .cons hstruct hfield (s.field?_setField_self _ value) .nil
    | cons next names =>
      obtain ⟨step, rest, rfl⟩ : ∃ step rest', rest = step :: rest' := by
        obtain ⟨_, _, _, rest', _, _, _, hrest'⟩ := exists_of_fieldSteps?_cons hrest
        exact ⟨_, rest', hrest'⟩
      have hinside {child : Shape} (hname : child.name = site.relative field.type package)
          (hchild : TypedAlong child (step :: rest)) :
          Recorded site (Shape.setPathFrom naming value (walked ++ [field.docName name])
            ((step :: rest).map Prod.fst) child).1 (next :: names) value := by
        refine ih hrest (List.cons_ne_nil _ _) hname ?_ hchild
        intro i hi
        rw [List.append_assoc]
        exact hnaming (i + 1) (by simpa using hi)
      rw [List.map_cons, List.map_cons, Shape.setPathFrom]
      cases hchild : s.field? (field.docName name) with
      | some child =>
        exact .cons hstruct hfield (s.field?_setField_self _ _)
          (hinside (htyped.name_eq hchild) (htyped.inside hchild))
      | none =>
        have hnew : naming (walked ++ [field.docName name]) = site.relative field.type package :=
          hnaming 0 (by simp)
        exact .cons hstruct hfield (s.field?_setField_self _ _)
          (hinside hnew (typedAlong_of_fields_eq_nil rfl _))

theorem chain?_foldl_selector {e : Expr} {root : String} {before : List String}
    (h : chain? e = some (root, before)) (names : List String) :
    chain? (names.foldl Expr.selector e) = some (root, before ++ names) := by
  induction names generalizing e before with
  | nil => rw [List.append_nil]; exact h
  | cons name names ih =>
    have hstep : chain? (.selector e name) = some (root, before ++ [name]) := by
      rw [chain?, h]
      rfl
    rw [List.foldl_cons, ih hstep, List.append_assoc]
    rfl

/-- A value that is written to a field is read back from there, as long as what is recorded of the
fields on the way has their declared types, for instance because nothing is recorded of them. The
variable keeps its type, and the other variables all that is known of them. -/
theorem field_write_reads_back {scope : Scope} {root : String} {shape value : Shape}
    {names : List String} {steps : List (String × String)} (hroot : scope.get? root = some shape)
    (hne : names ≠ []) (hsteps : fieldSteps? site shape.name names = some steps)
    (htyped : TypedAlong shape steps) (hvalue : value.isUnresolved = false) :
    let target := names.foldl Expr.selector (.ident root)
    let after := assignField site scope target value
    resolve site after target = some value ∧
      (after.get? root).map Shape.name = some shape.name ∧
      ∀ other ≠ root, after.known other = scope.known other := by
  intro target after
  have hchain : chain? target = some (root, names) :=
    @chain?_foldl_selector (.ident root) root [] rfl names
  let naming (walked : List String) := ((steps[walked.length - 1]?).map (·.2)).getD "object"
  let written := shape.setPath naming (steps.map Prod.fst) value
  have hafter : after = scope.modify root fun s ↦ s.setPath naming (steps.map Prod.fst) value := by
    simp only [after, assignField, hvalue, hchain, hroot, fieldsAlong_of_fieldSteps? hsteps]
    rfl
  have hget : after.get? root = some written := by
    rw [hafter, Scope.modify, hroot]
    exact Assoc.get?_put_self root written scope.shapes
  have hrecorded : Recorded site written names value := by
    apply recorded_setPathFrom hsteps hne rfl _ htyped
    intro i hi
    simp [naming, hi]
  refine ⟨?_, ?_, fun other hother ↦ ?_⟩
  · apply hrecorded.resolve_eq
    · rw [Site.qualifier?, Scope.contains, hget]
      rfl
    · rw [resolve, hget]
  · rw [hget]
    exact congrArg some (Shape.name_setPathFrom _ _ _ _ _)
  · rw [hafter]
    exact Scope.known_modify_ne hother _

def replySite : Site :=
  let model : SourceFile := ⟨"model.go", "model", [], [], [],
    [("Reply", .named "Page"),
     ("Page", .struct ⟨"Page", [⟨["Meta"], .pointer (.name "Meta"), some "json:\"info\""⟩]⟩),
     ("Meta", .struct ⟨"Meta", [⟨["TotalCount", "PageSize"], .name "Count", none⟩]⟩)], "", false⟩
  let main : SourceFile := ⟨"main.go", "main", [⟨none, "app/model"⟩], [], [], [], "", false⟩
  .ofUnit ⟨[main, model]⟩ 0

/-- Two fields behind a pointer are written. When the second one is, the field on the way is
recorded already. -/
theorem field_write_reads_back_reply :
    let scope : Scope := ⟨[("n", .named "int"), ("reply", .named "*model.Reply")], []⟩
    let field (name : String) : Expr := .selector (.selector (.ident "reply") "Meta") name
    let steps (key : String) := [("info", "*model.Meta"), (key, "model.Count")]
    let once := assignField replySite scope (field "TotalCount") (.named "int64")
    let twice := assignField replySite once (field "PageSize") (.named "int")
    let shape := Shape.record "*model.Reply"
      [("info", .record "*model.Meta" [("total_count", .named "int64")])]
    (fieldSteps? replySite "*model.Reply" ["Meta", "TotalCount"] = some (steps "total_count") ∧
      fieldSteps? replySite "*model.Reply" ["Meta", "PageSize"] = some (steps "page_size") ∧
      once.get? "reply" = some shape ∧ TypedAlong shape (steps "page_size")) ∧
    (resolve replySite once (field "TotalCount") = some (.named "int64") ∧
      once.known "n" = scope.known "n") ∧
    resolve replySite twice (field "PageSize") = some (.named "int") ∧
      (twice.get? "reply").map Shape.name = some "*model.Reply" := by
  intro scope field steps once twice shape
  have htotal : fieldSteps? replySite "*model.Reply" ["Meta", "TotalCount"] =
      some (steps "total_count") := by decide +kernel
  have hsize : fieldSteps? replySite "*model.Reply" ["Meta", "PageSize"] =
      some (steps "page_size") := by decide +kernel
  have honce : once.get? "reply" = some shape := by decide +kernel
  have htyped : TypedAlong shape (steps "page_size") := by
    intro i hi child hchild
    obtain rfl : i = 0 := by simpa [steps] using hi
    obtain rfl := Option.some.inj hchild
    rfl
  have hfirst := @field_write_reads_back replySite scope "reply" (.named "*model.Reply")
    (.named "int64") _ _ rfl (List.cons_ne_nil _ _) htotal (typedAlong_of_fields_eq_nil rfl _) rfl
  have hsecond := @field_write_reads_back replySite once "reply" shape (.named "int") _ _ honce
    (List.cons_ne_nil _ _) hsize htyped rfl
  exact ⟨⟨htotal, hsize, honce, htyped⟩, ⟨hfirst.1, hfirst.2.2 "n" (by decide)⟩,
    hsecond.1, hsecond.2.1⟩

end Flow

end HandlerDocs
