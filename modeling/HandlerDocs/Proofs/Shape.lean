import HandlerDocs.Proofs.Project.Reload
import HandlerDocs.Scope

namespace HandlerDocs

namespace Shape

/-- A shape that is the value of a field of another one, or of a field further inside. -/
inductive Within : Shape → Shape → Prop
  | field {name key : String} {fields : List (String × Shape)} {value : Shape} :
      (key, value) ∈ fields → Within value (.record name fields)
  | deeper {name key : String} {fields : List (String × Shape)} {value inner : Shape} :
      (key, value) ∈ fields → Within inner value → Within inner (.record name fields)

def FieldsResolved (s : Shape) : Prop :=
  ∀ text, ¬(Shape.unresolved text).Within s

def Resolved (s : Shape) : Prop :=
  s.isUnresolved = false ∧ s.FieldsResolved

theorem fieldsResolved_named (name : String) : (Shape.named name).FieldsResolved :=
  fun _ h ↦ nomatch h

theorem fieldsResolved_unresolved (text : String) : (Shape.unresolved text).FieldsResolved :=
  fun _ h ↦ nomatch h

theorem fieldsResolved_record {name : String} {fields : List (String × Shape)} :
    (Shape.record name fields).FieldsResolved ↔ ∀ e ∈ fields, e.2.Resolved := by
  constructor
  · rintro h ⟨key, value⟩ he
    refine ⟨?_, fun text htext ↦ h text (.deeper he htext)⟩
    cases value with
    | unresolved text => exact absurd (.field he) (h text)
    | _ => rfl
  · intro h text hwithin
    cases hwithin with
    | field hmem => exact Bool.noConfusion (h _ hmem).1
    | deeper hmem hinner => exact (h _ hmem).2 text hinner

section Update

variable {s value : Shape} {key : String}

theorem FieldsResolved.forall_mem_fields (h : s.FieldsResolved) : ∀ e ∈ s.fields, e.2.Resolved := by
  cases s with
  | record name fields => exact fieldsResolved_record.1 h
  | _ => exact List.forall_mem_nil _

theorem FieldsResolved.of_field? (h : s.FieldsResolved) (hfield : s.field? key = some value) :
    value.Resolved :=
  h.forall_mem_fields _ (Assoc.mem_of_get? hfield)

theorem FieldsResolved.setField (h : s.FieldsResolved) (key : String) (hvalue : value.Resolved) :
    (s.setField key value).Resolved := by
  refine ⟨rfl, fieldsResolved_record.2 fun e he ↦ ?_⟩
  rcases Assoc.eq_or_mem_of_mem_put he with rfl | he
  · exact hvalue
  · exact h.forall_mem_fields e he

theorem FieldsResolved.setPathFrom (h : s.FieldsResolved) (hvalue : value.Resolved)
    (naming : List String → String) (walked : List String) (keys : List String) :
    (setPathFrom naming value walked keys s).1.FieldsResolved ∧
      (keys ≠ [] → (Shape.setPathFrom naming value walked keys s).1.isUnresolved = false) := by
  fun_induction Shape.setPathFrom naming value walked keys s with
  | case1 walked s => exact ⟨h, fun hne ↦ absurd rfl hne⟩
  | case2 walked key s => exact ⟨(h.setField key hvalue).2, fun _ ↦ rfl⟩
  | case3 walked key next keys s here child hchild inner asked hset ih =>
    rw [hset] at ih
    have hinner := ih (h.of_field? hchild).2
    exact ⟨(h.setField key ⟨hinner.2 (List.cons_ne_nil _ _), hinner.1⟩).2, fun _ ↦ rfl⟩
  | case4 walked key next keys s here hchild inner asked hset ih =>
    rw [hset] at ih
    have hinner := ih (fieldsResolved_record.2 (List.forall_mem_nil _))
    exact ⟨(h.setField key ⟨hinner.2 (List.cons_ne_nil _ _), hinner.1⟩).2, fun _ ↦ rfl⟩

theorem FieldsResolved.setPath (h : s.FieldsResolved) (hvalue : value.Resolved)
    (naming : List String → String) (keys : List String) :
    (s.setPath naming keys value).FieldsResolved :=
  (h.setPathFrom hvalue naming [] keys).1

end Update

section Qualify

variable (package : String)

@[simp] theorem isUnresolved_qualify (s : Shape) :
    (s.qualify package).isUnresolved = s.isUnresolved := by
  cases s <;> simp only [qualify, isUnresolved]

mutual

theorem FieldsResolved.qualify : {s : Shape} → s.FieldsResolved → (s.qualify package).FieldsResolved
  | .named name, _ => by
    rw [Shape.qualify]
    exact fieldsResolved_named _
  | .unresolved text, _ => by
    rw [Shape.qualify]
    exact fieldsResolved_unresolved text
  | .record name fields, h => by
    rw [Shape.qualify]
    exact fieldsResolved_record.2 (resolved_qualifyFields (fieldsResolved_record.1 h))

theorem resolved_qualifyFields : {fields : List (String × Shape)} → (∀ e ∈ fields, e.2.Resolved) →
    ∀ e ∈ qualifyFields package fields, e.2.Resolved
  | [], _ => by
    rw [qualifyFields]
    exact List.forall_mem_nil _
  | (key, value) :: more, h => by
    rw [List.forall_mem_cons] at h
    rw [qualifyFields, List.forall_mem_cons]
    exact ⟨⟨(isUnresolved_qualify package value).trans h.1.1, FieldsResolved.qualify h.1.2⟩,
      resolved_qualifyFields h.2⟩

end

end Qualify

end Shape

def Scope.FieldsResolved (scope : Scope) : Prop :=
  ∀ e ∈ scope.shapes, e.2.FieldsResolved

namespace Scope.FieldsResolved

variable {scope : Scope} {name : String} {shape : Shape}

theorem of_get? (h : scope.FieldsResolved) (hget : scope.get? name = some shape) :
    shape.FieldsResolved :=
  h _ (Assoc.mem_of_get? hget)

theorem put (h : scope.FieldsResolved) (name : String) (hshape : shape.FieldsResolved) :
    Scope.FieldsResolved { scope with shapes := Assoc.put name shape scope.shapes } := by
  intro e he
  rcases Assoc.eq_or_mem_of_mem_put he with rfl | he
  · exact hshape
  · exact h e he

theorem bind (h : scope.FieldsResolved) (name : String) (hshape : shape.FieldsResolved) :
    (scope.bind name shape).FieldsResolved := by
  rw [Scope.bind]
  split
  · exact h
  · exact h.put name hshape

theorem setSource (h : scope.FieldsResolved) (name : String) (source : Option ParamSource) :
    (scope.setSource name source).FieldsResolved := by
  rw [Scope.setSource.eq_def]
  split
  · split <;> exact h
  · exact h

theorem modify (h : scope.FieldsResolved) {f : Shape → Shape}
    (hf : ∀ s, s.FieldsResolved → (f s).FieldsResolved) :
    (scope.modify name f).FieldsResolved := by
  rw [Scope.modify]
  split
  · rename_i hget
    exact h.put name (hf _ (h.of_get? hget))
  · exact h

theorem ofShapes {shapes : List (String × Shape)} (h : ∀ e ∈ shapes, e.2.FieldsResolved) :
    (Scope.ofShapes shapes).FieldsResolved := by
  refine List.foldlRecOn _ _ (List.forall_mem_nil _) fun scope hscope e he ↦ ?_
  exact put hscope e.1 (h e he)

end Scope.FieldsResolved

/-- The package variables of every file are those that declarations give, as they are in a project
that was loaded (`Project.declared_load`). -/
def Project.Declared (p : Project) : Prop :=
  ∀ file ∈ p.units, ∃ vars : List Code.ValueSpec, file.globals = vars.flatMap SourceFile.globalsOf

theorem Project.Declared.globals {p : Project} (h : p.Declared) (package : String) :
    ∀ e ∈ p.globals package, e.2.FieldsResolved := by
  intro e he
  obtain ⟨⟨file, unit⟩, hfile, he⟩ := List.mem_flatMap.1 he
  have hunit : file ∈ p.units := by
    have hmem := List.mem_zipIdx_iff_getElem?.1 (List.mem_of_mem_filter hfile)
    exact List.mem_of_getElem? hmem
  obtain ⟨vars, hvars⟩ := h file hunit
  have he : e ∈ vars.flatMap SourceFile.globalsOf := hvars ▸ he
  obtain ⟨spec, -, he⟩ := List.mem_flatMap.1 he
  obtain ⟨⟨name, i⟩, -, rfl⟩ := List.mem_map.1 he
  exact Shape.fieldsResolved_named _

/-- Whatever files a project is loaded from, its variables are those that the files declare. -/
theorem Project.declared_load (disk : Disk) (cwd : Disk.Place) (paths : List String) :
    (Generation.load disk cwd paths).1.Declared := by
  intro file hfile
  obtain ⟨-, -, -, hparse, -⟩ :=
    SourceFile.loadFrom_eq_ok (Generation.mem_units_load.1 hfile).2
  rw [SourceFile.parse] at hparse
  cases hnode : Code.File.parse file.source with
  | error e =>
    rw [hnode] at hparse
    cases hparse
  | ok node =>
    rw [hnode] at hparse
    exact ⟨node.vars, congrArg SourceFile.globals (Except.ok.inj hparse).symm⟩

end HandlerDocs
