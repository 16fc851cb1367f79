import HandlerDocs.Proofs.Shape

namespace HandlerDocs.Shape

variable {s value : Shape} {key : String}

def at? (s : Shape) : List String → Option Shape
  | [] => some s
  | key :: keys => (s.field? key).bind (·.at? keys)

@[simp] theorem name_setField (s : Shape) (key : String) (value : Shape) :
    (s.setField key value).name = s.name := rfl

@[simp] theorem field?_setField_self (s : Shape) (key : String) (value : Shape) :
    (s.setField key value).field? key = some value :=
  Assoc.get?_put_self key value s.fields

@[simp] theorem field?_setField_ne {other : String} (h : other ≠ key) :
    (s.setField key value).field? other = s.field? other :=
  Assoc.get?_put_ne h value s.fields

theorem setField_of_field? (h : s.field? key = some value) : s.setField key value = s := by
  cases s with
  | record name fields => exact congrArg (Shape.record name) (Assoc.put_of_get? h)
  | _ => cases h

@[simp] theorem setField_setField (first second : Shape) :
    (s.setField key first).setField key second = s.setField key second :=
  congrArg (Shape.record s.name) (Assoc.put_put key first second s.fields)

section KeysDistinct

def KeysDistinct (s : Shape) : Prop :=
  (s.fields.map Prod.fst).Nodup ∧
    ∀ inner : Shape, inner.Within s → (inner.fields.map Prod.fst).Nodup

theorem keysDistinct_of_not_record (h : s.isRecord = false) : s.KeysDistinct := by
  cases s with
  | record => cases h
  | _ => exact ⟨List.nodup_nil, fun _ hinner ↦ nomatch hinner⟩

theorem keysDistinct_record {name : String} {fields : List (String × Shape)} :
    (Shape.record name fields).KeysDistinct ↔
      (fields.map Prod.fst).Nodup ∧ ∀ e ∈ fields, e.2.KeysDistinct := by
  refine and_congr_right fun _ ↦ ⟨?_, ?_⟩
  · rintro h ⟨key, value⟩ he
    exact ⟨h value (.field he), fun inner hinner ↦ h inner (.deeper he hinner)⟩
  · intro h inner hinner
    cases hinner with
    | field hmem => exact (h _ hmem).1
    | deeper hmem hinner => exact (h _ hmem).2 inner hinner

theorem KeysDistinct.forall_mem_fields (h : s.KeysDistinct) : ∀ e ∈ s.fields, e.2.KeysDistinct := by
  cases s with
  | record name fields => exact (keysDistinct_record.1 h).2
  | _ => exact List.forall_mem_nil _

theorem KeysDistinct.setField (h : s.KeysDistinct) (hvalue : value.KeysDistinct) :
    (s.setField key value).KeysDistinct := by
  refine keysDistinct_record.2 ⟨?_, fun e he ↦ ?_⟩
  · rw [Assoc.keys_put]
    split
    · exact h.1
    · rename_i hkey
      rw [← List.concat_eq_append]
      exact h.1.concat hkey
  · rcases Assoc.eq_or_mem_of_mem_put he with rfl | he
    · exact hvalue
    · exact h.forall_mem_fields e he

end KeysDistinct

section FieldOr

variable {path : List String} (type : String)

/-- The shape of a field, or an empty record of the given type where the field is missing. -/
def fieldOr (s : Shape) (key type : String) : Shape :=
  (s.field? key).getD (.record type [])

theorem at?_fieldOr (hpath : path ≠ []) : (s.fieldOr key type).at? path = s.at? (key :: path) := by
  rw [fieldOr, at?]
  cases s.field? key with
  | some child => rfl
  | none =>
    obtain ⟨next, rest, rfl⟩ := List.exists_cons_of_ne_nil hpath
    rfl

@[simp] theorem fieldOr_setField : (s.setField key value).fieldOr key type = value := by
  rw [fieldOr, field?_setField_self, Option.getD_some]

theorem KeysDistinct.fieldOr (h : s.KeysDistinct) : (s.fieldOr key type).KeysDistinct := by
  rw [Shape.fieldOr]
  cases hfield : s.field? key with
  | some child => exact h.forall_mem_fields _ (Assoc.mem_of_get? hfield)
  | none => exact keysDistinct_record.2 ⟨List.nodup_nil, List.forall_mem_nil _⟩

end FieldOr

section SetPath

variable {naming : List String → String} {keys path : List String}

theorem name_setPathFrom (naming : List String → String) (value : Shape) (walked : List String)
    (keys : List String) (s : Shape) :
    (setPathFrom naming value walked keys s).1.name = s.name := by
  fun_cases setPathFrom naming value walked keys s <;> simp_all

theorem setPathFrom_cons (walked : List String) (hkeys : keys ≠ []) :
    let here := walked ++ [key]
    let inner := setPathFrom naming value here keys (s.fieldOr key (naming here))
    setPathFrom naming value walked (key :: keys) s =
      (s.setField key inner.1, if (s.field? key).isNone then here :: inner.2 else inner.2) := by
  obtain ⟨next, keys, rfl⟩ := List.exists_cons_of_ne_nil hkeys
  simp only [setPathFrom, fieldOr]
  cases s.field? key <;> rfl

/-- The keys walked so far only go to `naming` and into the paths that it is asked for. -/
theorem setPathFrom_eq (naming : List String → String) (walked : List String) :
    setPathFrom naming value walked keys s =
      (s.setPath (fun path ↦ naming (walked ++ path)) keys value,
        (s.missingPaths (fun path ↦ naming (walked ++ path)) keys value).map (walked ++ ·)) := by
  have hwalked (before : List String) : setPathFrom naming value (walked ++ before) keys s =
      Prod.map id (List.map (walked ++ ·))
        (setPathFrom (fun path ↦ naming (walked ++ path)) value before keys s) := by
    induction keys generalizing before s with
    | nil => rfl
    | cons key keys ih =>
      by_cases hkeys : keys = []
      · subst hkeys
        rfl
      · rw [setPathFrom_cons _ hkeys, setPathFrom_cons _ hkeys, List.append_assoc, ih]
        split <;> rfl
  rw [← List.append_nil walked, hwalked, List.append_nil]
  rfl

theorem setPath_cons (hkeys : keys ≠ []) :
    s.setPath naming (key :: keys) value =
      s.setField key ((s.fieldOr key (naming [key])).setPath (naming ∘ (key :: ·)) keys value) := by
  rw [setPath, setPathFrom_cons _ hkeys, setPathFrom_eq]
  rfl

theorem missingPaths_cons (hkeys : keys ≠ []) :
    s.missingPaths naming (key :: keys) value =
      (if (s.field? key).isNone then [[key]] else []) ++
        ((s.fieldOr key (naming [key])).missingPaths (naming ∘ (key :: ·)) keys value).map
          (key :: ·) := by
  rw [missingPaths, setPathFrom_cons _ hkeys, setPathFrom_eq]
  split <;> rfl

theorem exists_setPath_cons (s value : Shape) (naming : List String → String) (key : String)
    (keys : List String) :
    ∃ child, s.setPath naming (key :: keys) value = s.setField key child := by
  by_cases hkeys : keys = []
  · exact ⟨value, hkeys ▸ rfl⟩
  · exact ⟨_, setPath_cons hkeys⟩

theorem at?_setPath_self (hkeys : keys ≠ []) :
    (s.setPath naming keys value).at? keys = some value := by
  induction keys, hkeys using List.recNeNil generalizing s naming with
  | singleton key => simp [setPath, setPathFrom, at?]
  | cons key keys hkeys ih =>
    rw [setPath_cons hkeys, at?, field?_setField_self]
    exact ih

theorem setPath_of_at? (hkeys : keys ≠ []) (h : s.at? keys = some value) :
    s.setPath naming keys value = s := by
  induction keys, hkeys using List.recNeNil generalizing s naming with
  | singleton key =>
    obtain ⟨child, hchild, hvalue⟩ := Option.bind_eq_some_iff.1 h
    exact setField_of_field? (hchild.trans hvalue)
  | cons key keys hkeys ih =>
    obtain ⟨child, hchild, hvalue⟩ := Option.bind_eq_some_iff.1 h
    rw [setPath_cons hkeys, fieldOr, hchild, Option.getD_some, ih hvalue,
      setField_of_field? hchild]

theorem setPath_setPath (hkeys : keys ≠ []) (naming other : List String → String)
    (first second : Shape) :
    (s.setPath naming keys first).setPath other keys second = s.setPath naming keys second := by
  induction keys, hkeys using List.recNeNil generalizing s naming other with
  | singleton key => exact setField_setField first second
  | cons key keys hkeys ih =>
    rw [setPath_cons hkeys, setPath_cons hkeys, setPath_cons hkeys, fieldOr_setField,
      setField_setField, ih]

theorem at?_setPath_apart (hpath : ¬path <+: keys) (hkeys : ¬keys <+: path) :
    (s.setPath naming keys value).at? path = s.at? path := by
  induction keys generalizing s naming path with
  | nil => exact absurd List.nil_prefix hkeys
  | cons key keys ih =>
    cases path with
    | nil => exact absurd List.nil_prefix hpath
    | cons first path =>
      -- A field that is missing has nothing inside, and neither has the empty record made for it.
      by_cases hfirst : first = key
      · subst hfirst
        rw [List.prefix_cons_inj] at hpath hkeys
        have hne : keys ≠ [] := fun h ↦ hkeys (h ▸ List.nil_prefix)
        let child := s.fieldOr first (naming [first])
        calc
          _ = (child.setPath (naming ∘ (first :: ·)) keys value).at? path := by
            rw [setPath_cons hne, at?, field?_setField_self, Option.bind_some]
          _ = child.at? path := ih hpath hkeys
          _ = _ := at?_fieldOr _ fun h ↦ hpath (h ▸ List.nil_prefix)
      · obtain ⟨child, hchild⟩ := s.exists_setPath_cons value naming key keys
        rw [hchild, at?, at?, field?_setField_ne hfirst]

def typeAt (s : Shape) (naming : List String → String) (path : List String) : String :=
  ((s.at? path).map name).getD (naming path)

theorem typeAt_fieldOr :
    (s.fieldOr key (naming [key])).typeAt (naming ∘ (key :: ·)) path =
      s.typeAt naming (key :: path) := by
  by_cases hpath : path = []
  · subst hpath
    simp only [typeAt, at?, fieldOr]
    cases s.field? key <;> rfl
  · rw [typeAt, typeAt, at?_fieldOr _ hpath]
    rfl

theorem at?_setPath_before (hpath : path <+: keys) (hne : path ≠ keys) :
    ∃ fields,
      (s.setPath naming keys value).at? path = some (.record (s.typeAt naming path) fields) := by
  induction keys generalizing s naming path with
  | nil => exact absurd (List.prefix_nil.1 hpath) hne
  | cons key keys ih =>
    cases path with
    | nil =>
      obtain ⟨child, hchild⟩ := s.exists_setPath_cons value naming key keys
      exact ⟨_, congrArg some hchild⟩
    | cons first path =>
      obtain ⟨rfl, hinner⟩ := List.cons_prefix_cons.1 hpath
      have hne : path ≠ keys := fun h ↦ hne (h ▸ rfl)
      have hkeys : keys ≠ [] := by
        rintro rfl
        exact hne (List.prefix_nil.1 hinner)
      obtain ⟨fields, hfields⟩ := ih hinner hne
      refine ⟨fields, ?_⟩
      rw [setPath_cons hkeys, at?, field?_setField_self, ← typeAt_fieldOr]
      exact hfields

theorem missingPaths_eq_filter (hkeys : keys ≠ []) :
    s.missingPaths naming keys value =
      keys.inits.dropLast.filter fun path ↦ (s.at? path).isNone := by
  induction keys, hkeys using List.recNeNil generalizing s naming with
  | singleton key => rfl
  | cons key keys hkeys ih =>
    obtain ⟨next, rest, rfl⟩ := List.exists_cons_of_ne_nil hkeys
    have hinner (path : List String) :
        (s.fieldOr key (naming [key])).at? (next :: path) = s.at? (key :: next :: path) :=
      at?_fieldOr _ (List.cons_ne_nil _ _)
    have hfirst : (s.at? [key]).isNone = (s.field? key).isNone := by
      cases hfield : s.field? key <;> simp [at?, hfield]
    rw [missingPaths_cons hkeys, ih]
    simp only [dropLast_inits_cons, List.map_cons, List.filter_cons, List.filter_map,
      Function.comp_def, hinner, hfirst]
    cases s.field? key <;> simp [at?]

theorem setPath_congr {other : List String → String} (hkeys : keys ≠ [])
    (h : ∀ path ∈ s.missingPaths naming keys value, other path = naming path) :
    s.setPath other keys value = s.setPath naming keys value := by
  induction keys, hkeys using List.recNeNil generalizing s naming other with
  | singleton key => rfl
  | cons key keys hkeys ih =>
    rw [missingPaths_cons hkeys] at h
    have hchild : s.fieldOr key (other [key]) = s.fieldOr key (naming [key]) := by
      cases hfield : s.field? key with
      | some child => simp only [fieldOr, hfield, Option.getD_some]
      | none => rw [h [key] (by simp [hfield])]
    rw [setPath_cons hkeys, setPath_cons hkeys, hchild]
    congr 1
    refine ih fun path hpath ↦ h (key :: path) ?_
    exact List.mem_append_right _ (List.mem_map_of_mem hpath)

theorem KeysDistinct.setPath (h : s.KeysDistinct) (hvalue : value.KeysDistinct)
    (hkeys : keys ≠ []) : (s.setPath naming keys value).KeysDistinct := by
  induction keys, hkeys using List.recNeNil generalizing s naming with
  | singleton key => exact h.setField hvalue
  | cons key keys hkeys ih =>
    rw [setPath_cons hkeys]
    exact h.setField (ih (h.fieldOr _))

end SetPath

/-- A write along a path of keys obeys the laws of a lens: what is written is read back, writing
what is there changes nothing, and of two writes the second one counts. Paths that leave the way of
the keys find what they found before. On the way each shape keeps its type, and a missing one
becomes a record of the type that `naming` gives it. For that `naming` is asked once per missing
prefix, the shortest first, and nothing else of it counts. Keys that were distinct stay so. -/
theorem nested_write_lawful (s value : Shape) (naming : List String → String) {keys : List String}
    (hkeys : keys ≠ []) :
    let after := s.setPath naming keys value
    let asked := s.missingPaths naming keys value
    (after.at? keys = some value ∧ (s.at? keys = some value → after = s) ∧
      ∀ other second, after.setPath other keys second = s.setPath naming keys second) ∧
    (∀ path, ¬path <+: keys → ¬keys <+: path → after.at? path = s.at? path) ∧
    (∀ path, path <+: keys → path ≠ keys →
      (∀ old, s.at? path = some old →
        ∃ fields, after.at? path = some (.record old.name fields)) ∧
      (s.at? path = none → ∃ fields, after.at? path = some (.record (naming path) fields))) ∧
    (asked = keys.inits.dropLast.filter (fun path ↦ (s.at? path).isNone) ∧
      ∀ other, (∀ path ∈ asked, other path = naming path) →
        s.setPath other keys value = after) ∧
    (s.KeysDistinct → value.KeysDistinct → after.KeysDistinct) := by
  intro after asked
  refine ⟨⟨at?_setPath_self hkeys, setPath_of_at? hkeys, fun other second ↦ ?_⟩,
    fun path ↦ at?_setPath_apart, fun path hpath hne ↦ ?_,
    ⟨missingPaths_eq_filter hkeys, fun other ↦ setPath_congr hkeys⟩,
    fun h hvalue ↦ h.setPath hvalue hkeys⟩
  · exact setPath_setPath hkeys naming other value second
  · obtain ⟨fields, hfields⟩ := @at?_setPath_before s value naming keys path hpath hne
    constructor
    · intro old hold
      rw [typeAt, hold] at hfields
      exact ⟨fields, hfields⟩
    · intro hnone
      rw [typeAt, hnone] at hfields
      exact ⟨fields, hfields⟩

/-- A write through a text that nothing was known of, and below it through a record that is
missing. -/
theorem nested_write_lawful_reply :
    let s : Shape := .record "Reply" [("code", .named "int"), ("data", .unresolved "load()")]
    let naming (path : List String) := "model." ++ path.getLastD ""
    let keys := ["data", "meta", "page"]
    let after := s.setPath naming keys (.named "int")
    s.KeysDistinct ∧
    after.at? keys = some (.named "int") ∧ after.at? ["code"] = some (.named "int") ∧
      (∃ fields, after.at? ["data"] = some (.record "load()" fields)) ∧
      (∃ fields, after.at? ["data", "meta"] = some (.record "model.meta" fields)) ∧
      s.missingPaths naming keys (.named "int") = [["data", "meta"]] ∧ after.KeysDistinct := by
  intro s naming keys after
  have hdistinct : s.KeysDistinct := by
    refine keysDistinct_record.2 ⟨by decide, ?_⟩
    simp only [List.forall_mem_cons]
    exact ⟨keysDistinct_of_not_record rfl, keysDistinct_of_not_record rfl, List.forall_mem_nil _⟩
  obtain ⟨⟨hread, -⟩, hapart, hway, ⟨hasked, -⟩, hafter⟩ :=
    nested_write_lawful s (.named "int") naming (List.cons_ne_nil "data" ["meta", "page"])
  refine ⟨hdistinct, hread, hapart ["code"] (by decide) (by decide), ?_, ?_, ?_, ?_⟩
  · exact (hway ["data"] (by decide) (by decide)).1 _ rfl
  · exact (hway ["data", "meta"] (by decide) (by decide)).2 rfl
  · exact hasked.trans (by decide)
  · exact hafter hdistinct (keysDistinct_of_not_record rfl)

end HandlerDocs.Shape
