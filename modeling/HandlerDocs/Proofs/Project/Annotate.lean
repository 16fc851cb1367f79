import HandlerDocs.Proofs.EndpointDoc.Derived
import HandlerDocs.Proofs.Project.Edits

namespace HandlerDocs

namespace Project

theorem setDoc_eq_self {p : Project} {f : FuncRef} {lines : List String}
    (h : (p.setDoc f lines).2 = false) : (p.setDoc f lines).1 = p := by
  have hunits : (p.setDoc f lines).1.units = p.units := by
    rw [setDoc] at h ⊢
    cases hfile : p.unit? f.unit with
    | none => rfl
    | some file =>
      rw [hfile] at h
      have hsame : (file.setDoc f.index lines).1 = file := by
        rcases file.setDoc_eq_or_dirty f.index lines with hsame | ⟨-, hchanged⟩
        · rw [hsame]
        · exact absurd (hchanged.symm.trans h) (by decide)
      obtain ⟨hindex, rfl⟩ := List.getElem?_eq_some_iff.1 hfile
      dsimp only
      rw [hsame, List.set_getElem_self]
  calc (p.setDoc f lines).1 = ⟨(p.setDoc f lines).1.units⟩ := rfl
    _ = p := by rw [hunits]

/-- What becomes of a function does not depend on the others. -/
theorem setDoc_congr {p q : Project} {f : FuncRef} (h : p.function? f = q.function? f)
    (lines : List String) : (p.setDoc f lines).2 = (q.setDoc f lines).2 ∧
      (p.setDoc f lines).1.docLines f = (q.setDoc f lines).1.docLines f := by
  constructor
  · rw [changed_setDoc, changed_setDoc, h]
  · rw [docLines, docLines, function?_setDoc, function?_setDoc, h]

theorem function?_annotate_of_ne {p : Project} {f g : FuncRef} (h : g ≠ f) (doc : EndpointDoc) :
    (p.annotate f doc).1.function? g = p.function? g := by
  rw [annotate, function?_setDoc, if_neg h]

theorem docLines_of_some {p : Project} {f : FuncRef} {d : FuncDecl} (h : p.function? f = some d) :
    p.docLines f = d.docLines := by
  rw [docLines, h]
  rfl

theorem function?_annotate (p : Project) (f : FuncRef) (doc : EndpointDoc) :
    (p.annotate f doc).1.function? f =
      (p.function? f).map fun d ↦ (d.setDoc (doc.update d.docLines)).1 := by
  rw [annotate, function?_setDoc, if_pos rfl]
  cases hd : p.function? f with
  | none => rfl
  | some d =>
    rw [docLines_of_some hd]
    rfl

theorem changed_annotate {p : Project} {f : FuncRef} {d : FuncDecl} (h : p.function? f = some d)
    (doc : EndpointDoc) : (p.annotate f doc).2 = false ↔ d.docLines = doc.update d.docLines := by
  rw [annotate, setDoc_unchanged_iff (by simp [h]), docLines_of_some h]

theorem changed_annotate_of_none {p : Project} {f : FuncRef} (h : p.function? f = none)
    (doc : EndpointDoc) : (p.annotate f doc).2 = false := by
  rw [annotate, changed_setDoc, h]
  rfl

end Project

namespace Endpoint

open Routing

theorem handlers_eq (routes : List Route) :
    handlers routes = EndpointDoc.keepNew (fun f ↦ f) [] (routes.map (·.handler)) := by
  simp [handlers, EndpointDoc.keepNew]

theorem nodup_handlers (routes : List Route) : (handlers routes).Nodup := by
  rw [handlers_eq]
  have hnil : (([] : List FuncRef).map fun f ↦ f).Nodup := List.nodup_nil
  simpa using EndpointDoc.nodup_keepNew _ hnil (routes.map (·.handler))

theorem nodup_all (p : Project) (options : Options) (limit : ℕ) :
    ((all p options limit).map handler).Nodup := by
  have hmap : (all p options limit).map handler = handlers (routes p.code options) := by
    rw [all, List.map_map]
    exact List.map_id _
  rw [hmap]
  exact nodup_handlers _

theorem mem_handlers {routes : List Route} {f : FuncRef} (h : f ∈ handlers routes) :
    ∃ r ∈ routes, r.handler = f := by
  rw [handlers_eq] at h
  have hmem := (EndpointDoc.mem_of_mem_keepNew _ h).resolve_left List.not_mem_nil
  exact List.mem_map.1 hmem

theorem routers_addRoute_ne_nil (d : EndpointDoc) (path method : String) :
    (d.addRoute path method).routers ≠ [] := by
  rw [EndpointDoc.addRoute, EndpointDoc.addRouter]
  split
  · rename_i hmem
    exact List.ne_nil_of_mem (List.contains_iff_mem.1 hmem)
  · simp

theorem routers_emit (d : EndpointDoc) (fact : Fact) : (d.emit fact).routers = d.routers := by
  cases fact with
  | param => rfl
  | accept => rfl
  | produce => rfl
  | response status shape =>
    rw [EndpointDoc.emit, EndpointDoc.addResponse]
    split <;> rfl

/-- A handler is documented for the routes that reach it. -/
theorem routers_ne_nil {p : Project} {options : Options} {limit : ℕ} {e : Endpoint}
    (he : e ∈ all p options limit) : e.doc.routers ≠ [] := by
  obtain ⟨f, hf, rfl⟩ := List.mem_map.1 he
  obtain ⟨r, hr, hhandler⟩ := mem_handlers hf
  have hmem : r ∈ (routes p.code options).filter (·.handler = f) := by simp [hr, hhandler]
  obtain ⟨first, more, hroutes⟩ := List.exists_cons_of_ne_nil (List.ne_nil_of_mem hmem)
  dsimp only
  rw [hroutes, document]
  -- The routes come first, and no fact takes one away.
  refine List.foldlRecOn (motive := fun d : EndpointDoc ↦ d.routers ≠ []) _ _ ?_
    fun d hd fact _ ↦ ?_
  · rw [routed, List.foldl_cons]
    exact List.foldlRecOn (motive := fun d : EndpointDoc ↦ d.routers ≠ []) _ _
      (routers_addRoute_ne_nil _ _ _) fun d _ r _ ↦ routers_addRoute_ne_nil d _ _
  · rw [routers_emit]
    exact hd

/-- What is derived depends on the code only. -/
theorem all_congr {p q : Project} (h : p.code = q.code) (options : Options) (limit : ℕ) :
    all p options limit = all q options limit := by
  rw [all, all, h]

def change (p : Project) (e : Endpoint) : Change :=
  ⟨e.handler, e.doc, (p.annotate e.handler e.doc).1.docLines e.handler,
    (p.annotate e.handler e.doc).2⟩

theorem change_congr {p q : Project} {e : Endpoint}
    (h : p.function? e.handler = q.function? e.handler) : change p e = change q e := by
  have hlines : p.docLines e.handler = q.docLines e.handler := by
    rw [Project.docLines, Project.docLines, h]
  obtain ⟨hchanged, hdoc⟩ := Project.setDoc_congr h (e.doc.update (q.docLines e.handler))
  rw [change, change, Project.annotate, Project.annotate, hlines, hchanged, hdoc]

variable {p : Project} {es : List Endpoint}

theorem function?_applyAll_of_not_mem {f : FuncRef} (h : f ∉ es.map handler) :
    (applyAll p es).1.function? f = p.function? f := by
  induction es generalizing p with
  | nil => rfl
  | cons e es ih =>
    rw [List.map_cons, List.mem_cons, not_or] at h
    rw [applyAll]
    dsimp only
    rw [ih h.2, Project.function?_annotate_of_ne h.1]

/-- The handlers do not get in each other's way. -/
theorem changes_applyAll (h : (es.map handler).Nodup) : (applyAll p es).2 = es.map (change p) := by
  induction es generalizing p with
  | nil => rfl
  | cons e es ih =>
    rw [List.map_cons, List.nodup_cons] at h
    rw [applyAll, List.map_cons]
    dsimp only
    rw [ih h.2]
    refine congrArg (change p e :: ·) (List.map_congr_left fun e' he' ↦ change_congr ?_)
    refine Project.function?_annotate_of_ne ?_ e.doc
    intro heq
    exact h.1 (heq ▸ List.mem_map_of_mem he')

theorem function?_applyAll (h : (es.map handler).Nodup) {e : Endpoint} (he : e ∈ es) :
    (applyAll p es).1.function? e.handler =
      (p.function? e.handler).map fun d ↦ (d.setDoc (e.doc.update d.docLines)).1 := by
  induction es generalizing p with
  | nil => simp at he
  | cons e' es ih =>
    rw [List.map_cons, List.nodup_cons] at h
    rw [applyAll]
    dsimp only
    rcases List.mem_cons.1 he with rfl | he
    · rw [function?_applyAll_of_not_mem h.1, Project.function?_annotate]
    · have hne : e.handler ≠ e'.handler := fun heq ↦ h.1 (heq ▸ List.mem_map_of_mem he)
      rw [ih h.2 he, Project.function?_annotate_of_ne hne]

/-- Handlers or not, functions have lines that were there or that were written for them. -/
theorem forall_mem_docLines_applyAll {P : String → Prop} (hnodup : (es.map handler).Nodup)
    (hread : ∀ f, ∀ d ∈ p.function? f, ∀ line ∈ d.docLines, P line)
    (hupdate : ∀ e ∈ es, ∀ d ∈ p.function? e.handler, ∀ line ∈ e.doc.update d.docLines, P line)
    (f : FuncRef) : ∀ line ∈ (applyAll p es).1.docLines f, P line := by
  rw [Project.docLines]
  by_cases hf : f ∈ es.map handler
  · obtain ⟨e, he, rfl⟩ := List.mem_map.1 hf
    rw [function?_applyAll hnodup he]
    cases hd : p.function? e.handler with
    | none => simp
    | some d =>
      rw [Option.map_some, Option.map_some, Option.getD_some, FuncDecl.docLines_setDoc]
      exact hupdate e he d hd
  · rw [function?_applyAll_of_not_mem hf]
    cases hd : p.function? f with
    | none => simp
    | some d => exact hread f d hd

theorem applyAll_eq_self (h : ∀ e ∈ es, (p.annotate e.handler e.doc).2 = false) :
    (applyAll p es).1 = p := by
  induction es with
  | nil => rfl
  | cons e es ih =>
    rw [List.forall_mem_cons] at h
    have hself : (p.annotate e.handler e.doc).1 = p := Project.setDoc_eq_self h.1
    rw [applyAll]
    dsimp only
    rw [hself, ih h.2]

theorem revisionOf_applyAll {base : Project} (h : p.RevisionOf base) :
    (applyAll p es).1.RevisionOf base := by
  induction es generalizing p with
  | nil => exact h
  | cons e es ih => exact ih (h.setDoc _ _)

theorem allBlocks_applyAll (h : p.AllBlocks) (hnodup : (es.map handler).Nodup)
    (hblock : ∀ e ∈ es, ∀ d ∈ p.function? e.handler, IsBlock (e.doc.update d.docLines)) :
    (applyAll p es).1.AllBlocks := by
  induction es generalizing p with
  | nil => exact h
  | cons e es ih =>
    rw [List.map_cons, List.nodup_cons] at hnodup
    rw [List.forall_mem_cons] at hblock
    have hfirst : (p.annotate e.handler e.doc).1.AllBlocks := by
      refine h.setDoc fun hsome ↦ ?_
      obtain ⟨d, hd⟩ := Option.isSome_iff_exists.1 hsome
      rw [Project.docLines_of_some hd]
      exact hblock.1 d hd
    refine ih (p := (p.annotate e.handler e.doc).1) hfirst hnodup.2 fun e' he' d hd ↦ ?_
    have hne : e'.handler ≠ e.handler := fun heq ↦ hnodup.1 (heq ▸ List.mem_map_of_mem he')
    rw [Project.function?_annotate_of_ne hne] at hd
    exact hblock.2 e' he' d hd

end Endpoint

end HandlerDocs
