import HandlerDocs.Proofs.EndpointDoc.OneLine
import HandlerDocs.Proofs.Project.Annotate
import HandlerDocs.Proofs.Project.Describe

namespace HandlerDocs.Generation

section Describe

variable {o : OverviewOptions} {p q : Project} {f : FuncRef}

def described? (o : OverviewOptions) (p : Project) : Option FuncRef :=
  if o.isEnabled then p.findMain.toOption else none

theorem described?_eq_some : described? o p = some f ↔ o.isEnabled ∧ p.findMain = .ok f := by
  rw [described?]
  split
  · rename_i h
    simp [h, toOption_eq_some]
  · rename_i h
    simp [h]

theorem described?_congr (h : p.code = q.code) : described? o p = described? o q := by
  rw [described?, described?, Project.findMain_congr h]

theorem describe_of_some (h : described? o p = some f) : describe p o =
    ((p.setDoc f (Overview.update o (p.docLines f))).1,
      some (p.setDoc f (Overview.update o (p.docLines f))).2) := by
  obtain ⟨henabled, hmain⟩ := described?_eq_some.1 h
  rw [describe, if_pos henabled, Project.describe, hmain]
  rfl

theorem describe_of_none (h : described? o p = none) : describe p o = (p, none) := by
  rw [describe]
  split
  · rename_i henabled
    rw [described?, if_pos henabled] at h
    cases hmain : p.findMain with
    | ok f => simp [hmain, Except.toOption] at h
    | error e =>
      rw [Project.describe, hmain]
      rfl
  · rfl

theorem revisionOf_describe {base : Project} (h : p.RevisionOf base) :
    (describe p o).1.RevisionOf base := by
  cases hmain : described? o p with
  | none => rwa [describe_of_none hmain]
  | some f =>
    rw [describe_of_some hmain]
    exact h.setDoc _ _

theorem allBlocks_describe (h : p.AllBlocks)
    (hblock : ∀ f ∈ described? o p, IsBlock (Overview.update o (p.docLines f))) :
    (describe p o).1.AllBlocks := by
  cases hmain : described? o p with
  | none => rwa [describe_of_none hmain]
  | some f =>
    rw [describe_of_some hmain]
    exact h.setDoc fun _ ↦ hblock f hmain

theorem function?_describe (h : described? o p = some f) {d : FuncDecl}
    (hd : p.function? f = some d) :
    (describe p o).1.function? f = some (d.setDoc (Overview.update o d.docLines)).1 := by
  rw [describe_of_some h, Project.function?_setDoc, if_pos rfl, Project.docLines_of_some hd, hd]
  rfl

theorem function?_describe_of_ne (h : ∀ g ∈ described? o p, f ≠ g) :
    (describe p o).1.function? f = p.function? f := by
  cases hmain : described? o p with
  | none => rw [describe_of_none hmain]
  | some g => rw [describe_of_some hmain, Project.function?_setDoc, if_neg (h g hmain)]

theorem changed_describe :
    (describe p o).2 ≠ some true ↔
      ∀ g ∈ described? o p, p.docLines g = Overview.update o (p.docLines g) := by
  cases hmain : described? o p with
  | none => simp [describe_of_none hmain]
  | some g =>
    have hsome := Project.isSome_function?_of_findMain (described?_eq_some.1 hmain).2
    have hlines : (p.setDoc g (Overview.update o (p.docLines g))).2 = false ↔
        p.docLines g = Overview.update o (p.docLines g) := Project.setDoc_unchanged_iff hsome
    rw [describe_of_some hmain]
    simpa using hlines

theorem describe_eq_self (h : (describe p o).2 ≠ some true) : (describe p o).1 = p := by
  cases hmain : described? o p with
  | none => rw [describe_of_none hmain]
  | some f =>
    rw [describe_of_some hmain] at h ⊢
    exact Project.setDoc_eq_self (by simpa using h)

end Describe

theorem nodup_endpoints (options : Options) (p : Project) :
    ((endpoints options p).map Endpoint.handler).Nodup :=
  Endpoint.nodup_all p options.routing options.depth

theorem endpoints_congr {options : Options} {p q : Project} (h : p.code = q.code) :
    endpoints options p = endpoints options q :=
  Endpoint.all_congr h options.routing options.depth

structure Unbroken (options : Options) (p : Project) : Prop where
  handlers : ∀ e ∈ endpoints options p, ∀ d ∈ p.function? e.handler,
    e.doc.Unbroken (EndpointDoc.read d.docLines)
  main : (described? options.overview p).isSome → options.overview.Unbroken

section Document

variable {options : Options} {p : Project} {failed : List String}

theorem document_eq : document options p failed =
    let applied := Endpoint.applyAll p (endpoints options p)
    let described := describe applied.1 options.overview
    (described.1,
      ⟨p.units.length, failed, applied.2.map (handlerReport applied.1), described.2, 0⟩) := by
  rw [document]

section Loaded

variable (h : p.Loaded)

include h

theorem revisionOf_document : (document options p failed).1.RevisionOf p := by
  rw [document_eq]
  dsimp only
  exact revisionOf_describe (Endpoint.revisionOf_applyAll h.revisionOf)

/-- Which functions get a comment is not changed by the comments of the handlers. -/
theorem described?_applyAll {es : List Endpoint} :
    described? options.overview (Endpoint.applyAll p es).1 = described? options.overview p :=
  described?_congr (Endpoint.revisionOf_applyAll h.revisionOf).code_eq

theorem function?_document_of_ne {f : FuncRef} (hf : f ∉ described? options.overview p) :
    (document options p failed).1.function? f =
      (Endpoint.applyAll p (endpoints options p)).1.function? f := by
  rw [document_eq]
  dsimp only
  refine function?_describe_of_ne fun g hg heq ↦ hf ?_
  rw [described?_applyAll h] at hg
  exact heq ▸ hg

theorem function?_document_main {f : FuncRef} (hf : f ∈ described? options.overview p)
    {d : FuncDecl}
    (hd : (Endpoint.applyAll p (endpoints options p)).1.function? f = some d) :
    (document options p failed).1.function? f =
      some (d.setDoc (Overview.update options.overview d.docLines)).1 := by
  rw [document_eq]
  dsimp only
  refine function?_describe ?_ hd
  rw [described?_applyAll h]
  exact hf

theorem docLines_document_main {f : FuncRef} (hf : f ∈ described? options.overview p) :
    (document options p failed).1.docLines f = Overview.update options.overview
      ((Endpoint.applyAll p (endpoints options p)).1.docLines f) := by
  have hmain : described? options.overview
      (Endpoint.applyAll p (endpoints options p)).1 = some f := by
    rw [described?_applyAll h]
    exact hf
  obtain ⟨d, hd⟩ := Option.isSome_iff_exists.1
    (Project.isSome_function?_of_findMain (described?_eq_some.1 hmain).2)
  rw [Project.docLines_of_some (function?_document_main h hf hd), FuncDecl.docLines_setDoc,
    Project.docLines_of_some hd]

theorem oneLine_update_iff {e : Endpoint} (he : e ∈ endpoints options p) {d : FuncDecl}
    (hd : d ∈ p.function? e.handler) : (∀ line ∈ e.doc.update d.docLines, Text.OneLine line) ↔
      e.doc.Unbroken (EndpointDoc.read d.docLines) :=
  EndpointDoc.oneLine_update_iff (Endpoint.derived_all he) fun line hline ↦
    (h.lines _ d hd line hline).comment.2

theorem allBlocks_document (hu : Unbroken options p) : (document options p failed).1.AllBlocks := by
  have hhandlers : ∀ e ∈ endpoints options p, ∀ d ∈ p.function? e.handler,
      IsBlock (e.doc.update d.docLines) := fun e he d hd ↦
    ⟨EndpointDoc.write_ne_nil _, fun line hline ↦ ⟨EndpointDoc.isPrefix_of_mem_write line hline,
      (oneLine_update_iff h he hd).2 (hu.handlers e he d hd) line hline⟩⟩
  rw [document_eq]
  dsimp only
  refine allBlocks_describe (Endpoint.allBlocks_applyAll h.allBlocks
    (nodup_endpoints options p) hhandlers) fun f hf ↦ ?_
  have hlines : ∀ line ∈ (Endpoint.applyAll p (endpoints options p)).1.docLines f,
      IsCommentLine line :=
    Endpoint.forall_mem_docLines_applyAll (nodup_endpoints options p)
      (fun g d hd line hline ↦ (h.lines g d hd line hline).comment)
      (fun e he d hd ↦ (hhandlers e he d hd).comment) f
  rw [described?_applyAll h] at hf
  refine ⟨Overview.update_ne_nil (described?_eq_some.1 hf).1, fun line hline ↦ ⟨?_, ?_⟩⟩
  · exact Overview.isPrefix_of_mem_update (fun old hold ↦ (hlines old hold).1) line hline
  · have hvalues := hu.main (Option.isSome_of_mem hf)
    exact (Overview.oneLine_update_iff fun old hold ↦ (hlines old hold).2).2 hvalues line hline

end Loaded

/-- One report per handler, on what becomes of it when it is looked at alone. -/
theorem forall_mem_handlers_document {P : HandlerReport → Prop} :
    (∀ r ∈ (document options p failed).2.handlers, P r) ↔
      ∀ e ∈ endpoints options p, P (handlerReport
        (Endpoint.applyAll p (endpoints options p)).1 (Endpoint.change p e)) := by
  rw [document_eq]
  dsimp only
  rw [Endpoint.changes_applyAll (nodup_endpoints options p), List.forall_mem_map,
    List.forall_mem_map]

theorem forall_mem_reported_lines {P : String → Prop} :
    (∀ r ∈ (document options p failed).2.handlers, ∀ line ∈ r.lines, P line) ↔
      ∀ e ∈ endpoints options p, ∀ d ∈ p.function? e.handler,
        ∀ line ∈ e.doc.update d.docLines, P line := by
  rw [forall_mem_handlers_document]
  refine forall₂_congr fun e _ ↦ ?_
  change (∀ line ∈ (p.annotate e.handler e.doc).1.docLines e.handler, P line) ↔ _
  rw [Project.docLines, Project.function?_annotate]
  cases p.function? e.handler with
  | none => simp
  | some d => simp [FuncDecl.docLines_setDoc]

/-- A handler is reported as changed unless its comment is up to date. -/
theorem handlers_document_unchanged :
    (∀ r ∈ (document options p failed).2.handlers, r.changed = false) ↔
      ∀ e ∈ endpoints options p, ∀ d ∈ p.function? e.handler,
        d.docLines = e.doc.update d.docLines := by
  rw [forall_mem_handlers_document]
  refine forall₂_congr fun e _ ↦ ?_
  change (p.annotate e.handler e.doc).2 = false ↔ _
  cases hd : p.function? e.handler with
  | none => simp [Project.changed_annotate_of_none hd]
  | some d => simp [Project.changed_annotate hd]

theorem overview_document_unchanged (h : p.Loaded)
    (hapart : ∀ f ∈ described? options.overview p,
      f ∉ (endpoints options p).map Endpoint.handler) :
    (document options p failed).2.overviewChanged ≠ some true ↔
      ∀ f ∈ described? options.overview p,
        p.docLines f = Overview.update options.overview (p.docLines f) := by
  rw [document_eq]
  dsimp only
  rw [changed_describe, described?_applyAll h]
  refine forall₂_congr fun f hf ↦ ?_
  rw [Project.docLines, Endpoint.function?_applyAll_of_not_mem (hapart f hf), ← Project.docLines]

/-- Where every comment is up to date, nothing is done. -/
theorem document_eq_self
    (hhandlers : ∀ r ∈ (document options p failed).2.handlers, r.changed = false)
    (hoverview : (document options p failed).2.overviewChanged ≠ some true) :
    (document options p failed).1 = p := by
  have hannotate : ∀ e ∈ endpoints options p,
      (p.annotate e.handler e.doc).2 = false := by
    intro e he
    have hlines := handlers_document_unchanged.1 hhandlers e he
    cases hd : p.function? e.handler with
    | none => exact Project.changed_annotate_of_none hd _
    | some d => exact (Project.changed_annotate hd _).2 (hlines d hd)
  have happly := Endpoint.applyAll_eq_self hannotate
  rw [document_eq] at hoverview ⊢
  dsimp only at hoverview ⊢
  rw [happly] at hoverview ⊢
  exact describe_eq_self hoverview

end Document

end HandlerDocs.Generation
