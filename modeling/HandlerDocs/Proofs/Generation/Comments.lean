import HandlerDocs.Proofs.Generation.Document

namespace HandlerDocs.Generation

/-- The lines of all comments that are written for a project: those that are reported for its
handlers, and those above the function with the general information. -/
def writtenLines (options : Options) (p : Project) : List String :=
  (document options p []).2.handlers.flatMap HandlerReport.lines ++
    (described? options.overview p).toList.flatMap (document options p []).1.docLines

section Written

variable {options : Options} {p : Project}

theorem forall_mem_writtenLines (h : p.Loaded) {P : String → Prop} :
    (∀ line ∈ writtenLines options p, P line) ↔
      (∀ e ∈ endpoints options p, ∀ d ∈ p.function? e.handler,
        ∀ line ∈ e.doc.update d.docLines, P line) ∧
      ∀ f ∈ described? options.overview p, ∀ line ∈ Overview.update options.overview
        ((Endpoint.applyAll p (endpoints options p)).1.docLines f), P line := by
  rw [writtenLines, List.forall_mem_append, ← forall_mem_reported_lines]
  refine and_congr ?_ ?_
  · simp only [List.mem_flatMap, forall_exists_index, and_imp]
    exact ⟨fun hall r hr line hline ↦ hall line r hr hline, fun hall line r hr ↦ hall r hr line⟩
  · simp only [List.mem_flatMap, Option.mem_toList, forall_exists_index, and_imp]
    constructor
    · intro hall f hf line hline
      exact hall line f hf (docLines_document_main h hf ▸ hline)
    · intro hall line f hf hline
      rw [docLines_document_main h hf] at hline
      exact hall f hf line hline

theorem isPrefix_of_mem_writtenLines (h : p.Loaded) :
    ∀ line ∈ writtenLines options p, ['/', '/'] <+: line.toList := by
  have hhandlers : ∀ e ∈ endpoints options p, ∀ d ∈ p.function? e.handler,
      ∀ line ∈ e.doc.update d.docLines, ['/', '/'] <+: line.toList :=
    fun e _ d _ ↦ EndpointDoc.isPrefix_of_mem_write
  refine (forall_mem_writtenLines h).2 ⟨hhandlers, fun f _ ↦ ?_⟩
  refine Overview.isPrefix_of_mem_update (Endpoint.forall_mem_docLines_applyAll
    (nodup_endpoints options p) (fun g d hd line hline ↦ ?_) hhandlers f)
  exact (h.lines g d hd line hline).comment.1

/-- The lines are lines exactly when no text breaks them that comes from the code or from the
configuration. -/
theorem oneLine_writtenLines_iff (h : p.Loaded) :
    (∀ line ∈ writtenLines options p, Text.OneLine line) ↔ Unbroken options p := by
  have hhandlers : (∀ e ∈ endpoints options p, ∀ d ∈ p.function? e.handler,
      ∀ line ∈ e.doc.update d.docLines, Text.OneLine line) ↔
      ∀ e ∈ endpoints options p, ∀ d ∈ p.function? e.handler,
        e.doc.Unbroken (EndpointDoc.read d.docLines) :=
    forall₂_congr fun e he ↦ forall₂_congr fun d hd ↦ oneLine_update_iff h he hd
  have hmain (hall : ∀ e ∈ endpoints options p, ∀ d ∈ p.function? e.handler,
      ∀ line ∈ e.doc.update d.docLines, Text.OneLine line) (f : FuncRef) :
      (∀ line ∈ Overview.update options.overview
        ((Endpoint.applyAll p (endpoints options p)).1.docLines f),
          Text.OneLine line) ↔ options.overview.Unbroken :=
    Overview.oneLine_update_iff (Endpoint.forall_mem_docLines_applyAll
      (nodup_endpoints options p)
      (fun g d hd line hline ↦ (h.lines g d hd line hline).comment.2) hall f)
  rw [forall_mem_writtenLines h]
  constructor
  · rintro ⟨hall, hoverview⟩
    refine ⟨hhandlers.1 hall, fun hsome ↦ ?_⟩
    obtain ⟨f, hf⟩ := Option.isSome_iff_exists.1 hsome
    exact (hmain hall f).1 (hoverview f hf)
  · intro hu
    have hall := hhandlers.2 hu.handlers
    exact ⟨hall, fun f hf ↦ (hmain hall f).2 (hu.main (Option.isSome_of_mem hf))⟩

end Written

/-- Whatever the files and the options are, every line that is written above a function begins as a
comment, and all of them end as one exactly when no text runs over a line that comes from the code
or from the configuration. Then the files change in comment lines only, and are read as the same
code. -/
theorem written_lines_stay_comments (options : Options) (disk : Disk) (cwd : Disk.Place)
    (paths : List String) :
    let p := (load disk cwd paths).1
    (∀ line ∈ writtenLines options p, ['/', '/'] <+: line.toList) ∧
    ((∀ line ∈ writtenLines options p, '\n' ∉ line.toList) ↔ Unbroken options p) ∧
    (Unbroken options p → List.Forall₂ (fun u v ↦
      SameButComments u.source.toList v.render.toList ∧
        ∃ fresh, SourceFile.parse u.path v.render = .ok fresh ∧ fresh.code = u.code)
      p.units (document options p []).1.units) := by
  intro p
  have hloaded : p.Loaded := loaded_load disk cwd paths
  refine ⟨isPrefix_of_mem_writtenLines hloaded, oneLine_writtenLines_iff hloaded, fun hu ↦ ?_⟩
  have hrevision : (document options p []).1.RevisionOf p := revisionOf_document hloaded
  have hblocks : (document options p []).1.AllBlocks := allBlocks_document hloaded hu
  generalize (document options p []).1 = q at hrevision hblocks
  rw [← hrevision.original, List.forall₂_map_left_iff, List.forall₂_same]
  intro v hv
  obtain ⟨-, -, -, hparse, -⟩ :=
    SourceFile.loadFrom_eq_ok (loadFrom_of_revisionOf hrevision hv).2
  obtain ⟨fresh, hfresh, hcode, -⟩ := SourceFile.parse_render hparse (hblocks.of_mem hv)
  refine ⟨SourceFile.sameButComments_render hparse (hblocks.of_mem hv), fresh, hfresh, ?_⟩
  rw [hcode, SourceFile.code_original]

/-- A default value of two lines breaks its line, and the second half is read as code. -/
theorem written_line_breaks_at_default :
    let source := "package main\n\nimport \"github.com/gin-gonic/gin\"\n\n" ++
      "func List(c *gin.Context) \x7b\n\tc.DefaultQuery(\"page\", `1\n2`)\n\x7d\n\n" ++
      "func main() \x7b\n\tr := gin.New()\n\tr.GET(\"/list\", List)\n\x7d\n"
    let p := (load ⟨[(["main.go"], .file source.toUTF8)]⟩ [] ["main.go"]).1
    (∃ line ∈ writtenLines {} p, '\n' ∈ line.toList) ∧
      ∀ u ∈ (document {} p []).1.units, (SourceFile.parse u.path u.render).toOption.isNone := by
  intro source p
  obtain ⟨file, hparse, hview⟩ := exists_ok_of_toOption (show
    (SourceFile.parse "main.go" source).toOption.map (fun file ↦
      ((writtenLines {} ⟨[file]⟩).any (·.toList.contains '\n'),
        (document {} ⟨[file]⟩ []).1.units.all fun u ↦
          (SourceFile.parse u.path u.render).toOption.isNone)) = some (true, true) by
    decide +kernel)
  have hp : p = ⟨[file]⟩ := congrArg Prod.fst (load_singleton rfl hparse)
  simp only [Prod.mk.injEq, List.any_eq_true, List.all_eq_true, List.contains_iff_mem] at hview
  rw [hp]
  exact hview

end HandlerDocs.Generation
