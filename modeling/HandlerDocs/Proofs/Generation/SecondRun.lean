import HandlerDocs.Proofs.Generation.Document

namespace HandlerDocs.Generation

structure Report.Idle (r : Report) : Prop where
  written : r.unitsWritten = 0
  handlers : ∀ h ∈ r.handlers, h.changed = false
  overview : r.overviewChanged ≠ some true

theorem Report.idle_mk_iff {r : Report} {n : ℕ} : Report.Idle { r with unitsWritten := n } ↔
    n = 0 ∧ (∀ h ∈ r.handlers, h.changed = false) ∧ r.overviewChanged ≠ some true :=
  ⟨fun h ↦ ⟨h.written, h.handlers, h.overview⟩, fun ⟨hn, hhandlers, hoverview⟩ ↦
    ⟨hn, hhandlers, hoverview⟩⟩

structure Writable (options : Options) (p : Project) : Prop extends Unbroken options p where
  legible : ∀ e ∈ endpoints options p, e.doc.Legible

/-- One run brings the comments of a project to their final form: all their lines show, no blank
attribute hides a derived one, no summary or description is without a text, the configured values of
the general information last, and this does not go above a handler. -/
structure Settled (options : Options) (p : Project) : Prop where
  handlers : ∀ e ∈ endpoints options p, ∀ d ∈ p.function? e.handler,
    d.HasRoom ∧ EndpointDoc.Settled e.doc d.docLines
  main : ∀ f ∈ described? options.overview p, ∀ d ∈ p.function? f,
    d.HasRoom ∧ options.overview.Lasting
  apart : ∀ f ∈ described? options.overview p,
    f ∉ (endpoints options p).map Endpoint.handler

section Again

variable {options : Options} {p q : Project} {failed : List String} (h : p.Loaded)
  (hread : (document options p failed).1.Reread q)

include h hread

theorem code_reread : q.code = p.code :=
  hread.code.trans (revisionOf_document h).code_eq

theorem docLines_handler {e : Endpoint} (he : e ∈ endpoints options p) {d : FuncDecl}
    (hd : p.function? e.handler = some d) (hne : e.handler ∉ described? options.overview p) :
    q.docLines e.handler = (d.shown (e.doc.update d.docLines)).map Text.trimEnd := by
  have hdocumented : (document options p failed).1.function? e.handler =
      some (d.setDoc (e.doc.update d.docLines)).1 := by
    rw [function?_document_of_ne h hne,
      Endpoint.function?_applyAll (nodup_endpoints options p) he, hd]
    rfl
  rw [hread.docLines_eq hdocumented]
  exact FuncDecl.rereadLines_setDoc (h.uncommented _ d hd) (EndpointDoc.write_ne_nil _)

theorem docLines_main {f : FuncRef} (hf : f ∈ described? options.overview p) {d : FuncDecl}
    (hd : p.function? f = some d)
    (hapart : f ∉ (endpoints options p).map Endpoint.handler) :
    q.docLines f =
      (d.shown (Overview.update options.overview d.docLines)).map Text.trimEnd := by
  rw [← Endpoint.function?_applyAll_of_not_mem hapart] at hd
  rw [hread.docLines_eq (function?_document_main h hf hd)]
  rw [Endpoint.function?_applyAll_of_not_mem hapart] at hd
  exact FuncDecl.rereadLines_setDoc (h.uncommented _ d hd)
    (Overview.update_ne_nil (described?_eq_some.1 hf).1)

/-- The comment of a handler with the general information above it is read from what was written
for the general information. -/
theorem docLines_handler_main {e : Endpoint} (he : e ∈ endpoints options p)
    {d : FuncDecl} (hd : p.function? e.handler = some d)
    (hf : e.handler ∈ described? options.overview p) :
    ∃ lines block, block <:+ Overview.update options.overview lines ∧
      q.docLines e.handler = block.map Text.trimEnd := by
  have happlied : (Endpoint.applyAll p (endpoints options p)).1.function? e.handler =
      some (d.setDoc (e.doc.update d.docLines)).1 := by
    rw [Endpoint.function?_applyAll (nodup_endpoints options p) he, hd]
    rfl
  rw [hread.docLines_eq (function?_document_main h hf happlied), FuncDecl.rereadLines_setDoc
    (by rw [FuncDecl.doc_setDoc]; exact h.uncommented _ d hd)
    (Overview.update_ne_nil (described?_eq_some.1 hf).1), FuncDecl.shown_setDoc]
  generalize (d.setDoc (e.doc.update d.docLines)).1.docLines = lines
  refine ⟨lines, d.shown (Overview.update options.overview lines), ?_, rfl⟩
  rw [FuncDecl.shown]
  split
  · exact List.tail_suffix _
  · exact List.suffix_rfl

theorem overview_again_iff (hapart : ∀ f ∈ described? options.overview p,
      f ∉ (endpoints options p).map Endpoint.handler) :
    (∀ f ∈ described? options.overview q,
        q.docLines f = Overview.update options.overview (q.docLines f)) ↔
      ∀ f ∈ described? options.overview p, ∀ d ∈ p.function? f,
        d.HasRoom ∧ options.overview.Lasting := by
  rw [described?_congr (code_reread h hread)]
  refine forall₂_congr fun f hf ↦ ?_
  obtain ⟨henabled, hmain⟩ := described?_eq_some.1 hf
  obtain ⟨d, hd⟩ := Option.isSome_iff_exists.1 (Project.isSome_function?_of_findMain hmain)
  have htrim : d.docLines.map Text.trimEnd = d.docLines :=
    map_eq_self_iff.2 fun line hline ↦ (h.lines f d hd line hline).trimmed
  rw [docLines_main h hread hf hd (hapart f hf), eq_comm]
  simp only [hd, Option.mem_def, Option.some.injEq, forall_eq']
  by_cases hroom : d.HasRoom
  · rw [FuncDecl.shown_of_hasRoom hroom, Overview.update_map_trimEnd_eq_iff htrim]
    simp [hroom]
  -- Without room the first line is lost, and the second run writes it again.
  · obtain ⟨hspan, hshown⟩ := FuncDecl.shown_of_not_hasRoom hroom
      (Overview.update options.overview d.docLines)
    rw [hshown, h.docLines_eq_nil hd hspan]
    exact iff_of_false (Overview.update_tail_ne henabled) fun hsettled ↦ hroom hsettled.1

variable (hw : Writable options p)

include hw

theorem handlers_again_iff :
    (∀ e ∈ endpoints options q, ∀ d ∈ q.function? e.handler,
        d.docLines = e.doc.update d.docLines) ↔
      ∀ e ∈ endpoints options p, ∀ d ∈ p.function? e.handler,
        (d.HasRoom ∧ EndpointDoc.Settled e.doc d.docLines) ∧
          e.handler ∉ described? options.overview p := by
  rw [endpoints_congr (code_reread h hread)]
  refine forall₂_congr fun e he ↦ ?_
  have hsome := Project.isSome_function?_congr (code_reread h hread) e.handler
  cases hd : p.function? e.handler with
  | none =>
    rw [hd, Option.isSome_none, Option.isSome_eq_false_iff, Option.isNone_iff_eq_none] at hsome
    simp [hsome]
  | some d =>
    rw [hd] at hsome
    obtain ⟨d', hd'⟩ := Option.isSome_iff_exists.1 hsome
    have hdoc := (Endpoint.derived_all he).wellFormed (hw.legible e he)
    simp only [hd', Option.mem_def, Option.some.injEq, forall_eq']
    rw [← Project.docLines_of_some hd', eq_comm]
    by_cases hf : e.handler ∈ described? options.overview p
    · obtain ⟨lines, block, hblock, hlines⟩ := docLines_handler_main h hread he hd hf
      rw [hlines]
      exact iff_of_false (Overview.update_ne_of_suffix (Endpoint.routers_ne_nil he)
        (described?_eq_some.1 hf).1 hblock) fun hsettled ↦ hsettled.2 hf
    · rw [docLines_handler h hread he hd hf]
      by_cases hroom : d.HasRoom
      · rw [FuncDecl.shown_of_hasRoom hroom, EndpointDoc.update_map_trimEnd_eq_iff hdoc]
        exact ⟨fun hsettled ↦ ⟨⟨hroom, hsettled⟩, hf⟩, fun hsettled ↦ hsettled.1.2⟩
      · rw [(FuncDecl.shown_of_not_hasRoom hroom _).2]
        exact iff_of_false (EndpointDoc.update_tail_ne hdoc _) fun hsettled ↦ hroom hsettled.1.1

/-- A second run finds the comments up to date exactly when they are settled. -/
theorem unchanged_again_iff (hq : q.Loaded) :
    ((∀ r ∈ (document options q failed).2.handlers, r.changed = false) ∧
        (document options q failed).2.overviewChanged ≠ some true) ↔ Settled options p := by
  have hagain (hapart : ∀ f ∈ described? options.overview p,
      f ∉ (endpoints options p).map Endpoint.handler) :
      (document options q failed).2.overviewChanged ≠ some true ↔
        ∀ f ∈ described? options.overview p, ∀ d ∈ p.function? f,
          d.HasRoom ∧ options.overview.Lasting := by
    rw [overview_document_unchanged hq, overview_again_iff h hread hapart]
    rwa [described?_congr (code_reread h hread), endpoints_congr (code_reread h hread)]
  rw [handlers_document_unchanged, handlers_again_iff h hread hw]
  constructor
  · rintro ⟨hhandlers, hoverview⟩
    -- The comment of a handler with general information above it never settles.
    have hapart : ∀ f ∈ described? options.overview p,
        f ∉ (endpoints options p).map Endpoint.handler := by
      intro f hf hmem
      obtain ⟨e, he, rfl⟩ := List.mem_map.1 hmem
      obtain ⟨d, hd⟩ := Option.isSome_iff_exists.1
        (Project.isSome_function?_of_findMain (described?_eq_some.1 hf).2)
      exact (hhandlers e he d hd).2 hf
    exact ⟨fun e he d hd ↦ (hhandlers e he d hd).1, (hagain hapart).1 hoverview, hapart⟩
  · intro hsettled
    exact ⟨fun e he d hd ↦ ⟨hsettled.handlers e he d hd, fun hf ↦
      hsettled.apart _ hf (List.mem_map_of_mem he)⟩, (hagain hsettled.apart).2 hsettled.main⟩

end Again

theorem run_of_write {options : Options} (hwrite : options.write) {disk : Disk} {cwd : Disk.Place}
    {paths : List String} (hapart : paths.Pairwise (disk.Apart cwd)) {p : Project}
    {failed : List String} (hload : load disk cwd paths = (p, failed)) :
    ∃ disk', run options disk cwd paths = (disk', .ok { (document options p failed).2 with
        unitsWritten := (document options p failed).1.units.countP (·.dirty) }) ∧
      Project.SavedOnto cwd (document options p failed).1.units disk disk' := by
  have hloaded := loaded_load disk cwd paths
  have hrevision : (document options p failed).1.RevisionOf (load disk cwd paths).1 := by
    rw [hload] at hloaded ⊢
    exact revisionOf_document hloaded
  obtain ⟨p', disk', hsave, honto⟩ := save_loaded hrevision hapart
  refine ⟨disk', ?_, honto⟩
  rw [run, hload]
  dsimp only
  rw [if_pos hwrite, hsave]
  rfl

/-- Files at places of their own whose new comments can be written are documented by a run and
once more by a second one, and the second finds nothing to do exactly when the first settled the
comments. Then it also leaves the disk as it is. -/
theorem second_run_idle_iff {options : Options} (hwrite : options.write) {disk : Disk}
    {cwd : Disk.Place} {paths : List String} (hapart : paths.Pairwise (disk.Apart cwd))
    (hw : Writable options (load disk cwd paths).1) :
    ∃ disk₁ disk₂ first second, run options disk cwd paths = (disk₁, .ok first) ∧
      run options disk₁ cwd paths = (disk₂, .ok second) ∧
      (second.Idle ↔ Settled options (load disk cwd paths).1) ∧ (second.Idle → disk₂ = disk₁) := by
  obtain ⟨p, failed, hload⟩ : ∃ p failed, load disk cwd paths = (p, failed) := ⟨_, _, rfl⟩
  have hp : (load disk cwd paths).1 = p := by rw [hload]
  have hloaded := loaded_load disk cwd paths
  rw [hp] at hw hloaded
  obtain ⟨disk₁, hfirst, honto⟩ := run_of_write hwrite hapart hload
  have hrevision : (document options p failed).1.RevisionOf (load disk cwd paths).1 := by
    rw [hp]
    exact revisionOf_document hloaded
  -- The second run starts from `q`: the same code, with the comments that were written.
  obtain ⟨q, hagain, hread⟩ :=
    load_saved hrevision (allBlocks_document hloaded hw.toUnbroken) hapart honto
  rw [hload] at hagain
  have hapart' : paths.Pairwise (disk₁.Apart cwd) := by rwa [honto.apart]
  obtain ⟨disk₂, hsecond, honto₂⟩ := run_of_write hwrite hapart' hagain
  have hq : q.Loaded := by
    have hloaded₁ := loaded_load disk₁ cwd paths
    rwa [hagain] at hloaded₁
  have hunchanged := unchanged_again_iff hloaded hread hw hq
  have hclean : Settled options p → ∀ u ∈ (document options q failed).1.units, u.dirty = false := by
    intro hsettled
    obtain ⟨hhandlers, hoverview⟩ := hunchanged.2 hsettled
    rw [document_eq_self hhandlers hoverview]
    exact hq.clean
  refine ⟨disk₁, disk₂, _, _, hfirst, hsecond, ?_⟩
  rw [Report.idle_mk_iff, hp, hunchanged, List.countP_eq_zero]
  refine ⟨⟨And.right, fun hsettled ↦ ⟨?_, hsettled⟩⟩, fun hidle ↦ honto₂.idle (hclean hidle.2)⟩
  intro u hu
  simp [hclean hsettled u hu]

theorem second_run_idle_books :
    let source := "package main\n\nimport \"github.com/gin-gonic/gin\"\n\n" ++
      "// List lists books.\nfunc List(c *gin.Context) \x7b\n\tpage := c.Query(\"page\")\n" ++
      "\tc.String(200, page)\n\x7d\n\n" ++
      "func main() \x7b\n\tr := gin.New()\n\tr.GET(\"/books\", List)\n\x7d\n"
    let disk : Disk := ⟨[(["main.go"], .file source.toUTF8)]⟩
    let options : Options := { overview := { base := true } }
    (options.write ∧ ["main.go"].Pairwise (disk.Apart []) ∧
      Writable options (load disk [] ["main.go"]).1) ∧
      ∃ disk₁ disk₂ first second, run options disk [] ["main.go"] = (disk₁, .ok first) ∧
        run options disk₁ [] ["main.go"] = (disk₂, .ok second) ∧ second.Idle ∧ disk₂ = disk₁ := by
  intro source disk options
  let doc : EndpointDoc :=
    { summary := "List", produce := ["plain"],
      params := [⟨"page", .query, "string", false, "page"⟩],
      responses := [⟨200, "\x7bstring\x7d", "string"⟩], routers := [⟨"/books", "get"⟩] }
  -- The file is parsed once; what the hypotheses ask for is read off this view of it.
  obtain ⟨file, hparse, hview⟩ := exists_ok_of_toOption (show
    (SourceFile.parse "main.go" source).toOption.map (fun file ↦
      ((endpoints options ⟨[file]⟩).map (fun e ↦ (e.handler, e.doc)),
        described? options.overview ⟨[file]⟩,
        file.functions.map fun f ↦ (f.docLines, f.span.column))) =
      some ([(⟨0, 0⟩, doc)], some ⟨0, 1⟩, [(["// List lists books."], 1), ([], 1)]) by
    decide +kernel)
  simp only [Prod.mk.injEq] at hview
  obtain ⟨hendpoints, hmain, hfunctions⟩ := hview
  obtain ⟨⟨handler, derived⟩, he, hdoc⟩ := List.map_eq_singleton_iff.1 hendpoints
  obtain ⟨rfl, rfl⟩ := Prod.mk.inj hdoc
  have hload : load disk [] ["main.go"] = (⟨[file]⟩, []) := load_singleton rfl hparse
  have hp : (load disk [] ["main.go"]).1 = ⟨[file]⟩ := by rw [hload]
  have hfunction (i : ℕ) : ((⟨[file]⟩ : Project).function? ⟨0, i⟩).map
      (fun f ↦ (f.docLines, f.span.column)) = [(["// List lists books."], 1), ([], 1)][i]? := by
    rw [← hfunctions, List.getElem?_map]
    rfl
  have hlist : ∀ d ∈ (⟨[file]⟩ : Project).function? ⟨0, 0⟩,
      d.docLines = ["// List lists books."] ∧ d.span.column = 1 := by
    intro d hd
    have hview := hfunction 0
    rw [hd] at hview
    simpa using hview
  have hroom : ∀ d ∈ (⟨[file]⟩ : Project).function? ⟨0, 1⟩, d.HasRoom := by
    intro d hd _
    have hview := hfunction 1
    rw [hd] at hview
    simpa using congrArg (Option.map Prod.snd) hview
  have hmedia : EndpointDoc.IsMedia "plain" := ⟨by decide, by decide, by decide⟩
  have hparam : ParamDoc.Legible ⟨"page", .query, "string", false, "page"⟩ :=
    ⟨by decide, by decide, by decide, by decide⟩
  have hresponse : ResponseDoc.Legible ⟨200, "\x7bstring\x7d", "string"⟩ :=
    ⟨by decide, ⟨"string", by decide, by simp [Text.isWord], rfl⟩, by decide, by decide, by decide⟩
  have hlegible : doc.Legible :=
    ⟨by decide, by simp [doc], by simp [doc], by simp [doc], by decide, by simp [doc],
      List.forall_mem_singleton.2 hmedia, List.forall_mem_singleton.2 hparam, by decide,
      List.forall_mem_singleton.2 hresponse, by decide, by simp [doc]⟩
  have hunbroken : doc.Unbroken (EndpointDoc.read ["// List lists books."]) :=
    ⟨by decide, by decide, by decide, by decide, by decide +kernel, by decide⟩
  have hsettled : doc.Settled ["// List lists books."] :=
    ⟨⟨by decide, by decide⟩, .inl (by decide), by decide +kernel⟩
  have hwritable : Writable options ⟨[file]⟩ := by
    refine ⟨⟨?_, fun _ k _ value hvalue ↦ nomatch hvalue⟩, ?_⟩
    · rw [he, List.forall_mem_singleton]
      intro d hd
      rw [(hlist d hd).1]
      exact hunbroken
    · rw [he, List.forall_mem_singleton]
      exact hlegible
  have hall : Settled options ⟨[file]⟩ := by
    refine ⟨?_, fun f hf d hd ↦ ⟨?_, fun k _ value hvalue ↦ nomatch hvalue⟩, fun f hf ↦ ?_⟩
    · rw [he, List.forall_mem_singleton]
      intro d hd
      rw [(hlist d hd).1]
      exact ⟨fun _ ↦ (hlist d hd).2, hsettled⟩
    · rw [Option.mem_def, hmain, Option.some.injEq] at hf
      exact hroom d (hf ▸ hd)
    · rw [Option.mem_def, hmain, Option.some.injEq] at hf
      rw [he, ← hf]
      decide
  rw [hp]
  refine ⟨⟨rfl, List.pairwise_singleton _ _, hwritable⟩, ?_⟩
  have hw : Writable options (load disk [] ["main.go"]).1 := by rwa [hp]
  obtain ⟨disk₁, disk₂, first, second, hfirst, hsecond, hidle, hdisk⟩ :=
    second_run_idle_iff rfl (List.pairwise_singleton _ _) hw
  rw [hp] at hidle
  exact ⟨disk₁, disk₂, first, second, hfirst, hsecond, hidle.2 hall, hdisk (hidle.2 hall)⟩

/-- A blank attribute is not written, so that the derived one comes in with the second run. -/
theorem second_run_after_blank_tags :
    let source := "package main\n\nimport \"github.com/gin-gonic/gin\"\n\n" ++
      "// @Tags\nfunc List(c *gin.Context) \x7b\x7d\n\n" ++
      "func main() \x7b\n\tr := gin.New()\n" ++
      "\tg := r.Group(\"/api\")\n\tg.GET(\"/list\", List)\n\x7d\n"
    let disk : Disk := ⟨[(["main.go"], .file source.toUTF8)]⟩
    ∃ disk₁ disk₂ first second, run {} disk [] ["main.go"] = (disk₁, .ok first) ∧
      run {} disk₁ [] ["main.go"] = (disk₂, .ok second) ∧ second.unitsWritten = 1 := by
  intro source disk
  have hruns : (run {} disk [] ["main.go"]).2.toOption.isSome ∧
      ((run {} (run {} disk [] ["main.go"]).1 [] ["main.go"]).2.toOption.map
        (·.unitsWritten)) = some 1 := by
    decide +kernel
  -- The runs are named first: what the goal asks of them is not to be evaluated again.
  generalize run {} disk [] ["main.go"] = ran at hruns ⊢
  obtain ⟨disk₁, outcome₁⟩ := ran
  refine ⟨disk₁, ?_⟩
  generalize run {} disk₁ [] ["main.go"] = ran at hruns ⊢
  obtain ⟨disk₂, outcome₂⟩ := ran
  obtain ⟨first, hfirst⟩ := Option.isSome_iff_exists.1 hruns.1
  obtain ⟨second, hsecond, hwritten⟩ := Option.map_eq_some_iff.1 hruns.2
  obtain rfl := toOption_eq_some.1 hfirst
  obtain rfl := toOption_eq_some.1 hsecond
  exact ⟨disk₂, first, second, rfl, rfl, hwritten⟩

end HandlerDocs.Generation
