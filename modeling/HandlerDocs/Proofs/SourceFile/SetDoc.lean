import HandlerDocs.Proofs.SourceFile.Frame

namespace HandlerDocs

open Code

theorem IsReadLine.map_trimEnd {lines : List String} (h : ∀ line ∈ lines, IsReadLine line) :
    lines.map Text.trimEnd = lines := by
  rw [List.map_congr_left fun line hline ↦ (h line hline).trimmed, List.map_id']

theorem FuncDecl.map_trimEnd_shown (f : FuncDecl) {lines : List String}
    (h : ∀ line ∈ lines, IsReadLine line) : (f.shown lines).map Text.trimEnd = f.shown lines := by
  rw [shown]
  split
  · exact IsReadLine.map_trimEnd fun line hline ↦ h line (List.mem_of_mem_tail hline)
  · exact IsReadLine.map_trimEnd h

namespace SourceFile

variable {path source : String} {file : SourceFile}

theorem rereadLines_of_parse (h : parse path source = .ok file) {f : FuncDecl}
    (hf : f ∈ file.functions) : f.rereadLines = f.docLines := by
  have hlines := isReadLine_of_parse h f hf
  rw [FuncDecl.docLines, (exists_lead_of_parse h f hf).1, Option.getD_none] at hlines ⊢
  rw [FuncDecl.rereadLines, (exists_lead_of_parse h f hf).1, Option.map_none, Option.getD_none,
    IsReadLine.map_trimEnd hlines]

/-- Lines put above any function of a file that was read leave a text that is read as the same code
and with the same other comments. They are read as the comment of the function, but for the first
one where there was no comment and the function does not start its line. -/
theorem parse_render_setDoc (h : parse path source = .ok file) {i : ℕ} {f : FuncDecl}
    (hf : file.functions[i]? = some f) {lines : List String} (hne : lines ≠ [])
    (hlines : ∀ line ∈ lines, IsReadLine line) :
    ∃ fresh, parse path (file.setDoc i lines).1.render = .ok fresh ∧ fresh.code = file.code ∧
      ∀ j : ℕ, fresh.functions[j]?.map FuncDecl.docLines =
        if j = i then
          some (if f.doc.span = none ∧ f.span.column ≠ 1 then lines.tail else lines)
        else file.functions[j]?.map FuncDecl.docLines := by
  obtain ⟨rfl, hsource, horiginal, -⟩ := original_of_parse h
  have hafter := (file.original_setDoc i lines).trans horiginal
  have hpath : (file.setDoc i lines).1.original.path = file.path := by rw [hafter]
  have hread : parse (file.setDoc i lines).1.original.path (file.setDoc i lines).1.original.source =
      .ok (file.setDoc i lines).1.original := by
    rw [hafter, hsource]
    exact h
  have hblock : ∀ g ∈ (file.setDoc i lines).1.functions, ∀ asked, g.pending = some asked →
      IsBlock asked := by
    intro g hg asked hpending
    rw [functions_setDoc] at hg
    obtain ⟨j, hj⟩ := List.mem_iff_getElem?.1 hg
    rw [List.getElem?_modify] at hj
    obtain ⟨g', hg', rfl⟩ := Option.map_eq_some_iff.1 hj
    have hnone := (exists_lead_of_parse h g' (List.mem_of_getElem? hg')).1
    split at hpending
    · rcases g'.pending_setDoc lines with hsame | hnew
      · rw [hsame, hnone] at hpending
        cases hpending
      · obtain rfl := Option.some.inj (hnew.symm.trans hpending)
        exact ⟨hne, fun line hline ↦ (hlines line hline).comment⟩
    · rw [hnone] at hpending
      cases hpending
  obtain ⟨fresh, hfresh, hcode, hdocs⟩ :=
    @parse_render (file.setDoc i lines).1 hread hblock
  refine ⟨fresh, (congrArg (parse · _) hpath.symm).trans hfresh, ?_, fun j ↦ ?_⟩
  · rw [hcode, ← code_original, hafter]
  · rw [← List.getElem?_map, hdocs, List.getElem?_map, functions_setDoc, List.getElem?_modify]
    by_cases hj : j = i
    · subst hj
      have hreread := FuncDecl.rereadLines_setDoc
        (lines_of_span_eq_none h (List.mem_of_getElem? hf)) hne
      rw [f.map_trimEnd_shown hlines] at hreread
      simp [hf, hreread, FuncDecl.shown]
    · have hi : i ≠ j := Ne.symm hj
      cases hg : file.functions[j]? with
      | none => simp [hj]
      | some g => simp [hi, hj, rereadLines_of_parse h (List.mem_of_getElem? hg)]

theorem parse_render_setDoc_indented :
    ∃ file fresh, parse "p.go" "package p; func F()\n\n// G.\r\n\tfunc G(); func H()\n" = .ok file ∧
      (["// G", "// new"] ≠ [] ∧ ∀ line ∈ ["// G", "// new"], IsReadLine line) ∧
      parse "p.go" (file.setDoc 1 ["// G", "// new"]).1.render = .ok fresh ∧
      fresh.code = file.code ∧
      fresh.functions[1]?.map FuncDecl.docLines = some ["// G", "// new"] ∧
      ∀ j ≠ 1, fresh.functions[j]?.map FuncDecl.docLines =
        file.functions[j]?.map FuncDecl.docLines := by
  obtain ⟨file, hparse, hview⟩ := exists_ok_of_toOption (show
    (parse "p.go" "package p; func F()\n\n// G.\r\n\tfunc G(); func H()\n").toOption.map
      (fun file ↦ file.functions[1]?.map fun f ↦ f.doc.span.isSome) = some (some true) by
    decide +kernel)
  obtain ⟨f, hf, hspan⟩ := Option.map_eq_some_iff.1 hview
  have hlines : ∀ line ∈ ["// G", "// new"], IsReadLine line :=
    List.forall_mem_cons.2 ⟨⟨by decide, by decide +kernel⟩,
      List.forall_mem_singleton.2 ⟨by decide, by decide +kernel⟩⟩
  obtain ⟨fresh, hfresh, hcode, hdocs⟩ := parse_render_setDoc hparse hf (by simp) hlines
  refine ⟨file, fresh, hparse, ⟨by simp, hlines⟩, hfresh, hcode, ?_, fun j hj ↦ ?_⟩
  · rw [hdocs, if_pos rfl, if_neg fun hmid ↦ by simp [hmid.1] at hspan]
  · rw [hdocs, if_neg hj]

/-- In the middle of a line the only line is not read as a comment of the function. -/
theorem parse_render_setDoc_midline :
    ∃ file fresh, parse "p.go" "package p; func F() \x7b\x7d\n" = .ok file ∧
      parse "p.go" (file.setDoc 0 ["// F"]).1.render = .ok fresh ∧
      fresh.functions.map FuncDecl.docLines = [[]] := by
  obtain ⟨file, hparse, hview⟩ := exists_ok_of_toOption (show
    (parse "p.go" "package p; func F() \x7b\x7d\n").toOption.map (fun file ↦
      (parse "p.go" (file.setDoc 0 ["// F"]).1.render).toOption.map fun fresh ↦
        fresh.functions.map FuncDecl.docLines) = some (some [[]]) by
    decide +kernel)
  obtain ⟨fresh, hfresh, hdocs⟩ := exists_ok_of_toOption hview
  exact ⟨file, fresh, hparse, hfresh, hdocs⟩

end SourceFile

end HandlerDocs
