import HandlerDocs.Proofs.Overview
import HandlerDocs.Proofs.Project.Reload

namespace HandlerDocs

namespace Project

theorem function?_code (p : Project) (f : FuncRef) :
    p.code.function? f = (p.function? f).map FuncDecl.code := by
  rw [function?, function?, unit?, unit?, code, List.getElem?_map]
  cases p.units[f.unit]? with
  | none => rfl
  | some u => exact List.getElem?_map

theorem isSome_function?_congr {p q : Project} (h : p.code = q.code) (f : FuncRef) :
    (p.function? f).isSome = (q.function? f).isSome := by
  have hcode := congrArg (fun r : Project ↦ (r.function? f).isSome) h
  simpa only [function?_code, Option.isSome_map] using hcode

theorem packageFiles_code (p : Project) (package : String) : p.code.packageFiles package =
    (p.packageFiles package).map (Prod.map SourceFile.code id) := by
  rw [packageFiles, packageFiles, code, List.zipIdx_map, List.filter_map]
  rfl

theorem functionsNamed_code (p : Project) (package name : String) :
    p.code.functionsNamed package name = p.functionsNamed package name := by
  have hindex (u : SourceFile) (name : String) :
      u.code.functionIndex? name = u.functionIndex? name := by
    rw [SourceFile.functionIndex?, SourceFile.code, List.findIdx?_map]
    rfl
  rw [functionsNamed, functionsNamed]
  dsimp only
  rw [packageFiles_code, List.filterMap_map]
  refine List.filterMap_congr fun u _ ↦ ?_
  dsimp only [Function.comp_apply, Prod.map]
  rw [hindex]
  rfl

/-- Which function is the main one is told by the code. -/
theorem findMain_congr {p q : Project} (h : p.code = q.code) : p.findMain = q.findMain := by
  rw [findMain, findMain, ← functionsNamed_code p, ← functionsNamed_code q, h]

theorem isSome_function?_of_mem {p : Project} {package name : String} {f : FuncRef}
    (h : f ∈ p.functionsNamed package name) : (p.function? f).isSome := by
  obtain ⟨⟨u, i⟩, hu, hf⟩ := List.mem_filterMap.1 h
  obtain ⟨j, hj, rfl⟩ := Option.map_eq_some_iff.1 hf
  have hunit : p.units[i]? = some u := List.mem_zipIdx_iff_getElem?.1 (List.mem_of_mem_filter hu)
  have hlt : j < u.functions.length := (List.findIdx?_eq_some_iff_findIdx_eq.1 hj).1
  rw [function?, unit?, hunit]
  simpa using hlt

theorem isSome_function?_of_findMain {p : Project} {f : FuncRef} (h : p.findMain = .ok f) :
    (p.function? f).isSome := by
  have hmem : f ∈ p.functionsNamed "main" "main" := by
    rw [findMain] at h
    split at h
    · rename_i g fs hfound
      rw [hfound, ← Except.ok.inj h]
      exact List.mem_cons_self
    · cases h
  exact isSome_function?_of_mem hmem

/-- A revision is the same code. -/
theorem RevisionOf.code_eq {p base : Project} (h : p.RevisionOf base) : p.code = base.code := by
  rw [code, code, ← h.original, List.map_map]
  exact congrArg Project.mk (List.map_congr_left fun u _ ↦ (SourceFile.code_original u).symm)

theorem Loaded.revisionOf {p : Project} (h : p.Loaded) : p.RevisionOf p :=
  ⟨h.original, fun u hu _ ↦ map_eq_self_iff.1 h.original u hu⟩

namespace Reread

variable {p fresh : Project}

theorem map_docLines (h : p.Reread fresh) (f : FuncRef) :
    (fresh.function? f).map FuncDecl.docLines = (p.function? f).map FuncDecl.rereadLines := by
  have hat := congrArg (fun lines ↦ lines[f.unit]?.bind (·[f.index]?)) h.lines
  simp only [List.getElem?_map, Option.bind_map] at hat
  rw [function?, function?, unit?, unit?, Option.map_bind, Option.map_bind]
  simpa only [Function.comp_def, List.getElem?_map] using hat

theorem docLines_eq (h : p.Reread fresh) {f : FuncRef} {d : FuncDecl}
    (hd : p.function? f = some d) : fresh.docLines f = d.rereadLines := by
  rw [docLines, h.map_docLines, hd]
  rfl

end Reread

end Project

end HandlerDocs
