import HandlerDocs.Proofs.Project.Edits
import HandlerDocs.Proofs.Project.Save

namespace HandlerDocs

namespace SourceFile

variable {disk : Disk} {cwd : Disk.Place} {path : String}

theorem loadFrom_eq {bytes : ByteArray} {source : String} (hread : disk.read cwd path = .ok bytes)
    (hdecode : Text.decodeUtf8 bytes = .ok source) : loadFrom disk cwd path = load path source := by
  rw [loadFrom, hread]
  dsimp only [Except.mapError, bind, Except.bind]
  rw [hdecode]

theorem loadFrom_of_parse {source : String} {file : SourceFile}
    (hread : disk.read cwd path = .ok source.toUTF8) (hparse : parse path source = .ok file) :
    loadFrom disk cwd path = .ok file := by
  rw [loadFrom_eq hread (Text.decodeUtf8_toUTF8 source), load, hparse]
  rfl

theorem loadFrom_congr {disk' : Disk} (h : disk'.read cwd path = disk.read cwd path) :
    loadFrom disk' cwd path = loadFrom disk cwd path := by
  rw [loadFrom, loadFrom, h]

/-- What a loaded file was read from. -/
theorem exists_bytes_of_loadFrom {file : SourceFile} (h : loadFrom disk cwd path = .ok file) :
    ∃ bytes, disk.read cwd path = .ok bytes ∧ Text.decodeUtf8 bytes = .ok file.source ∧
      parse path file.source = .ok file := by
  cases hread : disk.read cwd path with
  | error e =>
    rw [loadFrom, hread] at h
    cases h
  | ok bytes =>
    cases hdecode : Text.decodeUtf8 bytes with
    | error e =>
      rw [loadFrom, hread] at h
      dsimp only [Except.mapError, bind, Except.bind] at h
      rw [hdecode] at h
      cases h
    | ok source =>
      rw [loadFrom_eq hread hdecode, load] at h
      cases hparse : parse path source with
      | error e =>
        rw [hparse] at h
        cases h
      | ok fresh =>
        rw [hparse] at h
        obtain rfl := Except.ok.inj h
        obtain rfl := (original_of_parse hparse).2.1
        exact ⟨bytes, rfl, hdecode, hparse⟩

theorem path_of_loadFrom_error {e : LoadError} (h : loadFrom disk cwd path = .error e) :
    e.path = path := by
  cases hread : disk.read cwd path with
  | error cause =>
    rw [loadFrom, hread] at h
    cases h
    rfl
  | ok bytes =>
    cases hdecode : Text.decodeUtf8 bytes with
    | error fault =>
      rw [loadFrom, hread] at h
      dsimp only [Except.mapError, bind, Except.bind] at h
      rw [hdecode] at h
      cases h
      rfl
    | ok source =>
      rw [loadFrom_eq hread hdecode, load] at h
      cases hparse : parse path source with
      | error cause =>
        rw [hparse] at h
        cases h
        rfl
      | ok file =>
        rw [hparse] at h
        cases h

theorem loadFrom_eq_ok {file : SourceFile} (h : loadFrom disk cwd path = .ok file) :
    file.path = path ∧ file.original = file ∧ file.dirty = false ∧
      parse path file.source = .ok file ∧ ∃ bytes, disk.read cwd path = .ok bytes := by
  obtain ⟨bytes, hread, -, hparse⟩ := exists_bytes_of_loadFrom h
  obtain ⟨hpath, -, horiginal, hclean⟩ := original_of_parse hparse
  exact ⟨hpath, horiginal, hclean, hparse, bytes, hread⟩

theorem render_original (file : SourceFile) : file.original.render = file.source := by
  have hedits : file.original.edits = [] := by
    rw [edits, List.filterMap_eq_nil_iff]
    intro f hf
    obtain ⟨g, -, rfl⟩ := List.mem_map.1 hf
    rfl
  rw [render, hedits, List.mergeSort_nil]
  exact String.ofList_toList

/-- A file is loaded again after it was saved: the same code, with the pending comments. -/
theorem loadFrom_saved {disk' : Disk} {file : SourceFile}
    (hclean : file.dirty = false → file.original = file)
    (hload : loadFrom disk cwd file.path = .ok file.original)
    (hblock : ∀ f ∈ file.functions, ∀ lines, f.pending = some lines → IsBlock lines)
    (hread : disk'.read cwd file.path = file.savedBytes disk cwd) :
    ∃ fresh, loadFrom disk' cwd file.path = .ok fresh ∧ fresh.code = file.code ∧
      fresh.functions.map FuncDecl.docLines = file.functions.map FuncDecl.rereadLines := by
  obtain ⟨-, -, -, hparse, -⟩ := loadFrom_eq_ok hload
  obtain ⟨fresh, hfresh, hcode, hlines⟩ := parse_render hparse hblock
  rw [savedBytes] at hread
  cases hdirty : file.dirty with
  | true =>
    rw [hdirty, if_pos rfl] at hread
    refine ⟨fresh, ?_, hcode, hlines⟩
    rw [loadFrom_eq hread (Text.decodeUtf8_toUTF8 _), load, hfresh]
    rfl
  | false =>
    rw [hdirty, if_neg Bool.false_ne_true] at hread
    have hrender : file.render = file.source := by
      rw [← hclean hdirty, render_original]
      rfl
    obtain rfl : fresh = file.original :=
      Except.ok.inj ((hrender ▸ hfresh).symm.trans hparse)
    exact ⟨file.original, (loadFrom_congr hread).trans hload, hcode, hlines⟩

end SourceFile

namespace Project

/-- The project was read from the text of another one: the same code, and what shows of the
comments that were pending there. -/
structure Reread (p fresh : Project) : Prop where
  code : fresh.code = p.code
  lines : (fresh.units.map fun u ↦ u.functions.map FuncDecl.docLines) =
    p.units.map fun u ↦ u.functions.map FuncDecl.rereadLines

end Project

structure Project.Loaded (p : Project) : Prop where
  original : p.units.map SourceFile.original = p.units
  clean : ∀ u ∈ p.units, u.dirty = false
  pending : ∀ f, ∀ d ∈ p.function? f, d.pending = none
  lines : ∀ f, ∀ d ∈ p.function? f, ∀ line ∈ d.docLines, IsReadLine line
  uncommented : ∀ f, ∀ d ∈ p.function? f, d.doc.span = none → d.doc.lines = []

namespace Project.Loaded

variable {p : Project} (h : p.Loaded)

include h

theorem allBlocks : p.AllBlocks := by
  intro f d lines hd hpending
  rw [h.pending f d hd] at hpending
  cases hpending

theorem docLines_eq_nil {f : FuncRef} {d : FuncDecl} (hd : p.function? f = some d)
    (hspan : d.doc.span = none) : d.docLines = [] := by
  rw [FuncDecl.docLines, h.pending f d hd, Option.getD_none, h.uncommented f d hd hspan]

end Project.Loaded

namespace Generation

variable {disk : Disk} {cwd : Disk.Place} {paths : List String}

theorem mem_units_load {u : SourceFile} : u ∈ (load disk cwd paths).1.units ↔
    u.path ∈ paths ∧ SourceFile.loadFrom disk cwd u.path = .ok u := by
  have hperm : u ∈ (load disk cwd paths).1.units ↔
      u ∈ (paths.map (SourceFile.loadFrom disk cwd)).filterMap (·.toOption) :=
    (List.mergeSort_perm _ _).mem_iff
  rw [hperm, List.filterMap_map, List.mem_filterMap]
  constructor
  · rintro ⟨path, hpath, hu⟩
    have hload := toOption_eq_some.1 hu
    obtain rfl := (SourceFile.loadFrom_eq_ok hload).1
    exact ⟨hpath, hload⟩
  · rintro ⟨hpath, hload⟩
    exact ⟨u.path, hpath, toOption_eq_some.2 hload⟩

/-- Files that are named in the order of their paths stay in that order. -/
theorem load_of_pairwise {files : List SourceFile}
    (hfiles : paths.map (SourceFile.loadFrom disk cwd) = files.map .ok)
    (hsorted : files.Pairwise fun a b ↦ PathName.le a.path b.path = true) :
    load disk cwd paths = (⟨files⟩, []) := by
  have hloaded : (files.map Except.ok).filterMap
      (fun result : Except SourceFile.LoadError SourceFile ↦ result.toOption) = files := by
    rw [List.filterMap_map]
    exact List.filterMap_some
  have hmessages : (files.map Except.ok).filterMap (failure? .text) = [] := by
    rw [List.filterMap_map, List.filterMap_eq_nil_iff]
    intro file _
    rfl
  rw [load, hfiles, collect, hmessages, hloaded, Project.ofFiles,
    List.mergeSort_of_pairwise hsorted, List.mergeSort_nil]

theorem load_singleton {path source : String} {file : SourceFile}
    (hread : disk.read cwd path = .ok source.toUTF8)
    (hparse : SourceFile.parse path source = .ok file) :
    load disk cwd [path] = (⟨[file]⟩, []) := by
  refine load_of_pairwise ?_ (List.pairwise_singleton _ _)
  rw [List.map_singleton, SourceFile.loadFrom_of_parse hread hparse, List.map_singleton]

theorem loaded_load (disk : Disk) (cwd : Disk.Place) (paths : List String) :
    (load disk cwd paths).1.Loaded := by
  have hfunction (f : FuncRef) (d : FuncDecl) (hd : d ∈ (load disk cwd paths).1.function? f) :
      ∃ u : SourceFile, SourceFile.parse u.path u.source = .ok u ∧ d ∈ u.functions := by
    obtain ⟨u, hu, hd⟩ := Option.bind_eq_some_iff.1 hd
    have hload := (mem_units_load.1 (List.mem_of_getElem? hu)).2
    exact ⟨u, (SourceFile.loadFrom_eq_ok hload).2.2.2.1, List.mem_of_getElem? hd⟩
  refine ⟨(List.map_congr_left fun u hu ↦ ?_).trans (List.map_id' _), fun u hu ↦ ?_,
    fun f d hd ↦ ?_, fun f d hd ↦ ?_, fun f d hd hspan ↦ ?_⟩
  · exact (SourceFile.loadFrom_eq_ok (mem_units_load.1 hu).2).2.1
  · exact (SourceFile.loadFrom_eq_ok (mem_units_load.1 hu).2).2.2.1
  · obtain ⟨u, hparse, hmem⟩ := hfunction f d hd
    exact (SourceFile.exists_lead_of_parse hparse d hmem).1
  · obtain ⟨u, hparse, hmem⟩ := hfunction f d hd
    exact SourceFile.isReadLine_of_parse hparse d hmem
  · obtain ⟨u, hparse, hmem⟩ := hfunction f d hd
    exact SourceFile.lines_of_span_eq_none hparse hmem hspan

/-- What relates the paths relates the files that are loaded from them. -/
theorem pairwise_loaded {R : String → String → Prop} (h : paths.Pairwise R) :
    ((paths.map (SourceFile.loadFrom disk cwd)).filterMap (·.toOption)).Pairwise
      fun a b ↦ R a.path b.path := by
  rw [List.filterMap_map, List.pairwise_filterMap]
  refine h.imp fun {a b} hab u hu v hv ↦ ?_
  obtain rfl := (SourceFile.loadFrom_eq_ok (toOption_eq_some.1 hu)).1
  obtain rfl := (SourceFile.loadFrom_eq_ok (toOption_eq_some.1 hv)).1
  exact hab

theorem apart_units_load (h : paths.Pairwise (disk.Apart cwd)) :
    (load disk cwd paths).1.units.Pairwise fun a b ↦ disk.Apart cwd a.path b.path :=
  (List.mergeSort_perm _ _).symm.pairwise (pairwise_loaded h) fun h ↦ h.symm

/-- Files that are exchanged for others of the same paths keep their order. -/
theorem collect_map (wording : SourceFile.Wording)
    {results : List (Except SourceFile.LoadError SourceFile)} {change : SourceFile → SourceFile}
    (h : ∀ u, .ok u ∈ results → (change u).path = u.path) :
    collect wording (results.map (Except.map change)) =
      (⟨(collect wording results).1.units.map change⟩, (collect wording results).2) := by
  have hfiles : (results.map (Except.map change)).filterMap (·.toOption) =
      (results.filterMap (·.toOption)).map change := by
    rw [List.filterMap_map, List.map_filterMap]
    refine List.filterMap_congr fun result _ ↦ ?_
    cases result <;> rfl
  have hsort : ((results.filterMap (·.toOption)).map change).mergeSort
      (fun a b ↦ PathName.le a.path b.path) =
        ((results.filterMap (·.toOption)).mergeSort fun a b ↦ PathName.le a.path b.path).map
          change := by
    refine (List.map_mergeSort fun a ha b hb ↦ ?_).symm
    obtain ⟨ra, hra, ha⟩ := List.mem_filterMap.1 ha
    obtain ⟨rb, hrb, hb⟩ := List.mem_filterMap.1 hb
    rw [h a (toOption_eq_some.1 ha ▸ hra), h b (toOption_eq_some.1 hb ▸ hrb)]
  have hmessages : (results.map (Except.map change)).filterMap (failure? wording) =
      results.filterMap (failure? wording) := by
    rw [List.filterMap_map]
    refine List.filterMap_congr fun result _ ↦ ?_
    cases result <;> rfl
  rw [collect, collect, hfiles, hmessages, Project.ofFiles, Project.ofFiles, hsort]

theorem load_of_reload {disk' : Disk} {reload : SourceFile → SourceFile}
    (hok : ∀ u ∈ (load disk cwd paths).1.units,
      SourceFile.loadFrom disk' cwd u.path = .ok (reload u))
    (hfail : ∀ path ∈ paths, ∀ e, SourceFile.loadFrom disk cwd path = .error e →
      SourceFile.loadFrom disk' cwd path = .error e) :
    load disk' cwd paths =
      (⟨(load disk cwd paths).1.units.map reload⟩, (load disk cwd paths).2) := by
  have hmem {path : String} {u : SourceFile} (hpath : path ∈ paths)
      (hload : SourceFile.loadFrom disk cwd path = .ok u) :
      u.path = path ∧ u ∈ (load disk cwd paths).1.units := by
    obtain rfl := (SourceFile.loadFrom_eq_ok hload).1
    exact ⟨rfl, mem_units_load.2 ⟨hpath, hload⟩⟩
  have hresults : paths.map (SourceFile.loadFrom disk' cwd) =
      (paths.map (SourceFile.loadFrom disk cwd)).map (Except.map reload) := by
    rw [List.map_map]
    refine List.map_congr_left fun path hpath ↦ ?_
    rw [Function.comp_apply]
    cases hload : SourceFile.loadFrom disk cwd path with
    | error e => exact hfail path hpath e hload
    | ok u =>
      obtain ⟨rfl, hu⟩ := hmem hpath hload
      exact hok u hu
  have hpaths (u : SourceFile) (hu : .ok u ∈ paths.map (SourceFile.loadFrom disk cwd)) :
      (reload u).path = u.path := by
    obtain ⟨path, hpath, hload⟩ := List.mem_map.1 hu
    exact (SourceFile.loadFrom_eq_ok (hok u (hmem hpath hload).2)).1
  rw [load, hresults, collect_map _ hpaths]
  rfl

section Revision

variable {p : Project}

theorem loadFrom_of_revisionOf (h : p.RevisionOf (load disk cwd paths).1) {u : SourceFile}
    (hu : u ∈ p.units) : u.path ∈ paths ∧ SourceFile.loadFrom disk cwd u.path = .ok u.original := by
  have hmem : u.original ∈ (load disk cwd paths).1.units := by
    rw [← h.original]
    exact List.mem_map_of_mem hu
  exact mem_units_load.1 hmem

/-- A project that was loaded is saved, whatever comments are pending in it. -/
theorem save_loaded (hrevision : p.RevisionOf (load disk cwd paths).1)
    (hapart : paths.Pairwise (disk.Apart cwd)) :
    ∃ p' disk', p.save cwd disk = (p', disk', .ok (p.units.countP (·.dirty))) ∧
      Project.SavedOnto cwd p.units disk disk' := by
  have hread (u : SourceFile) (hu : u ∈ p.units) : ∃ bytes, disk.read cwd u.path = .ok bytes :=
    (SourceFile.loadFrom_eq_ok (loadFrom_of_revisionOf hrevision hu).2).2.2.2.2
  have hplaces : p.units.Pairwise fun a b ↦ disk.Apart cwd a.path b.path := by
    have hunits := apart_units_load hapart
    rw [← hrevision.original, List.pairwise_map] at hunits
    exact hunits
  obtain ⟨units', disk', hsave, honto⟩ := Project.saveFiles_of_read hread hplaces
  refine ⟨⟨units'⟩, disk', ?_, honto⟩
  rw [Project.save, hsave]

/-- A project that was saved is loaded again: the same code with the comments that were pending.
The files that could not be loaded stay as they were. -/
theorem load_saved (hrevision : p.RevisionOf (load disk cwd paths).1) (hblocks : p.AllBlocks)
    (hapart : paths.Pairwise (disk.Apart cwd)) {disk' : Disk}
    (honto : Project.SavedOnto cwd p.units disk disk') :
    ∃ fresh, load disk' cwd paths = (fresh, (load disk cwd paths).2) ∧ p.Reread fresh := by
  let reload (u : SourceFile) : SourceFile :=
    (SourceFile.loadFrom disk' cwd u.path).toOption.getD u
  have hreload (u : SourceFile) (hu : u ∈ p.units) :
      SourceFile.loadFrom disk' cwd u.path = .ok (reload u.original) ∧
        (reload u.original).code = u.code ∧
        (reload u.original).functions.map FuncDecl.docLines =
          u.functions.map FuncDecl.rereadLines := by
    obtain ⟨fresh, hfresh, hcode, hlines⟩ := SourceFile.loadFrom_saved (hrevision.clean u hu)
      (loadFrom_of_revisionOf hrevision hu).2 (hblocks.of_mem hu) (honto.saved u hu)
    have heq : reload u.original = fresh := by
      change (SourceFile.loadFrom disk' cwd u.path).toOption.getD _ = fresh
      rw [toOption_eq_some.2 hfresh, Option.getD_some]
    rw [heq]
    exact ⟨hfresh, hcode, hlines⟩
  have hload : load disk' cwd paths =
      (⟨(load disk cwd paths).1.units.map reload⟩, (load disk cwd paths).2) := by
    refine load_of_reload (fun base hbase ↦ ?_) fun path hpath e he ↦ ?_
    · rw [← hrevision.original] at hbase
      obtain ⟨u, hu, rfl⟩ := List.mem_map.1 hbase
      exact (hreload u hu).1
    · -- no file of the project is at the place of a file that could not be loaded
      refine (SourceFile.loadFrom_congr (honto.other path fun u hu ↦ ?_)).trans he
      obtain ⟨hmem, hok⟩ := loadFrom_of_revisionOf hrevision hu
      refine hapart.forall hmem hpath ?_
      rintro rfl
      rw [hok] at he
      cases he
  rw [← hrevision.original, List.map_map] at hload
  refine ⟨_, hload, ?_, ?_⟩
  · rw [Project.code, Project.code, List.map_map]
    exact congrArg Project.mk (List.map_congr_left fun u hu ↦ (hreload u hu).2.1)
  · rw [List.map_map]
    exact List.map_congr_left fun u hu ↦ (hreload u hu).2.2

end Revision

end Generation

end HandlerDocs
