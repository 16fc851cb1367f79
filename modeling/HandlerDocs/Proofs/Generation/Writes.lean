import HandlerDocs.Proofs.Generation.Document
import HandlerDocs.Proofs.Project.Resume
import HandlerDocs.Proofs.Routing.Foremost

namespace HandlerDocs

namespace Disk

/-- The disk after texts were stored: each stands at the place of its path, and all other places are
as they were. -/
structure StoredOnto (cwd : Place) (writes : List (String × String)) (disk disk' : Disk) :
    Prop where
  resolve : ∀ path, disk'.resolve cwd path = disk.resolve cwd path
  stored : ∀ w ∈ writes, ∃ place old, disk.resolve cwd w.1 = .ok place ∧
    disk.node? place = some (.file old) ∧ disk'.node? place = some (.file w.2.toUTF8)
  other : ∀ place, (∀ w ∈ writes, disk.resolve cwd w.1 ≠ .ok place) →
    disk'.node? place = disk.node? place

theorem writeAll_of_read {cwd : Place} {writes : List (String × String)} {disk : Disk}
    (hread : ∀ w ∈ writes, ∃ bytes, disk.read cwd w.1 = .ok bytes)
    (hapart : writes.Pairwise fun a b ↦ disk.Apart cwd a.1 b.1) :
    ∃ disk', disk.writeAll cwd writes = .ok disk' ∧ StoredOnto cwd writes disk disk' := by
  induction writes generalizing disk with
  | nil => exact ⟨disk, rfl, fun _ ↦ rfl, by simp, fun _ _ ↦ rfl⟩
  | cons w writes ih =>
    obtain ⟨⟨bytes, hbytes⟩, hread'⟩ := List.forall_mem_cons.1 hread
    obtain ⟨hhead, htail⟩ := List.pairwise_cons.1 hapart
    obtain ⟨place, hresolve, hfile⟩ := read_eq_ok.1 hbytes
    have hwrite : disk.writeText cwd w.1 w.2 = .ok (disk.put place (.file w.2.toUTF8)) :=
      write_of_file hfile _ hresolve
    have hresolve₁ := resolve_overwrite hfile w.2.toUTF8 cwd
    have hnode₁ := node?_put (takes_of_file hfile) w.2.toUTF8
    have hread₁ := read_overwrite hfile w.2.toUTF8 cwd
    generalize disk.put place (.file w.2.toUTF8) = disk₁ at hwrite hresolve₁ hnode₁ hread₁
    obtain ⟨disk₂, hall, honto⟩ : ∃ disk₂, disk₁.writeAll cwd writes = .ok disk₂ ∧
        StoredOnto cwd writes disk₁ disk₂ := by
      apply ih
      · intro v hv
        rw [hread₁, if_neg (hhead v hv place hresolve)]
        exact hread' v hv
      · simpa only [Apart, hresolve₁] using htail
    have hwrites := writeAll_cons_eq_ok.2 ⟨disk₁, hwrite, hall⟩
    refine ⟨disk₂, hwrites, ?_, ?_, ?_⟩
    · intro path
      rw [honto.resolve, hresolve₁]
    · rw [List.forall_mem_cons]
      constructor
      · refine ⟨place, bytes, hresolve, hfile, ?_⟩
        rw [honto.other place, hnode₁, if_pos rfl]
        intro v hv
        rw [hresolve₁]
        exact hhead v hv place hresolve
      · intro v hv
        obtain ⟨place', old, hresolve', hold, hnew⟩ := honto.stored v hv
        rw [hresolve₁] at hresolve'
        have hne : place' ≠ place := by
          rintro rfl
          exact hhead v hv place' hresolve hresolve'
        rw [hnode₁, if_neg hne] at hold
        exact ⟨place', old, hresolve', hold, hnew⟩
    · intro place' hother
      refine node?_writeAll hwrites fun v hv ↦ ?_
      rw [destination_of_read (hread v hv).choose_spec]
      exact hother v hv

end Disk

namespace Project

variable {p : Project} {unit : ℕ}

def IsDirty (p : Project) (unit : ℕ) : Prop :=
  ∃ u, p.unit? unit = some u ∧ u.dirty = true

/-- A comment marks the file of its function if it is new, and no other file. -/
theorem isDirty_setDoc {f : FuncRef} {lines : List String} : (p.setDoc f lines).1.IsDirty unit ↔
    p.IsDirty unit ∨ (p.setDoc f lines).2 = true ∧ f.unit = unit := by
  cases hchanged : (p.setDoc f lines).2 with
  | false =>
    rw [setDoc_eq_self hchanged]
    simp
  | true =>
    have hunits : (p.setDoc f lines).1.unit? unit =
        (fun file ↦ if f.unit = unit then (file.setDoc f.index lines).1 else file) <$>
          p.unit? unit := by
      rw [unit?, units_setDoc, List.getElem?_modify]
      rfl
    rw [IsDirty, IsDirty, hunits]
    by_cases hunit : f.unit = unit
    · subst hunit
      rw [setDoc] at hchanged
      cases hfile : p.unit? f.unit with
      | none =>
        rw [hfile] at hchanged
        cases hchanged
      | some file =>
        rw [hfile] at hchanged
        dsimp only at hchanged
        rcases file.setDoc_eq_or_dirty f.index lines with hsame | ⟨hdirty, -⟩
        · rw [hsame] at hchanged
          cases hchanged
        · simp [hdirty]
    · simp [hunit]

theorem RevisionOf.path_eq {base : Project} (h : p.RevisionOf base) (unit : ℕ) :
    (p.unit? unit).map (·.path) = (base.unit? unit).map (·.path) := by
  rw [unit?, unit?, ← h.original, List.getElem?_map, Option.map_map]
  rfl

theorem mem_pendingWrites {path : String} : path ∈ (pendingWrites p.units).map Prod.fst ↔
    ∃ unit, p.IsDirty unit ∧ (p.unit? unit).map (·.path) = some path := by
  rw [pendingWrites, List.map_flatMap, List.mem_flatMap]
  constructor
  · rintro ⟨u, hu, hpath⟩
    obtain ⟨unit, hunit⟩ := List.mem_iff_getElem?.1 hu
    refine ⟨unit, ?_⟩
    rw [SourceFile.pendingWrites] at hpath
    split at hpath
    · rename_i hdirty
      rw [unit?, hunit]
      exact ⟨⟨u, hunit, hdirty⟩, congrArg some (List.mem_singleton.1 hpath).symm⟩
    · cases hpath
  · rintro ⟨unit, ⟨u, hunit, hdirty⟩, hpath⟩
    rw [hunit, Option.map_some, Option.some.injEq] at hpath
    refine ⟨u, List.mem_of_getElem? hunit, ?_⟩
    rw [SourceFile.pendingWrites, if_pos hdirty, ← hpath]
    exact List.mem_singleton_self _

end Project

theorem Endpoint.isDirty_applyAll {p : Project} {es : List Endpoint} {unit : ℕ} :
    (applyAll p es).1.IsDirty unit ↔
      p.IsDirty unit ∨ ∃ c ∈ (applyAll p es).2, c.changed = true ∧ c.handler.unit = unit := by
  induction es generalizing p with
  | nil => simp [applyAll]
  | cons e es ih =>
    rw [applyAll]
    dsimp only
    rw [ih, Project.annotate, Project.isDirty_setDoc, or_assoc]
    simp only [List.mem_cons, exists_eq_or_imp]

namespace Generation

section Document

variable {options : Options} {p : Project} {failed : List String} {unit : ℕ}

theorem isDirty_describe {o : OverviewOptions} : (describe p o).1.IsDirty unit ↔
    p.IsDirty unit ∨
      (describe p o).2 = some true ∧ ∃ main, p.findMain = .ok main ∧ main.unit = unit := by
  cases hmain : described? o p with
  | none => simp [describe_of_none hmain]
  | some main =>
    have hfound := (described?_eq_some.1 hmain).2
    rw [describe_of_some hmain, Project.isDirty_setDoc]
    simp [hfound]

/-- Comments come to be pending in the files of changed handlers and of the main function. -/
theorem isDirty_document (h : p.Loaded) : (document options p failed).1.IsDirty unit ↔
    (∃ e ∈ endpoints options p,
      (Endpoint.change p e).changed = true ∧ e.handler.unit = unit) ∨
    (document options p failed).2.overviewChanged = some true ∧
      ∃ main, p.findMain = .ok main ∧ main.unit = unit := by
  have hclean : ¬p.IsDirty unit := by
    rintro ⟨u, hu, hdirty⟩
    rw [h.clean u (List.mem_of_getElem? hu)] at hdirty
    cases hdirty
  have hcode : (Endpoint.applyAll p (endpoints options p)).1.code = p.code :=
    (Endpoint.revisionOf_applyAll h.revisionOf).code_eq
  rw [document_eq]
  dsimp only
  rw [isDirty_describe, Endpoint.isDirty_applyAll, Project.findMain_congr hcode,
    Endpoint.changes_applyAll (nodup_endpoints options p)]
  simp [hclean, Endpoint.change]

theorem foremost_of_isDirty (h : p.Loaded) (hdirty : (document options p failed).1.IsDirty unit) :
    ∃ f, p.Foremost f ∧ f.unit = unit := by
  rcases (isDirty_document h).1 hdirty with ⟨e, he, -, hunit⟩ | ⟨-, main, hmain, hunit⟩
  · exact ⟨e.handler, Endpoint.foremost_all he, hunit⟩
  · exact ⟨main, Project.foremost_of_findMain hmain, hunit⟩

end Document

section Load

variable {disk : Disk} {cwd : Disk.Place} {paths : List String}

/-- Paths to one file are loaded as files with the same declarations. -/
theorem declarations_eq_of_resolve {a b : String} {u v : SourceFile}
    (hu : SourceFile.loadFrom disk cwd a = .ok u) (hv : SourceFile.loadFrom disk cwd b = .ok v)
    (hsame : disk.resolve cwd a = disk.resolve cwd b) :
    u.package = v.package ∧ u.functions = v.functions := by
  obtain ⟨bytes, hread, hdecode, hparse⟩ := SourceFile.exists_bytes_of_loadFrom hu
  obtain ⟨bytes', hread', hdecode', hparse'⟩ := SourceFile.exists_bytes_of_loadFrom hv
  have hbytes : bytes = bytes' := by
    rw [Disk.read, hsame, ← Disk.read, hread'] at hread
    exact (Except.ok.inj hread).symm
  have hsource : u.source = v.source := by
    rw [hbytes, hdecode'] at hdecode
    exact (Except.ok.inj hdecode).symm
  have hdeclared {path : String} {file : SourceFile} {tree : Code.File}
      (hfile : SourceFile.ofFile path file.source tree = file) :
      file.package = tree.package ∧ file.functions = tree.functions.map FuncDecl.ofNode :=
    ⟨(congrArg SourceFile.package hfile).symm, (congrArg SourceFile.functions hfile).symm⟩
  obtain ⟨tree, htree, hfile⟩ := SourceFile.parse_eq_ok hparse
  obtain ⟨tree', htree', hfile'⟩ := SourceFile.parse_eq_ok hparse'
  rw [hsource, htree'] at htree
  obtain rfl := Except.ok.inj htree
  rw [(hdeclared hfile).1, (hdeclared hfile).2, (hdeclared hfile').1, (hdeclared hfile').2]
  exact ⟨rfl, rfl⟩

/-- The file of a foremost function is at another place than all files before it. -/
theorem apart_of_foremost {f : FuncRef} (hf : (load disk cwd paths).1.Foremost f) {i : ℕ}
    (hi : i < f.unit) {u v : SourceFile} (hu : (load disk cwd paths).1.unit? i = some u)
    (hv : (load disk cwd paths).1.unit? f.unit = some v) : disk.Apart cwd u.path v.path := by
  obtain ⟨v', hv', hfirst⟩ := hf
  obtain rfl := Option.some.inj (hv'.symm.trans hv)
  intro place hplace hplace'
  have hloaded := (mem_units_load.1 (List.mem_of_getElem? hu)).2
  have hloaded' := (mem_units_load.1 (List.mem_of_getElem? hv)).2
  obtain ⟨hpackage, hfunctions⟩ :=
    declarations_eq_of_resolve hloaded hloaded' (hplace.trans hplace'.symm)
  exact hfirst i hi u hu hpackage hfunctions

end Load

/-- The report calls the file changed: a handler in it has a new comment, or it holds the main
function and the general information is new. -/
def Report.Changes (r : Report) (p : Project) (path : String) : Prop :=
  (∃ h ∈ r.handlers, h.changed = true ∧ h.file = path) ∨
    r.overviewChanged = some true ∧
      ∃ main u, p.findMain = .ok main ∧ p.unit? main.unit = some u ∧ u.path = path

section Report

variable {options : Options} {p : Project} {failed : List String}

theorem exists_changed_document (h : p.Loaded) {path : String} :
    (∃ r ∈ (document options p failed).2.handlers, r.changed = true ∧ r.file = path) ↔
      ∃ e ∈ endpoints options p, (Endpoint.change p e).changed = true ∧
        ((p.unit? e.handler.unit).map (·.path)).getD "" = path := by
  have happlied (unit : ℕ) :
      (((Endpoint.applyAll p (endpoints options p)).1.unit? unit).map (·.path)) =
        (p.unit? unit).map (·.path) :=
    (Endpoint.revisionOf_applyAll h.revisionOf).path_eq unit
  have hhandler (e : Endpoint) : (Endpoint.change p e).handler = e.handler := rfl
  rw [document_eq]
  dsimp only
  rw [Endpoint.changes_applyAll (nodup_endpoints options p), List.map_map]
  simp only [List.mem_map, exists_exists_and_eq_and, Function.comp_apply, handlerReport, happlied,
    hhandler]

theorem mem_pendingWrites_document (h : p.Loaded) (path : String) :
    path ∈ (Project.pendingWrites (document options p failed).1.units).map Prod.fst ↔
      (document options p failed).2.Changes p path := by
  have hpath (unit : ℕ) : ((document options p failed).1.unit? unit).map (·.path) =
      (p.unit? unit).map (·.path) := (revisionOf_document h).path_eq unit
  rw [Project.mem_pendingWrites, Report.Changes, exists_changed_document h]
  constructor
  · rintro ⟨unit, hdirty, hunit⟩
    rw [hpath] at hunit
    rcases (isDirty_document h).1 hdirty with ⟨e, he, hchanged, rfl⟩ | ⟨hnew, main, hmain, rfl⟩
    · refine .inl ⟨e, he, hchanged, ?_⟩
      rw [hunit]
      rfl
    · obtain ⟨u, hu, rfl⟩ := Option.map_eq_some_iff.1 hunit
      exact .inr ⟨hnew, main, u, hmain, hu, rfl⟩
  · rintro (⟨e, he, hchanged, rfl⟩ | ⟨hnew, main, u, hmain, hu, rfl⟩)
    · have hdirty : (document options p failed).1.IsDirty e.handler.unit :=
        (isDirty_document h).2 (.inl ⟨e, he, hchanged, rfl⟩)
      refine ⟨e.handler.unit, hdirty, ?_⟩
      obtain ⟨u, hu, -⟩ := hdirty
      rw [← hpath, hu]
      rfl
    · refine ⟨main.unit, (isDirty_document h).2 (.inr ⟨hnew, main, hmain, rfl⟩), ?_⟩
      rw [hpath, hu]
      rfl

end Report

section Run

variable {disk : Disk} {cwd : Disk.Place} {paths : List String}

/-- Where comments are pending in the files of foremost functions only, files that are written are
at places of their own, whatever paths were loaded. -/
theorem pairwise_pendingWrites {q : Project} (hrevision : q.RevisionOf (load disk cwd paths).1)
    (hforemost : ∀ unit, q.IsDirty unit → ∃ f, (load disk cwd paths).1.Foremost f ∧ f.unit = unit) :
    (Project.pendingWrites q.units).Pairwise fun a b ↦ disk.Apart cwd a.1 b.1 := by
  have hbase {i : ℕ} {u : SourceFile} (hu : q.units[i]? = some u) :
      (load disk cwd paths).1.unit? i = some u.original := by
    rw [Project.unit?, ← hrevision.original, List.getElem?_map, hu]
    rfl
  have hwrite {u : SourceFile} {w : String × String} (hw : w ∈ u.pendingWrites) :
      u.dirty = true ∧ w.1 = u.original.path := by
    rw [SourceFile.pendingWrites] at hw
    split at hw
    · rename_i hdirty
      exact ⟨hdirty, congrArg Prod.fst (List.mem_singleton.1 hw)⟩
    · cases hw
  rw [Project.pendingWrites, List.pairwise_flatMap]
  constructor
  · intro u _
    rw [SourceFile.pendingWrites]
    split
    · exact List.pairwise_singleton _ _
    · exact List.Pairwise.nil
  · rw [List.pairwise_iff_getElem]
    intro i j hi hj hij a ha b hb
    obtain ⟨-, hpatha⟩ := hwrite ha
    obtain ⟨hdirty, hpathb⟩ := hwrite hb
    have hunit := List.getElem?_eq_getElem hj
    obtain ⟨f, hf, rfl⟩ := hforemost j ⟨_, hunit, hdirty⟩
    rw [hpatha, hpathb]
    exact apart_of_foremost hf hij (hbase (List.getElem?_eq_getElem hi)) (hbase hunit)

theorem readable_pendingWrites {q : Project} (hrevision : q.RevisionOf (load disk cwd paths).1) :
    ∀ w ∈ Project.pendingWrites q.units, ∃ bytes, disk.read cwd w.1 = .ok bytes := by
  intro w hw
  obtain ⟨unit, ⟨u, hu, -⟩, hpath⟩ := Project.mem_pendingWrites.1 (List.mem_map_of_mem hw)
  rw [hu, Option.map_some, Option.some.injEq] at hpath
  have hloaded := (loadFrom_of_revisionOf hrevision (List.mem_of_getElem? hu)).2
  rw [← hpath]
  exact (SourceFile.loadFrom_eq_ok hloaded).2.2.2.2

variable {options : Options} {p : Project} {failed : List String}

theorem run_of_writeAll (hwrite : options.write) (hload : load disk cwd paths = (p, failed))
    {disk' : Disk} (hall : disk.writeAll cwd
      (Project.pendingWrites (document options p failed).1.units) = .ok disk') :
    run options disk cwd paths = (disk', .ok { (document options p failed).2 with
      unitsWritten := (Project.pendingWrites (document options p failed).1.units).length }) := by
  have hsave : (document options p failed).1.save cwd disk =
      (⟨(document options p failed).1.units.map SourceFile.saved⟩, disk',
        .ok (Project.pendingWrites (document options p failed).1.units).length) := by
    rw [Project.save, Project.saveFiles_of_writeAll hall, Project.length_pendingWrites]
  rw [run, hload]
  dsimp only
  rw [if_pos hwrite, hsave]
  rfl

/-- A run that writes stores the new text of each file that its report calls changed, and counts
these files. No two of them are one, and nothing else on the disk changes. -/
theorem run_writes_changed_files (hwrite : options.write) (disk : Disk) (cwd : Disk.Place)
    (paths : List String) :
    let (p, failed) := load disk cwd paths
    let written := Project.pendingWrites (document options p failed).1.units
    ∃ disk' report, run options disk cwd paths = (disk', .ok report) ∧
      (∀ path, path ∈ written.map Prod.fst ↔ report.Changes p path) ∧
      written.Pairwise (fun a b ↦ disk.Apart cwd a.1 b.1) ∧
      report.unitsWritten = written.length ∧
      disk.writeAll cwd written = .ok disk' ∧ Disk.StoredOnto cwd written disk disk' := by
  obtain ⟨p, failed, hload⟩ : ∃ p failed, load disk cwd paths = (p, failed) := ⟨_, _, rfl⟩
  have hp : (load disk cwd paths).1 = p := by rw [hload]
  have hloaded : p.Loaded := hp ▸ loaded_load disk cwd paths
  have hrevision : (document options p failed).1.RevisionOf (load disk cwd paths).1 := by
    rw [hp]
    exact revisionOf_document hloaded
  have hforemost (unit : ℕ) (hdirty : (document options p failed).1.IsDirty unit) :
      ∃ f, (load disk cwd paths).1.Foremost f ∧ f.unit = unit := by
    rw [hp]
    exact foremost_of_isDirty hloaded hdirty
  have hpaths (path : String) :
      path ∈ (Project.pendingWrites (document options p failed).1.units).map Prod.fst ↔
        (document options p failed).2.Changes p path := mem_pendingWrites_document hloaded path
  have hapart := pairwise_pendingWrites hrevision hforemost
  obtain ⟨disk', hall, honto⟩ := Disk.writeAll_of_read (readable_pendingWrites hrevision) hapart
  have hrun := run_of_writeAll hwrite hload hall
  rw [hload]
  dsimp only
  generalize document options p failed = documented at hpaths hapart hall honto hrun ⊢
  exact ⟨disk', _, hrun, hpaths, hapart, rfl, hall, honto⟩

/-- One file is loaded under two paths, with a handler and the main function in it; the comment of
the handler in the other file is up to date. -/
theorem run_writes_changed_files_alias :
    let imports := "package main\n\nimport \"github.com/gin-gonic/gin\"\n\n"
    let main := imports ++ "func List(c *gin.Context) \x7b\x7d\n\nfunc main() \x7b\n" ++
      "\tr := gin.New()\n\tr.GET(\"/list\", List)\n\tr.GET(\"/show\", Show)\n\x7d\n"
    let other := imports ++
      "// @Summary Show\n// @Router /show [get]\nfunc Show(c *gin.Context) \x7b\x7d\n"
    let disk : Disk := ⟨[(["main.go"], .file main.toUTF8), (["show.go"], .file other.toUTF8)]⟩
    let options : Options := { overview := { base := true } }
    options.write ∧
      ∃ disk' report, run options disk [] ["./main.go", "main.go", "show.go"] =
          (disk', .ok report) ∧
        report.handlers.map (fun h ↦ (h.file, h.changed)) =
          [("./main.go", true), ("show.go", false)] ∧
        report.overviewChanged = some true ∧ report.unitsWritten = 1 ∧
        disk'.node? ["show.go"] = some (.file other.toUTF8) := by
  intro imports main other disk options
  let parsed (path source : String) : SourceFile :=
    (SourceFile.parse path source).toOption.getD ⟨"", "", [], [], [], [], "", false⟩
  let p : Project := ⟨[parsed "./main.go" main, parsed "main.go" main, parsed "show.go" other]⟩
  have hloaded {path source : String} (hread : disk.read [] path = .ok source.toUTF8)
      (hok : (SourceFile.parse path source).toOption.isSome) :
      SourceFile.loadFrom disk [] path = .ok (parsed path source) := by
    obtain ⟨file, hfile⟩ := Option.isSome_iff_exists.1 hok
    rw [SourceFile.loadFrom_of_parse hread (toOption_eq_some.1 hfile)]
    dsimp only [parsed]
    rw [hfile, Option.getD_some]
  have hload : load disk [] ["./main.go", "main.go", "show.go"] = (p, []) := by
    have hok : (SourceFile.parse "./main.go" main).toOption.isSome ∧
        (SourceFile.parse "main.go" main).toOption.isSome ∧
        (SourceFile.parse "show.go" other).toOption.isSome ∧
        p.units.Pairwise fun a b ↦ PathName.le a.path b.path = true := by
      decide +kernel
    refine load_of_pairwise ?_ hok.2.2.2
    rw [List.map_cons, List.map_cons, List.map_singleton, hloaded rfl hok.1, hloaded rfl hok.2.1,
      hloaded rfl hok.2.2.1]
    rfl
  have hview : ((document options p []).2.handlers.map fun h ↦ (h.file, h.changed)) =
        [("./main.go", true), ("show.go", false)] ∧
      (document options p []).2.overviewChanged = some true ∧
      ((document options p []).1.units.countP (·.dirty)) = 1 ∧
      (p.findMain.toOption.bind fun f ↦ (p.unit? f.unit).map (·.path)) = some "./main.go" := by
    decide +kernel
  have hresolve : disk.resolve [] "./main.go" = .ok ["main.go"] := by decide +kernel
  -- What such a report calls changed. The terms for the report of this run are too large to be
  -- compared with each other, so that this is stated of any.
  have hreports (q : Project) (r : Report) (n : ℕ)
      (hhandlers : (r.handlers.map fun h ↦ (h.file, h.changed)) =
        [("./main.go", true), ("show.go", false)])
      (hoverview : r.overviewChanged = some true)
      (hmain : (q.findMain.toOption.bind fun f ↦ (q.unit? f.unit).map (·.path)) =
        some "./main.go") :
      let report : Report := { r with unitsWritten := n }
      (report.handlers.map fun h ↦ (h.file, h.changed)) =
          [("./main.go", true), ("show.go", false)] ∧
        report.overviewChanged = some true ∧
        ∀ path, report.Changes q path → path = "./main.go" := by
    refine ⟨hhandlers, hoverview, ?_⟩
    rintro path (⟨h, hh, hnew, hfile⟩ | ⟨-, f, u, hf, hu, hpath⟩)
    · have hmem : (h.file, h.changed) ∈ r.handlers.map fun h ↦ (h.file, h.changed) :=
        List.mem_map_of_mem hh
      rw [hhandlers, hfile, hnew] at hmem
      simpa using hmem
    · rw [hf, Except.toOption, Option.bind_some, hu, Option.map_some, hpath] at hmain
      exact Option.some.inj hmain
  have hwrites := @run_writes_changed_files options rfl disk [] ["./main.go", "main.go", "show.go"]
  rw [hload] at hwrites
  obtain ⟨disk', report, hreport, hpaths, -, hcount, hall, honto⟩ := hwrites
  obtain rfl : _ = report :=
    Except.ok.inj (Prod.mk.inj ((run_of_writeAll rfl hload hall).symm.trans hreport)).2
  obtain ⟨hhandlers, hoverview, hchanged⟩ := hreports p _ _ hview.1 hview.2.1 hview.2.2.2
  refine ⟨rfl, disk', _, hreport, hhandlers, hoverview, ?_, ?_⟩
  · rw [hcount, Project.length_pendingWrites, hview.2.2.1]
  · rw [honto.other ["show.go"]]
    · rfl
    · intro w hw
      rw [hchanged w.1 ((hpaths w.1).1 (List.mem_map_of_mem hw)), hresolve]
      decide

end Run

end Generation

end HandlerDocs
