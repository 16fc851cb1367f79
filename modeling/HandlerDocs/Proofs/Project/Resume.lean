import HandlerDocs.Proofs.SourceFile.Session

namespace HandlerDocs

namespace Disk

/-- A write that either stores the text or fails; what fails and when is left open. -/
def StoresOrFails (cwd : Place) (write : String → String → Disk → Except DiskError Disk) : Prop :=
  ∀ path text disk disk', write path text disk = .ok disk' →
    disk.writeText cwd path text = .ok disk'

theorem storesOrFails_writeText (cwd : Place) :
    StoresOrFails cwd fun path text disk ↦ disk.writeText cwd path text :=
  fun _ _ _ _ h ↦ h

end Disk

namespace SourceFile

def saved (file : SourceFile) : SourceFile :=
  if file.dirty then file.stored else file

def pendingWrites (file : SourceFile) : List (String × String) :=
  if file.dirty then [(file.path, file.render)] else []

theorem dirty_saved (file : SourceFile) : file.saved.dirty = false := by
  rw [saved]
  split
  · exact file.dirty_stored
  · rename_i hclean
    simpa using hclean

theorem saved_of_clean {file : SourceFile} (h : file.dirty = false) : file.saved = file := by
  rw [saved, h]
  rfl

theorem pendingWrites_saved (file : SourceFile) : file.saved.pendingWrites = [] := by
  rw [pendingWrites, dirty_saved]
  rfl

theorem length_pendingWrites (file : SourceFile) :
    file.pendingWrites.length = file.dirty.toNat := by
  rw [pendingWrites]
  cases file.dirty <;> rfl

variable {write : String → String → Disk → Except DiskError Disk}

theorem save_of_clean {file : SourceFile} (h : file.dirty = false) (disk : Disk) :
    file.save write disk = .ok (file, disk) := by
  rw [save, h]
  rfl

/-- A save stores what is pending, or it fails and nothing happens. -/
theorem save_cases {cwd : Disk.Place} (hwrite : Disk.StoresOrFails cwd write) (file : SourceFile)
    (disk : Disk) :
    (∃ disk', file.save write disk = .ok (file.saved, disk') ∧
      disk.writeAll cwd file.pendingWrites = .ok disk') ∨
    ∃ cause, file.dirty = true ∧ write file.path file.render disk = .error cause ∧
      file.save write disk = .error cause := by
  cases hdirty : file.dirty with
  | false =>
    refine .inl ⟨disk, ?_, ?_⟩
    · rw [save_of_clean hdirty, saved_of_clean hdirty]
    · rw [pendingWrites, hdirty]
      rfl
  | true =>
    rw [save, saved, pendingWrites, hdirty]
    cases hdisk : write file.path file.render disk with
    | error cause => exact .inr ⟨cause, rfl, rfl, rfl⟩
    | ok disk' =>
      have hstored := hwrite _ _ _ _ hdisk
      refine .inl ⟨disk', rfl, ?_⟩
      simp only [if_true, Disk.writeAll, List.foldlM_cons, List.foldlM_nil, hstored]
      rfl

end SourceFile

namespace Project

def pendingWrites (units : List SourceFile) : List (String × String) :=
  units.flatMap SourceFile.pendingWrites

theorem pendingWrites_append (as bs : List SourceFile) :
    pendingWrites (as ++ bs) = pendingWrites as ++ pendingWrites bs :=
  List.flatMap_append

theorem pendingWrites_saved (units : List SourceFile) :
    pendingWrites (units.map SourceFile.saved) = [] := by
  rw [pendingWrites, List.flatMap_map, List.flatMap_eq_nil_iff]
  intro u _
  exact u.pendingWrites_saved

theorem forall_mem_pendingWrites {units : List SourceFile} (P : String → Prop) :
    (∀ w ∈ pendingWrites units, P w.1) ↔ ∀ u ∈ units, u.dirty = true → P u.path := by
  simp only [pendingWrites, List.forall_mem_flatMap, SourceFile.pendingWrites]
  refine forall₂_congr fun u _ ↦ ?_
  cases u.dirty <;> simp

theorem length_pendingWrites (units : List SourceFile) :
    (pendingWrites units).length = units.countP (·.dirty) := by
  induction units with
  | nil => rfl
  | cons u units ih =>
    rw [pendingWrites, List.flatMap_cons, List.length_append, ← pendingWrites, ih,
      SourceFile.length_pendingWrites, List.countP_cons]
    cases u.dirty
    · simp
    · simp [Nat.add_comm]

section Save

variable {cwd : Disk.Place} {write : String → String → Disk → Except DiskError Disk}

/-- How a save ends: all that is pending was stored, or all in front of the first file that could
not be written. -/
inductive Ends (cwd : Disk.Place) (write : String → String → Disk → Except DiskError Disk)
    (units : List SourceFile) (disk : Disk) : Saved → Prop
  | done {disk' : Disk} : disk.writeAll cwd (pendingWrites units) = .ok disk' →
      Ends cwd write units disk ⟨units.map SourceFile.saved, disk', .ok (units.countP (·.dirty))⟩
  | failed {before after : List SourceFile} {file : SourceFile} {disk' : Disk} {cause : DiskError} :
      units = before ++ file :: after → file.dirty = true →
      disk.writeAll cwd (pendingWrites before) = .ok disk' →
      write file.path file.render disk' = .error cause →
      Ends cwd write units disk
        ⟨before.map SourceFile.saved ++ file :: after, disk', .error ⟨file.path, cause⟩⟩

theorem saveFiles_ends (hwrite : Disk.StoresOrFails cwd write) (units : List SourceFile)
    (disk : Disk) : Ends cwd write units disk (saveFiles write units disk) := by
  induction units generalizing disk with
  | nil => exact .done rfl
  | cons u units ih =>
    rw [saveFiles]
    rcases u.save_cases hwrite disk with ⟨disk₁, hsave, hwritten⟩ | ⟨cause, hdirty, hcause, hsave⟩
    · rw [hsave]
      dsimp only
      -- `u` is saved; the rest ends in one of the two ways.
      generalize hrest : saveFiles write units disk₁ = rest
      have hends := ih disk₁
      rw [hrest] at hends
      cases hends with
      | done hall =>
        have hcount : (units.countP (·.dirty)) + u.dirty.toNat = (u :: units).countP (·.dirty) := by
          rw [List.countP_cons]
          cases u.dirty <;> rfl
        have hwrites : disk.writeAll cwd (pendingWrites (u :: units)) = .ok _ :=
          (Disk.writeAll_append hwritten).trans hall
        simp only [Except.map, hcount]
        exact .done hwrites
      | @failed before after file disk' cause hunits hdirty hall hcause =>
        have hwrites : disk.writeAll cwd (pendingWrites (u :: before)) = .ok disk' :=
          (Disk.writeAll_append hwritten).trans hall
        have hunits' : u :: units = (u :: before) ++ file :: after := by
          rw [hunits, List.cons_append]
        exact .failed hunits' hdirty hwrites hcause
    · rw [hsave]
      have hfront : u :: units = [] ++ u :: units := rfl
      exact .failed hfront hdirty rfl hcause

/-- Files that were saved are passed over. -/
theorem saveFiles_saved_append (before after : List SourceFile) (disk : Disk) :
    saveFiles write (before.map SourceFile.saved ++ after) disk =
      let rest := saveFiles write after disk
      ⟨before.map SourceFile.saved ++ rest.units, rest.disk, rest.outcome⟩ := by
  induction before with
  | nil => rfl
  | cons u before ih =>
    rw [List.map_cons, List.cons_append, saveFiles, SourceFile.save_of_clean u.dirty_saved]
    dsimp only
    rw [ih, u.dirty_saved]
    cases (saveFiles write after disk).outcome <;> rfl

/-- A save on the disk itself stores all that is pending, if that can be stored. -/
theorem saveFiles_of_writeAll {units : List SourceFile} {disk disk' : Disk}
    (h : disk.writeAll cwd (pendingWrites units) = .ok disk') :
    saveFiles (fun path text disk ↦ disk.writeText cwd path text) units disk =
      ⟨units.map SourceFile.saved, disk', .ok (units.countP (·.dirty))⟩ := by
  generalize hsaved : saveFiles _ units disk = s
  have hends := saveFiles_ends (Disk.storesOrFails_writeText cwd) units disk
  rw [hsaved] at hends
  cases hends with
  | done hall =>
    obtain rfl := Except.ok.inj (h.symm.trans hall)
    rfl
  | @failed before after file disk₁ cause hunits hdirty hall hcause =>
    have hpending : file.pendingWrites = [(file.path, file.render)] := if_pos hdirty
    have hfile : disk₁.writeAll cwd (pendingWrites (file :: after)) = .error cause := by
      rw [pendingWrites, List.flatMap_cons, hpending, Disk.writeAll, List.singleton_append,
        List.foldlM_cons, hcause]
      rfl
    rw [hunits, pendingWrites_append, Disk.writeAll_append hall, hfile] at h
    cases h

def Partway (cwd : Disk.Place) (units : List SourceFile) (disk : Disk) (s : Saved) : Prop :=
  ∃ before after, units = before ++ after ∧ s.units = before.map SourceFile.saved ++ after ∧
    disk.writeAll cwd (pendingWrites before) = .ok s.disk

theorem Ends.partway {units : List SourceFile} {disk : Disk} {s : Saved}
    (h : Ends cwd write units disk s) : Partway cwd units disk s := by
  cases h with
  | done hall => exact ⟨units, [], by simp, by simp, hall⟩
  | failed hunits _ hall _ => exact ⟨_, _, hunits, rfl, hall⟩

def saveAgain (attempts : List (String → String → Disk → Except DiskError Disk)) (s : Saved) :
    Saved :=
  attempts.foldl (fun s write ↦ saveFiles write s.units s.disk) s

namespace Partway

variable {units : List SourceFile} {disk : Disk} {s : Saved} (h : Partway cwd units disk s)

include h

theorem saveFiles (hwrite : Disk.StoresOrFails cwd write) :
    Partway cwd units disk (saveFiles write s.units s.disk) := by
  obtain ⟨before, after, rfl, hunits, hdisk⟩ := h
  obtain ⟨more, rest, hmore, hsaved, hwritten⟩ := (saveFiles_ends hwrite after s.disk).partway
  refine ⟨before ++ more, rest, ?_, ?_, ?_⟩
  · rw [hmore, List.append_assoc]
  · rw [hunits, saveFiles_saved_append]
    dsimp only
    rw [hsaved, List.map_append, List.append_assoc]
  · rw [pendingWrites_append, Disk.writeAll_append hdisk, hwritten, hunits, saveFiles_saved_append]

theorem saveAgain {attempts : List (String → String → Disk → Except DiskError Disk)}
    (hattempts : ∀ write ∈ attempts, Disk.StoresOrFails cwd write) :
    Partway cwd units disk (saveAgain attempts s) :=
  List.foldlRecOn attempts _ h fun _ hs write hwrite ↦ hs.saveFiles (hattempts write hwrite)

/-- A save without a failure does what is left to do. -/
theorem finish (hwrite : Disk.StoresOrFails cwd write) {n : ℕ}
    (hdone : (Project.saveFiles write s.units s.disk).outcome = .ok n) :
    let last := Project.saveFiles write s.units s.disk
    n = s.units.countP (·.dirty) ∧ s.disk.writeAll cwd (pendingWrites s.units) = .ok last.disk ∧
      last.units = units.map SourceFile.saved ∧
      disk.writeAll cwd (pendingWrites units) = .ok last.disk := by
  intro last
  obtain ⟨before, after, rfl, hunits, hdisk⟩ := h
  have hlast : Project.saveFiles write (before.map SourceFile.saved ++ after) s.disk = _ :=
    saveFiles_saved_append before after s.disk
  rw [← hunits] at hlast
  have hpending : pendingWrites s.units = pendingWrites after := by
    rw [hunits, pendingWrites_append, pendingWrites_saved, List.nil_append]
  have hcount : s.units.countP (·.dirty) = after.countP (·.dirty) := by
    rw [← length_pendingWrites, hpending, length_pendingWrites]
  have hends := saveFiles_ends hwrite after s.disk
  rw [hlast] at hdone
  generalize Project.saveFiles write after s.disk = rest at hlast hends hdone
  cases hends with
  | done hall =>
    have hdisk' : last.disk = _ := congrArg Saved.disk hlast
    have hunits' : last.units = _ := congrArg Saved.units hlast
    rw [hdisk', hunits', hcount, hpending]
    refine ⟨(Except.ok.inj hdone).symm, hall, ?_, ?_⟩
    · rw [List.map_append]
    · rw [pendingWrites_append, Disk.writeAll_append hdisk, hall]
  | failed => cases hdone

end Partway

end Save

structure OnDisk (cwd : Disk.Place) (disk : Disk) (units : List SourceFile) : Prop where
  readable : ∀ u ∈ units, ∃ bytes, disk.read cwd u.path = .ok bytes
  apart : units.Pairwise fun a b ↦ disk.Apart cwd a.path b.path

theorem savedOnto_of_writeAll {cwd : Disk.Place} {units : List SourceFile} {disk disk' : Disk}
    (h : OnDisk cwd disk units) (hwritten : disk.writeAll cwd (pendingWrites units) = .ok disk') :
    SavedOnto cwd units disk disk' := by
  obtain ⟨units', disk₁, hsave, honto⟩ := saveFiles_of_read h.readable h.apart
  rw [saveFiles_of_writeAll hwritten, Saved.mk.injEq] at hsave
  rw [hsave.2.1]
  exact honto

/-- A save that fails at a file has written what was pending before it, and no place of the disk
where nothing of that goes. However many attempts follow and fail, one that does not fail writes
what is left and ends where a single save without failure ends. -/
theorem failed_save_resumes {cwd : Disk.Place}
    {write : String → String → Disk → Except DiskError Disk}
    (hwrite : Disk.StoresOrFails cwd write) {p : Project} {disk : Disk} {e : SaveError}
    (hfailed : (saveFiles write p.units disk).outcome = .error e) :
    let first := saveFiles write p.units disk
    ∃ before file after, p.units = before ++ file :: after ∧
      (file.dirty = true ∧ file.path = e.path ∧
        write file.path file.render first.disk = .error e.cause) ∧
      first.units = before.map SourceFile.saved ++ file :: after ∧
      (∀ u ∈ before, u.saved.dirty = false) ∧
      disk.writeAll cwd (pendingWrites before) = .ok first.disk ∧
      (OnDisk cwd disk before →
        ∀ u ∈ before, first.disk.read cwd u.path = u.savedBytes disk cwd) ∧
      (∀ place, (∀ u ∈ before, u.dirty = true → disk.destination cwd u.path ≠ .ok place) →
        first.disk.node? place = disk.node? place) ∧
      (∀ path bytes, disk.read cwd path = .ok bytes →
        (∀ u ∈ before, u.dirty = true →
          disk.destination cwd u.path ≠ disk.destination cwd path) →
        first.disk.read cwd path = .ok bytes) ∧
      pendingWrites first.units = pendingWrites (file :: after) ∧
      ∀ attempts, (∀ write ∈ attempts, Disk.StoresOrFails cwd write) →
        let s := saveAgain attempts first
        ∀ write', Disk.StoresOrFails cwd write' →
          let last := saveFiles write' s.units s.disk
          ∀ n, last.outcome = .ok n →
            n = s.units.countP (·.dirty) ∧
            s.disk.writeAll cwd (pendingWrites s.units) = .ok last.disk ∧
            p.save cwd disk = (⟨last.units⟩, last.disk, .ok (p.units.countP (·.dirty))) := by
  intro first
  have hends := saveFiles_ends hwrite p.units disk
  have hpartway := hends.partway
  generalize hsaved : saveFiles write p.units disk = s₁ at hfailed hends hpartway
  have hfirst : first = s₁ := hsaved
  rw [hfirst]
  cases hends with
  | done => cases hfailed
  | @failed before after file disk₁ cause hunits hdirty hwritten hcause =>
    obtain rfl := Except.error.inj hfailed
    refine ⟨before, file, after, hunits, ⟨hdirty, rfl, hcause⟩, rfl, fun u _ ↦ u.dirty_saved,
      hwritten, fun hdisk ↦ (savedOnto_of_writeAll hdisk hwritten).saved, ?_, ?_, ?_, ?_⟩
    · intro place hplace
      exact Disk.node?_writeAll hwritten
        ((forall_mem_pendingWrites (disk.destination cwd · ≠ .ok place)).2 hplace)
    · intro path bytes hread hpath
      exact Disk.read_writeAll hwritten hread
        ((forall_mem_pendingWrites (disk.destination cwd · ≠ disk.destination cwd path)).2 hpath)
    · rw [pendingWrites_append, pendingWrites_saved, List.nil_append]
    · intro attempts hattempts s write' hwrite' last n hdone
      have hlast := (hpartway.saveAgain hattempts).finish hwrite' hdone
      obtain ⟨hcount, hrest, hall, hdisk⟩ := hlast
      refine ⟨hcount, hrest, ?_⟩
      rw [save, saveFiles_of_writeAll hdisk, hall]

/-- The second of three files cannot be written at first, and the third is not on the disk yet. -/
theorem failed_save_resumes_three :
    let func (name : String) : FuncDecl := ⟨name, none, [], [], [], ⟨11, 19, 3, 1, 3⟩, ⟨none, []⟩,
      some ["// " ++ name ++ " is."]⟩
    let file (path name : String) : SourceFile :=
      ⟨path, "p", [], [], [func name], [], "package p\n\nfunc " ++ name ++ "()\n", true⟩
    let p : Project := ⟨[file "a.go" "A", file "b.go" "B", file "c.go" "C"]⟩
    let disk : Disk := ⟨(p.units.take 2).map fun u ↦ ([u.path], .file u.source.toUTF8)⟩
    let store := fun path text (disk : Disk) ↦ disk.writeText [] path text
    let write := fun path text (disk : Disk) ↦
      if path = "b.go" then .error .notFound else disk.writeText [] path text
    let first := saveFiles write p.units disk
    let last := saveFiles store first.units first.disk
    (Disk.StoresOrFails [] write ∧ OnDisk [] disk (p.units.take 1) ∧
      first.outcome = .error ⟨"b.go", .notFound⟩ ∧ last.outcome = .ok 2) ∧
      first.disk.read [] "a.go" = .ok "package p\n\n// A is.\nfunc A()\n".toUTF8 ∧
      first.disk.read [] "b.go" = .ok "package p\n\nfunc B()\n".toUTF8 ∧
      first.disk.node? ["c.go"] = none ∧
      p.save [] disk = (⟨last.units⟩, last.disk, .ok 3) := by
  intro func file p disk store write first last
  have hwrite : Disk.StoresOrFails [] write := by
    intro path text disk disk' h
    dsimp only [write] at h
    split at h
    · cases h
    · exact h
  have hfirst : first.outcome = .error ⟨"b.go", .notFound⟩ := by decide +kernel
  have hlast : last.outcome = .ok 2 := by decide +kernel
  have hread (path name : String) (hpath : disk.resolve [] path = .ok [path])
      (hnode : disk.node? [path] = some (.file (file path name).source.toUTF8)) :
      disk.read [] path = .ok (file path name).source.toUTF8 :=
    Disk.read_eq_ok.2 ⟨[path], hpath, hnode⟩
  have ha : disk.resolve [] "a.go" = .ok ["a.go"] := by decide +kernel
  have hb : disk.resolve [] "b.go" = .ok ["b.go"] := by decide +kernel
  have hdisk : OnDisk [] disk [file "a.go" "A"] :=
    ⟨by simpa using ⟨_, hread "a.go" "A" ha rfl⟩, List.pairwise_singleton _ _⟩
  obtain ⟨before, failed, after, hunits, ⟨-, hpath, -⟩, -, -, -, hsaved, hplaces, hkept, -,
    hresume⟩ := failed_save_resumes hwrite hfirst
  obtain rfl : before = [file "a.go" "A"] := by
    have hpaths : ["a.go", "b.go", "c.go"] =
        before.map SourceFile.path ++ "b.go" :: after.map SourceFile.path := by
      have hmap := congrArg (List.map SourceFile.path) hunits
      rwa [List.map_append, List.map_cons (a := failed), hpath] at hmap
    rcases before with _ | ⟨u, _ | ⟨v, before⟩⟩
    · have hhead : "a.go" = "b.go" := (List.cons.inj hpaths).1
      exact absurd hhead (by decide)
    · exact congrArg ([·]) (List.cons.inj hunits).1.symm
    · have hthird : ["c.go"] = before.map SourceFile.path ++ "b.go" :: after.map SourceFile.path :=
        (List.cons.inj (List.cons.inj hpaths).2).2
      have hmem : "b.go" ∈ ["c.go"] := by
        rw [hthird]
        simp
      exact absurd hmem (by decide)
  have hdest : disk.destination [] "a.go" = .ok ["a.go"] := Disk.destination_of_resolve ha
  have hrender : (file "a.go" "A").render = "package p\n\n// A is.\nfunc A()\n" := by
    decide +kernel
  refine ⟨⟨hwrite, hdisk, hfirst, hlast⟩, ?_, ?_, ?_, ?_⟩
  · have hstored := hsaved hdisk (file "a.go" "A") List.mem_cons_self
    rwa [SourceFile.savedBytes, if_pos rfl, hrender] at hstored
  · refine hkept "b.go" _ (hread "b.go" "B" hb rfl) ?_
    simp [file, hdest, Disk.destination_of_resolve hb]
  · refine hplaces ["c.go"] ?_
    simp [file, hdest]
  · exact (hresume [] (by simp) store (Disk.storesOrFails_writeText []) 2 hlast).2.2

/-- Two spellings of one path: the save fails between them, and the file of the later one has
changed. -/
theorem failed_save_reaches_later_file :
    let func (name doc : String) : FuncDecl :=
      ⟨name, none, [], [], [], ⟨11, 22, 3, 1, 3⟩, ⟨none, []⟩, some [doc]⟩
    let file (path name doc : String) : SourceFile :=
      let source := "package p\n\nfunc " ++ name ++ "() \x7b\x7d\n"
      ⟨path, "p", [], [], [func name doc], [], source, true⟩
    let p : Project := ⟨[file "./z.go" "F" "// F is first.", file "m/m.go" "G" "// G",
      file "z.go" "F" "// F is last."]⟩
    let disk : Disk := ⟨[(["z.go"], .file "package p\n\nfunc F() \x7b\x7d\n".toUTF8)]⟩
    let first := saveFiles (fun path text disk ↦ disk.writeText [] path text) p.units disk
    first.outcome = .error ⟨"m/m.go", .notFound⟩ ∧ first.units.drop 1 = p.units.drop 1 ∧
      disk.read [] "z.go" = .ok "package p\n\nfunc F() \x7b\x7d\n".toUTF8 ∧
      first.disk.read [] "z.go" =
        .ok "package p\n\n// F is first.\nfunc F() \x7b\x7d\n".toUTF8 := by
  intro func file p disk first
  let u := file "./z.go" "F" "// F is first."
  let v := file "m/m.go" "G" "// G"
  let disk₁ := disk.put ["z.go"] (.file u.render.toUTF8)
  have hstore : disk.writeText [] u.path u.render = .ok disk₁ :=
    Disk.write_of_file rfl _ (by decide +kernel)
  have hfail : disk₁.writeText [] v.path v.render = .error .notFound := by
    have hdest : disk₁.destination [] v.path = .error .notFound := by decide +kernel
    rw [Disk.writeText, Disk.write, hdest]
    rfl
  have hu : u.save (fun path text disk ↦ disk.writeText [] path text) disk =
      .ok (u.stored, disk₁) := by
    rw [SourceFile.save, hstore]
    rfl
  have hv : v.save (fun path text disk ↦ disk.writeText [] path text) disk₁ =
      .error .notFound := by
    rw [SourceFile.save, hfail]
    rfl
  have hfirst : first = ⟨[u.stored, v, file "z.go" "F" "// F is last."], disk₁,
      .error ⟨"m/m.go", .notFound⟩⟩ := by
    simp only [first, p, saveFiles, u, v, hu, hv, Except.map]
    rfl
  have hrender : u.render = "package p\n\n// F is first.\nfunc F() \x7b\x7d\n" := by decide +kernel
  rw [hfirst]
  refine ⟨rfl, rfl, ?_, ?_⟩
  · exact Disk.read_eq_ok.2 ⟨["z.go"], by decide +kernel, rfl⟩
  · rw [← hrender]
    exact Disk.read_eq_ok.2 ⟨["z.go"], by decide +kernel, rfl⟩

end Project

end HandlerDocs
