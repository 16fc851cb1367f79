import HandlerDocs.Proofs.Disk.Write
import HandlerDocs.Generation

namespace HandlerDocs

theorem Text.decodeUtf8_toUTF8 (text : String) : decodeUtf8 text.toUTF8 = .ok text := by
  have hdecode : String.fromUTF8? text.toUTF8 = some text := by
    rw [String.toUTF8_eq_toByteArray, String.fromUTF8?, dif_pos text.isValidUTF8]
    rfl
  rw [decodeUtf8, hdecode]

def Disk.Apart (disk : Disk) (cwd : Place) (a b : String) : Prop :=
  ∀ place, disk.resolve cwd a = .ok place → disk.resolve cwd b ≠ .ok place

theorem Disk.Apart.symm {disk : Disk} {cwd : Disk.Place} {a b : String} (h : disk.Apart cwd a b) :
    disk.Apart cwd b a :=
  fun place hb ha ↦ h place ha hb

instance (disk : Disk) (cwd : Disk.Place) : Std.Symm (disk.Apart cwd) :=
  ⟨fun _ _ h ↦ h.symm⟩

namespace SourceFile

variable {disk : Disk} {cwd : Disk.Place}

def savedBytes (disk : Disk) (cwd : Disk.Place) (file : SourceFile) : Except DiskError ByteArray :=
  if file.dirty then .ok file.render.toUTF8 else disk.read cwd file.path

/-- A file that could be read is saved, and nothing else changes. -/
theorem save_of_read {file : SourceFile} {bytes : ByteArray}
    (h : disk.read cwd file.path = .ok bytes) :
    ∃ file' disk',
      file.save (fun path text disk ↦ disk.writeText cwd path text) disk = .ok (file', disk') ∧
      (∀ path, disk'.resolve cwd path = disk.resolve cwd path) ∧
      disk'.read cwd file.path = file.savedBytes disk cwd ∧
      (∀ path, disk.Apart cwd file.path path → disk'.read cwd path = disk.read cwd path) ∧
      (file.dirty = false → disk' = disk) := by
  rw [save, savedBytes]
  cases hdirty : file.dirty with
  | false => exact ⟨file, disk, rfl, fun _ ↦ rfl, rfl, fun _ _ ↦ rfl, fun _ ↦ rfl⟩
  | true =>
    obtain ⟨place, hresolve, hfile⟩ := Disk.read_eq_ok.1 h
    have hwrite := Disk.write_of_file hfile file.render.toUTF8 hresolve
    refine ⟨file.stored, disk.put place (.file file.render.toUTF8), ?_,
      Disk.resolve_overwrite hfile _ cwd, ?_, ?_, by simp⟩
    · rw [if_pos rfl, Disk.writeText, hwrite]
      rfl
    · rw [Disk.read_overwrite hfile, if_pos hresolve, if_pos rfl]
    · intro path hapart
      rw [Disk.read_overwrite hfile, if_neg (hapart place hresolve)]

end SourceFile

namespace Project

variable {cwd : Disk.Place}

structure SavedOnto (cwd : Disk.Place) (units : List SourceFile) (disk disk' : Disk) : Prop where
  resolve : ∀ path, disk'.resolve cwd path = disk.resolve cwd path
  saved : ∀ u ∈ units, disk'.read cwd u.path = u.savedBytes disk cwd
  other : ∀ path, (∀ u ∈ units, disk.Apart cwd u.path path) →
    disk'.read cwd path = disk.read cwd path
  idle : (∀ u ∈ units, u.dirty = false) → disk' = disk

theorem SavedOnto.apart {units : List SourceFile} {disk disk' : Disk}
    (h : SavedOnto cwd units disk disk') : disk'.Apart cwd = disk.Apart cwd := by
  funext a b
  simp only [Disk.Apart, h.resolve]

/-- Files that could be read, each at a place of its own, are all saved. -/
theorem saveFiles_of_read {units : List SourceFile} {disk : Disk}
    (hread : ∀ u ∈ units, ∃ bytes, disk.read cwd u.path = .ok bytes)
    (hapart : units.Pairwise fun a b ↦ disk.Apart cwd a.path b.path) :
    ∃ units' disk',
      saveFiles (fun path text disk ↦ disk.writeText cwd path text) units disk =
        ⟨units', disk', .ok (units.countP (·.dirty))⟩ ∧ SavedOnto cwd units disk disk' := by
  induction units generalizing disk with
  | nil => exact ⟨[], disk, rfl, fun _ ↦ rfl, by simp, fun _ _ ↦ rfl, fun _ ↦ rfl⟩
  | cons u units ih =>
    rw [List.forall_mem_cons] at hread
    obtain ⟨⟨bytes, hbytes⟩, hread⟩ := hread
    obtain ⟨hhead, htail⟩ := List.pairwise_cons.1 hapart
    obtain ⟨file', disk₁, hsave, hresolve, hself, hother, hclean⟩ := SourceFile.save_of_read hbytes
    have hread₁ (v : SourceFile) (hv : v ∈ units) : disk₁.read cwd v.path = disk.read cwd v.path :=
      hother v.path (hhead v hv)
    have hapart₁ (a b : String) : disk₁.Apart cwd a b ↔ disk.Apart cwd a b := by
      simp only [Disk.Apart, hresolve]
    have hplaces : units.Pairwise fun a b ↦ disk₁.Apart cwd a.path b.path :=
      htail.imp fun h ↦ (hapart₁ _ _).2 h
    obtain ⟨units', disk₂, hfiles, hrest⟩ := ih (fun v hv ↦ hread₁ v hv ▸ hread v hv) hplaces
    refine ⟨file' :: units', disk₂, ?_, ?_, ?_, ?_, ?_⟩
    · rw [saveFiles, hsave]
      dsimp only
      rw [hfiles, List.countP_cons]
      cases u.dirty <;> rfl
    · intro path
      rw [hrest.resolve, hresolve]
    · refine List.forall_mem_cons.2 ⟨?_, fun v hv ↦ ?_⟩
      · rw [hrest.other u.path fun v hv ↦ (hapart₁ _ _).2 (hhead v hv).symm, hself]
      · rw [hrest.saved v hv, SourceFile.savedBytes, SourceFile.savedBytes, hread₁ v hv]
    · intro path hpath
      rw [List.forall_mem_cons] at hpath
      rw [hrest.other path fun v hv ↦ (hapart₁ _ _).2 (hpath.2 v hv), hother path hpath.1]
    · intro hdirty
      rw [List.forall_mem_cons] at hdirty
      rw [hrest.idle hdirty.2, hclean hdirty.1]

end Project

end HandlerDocs
