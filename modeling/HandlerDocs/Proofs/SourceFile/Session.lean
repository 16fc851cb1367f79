import HandlerDocs.Proofs.Project.Reload
import HandlerDocs.Proofs.SourceFile.Frame

namespace HandlerDocs

open Edit

theorem Text.toUTF8_of_decodeUtf8 {bytes : ByteArray} {text : String}
    (h : decodeUtf8 bytes = .ok text) : text.toUTF8 = bytes := by
  rw [decodeUtf8, String.fromUTF8?] at h
  split at h
  · rename_i hfound
    split at hfound
    · cases h
      cases hfound
      rfl
    · cases hfound
  · cases h

def Disk.Stores (cwd : Place) (path : String)
    (write : String → String → Disk → Except DiskError Disk) : Prop :=
  ∀ text disk disk' bytes, disk.read cwd path = .ok bytes → write path text disk = .ok disk' →
    disk'.read cwd path = .ok text.toUTF8

theorem Disk.stores_writeText (cwd : Place) (path : String) :
    Stores cwd path fun path text disk ↦ disk.writeText cwd path text := by
  intro text disk disk' bytes hread hwrite
  obtain ⟨place, hplace, hfile⟩ := read_eq_ok.1 hread
  dsimp only [writeText] at hwrite
  rw [write_of_file hfile _ hplace] at hwrite
  cases hwrite
  rw [read_overwrite hfile, if_pos hplace]

theorem Disk.stores_of_error (cwd : Place) (path : String) (cause : DiskError) :
    Stores cwd path fun _ _ _ ↦ .error cause := by
  intro text disk disk' bytes _ hwrite
  cases hwrite

namespace SourceFile

theorem read_of_loadFrom {disk : Disk} {cwd : Disk.Place} {path : String} {file : SourceFile}
    (h : loadFrom disk cwd path = .ok file) : disk.read cwd path = .ok file.source.toUTF8 := by
  obtain ⟨bytes, hread, hdecode, -⟩ := exists_bytes_of_loadFrom h
  rw [hread, Text.toUTF8_of_decodeUtf8 hdecode]

/-- After it was stored a file is as its text is read, unless that cannot be read. -/
theorem parse_stored_or (file : SourceFile) :
    parse file.path file.render = .ok file.stored ∨ file.stored = { file with dirty := false } := by
  rw [stored]
  split
  · exact .inl ‹_›
  · exact .inr rfl

section Stored

variable (file : SourceFile)

theorem path_stored : file.stored.path = file.path := by
  rcases file.parse_stored_or with hparse | hkept
  · exact (original_of_parse hparse).1
  · rw [hkept]

theorem dirty_stored : file.stored.dirty = false := by
  rcases file.parse_stored_or with hparse | hkept
  · exact (original_of_parse hparse).2.2.2
  · rw [hkept]

/-- Storing changes what is pending but not the text. -/
theorem render_stored : file.stored.render = file.render := by
  rcases file.parse_stored_or with hparse | hkept
  · obtain ⟨-, hsource, horiginal, -⟩ := original_of_parse hparse
    rw [← horiginal, render_original, hsource]
  · rw [hkept]
    rfl

theorem parse_stored {file : SourceFile} (h : parse file.path file.source = .ok file.original) :
    parse file.stored.path file.stored.source = .ok file.stored.original := by
  rcases file.parse_stored_or with hparse | hkept
  · obtain ⟨hpath, hsource, horiginal, -⟩ := original_of_parse hparse
    rw [hpath, hsource, horiginal]
    exact hparse
  · rw [hkept]
    exact h

end Stored

inductive Call where
  | setDoc (index : ℕ) (lines : List String)
  | save (write : String → String → Disk → Except DiskError Disk)

inductive Reply where
  | asked (changed : Bool)
  | saved
  | failed (cause : DiskError)
deriving DecidableEq

structure Session where
  file : SourceFile
  disk : Disk
  replies : List Reply

namespace Session

def perform (s : Session) : Call → Session
  | .setDoc index lines =>
    let (file, changed) := s.file.setDoc index lines
    { s with file, replies := s.replies ++ [.asked changed] }
  | .save write =>
    match s.file.save write s.disk with
    | .ok (file, disk) => ⟨file, disk, s.replies ++ [.saved]⟩
    | .error cause => { s with replies := s.replies ++ [.failed cause] }

def run (s : Session) (calls : List Call) : Session :=
  calls.foldl perform s

theorem perform_setDoc_cases (s : Session) (index : ℕ) (lines : List String) :
    s.perform (.setDoc index lines) = { s with replies := s.replies ++ [.asked false] } ∨
    ∃ file, s.perform (.setDoc index lines) =
        { s with file := file, replies := s.replies ++ [.asked true] } ∧
      file.original = s.file.original ∧ file.dirty = true := by
  have horiginal := s.file.original_setDoc index lines
  rw [perform]
  rcases s.file.setDoc_eq_or_dirty index lines with hsame | ⟨hdirty, hchanged⟩
  · rw [hsame]
    exact .inl rfl
  · refine .inr ⟨(s.file.setDoc index lines).1, ?_, horiginal, hdirty⟩
    rw [← hchanged]

theorem perform_save_cases (s : Session) (write : String → String → Disk → Except DiskError Disk) :
    (s.file.dirty = false ∧
      s.perform (.save write) = { s with replies := s.replies ++ [.saved] }) ∨
    s.file.dirty = true ∧
      ((∃ cause, s.perform (.save write) = { s with replies := s.replies ++ [.failed cause] }) ∨
      ∃ disk', write s.file.path s.file.render s.disk = .ok disk' ∧
        s.perform (.save write) = ⟨s.file.stored, disk', s.replies ++ [.saved]⟩) := by
  rw [perform, SourceFile.save]
  cases s.file.dirty with
  | false => exact .inl ⟨rfl, rfl⟩
  | true =>
    rw [if_pos rfl]
    cases write s.file.path s.file.render s.disk with
    | error cause => exact .inr ⟨rfl, .inl ⟨cause, rfl⟩⟩
    | ok disk' => exact .inr ⟨rfl, .inr ⟨disk', rfl, rfl⟩⟩

end Session

def Unsaved (replies : List Reply) : Prop :=
  ∃ before after, replies = before ++ .asked true :: after ∧ .saved ∉ after

theorem unsaved_concat {replies : List Reply} {reply : Reply} :
    Unsaved (replies ++ [reply]) ↔ reply = .asked true ∨ reply ≠ .saved ∧ Unsaved replies := by
  constructor
  · rintro ⟨before, after, heq, hsaved⟩
    induction after using List.reverseRecOn with
    | nil =>
      obtain ⟨-, hreply⟩ := List.append_inj' heq rfl
      exact .inl (List.singleton_inj.1 hreply)
    | append_singleton after last =>
      rw [← List.cons_append, ← List.append_assoc] at heq
      obtain ⟨hreplies, hreply⟩ := List.append_inj' heq rfl
      obtain rfl := List.singleton_inj.1 hreply
      rw [List.mem_append, not_or] at hsaved
      refine .inr ⟨?_, before, after, hreplies, hsaved.1⟩
      rintro rfl
      exact hsaved.2 (List.mem_singleton_self _)
  · rintro (rfl | ⟨hreply, before, after, rfl, hsaved⟩)
    · exact ⟨replies, [], rfl, List.not_mem_nil⟩
    · refine ⟨before, after ++ [reply], by simp, ?_⟩
      rw [List.mem_append, List.mem_singleton, not_or]
      exact ⟨hsaved, Ne.symm hreply⟩

namespace Session

/-- What holds of a session between calls. Where the stored text could not be read the file keeps
the spans and blocks of the text before it, so that they always fit its own source. -/
structure Kept (cwd : Disk.Place) (path : String) (s : Session) : Prop where
  path_eq : s.file.path = path
  parsed : parse path s.file.source = .ok s.file.original
  readable : ∃ bytes, s.disk.read cwd path = .ok bytes
  stored : s.file.dirty = false → s.disk.read cwd path = .ok s.file.render.toUTF8
  dirty : s.file.dirty = true ↔ Unsaved s.replies

variable {cwd : Disk.Place} {path : String} {s : Session}

theorem Kept.perform_setDoc (h : s.Kept cwd path) (index : ℕ) (lines : List String) :
    (s.perform (.setDoc index lines)).Kept cwd path := by
  rcases s.perform_setDoc_cases index lines with hsame | ⟨file, hnew, horiginal, hdirty⟩
  · rw [hsame]
    refine { h with dirty := ?_ }
    rw [h.dirty, unsaved_concat]
    simp
  · have hpath : file.path = s.file.path := by
      change file.original.path = s.file.original.path
      rw [horiginal]
    have hsource : file.source = s.file.source := by
      change file.original.source = s.file.original.source
      rw [horiginal]
    rw [hnew]
    refine ⟨hpath.trans h.path_eq, ?_, h.readable, fun hclean ↦ ?_, ?_⟩
    · rw [hsource, horiginal]
      exact h.parsed
    · exact absurd (hdirty.symm.trans hclean) (by simp)
    · rw [hdirty, unsaved_concat]
      simp

theorem Kept.perform_save (h : s.Kept cwd path)
    {write : String → String → Disk → Except DiskError Disk} (hwrite : Disk.Stores cwd path write) :
    (s.perform (.save write)).Kept cwd path := by
  rcases s.perform_save_cases write with
    ⟨hclean, hsame⟩ | ⟨-, ⟨cause, hfailed⟩ | ⟨disk', hdisk, hsaved⟩⟩
  · rw [hsame]
    refine { h with dirty := ?_ }
    rw [hclean, unsaved_concat]
    simp
  · rw [hfailed]
    refine { h with dirty := ?_ }
    rw [h.dirty, unsaved_concat]
    simp
  · obtain ⟨bytes, hread⟩ := h.readable
    rw [h.path_eq] at hdisk
    have hread' := hwrite _ _ _ _ hread hdisk
    have hpath := s.file.path_stored.trans h.path_eq
    rw [hsaved]
    refine ⟨hpath, ?_, ⟨_, hread'⟩, fun _ ↦ ?_, ?_⟩
    · rw [← hpath]
      exact parse_stored (h.path_eq.symm ▸ h.parsed)
    · rw [hread', ← render_stored]
    · rw [dirty_stored, unsaved_concat]
      simp

theorem Kept.run {calls : List Call}
    (hwrites : ∀ write, .save write ∈ calls → Disk.Stores cwd path write) (h : s.Kept cwd path) :
    (s.run calls).Kept cwd path := by
  refine List.foldlRecOn calls perform h fun s hs call hcall ↦ ?_
  cases call with
  | setDoc index lines => exact hs.perform_setDoc index lines
  | save write => exact hs.perform_save (hwrites write hcall)

theorem kept_of_loadFrom {disk : Disk} {file : SourceFile}
    (h : loadFrom disk cwd path = .ok file) : Kept cwd path ⟨file, disk, []⟩ := by
  obtain ⟨hpath, horiginal, hclean, hparse, hreadable⟩ := loadFrom_eq_ok h
  refine ⟨hpath, ?_, hreadable, fun _ ↦ ?_, ?_⟩
  · rw [horiginal]
    exact hparse
  · have hrender := file.render_original
    rw [horiginal] at hrender
    rw [hrender]
    exact read_of_loadFrom h
  · simp [hclean, Unsaved]

end Session

/-- Blocks are asked for and the file is saved in any order, with any writes failing. Whenever it is
clean its text stands on the disk, and it is dirty exactly while a change is unsaved. The pending
blocks always fit its source, also after a text was stored that cannot be read. -/
theorem clean_file_is_stored {disk : Disk} {cwd : Disk.Place} {path : String} {file : SourceFile}
    (hload : loadFrom disk cwd path = .ok file) {calls : List Call}
    (hwrites : ∀ write, .save write ∈ calls → Disk.Stores cwd path write) :
    let s := Session.run ⟨file, disk, []⟩ calls
    s.file.path = path ∧
    (s.file.dirty = false → s.disk.read cwd path = .ok s.file.render.toUTF8) ∧
    (s.file.dirty = true ↔ Unsaved s.replies) ∧
    Spliced 0 s.file.source.toList s.file.functions s.file.render.toList ∧
    InRange (s.file.edits.mergeSort fun a b ↦ decide (b.start ≤ a.start)) s.file.source.toList := by
  intro s
  have hkept : s.Kept cwd path := (Session.kept_of_loadFrom hload).run hwrites
  have horder := inOrder_original.1 (inOrder_of_parse hkept.parsed).1
  obtain ⟨text, htext⟩ := horder.exists_spliced_iff.2 (clear_of_original hkept.parsed)
  obtain ⟨hrender, hrange⟩ := horder.render_of_spliced htext
  refine ⟨hkept.path_eq, hkept.stored, hkept.dirty, ?_, hrange⟩
  rw [hrender, String.toList_ofList]
  exact htext

/-- Twice a text is stored that cannot be read; the file goes on from the one it was loaded with. -/
theorem clean_file_is_stored_unreadable :
    let source := "package p\n\n// A is.\nfunc A() \x7b\x7d\n"
    let broken := "package p\n\nfunc\nfunc A() \x7b\x7d\n"
    let disk : Disk := ⟨[(["p.go"], .file source.toUTF8)]⟩
    let store := fun path text (disk : Disk) ↦ disk.writeText [] path text
    let fail := fun (_ _ : String) (_ : Disk) ↦ Except.error DiskError.notFound
    let calls := [.setDoc 0 ["// A"], .save fail, .setDoc 0 ["var"], .save store,
      .setDoc 0 ["func"], .save fail, .save store, .setDoc 0 ["func"]]
    ∃ file, loadFrom disk [] "p.go" = .ok file ∧
      (∀ write, .save write ∈ calls → Disk.Stores [] "p.go" write) ∧
      let s := Session.run ⟨file, disk, []⟩ calls
      s.replies = [.asked true, .failed .notFound, .asked true, .saved, .asked true,
        .failed .notFound, .saved, .asked false] ∧
      s.file.dirty = false ∧ (parse "p.go" broken).toOption.isNone ∧
      s.disk.read [] "p.go" = .ok broken.toUTF8 ∧
      Spliced 0 source.toList s.file.functions broken.toList := by
  intro source broken disk store fail calls
  obtain ⟨file, hparse, hview⟩ := exists_ok_of_toOption (show
    (parse "p.go" source).toOption.map (fun file ↦
      let s := Session.run ⟨file, disk, []⟩ calls
      (s.replies, s.file.dirty, s.file.source, s.file.render)) =
    some ([.asked true, .failed .notFound, .asked true, .saved, .asked true, .failed .notFound,
      .saved, .asked false], false, source, broken) by
    decide +kernel)
  simp only [Prod.mk.injEq] at hview
  obtain ⟨hreplies, hclean, hsource, hrender⟩ := hview
  have hload : loadFrom disk [] "p.go" = .ok file := by
    rw [loadFrom_eq rfl (Text.decodeUtf8_toUTF8 source), load, hparse]
    rfl
  have hwrites : ∀ write, .save write ∈ calls → Disk.Stores [] "p.go" write := by
    intro write hwrite
    simp only [calls, List.mem_cons, Call.save.injEq, reduceCtorEq, List.not_mem_nil, false_or,
      or_false] at hwrite
    rcases hwrite with rfl | rfl | rfl | rfl
    · exact Disk.stores_of_error _ _ _
    · exact Disk.stores_writeText _ _
    · exact Disk.stores_of_error _ _ _
    · exact Disk.stores_writeText _ _
  obtain ⟨-, hstored, -, hspliced, -⟩ := clean_file_is_stored hload hwrites
  rw [hrender] at hstored
  rw [hsource, hrender] at hspliced
  exact ⟨file, hload, hwrites, hreplies, hclean, by decide +kernel, hstored hclean, hspliced⟩

end SourceFile

end HandlerDocs
