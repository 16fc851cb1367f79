import HandlerDocs.Proofs.Project.Blocks
import HandlerDocs.Proofs.SourceFile.Reload

namespace HandlerDocs

namespace FuncDecl

theorem original_setDoc (f : FuncDecl) (lines : List String) :
    (f.setDoc lines).1.original = f.original := by
  rw [setDoc]
  split <;> rfl

theorem pending_setDoc (f : FuncDecl) (lines : List String) :
    (f.setDoc lines).1.pending = f.pending ∨ (f.setDoc lines).1.pending = some lines := by
  rw [setDoc]
  split
  · exact .inl rfl
  · exact .inr rfl

theorem shown_setDoc (f : FuncDecl) (asked lines : List String) :
    (f.setDoc asked).1.shown lines = f.shown lines := by
  rw [setDoc]
  split <;> rfl

theorem doc_setDoc (f : FuncDecl) (lines : List String) : (f.setDoc lines).1.doc = f.doc := by
  rw [setDoc]
  split <;> rfl

/-- What is read again is told by the lines that were asked for last. -/
theorem rereadLines_setDoc {f : FuncDecl} (hdoc : f.doc.span = none → f.doc.lines = [])
    {lines : List String} (hne : lines ≠ []) :
    (f.setDoc lines).1.rereadLines = (f.shown lines).map Text.trimEnd := by
  rw [setDoc]
  split
  -- Nothing was changed: what is there shows, since a function without a block has no lines.
  · rename_i hsame
    rw [rereadLines]
    cases hpending : f.pending with
    | some asked =>
      obtain rfl : asked = lines := by simpa [docLines, hpending] using hsame
      rfl
    | none =>
      have hlines : f.doc.lines = lines := by simpa [docLines, hpending] using hsame
      have hshown : f.shown lines = lines := if_neg fun h ↦ hne (hlines ▸ hdoc h.1)
      rw [hshown, Option.map_none, Option.getD_none, hlines]
  · rfl

end FuncDecl

namespace SourceFile

theorem original_setDoc (file : SourceFile) (index : ℕ) (lines : List String) :
    (file.setDoc index lines).1.original = file.original := by
  have hfunctions : (file.setDoc index lines).1.functions.map FuncDecl.original =
      file.functions.map FuncDecl.original := by
    rw [functions_setDoc]
    exact map_modify_of_eq (fun f ↦ f.original_setDoc lines) _ _
  rw [original, original, hfunctions, setDoc]
  cases file.functions[index]? with
  | none => rfl
  | some f =>
    dsimp only
    split <;> rfl

/-- A file with a new block is marked; otherwise it is as it was. -/
theorem setDoc_eq_or_dirty (file : SourceFile) (index : ℕ) (lines : List String) :
    file.setDoc index lines = (file, false) ∨
      (file.setDoc index lines).1.dirty = true ∧ (file.setDoc index lines).2 = true := by
  rw [setDoc]
  cases file.functions[index]? with
  | none => exact .inl rfl
  | some f =>
    dsimp only
    split
    · exact .inr ⟨rfl, rfl⟩
    · exact .inl rfl

end SourceFile

namespace Project

/-- The project differs from a project that was read in pending comments only, and the files that
have some are marked. -/
structure RevisionOf (p base : Project) : Prop where
  original : p.units.map SourceFile.original = base.units
  clean : ∀ u ∈ p.units, u.dirty = false → u.original = u

theorem RevisionOf.setDoc {p base : Project} (h : p.RevisionOf base) (f : FuncRef)
    (lines : List String) : (p.setDoc f lines).1.RevisionOf base := by
  constructor
  · rw [← h.original, units_setDoc]
    exact map_modify_of_eq (fun u ↦ u.original_setDoc f.index lines) _ _
  · intro u hu hclean
    rw [units_setDoc] at hu
    obtain ⟨i, hi⟩ := List.mem_iff_getElem?.1 hu
    rw [List.getElem?_modify] at hi
    obtain ⟨v, hv, rfl⟩ := Option.map_eq_some_iff.1 hi
    have hmem := List.mem_of_getElem? hv
    by_cases hunit : f.unit = i
    · rw [if_pos hunit] at hclean ⊢
      rcases v.setDoc_eq_or_dirty f.index lines with hsame | ⟨hdirty, -⟩
      · rw [hsame] at hclean ⊢
        exact h.clean v hmem hclean
      · rw [hdirty] at hclean
        cases hclean
    · rw [if_neg hunit] at hclean ⊢
      exact h.clean v hmem hclean

def AllBlocks (p : Project) : Prop :=
  ∀ f d lines, p.function? f = some d → d.pending = some lines → IsBlock lines

theorem AllBlocks.of_mem {p : Project} (h : p.AllBlocks) {u : SourceFile} (hu : u ∈ p.units) :
    ∀ f ∈ u.functions, ∀ lines, f.pending = some lines → IsBlock lines := by
  intro f hf lines hpending
  obtain ⟨i, hi⟩ := List.mem_iff_getElem?.1 hu
  obtain ⟨j, hj⟩ := List.mem_iff_getElem?.1 hf
  refine h ⟨i, j⟩ f lines ?_ hpending
  rw [function?, unit?, hi]
  exact hj

theorem AllBlocks.setDoc {p : Project} (h : p.AllBlocks) {f : FuncRef} {lines : List String}
    (hf : (p.function? f).isSome → IsBlock lines) : (p.setDoc f lines).1.AllBlocks := by
  intro g d ls hd hpending
  rw [function?_setDoc] at hd
  split at hd
  · obtain ⟨d', hd', rfl⟩ := Option.map_eq_some_iff.1 hd
    rcases d'.pending_setDoc lines with hsame | hnew
    · exact h f d' ls hd' (hsame.symm.trans hpending)
    · obtain rfl := Option.some.inj (hnew.symm.trans hpending)
      exact hf (by simp [hd'])
  · exact h g d ls hd hpending

end Project

end HandlerDocs
