import HandlerDocs.Project
import HandlerDocs.Proofs.Prelude

namespace HandlerDocs

namespace FuncDecl

theorem docLines_setDoc (f : FuncDecl) (lines : List String) :
    (f.setDoc lines).1.docLines = lines := by
  rw [setDoc]
  split
  · assumption
  · rfl

theorem changed_setDoc (f : FuncDecl) (lines : List String) :
    (f.setDoc lines).2 = true ↔ f.docLines ≠ lines := by
  rw [setDoc]
  split <;> simp_all

end FuncDecl

namespace SourceFile

theorem functions_setDoc (file : SourceFile) (index : ℕ) (lines : List String) :
    (file.setDoc index lines).1.functions =
      file.functions.modify index fun f ↦ (f.setDoc lines).1 := by
  rw [setDoc, List.modify_eq_set_getElem?]
  cases hf : file.functions[index]? with
  | none => rfl
  | some f =>
    dsimp only
    by_cases hchanged : (f.setDoc lines).2
    · rw [if_pos hchanged]
      rfl
    · have hsame : (f.setDoc lines).1 = f := by
        rw [FuncDecl.setDoc] at hchanged ⊢
        split <;> simp_all
      obtain ⟨hindex, rfl⟩ := List.getElem?_eq_some_iff.1 hf
      rw [if_neg hchanged, Option.map_eq_map, Option.map_some, hsame, Option.getD_some,
        List.set_getElem_self]

theorem changed_setDoc (file : SourceFile) (index : ℕ) (lines : List String) :
    (file.setDoc index lines).2 = (file.functions[index]?.any fun f ↦ (f.setDoc lines).2) := by
  rw [setDoc]
  cases file.functions[index]? with
  | none => rfl
  | some f =>
    dsimp only
    split <;> simp_all

end SourceFile

namespace Project

variable (p : Project) (f g : FuncRef) (lines : List String)

theorem units_setDoc : (p.setDoc f lines).1.units =
    p.units.modify f.unit fun file ↦ (file.setDoc f.index lines).1 := by
  rw [setDoc, unit?, List.modify_eq_set_getElem?]
  cases p.units[f.unit]? with
  | none => rfl
  | some file => rfl

theorem function?_setDoc : (p.setDoc f lines).1.function? g =
    if g = f then (p.function? f).map fun d ↦ (d.setDoc lines).1 else p.function? g := by
  rw [function?, function?, function?, unit?, unit?, unit?, units_setDoc, List.getElem?_modify]
  obtain ⟨unit, index⟩ := f
  obtain ⟨unit', index'⟩ := g
  by_cases hunit : unit = unit'
  · subst hunit
    cases p.units[unit]? with
    | none => simp
    | some file =>
      by_cases hindex : index = index'
      · simp [hindex, SourceFile.functions_setDoc]
      · have hne : index' ≠ index := fun h ↦ hindex h.symm
        simp [hindex, hne, SourceFile.functions_setDoc]
  · have hne : unit' ≠ unit := fun h ↦ hunit h.symm
    simp [hunit, hne]

theorem changed_setDoc : (p.setDoc f lines).2 =
    ((p.function? f).any fun d ↦ (d.setDoc lines).2) := by
  rw [setDoc, function?]
  cases p.unit? f.unit with
  | none => rfl
  | some file => exact SourceFile.changed_setDoc file f.index lines

variable {p f g lines}

theorem docLines_setDoc_self (h : (p.function? f).isSome) :
    (p.setDoc f lines).1.docLines f = lines := by
  obtain ⟨d, hd⟩ := Option.isSome_iff_exists.1 h
  rw [docLines, function?_setDoc, if_pos rfl, hd]
  exact d.docLines_setDoc lines

theorem isSome_function?_setDoc :
    ((p.setDoc f lines).1.function? g).isSome = (p.function? g).isSome := by
  rw [function?_setDoc]
  split
  · rename_i h
    rw [h, Option.isSome_map]
  · rfl

theorem changed_setDoc_iff (h : (p.function? f).isSome) :
    (p.setDoc f lines).2 = true ↔ p.docLines f ≠ lines := by
  obtain ⟨d, hd⟩ := Option.isSome_iff_exists.1 h
  rw [changed_setDoc, docLines, hd]
  exact d.changed_setDoc lines

theorem setDoc_unchanged_iff (h : (p.function? f).isSome) :
    (p.setDoc f lines).2 = false ↔ p.docLines f = lines := by
  rw [← Bool.not_eq_true, changed_setDoc_iff h, not_not]

end Project

end HandlerDocs
