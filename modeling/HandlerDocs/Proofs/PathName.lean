import HandlerDocs.PathName
import HandlerDocs.Proofs.Prelude

namespace HandlerDocs

namespace PathPart

theorem le_total (a b : PathPart) : a.le b = true ∨ b.le a = true := by
  cases a <;> cases b <;> simp [le, rank, String.le_total]

theorem le_trans {a b c : PathPart} (hab : a.le b = true) (hbc : b.le c = true) :
    a.le c = true := by
  cases a <;> cases b <;> cases c <;> simp_all [le, rank]
  exact String.le_trans hab hbc

theorem le_antisymm {a b : PathPart} (hab : a.le b = true) (hba : b.le a = true) : a = b := by
  cases a <;> cases b <;> simp_all [le, rank]
  exact String.le_antisymm hab hba

end PathPart

namespace PathName

/-- The first part that differs decides. -/
theorem partsLe_cons {a b : PathPart} {as bs : List PathPart} :
    partsLe (a :: as) (b :: bs) = true ↔
      a = b ∧ partsLe as bs = true ∨ a ≠ b ∧ a.le b = true := by
  rw [partsLe]
  split
  · rename_i hab
    simp [hab]
  · rename_i hab
    simp [hab]

theorem partsLe_total (as bs : List PathPart) : partsLe as bs = true ∨ partsLe bs as = true := by
  induction as generalizing bs with
  | nil => exact .inl rfl
  | cons a as ih =>
    cases bs with
    | nil => exact .inr rfl
    | cons b bs =>
      rw [partsLe_cons, partsLe_cons]
      by_cases hab : a = b
      · simpa [hab] using ih bs
      · simpa [hab, Ne.symm hab] using a.le_total b

theorem partsLe_antisymm {as bs : List PathPart} (hab : partsLe as bs = true)
    (hba : partsLe bs as = true) : as = bs := by
  induction as generalizing bs with
  | nil =>
    cases bs with
    | nil => rfl
    | cons => cases hba
  | cons a as ih =>
    cases bs with
    | nil => cases hab
    | cons b bs =>
      rw [partsLe_cons] at hab hba
      rcases hab with ⟨rfl, hab⟩ | ⟨hne, hab⟩
      · rcases hba with ⟨-, hba⟩ | ⟨hne, -⟩
        · rw [ih hab hba]
        · exact absurd rfl hne
      · rcases hba with ⟨heq, -⟩ | ⟨-, hba⟩
        · exact absurd heq.symm hne
        · exact absurd (PathPart.le_antisymm hab hba) hne

theorem partsLe_trans {as bs cs : List PathPart} (hab : partsLe as bs = true)
    (hbc : partsLe bs cs = true) : partsLe as cs = true := by
  induction as generalizing bs cs with
  | nil => rfl
  | cons a as ih =>
    cases bs with
    | nil => cases hab
    | cons b bs =>
      cases cs with
      | nil => cases hbc
      | cons c cs =>
        rw [partsLe_cons] at hab hbc ⊢
        rcases hab with ⟨rfl, hab⟩ | ⟨hne, hab⟩
        · rcases hbc with ⟨rfl, hbc⟩ | hbc
          · exact .inl ⟨rfl, ih hab hbc⟩
          · exact .inr hbc
        · rcases hbc with ⟨rfl, -⟩ | ⟨-, hbc⟩
          · exact .inr ⟨hne, hab⟩
          · refine .inr ⟨?_, PathPart.le_trans hab hbc⟩
            rintro rfl
            exact hne (PathPart.le_antisymm hab hbc)

theorem le_total (a b : String) : le a b = true ∨ le b a = true :=
  partsLe_total _ _

theorem le_trans {a b c : String} (hab : le a b = true) (hbc : le b c = true) : le a c = true :=
  partsLe_trans hab hbc

/-- Paths that are in order both ways have the same parts; they may be written in different ways. -/
theorem le_antisymm {a b : String} (hab : le a b = true) (hba : le b a = true) :
    parts a = parts b :=
  partsLe_antisymm hab hba

end PathName

end HandlerDocs
