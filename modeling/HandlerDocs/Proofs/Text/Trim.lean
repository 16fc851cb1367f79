import HandlerDocs.Proofs.Prelude
import HandlerDocs.Text.Blank
import HandlerDocs.Text.Cut

namespace HandlerDocs.Text

section DropWhileEnd

variable (p : Char → Bool)

@[simp] theorem dropWhileEnd_nil : dropWhileEnd p [] = [] := rfl

theorem dropWhileEnd_cons (c : Char) (cs : List Char) :
    dropWhileEnd p (c :: cs) =
      if dropWhileEnd p cs = [] ∧ p c then [] else c :: dropWhileEnd p cs := by
  have h : dropWhileEnd p (c :: cs) =
      (if (cs.reverse.dropWhile p).isEmpty then [c].dropWhile p
        else cs.reverse.dropWhile p ++ [c]).reverse := by
    rw [dropWhileEnd, List.reverse_cons, List.dropWhile_append]
  rw [h]
  cases hd : cs.reverse.dropWhile p <;> by_cases hc : p c <;>
    simp [dropWhileEnd, hd, hc]

theorem dropWhileEnd_append {as bs : List Char} (h : dropWhileEnd p bs ≠ []) :
    dropWhileEnd p (as ++ bs) = as ++ dropWhileEnd p bs := by
  induction as with
  | nil => rfl
  | cons a as ih =>
    have hne : dropWhileEnd p (as ++ bs) ≠ [] := by simp [ih, h]
    rw [List.cons_append, dropWhileEnd_cons, if_neg (fun hc ↦ hne hc.1), ih, List.cons_append]

theorem dropWhileEnd_append_of_nil {as bs : List Char} (h : dropWhileEnd p bs = []) :
    dropWhileEnd p (as ++ bs) = dropWhileEnd p as := by
  induction as with
  | nil => exact h
  | cons a as ih => rw [List.cons_append, dropWhileEnd_cons, dropWhileEnd_cons, ih]

/-- Both ends are cut in either order. -/
theorem dropWhile_dropWhileEnd (cs : List Char) :
    (dropWhileEnd p cs).dropWhile p = dropWhileEnd p (cs.dropWhile p) := by
  induction cs with
  | nil => rfl
  | cons c cs ih =>
    by_cases hc : p c
    · rw [dropWhileEnd_cons, List.dropWhile_cons_of_pos hc, ← ih]
      split
      · rename_i h
        rw [h.1]
      · rw [List.dropWhile_cons_of_pos hc]
    · rw [List.dropWhile_cons_of_neg hc, dropWhileEnd_cons, if_neg (fun h ↦ hc h.2),
        List.dropWhile_cons_of_neg hc]

theorem dropWhileEnd_idem (cs : List Char) :
    dropWhileEnd p (dropWhileEnd p cs) = dropWhileEnd p cs := by
  induction cs with
  | nil => rfl
  | cons c cs ih =>
    rw [dropWhileEnd_cons]
    split
    · rfl
    · rename_i h
      rw [dropWhileEnd_cons, ih, if_neg h]

theorem dropWhileEnd_eq_self {cs : List Char} :
    dropWhileEnd p cs = cs ↔ ∀ c ∈ cs.getLast?, p c = false := by
  induction cs with
  | nil => simp
  | cons c cs ih =>
    rw [dropWhileEnd_cons]
    cases cs with
    | nil => by_cases hc : p c <;> simp [hc]
    | cons d ds =>
      rw [List.getLast?_cons_cons, ← ih]
      split
      · rename_i h
        simp [h.1]
      · simp

end DropWhileEnd

def Trimmed (s : String) : Prop :=
  trim s = s

instance (s : String) : Decidable (Trimmed s) :=
  inferInstanceAs (Decidable (trim s = s))

def Solid (s : String) : Prop :=
  s ≠ "" ∧ ∀ c ∈ s.toList, isBlank c = false

instance (s : String) : Decidable (Solid s) :=
  decidable_of_iff (s ≠ "" ∧ s.toList.all (!isBlank ·)) (by simp [Solid])

theorem toList_trim (s : String) :
    (trim s).toList = dropWhileEnd isBlank (s.toList.dropWhile isBlank) := by
  rw [trim, String.toList_ofList, dropBlanks]

theorem trimEnd_ofList_dropWhileEnd (cs : List Char) :
    trimEnd (String.ofList (dropWhileEnd isBlank cs)) =
      String.ofList (dropWhileEnd isBlank cs) := by
  rw [trimEnd, String.toList_ofList, dropWhileEnd_idem]

@[simp] theorem trim_trim (s : String) : trim (trim s) = trim s := by
  rw [← String.toList_inj, toList_trim, toList_trim, dropWhile_dropWhileEnd,
    List.dropWhile_idempotent, dropWhileEnd_idem]

theorem trimmed_trim (s : String) : Trimmed (trim s) := trim_trim s

theorem trimmed_empty : Trimmed "" := by decide

theorem trimmed_iff {s : String} :
    Trimmed s ↔
      (∀ c ∈ s.toList.head?, isBlank c = false) ∧ ∀ c ∈ s.toList.getLast?, isBlank c = false := by
  rw [Trimmed, ← String.toList_inj, toList_trim, ← dropWhile_eq_self,
    ← dropWhileEnd_eq_self isBlank]
  constructor
  · intro h
    have hle := (List.dropWhile_suffix isBlank (l := s.toList)).length_le
    have hpre : dropWhileEnd isBlank (s.toList.dropWhile isBlank) <+: s.toList.dropWhile isBlank :=
      List.rdropWhile_prefix isBlank _
    have hstart : s.toList.dropWhile isBlank = s.toList := by
      refine (List.dropWhile_suffix isBlank).eq_of_length (le_antisymm hle ?_)
      rw [← congrArg List.length h]
      exact hpre.length_le
    exact ⟨hstart, by rwa [hstart] at h⟩
  · rintro ⟨hs, he⟩
    rw [hs, he]

theorem trimmed_of_inked {s : String} (h : ∀ c ∈ s.toList, isBlank c = false) : Trimmed s :=
  trimmed_iff.2 ⟨fun c hc ↦ h c (List.mem_of_mem_head? hc),
    fun c hc ↦ h c (List.mem_of_mem_getLast? hc)⟩

theorem Solid.trimmed {s : String} (h : Solid s) : Trimmed s :=
  trimmed_of_inked h.2

theorem trimEnd_eq_self {s : String} :
    trimEnd s = s ↔ ∀ c ∈ s.toList.getLast?, isBlank c = false := by
  rw [← dropWhileEnd_eq_self, ← String.toList_inj, trimEnd, String.toList_ofList]

theorem Trimmed.trimEnd_eq {s : String} (h : Trimmed s) : trimEnd s = s :=
  trimEnd_eq_self.2 (trimmed_iff.1 h).2

theorem trimEnd_append_eq_self {s t : String} (hne : t ≠ "") :
    trimEnd (s ++ t) = s ++ t ↔ trimEnd t = t := by
  rw [trimEnd_eq_self, trimEnd_eq_self, String.toList_append, List.getLast?_append,
    Option.or_of_isSome (by simpa using hne)]

theorem trimEnd_append {s t : String} (ht : trimEnd t = t) (hne : t ≠ "") :
    trimEnd (s ++ t) = s ++ t :=
  (trimEnd_append_eq_self hne).2 ht

theorem trim_trimEnd (s : String) : trim (trimEnd s) = trim s := by
  rw [← String.toList_inj, toList_trim, toList_trim, trimEnd, String.toList_ofList,
    dropWhile_dropWhileEnd, dropWhileEnd_idem]

theorem Solid.toList_ne_nil {s : String} (h : Solid s) : s.toList ≠ [] := by
  simpa using h.1

def OneLine (s : String) : Prop :=
  '\n' ∉ s.toList

instance (s : String) : Decidable (OneLine s) :=
  inferInstanceAs (Decidable (_ ∉ _))

@[simp] theorem oneLine_append {s t : String} : OneLine (s ++ t) ↔ OneLine s ∧ OneLine t := by
  simp [OneLine]

theorem OneLine.of_subset {s t : String} (h : OneLine t) (hsub : s.toList ⊆ t.toList) : OneLine s :=
  fun hmem ↦ h (hsub hmem)

theorem oneLine_of_inked {s : String} (h : ∀ c ∈ s.toList, isBlank c = false) : OneLine s :=
  fun hmem ↦ absurd (h _ hmem) (by decide)

theorem Solid.oneLine {s : String} (h : Solid s) : OneLine s :=
  oneLine_of_inked h.2

end HandlerDocs.Text
