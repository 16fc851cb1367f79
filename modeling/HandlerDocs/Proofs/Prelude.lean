import Mathlib

namespace HandlerDocs

section Results

variable {ε α β : Type} {result : Except ε α}

theorem toOption_eq_some {a : α} : result.toOption = some a ↔ result = .ok a := by
  cases result <;> simp [Except.toOption]

theorem exists_ok_of_toOption {view : α → β} {b : β} (h : result.toOption.map view = some b) :
    ∃ a, result = .ok a ∧ view a = b := by
  cases result with
  | error e => cases h
  | ok a => exact ⟨a, rfl, Option.some.inj h⟩

theorem forall_mem_orElse {a b : Option α} {P : α → Prop} (ha : ∀ x ∈ a, P x)
    (hb : ∀ x ∈ b, P x) : ∀ x ∈ a.orElse fun _ ↦ b, P x := by
  cases a with
  | none => exact hb
  | some a => exact ha

end Results

section Lists

variable {α β : Type} {as bs cs : List α}

theorem map_eq_self_iff {f : α → α} : as.map f = as ↔ ∀ a ∈ as, f a = a := by
  conv_lhs => rhs; rw [← List.map_id as]
  exact List.map_inj_left

theorem map_modify_of_eq {view : α → β} {change : α → α} (h : ∀ a, view (change a) = view a)
    (as : List α) (i : ℕ) : (as.modify i change).map view = as.map view := by
  refine List.ext_getElem? fun j ↦ ?_
  rw [List.getElem?_map, List.getElem?_map, List.getElem?_modify]
  cases as[j]? with
  | none => rfl
  | some a =>
    by_cases hj : i = j
    · simp [hj, h]
    · simp [hj]

theorem dropLast_inits_cons (a : α) (as : List α) :
    (a :: as).inits.dropLast = [] :: as.inits.dropLast.map (a :: ·) := by
  have hne : as.inits.map (a :: ·) ≠ [] := by cases as <;> simp
  rw [List.inits_cons, List.dropLast_cons_of_ne_nil hne, List.map_dropLast]

theorem append_isPrefix (has : as <+: cs) (hbs : bs <+: cs.drop as.length) : as ++ bs <+: cs := by
  obtain ⟨more, rfl⟩ := has
  rw [List.drop_left] at hbs
  exact (List.prefix_append_right_inj as).2 hbs

theorem isPrefix_snoc {a : α} (h : as <+: cs) (ha : (cs.drop as.length).head? = some a) :
    as ++ [a] <+: cs := by
  refine append_isPrefix h ?_
  obtain ⟨rest, hrest⟩ := List.head?_eq_some_iff.1 ha
  exact ⟨rest, by rw [hrest]; rfl⟩

/-- Lists are cut in one way at the last place where two given elements follow each other. -/
theorem append_pair_inj {a b : α} (hab : a ≠ b) {as bs as' bs' : List α}
    (h : as ++ a :: b :: bs = as' ++ a :: b :: bs') (hbs : ¬[a, b] <:+: bs)
    (hbs' : ¬[a, b] <:+: bs') : as = as' ∧ bs = bs' := by
  -- What one cut has more in front begins with the pair, so that the pair is behind the other.
  have hmore {more cs cs' : List α} (heq : a :: b :: cs = more ++ a :: b :: cs')
      (hcs : ¬[a, b] <:+: cs) : more = [] := by
    rcases more with _ | ⟨c, _ | ⟨d, more⟩⟩
    · rfl
    · exact absurd (List.cons.inj (List.cons.inj heq).2).1.symm hab
    · have htail : cs = more ++ a :: b :: cs' := (List.cons.inj (List.cons.inj heq).2).2
      exact absurd ⟨more, cs', by simp [htail]⟩ hcs
  rcases List.append_eq_append_iff.1 h with ⟨more, rfl, heq⟩ | ⟨more, rfl, heq⟩
  · obtain rfl := hmore heq hbs
    exact ⟨(List.append_nil _).symm, (List.cons.inj (List.cons.inj heq).2).2⟩
  · obtain rfl := hmore heq hbs'
    exact ⟨List.append_nil _, (List.cons.inj (List.cons.inj heq).2).2.symm⟩

variable {p : α → Bool}

theorem takeWhile_append_eq (has : ∀ a ∈ as, p a) (hbs : ∀ b ∈ bs.head?, p b = false) :
    (as ++ bs).takeWhile p = as := by
  rw [List.takeWhile_append_of_pos has]
  cases bs with
  | nil => simp
  | cons b bs => simp [hbs b rfl]

theorem dropWhile_append_eq (has : ∀ a ∈ as, p a) (hbs : ∀ b ∈ bs.head?, p b = false) :
    (as ++ bs).dropWhile p = bs := by
  have hsplit := List.takeWhile_append_dropWhile (p := p) (l := as ++ bs)
  rw [takeWhile_append_eq has hbs] at hsplit
  exact List.append_cancel_left hsplit

theorem dropWhile_eq_self : as.dropWhile p = as ↔ ∀ a ∈ as.head?, p a = false := by
  rw [List.dropWhile_eq_self_iff]
  cases as <;> simp

theorem nodup_snoc {a : α} (h : as.Nodup) (ha : a ∉ as) : (as ++ [a]).Nodup := by
  rw [← List.concat_eq_append]
  exact h.concat ha

section EraseDups

variable [BEq α] [LawfulBEq α]

theorem eraseDups_concat [DecidableEq α] (as : List α) (a : α) :
    (as ++ [a]).eraseDups = if a ∈ as then as.eraseDups else as.eraseDups ++ [a] := by
  rw [List.eraseDups_append, List.removeAll]
  split
  · rename_i ha
    simp [ha]
  · rename_i ha
    simp [ha, List.eraseDups_cons]

theorem nodup_eraseDups [DecidableEq α] (as : List α) : as.eraseDups.Nodup := by
  induction as using List.reverseRecOn with
  | nil => exact .nil
  | append_singleton as a ih =>
    rw [eraseDups_concat]
    split
    · exact ih
    · rename_i ha
      exact nodup_snoc ih (by rwa [List.mem_eraseDups])

/-- What is left of a list without repetitions, when some of it was seen before. -/
theorem eraseDups_filter_cons (seen : List α) (a : α) (more : List α) :
    ((a :: more).filter (· ∉ seen)).eraseDups =
      if a ∈ seen then (more.filter (· ∉ seen)).eraseDups
      else a :: (more.filter (· ∉ a :: seen)).eraseDups := by
  split
  · rename_i ha
    rw [List.filter_cons_of_neg (by simpa using ha)]
  · rename_i ha
    have hseen : (more.filter (· ∉ seen)).filter (!· == a) = more.filter (· ∉ a :: seen) := by
      rw [List.filter_filter]
      refine List.filter_congr fun b _ ↦ ?_
      by_cases hb : b = a <;> simp [hb]
    rw [List.filter_cons_of_pos (by simpa using ha), List.eraseDups_cons, hseen]

end EraseDups

/-- Sorting makes one list of all orders of the same elements when no two of them rank alike. -/
theorem mergeSort_of_perm {le : α → α → Bool} (h : as.Perm bs)
    (htrans : ∀ a b c, le a b → le b c → le a c) (htotal : ∀ a b, le a b ∨ le b a)
    (hantisymm : ∀ a ∈ as, ∀ b ∈ as, le a b → le b a → a = b) :
    as.mergeSort le = bs.mergeSort le := by
  have hsorted (cs : List α) : (cs.mergeSort le).Pairwise fun a b ↦ le a b = true := by
    refine List.pairwise_mergeSort htrans ?_ cs
    intro a b
    rw [Bool.or_eq_true]
    exact htotal a b
  have hperm : (as.mergeSort le).Perm (bs.mergeSort le) :=
    ((List.mergeSort_perm as le).trans h).trans (List.mergeSort_perm bs le).symm
  refine List.Perm.eq_of_pairwise ?_ (hsorted as) (hsorted bs) hperm
  intro a b ha hb
  exact hantisymm a (List.mem_mergeSort.1 ha) b (h.mem_iff.2 (List.mem_mergeSort.1 hb))

theorem mergeSort_key_of_perm {key : α → String} (h : as.Perm bs)
    (hkey : ∀ a ∈ as, ∀ b ∈ as, key a = key b → a = b) :
    as.mergeSort (fun a b ↦ decide (key a ≤ key b)) =
      bs.mergeSort fun a b ↦ decide (key a ≤ key b) := by
  refine mergeSort_of_perm h ?_ ?_ ?_
  · intro a b c hab hbc
    rw [decide_eq_true_iff] at hab hbc ⊢
    exact String.le_trans hab hbc
  · intro a b
    rw [decide_eq_true_iff, decide_eq_true_iff]
    exact String.le_total (key a) (key b)
  · intro a ha b hb hab hba
    rw [decide_eq_true_iff] at hab hba
    exact hkey a ha b hb (String.le_antisymm hab hba)

end Lists

section Chars

variable {c : Char}

theorem toNat_of_isDigit (h : c.isDigit) : 48 ≤ c.toNat ∧ c.toNat ≤ 57 := by
  simp only [Char.isDigit, Bool.and_eq_true, decide_eq_true_eq] at h
  exact ⟨UInt32.le_iff_toNat_le.1 h.1, UInt32.le_iff_toNat_le.1 h.2⟩

theorem isDigit_repr (n : ℕ) : ∀ c ∈ (Nat.repr n).toList, c.isDigit := by
  intro c hc
  rw [Nat.toList_repr] at hc
  exact Nat.isDigit_of_mem_toDigits (by decide) (by decide) hc

theorem notMem_repr (hc : c.isDigit = false) (n : ℕ) : c ∉ (Nat.repr n).toList := by
  intro hmem
  rw [isDigit_repr n c hmem] at hc
  cases hc

theorem toLower_eq_at (h : c.toLower = '@') : c = '@' := by
  have halpha : c.isAlpha = false := by
    rw [← Char.isLower_toLower_eq_isAlpha, h]
    decide
  have hupper : ¬ c.isUpper := fun hc ↦ by simp [Char.isAlpha, hc] at halpha
  rwa [Char.toLower_eq_of_not_isUpper hupper] at h

/-- A class without letters does not depend on case. -/
theorem class_toLower {p : Char → Bool} (h : ∀ d : Char, d.isAlpha → p d = false) (c : Char) :
    p c.toLower = p c := by
  by_cases hc : c.isUpper
  · have halpha : c.isAlpha := by rw [Char.isAlpha, hc, Bool.true_or]
    have hlower : c.toLower.isAlpha := by
      rw [Char.isAlpha, Char.isLower_toLower_eq_isAlpha, halpha, Bool.or_true]
    rw [h c halpha, h _ hlower]
  · rw [Char.toLower_eq_of_not_isUpper hc]

end Chars

end HandlerDocs
