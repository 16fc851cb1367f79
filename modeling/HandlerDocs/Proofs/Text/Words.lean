import HandlerDocs.Text.CharClass
import HandlerDocs.Proofs.Text.Trim

namespace HandlerDocs.Text

theorem wordsOf_blank {c : Char} (hc : isBlank c) (cs : List Char) :
    wordsOf (c :: cs) = wordsOf cs := by
  cases cs with
  | nil => simp [wordsOf, hc]
  | cons d cs => rw [wordsOf, if_pos hc]

theorem wordsOf_ne_nil {c : Char} (hc : isBlank c = false) (cs : List Char) :
    wordsOf (c :: cs) ≠ [] := by
  cases cs with
  | nil => simp [wordsOf, hc]
  | cons d cs =>
    rw [wordsOf, if_neg (by simp [hc])]
    split
    · simp
    · split <;> simp

/-- A blank separates the words on its two sides. -/
theorem wordsOf_append_blank (as bs : List Char) {c : Char} (hc : isBlank c) :
    wordsOf (as ++ c :: bs) = wordsOf as ++ wordsOf bs := by
  fun_induction wordsOf as with
  | case1 => exact wordsOf_blank hc bs
  | case2 a ha => rw [List.singleton_append, wordsOf_blank ha, wordsOf_blank hc, List.nil_append]
  | case3 a ha =>
    rw [List.singleton_append, wordsOf, if_neg ha, if_pos hc, wordsOf_blank hc,
      List.singleton_append]
  | case4 a d as ha ih => rw [List.cons_append, wordsOf_blank ha, ih]
  | case5 a d as ha hd ih =>
    rw [List.cons_append, List.cons_append, wordsOf, if_neg ha, if_pos hd, ← List.cons_append, ih,
      List.cons_append]
  | case6 a d as ha hd hnil ih => exact absurd hnil (wordsOf_ne_nil (by simpa using hd) as)
  | case7 a d as ha hd w ws hws ih =>
    rw [List.cons_append, List.cons_append, wordsOf, if_neg ha, if_neg hd, ← List.cons_append, ih,
      hws]
    rfl

/-- No word runs over the cut when a blank stands at one side of it. -/
theorem wordsOf_append {as bs : List Char}
    (h : (∀ c ∈ as.getLast?, isBlank c) ∨ ∀ c ∈ bs.head?, isBlank c) :
    wordsOf (as ++ bs) = wordsOf as ++ wordsOf bs := by
  rcases h with h | h
  · cases as using List.reverseRecOn with
    | nil => rfl
    | append_singleton as c =>
      have hc : isBlank c := h c (by simp)
      rw [List.append_assoc, List.singleton_append, wordsOf_append_blank as bs hc,
        wordsOf_append_blank as [] hc, wordsOf, List.append_nil]
  · cases bs with
    | nil => simp [wordsOf]
    | cons c bs =>
      have hc : isBlank c := h c (by simp)
      rw [wordsOf_append_blank as bs hc, wordsOf_blank hc]

theorem wordsOf_eq_singleton {word : List Char} (hne : word ≠ [])
    (hword : ∀ c ∈ word, isBlank c = false) : wordsOf word = [word] := by
  induction word with
  | nil => contradiction
  | cons c word ih =>
    have hc := hword c List.mem_cons_self
    cases word with
    | nil => simp [wordsOf, hc]
    | cons d word =>
      have hmore := ih (by simp) fun e he ↦ hword e (List.mem_cons_of_mem c he)
      have hd := hword d (by simp)
      rw [wordsOf, if_neg (by simp [hc]), if_neg (by simp [hd]), hmore]

theorem wordsOf_eq_nil {cs : List Char} : wordsOf cs = [] ↔ ∀ c ∈ cs, isBlank c := by
  induction cs with
  | nil => simp [wordsOf]
  | cons c cs ih =>
    by_cases hc : isBlank c
    · rw [wordsOf_blank hc, ih, List.forall_mem_cons, and_iff_right hc]
    · rw [List.forall_mem_cons]
      simp [hc, wordsOf_ne_nil (Bool.eq_false_iff.2 hc) cs]

/-- The words hold every character but the blanks. -/
theorem flatten_wordsOf (cs : List Char) : (wordsOf cs).flatten = cs.filter (!isBlank ·) := by
  fun_induction wordsOf cs with
  | case1 => rfl
  | case2 c hc => simp [hc]
  | case3 c hc => simp [hc]
  | case4 c d cs hc ih => simp [hc, ih]
  | case5 c d cs hc hd ih => simp [hc, ih]
  | case6 c d cs hc hd hnil ih => exact absurd hnil (wordsOf_ne_nil (by simpa using hd) cs)
  | case7 c d cs hc hd w ws hws ih =>
    rw [hws] at ih
    rw [List.filter_cons_of_pos (by simp [hc]), ← ih]
    simp

/-- A longer text has no fewer words. -/
theorem length_wordsOf_le (as bs : List Char) :
    (wordsOf as).length ≤ (wordsOf (as ++ bs)).length := by
  fun_induction wordsOf as with
  | case1 => simp
  | case2 a ha => simp
  | case3 a ha =>
    have hne := wordsOf_ne_nil (by simpa using ha) bs
    simpa [Nat.one_le_iff_ne_zero] using hne
  | case4 a d as ha ih =>
    rw [List.cons_append, wordsOf_blank ha]
    exact ih
  | case5 a d as ha hd ih =>
    rw [List.cons_append, List.cons_append, wordsOf, if_neg ha, if_pos hd]
    simpa using ih
  | case6 a d as ha hd hnil ih => exact absurd hnil (wordsOf_ne_nil (by simpa using hd) as)
  | case7 a d as ha hd w ws hws ih =>
    rw [List.cons_append, List.cons_append, wordsOf, if_neg ha, if_neg hd, ← List.cons_append]
    rw [hws] at ih
    cases hmore : wordsOf (d :: as ++ bs) with
    | nil =>
      rw [hmore] at ih
      simp at ih
    | cons v vs =>
      rw [hmore] at ih
      exact ih

def Gap (s : String) : Prop :=
  s ≠ "" ∧ ∀ c ∈ s.toList, isBlank c

instance (s : String) : Decidable (Gap s) :=
  decidable_of_iff (s ≠ "" ∧ s.toList.all isBlank) (by simp [Gap])

def Word (s : String) : Prop :=
  s ≠ "" ∧ ∀ c ∈ s.toList, isWord c

def blankCodes : List Nat :=
  [9, 10, 11, 12, 13, 32, 133, 160, 5760, 8192, 8193, 8194, 8195, 8196, 8197, 8198, 8199, 8200,
   8201, 8202, 8232, 8233, 8239, 8287, 12288]

theorem mem_blankCodes {c : Char} (h : isBlank c) : c.toNat ∈ blankCodes := by
  simp only [isBlank, Bool.or_eq_true, Bool.and_eq_true, decide_eq_true_eq] at h
  simp only [blankCodes, List.mem_cons, List.not_mem_nil, or_false]
  omega

theorem eq_false_of_isBlank {p : Char → Bool} {c : Char} (h : isBlank c)
    (hcodes : ∀ n ∈ blankCodes, p (Char.ofNat n) = false) : p c = false := by
  have hc := hcodes c.toNat (mem_blankCodes h)
  rwa [Char.ofNat_toNat] at hc

theorem isWord_of_isBlank {c : Char} (h : isBlank c) : isWord c = false :=
  eq_false_of_isBlank (p := isWord) h (by decide +kernel)

theorem isDecimal_of_isBlank {c : Char} (h : isBlank c) : isDecimal c = false :=
  eq_false_of_isBlank (p := isDecimal) h (by decide +kernel)

theorem Word.solid {s : String} (h : Word s) : Solid s := by
  refine ⟨h.1, fun c hc ↦ ?_⟩
  by_contra hblank
  have hword := isWord_of_isBlank (by simpa using hblank)
  rw [h.2 c hc] at hword
  cases hword

theorem words_append {s t : String}
    (h : (∀ c ∈ s.toList.getLast?, isBlank c) ∨ ∀ c ∈ t.toList.head?, isBlank c) :
    words (s ++ t) = words s ++ words t := by
  rw [words, String.toList_append, wordsOf_append h, List.map_append, ← words, ← words]

theorem words_eq_nil {s : String} : words s = [] ↔ ∀ c ∈ s.toList, isBlank c := by
  rw [words, List.map_eq_nil_iff, wordsOf_eq_nil]

theorem Solid.words_eq {s : String} (h : Solid s) : words s = [s] := by
  rw [words, wordsOf_eq_singleton h.toList_ne_nil h.2, List.map_singleton, String.ofList_toList]

theorem words_gap {gap : String} (h : Gap gap) (s t : String) :
    words (s ++ gap ++ t) = words s ++ words t := by
  have hlast : ∀ c ∈ (s ++ gap).toList.getLast?, isBlank c := by
    intro c hc
    rw [String.toList_append, List.getLast?_append_of_ne_nil _ (by simpa using h.1)] at hc
    exact h.2 c (List.mem_of_mem_getLast? hc)
  have hhead : ∀ c ∈ gap.toList.head?, isBlank c := fun c hc ↦ h.2 c (List.mem_of_mem_head? hc)
  rw [words_append (.inl hlast), words_append (.inr hhead), words_eq_nil.2 h.2, List.append_nil]

theorem words_column {word gap : String} (hword : Solid word) (hgap : Gap gap) (s : String) :
    words (word ++ gap ++ s) = word :: words s := by
  rw [words_gap hgap, hword.words_eq, List.singleton_append]

theorem length_words_le (s t : String) : (words s).length ≤ (words (s ++ t)).length := by
  rw [words, words, List.length_map, List.length_map, String.toList_append]
  exact length_wordsOf_le _ _

/-- What follows without a new word and without making the last one longer is blank. -/
theorem forall_isBlank_of_words_append {s t : String} (h : words (s ++ t) = words s) :
    ∀ c ∈ t.toList, isBlank c := by
  have hwords : wordsOf (s.toList ++ t.toList) = wordsOf s.toList := by
    rw [words, words, String.toList_append] at h
    exact List.map_injective_iff.2 (fun _ _ ↦ String.ofList_injective) h
  have hflat := congrArg List.flatten hwords
  rw [flatten_wordsOf, flatten_wordsOf, List.filter_append, List.append_right_eq_self,
    List.filter_eq_nil_iff] at hflat
  intro c hc
  simpa using hflat c hc

theorem Trimmed.eq_empty_of_start {s t : String} (h : Trimmed (s ++ t))
    (hs : ∀ c ∈ s.toList, isBlank c) : s = "" := by
  cases hcs : s.toList with
  | nil => simpa using hcs
  | cons c cs =>
    have hink := (trimmed_iff.1 h).1 c (by simp [hcs])
    rw [hs c (by simp [hcs])] at hink
    cases hink

theorem Trimmed.eq_empty_of_end {s t : String} (h : Trimmed (s ++ t))
    (ht : ∀ c ∈ t.toList, isBlank c) : t = "" := by
  cases hlast : t.toList.getLast? with
  | none => simpa using hlast
  | some c =>
    have hink := (trimmed_iff.1 h).2 c (by simp [List.getLast?_append, hlast])
    rw [ht c (List.mem_of_getLast? hlast)] at hink
    cases hink

theorem wordsOf_dropWhile (cs : List Char) : wordsOf (cs.dropWhile isBlank) = wordsOf cs := by
  induction cs with
  | nil => rfl
  | cons c cs ih =>
    by_cases hc : isBlank c
    · rw [List.dropWhile_cons_of_pos hc, ih, wordsOf_blank hc]
    · rw [List.dropWhile_cons_of_neg hc]

theorem wordsOf_dropWhileEnd (cs : List Char) :
    wordsOf (dropWhileEnd isBlank cs) = wordsOf cs := by
  have hcut : dropWhileEnd isBlank cs ++ (cs.reverse.takeWhile isBlank).reverse = cs := by
    rw [dropWhileEnd, ← List.reverse_append, List.takeWhile_append_dropWhile, List.reverse_reverse]
  have hblank : ∀ c ∈ (cs.reverse.takeWhile isBlank).reverse, isBlank c := by
    intro c hc
    exact List.mem_takeWhile_imp (List.mem_reverse.1 hc)
  conv_rhs => rw [← hcut]
  rw [wordsOf_append (.inr fun c hc ↦ hblank c (List.mem_of_mem_head? hc)),
    wordsOf_eq_nil.2 hblank, List.append_nil]

@[simp] theorem words_trim (s : String) : words (trim s) = words s := by
  rw [words, toList_trim, wordsOf_dropWhileEnd, wordsOf_dropWhile, ← words]

end HandlerDocs.Text
