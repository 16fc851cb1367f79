import HandlerDocs.Naming
import HandlerDocs.Proofs.Text.Words

namespace HandlerDocs.Naming

open Text

section Letter

variable {c : Char}

theorem isBlank_of_isAlpha (h : c.isAlpha) : isBlank c = false := by
  by_contra hblank
  have halpha := eq_false_of_isBlank (p := Char.isAlpha) (by simpa using hblank) (by decide)
  rw [h] at halpha
  cases halpha

theorem isSeparator_iff : isSeparator c ↔ c = '_' ∨ c ∈ ['-', ' ', '\t'] := by
  simp [isSeparator, or_assoc, or_left_comm]

theorem isSeparator_of_isAlpha (h : c.isAlpha) : isSeparator c = false := by
  have hmarks : ∀ d ∈ ['_', '-', ' ', '\t'], d.isAlpha = false := by simp
  rw [← Bool.not_eq_true, isSeparator_iff, ← List.mem_cons]
  intro hmem
  rw [hmarks c hmem] at h
  cases h

theorem isBlank_toLower (c : Char) : isBlank c.toLower = isBlank c :=
  class_toLower (fun _ ↦ isBlank_of_isAlpha) c

theorem isSeparator_toLower (c : Char) : isSeparator c.toLower = isSeparator c :=
  class_toLower (fun _ ↦ isSeparator_of_isAlpha) c

theorem toLower_ne_underscore (h : isSeparator c = false) : c.toLower ≠ '_' := by
  intro hc
  rw [← isSeparator_toLower, hc] at h
  cases h

theorem isAlpha_of_startsWord {prev next : Option Char} (h : startsWord prev next) :
    ∃ p ∈ prev, p.isAlpha := by
  cases prev with
  | none => cases h
  | some p =>
    refine ⟨p, rfl, ?_⟩
    rw [startsWord, Bool.or_eq_true, Bool.and_eq_true] at h
    rw [Char.isAlpha, Bool.or_eq_true]
    exact h.symm.imp And.left id

end Letter

def Parted (c d : Char) : Prop :=
  ¬(c = '_' ∧ d = '_')

/-- Words without capitals, with single underscores between them; one may also stand at the end. -/
structure IsSnake (cs : List Char) : Prop where
  noCapital : ∀ c ∈ cs, c.isUpper = false
  noGap : ∀ c ∈ cs, c ∉ ['-', ' ', '\t']
  starts : cs.head? ≠ some '_'
  parted : cs.IsChain Parted

namespace IsSnake

variable {as bs cs out : List Char} {c : Char}

theorem nil : IsSnake [] :=
  ⟨by simp, by simp, by simp, .nil⟩

theorem of_append (h : IsSnake (as ++ bs)) : IsSnake as where
  noCapital c hc := h.noCapital c (List.mem_append_left _ hc)
  noGap c hc := h.noGap c (List.mem_append_left _ hc)
  starts hstart := h.starts (by simp [hstart])
  parted := h.parted.left_of_append

theorem eq_underscore (h : IsSnake cs) (hc : c ∈ cs) (hsep : isSeparator c) : c = '_' :=
  (isSeparator_iff.1 hsep).resolve_right (h.noGap c hc)

theorem append_singleton (h : IsSnake cs) (hupper : c.isUpper = false)
    (hgap : c ∉ ['-', ' ', '\t']) (hscore : c = '_' → cs ≠ [] ∧ cs.getLast? ≠ some '_') :
    IsSnake (cs ++ [c]) where
  noCapital := List.forall_mem_append.2 ⟨h.noCapital, List.forall_mem_singleton.2 hupper⟩
  noGap := List.forall_mem_append.2 ⟨h.noGap, List.forall_mem_singleton.2 hgap⟩
  starts := by
    cases cs with
    | nil => simpa using fun hc ↦ (hscore hc).1 rfl
    | cons d cs => exact h.starts
  parted := by
    refine List.isChain_append.2 ⟨h.parted, .singleton c, ?_⟩
    rintro d hd e he ⟨rfl, rfl⟩
    exact (hscore (by simpa using he)).2 hd

theorem toLower_cons (h : IsSnake out.reverse) (hc : isSeparator c = false) :
    IsSnake (c.toLower :: out).reverse := by
  rw [← isSeparator_toLower, ← Bool.not_eq_true, isSeparator_iff, not_or] at hc
  rw [List.reverse_cons]
  exact h.append_singleton (Char.isUpper_toLower_eq_false c) hc.2 fun hscore ↦ absurd hscore hc.1

theorem underscore_cons (h : IsSnake out.reverse) (hne : out ≠ []) (hhead : out.head? ≠ some '_') :
    IsSnake ('_' :: out).reverse := by
  rw [List.reverse_cons]
  refine h.append_singleton (by decide) (by decide) fun _ ↦ ⟨by simpa using hne, ?_⟩
  rwa [List.getLast?_reverse]

end IsSnake

section Step

variable (out : List Char) (prev : Option Char) (c : Char) (next : Option Char)

def writtenAfter : List Char :=
  if isSeparator c then
    if out = [] ∨ out.head? = some '_' then out else '_' :: out
  else if c.isUpper ∧ startsWord prev next ∧ out.head? ≠ some '_' then c.toLower :: '_' :: out
  else c.toLower :: out

theorem snakeFrom_cons (cs : List Char) :
    snakeFrom out prev (c :: cs) = snakeFrom (writtenAfter out prev c cs.head?) (some c) cs := by
  rw [snakeFrom, writtenAfter]
  by_cases hsep : isSeparator c
  · simp [hsep]
  · by_cases hupper : c.isUpper
    · by_cases hgap : startsWord prev cs.head? ∧ out.head? ≠ some '_'
      · simp [hsep, hupper, hgap]
      · simp [hsep, hupper, hgap]
    · simp [hsep, hupper, Char.toLower_eq_of_not_isUpper]

theorem filter_writtenAfter :
    (writtenAfter out prev c next).filter (· ≠ '_') =
      (if isSeparator c then [] else [c.toLower]) ++ out.filter (· ≠ '_') := by
  rw [writtenAfter]
  by_cases hsep : isSeparator c
  · split_ifs <;> simp
  · have hne := toLower_ne_underscore (Bool.eq_false_iff.2 hsep)
    split_ifs <;> simp [hne]

end Step

structure Written (out : List Char) (prev : Option Char) : Prop where
  isSnake : IsSnake out.reverse
  started : ∀ c ∈ prev, c.isAlpha → out ≠ []

variable {out : List Char} {prev : Option Char}

theorem Written.of_cons {c : Char} (h : IsSnake (c :: out).reverse) : Written (c :: out) prev :=
  ⟨h, fun _ _ _ ↦ List.cons_ne_nil c out⟩

theorem Written.after (h : Written out prev) (c : Char) (next : Option Char) :
    Written (writtenAfter out prev c next) (some c) := by
  rw [writtenAfter]
  split_ifs with hsep hkeep hgap
  · refine ⟨h.isSnake, fun d hd halpha ↦ ?_⟩
    cases hd
    rw [isSeparator_of_isAlpha halpha] at hsep
    cases hsep
  · rw [not_or] at hkeep
    exact .of_cons (h.isSnake.underscore_cons hkeep.1 hkeep.2)
  · -- The word before is not empty, so no underscore comes first.
    obtain ⟨-, hword, hhead⟩ := hgap
    obtain ⟨p, hp, halpha⟩ := isAlpha_of_startsWord hword
    have hscore := h.isSnake.underscore_cons (h.started p hp halpha) hhead
    exact .of_cons (hscore.toLower_cons (Bool.eq_false_iff.2 hsep))
  · exact .of_cons (h.isSnake.toLower_cons (Bool.eq_false_iff.2 hsep))

theorem Written.isSnake_snakeFrom (h : Written out prev) (cs : List Char) :
    IsSnake (snakeFrom out prev cs) := by
  induction cs generalizing out prev with
  | nil => exact h.isSnake
  | cons c cs ih =>
    rw [snakeFrom_cons]
    exact ih (h.after c cs.head?)

theorem filter_snakeFrom (out : List Char) (prev : Option Char) (cs : List Char) :
    (snakeFrom out prev cs).filter (· ≠ '_') =
      out.reverse.filter (· ≠ '_') ++ (cs.filter (!isSeparator ·)).map Char.toLower := by
  induction cs generalizing out prev with
  | nil => simp [snakeFrom]
  | cons c cs ih =>
    rw [snakeFrom_cons, ih, List.filter_reverse, filter_writtenAfter, List.filter_reverse]
    by_cases hc : isSeparator c <;> simp [hc]

theorem writtenAfter_eq_cons {c : Char} (h : IsSnake (out.reverse ++ [c])) (next : Option Char) :
    writtenAfter out prev c next = c :: out := by
  have hmem : c ∈ out.reverse ++ [c] := by simp
  have hupper := h.noCapital c hmem
  rw [writtenAfter]
  split_ifs with hsep hkeep hgap
  · -- The loop would drop an underscore here, but there is none to drop in snake case.
    obtain rfl := h.eq_underscore hmem hsep
    rcases hkeep with rfl | hlast
    · exact absurd rfl h.starts
    · have hparted := (List.isChain_append.1 h.parted).2.2 '_' (by simpa using hlast) '_' rfl
      exact absurd ⟨rfl, rfl⟩ hparted
  · rw [h.eq_underscore hmem hsep]
  · rw [hupper] at hgap
    cases hgap.1
  · rw [Char.toLower_eq_of_not_isUpper (by simp [hupper])]

/-- A text in snake case is written as it is. -/
theorem snakeFrom_eq_append {cs : List Char} (h : IsSnake (out.reverse ++ cs)) :
    snakeFrom out prev cs = out.reverse ++ cs := by
  induction cs generalizing out prev with
  | nil => rw [snakeFrom, List.append_nil]
  | cons c cs ih =>
    rw [List.append_cons] at h
    rw [snakeFrom_cons, writtenAfter_eq_cons h.of_append, ih (by rwa [List.reverse_cons]),
      List.reverse_cons, ← List.append_cons]

theorem toList_snake (s : String) : (snake s).toList = snakeFrom [] none (trim s).toList := by
  rw [snake, String.toList_ofList]

theorem isSnake_snake (s : String) : IsSnake (snake s).toList := by
  have hempty : Written [] none := ⟨.nil, fun _ hc ↦ by cases hc⟩
  rw [toList_snake]
  exact hempty.isSnake_snakeFrom _

theorem filter_snake (s : String) :
    (snake s).toList.filter (· ≠ '_') =
      ((trim s).toList.filter (· ∉ ['-', '_', ' ', '\t'])).map Char.toLower := by
  have hseparator : (fun c : Char ↦ decide (c ∉ ['-', '_', ' ', '\t'])) = (!isSeparator ·) := by
    funext c
    simp [isSeparator, Bool.and_assoc]
  rw [toList_snake, filter_snakeFrom, List.reverse_nil, List.filter_nil, List.nil_append,
    hseparator]

theorem snake_eq_self {s : String} (h : IsSnake s.toList) (htrim : Trimmed s) : snake s = s := by
  have hwritten : snakeFrom [] none s.toList = s.toList := snakeFrom_eq_append h
  rw [← String.toList_inj, toList_snake, htrim, hwritten]

theorem inked_snake {s : String} (h : ∀ c ∈ s.toList, isBlank c = false) :
    ∀ c ∈ (snake s).toList, isBlank c = false := by
  intro c hc
  by_cases hscore : c = '_'
  · subst hscore
    decide
  · have hletter : c ∈ (snake s).toList.filter (· ≠ '_') := by simpa using ⟨hc, hscore⟩
    rw [filter_snake, trimmed_of_inked h] at hletter
    obtain ⟨d, hd, rfl⟩ := List.mem_map.1 hletter
    rw [isBlank_toLower, h d (List.mem_of_mem_filter hd)]

/-- Snake case is a normal form: only case and separators change on the way to it, and a name
without blanks does not change again. -/
theorem snake_normal_form (s : String) :
    IsSnake (snake s).toList ∧
    (snake s).toList.filter (· ≠ '_') =
      ((trim s).toList.filter (· ∉ ['-', '_', ' ', '\t'])).map Char.toLower ∧
    ((∀ c ∈ s.toList, isBlank c = false) → snake (snake s) = snake s) :=
  ⟨isSnake_snake s, filter_snake s,
    fun h ↦ snake_eq_self (isSnake_snake s) (trimmed_of_inked (inked_snake h))⟩

/-- Acronyms end before the next word, and a capital beyond ASCII stays. -/
theorem snake_normal_form_acronym :
    Solid "-_XMLHttpÉ--userID2_" ∧ snake "-_XMLHttpÉ--userID2_" = "xml_httpÉ_user_id2_" ∧
      IsSnake "xml_httpÉ_user_id2_".toList ∧
      snake "xml_httpÉ_user_id2_" = "xml_httpÉ_user_id2_" := by
  have hsolid : Solid "-_XMLHttpÉ--userID2_" := by decide
  have hsnake : snake "-_XMLHttpÉ--userID2_" = "xml_httpÉ_user_id2_" := by decide
  obtain ⟨hform, -, hagain⟩ := snake_normal_form "-_XMLHttpÉ--userID2_"
  have hstays := hagain hsolid.2
  rw [hsnake] at hform hstays
  exact ⟨hsolid, hsnake, hform, hstays⟩

end HandlerDocs.Naming
