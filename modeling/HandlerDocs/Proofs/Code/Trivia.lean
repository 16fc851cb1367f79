import HandlerDocs.Code.Token
import HandlerDocs.Proofs.Prelude

namespace HandlerDocs.Code.Lexer

def charsOf (lead : List Trivia) : List Char :=
  lead.flatMap Trivia.chars

@[simp] theorem charsOf_nil : charsOf [] = [] := rfl

@[simp] theorem charsOf_cons (t : Trivia) (lead : List Trivia) :
    charsOf (t :: lead) = t.chars ++ charsOf lead := rfl

@[simp] theorem charsOf_append (as bs : List Trivia) :
    charsOf (as ++ bs) = charsOf as ++ charsOf bs :=
  List.flatMap_append

def StartsToken : List Char → Prop
  | [] => True
  | c :: cs => isSpace c = false ∧ (c = '/' → ∀ d ∈ cs.head?, d ≠ '/' ∧ d ≠ '*')

inductive Leads : List Char → List Trivia → List Char → Prop
  | nil {rest : List Char} : StartsToken rest → Leads rest [] rest
  | space {c : Char} {cs rest : List Char} {lead : List Trivia} :
    isSpace c → Leads cs lead rest → Leads (c :: cs) (.space c :: lead) rest
  | line {text cs rest : List Char} {lead : List Trivia} :
    '\n' ∉ text → (∀ c ∈ cs.head?, c = '\n') → Leads cs lead rest →
    Leads ('/' :: '/' :: (text ++ cs)) (.line ('/' :: '/' :: text) :: lead) rest
  | block {text cs rest : List Char} {lead : List Trivia} :
    blockComment (text ++ cs) = some (text, cs) → Leads cs lead rest →
    Leads ('/' :: '*' :: (text ++ cs)) (.block ('/' :: '*' :: text) :: lead) rest

theorem blockComment_eq_some {cs text rest : List Char} (h : blockComment cs = some (text, rest)) :
    cs = text ++ rest ∧ text.getLast? = some '/' ∧
      ∀ more, blockComment (text ++ more) = some (text, more) := by
  fun_induction blockComment cs generalizing text with
  | case1 rest =>
    obtain ⟨rfl, rfl⟩ := Prod.mk.inj (Option.some.inj h)
    exact ⟨rfl, rfl, fun more ↦ rfl⟩
  | case2 c cs hne ih =>
    obtain ⟨⟨inner, after⟩, hinner, hpair⟩ := Option.map_eq_some_iff.1 h
    obtain ⟨rfl, rfl⟩ := Prod.mk.inj hpair
    obtain ⟨rfl, hlast, hmore⟩ := ih hinner
    refine ⟨rfl, by simp [List.getLast?_cons, hlast], fun more ↦ ?_⟩
    obtain ⟨d, inner, rfl⟩ := List.exists_cons_of_ne_nil
      (List.ne_nil_of_mem (List.mem_of_getLast? hlast))
    rw [List.cons_append, blockComment, hmore]
    · rfl
    · intro tail hc htail
      obtain ⟨rfl, -⟩ := List.cons.inj htail
      exact hne _ hc rfl
  | case3 => simp at h

theorem leads_of_trivia {n : ℕ} {cs rest : List Char} {lead : List Trivia}
    (h : trivia n cs = some (lead, rest)) : Leads cs lead rest := by
  fun_induction trivia n cs generalizing lead with
  | case1 => simp at h
  | case2 n cs ih =>
    obtain ⟨⟨more, after⟩, hmore, hpair⟩ := Option.map_eq_some_iff.1 h
    obtain ⟨rfl, rfl⟩ := Prod.mk.inj hpair
    have htext : '\n' ∉ cs.takeWhile (· ≠ '\n') := fun hmem ↦ by
      simpa using List.mem_takeWhile_imp hmem
    have hhead : ∀ c ∈ (cs.dropWhile (· ≠ '\n')).head?, c = '\n' := fun c hc ↦ by
      have hdrop := List.head?_dropWhile_not (· ≠ '\n') cs
      rw [hc] at hdrop
      simpa using hdrop
    have hleads := Leads.line htext hhead (ih hmore)
    rwa [List.takeWhile_append_dropWhile] at hleads
  | case3 n cs ih =>
    simp only [Option.bind_eq_bind, Option.bind_eq_some_iff, Prod.exists] at h
    obtain ⟨text, after, htext, more, tail, hmore, hpair⟩ := h
    obtain ⟨rfl, rfl⟩ := Prod.mk.inj (Option.some.inj hpair)
    obtain ⟨rfl, -, hblock⟩ := blockComment_eq_some htext
    exact .block htext (ih _ hmore)
  | case4 n c cs hline hblock hspace ih =>
    obtain ⟨⟨more, after⟩, hmore, hpair⟩ := Option.map_eq_some_iff.1 h
    obtain ⟨rfl, rfl⟩ := Prod.mk.inj hpair
    exact .space hspace (ih hmore)
  | case5 n c cs hline hblock hspace =>
    obtain ⟨rfl, rfl⟩ := Prod.mk.inj (Option.some.inj h)
    refine .nil ⟨by simpa using hspace, fun hc d hd ↦ ?_⟩
    obtain ⟨ds, rfl⟩ := List.head?_eq_some_iff.1 hd
    exact ⟨fun hd ↦ hline ds hc (by rw [hd]), fun hd ↦ hblock ds hc (by rw [hd])⟩
  | case6 n =>
    obtain ⟨rfl, rfl⟩ := Prod.mk.inj (Option.some.inj h)
    exact .nil trivial

theorem trivia_of_startsToken {rest : List Char} (h : StartsToken rest) (n : ℕ) :
    trivia (n + 1) rest = some ([], rest) := by
  cases rest with
  | nil => rfl
  | cons c cs =>
    rw [trivia, if_neg (by simp [h.1])]
    · rintro ds rfl rfl
      exact (h.2 rfl '/' rfl).1 rfl
    · rintro ds rfl rfl
      exact (h.2 rfl '*' rfl).2 rfl

theorem trivia_of_leads {cs rest : List Char} {lead : List Trivia} (h : Leads cs lead rest) {n : ℕ}
    (hn : lead.length < n) : trivia n cs = some (lead, rest) := by
  induction h generalizing n with
  | nil hrest =>
    obtain ⟨n, rfl⟩ := Nat.exists_eq_succ_of_ne_zero (by omega : n ≠ 0)
    exact trivia_of_startsToken hrest n
  | space hc hleads ih =>
    obtain ⟨n, rfl⟩ := Nat.exists_eq_succ_of_ne_zero (by omega : n ≠ 0)
    rw [trivia, if_pos hc, ih (by simpa using hn)]
    · rfl
    · rintro ds rfl -
      exact absurd hc (by decide)
    · rintro ds rfl -
      exact absurd hc (by decide)
  | line htext hhead hleads ih =>
    obtain ⟨n, rfl⟩ := Nat.exists_eq_succ_of_ne_zero (by omega : n ≠ 0)
    have hline : ∀ c ∈ _, decide (c ≠ '\n') = true := fun c hc ↦
      decide_eq_true fun h ↦ htext (h ▸ hc)
    have hend : ∀ c ∈ _, decide (c ≠ '\n') = false := fun c hc ↦ by simpa using hhead c hc
    rw [trivia, takeWhile_append_eq hline hend, dropWhile_append_eq hline hend,
      ih (by simpa using hn)]
    rfl
  | block hblock hleads ih =>
    obtain ⟨n, rfl⟩ := Nat.exists_eq_succ_of_ne_zero (by omega : n ≠ 0)
    rw [trivia, hblock]
    simp only [Option.bind_eq_bind, Option.bind_some, ih (by simpa using hn)]
    rfl

theorem Leads.eq {cs rest : List Char} {lead : List Trivia} (h : Leads cs lead rest) :
    cs = charsOf lead ++ rest := by
  induction h with
  | nil => rfl
  | space _ _ ih => simp [Trivia.chars, ih]
  | line _ _ _ ih => simp [Trivia.chars, ih]
  | block _ _ ih => simp [Trivia.chars, ih]

theorem Leads.length_le {cs rest : List Char} {lead : List Trivia} (h : Leads cs lead rest) :
    lead.length + rest.length ≤ cs.length := by
  induction h with
  | nil => simp
  | space _ _ ih => simp only [List.length_cons]; omega
  | line _ _ _ ih => simp only [List.length_cons, List.length_append]; omega
  | block _ _ ih => simp only [List.length_cons, List.length_append]; omega

theorem Leads.startsToken {cs rest : List Char} {lead : List Trivia} (h : Leads cs lead rest) :
    StartsToken rest := by
  induction h with
  | nil hrest => exact hrest
  | space _ _ ih => exact ih
  | line _ _ _ ih => exact ih
  | block _ _ ih => exact ih

theorem Leads.unique {cs rest rest' : List Char} {lead lead' : List Trivia}
    (h : Leads cs lead rest) (h' : Leads cs lead' rest') : lead = lead' ∧ rest = rest' := by
  have hn := trivia_of_leads h (n := lead.length + lead'.length + 1) (by omega)
  have hn' := trivia_of_leads h' (n := lead.length + lead'.length + 1) (by omega)
  exact Prod.mk.inj (Option.some.inj (hn.symm.trans hn'))

theorem Leads.head?_append {cs rest : List Char} {lead : List Trivia} (h : Leads cs lead rest)
    (hne : lead ≠ []) (more : List Char) : (charsOf lead ++ more).head? = cs.head? := by
  cases h with
  | nil => exact absurd rfl hne
  | space => rfl
  | line => rfl
  | block => rfl

/-- Trivia in front of a token are read the same in front of further trivia. -/
theorem Leads.append {cs rest cs' rest' : List Char} {lead more : List Trivia}
    (h : Leads cs lead rest) (hne : rest ≠ []) (h' : Leads cs' more rest') :
    Leads (charsOf lead ++ cs') (lead ++ more) rest' := by
  induction h with
  | nil => exact h'
  | space hc _ ih => exact .space hc (ih hne)
  | @line text cs rest lead htext hhead hleads ih =>
    rw [charsOf_cons, Trivia.chars, List.append_assoc]
    refine .line htext ?_ (ih hne)
    by_cases hlead : lead = []
    · subst hlead
      cases hleads with
      | nil hstart =>
        obtain ⟨c, rest, rfl⟩ := List.exists_cons_of_ne_nil hne
        obtain rfl := hhead c rfl
        exact absurd hstart.1 (by decide)
    · rwa [hleads.head?_append hlead]
  | block hblock hleads ih =>
    rw [charsOf_cons, Trivia.chars, List.append_assoc]
    exact .block ((blockComment_eq_some hblock).2.2 _) (ih hne)

/-- Trivia are read the same in front of another token. -/
theorem Leads.before {cs rest rest' : List Char} {lead : List Trivia} (h : Leads cs lead rest)
    (hne : rest ≠ []) (hrest : StartsToken rest') : Leads (charsOf lead ++ rest') lead rest' := by
  simpa using h.append hne (.nil hrest)

/-- What stands after a line feed among the trivia may be exchanged. -/
theorem Leads.exchange {as bs bs' : List Trivia} {cs cs' rest rest' : List Char}
    (h : Leads cs (as ++ .space '\n' :: bs) rest) (h' : Leads cs' (.space '\n' :: bs') rest') :
    Leads (charsOf as ++ cs') (as ++ .space '\n' :: bs') rest' := by
  induction as generalizing cs with
  | nil => exact h'
  | cons a as ih =>
    cases h with
    | space hc hleads => exact .space hc (ih hleads)
    | line htext hhead hleads =>
      rw [charsOf_cons, Trivia.chars, List.append_assoc]
      refine .line htext ?_ (ih hleads)
      rw [hleads.eq] at hhead
      rw [h'.eq]
      simpa [Trivia.chars] using hhead
    | block hblock hleads =>
      rw [charsOf_cons, Trivia.chars, List.append_assoc]
      exact .block ((blockComment_eq_some hblock).2.2 _) (ih hleads)

inductive Readable : Trivia → Prop
  | space {c : Char} : isSpace c → Readable (.space c)
  | line {text : List Char} : '\n' ∉ text → Readable (.line ('/' :: '/' :: text))
  | block {text : List Char} : text.getLast? = some '/' → Readable (.block ('/' :: '*' :: text))

theorem Leads.readable {cs rest : List Char} {lead : List Trivia} (h : Leads cs lead rest) :
    ∀ t ∈ lead, Readable t := by
  induction h with
  | nil => simp
  | space hc _ ih => exact List.forall_mem_cons.2 ⟨.space hc, ih⟩
  | line htext _ _ ih => exact List.forall_mem_cons.2 ⟨.line htext, ih⟩
  | block hblock _ ih => exact List.forall_mem_cons.2 ⟨.block (blockComment_eq_some hblock).2.1, ih⟩

theorem Readable.chars_ne_nil {t : Trivia} (h : Readable t) : t.chars ≠ [] := by
  cases h <;> simp [Trivia.chars]

/-- Only a line feed between tokens ends with one. -/
theorem Readable.eq_newline {t : Trivia} (h : Readable t) (hlast : t.chars.getLast? = some '\n') :
    t = .space '\n' := by
  cases h with
  | space hc => simpa [Trivia.chars] using hlast
  | @line text htext =>
    rw [Trivia.chars, List.getLast?_cons, List.getLast?_cons] at hlast
    cases htail : text.getLast? with
    | none => simp [htail] at hlast
    | some c =>
      have hc : c = '\n' := by simpa [htail] using hlast
      exact absurd (List.mem_of_getLast? (hc ▸ htail)) htext
  | block hslash => simp [Trivia.chars, List.getLast?_cons, hslash] at hlast

theorem getLast?_of_readable {lead : List Trivia} (h : ∀ t ∈ lead, Readable t)
    (hlast : (charsOf lead).getLast? = some '\n') : lead.getLast? = some (.space '\n') := by
  cases hlead : lead.getLast? with
  | none => simp [List.getLast?_eq_none_iff.1 hlead] at hlast
  | some t =>
    obtain ⟨front, rfl⟩ := List.getLast?_eq_some_iff.1 hlead
    have ht : Readable t := h t (by simp)
    have hchars : t.chars.getLast? = some '\n' := by
      cases htchars : t.chars.getLast? with
      | none => exact absurd (List.getLast?_eq_none_iff.1 htchars) ht.chars_ne_nil
      | some c => simpa [htchars] using hlast
    rw [ht.eq_newline hchars]

end HandlerDocs.Code.Lexer
