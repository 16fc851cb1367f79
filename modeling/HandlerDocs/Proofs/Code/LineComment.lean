import HandlerDocs.Proofs.Code.Comment
import HandlerDocs.Proofs.Code.Relex

namespace HandlerDocs.Code

open Lexer

/-- A comment that runs to the end of its line, with all the text in front of it. What follows the
last token counts as the lead of an empty one. -/
def IsLineComment (source front text : List Char) : Prop :=
  ∃ ts tail as t bs ls rs, tokens source = some (ts, tail) ∧
    ts ++ [⟨tail, .stop, ""⟩] = as ++ t :: bs ∧ t.lead = ls ++ .line text :: rs ∧
    front = textOf as ++ charsOf ls

def StartsLine (front : List Char) : Prop :=
  ∀ c ∈ front.getLast?, c = '\n'

namespace Lexer

theorem Leads.exists_after_line {cs rest text : List Char} {ls rs : List Trivia}
    (h : Leads cs (ls ++ .line text :: rs) rest) :
    '\n' ∉ text ∧ ∃ after, cs = charsOf ls ++ text ++ after ∧ ∀ c ∈ after.head?, c = '\n' := by
  induction ls generalizing cs with
  | nil =>
    cases h with
    | @line body cs rest lead hbody hhead _ => exact ⟨by simpa using hbody, cs, by simp, hhead⟩
  | cons t ls ih =>
    cases h with
    | space _ hmore =>
      obtain ⟨htext, after, rfl, hhead⟩ := ih hmore
      exact ⟨htext, after, by simp [Trivia.chars], hhead⟩
    | line _ _ hmore =>
      obtain ⟨htext, after, rfl, hhead⟩ := ih hmore
      exact ⟨htext, after, by simp [Trivia.chars], hhead⟩
    | block _ hmore =>
      obtain ⟨htext, after, rfl, hhead⟩ := ih hmore
      exact ⟨htext, after, by simp [Trivia.chars], hhead⟩

theorem eq_of_charsOf_eq {as bs as' bs' : List Trivia} (h : as ++ bs = as' ++ bs')
    (hread : ∀ t ∈ as ++ bs, Readable t) (hchars : charsOf as = charsOf as') : as = as' := by
  have hnil {xs : List Trivia} (hxs : ∀ t ∈ xs, Readable t) (hempty : charsOf xs = []) :
      xs = [] := by
    cases xs with
    | nil => rfl
    | cons t xs =>
      rw [charsOf_cons, List.append_eq_nil_iff] at hempty
      exact absurd hempty.1 (hxs t (by simp)).chars_ne_nil
  rcases List.append_eq_append_iff.1 h with ⟨more, rfl, hbs⟩ | ⟨more, rfl, hbs⟩
  · rw [charsOf_append, List.self_eq_append_right] at hchars
    rw [hnil (fun t ht ↦ hread t (by simp [hbs, ht])) hchars, List.append_nil]
  · rw [charsOf_append, eq_comm, List.self_eq_append_right] at hchars
    rw [hnil (fun t ht ↦ hread t (by simp [ht])) hchars, List.append_nil]

namespace Lexed

variable {ends : Bool} {cs : List Char} {ts : List Token} {tail : List Trivia}

theorem exists_after_line (h : Lexed ends cs ts tail) {as bs : List Token} {t : Token}
    {ls rs : List Trivia} {text : List Char} (hts : ts ++ [⟨tail, .stop, ""⟩] = as ++ t :: bs)
    (hlead : t.lead = ls ++ .line text :: rs) :
    '\n' ∉ text ∧ ∃ after, cs = textOf as ++ charsOf ls ++ text ++ after ∧
      ∀ c ∈ after.head?, c = '\n' := by
  induction h generalizing as with
  | done hleads =>
    cases as with
    | nil =>
      obtain ⟨rfl, -⟩ := List.cons.inj hts
      obtain rfl : _ = ls ++ .line text :: rs := hlead
      exact hleads.exists_after_line
    | cons => simp at hts
  | stop _ _ ih =>
    cases as with
    | nil =>
      obtain ⟨rfl, -⟩ := List.cons.inj hts
      simp at hlead
    | cons u as =>
      obtain ⟨rfl, hmore⟩ := List.cons.inj hts
      simpa [Token.chars] using ih hmore
  | token hleads _ htoken _ ih =>
    cases as with
    | nil =>
      obtain ⟨rfl, -⟩ := List.cons.inj hts
      obtain rfl : _ = ls ++ .line text :: rs := hlead
      exact hleads.exists_after_line
    | cons u as =>
      obtain ⟨rfl, hmore⟩ := List.cons.inj hts
      obtain ⟨htext, after, hrest, hhead⟩ := ih hmore
      refine ⟨htext, after, ?_, hhead⟩
      rw [hleads.eq, (lexeme_of_token htoken).eq, hrest]
      simp [Token.chars, charsOf]

/-- Only a semicolon that is not written has no text, and nothing stands in front of it. -/
theorem text_ne_empty (h : Lexed ends cs ts tail) {t : Token} (ht : t ∈ ts) (hlead : t.lead ≠ []) :
    t.text.toList ≠ [] := by
  induction h with
  | done => simp at ht
  | stop _ _ ih =>
    rcases List.mem_cons.1 ht with rfl | ht
    · exact absurd rfl hlead
    · exact ih ht
  | token _ _ htoken _ ih =>
    rcases List.mem_cons.1 ht with rfl | ht
    · simpa using (lexeme_of_token htoken).ne_nil
    · exact ih ht

/-- The text up to a comment tells the token it stands in front of, and what is in between. -/
theorem eq_of_textOf_eq {before after as bs : List Token} {t u : Token}
    {above below ls rs : List Trivia} {text : List Char}
    (h : Lexed ends cs (before ++ u :: after) tail)
    (hts : before ++ u :: after ++ [⟨tail, .stop, ""⟩] = as ++ t :: bs)
    (hu : u.lead = above ++ below) (hbelow : charsOf below ≠ [])
    (ht : t.lead = ls ++ .line text :: rs)
    (heq : textOf as ++ charsOf ls ++ text = textOf before ++ charsOf above) :
    as = before ∧ above = ls ++ [.line text] := by
  rw [List.append_assoc, List.cons_append] at hts
  have hsame (has : as = before) (htu : t = u) : as = before ∧ above = ls ++ [.line text] := by
    subst has htu
    refine ⟨rfl, @eq_of_charsOf_eq above below (ls ++ [.line text]) rs ?_ ?_ ?_⟩
    · rw [← hu, ht, List.append_assoc, List.singleton_append]
    · rw [← hu]
      exact h.readable t (by simp)
    · rw [List.append_assoc, List.append_cancel_left_eq] at heq
      simpa [Trivia.chars] using heq.symm
  have hlength := congrArg List.length heq
  have hbelow' := List.length_pos_iff.2 hbelow
  simp only [List.length_append] at hlength
  rcases List.append_eq_append_iff.1 hts with ⟨mid, rfl, hmid⟩ | ⟨mid, rfl, hmid⟩
  · cases mid with
    | nil => exact hsame (by simp) (List.cons.inj hmid).1.symm
    | cons v mid =>
      -- The comment would stand behind the token.
      obtain ⟨rfl, -⟩ := List.cons.inj hmid
      have hchars : u.chars = charsOf above ++ charsOf below ++ u.text.toList := by
        rw [Token.chars, ← charsOf, hu, charsOf_append]
      simp only [textOf_append, textOf_cons, hchars, List.length_append] at hlength
      omega
  · cases mid with
    | nil => exact hsame (by simp) (List.cons.inj hmid).1
    | cons v mid =>
      -- The token that the comment stands in front of would have no text.
      obtain ⟨rfl, -⟩ := List.cons.inj hmid
      have hchars : t.chars = charsOf ls ++ text ++ charsOf rs ++ t.text.toList := by
        rw [Token.chars, ← charsOf, ht]
        simp [Trivia.chars]
      have htext := List.length_pos_iff.2 (h.text_ne_empty (t := t) (by simp) (by simp [ht]))
      simp only [textOf_append, textOf_cons, hchars, List.length_append] at hlength
      omega

end Lexed

end Lexer

/-- A line of text that is followed by a line feed reaches up to the place below it. -/
theorem eq_of_count_newline {front text rest place : List Char}
    (h : place ++ ['\n'] <+: front ++ text ++ rest) (htext : '\n' ∉ text)
    (hrest : ∀ c ∈ rest.head?, c = '\n')
    (hrows : front.count '\n' + 1 = (place ++ ['\n']).count '\n') : front ++ text = place := by
  obtain ⟨more, hmore⟩ := h
  have hline : text.count '\n' = 0 := List.count_eq_zero.2 htext
  rcases List.append_eq_append_iff.1 hmore with ⟨gap, hgap, -⟩ | ⟨gap, hgap, rfl⟩
  · -- The place cannot be above the line.
    have hcount := congrArg (List.count '\n') hgap
    simp only [List.count_append, hline] at hcount hrows
    omega
  · have hcount : front.count '\n' + 1 = front.count '\n' + gap.count '\n' := by
      rw [hrows, hgap, List.count_append, List.count_append, hline, Nat.add_zero]
    obtain ⟨c, gap, rfl⟩ : ∃ c more, gap = c :: more :=
      List.exists_cons_of_ne_nil (by rintro rfl; simp at hcount)
    obtain rfl : c = '\n' := hrest c rfl
    have hnone : '\n' ∉ gap := List.count_eq_zero.1 (by rw [List.count_cons_self] at hcount; omega)
    cases gap using List.reverseRecOn with
    | nil => exact (List.append_cancel_right hgap).symm
    | append_singleton gap c =>
      have hsplit : place ++ ['\n'] = (front ++ text ++ '\n' :: gap) ++ [c] := by simpa using hgap
      obtain rfl : '\n' = c := List.singleton_inj.1 (List.append_inj' hsplit rfl).2
      simp at hnone

namespace DocComment

/-- Where a comment cannot be continued upwards, no line comment in the first column stands on the
line above. -/
theorem not_isLineComment_above {source front text : List Char} {before after : List Token}
    {tail above below : List Trivia} {kind : TokenKind} {word : String}
    (h : Lexed false source (before ++ ⟨above ++ .space '\n' :: below, kind, word⟩ :: after) tail)
    (hbefore : textOf before ≠ []) (htop : run (.space '\n' :: above.reverse) = [])
    (hcomment : IsLineComment source front text) (hfront : StartsLine front) :
    front.count '\n' + 1 ≠ (textOf before ++ charsOf above ++ ['\n']).count '\n' := by
  obtain ⟨ts, tail', as, t, bs, ls, rs, htokens, hts, hlead, rfl⟩ := hcomment
  rw [tokens_eq_some_iff.2 h, Option.some.injEq, Prod.mk.injEq] at htokens
  obtain ⟨rfl, rfl⟩ := htokens
  obtain ⟨htext, rest, hsource, hrest⟩ := h.exists_after_line hts hlead
  intro hrows
  have hplace : textOf before ++ charsOf above ++ ['\n'] <+: source := by
    refine ⟨charsOf below ++ word.toList ++ textOf after ++ charsOf tail, ?_⟩
    rw [h.eq]
    simp [Token.chars, Trivia.chars, charsOf]
  rw [hsource] at hplace
  have hupto := eq_of_count_newline hplace htext hrest hrows
  obtain ⟨rfl, rfl⟩ := h.eq_of_textOf_eq hts rfl (by simp [Trivia.chars]) hlead hupto
  -- The comment is the last thing above, and a line feed is in front of it: it would continue.
  have hread := h.readable ⟨ls ++ [.line text] ++ .space '\n' :: below, kind, word⟩ (by simp)
  have hlast : ls.getLast? = some (.space '\n') := by
    have hne : textOf as ++ charsOf ls ≠ [] := by simp [hbefore]
    have hfeed : (textOf as ++ charsOf ls).getLast? = some '\n' := by
      rw [List.getLast?_eq_some_getLast hne, hfront _ (List.getLast_mem_getLast? hne)]
    rw [List.getLast?_append] at hfeed
    cases hls : (charsOf ls).getLast? with
    | none =>
      rw [hls, Option.none_or] at hfeed
      exact absurd hfeed (h.getLast?_textOf rfl)
    | some c =>
      rw [hls, Option.some_or] at hfeed
      exact getLast?_of_readable (fun t ht ↦ hread t (by simp [ht])) (hls.trans hfeed)
  obtain ⟨ls, rfl⟩ := List.getLast?_eq_some_iff.1 hlast
  simp [run] at htop

end DocComment

end HandlerDocs.Code
