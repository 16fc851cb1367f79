import HandlerDocs.Proofs.Code.Comment
import HandlerDocs.Proofs.Code.Relex

namespace HandlerDocs.Code

def Token.word (t : Token) : TokenKind × String :=
  (t.kind, t.text)

theorem Lexer.Respaced.map_word {after : Bool} {ts us : List Token} (h : Respaced after ts us) :
    us.map Token.word = ts.map Token.word := by
  induction h with
  | nil => rfl
  | cons _ _ ih => rw [List.map_cons, List.map_cons, ih]; rfl

theorem flatten_pieces (depth : ℕ) (ts : List Token) : (pieces depth ts).flatten = ts := by
  induction ts generalizing depth with
  | nil => rfl
  | cons t ts ih =>
    rw [pieces]
    split
    · rw [List.flatten_cons, ih, List.singleton_append]
    · have hrest := ih (depthAfter depth t)
      split
      · rename_i hpieces
        rw [← hrest, hpieces]
        rfl
      · rename_i piece more hpieces
        rw [← hrest, hpieces]
        rfl

/-- All pieces but the last end with the semicolon they are cut after. -/
theorem getLast?_of_mem_dropLast_pieces (depth : ℕ) (ts : List Token) :
    ∀ piece ∈ (pieces depth ts).dropLast, piece.getLast?.any (·.kind = .stop) := by
  induction ts generalizing depth with
  | nil => simp [pieces]
  | cons t ts ih =>
    rw [pieces]
    split
    · rename_i hstop
      simp only [Bool.and_eq_true, decide_eq_true_eq] at hstop
      cases hrest : pieces 0 ts with
      | nil => simp
      | cons piece more =>
        rw [List.dropLast_cons_of_ne_nil (by simp), ← hrest]
        exact List.forall_mem_cons.2 ⟨by simpa using hstop.1, ih 0⟩
    · have hmore := ih (depthAfter depth t)
      split
      · simp
      · rename_i piece more hpieces
        rw [hpieces] at hmore
        cases more with
        | nil => simp
        | cons next more =>
          rw [List.dropLast_cons_of_ne_nil (by simp), List.forall_mem_cons] at hmore ⊢
          refine ⟨?_, hmore.2⟩
          cases piece with
          | nil => simp at hmore
          | cons u piece => simpa [List.getLast?_cons_cons] using hmore.1

theorem map_length_pieces {ts us : List Token} (h : us.map Token.word = ts.map Token.word)
    (depth : ℕ) : (pieces depth us).map List.length = (pieces depth ts).map List.length := by
  induction ts generalizing us depth with
  | nil =>
    obtain rfl := List.map_eq_nil_iff.1 h
    rfl
  | cons t ts ih =>
    obtain ⟨u, us, rfl, hword, hrest⟩ := List.map_eq_cons_iff.1 h
    obtain ⟨hkind, htext⟩ := Prod.mk.inj hword
    have hafter : depthAfter depth u = depthAfter depth t := by
      rw [depthAfter, depthAfter, hkind, htext]
    rw [pieces, pieces, hkind, hafter]
    split
    · rw [List.map_cons, List.map_cons, ih hrest 0]
      rfl
    · have hmore := ih hrest (depthAfter depth t)
      cases hus : pieces (depthAfter depth t) us with
      | nil =>
        rw [hus, List.map_nil, eq_comm, List.map_eq_nil_iff] at hmore
        rw [hmore]
        rfl
      | cons piece more =>
        rw [hus, List.map_cons, eq_comm] at hmore
        obtain ⟨piece', more', hts, hpiece, hlengths⟩ := List.map_eq_cons_iff.1 hmore
        rw [hts]
        simp [hpiece, hlengths]

/-- Code is cut at the same tokens whatever stands between them. -/
theorem pieces_eq_of_map_word {ts us : List Token} (h : us.map Token.word = ts.map Token.word)
    {depth : ℕ} {qs : List (List Token)} (hflat : qs.flatten = us)
    (hlength : qs.map List.length = (pieces depth ts).map List.length) : pieces depth us = qs :=
  List.eq_iff_flatten_eq.2
    ⟨(flatten_pieces depth us).trans hflat.symm, (map_length_pieces h depth).trans hlength.symm⟩

namespace Grammar

open Parse

variable {g : Grammar}

theorem function_singleton (t : Token) : g.function [t] = none := by
  have hkeyword :
      keyword "func" [t] = if isNext .keyword "func" t then some ((), []) else none := by
    change Option.bind
      ((if isNext .keyword "func" t then pure t else failure : Parse Token) []) _ = _
    split <;> rfl
  change Option.bind (keyword "func" [t]) _ = none
  rw [hkeyword]
  split <;> rfl

theorem map_eq_some {α β : Type} {f : α → β} {p : Parse α} {ts rest : List Token} {b : β}
    (h : (f <$> p) ts = some (b, rest)) : ∃ a, p ts = some (a, rest) ∧ f a = b := by
  change (p ts).bind (fun r ↦ some (f r.1, r.2)) = _ at h
  obtain ⟨⟨a, rest'⟩, ha, hpair⟩ := Option.bind_eq_some_iff.1 h
  obtain ⟨rfl, rfl⟩ := Prod.mk.inj (Option.some.inj hpair)
  exact ⟨a, ha, rfl⟩

theorem bind_eq_some {α β : Type} {p : Parse α} {f : α → Parse β} {ts rest : List Token} {b : β}
    (h : (p >>= f) ts = some (b, rest)) :
    ∃ a mid, p ts = some (a, mid) ∧ f a mid = some (b, rest) := by
  obtain ⟨⟨a, mid⟩, ha, hb⟩ := Option.bind_eq_some_iff.1 h
  exact ⟨a, mid, ha, hb⟩

theorem declAt_eq_function {t : Token} {ts rest : List Token} {signature : Signature}
    (h : g.declAt t ts = some (.function signature, rest)) :
    t.kind = .keyword ∧ t.text = "func" ∧ g.function ts = some (signature, rest) := by
  obtain ⟨p, hp, hrun⟩ : ∃ p, g.declAt t = p ∧ p ts = some (.function signature, rest) :=
    ⟨_, rfl, h⟩
  rw [declAt] at hp
  simp only [bind_pure_comp] at hp
  split at hp
  case h_5 hkind htext =>
    subst hp
    obtain ⟨signature, hfunction, ⟨⟩⟩ := map_eq_some hrun
    exact ⟨hkind, htext, hfunction⟩
  case h_6 =>
    subst hp
    cases hrun
  -- the other keywords declare something else
  all_goals
    subst hp
    obtain ⟨_, _, -, hrest⟩ := bind_eq_some hrun
    obtain ⟨_, -, ⟨⟩⟩ := map_eq_some hrest

/-- A declaration of a function starts with its keyword, and is not that alone. -/
theorem exists_func_of_declOf? {piece : List Token} {signature : Signature}
    (h : g.declOf? piece = some (some (.function signature))) :
    ∃ lead more, piece = ⟨lead, .keyword, "func"⟩ :: more ∧ more ≠ [] := by
  rw [declOf?] at h
  split at h
  · cases h
  · obtain ⟨⟨decl, rest⟩, hdecl, hrest⟩ := Option.bind_eq_some_iff.1 h
    dsimp only at hrest
    split at hrest
    · obtain rfl := Option.some.inj (Option.some.inj hrest)
      cases piece with
      | nil => cases hdecl
      | cons t more =>
        obtain ⟨hkind, htext, hfunction⟩ := declAt_eq_function (t := t) hdecl
        refine ⟨t.lead, more, by rw [← hkind, ← htext], ?_⟩
        rintro rfl
        rw [function_singleton] at hfunction
        cases hfunction
    · cases hrest

/-- What precedes a function does not tell what it is. -/
theorem declOf?_lead (lead lead' : List Trivia) (more : List Token) :
    g.declOf? (⟨lead, .keyword, "func"⟩ :: more) = g.declOf? (⟨lead', .keyword, "func"⟩ :: more) :=
  rfl

end Grammar

end HandlerDocs.Code
