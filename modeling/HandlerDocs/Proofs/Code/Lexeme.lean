import HandlerDocs.Proofs.Code.Lookahead

namespace HandlerDocs.Code.Lexer

theorem hasCode_append {c : Char} {text rest : List Char} (hquote : '\x22' ∈ text)
    (h : hasCode c (text ++ rest)) (more : List Char) : hasCode c (text ++ more) := by
  simp only [hasCode, Bool.and_eq_true, decide_eq_true_eq] at h ⊢
  by_cases hlen : codeLength c ≤ text.length
  · rw [List.take_append_of_le_length hlen] at h ⊢
    exact h
  · -- the digits asked for would reach past the quote
    have hmem : '\x22' ∈ (text ++ rest).take (codeLength c) := by
      rw [List.take_append]
      exact List.mem_append_left _ (by rwa [List.take_of_length_le (by omega)])
    exact absurd (List.all_eq_true.1 h.2 _ hmem) (by decide)

theorem stringRest_eq_some {cs text rest : List Char} (h : stringRest cs = some (text, rest)) :
    cs = text ++ rest ∧ text.getLast? = some '\x22' ∧
      ∀ more, stringRest (text ++ more) = some (text, more) := by
  fun_induction stringRest cs generalizing text with
  | case1 rest =>
    obtain ⟨rfl, rfl⟩ := Prod.mk.inj (Option.some.inj h)
    exact ⟨rfl, rfl, fun more ↦ rfl⟩
  | case2 => simp at h
  | case3 c cs hcond ih =>
    obtain ⟨⟨inner, after⟩, hinner, hpair⟩ := Option.map_eq_some_iff.1 h
    obtain ⟨rfl, rfl⟩ := Prod.mk.inj hpair
    obtain ⟨rfl, hquote, hmore⟩ := ih hinner
    refine ⟨rfl, by simp [List.getLast?_cons, hquote], fun more ↦ ?_⟩
    simp only [Bool.or_eq_true, decide_eq_true_eq, Bool.not_eq_true', not_or,
      Bool.not_eq_false] at hcond
    have hcode := hasCode_append (List.mem_of_getLast? hquote) hcond.2 more
    rw [List.cons_append, List.cons_append, stringRest, if_neg (by simp [hcond.1, hcode]), hmore]
    rfl
  | case4 => simp at h
  | case5 c cs hquote' hescape hc ih =>
    obtain ⟨⟨inner, after⟩, hinner, hpair⟩ := Option.map_eq_some_iff.1 h
    obtain ⟨rfl, rfl⟩ := Prod.mk.inj hpair
    obtain ⟨rfl, hquote, hmore⟩ := ih hinner
    refine ⟨rfl, by simp [List.getLast?_cons, hquote], fun more ↦ ?_⟩
    obtain ⟨d, inner, rfl⟩ := List.exists_cons_of_ne_nil
      (List.ne_nil_of_mem (List.mem_of_getLast? hquote))
    rw [List.cons_append, stringRest, if_neg hc, hmore]
    · rfl
    · exact hquote'
    · rintro e es hslash -
      exact hescape d _ hslash rfl
  | case6 => simp at h

theorem rawRest_eq_some {cs text rest : List Char} (h : rawRest cs = some (text, rest)) :
    cs = text ++ rest ∧ text.getLast? = some '\x60' ∧
      ∀ more, rawRest (text ++ more) = some (text, more) := by
  fun_induction rawRest cs generalizing text with
  | case1 => simp at h
  | case2 cs =>
    obtain ⟨rfl, rfl⟩ := Prod.mk.inj (Option.some.inj h)
    exact ⟨rfl, rfl, fun more ↦ rfl⟩
  | case3 c cs hc ih =>
    obtain ⟨⟨inner, after⟩, hinner, hpair⟩ := Option.map_eq_some_iff.1 h
    obtain ⟨rfl, rfl⟩ := Prod.mk.inj hpair
    obtain ⟨rfl, hquote, hmore⟩ := ih hinner
    refine ⟨rfl, by simp [List.getLast?_cons, hquote], fun more ↦ ?_⟩
    rw [List.cons_append, rawRest, if_neg hc, hmore]
    rfl

theorem escapeLength?_eq_some {cs : List Char} {n : ℕ} (h : escapeLength? cs = some n) :
    n ≤ cs.length ∧ ∀ more, escapeLength? (cs.take n ++ more) = some n := by
  cases cs with
  | nil => simp [escapeLength?] at h
  | cons c cs =>
    rw [escapeLength?] at h
    split at h
    · rename_i hpos
      split at h
      · rename_i hcode
        obtain rfl := Option.some.inj h
        have htake := hcode
        simp only [hasCode, Bool.and_eq_true, decide_eq_true_eq] at htake
        have hlen : codeLength c ≤ cs.length := by
          rw [List.length_take] at htake
          omega
        refine ⟨by simp only [List.length_cons]; omega, fun more ↦ ?_⟩
        rw [Nat.add_comm, List.take_succ_cons, List.cons_append, escapeLength?, if_pos hpos, if_pos,
          Nat.add_comm]
        simp only [hasCode, Bool.and_eq_true, decide_eq_true_eq]
        rwa [List.take_append_of_le_length (by rw [htake.1]), List.take_take, Nat.min_self]
      · simp at h
    · rename_i hpos
      split at h
      · rename_i hoctal
        split at h
        · rename_i hdigits
          obtain rfl := Option.some.inj h
          simp only [Bool.and_eq_true, decide_eq_true_eq] at hdigits
          have hlen : 2 ≤ cs.length := by
            rw [List.length_take] at hdigits
            omega
          refine ⟨by simp only [List.length_cons]; omega, fun more ↦ ?_⟩
          rw [List.take_succ_cons, List.cons_append, escapeLength?, if_neg hpos, if_pos hoctal,
            if_pos]
          simp only [Bool.and_eq_true, decide_eq_true_eq]
          rwa [List.take_append_of_le_length (by rw [hdigits.1]), List.take_take, Nat.min_self]
        · simp at h
      · rename_i hoctal
        split at h
        · rename_i hmark
          obtain rfl := Option.some.inj h
          refine ⟨by simp, fun more ↦ ?_⟩
          rw [List.take_succ_cons, List.cons_append, escapeLength?, if_neg hpos, if_neg hoctal,
            if_pos hmark]
        · simp at h

theorem runeLength?_eq_some {cs : List Char} {n : ℕ} (h : runeLength? cs = some n) :
    n ≤ cs.length ∧ ∀ more, runeLength? (cs.take n ++ more) = some n := by
  fun_cases runeLength? cs with
  | case1 => simp [runeLength?] at h
  | case2 cs =>
    obtain ⟨m, hm, rfl⟩ := Option.map_eq_some_iff.1 h
    obtain ⟨hlen, hmore⟩ := escapeLength?_eq_some hm
    refine ⟨by simpa using hlen, fun more ↦ ?_⟩
    rw [List.take_succ_cons, List.cons_append, runeLength?, hmore]
    rfl
  | case3 c cs hslash hc =>
    rw [runeLength?, if_pos hc] at h
    · simp at h
    · exact hslash
  | case4 c cs hslash hc =>
    rw [runeLength?, if_neg hc] at h
    swap
    · exact hslash
    obtain rfl := Option.some.inj h
    refine ⟨by simp, fun more ↦ ?_⟩
    rw [List.take_succ_cons, List.take_zero, List.singleton_append, runeLength?, if_neg hc]
    exact hslash

theorem runeRest_eq_some {cs text rest : List Char} (h : runeRest cs = some (text, rest)) :
    cs = text ++ rest ∧ text.getLast? = some '\x27' ∧
      ∀ more, runeRest (text ++ more) = some (text, more) := by
  simp only [runeRest, Option.bind_eq_bind, Option.bind_eq_some_iff] at h
  obtain ⟨n, hn, h⟩ := h
  obtain ⟨hlen, hmore⟩ := runeLength?_eq_some hn
  split at h
  · rename_i after hdrop
    obtain ⟨rfl, rfl⟩ := Prod.mk.inj (Option.some.inj h)
    have hcs : cs = cs.take n ++ ['\x27'] ++ after := by
      rw [List.append_assoc, List.singleton_append, ← hdrop, List.take_append_drop]
    refine ⟨hcs, by simp, fun more ↦ ?_⟩
    have htake : (cs.take n).length = n := by rw [List.length_take, Nat.min_eq_left hlen]
    rw [List.append_assoc, List.singleton_append, runeRest, hmore]
    simp only [Option.bind_eq_bind, Option.bind_some]
    rw [List.drop_left' htake, List.take_left' htake]
    rfl
  · simp at h

theorem not_breaks_of_mem_symbols {symbol : List Char} (h : symbol ∈ symbols) :
    ∀ c ∈ symbol, ¬ breaks c := by
  have hall : symbols.all (·.all (! breaks ·)) = true := by decide
  intro c hc
  simpa using List.all_eq_true.1 (List.all_eq_true.1 hall symbol h) c hc

theorem isPrefixOf_upToBreak {text : List Char} (htext : ∀ c ∈ text, ¬ breaks c) (cs : List Char) :
    text.isPrefixOf (upToBreak cs) = text.isPrefixOf cs := by
  induction text generalizing cs with
  | nil => simp
  | cons c text ih =>
    rw [List.forall_mem_cons] at htext
    cases cs with
    | nil => rfl
    | cons d cs =>
      rw [upToBreak_cons]
      by_cases hd : breaks d
      · have hne : c ≠ d := fun heq ↦ htext.1 (heq ▸ hd)
        simp [hd, hne, List.isPrefixOf]
      · simp [hd, ih htext.2, List.isPrefixOf]

theorem findSymbol_upToBreak (cs : List Char) :
    symbols.find? (·.isPrefixOf (upToBreak cs)) = symbols.find? (·.isPrefixOf cs) := by
  refine List.find?_congr fun symbol hsymbol ↦ ?_
  exact isPrefixOf_upToBreak (not_breaks_of_mem_symbols hsymbol) cs

theorem ne_nil_of_mem_symbols {symbol : List Char} (h : symbol ∈ symbols) : symbol ≠ [] := by
  revert symbol
  decide

def startsNumber (c : Char) (cs : List Char) : Bool :=
  c.isDigit || (c = '.' && cs.head?.any Char.isDigit)

theorem digits_ne_nil {digit : Char → Bool} {c : Char} (hc : digit c) (hbar : c ≠ '_')
    (cs : List Char) : digits digit (c :: cs) ≠ [] := by
  rw [digits, if_neg (by simpa using hbar), digitRun_cons hc]
  simp

theorem decimalNumber_ne_nil {c : Char} {cs : List Char} (h : startsNumber c cs) :
    (decimalNumber (c :: cs)).2 ≠ [] := by
  rw [decimalNumber]
  split
  · simp
  · split
    · rename_i hparts
      simp only [Bool.not_eq_true', Bool.and_eq_false_iff, List.isEmpty_eq_false_iff] at hparts
      rcases hparts with hpart | hpower
      · simp [hpart]
      · simp [hpower]
    · split
      · rename_i hzero
        obtain ⟨rest, hrest⟩ := List.head?_eq_some_iff.1 hzero
        obtain ⟨more, hmore⟩ := isPrefix_digits Char.isDigit (c :: cs)
        rw [hrest] at hmore
        obtain rfl := (List.cons.inj hmore).1
        exact digits_ne_nil (by decide : isOctalDigit '0') (by decide) cs
      · rename_i hparts hzero
        simp only [startsNumber, Bool.or_eq_true, Bool.and_eq_true, decide_eq_true_eq] at h
        rcases h with hdigit | ⟨rfl, hnext⟩
        · refine digits_ne_nil hdigit ?_ cs
          rintro rfl
          exact absurd hdigit (by decide)
        · -- without digits before the point there is still a fraction
          have hwhole : digits Char.isDigit ('.' :: cs) = [] := by
            cases cs <;> simp [digits, digitRun]
          simp [hwhole, fraction] at hparts

theorem number_ne_nil {c : Char} {cs : List Char} (h : startsNumber c cs) :
    (number (c :: cs)).2 ≠ [] := by
  rw [number.eq_def]
  split
  · split
    · dsimp only
      split
      · simp
      · split <;> simp
    · exact decimalNumber_ne_nil h
  · exact decimalNumber_ne_nil h

theorem number_agree {text rest rest' : List Char} {kind : TokenKind}
    (h : number (text ++ rest) = (kind, text)) (hagree : Agree rest rest') :
    number (text ++ rest') = (kind, text) := by
  rw [← number_upToBreak, ← (hagree.append text).upToBreak_eq, number_upToBreak, h]

theorem nameKind_ne_stop (text : String) : nameKind text ≠ .stop := by
  rw [nameKind]
  split <;> nofun

theorem decimalNumber_ne_stop (cs : List Char) : (decimalNumber cs).1 ≠ .stop := by
  rw [decimalNumber]
  split
  · simp
  · split
    · simp
    · split <;> simp

theorem number_ne_stop (cs : List Char) : (number cs).1 ≠ .stop := by
  rw [number.eq_def]
  split
  · split
    · dsimp only
      split
      · simp
      · split
        · simp
        · rw [basedNumber]
          split <;> simp
    · exact decimalNumber_ne_stop _
  · exact decimalNumber_ne_stop _

section Classes

variable {c : Char} {cs : List Char}

theorem token_semicolon (cs : List Char) : token (';' :: cs) = some (.stop, [';'], cs) := by
  rfl

theorem token_name (hname : isNameStart c) : token (c :: cs) =
    some (nameKind (String.ofList (c :: cs.takeWhile isNamePart)), c :: cs.takeWhile isNamePart,
      cs.dropWhile isNamePart) := by
  have hpart : isNamePart c := by simp [isNamePart, hname]
  have hdrop : cs.drop (cs.takeWhile isNamePart).length = cs.dropWhile isNamePart := by
    have hsplit := List.takeWhile_append_dropWhile (p := isNamePart) (l := cs)
    exact List.append_cancel_left ((List.prefix_iff_eq_append.1 ⟨_, hsplit⟩).trans hsplit.symm)
  rw [token, if_pos hname, List.takeWhile_cons_of_pos hpart]
  dsimp only
  rw [List.length_cons, List.drop_succ_cons, hdrop]

theorem token_number (hname : ¬ isNameStart c) (hnumber : startsNumber c cs) : token (c :: cs) =
    some ((number (c :: cs)).1, (number (c :: cs)).2,
      (c :: cs).drop (number (c :: cs)).2.length) := by
  rw [token, if_neg hname]
  exact if_pos hnumber

def quoted? (c : Char) : Option (TokenKind × (List Char → Option (List Char × List Char))) :=
  if c = '\x22' then some (.string, stringRest)
  else if c = '\x60' then some (.string, rawRest)
  else if c = '\x27' then some (.rune, runeRest)
  else none

theorem quoted?_eq_some {kind : TokenKind} {read : List Char → Option (List Char × List Char)}
    (h : quoted? c = some (kind, read)) {text rest : List Char}
    (hread : read cs = some (text, rest)) :
    cs = text ++ rest ∧ text.getLast? = some c ∧
      ∀ more, read (text ++ more) = some (text, more) := by
  rw [quoted?] at h
  split at h
  · rename_i hc
    obtain ⟨-, rfl⟩ := Prod.mk.inj (Option.some.inj h)
    exact hc ▸ stringRest_eq_some hread
  · split at h
    · rename_i hc
      obtain ⟨-, rfl⟩ := Prod.mk.inj (Option.some.inj h)
      exact hc ▸ rawRest_eq_some hread
    · split at h
      · rename_i hc
        obtain ⟨-, rfl⟩ := Prod.mk.inj (Option.some.inj h)
        exact hc ▸ runeRest_eq_some hread
      · simp at h

theorem quoted?_ne_stop {kind : TokenKind} {read : List Char → Option (List Char × List Char)}
    (h : quoted? c = some (kind, read)) : kind ≠ .stop := by
  rintro rfl
  rw [quoted?] at h
  split at h
  · cases h
  · split at h
    · cases h
    · split at h <;> cases h

theorem token_other (hname : ¬ isNameStart c) (hnumber : ¬ startsNumber c cs) : token (c :: cs) =
    match quoted? c with
    | some (kind, read) => (read cs).map fun r ↦ (kind, c :: r.1, r.2)
    | none =>
      if c = ';' then some (.stop, [c], cs)
      else (symbols.find? (·.isPrefixOf (c :: cs))).map fun s ↦
        (.symbol, s, (c :: cs).drop s.length) := by
  rw [token, if_neg hname, quoted?]
  refine (if_neg hnumber).trans ?_
  split
  · rfl
  · split
    · rfl
    · split <;> rfl

variable {text rest : List Char} {kind : TokenKind}

/-- The text is read as this token from the front of `cs`, and also when what follows it changes
after a break. It does not end with a line, and only a semicolon is a `stop`. -/
structure Lexeme (cs : List Char) (kind : TokenKind) (text rest : List Char) : Prop where
  eq : cs = text ++ rest
  ne_nil : text ≠ []
  last : text.getLast? ≠ some '\n'
  stop : kind = .stop → text = [';']
  again : ∀ rest', Agree rest rest' → token (text ++ rest') = some (kind, text, rest')

theorem startsNumber_agree {rest' : List Char} (hcs : cs = text ++ rest)
    (hagree : Agree rest rest') :
    startsNumber c (text ++ rest') = startsNumber c cs := by
  rw [startsNumber, startsNumber, hcs, (hagree.append text).head?_eq]

theorem lexeme_name (hname : isNameStart c) (h : token (c :: cs) = some (kind, text, rest)) :
    Lexeme (c :: cs) kind text rest := by
  rw [token_name hname] at h
  simp only [Option.some.injEq, Prod.mk.injEq] at h
  obtain ⟨rfl, rfl, rfl⟩ := h
  have hpart : ∀ d ∈ cs.takeWhile isNamePart, isNamePart d := fun d ↦ List.mem_takeWhile_imp
  refine ⟨by simp, by simp, fun hlast ↦ ?_, fun hstop ↦ absurd hstop (nameKind_ne_stop _),
    fun rest' hagree ↦ ?_⟩
  · have hnewline : isNamePart '\n' = false := by decide
    rcases List.mem_cons.1 (List.mem_of_getLast? hlast) with rfl | hmem
    · simp [isNamePart, hname] at hnewline
    · simp [hpart _ hmem] at hnewline
  have hhead : ∀ d ∈ rest'.head?, isNamePart d = false := by
    intro d hd
    have hdrop := List.head?_dropWhile_not isNamePart cs
    rw [hagree.head?_eq, hd] at hdrop
    simpa using hdrop
  rw [List.cons_append, token_name hname, takeWhile_append_eq hpart hhead,
    dropWhile_append_eq hpart hhead]

theorem lexeme_number (hname : ¬ isNameStart c) (hnumber : startsNumber c cs)
    (h : token (c :: cs) = some (kind, text, rest)) : Lexeme (c :: cs) kind text rest := by
  rw [token_number hname hnumber] at h
  simp only [Option.some.injEq, Prod.mk.injEq] at h
  obtain ⟨hkind, htext, hrest⟩ := h
  have hpre := isPrefix_number (c :: cs)
  have hne := number_ne_nil hnumber
  rw [htext] at hpre hne hrest
  have hcs : c :: cs = text ++ rest := by rw [← hrest, List.prefix_iff_eq_append.1 hpre]
  refine ⟨hcs, hne, fun hlast ↦ ?_, fun hstop ↦ absurd (hkind.trans hstop) (number_ne_stop _),
    fun rest' hagree ↦ ?_⟩
  · have hline := isPrefix_number (upToBreak (c :: cs))
    rw [number_upToBreak, htext] at hline
    exact absurd (List.mem_takeWhile_imp (hline.mem (List.mem_of_getLast? hlast))) (by decide)
  have hagain : number (text ++ rest') = (kind, text) :=
    number_agree (by rw [← hcs, ← hkind, ← htext]) hagree
  obtain ⟨d, text, rfl⟩ := List.exists_cons_of_ne_nil hne
  obtain ⟨rfl, htail⟩ := List.cons.inj hcs
  rw [List.cons_append] at hagain ⊢
  rw [token_number hname (by rwa [startsNumber_agree htail hagree]), hagain]
  simp

theorem lexeme_quoted {read : List Char → Option (List Char × List Char)} {k : TokenKind}
    (hname : ¬ isNameStart c) (hnumber : ¬ startsNumber c cs) (hquoted : quoted? c = some (k, read))
    (h : token (c :: cs) = some (kind, text, rest)) : Lexeme (c :: cs) kind text rest := by
  rw [token_other hname hnumber, hquoted] at h
  obtain ⟨⟨body, after⟩, hbody, hpair⟩ := Option.map_eq_some_iff.1 h
  simp only [Prod.mk.injEq] at hpair
  obtain ⟨rfl, rfl, rfl⟩ := hpair
  obtain ⟨hcs, hquote, hmore⟩ := quoted?_eq_some hquoted hbody
  refine ⟨by rw [hcs]; rfl, by simp, ?_, fun hstop ↦ absurd hstop (quoted?_ne_stop hquoted),
    fun rest' hagree ↦ ?_⟩
  · rw [List.getLast?_cons, hquote, Option.getD_some]
    rintro ⟨⟩
    exact absurd hquoted (by simp [quoted?])
  rw [List.cons_append, token_other hname (by rwa [startsNumber_agree hcs hagree]), hquoted]
  simp only [hmore, Option.map_some]

theorem lexeme_symbol (hname : ¬ isNameStart c) (hnumber : ¬ startsNumber c cs)
    (hquoted : quoted? c = none) (h : token (c :: cs) = some (kind, text, rest)) :
    Lexeme (c :: cs) kind text rest := by
  rw [token_other hname hnumber, hquoted] at h
  dsimp only at h
  split at h
  · rename_i hstop
    simp only [Option.some.injEq, Prod.mk.injEq] at h
    obtain ⟨rfl, rfl, rfl⟩ := h
    refine ⟨rfl, by simp, by simp [hstop], fun _ ↦ by rw [hstop], fun rest' hagree ↦ ?_⟩
    have hsame := startsNumber_agree (c := c) (List.nil_append cs).symm hagree
    rw [List.nil_append] at hsame
    rw [List.singleton_append, token_other hname (by rwa [hsame]), hquoted]
    exact if_pos hstop
  · rename_i hstop
    obtain ⟨symbol, hfind, hpair⟩ := Option.map_eq_some_iff.1 h
    simp only [Prod.mk.injEq] at hpair
    obtain ⟨rfl, rfl, rfl⟩ := hpair
    have hsymbol := List.mem_of_find?_eq_some hfind
    have hne := ne_nil_of_mem_symbols hsymbol
    have hfound := List.find?_some hfind
    have hpre : symbol <+: c :: cs := List.isPrefixOf_iff_prefix.1 hfound
    have hcs := (List.prefix_iff_eq_append.1 hpre).symm
    have hfeed (hlast : symbol.getLast? = some '\n') : False :=
      not_breaks_of_mem_symbols hsymbol _ (List.mem_of_getLast? hlast) rfl
    refine ⟨hcs, hne, hfeed, nofun, fun rest' hagree ↦ ?_⟩
    have hagain : symbols.find? (·.isPrefixOf (symbol ++ rest')) = some symbol := by
      rw [← findSymbol_upToBreak, ← (hagree.append symbol).upToBreak_eq, findSymbol_upToBreak,
        ← hcs, hfind]
    obtain ⟨d, symbol, rfl⟩ := List.exists_cons_of_ne_nil hne
    obtain ⟨rfl, htail⟩ := List.cons.inj hcs
    rw [List.cons_append] at hagain ⊢
    rw [token_other hname (by rwa [startsNumber_agree htail hagree]), hquoted]
    simp only [if_neg hstop, hagain, Option.map_some]
    simp

theorem lexeme_of_token {cs : List Char} (h : token cs = some (kind, text, rest)) :
    Lexeme cs kind text rest := by
  cases cs with
  | nil => simp [token] at h
  | cons c cs =>
    by_cases hname : isNameStart c
    · exact lexeme_name hname h
    · by_cases hnumber : startsNumber c cs
      · exact lexeme_number hname hnumber h
      · cases hquoted : quoted? c with
        | some found => exact lexeme_quoted hname hnumber hquoted h
        | none => exact lexeme_symbol hname hnumber hquoted h

end Classes

end HandlerDocs.Code.Lexer
