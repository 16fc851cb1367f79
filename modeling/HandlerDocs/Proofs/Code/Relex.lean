import HandlerDocs.Proofs.Code.Lexeme

namespace HandlerDocs.Code.Lexer

def textOf (ts : List Token) : List Char :=
  ts.flatMap Token.chars

@[simp] theorem textOf_nil : textOf [] = [] := rfl

@[simp] theorem textOf_cons (t : Token) (ts : List Token) :
    textOf (t :: ts) = t.chars ++ textOf ts :=
  rfl

@[simp] theorem textOf_append (as bs : List Token) : textOf (as ++ bs) = textOf as ++ textOf bs :=
  List.flatMap_append

def BreaksFirst (ts : List Token) : Prop :=
  ∀ t ∈ ts.head?, t.lead.any Trivia.breaksLine

/-- The text is made of these tokens and of trivia after the last one. `ends` tells whether a line
end in front of the text would end a statement. -/
inductive Lexed : Bool → List Char → List Token → List Trivia → Prop
  | done {cs : List Char} {tail : List Trivia} : Leads cs tail [] → Lexed false cs [] tail
  | stop {cs : List Char} {ts : List Token} {tail : List Trivia} :
    BreaksFirst ts → Lexed false cs ts tail →
    Lexed true cs (⟨[], .stop, ""⟩ :: ts) tail
  | token {ends : Bool} {cs rest text rest' : List Char} {lead tail : List Trivia}
      {kind : TokenKind} {ts : List Token} :
    Leads cs lead rest → (ends → ¬ lead.any Trivia.breaksLine) →
    token rest = some (kind, text, rest') →
    Lexed (endsStatement kind (String.ofList text)) rest' ts tail →
    Lexed ends cs (⟨lead, kind, String.ofList text⟩ :: ts) tail

theorem Lexed.breaksFirst_iff {cs rest : List Char} {ts : List Token} {lead tail : List Trivia}
    (h : Lexed false cs ts tail) (hleads : Leads cs lead rest) :
    BreaksFirst ts ↔ rest = [] ∨ lead.any Trivia.breaksLine := by
  cases h with
  | done htail =>
    obtain ⟨rfl, rfl⟩ := hleads.unique htail
    simp [BreaksFirst]
  | token hlead hends htoken hmore =>
    obtain ⟨rfl, rfl⟩ := hleads.unique hlead
    have hne : rest ≠ [] := by
      rintro rfl
      simp [Lexer.token] at htoken
    simp [BreaksFirst, hne]

theorem lexed_of_tokensFrom {n : ℕ} {ends : Bool} {cs : List Char} {ts : List Token}
    {tail : List Trivia} (h : tokensFrom n ends cs = some (ts, tail)) : Lexed ends cs ts tail := by
  induction n generalizing ends cs ts with
  | zero => simp [tokensFrom] at h
  | succ n ih =>
    simp only [tokensFrom, Option.bind_eq_bind, Option.bind_eq_some_iff, Prod.exists] at h
    obtain ⟨lead, rest, htrivia, h⟩ := h
    have hleads := leads_of_trivia htrivia
    split at h
    · rename_i hstop
      simp only [Option.bind_eq_some_iff, Prod.exists] at h
      obtain ⟨more, tail', hmore, hpair⟩ := h
      obtain ⟨rfl, rfl⟩ := Prod.mk.inj (Option.some.inj hpair)
      simp only [Bool.and_eq_true, Bool.or_eq_true, List.isEmpty_iff] at hstop
      obtain ⟨rfl, hbreak⟩ := hstop
      have hlexed := ih hmore
      exact .stop ((hlexed.breaksFirst_iff hleads).2 hbreak) hlexed
    · rename_i hstop
      simp only [Bool.and_eq_true, Bool.or_eq_true, List.isEmpty_iff, not_and, not_or] at hstop
      split at h
      · rename_i hempty
        obtain ⟨rfl, rfl⟩ := Prod.mk.inj (Option.some.inj h)
        obtain rfl := List.isEmpty_iff.1 hempty
        cases ends with
        | false => exact .done hleads
        | true => exact absurd rfl (hstop rfl).1
      · simp only [Option.bind_eq_some_iff, Prod.exists] at h
        obtain ⟨kind, text, rest', htoken, more, tail', hmore, hpair⟩ := h
        obtain ⟨rfl, rfl⟩ := Prod.mk.inj (Option.some.inj hpair)
        exact .token hleads (fun hends ↦ (hstop hends).2) htoken (ih hmore)

theorem Lexed.leads {ends : Bool} {cs : List Char} {ts : List Token} {tail : List Trivia}
    (h : Lexed ends cs ts tail) : ∃ lead rest, Leads cs lead rest := by
  induction h with
  | done hleads => exact ⟨_, _, hleads⟩
  | stop _ _ ih => exact ih
  | token hleads _ _ _ _ => exact ⟨_, _, hleads⟩

theorem tokensFrom_of_lexed {ends : Bool} {cs : List Char} {ts : List Token} {tail : List Trivia}
    (h : Lexed ends cs ts tail) {n : ℕ} (hn : 2 * cs.length + ends.toNat < n) :
    tokensFrom n ends cs = some (ts, tail) := by
  induction h generalizing n with
  | done hleads =>
    obtain ⟨n, rfl⟩ := Nat.exists_eq_succ_of_ne_zero (by omega : n ≠ 0)
    have hlen := hleads.length_le
    have htrivia := trivia_of_leads hleads (n := n + 1) (by omega)
    simp [tokensFrom, htrivia]
  | stop hbreak hlexed ih =>
    obtain ⟨n, rfl⟩ := Nat.exists_eq_succ_of_ne_zero (by omega : n ≠ 0)
    obtain ⟨lead, rest, hleads⟩ := hlexed.leads
    have hlen := hleads.length_le
    have htrivia := trivia_of_leads hleads (n := n + 1) (by omega)
    have hcond := (hlexed.breaksFirst_iff hleads).1 hbreak
    have hmore := ih (n := n) (by simp only [Bool.toNat_true, Bool.toNat_false] at hn ⊢; omega)
    rw [tokensFrom, htrivia]
    simp only [Option.bind_eq_bind, Option.bind_some]
    rw [if_pos (by simpa using hcond), hmore]
    rfl
  | @token ends cs rest text rest' lead tail kind ts hleads hends htoken hlexed ih =>
    obtain ⟨n, rfl⟩ := Nat.exists_eq_succ_of_ne_zero (by omega : n ≠ 0)
    have hlexeme := lexeme_of_token htoken
    have hlen := hleads.length_le
    have htrivia := trivia_of_leads hleads (n := n + 1) (by omega)
    have hrest : rest ≠ [] := by simp [hlexeme.eq, hlexeme.ne_nil]
    have hmore := ih (n := n) (by
      have hshort : text.length + rest'.length = rest.length := by
        rw [hlexeme.eq, List.length_append]
      have hpos := List.length_pos_iff.2 hlexeme.ne_nil
      have hbit := Bool.toNat_le (endsStatement kind (String.ofList text))
      omega)
    rw [tokensFrom, htrivia]
    simp only [Option.bind_eq_bind, Option.bind_some]
    rw [if_neg (by simpa [hrest] using hends), if_neg (by simpa using hrest), htoken]
    simp only [Option.bind_some, hmore]
    rfl

/-- Lexing succeeds with exactly the tokens that make up the text. -/
theorem tokens_eq_some_iff {source : List Char} {ts : List Token} {tail : List Trivia} :
    tokens source = some (ts, tail) ↔ Lexed false source ts tail := by
  constructor
  · exact lexed_of_tokensFrom
  · intro h
    exact tokensFrom_of_lexed h (by simp only [Bool.toNat_false]; omega)

theorem Lexed.eq {ends : Bool} {cs : List Char} {ts : List Token} {tail : List Trivia}
    (h : Lexed ends cs ts tail) : cs = textOf ts ++ charsOf tail := by
  induction h with
  | done hleads => simpa using hleads.eq
  | stop _ _ ih => simpa [Token.chars] using ih
  | token hleads _ htoken _ ih =>
    rw [hleads.eq, (lexeme_of_token htoken).eq, ih]
    simp [Token.chars, charsOf]

theorem Lexed.readable {ends : Bool} {cs : List Char} {ts : List Token} {tail : List Trivia}
    (h : Lexed ends cs ts tail) : ∀ t ∈ ts, ∀ trivia ∈ t.lead, Readable trivia := by
  induction h with
  | done => simp
  | stop _ _ ih => exact List.forall_mem_cons.2 ⟨by simp, ih⟩
  | token hleads _ _ _ ih => exact List.forall_mem_cons.2 ⟨hleads.readable, ih⟩

/-- No token ends with a line feed. -/
theorem Lexed.getLast?_textOf {ends : Bool} {cs : List Char} {ts : List Token} {tail : List Trivia}
    (h : Lexed ends cs ts tail) {before after : List Token} (hts : ts = before ++ after) :
    (textOf before).getLast? ≠ some '\n' := by
  induction h generalizing before with
  | done =>
    obtain ⟨rfl, -⟩ := List.append_eq_nil_iff.1 hts.symm
    simp
  | stop _ _ ih =>
    cases before with
    | nil => simp
    | cons t before =>
      obtain ⟨rfl, hrest⟩ := List.cons.inj hts
      simpa [Token.chars] using ih hrest
  | token _ _ htoken _ ih =>
    cases before with
    | nil => simp
    | cons t before =>
      obtain ⟨rfl, hrest⟩ := List.cons.inj hts
      have hlexeme := lexeme_of_token htoken
      rw [textOf_cons, Token.chars, String.toList_ofList, List.getLast?_append,
        List.getLast?_append]
      cases hlast : (textOf before).getLast? with
      | some c =>
        rw [Option.some_or, ← hlast]
        exact ih hrest
      | none =>
        rw [Option.none_or, Option.or_of_isSome (by simpa using hlexeme.ne_nil)]
        exact hlexeme.last

/-- A token in the first column stands right after a line feed. -/
theorem Lexed.getLast?_lead {ends : Bool} {cs : List Char} {before after : List Token} {t : Token}
    {tail : List Trivia} (h : Lexed ends cs (before ++ t :: after) tail)
    (hlast : (textOf before ++ charsOf t.lead).getLast? = some '\n') :
    t.lead.getLast? = some (.space '\n') := by
  refine getLast?_of_readable (h.readable t (by simp)) ?_
  rw [List.getLast?_append] at hlast
  cases hlead : (charsOf t.lead).getLast? with
  | some c => rwa [hlead, Option.some_or] at hlast
  | none =>
    rw [hlead, Option.none_or] at hlast
    exact absurd hlast (h.getLast?_textOf rfl)

def Sound (lead : List Trivia) : Prop :=
  ∀ rest, StartsToken rest → Leads (charsOf lead ++ rest) lead rest

/-- What may stand in front of a token instead: after a line feed that is there anything may, and
after a semicolon, which `after` tells, something may be added. -/
inductive Relead (after : Bool) : List Trivia → List Trivia → Prop
  | keep (lead : List Trivia) : Relead after lead lead
  | change (as bs : List Trivia) {bs' : List Trivia} :
    Sound bs' → Relead after (as ++ .space '\n' :: bs) (as ++ .space '\n' :: bs')
  | add (lead : List Trivia) {more : List Trivia} :
    after = true → Sound more → Relead after lead (lead ++ more)

inductive Respaced : Bool → List Token → List Token → Prop
  | nil {after : Bool} : Respaced after [] []
  | cons {after : Bool} {lead lead' : List Trivia} {kind : TokenKind} {text : String}
      {ts us : List Token} :
    Relead after lead lead' → Respaced (kind = .stop) ts us →
    Respaced after (⟨lead, kind, text⟩ :: ts) (⟨lead', kind, text⟩ :: us)

theorem Respaced.refl (after : Bool) (ts : List Token) : Respaced after ts ts := by
  induction ts generalizing after with
  | nil => exact .nil
  | cons t ts ih => exact .cons (.keep _) (ih _)

/-- Tokens that end with a semicolon are followed by others. -/
theorem Respaced.append {after : Bool} {ts ts' us us' : List Token} (h : Respaced after ts us)
    (hstop : ts.getLast?.any (·.kind = .stop)) (h' : Respaced true ts' us') :
    Respaced after (ts ++ ts') (us ++ us') := by
  induction h with
  | nil => simp at hstop
  | @cons after lead lead' kind text ts us hlead hts ih =>
    refine .cons hlead ?_
    cases hts with
    | nil =>
      have hkind : kind = .stop := by simpa using hstop
      simpa [hkind] using h'
    | cons hnext hmore => exact ih (by simpa [List.getLast?_cons_cons] using hstop)

theorem breaksLine_of_split (as bs : List Trivia) :
    (as ++ .space '\n' :: bs).any Trivia.breaksLine := by
  simp [Trivia.breaksLine, Trivia.chars]

theorem Relead.breaksLine {after : Bool} {lead lead' : List Trivia} (h : Relead after lead lead')
    (hbreak : lead.any Trivia.breaksLine) : lead'.any Trivia.breaksLine := by
  cases h with
  | keep => exact hbreak
  | change => exact breaksLine_of_split _ _
  | add => rw [List.any_append, hbreak, Bool.true_or]

theorem Respaced.breaksFirst {after : Bool} {ts us : List Token} (h : Respaced after ts us)
    (hts : BreaksFirst ts) : BreaksFirst us := by
  cases h with
  | nil => exact hts
  | cons hlead =>
    rintro _ ⟨⟩
    exact hlead.breaksLine (hts _ rfl)

theorem newline_mem_of_breaksLine {lead : List Trivia} (h : lead.any Trivia.breaksLine) :
    '\n' ∈ charsOf lead := by
  obtain ⟨t, ht, hbreak⟩ := List.any_eq_true.1 h
  exact List.mem_flatMap.2 ⟨t, ht, by simpa [Trivia.breaksLine] using hbreak⟩

/-- Where something is added after a line feed, the texts agree up to that. -/
theorem Relead.agree {after : Bool} {lead lead' : List Trivia} (h : Relead after lead lead')
    (hafter : after = true → lead.any Trivia.breaksLine) (as bs : List Char) :
    lead' = lead ∨ Agree (charsOf lead ++ as) (charsOf lead' ++ bs) := by
  cases h with
  | keep => exact .inl rfl
  | @change front back back' _ =>
    refine .inr ⟨charsOf front, '\n', charsOf back ++ as, charsOf back' ++ bs, by decide, ?_, ?_⟩
    · simp [Trivia.chars]
    · simp [Trivia.chars]
  | @add _ more hflag =>
    obtain ⟨front, back, hchars⟩ := List.append_of_mem (newline_mem_of_breaksLine (hafter hflag))
    refine .inr ⟨front, '\n', back ++ as, back ++ (charsOf more ++ bs), by decide, ?_, ?_⟩
    · simp [hchars]
    · simp [hchars]

theorem textOf_cons_append (lead : List Trivia) (kind : TokenKind) (text : String)
    (ts : List Token) (more : List Char) : textOf (⟨lead, kind, text⟩ :: ts) ++ more =
      charsOf lead ++ (text.toList ++ (textOf ts ++ more)) := by
  simp [Token.chars, charsOf]

/-- The texts of respaced tokens agree up to a break in front of the first change. -/
theorem Lexed.agree {ends after : Bool} {cs : List Char} {ts us : List Token} {tail : List Trivia}
    (h : Lexed ends cs ts tail) (hus : Respaced after ts us)
    (hafter : after = true → BreaksFirst ts) (more : List Char) :
    textOf ts ++ more = textOf us ++ more ∨ Agree (textOf ts ++ more) (textOf us ++ more) := by
  induction h generalizing after us with
  | done =>
    cases hus
    exact .inl rfl
  | stop hbreak _ ih =>
    cases hus with
    | @cons _ _ lead' _ _ _ us hlead hts =>
      -- nothing stands in front of a semicolon that is not written
      have hnil : lead' = [] := (hlead.agree (fun hflag ↦ hafter hflag _ rfl) [] []).resolve_right
        fun ⟨front, c, as, bs, _, hnil, _⟩ ↦ by simp at hnil
      subst hnil
      simpa [Token.chars] using ih hts fun _ ↦ hbreak
  | @token ends cs rest text rest' lead tail kind ts _ _ htoken _ ih =>
    cases hus with
    | @cons _ _ lead' _ _ _ us hlead hts =>
      rw [textOf_cons_append, textOf_cons_append]
      rcases hlead.agree (fun hflag ↦ hafter hflag _ rfl) _ _ with rfl | hagree
      · by_cases hkind : kind = .stop
        · -- a written semicolon is a break itself
          have hsemicolon := (lexeme_of_token htoken).stop hkind
          refine .inr ⟨charsOf lead', ';', textOf ts ++ more, textOf us ++ more, by decide, ?_, ?_⟩
          · simp [hsemicolon]
          · simp [hsemicolon]
        · rcases ih hts (by simp [hkind]) with ih | ih
          · exact .inl (by rw [ih])
          · exact .inr ((ih.append _).append _)
      · exact .inr hagree

/-- Respaced tokens are read from their own text. -/
theorem Lexed.respaced {ends after : Bool} {cs : List Char} {ts us : List Token}
    {tail : List Trivia} (h : Lexed ends cs ts tail) (hus : Respaced after ts us)
    (hafter : after = true → ends = false) :
    Lexed ends (textOf us ++ charsOf tail) us tail := by
  induction h generalizing after us with
  | done hleads =>
    cases hus with
    | nil =>
      have heq := hleads.eq
      simp only [List.append_nil] at heq
      exact .done (heq ▸ hleads)
  | stop hbreak hlexed ih =>
    cases hus with
    | @cons _ _ lead' _ _ _ us hlead hts =>
      have hnil : lead' = [] := (hlead.agree (fun hflag ↦ nomatch hafter hflag) [] []).resolve_right
        fun ⟨front, c, as, bs, _, hnil, _⟩ ↦ by simp at hnil
      subst hnil
      exact .stop (hts.breaksFirst hbreak) (ih hts fun _ ↦ rfl)
  | @token ends cs rest text rest' lead tail kind ts hleads hends htoken hlexed ih =>
    cases hus with
    | @cons _ _ lead' _ _ _ us hlead hts =>
      have hlexeme := lexeme_of_token htoken
      have hmore := ih hts fun hkind ↦ by
        rw [of_decide_eq_true hkind]
        rfl
      -- the token and its first character are read the same in front of the respaced rest
      have hnext : Lexer.token (text ++ (textOf us ++ charsOf tail)) =
            some (kind, text, textOf us ++ charsOf tail) ∧
          StartsToken (text ++ (textOf us ++ charsOf tail)) := by
        have hstart := hleads.startsToken
        by_cases hkind : kind = .stop
        · rw [hlexeme.stop hkind, hkind]
          exact ⟨token_semicolon _, by decide, nofun⟩
        · have hagree := hlexed.agree hts (by simp [hkind]) (charsOf tail)
          rw [← hlexed.eq] at hagree
          rcases hagree with heq | hagree
          · rw [← heq, ← hlexeme.eq]
            exact ⟨htoken, hstart⟩
          · rw [hlexeme.eq] at hstart
            exact ⟨hlexeme.again _ hagree, (hagree.append text).startsToken hstart⟩
      obtain ⟨hnext, hstart⟩ := hnext
      have hrest : rest ≠ [] := by simp [hlexeme.eq, hlexeme.ne_nil]
      rw [textOf_cons_append, String.toList_ofList]
      cases hlead with
      | keep => exact .token (hleads.before hrest hstart) hends hnext hmore
      | @change as bs bs' hsound =>
        have hexchange := hleads.exchange (.space (by decide) (hsound _ hstart))
        have hbreak (hends' : ends) : ¬ (as ++ .space '\n' :: bs').any Trivia.breaksLine :=
          absurd (breaksLine_of_split as bs) (hends hends')
        simpa [Trivia.chars] using Lexed.token hexchange hbreak hnext hmore
      | @add _ more hflag hsound =>
        have hno (hends' : ends) : ¬ (lead ++ more).any Trivia.breaksLine := by
          rw [hafter hflag] at hends'
          cases hends'
        simpa using Lexed.token (hleads.append hrest (hsound _ hstart)) hno hnext hmore

theorem tokens_respaced {source : List Char} {ts us : List Token} {tail : List Trivia}
    (h : tokens source = some (ts, tail)) (hus : Respaced true ts us) :
    tokens (textOf us ++ charsOf tail) = some (us, tail) :=
  tokens_eq_some_iff.2 ((tokens_eq_some_iff.1 h).respaced hus fun _ ↦ rfl)

end HandlerDocs.Code.Lexer
