import HandlerDocs.Proofs.Code.Trivia

namespace HandlerDocs.Code.Lexer

def breaks (c : Char) : Bool :=
  c = '\n' || c = ';'

theorem forall_breaks {p : Char → Bool} (h : p '\n' = false ∧ p ';' = false) :
    ∀ c, breaks c → p c = false := by
  intro c hc
  simp only [breaks, Bool.or_eq_true, decide_eq_true_eq] at hc
  rcases hc with rfl | rfl
  · exact h.1
  · exact h.2

def Agree (cs ds : List Char) : Prop :=
  ∃ front c as bs, breaks c ∧ cs = front ++ c :: as ∧ ds = front ++ c :: bs

def upToBreak (cs : List Char) : List Char :=
  cs.takeWhile (! breaks ·)

@[simp] theorem upToBreak_nil : upToBreak [] = [] := rfl

theorem upToBreak_cons (c : Char) (cs : List Char) :
    upToBreak (c :: cs) = if breaks c then [] else c :: upToBreak cs := by
  cases hc : breaks c <;> simp [upToBreak, hc]

theorem isPrefix_upToBreak (cs : List Char) : upToBreak cs <+: cs :=
  List.takeWhile_prefix _

theorem Agree.append {cs ds : List Char} (h : Agree cs ds) (text : List Char) :
    Agree (text ++ cs) (text ++ ds) := by
  obtain ⟨front, c, as, bs, hc, rfl, rfl⟩ := h
  exact ⟨text ++ front, c, as, bs, hc, by simp, by simp⟩

theorem Agree.head?_eq {cs ds : List Char} (h : Agree cs ds) : cs.head? = ds.head? := by
  obtain ⟨front, c, as, bs, -, rfl, rfl⟩ := h
  simp [List.head?_append]

theorem Agree.upToBreak_eq {cs ds : List Char} (h : Agree cs ds) : upToBreak cs = upToBreak ds := by
  obtain ⟨front, c, as, bs, hc, rfl, rfl⟩ := h
  induction front with
  | nil => simp [upToBreak, hc]
  | cons d front ih =>
    simp only [List.cons_append, upToBreak_cons, ih]

theorem Agree.startsToken {cs ds : List Char} (h : Agree cs ds) (hcs : StartsToken cs) :
    StartsToken ds := by
  obtain ⟨front, c, as, bs, hc, rfl, rfl⟩ := h
  cases front with
  | nil =>
    refine ⟨hcs.1, fun hslash ↦ ?_⟩
    subst hslash
    exact absurd hc (by decide)
  | cons d front => simpa [StartsToken, List.head?_append] using hcs

theorem upToBreak_drop {cs : List Char} {n : ℕ} (h : n ≤ (upToBreak cs).length) :
    upToBreak (cs.drop n) = (upToBreak cs).drop n := by
  induction cs generalizing n with
  | nil => simp
  | cons c cs ih =>
    cases n with
    | zero => rfl
    | succ n =>
      rw [upToBreak_cons] at h ⊢
      split at h
      · simp at h
      · rename_i hc
        rw [if_neg hc, List.drop_succ_cons, List.drop_succ_cons, ih (by simpa using h)]

section Digits

variable {digit : Char → Bool}

theorem isPrefix_digitRun (digit : Char → Bool) (cs : List Char) : digitRun digit cs <+: cs := by
  fun_induction digitRun digit cs with
  | case1 => exact List.nil_prefix
  | case2 c hc => exact List.prefix_rfl
  | case3 => exact List.nil_prefix
  | case4 c d cs hc ih => exact List.cons_prefix_cons.2 ⟨rfl, ih⟩
  | case5 c d cs hc hbar ih => exact List.cons_prefix_cons.2 ⟨rfl, ih⟩
  | case6 => exact List.nil_prefix

theorem isPrefix_digits (digit : Char → Bool) (cs : List Char) : digits digit cs <+: cs := by
  rw [digits]
  split
  · exact List.nil_prefix
  · exact isPrefix_digitRun _ cs

theorem digitRun_cons {c : Char} (hc : digit c) (cs : List Char) :
    digitRun digit (c :: cs) = c :: digitRun digit cs := by
  cases cs with
  | nil => simp [digitRun, hc]
  | cons d cs => rw [digitRun, if_pos hc]

theorem not_breaks {c : Char} (h : ∀ c, breaks c → digit c = false) (hc : digit c) : ¬ breaks c :=
  fun hbreak ↦ by simp [h c hbreak] at hc

theorem digitRun_upToBreak (h : ∀ c, breaks c → digit c = false) (cs : List Char) :
    digitRun digit (upToBreak cs) = digitRun digit cs := by
  fun_induction digitRun digit cs with
  | case1 => rfl
  | case2 c hc => simp [upToBreak_cons, not_breaks h hc, digitRun, hc]
  | case3 c hc => by_cases hn : breaks c <;> simp [upToBreak_cons, hn, digitRun, hc]
  | case4 c d cs hc ih => rw [upToBreak_cons, if_neg (not_breaks h hc), digitRun_cons hc, ih]
  | case5 c d cs hc hbar ih =>
    simp only [Bool.and_eq_true, decide_eq_true_eq] at hbar
    have hd := not_breaks h hbar.2
    rw [upToBreak_cons, if_neg hd] at ih
    rw [upToBreak_cons, upToBreak_cons, if_neg hd, if_neg (by rw [hbar.1]; decide), digitRun,
      if_neg hc, if_pos (by simp [hbar]), ih]
  | case6 c d cs hc hbar =>
    by_cases hn : breaks c
    · simp [upToBreak_cons, hn, digitRun]
    · by_cases hd : breaks d <;> simp_all [upToBreak_cons, digitRun]

theorem head?_upToBreak {c : Char} (hc : ¬ breaks c) (cs : List Char) :
    (upToBreak cs).head? = some c ↔ cs.head? = some c := by
  cases cs with
  | nil => rfl
  | cons d cs =>
    rw [upToBreak_cons]
    split
    · rename_i hd
      have hne : d ≠ c := fun heq ↦ hc (heq ▸ hd)
      simp [hne]
    · rfl

theorem digits_upToBreak (h : ∀ c, breaks c → digit c = false) (cs : List Char) :
    digits digit (upToBreak cs) = digits digit cs := by
  simp only [digits, head?_upToBreak (by decide : ¬ breaks '_'), digitRun_upToBreak h]

theorem isPrefix_fraction (digit : Char → Bool) (cs : List Char) : fraction digit cs <+: cs := by
  rw [fraction.eq_def]
  split
  · exact List.cons_prefix_cons.2 ⟨rfl, isPrefix_digits _ _⟩
  · exact List.nil_prefix

theorem fraction_upToBreak (h : ∀ c, breaks c → digit c = false) (cs : List Char) :
    fraction digit (upToBreak cs) = fraction digit cs := by
  cases cs with
  | nil => rfl
  | cons c cs =>
    by_cases hc : c = '.'
    · subst hc
      rw [upToBreak_cons, if_neg (by decide), fraction, fraction, digits_upToBreak h]
    · have hnil (ds : List Char) : fraction digit (c :: ds) = [] := by
        rw [fraction]
        simpa using hc
      rw [upToBreak_cons, hnil]
      split
      · rfl
      · exact hnil _

end Digits

def signOf (c : Char) : List Char :=
  if c = '+' || c = '-' then [c] else []

theorem isPrefix_signOf (c : Char) (cs : List Char) : signOf c <+: c :: cs := by
  rw [signOf]
  split
  · exact ⟨cs, rfl⟩
  · exact List.nil_prefix

theorem exponent_cons {mark : Char → Bool} {c : Char} (hc : mark c) (d : Char) (cs : List Char) :
    exponent mark (c :: d :: cs) =
      match digits Char.isDigit ((d :: cs).drop (signOf d).length) with
      | [] => []
      | power => c :: signOf d ++ power := by
  rw [exponent, if_pos hc]
  rfl

theorem isPrefix_exponent (mark : Char → Bool) (cs : List Char) : exponent mark cs <+: cs := by
  rcases cs with _ | ⟨c, _ | ⟨d, cs⟩⟩
  · exact List.nil_prefix
  · exact List.nil_prefix
  · by_cases hc : mark c
    · rw [exponent_cons hc]
      split
      · exact List.nil_prefix
      · refine List.cons_prefix_cons.2 ⟨rfl, ?_⟩
        exact append_isPrefix (isPrefix_signOf d cs) (isPrefix_digits _ _)
    · rw [exponent, if_neg hc]
      exact List.nil_prefix

theorem exponent_upToBreak {mark : Char → Bool} (h : ∀ c, breaks c → mark c = false)
    (cs : List Char) :
    exponent mark (upToBreak cs) = exponent mark cs := by
  rcases cs with _ | ⟨c, _ | ⟨d, cs⟩⟩
  · rfl
  · by_cases hn : breaks c <;> simp [upToBreak_cons, hn, exponent]
  · by_cases hc : mark c
    · rw [exponent_cons hc, upToBreak_cons, if_neg (not_breaks h hc), upToBreak_cons]
      split
      · rename_i hd
        have hsign : signOf d = [] := by
          have hnot := forall_breaks (p := fun d ↦ d = '+' || d = '-') (by decide) d hd
          rw [signOf, if_neg (by simp [hnot])]
        have hnil : digits Char.isDigit ((d :: cs).drop (signOf d).length) = [] := by
          rw [hsign, List.length_nil, List.drop_zero,
            ← digits_upToBreak (forall_breaks (by decide)), upToBreak_cons, if_pos hd]
          rfl
        rw [hnil]
        rfl
      · rename_i hd
        have hdrop : (d :: upToBreak cs).drop (signOf d).length =
            upToBreak ((d :: cs).drop (signOf d).length) := by
          rw [upToBreak_drop, upToBreak_cons, if_neg hd]
          rw [upToBreak_cons, if_neg hd]
          exact (isPrefix_signOf d _).length_le
        rw [exponent_cons hc, hdrop, digits_upToBreak (forall_breaks (by decide))]
    · rw [exponent, if_neg hc, upToBreak_cons]
      split
      · rfl
      · rw [upToBreak_cons]
        split
        · rfl
        · rw [exponent, if_neg hc]

theorem head?_drop_upToBreak {c : Char} (hc : ¬ breaks c) {cs : List Char} {n : ℕ}
    (h : n ≤ (upToBreak cs).length) :
    ((upToBreak cs).drop n).head? = some c ↔ (cs.drop n).head? = some c := by
  rw [← upToBreak_drop h, head?_upToBreak hc]

section Parts

variable {digit mark : Char → Bool} {whole cs : List Char}

theorem isPrefix_parts (digit mark : Char → Bool) (h : whole <+: cs) :
    whole ++ fraction digit (cs.drop whole.length) ++
        exponent mark (cs.drop (whole.length + (fraction digit (cs.drop whole.length)).length)) <+:
      cs := by
  refine append_isPrefix (append_isPrefix h (isPrefix_fraction _ _)) ?_
  rw [List.length_append]
  exact isPrefix_exponent _ _

theorem fraction_drop_upToBreak (hdigit : ∀ c, breaks c → digit c = false)
    (h : whole <+: upToBreak cs) :
    fraction digit ((upToBreak cs).drop whole.length) = fraction digit (cs.drop whole.length) := by
  rw [← upToBreak_drop h.length_le, fraction_upToBreak hdigit]

theorem exponent_drop_upToBreak (hdigit : ∀ c, breaks c → digit c = false)
    (hmark : ∀ c, breaks c → mark c = false) (h : whole <+: upToBreak cs) :
    exponent mark ((upToBreak cs).drop
        (whole.length + (fraction digit (cs.drop whole.length)).length)) =
      exponent mark (cs.drop (whole.length + (fraction digit (cs.drop whole.length)).length)) := by
  have hlen := (append_isPrefix h (isPrefix_fraction digit _)).length_le
  rw [List.length_append, fraction_drop_upToBreak hdigit h] at hlen
  rw [← upToBreak_drop hlen, exponent_upToBreak hmark]

end Parts

theorem decimalNumber_upToBreak (cs : List Char) :
    decimalNumber (upToBreak cs) = decimalNumber cs := by
  have hdigit := forall_breaks (p := Char.isDigit) (by decide)
  have hmark := forall_breaks (p := isExponentMark) (by decide)
  have hdigits := digits_upToBreak hdigit cs
  have hwhole : digits Char.isDigit cs <+: upToBreak cs :=
    hdigits ▸ isPrefix_digits _ (upToBreak cs)
  have hpart := fraction_drop_upToBreak hdigit hwhole
  have hpower := exponent_drop_upToBreak hdigit hmark hwhole
  have htext := isPrefix_parts Char.isDigit isExponentMark hwhole
  rw [hpart, hpower] at htext
  simp only [decimalNumber, hdigits, hpart, hpower,
    head?_drop_upToBreak (by decide : ¬ breaks 'i') htext.length_le,
    digits_upToBreak (forall_breaks (p := isOctalDigit) (by decide))]

theorem isPrefix_decimalNumber (cs : List Char) : (decimalNumber cs).2 <+: cs := by
  have htext := isPrefix_parts Char.isDigit isExponentMark
    (isPrefix_digits Char.isDigit cs)
  rw [decimalNumber]
  split
  · rename_i hi
    exact isPrefix_snoc htext hi
  · split
    · exact htext
    · split
      · exact isPrefix_digits _ cs
      · exact isPrefix_digits _ cs

section Based

variable {digit mark : Char → Bool}

theorem basedNumber_upToBreak (hdigit : ∀ c, breaks c → digit c = false)
    (hmark : ∀ c, breaks c → mark c = false) (cs : List Char) :
    basedNumber digit mark (upToBreak cs) = basedNumber digit mark cs := by
  have hdigits := digitRun_upToBreak hdigit cs
  have hwhole : digitRun digit cs <+: upToBreak cs := hdigits ▸ isPrefix_digitRun _ (upToBreak cs)
  simp only [basedNumber, hdigits, fraction_drop_upToBreak hdigit hwhole,
    exponent_drop_upToBreak hdigit hmark hwhole]

theorem isPrefix_basedNumber (digit mark : Char → Bool) (cs : List Char) :
    (basedNumber digit mark cs).2 <+: cs := by
  rw [basedNumber]
  split
  · exact isPrefix_parts _ _ (isPrefix_digitRun _ cs)
  · exact isPrefix_digitRun _ cs

end Based

theorem baseOf?_breaks {c : Char} {digit mark : Char → Bool} (h : baseOf? c = some (digit, mark)) :
    (∀ c, breaks c → digit c = false) ∧ ∀ c, breaks c → mark c = false := by
  rw [baseOf?] at h
  split at h
  · obtain ⟨rfl, rfl⟩ := Prod.mk.inj (Option.some.inj h)
    exact ⟨forall_breaks (by decide), forall_breaks (by decide)⟩
  · split at h
    · obtain ⟨rfl, rfl⟩ := Prod.mk.inj (Option.some.inj h)
      exact ⟨forall_breaks (by decide), forall_breaks (by decide)⟩
    · split at h
      · obtain ⟨rfl, rfl⟩ := Prod.mk.inj (Option.some.inj h)
        exact ⟨forall_breaks (by decide), forall_breaks (by decide)⟩
      · simp at h

theorem number_eq_decimalNumber {cs : List Char} (h : ∀ x more, cs ≠ '0' :: x :: more) :
    number cs = decimalNumber cs := by
  rw [number.eq_def]
  split
  · rename_i x more
    exact absurd rfl (h x more)
  · rfl

theorem number_upToBreak (cs : List Char) : number (upToBreak cs) = number cs := by
  by_cases hcs : ∃ x more, cs = '0' :: x :: more
  · obtain ⟨x, more, rfl⟩ := hcs
    have hzero : upToBreak ('0' :: x :: more) = '0' :: upToBreak (x :: more) := by
      rw [upToBreak_cons, if_neg (by decide)]
    by_cases hx : breaks x
    · have hbase : baseOf? x = none := by
        have hnot := forall_breaks (p := fun x ↦ (baseOf? x).isSome) (by decide) x hx
        simpa using hnot
      rw [number, hbase]
      have hshort : upToBreak ('0' :: x :: more) = ['0'] := by rw [hzero, upToBreak_cons, if_pos hx]
      rw [← decimalNumber_upToBreak ('0' :: x :: more), hshort]
      rfl
    · have hfirst : upToBreak ('0' :: x :: more) = '0' :: x :: upToBreak more := by
        rw [hzero, upToBreak_cons, if_neg hx]
      rw [hfirst, number, number]
      cases hbase : baseOf? x with
      | none =>
        rw [← decimalNumber_upToBreak ('0' :: x :: more), hfirst]
      | some base =>
        obtain ⟨digit, mark⟩ := base
        obtain ⟨hdigit, hmark⟩ := baseOf?_breaks hbase
        have hbased := basedNumber_upToBreak hdigit hmark more
        have hlen := (hbased ▸ isPrefix_basedNumber digit mark (upToBreak more)).length_le
        dsimp only
        simp only [hbased, head?_drop_upToBreak (by decide : ¬ breaks 'i') hlen]
  · simp only [not_exists] at hcs
    rw [number_eq_decimalNumber hcs, number_eq_decimalNumber, decimalNumber_upToBreak]
    intro x more hfirst
    obtain ⟨rest, hrest⟩ := isPrefix_upToBreak cs
    rw [hfirst] at hrest
    exact hcs x (more ++ rest) hrest.symm

theorem isPrefix_number (cs : List Char) : (number cs).2 <+: cs := by
  rw [number.eq_def]
  split
  · rename_i x more
    split
    · rename_i digit mark hbase
      have htext := isPrefix_basedNumber digit mark more
      dsimp only
      split
      · exact ⟨x :: more, rfl⟩
      · split
        · rename_i hi
          exact List.cons_prefix_cons.2 ⟨rfl, List.cons_prefix_cons.2 ⟨rfl, isPrefix_snoc htext hi⟩⟩
        · exact List.cons_prefix_cons.2 ⟨rfl, List.cons_prefix_cons.2 ⟨rfl, htext⟩⟩
    · exact isPrefix_decimalNumber _
  · exact isPrefix_decimalNumber _

end HandlerDocs.Code.Lexer
