import HandlerDocs.EndpointDoc.Reader
import HandlerDocs.EndpointDoc.Writer
import HandlerDocs.Proofs.Text.Words

namespace HandlerDocs.EndpointDoc

open Text

def StartsInked (cs : List Char) : Prop :=
  ∀ c ∈ cs.head?, isBlank c = false

theorem startsInked_append {s : String} (hs : Solid s) (rest : List Char) :
    StartsInked (s.toList ++ rest) := by
  intro c hc
  have hne := hs.toList_ne_nil
  cases h : s.toList with
  | nil => exact absurd h hne
  | cons d ds =>
    rw [h, List.cons_append, List.head?_cons, Option.mem_some_iff] at hc
    exact hs.2 c (by simp [h, hc])

section Run

variable {p : Char → Bool}

theorem run?_eq_some {cs text rest : List Char} :
    run? p cs = some (text, rest) ↔
      text ≠ [] ∧ (∀ c ∈ text, p c) ∧ cs = text ++ rest ∧ ∀ c ∈ rest.head?, p c = false := by
  rw [run?]
  constructor
  · intro h
    split at h
    · simp at h
    · rename_i text' hne
      simp only [Option.some.injEq, Prod.mk.injEq] at h
      obtain ⟨rfl, rfl⟩ := h
      refine ⟨hne, fun c hc ↦ List.mem_takeWhile_imp hc, (List.takeWhile_append_dropWhile).symm, ?_⟩
      intro c hc
      have := List.head?_dropWhile_not p cs
      rw [Option.mem_def.1 hc] at this
      simpa using this
  · rintro ⟨hne, hall, rfl, hrest⟩
    have hstop : rest.takeWhile p = [] := by
      cases rest with
      | nil => rfl
      | cons c rest => simp [hrest c (by simp)]
    have htake : (text ++ rest).takeWhile p = text := by
      rw [List.takeWhile_append_of_pos hall, hstop, List.append_nil]
    have hdrop : (text ++ rest).dropWhile p = rest := by
      rw [List.dropWhile_append_of_pos hall, dropWhile_eq_self.2 hrest]
    rw [htake, hdrop]
    cases text with
    | nil => exact absurd rfl hne
    | cons c text => rfl

theorem column?_eq_some_iff {cs rest : List Char} {word : String} :
    column? p cs = some (word, rest) ↔
      ∃ gap, gap ≠ [] ∧ (∀ c ∈ gap, isBlank c) ∧ (∀ c ∈ gap.head?, p c = false) ∧
        word ≠ "" ∧ (∀ c ∈ word.toList, p c) ∧ StartsInked rest ∧
        cs = word.toList ++ (gap ++ rest) := by
  constructor
  · intro h
    simp only [column?, Option.bind_eq_bind, Option.bind_eq_some_iff, Prod.exists] at h
    obtain ⟨text, mid, hrun, gap, rest', hgap, heq⟩ := h
    simp only [Option.pure_def, Option.some.injEq, Prod.mk.injEq] at heq
    obtain ⟨rfl, rfl⟩ := heq
    obtain ⟨hne, hall, rfl, hstop⟩ := run?_eq_some.1 hrun
    obtain ⟨hgne, hblank, rfl, hrest⟩ := run?_eq_some.1 hgap
    rw [List.head?_append_of_ne_nil _ hgne] at hstop
    exact ⟨gap, hgne, hblank, hstop, by simpa [← String.toList_inj] using hne, by simpa using hall,
      hrest, by rw [String.toList_ofList]⟩
  · rintro ⟨gap, hgne, hblank, hstop, hne, hall, hrest, rfl⟩
    have hword : run? p (word.toList ++ (gap ++ rest)) = some (word.toList, gap ++ rest) :=
      run?_eq_some.2 ⟨by simpa using hne, hall, rfl, by rwa [List.head?_append_of_ne_nil _ hgne]⟩
    have hgap : run? isBlank (gap ++ rest) = some (gap, rest) :=
      run?_eq_some.2 ⟨hgne, hblank, rfl, hrest⟩
    simp [column?, hword, hgap]

/-- A column takes in a character of its class that stands before it. -/
theorem column?_cons {c : Char} {cs rest : List Char} {word : String} (hc : p c)
    (h : column? p cs = some (word, rest)) :
    column? p (c :: cs) = some (String.ofList (c :: word.toList), rest) := by
  obtain ⟨gap, hgne, hblank, hstop, -, hall, hrest, rfl⟩ := column?_eq_some_iff.1 h
  refine column?_eq_some_iff.2 ⟨gap, hgne, hblank, hstop, by simp [← String.toList_inj], ?_, hrest,
    by rw [String.toList_ofList, List.cons_append]⟩
  rw [String.toList_ofList]
  exact List.forall_mem_cons.2 ⟨hc, hall⟩

theorem column?_eq_some_gap (hp : ∀ c, isBlank c → p c = false) {cs rest : List Char}
    {word : String} :
    column? p cs = some (word, rest) ↔
      ∃ gap, Gap gap ∧ word ≠ "" ∧ (∀ c ∈ word.toList, p c) ∧ StartsInked rest ∧
        cs = word.toList ++ (gap.toList ++ rest) := by
  rw [column?_eq_some_iff]
  constructor
  · rintro ⟨gap, hne, hblank, -, hword, hall, hrest, rfl⟩
    exact ⟨String.ofList gap, ⟨by simpa [← String.toList_inj] using hne, by simpa using hblank⟩,
      hword, hall, hrest, by rw [String.toList_ofList]⟩
  · rintro ⟨gap, hgap, hword, hall, hrest, rfl⟩
    exact ⟨gap.toList, by simpa using hgap.1, hgap.2,
      fun c hc ↦ hp c (hgap.2 c (List.mem_of_mem_head? hc)), hword, hall, hrest, rfl⟩

end Run

theorem isInk_eq_true {c : Char} : isInk c = true ↔ isBlank c = false := by
  simp [isInk]

theorem solid_iff_ink {s : String} : Solid s ↔ s ≠ "" ∧ ∀ c ∈ s.toList, isInk c := by
  simp only [Solid, isInk_eq_true]

theorem column?_isInk {cs rest : List Char} {word : String} :
    column? isInk cs = some (word, rest) ↔
      ∃ gap, Gap gap ∧ Solid word ∧ StartsInked rest ∧
        cs = word.toList ++ (gap.toList ++ rest) := by
  rw [column?_eq_some_gap (by simp [isInk])]
  simp only [solid_iff_ink, and_assoc]

theorem column?_isWord {cs rest : List Char} {word : String} :
    column? isWord cs = some (word, rest) ↔
      ∃ gap, Gap gap ∧ Word word ∧ StartsInked rest ∧
        cs = word.toList ++ (gap.toList ++ rest) := by
  rw [column?_eq_some_gap fun c ↦ isWord_of_isBlank]
  simp only [Word, and_assoc]

theorem gap_space : Gap " " :=
  ⟨by decide, by simp [show isBlank ' ' = true from rfl]⟩

end HandlerDocs.EndpointDoc

namespace HandlerDocs

structure ParamDoc.Legible (p : ParamDoc) : Prop where
  name : Text.Solid p.name
  type : Text.Solid p.type
  described : p.description ≠ ""
  unquoted : '\x22' ∉ p.description.toList

structure ResponseDoc.Legible (r : ResponseDoc) : Prop where
  status : r.status < 65536
  schema : ∃ word : String, word ≠ "" ∧ (∀ c ∈ word.toList, Text.isWord c) ∧
    r.schema = "\x7b" ++ word ++ "\x7d"
  typed : r.type ≠ ""
  type : Text.Trimmed r.type
  oneLine : '\n' ∉ r.type.toList

structure RouterDoc.Legible (r : RouterDoc) : Prop where
  path : Text.Solid r.path
  verb : r.method ≠ ""
  word : ∀ c ∈ r.method.toList, Text.isWord c
  lowerCase : ∀ c ∈ r.method.toList, c.isUpper = false

/-- A parameter as it stands in a line by hand: five columns with any blanks between them, the
location in a spelling that is known and the flag in any word. -/
structure ParamDoc.Columns (p : ParamDoc) (place flag text : String) : Prop where
  legible : p.Legible
  placed : Text.Word place
  kind : ParamKind.ofText? place = some p.kind
  flagged : Text.Word flag
  required : p.required = decide (Text.lower flag = "true")
  split : ∃ g₁ g₂ g₃ g₄, Text.Gap g₁ ∧ Text.Gap g₂ ∧ Text.Gap g₃ ∧ Text.Gap g₄ ∧
    text = p.name ++ g₁ ++ (place ++ g₂ ++ (p.type ++ g₃ ++ (flag ++ g₄ ++
      ("\"" ++ p.description ++ "\""))))

structure ResponseDoc.Columns (r : ResponseDoc) (status text : String) : Prop where
  legible : r.Legible
  counted : Text.decimalBelow? 65536 status = some r.status
  split : ∃ g₁ g₂, Text.Gap g₁ ∧ Text.Gap g₂ ∧ text = status ++ g₁ ++ (r.schema ++ g₂ ++ r.type)

namespace EndpointDoc

open Text

def paramText (p : ParamDoc) : String :=
  p.name ++ " " ++ p.kind.text ++ " " ++ p.type ++ " " ++ writeFlag p.required ++ " \"" ++
    p.description ++ "\""

theorem ofText?_text (kind : ParamKind) : ParamKind.ofText? kind.text = some kind := by
  cases kind <;> decide

theorem lower_writeFlag (b : Bool) : decide (lower (writeFlag b) = "true") = b := by
  cases b <;> decide

theorem solid_kind (kind : ParamKind) : Solid kind.text := by
  cases kind <;> decide

theorem solid_flag (b : Bool) : Solid (writeFlag b) := by
  cases b <;> decide

theorem isWord_kind (kind : ParamKind) : ∀ c ∈ kind.text.toList, isWord c := by
  cases kind <;> simp [ParamKind.text, isWord]

theorem isWord_flag (b : Bool) : ∀ c ∈ (writeFlag b).toList, isWord c := by
  cases b <;> simp [writeFlag, isWord]

theorem quoted?_append {text : String} (rest : List Char) (hne : text ≠ "")
    (hq : '\x22' ∉ text.toList) :
    quoted? ('\x22' :: (text.toList ++ '\x22' :: rest)) = some text := by
  have hrun : run? (· ≠ '\x22') (text.toList ++ '\x22' :: rest) =
      some (text.toList, '\x22' :: rest) := by
    refine run?_eq_some.2 ⟨by simpa using hne, fun c hc ↦ ?_, rfl, by simp⟩
    simpa using fun h : c = '\x22' ↦ hq (h ▸ hc)
  simp only [quoted?, hrun]
  simp

theorem findParam?_of_paramAt? {cs : List Char}
    {columns : String × String × String × String × String}
    (h : paramAt? cs = some columns) : findParam? cs = some columns := by
  cases cs with
  | nil =>
    have hnil : column? isInk [] = none := rfl
    simp [paramAt?, hnil] at h
  | cons c cs => rw [findParam?, h, Option.orElse_some]

theorem paramAt?_eq_some {cs : List Char} {name kind type required description : String} :
    paramAt? cs = some (name, kind, type, required, description) ↔
      ∃ cs₁ cs₂ cs₃ cs₄, column? isInk cs = some (name, cs₁) ∧
        column? isWord cs₁ = some (kind, cs₂) ∧ column? isInk cs₂ = some (type, cs₃) ∧
        column? isWord cs₃ = some (required, cs₄) ∧ quoted? cs₄ = some description := by
  simp only [paramAt?, Option.bind_eq_bind, Option.bind_eq_some_iff, Prod.exists, Option.pure_def,
    Option.some.injEq, Prod.mk.injEq]
  constructor
  · rintro ⟨_, cs₁, h1, _, cs₂, h2, _, cs₃, h3, _, cs₄, h4, _, h5, rfl, rfl, rfl, rfl, rfl⟩
    exact ⟨cs₁, cs₂, cs₃, cs₄, h1, h2, h3, h4, h5⟩
  · rintro ⟨cs₁, cs₂, cs₃, cs₄, h1, h2, h3, h4, h5⟩
    exact ⟨_, cs₁, h1, _, cs₂, h2, _, cs₃, h3, _, cs₄, h4, _, h5, rfl, rfl, rfl, rfl, rfl⟩

theorem paramAt?_columns {p : ParamDoc} {place flag text : String}
    (h : p.Columns place flag text) (after : String) :
    paramAt? (text ++ after).toList = some (p.name, place, p.type, flag, p.description) := by
  obtain ⟨g₁, g₂, g₃, g₄, hg₁, hg₂, hg₃, hg₄, rfl⟩ := h.split
  let quoted := '\x22' :: (p.description.toList ++ '\x22' :: after.toList)
  let flagged := flag.toList ++ (g₄.toList ++ quoted)
  let typed := p.type.toList ++ (g₃.toList ++ flagged)
  let placed := place.toList ++ (g₂.toList ++ typed)
  have htext : (p.name ++ g₁ ++ (place ++ g₂ ++ (p.type ++ g₃ ++ (flag ++ g₄ ++
      ("\"" ++ p.description ++ "\"")))) ++ after).toList =
      p.name.toList ++ (g₁.toList ++ placed) := by
    simp [placed, typed, flagged, quoted]
  rw [htext]
  refine paramAt?_eq_some.2 ⟨placed, typed, flagged, quoted, ?_, ?_, ?_, ?_, ?_⟩
  · exact column?_isInk.2 ⟨g₁, hg₁, h.legible.name, startsInked_append h.placed.solid _, rfl⟩
  · exact column?_isWord.2 ⟨g₂, hg₂, h.placed, startsInked_append h.legible.type _, rfl⟩
  · exact column?_isInk.2 ⟨g₃, hg₃, h.legible.type, startsInked_append h.flagged.solid _, rfl⟩
  · exact column?_isWord.2 ⟨g₄, hg₄, h.flagged, by rintro c ⟨⟩; decide, rfl⟩
  · exact quoted?_append _ h.legible.described h.legible.unquoted

/-- A line that begins with the five columns is read. -/
theorem readParam?_of_columns {p : ParamDoc} {place flag text : String}
    (h : p.Columns place flag text) (after : String) :
    readParam? (text ++ after) = some p := by
  rw [readParam?, findParam?_of_paramAt? (paramAt?_columns h after)]
  simp [h.kind, ← h.required]

theorem columns_paramText {p : ParamDoc} (h : p.Legible) :
    p.Columns p.kind.text (writeFlag p.required) (paramText p) := by
  refine ⟨h, ⟨(solid_kind _).1, isWord_kind _⟩, ofText?_text _, ⟨(solid_flag _).1, isWord_flag _⟩,
    (lower_writeFlag _).symm, " ", " ", " ", " ", gap_space, gap_space, gap_space, gap_space, ?_⟩
  rw [← String.toList_inj]
  simp [paramText]

theorem readParam?_paramText {p : ParamDoc} (h : p.Legible) :
    readParam? (paramText p) = some p := by
  have hread := readParam?_of_columns (columns_paramText h) ""
  rwa [String.append_empty] at hread

theorem trimmed_paramText {p : ParamDoc} (h : p.Legible) : Trimmed (paramText p) := by
  have hstart : StartsInked (paramText p).toList := by
    simp only [paramText, String.append_assoc, String.toList_append]
    exact startsInked_append h.name _
  have hend : (paramText p).toList.getLast? = some '\x22' := by
    rw [paramText, String.toList_append]
    exact List.getLast?_concat
  exact trimmed_iff.2 ⟨hstart, by rw [hend]; rintro c ⟨⟩; decide⟩

/-- The columns that are found begin where a word begins: the search goes from left to right, and
from inside a word it would have found them at its start. -/
theorem findParam?_eq_some {cs : List Char} {columns : String × String × String × String × String}
    (h : findParam? cs = some columns) :
    ∃ before ds, cs = before ++ ds ∧ (∀ c ∈ before.getLast?, isBlank c) ∧
      paramAt? ds = some columns := by
  induction cs with
  | nil => simp [findParam?] at h
  | cons c cs ih =>
    rw [findParam?] at h
    cases hat : paramAt? (c :: cs) with
    | some found => exact ⟨[], c :: cs, rfl, by simp, by simpa [hat] using h⟩
    | none =>
      obtain ⟨before, ds, rfl, hbefore, hfound⟩ := ih (by simpa [hat] using h)
      refine ⟨c :: before, ds, rfl, ?_, hfound⟩
      cases before with
      | cons d before => simpa using hbefore
      | nil =>
        obtain ⟨name, kind, type, required, description⟩ := columns
        obtain ⟨cs₁, cs₂, cs₃, cs₄, h1, hmore⟩ := paramAt?_eq_some.1 hfound
        suffices hc : isBlank c by simpa using hc
        by_contra hc
        have hink : isInk c := isInk_eq_true.2 (Bool.eq_false_iff.2 hc)
        have hinside := paramAt?_eq_some.2 ⟨cs₁, cs₂, cs₃, cs₄, column?_cons hink h1, hmore⟩
        rw [List.nil_append, hinside] at hat
        cases hat

theorem quoted?_eq_some {cs : List Char} {text : String} (h : quoted? cs = some text) :
    text ≠ "" ∧ '\x22' ∉ text.toList ∧ ∃ rest, cs = '\x22' :: (text.toList ++ '\x22' :: rest) := by
  rw [quoted?.eq_def] at h
  split at h
  · simp only [Option.bind_eq_bind, Option.bind_eq_some_iff, Prod.exists] at h
    obtain ⟨word, after, hrun, h⟩ := h
    obtain ⟨hne, hall, rfl, hstop⟩ := run?_eq_some.1 hrun
    cases after with
    | nil => simp at h
    | cons c rest =>
      obtain rfl : c = '\x22' := by simpa using hstop c rfl
      obtain rfl : String.ofList word = text := by simpa using h
      refine ⟨by simpa [← String.toList_inj] using hne, fun hq ↦ ?_, rest, by simp⟩
      exact absurd (hall _ (by simpa using hq)) (by decide)
  · simp at h

theorem exists_columns_of_paramAt? {cs : List Char}
    {name place type flag description : String} {kind : ParamKind}
    (h : paramAt? cs = some (name, place, type, flag, description))
    (hkind : ParamKind.ofText? place = some kind) :
    ∃ text after : String, cs = text.toList ++ after.toList ∧
      ParamDoc.Columns ⟨name, kind, type, decide (lower flag = "true"), description⟩ place flag
        text := by
  obtain ⟨cs₁, cs₂, cs₃, cs₄, h1, h2, h3, h4, h5⟩ := paramAt?_eq_some.1 h
  obtain ⟨g₁, hg₁, hname, -, rfl⟩ := column?_isInk.1 h1
  obtain ⟨g₂, hg₂, hplace, -, rfl⟩ := column?_isWord.1 h2
  obtain ⟨g₃, hg₃, htype, -, rfl⟩ := column?_isInk.1 h3
  obtain ⟨g₄, hg₄, hflag, -, rfl⟩ := column?_isWord.1 h4
  obtain ⟨hne, hquote, after, rfl⟩ := quoted?_eq_some h5
  refine ⟨_, String.ofList after, ?_, ⟨hname, htype, hne, hquote⟩, hplace, hkind, hflag, rfl,
    g₁, g₂, g₃, g₄, hg₁, hg₂, hg₃, hg₄, rfl⟩
  simp

theorem exists_columns_of_readParam? {p : ParamDoc} {text : String}
    (h : readParam? text = some p) :
    ∃ before columns after place flag, text = before ++ columns ++ after ∧
      (∀ c ∈ before.toList.getLast?, isBlank c) ∧ p.Columns place flag columns := by
  simp only [readParam?, Option.bind_eq_bind, Option.bind_eq_some_iff, Prod.exists] at h
  obtain ⟨name, place, type, flag, description, hfind, kind, hkind, heq⟩ := h
  obtain ⟨before, cs, hcs, hbefore, hat⟩ := findParam?_eq_some hfind
  obtain ⟨columns, after, rfl, hcolumns⟩ := exists_columns_of_paramAt? hat hkind
  simp only [Option.pure_def, Option.some.injEq] at heq
  subst heq
  refine ⟨String.ofList before, columns, after, place, flag, ?_, by simpa using hbefore, hcolumns⟩
  rw [← String.toList_inj, hcs]
  simp

theorem readParam?_eq_some {text : String} {p : ParamDoc} (h : readParam? text = some p) :
    p.Legible ∧ p.description.toList ⊆ text.toList := by
  obtain ⟨before, columns, after, place, flag, rfl, -, hcolumns⟩ := exists_columns_of_readParam? h
  obtain ⟨g₁, g₂, g₃, g₄, -, -, -, -, rfl⟩ := hcolumns.split
  refine ⟨hcolumns.legible, fun c hc ↦ ?_⟩
  simp [hc]

theorem readParam?_legible {text : String} {p : ParamDoc} (h : readParam? text = some p) :
    p.Legible :=
  (readParam?_eq_some h).1

def responseText (r : ResponseDoc) : String :=
  Nat.repr r.status ++ " " ++ r.schema ++ " " ++ r.type

theorem isDecimal_of_isDigit {c : Char} (h : c.isDigit) : isDecimal c := by
  have hc := toNat_of_isDigit h
  rw [isDecimal, if_pos (by omega), h]

theorem decimalBelow?_repr {bound n : ℕ} (h : n < bound) :
    decimalBelow? bound (Nat.repr n) = some n := by
  have hdigits : decimalOf (Nat.toDigits 10 n) = n :=
    Nat.ofDigitChars_toDigits (by decide) (by decide)
  have hall : (Nat.toDigits 10 n).all Char.isDigit = true := by
    rw [List.all_eq_true, ← Nat.toList_repr]
    exact isDigit_repr n
  simp [decimalBelow?, Nat.toList_repr, hdigits, hall, h]

theorem decimalBelow?_lt {bound n : ℕ} {s : String} (h : decimalBelow? bound s = some n) :
    n < bound := by
  simp only [decimalBelow?, Option.ite_none_right_eq_some, Bool.and_eq_true,
    decide_eq_true_eq, Option.some.injEq] at h
  rw [← h.2]
  exact h.1.2

theorem decimalOf_concat (digits : List Char) (c : Char) :
    decimalOf (digits ++ [c]) = 10 * decimalOf digits + digitValue c := by
  rw [decimalOf, List.foldl_append]
  rfl

theorem toDigits_digitValue {c : Char} (h : c.isDigit) :
    digitValue c < 10 ∧ Nat.toDigits 10 (digitValue c) = [c] := by
  have hc := toNat_of_isDigit h
  have hvalue : digitValue c = c.toNat - 48 := rfl
  have hlt : digitValue c < 10 := by omega
  have hchar : Nat.digitChar (digitValue c) = c := by
    apply Char.toNat_inj.1
    rw [Nat.toNat_digitChar_of_lt_ten hlt]
    omega
  exact ⟨hlt, by rw [Nat.toDigits_of_lt_base hlt, hchar]⟩

/-- Digits are the numeral of the number that they write, after zeros. -/
theorem exists_zeros {digits : List Char} (hne : digits ≠ []) (hall : ∀ c ∈ digits, c.isDigit) :
    ∃ zeros, (∀ c ∈ zeros, c = '0') ∧ digits = zeros ++ Nat.toDigits 10 (decimalOf digits) := by
  induction digits using List.reverseRecOn with
  | nil => exact absurd rfl hne
  | append_singleton digits c ih =>
    obtain ⟨hlt, hdigit⟩ := toDigits_digitValue (hall c (by simp))
    rw [decimalOf_concat]
    by_cases hnil : digits = []
    · subst hnil
      exact ⟨[], by simp, by simpa [decimalOf] using hdigit.symm⟩
    obtain ⟨zeros, hzeros, heq⟩ := ih hnil fun d hd ↦ hall d (List.mem_append_left _ hd)
    rcases Nat.eq_zero_or_pos (decimalOf digits) with hzero | hpos
    · -- all digits so far are zeros
      rw [hzero, Nat.toDigits_zero] at heq
      refine ⟨digits, ?_, by rw [hzero, Nat.mul_zero, Nat.zero_add, hdigit]⟩
      rw [heq]
      simpa [or_imp, forall_and] using hzeros
    · refine ⟨zeros, hzeros, ?_⟩
      rw [← Nat.toDigits_append_toDigits (by omega) hpos hlt, hdigit, ← List.append_assoc, ← heq]

theorem decimalBelow?_eq_some {bound n : ℕ} {s : String} (h : decimalBelow? bound s = some n) :
    s ≠ "" ∧ (∀ c ∈ s.toList, c.isDigit) ∧
      ∃ zeros : String, (∀ c ∈ zeros.toList, c = '0') ∧ s = zeros ++ Nat.repr n := by
  simp only [decimalBelow?, Option.ite_none_right_eq_some, Bool.and_eq_true, Bool.not_eq_true',
    List.isEmpty_eq_false_iff, List.all_eq_true, decide_eq_true_eq, Option.some.injEq] at h
  obtain ⟨⟨⟨hne, hall⟩, -⟩, rfl⟩ := h
  obtain ⟨zeros, hzeros, heq⟩ := exists_zeros hne hall
  refine ⟨by simpa using hne, hall, String.ofList zeros, by simpa using hzeros, ?_⟩
  rw [← String.toList_inj, String.toList_append, String.toList_ofList, Nat.toList_repr]
  exact heq

theorem isBlank_of_isDigit {c : Char} (h : c.isDigit) : isBlank c = false := by
  have hc := toNat_of_isDigit h
  simp only [isBlank, Bool.or_eq_false_iff, Bool.and_eq_false_iff, decide_eq_false_iff_not]
  omega

theorem solid_repr (n : ℕ) : Solid (Nat.repr n) := by
  refine ⟨?_, fun c hc ↦ isBlank_of_isDigit (isDigit_repr n c hc)⟩
  rw [ne_eq, ← String.toList_inj, Nat.toList_repr]
  exact Nat.toDigits_ne_nil

theorem braced?_append {word : String} (rest : List Char) (hne : word ≠ "")
    (hall : ∀ c ∈ word.toList, isWord c) :
    braced? ('\x7b' :: (word.toList ++ '\x7d' :: rest)) =
      some ("\x7b" ++ word ++ "\x7d", rest) := by
  have hrun : run? isWord (word.toList ++ '\x7d' :: rest) = some (word.toList, '\x7d' :: rest) :=
    run?_eq_some.2 ⟨by simpa using hne, hall, rfl, by rintro c ⟨⟩; decide⟩
  simp [braced?, hrun]

theorem braced?_eq_some {cs rest : List Char} {schema : String}
    (h : braced? cs = some (schema, rest)) :
    (∃ word : String, word ≠ "" ∧ (∀ c ∈ word.toList, isWord c) ∧
      schema = "\x7b" ++ word ++ "\x7d") ∧ cs = schema.toList ++ rest := by
  rw [braced?.eq_def] at h
  split at h
  · simp only [Option.bind_eq_bind, Option.bind_eq_some_iff, Prod.exists] at h
    obtain ⟨word, after, hrun, h⟩ := h
    obtain ⟨hne, hall, rfl, -⟩ := run?_eq_some.1 hrun
    split at h
    · simp only [Option.pure_def, Option.some.injEq, Prod.mk.injEq] at h
      obtain ⟨rfl, rfl⟩ := h
      exact ⟨⟨String.ofList word, by simpa [← String.toList_inj] using hne, by simpa using hall,
        rfl⟩, by simp⟩
    · simp at h
  · simp at h

theorem solid_schema {r : ResponseDoc} (h : r.Legible) : Solid r.schema := by
  obtain ⟨word, hne, hall, hschema⟩ := h.schema
  have hword : Solid word := Word.solid ⟨hne, hall⟩
  rw [hschema]
  refine ⟨by simp, fun c hc ↦ ?_⟩
  simp only [String.toList_append, List.mem_append] at hc
  rcases hc with (hc | hc) | hc
  · obtain rfl : c = '\x7b' := by simpa using hc
    decide
  · exact hword.2 c hc
  · obtain rfl : c = '\x7d' := by simpa using hc
    decide

theorem solid_status {bound n : ℕ} {status : String}
    (h : decimalBelow? bound status = some n) : Solid status := by
  obtain ⟨hne, hall, -⟩ := decimalBelow?_eq_some h
  exact ⟨hne, fun c hc ↦ isBlank_of_isDigit (hall c hc)⟩

theorem readResponse?_of_columns {r : ResponseDoc} {status text : String}
    (h : r.Columns status text) : readResponse? text = some r := by
  obtain ⟨g₁, g₂, hg₁, hg₂, rfl⟩ := h.split
  obtain ⟨hne, hall, -⟩ := decimalBelow?_eq_some h.counted
  obtain ⟨word, hwne, hword, hschema⟩ := h.legible.schema
  let typed := g₂.toList ++ r.type.toList
  have htext : (status ++ g₁ ++ (r.schema ++ g₂ ++ r.type)).toList =
      status.toList ++ (g₁.toList ++ '\x7b' :: (word.toList ++ '\x7d' :: typed)) := by
    simp [hschema, typed]
  have h1 : column? isDecimal (status ++ g₁ ++ (r.schema ++ g₂ ++ r.type)).toList =
      some (status, '\x7b' :: (word.toList ++ '\x7d' :: typed)) :=
    (column?_eq_some_gap fun c ↦ isDecimal_of_isBlank).2
      ⟨g₁, hg₁, hne, fun c hc ↦ isDecimal_of_isDigit (hall c hc), by rintro c ⟨⟩; decide, htext⟩
  have h2 := braced?_append typed hwne hword
  have h3 : run? isBlank typed = some (g₂.toList, r.type.toList) :=
    run?_eq_some.2 ⟨by simpa using hg₂.1, hg₂.2, rfl, (trimmed_iff.1 h.legible.type).1⟩
  have htype : trim r.type = r.type := h.legible.type
  rw [readResponse?, h1]
  simp [h2, h3, h.legible.typed, h.legible.oneLine, h.counted, htype, ← hschema]

theorem columns_responseText {r : ResponseDoc} (h : r.Legible) :
    r.Columns (Nat.repr r.status) (responseText r) := by
  refine ⟨h, decimalBelow?_repr h.status, " ", " ", gap_space, gap_space, ?_⟩
  rw [← String.toList_inj]
  simp [responseText]

theorem readResponse?_responseText {r : ResponseDoc} (h : r.Legible) :
    readResponse? (responseText r) = some r :=
  readResponse?_of_columns (columns_responseText h)

theorem trimmed_responseText {r : ResponseDoc} (h : r.Legible) : Trimmed (responseText r) := by
  have hstart : StartsInked (responseText r).toList := by
    simp only [responseText, String.append_assoc, String.toList_append]
    exact startsInked_append (solid_repr _) _
  refine trimmed_iff.2 ⟨hstart, ?_⟩
  rw [responseText, String.toList_append, List.getLast?_append_of_ne_nil _ (by simpa using h.typed)]
  exact (trimmed_iff.1 h.type).2

theorem trim_ne_empty {cs : List Char} (hne : cs ≠ []) (hcs : StartsInked cs) :
    trim (String.ofList cs) ≠ "" := by
  cases cs with
  | nil => exact absurd rfl hne
  | cons c cs =>
    have hc : isBlank c = false := hcs c (by simp)
    rw [ne_eq, ← String.toList_inj, toList_trim, String.toList_ofList,
      List.dropWhile_cons_of_neg (by simp [hc]), dropWhileEnd_cons]
    simp [hc]

theorem mem_of_mem_trim {s : String} {c : Char} (h : c ∈ (trim s).toList) : c ∈ s.toList := by
  rw [toList_trim] at h
  have hmem := (List.rdropWhile_prefix isBlank _).subset h
  exact (List.dropWhile_suffix isBlank).subset hmem

theorem readResponse?_eq_some {text : String} {r : ResponseDoc} (h : readResponse? text = some r) :
    r.Legible ∧ ∃ status g₁ g₂ type, decimalBelow? 65536 status = some r.status ∧ Gap g₁ ∧ Gap g₂ ∧
      type ≠ "" ∧ StartsInked type.toList ∧ r.type = trim type ∧
      text = status ++ g₁ ++ (r.schema ++ g₂ ++ type) := by
  simp only [readResponse?, Option.bind_eq_bind, Option.bind_eq_some_iff, Prod.exists] at h
  obtain ⟨status, cs₁, h1, schema, cs₂, h2, gap, type, h3, h⟩ := h
  split at h
  · simp at h
  · rename_i htype
    simp only [Bool.or_eq_true, List.isEmpty_iff, List.contains_iff_mem, not_or] at htype
    simp only [Option.bind_eq_some_iff, Option.pure_def, Option.some.injEq] at h
    obtain ⟨n, hn, rfl⟩ := h
    obtain ⟨g₁, hg₁, -, -, -, hstatus⟩ := (column?_eq_some_gap fun c ↦ isDecimal_of_isBlank).1 h1
    obtain ⟨hword, hschema⟩ := braced?_eq_some h2
    obtain ⟨hgne, hblank, hgap, hinked⟩ := run?_eq_some.1 h3
    have hg₂ : Gap (String.ofList gap) :=
      ⟨by simpa [← String.toList_inj] using hgne, by simpa using hblank⟩
    constructor
    · refine ⟨decimalBelow?_lt hn, hword, trim_ne_empty htype.1 hinked, trimmed_trim _,
        fun hnl ↦ htype.2 ?_⟩
      simpa using mem_of_mem_trim hnl
    · refine ⟨status, g₁, String.ofList gap, String.ofList type, hn, hg₁, hg₂,
        by simpa [← String.toList_inj] using htype.1, by rwa [String.toList_ofList], rfl, ?_⟩
      rw [← String.toList_inj, hstatus, hschema, hgap]
      simp

theorem readResponse?_legible {text : String} {r : ResponseDoc} (h : readResponse? text = some r) :
    r.Legible :=
  (readResponse?_eq_some h).1

theorem exists_columns_of_readResponse? {text : String} {r : ResponseDoc} (htext : Trimmed text)
    (h : readResponse? text = some r) : ∃ status, r.Columns status text := by
  obtain ⟨hlegible, status, g₁, g₂, type, hstatus, hg₁, hg₂, hne, hinked, htype, rfl⟩ :=
    readResponse?_eq_some h
  -- the text has no blank at its end, so that the type is all that follows the schema
  have hlast : ∀ c ∈ type.toList.getLast?, isBlank c = false := by
    intro c hc
    refine (trimmed_iff.1 htext).2 c ?_
    rw [← String.append_assoc, String.toList_append,
      List.getLast?_append_of_ne_nil _ (by simpa using hne)]
    exact hc
  have htrim : trim type = type := trimmed_iff.2 ⟨hinked, hlast⟩
  exact ⟨status, hlegible, hstatus, g₁, g₂, hg₁, hg₂, by rw [htype, htrim]⟩

def routerText (r : RouterDoc) : String :=
  r.path ++ " [" ++ r.method ++ "]"

theorem lower_eq_self {s : String} (h : ∀ c ∈ s.toList, c.isUpper = false) : lower s = s := by
  have hmap : s.toList.map Char.toLower = s.toList := by
    rw [List.map_congr_left fun c hc ↦ Char.toLower_eq_of_not_isUpper (by simp [h c hc])]
    exact List.map_id' _
  rw [lower, hmap, String.ofList_toList]

theorem readRouter?_routerText {r : RouterDoc} (h : r.Legible) :
    readRouter? (routerText r) = some r := by
  have h1 : column? isInk (routerText r).toList =
      some (r.path, '[' :: (r.method.toList ++ [']'])) :=
    column?_isInk.2 ⟨" ", gap_space, h.path, by rintro c ⟨⟩; decide, by simp [routerText]⟩
  have h2 : run? isWord (r.method.toList ++ [']']) = some (r.method.toList, [']']) :=
    run?_eq_some.2 ⟨by simpa using h.verb, h.word, rfl, by rintro c ⟨⟩; decide⟩
  simp [readRouter?, h1, h2, lower_eq_self h.lowerCase]

theorem trimmed_routerText {r : RouterDoc} (h : r.Legible) : Trimmed (routerText r) := by
  have hstart : StartsInked (routerText r).toList := by
    simp only [routerText, String.append_assoc, String.toList_append]
    exact startsInked_append h.path _
  have hend : (routerText r).toList.getLast? = some ']' := by
    rw [routerText, String.toList_append]
    exact List.getLast?_concat
  exact trimmed_iff.2 ⟨hstart, by rw [hend]; rintro c ⟨⟩; decide⟩

theorem isWord_of_isAlpha {c : Char} (h : c.isAlpha) : isWord c := by
  have hc : c.toNat < 128 := by
    simp only [Char.isAlpha, Char.isUpper, Char.isLower, Bool.or_eq_true, Bool.and_eq_true,
      decide_eq_true_eq] at h
    rcases h with h | h
    · exact Nat.lt_of_le_of_lt (UInt32.le_iff_toNat_le.1 h.2) (by decide)
    · exact Nat.lt_of_le_of_lt (UInt32.le_iff_toNat_le.1 h.2) (by decide)
  rw [isWord, if_pos hc, Char.isAlphanum, h]
  rfl

theorem isWord_toLower {c : Char} (h : isWord c) : isWord c.toLower := by
  by_cases hc : c.isUpper
  · exact isWord_of_isAlpha (by simp [Char.isAlpha, hc])
  · rwa [Char.toLower_eq_of_not_isUpper hc]

theorem readRouter?_legible {text : String} {r : RouterDoc} (h : readRouter? text = some r) :
    r.Legible := by
  simp only [readRouter?, Option.bind_eq_bind, Option.bind_eq_some_iff, Prod.exists] at h
  obtain ⟨path, cs, h1, h⟩ := h
  obtain ⟨gap, -, hpath, -⟩ := column?_isInk.1 h1
  split at h
  · simp only [Option.bind_eq_some_iff, Prod.exists] at h
    obtain ⟨method, rest, h2, h⟩ := h
    obtain ⟨hne, hword, -, -⟩ := run?_eq_some.1 h2
    split at h
    · simp only [Option.pure_def, Option.some.injEq] at h
      subst h
      refine ⟨hpath, ?_, ?_, ?_⟩
      · simpa [lower, ← String.toList_inj] using hne
      · intro c hc
        simp only [lower, String.toList_ofList, List.mem_map] at hc
        obtain ⟨d, hd, rfl⟩ := hc
        exact isWord_toLower (hword d hd)
      · intro c hc
        simp only [lower, String.toList_ofList, List.mem_map] at hc
        obtain ⟨d, hd, rfl⟩ := hc
        exact Char.isUpper_toLower_eq_false d
    · simp at h
  · simp at h

end HandlerDocs.EndpointDoc
