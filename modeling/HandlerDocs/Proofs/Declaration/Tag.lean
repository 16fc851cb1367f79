import HandlerDocs.Declaration.Struct
import HandlerDocs.Proofs.Text.Words

namespace HandlerDocs.Tag

open Text

section Value

/-- A text that can stand between quotes. A backslash takes the next character with it, so a quote
may follow one, but a line feed may not. -/
inductive Quotable : List Char → Prop
  | nil : Quotable []
  | plain {c : Char} {cs : List Char} :
      c ≠ '\x22' → c ≠ '\\' → Quotable cs → Quotable (c :: cs)
  | escaped {c : Char} {cs : List Char} : c ≠ '\n' → Quotable cs → Quotable ('\\' :: c :: cs)

theorem valueOf_plain {c : Char} (hquote : c ≠ '\x22') (hslash : c ≠ '\\') (cs : List Char) :
    valueOf (c :: cs) = (valueOf cs).map fun r ↦ (c :: r.1, r.2) := by
  rw [valueOf, if_neg hquote, if_neg hslash]
  rintro d ds rfl
  exact absurd rfl hslash

theorem Quotable.valueOf_append {value : List Char} (h : Quotable value) (rest : List Char) :
    valueOf (value ++ '\x22' :: rest) = some (value, rest) := by
  induction h with
  | nil => rfl
  | plain hquote hslash _ ih =>
    rw [List.cons_append, valueOf_plain hquote hslash, ih, Option.map_some]
  | escaped hfeed _ ih =>
    rw [List.cons_append, List.cons_append, valueOf, if_neg hfeed, ih, Option.map_some]

theorem quotable_of_valueOf {text value rest : List Char} (h : valueOf text = some (value, rest)) :
    Quotable value := by
  fun_induction valueOf text generalizing value rest with
  | case1 => cases h
  | case2 => cases h
  | case3 c cs hfeed ih =>
    obtain ⟨r, hr, hvalue⟩ := Option.map_eq_some_iff.1 h
    cases hvalue
    exact .escaped hfeed (ih hr)
  | case4 =>
    cases h
    exact .nil
  | case5 => cases h
  | case6 c cs _ hquote hslash ih =>
    obtain ⟨r, hr, hvalue⟩ := Option.map_eq_some_iff.1 h
    cases hvalue
    exact .plain hquote hslash (ih hr)

instance : DecidablePred Quotable := fun value ↦
  decidable_of_iff (valueOf (value ++ ['\x22']) = some (value, []))
    ⟨quotable_of_valueOf, fun h ↦ h.valueOf_append []⟩

end Value

section Pair

def IsKey : List Char → Prop
  | [] => False
  | c :: cs => (c.isAlpha ∨ c = '_') ∧ ∀ d ∈ cs, isWord d ∨ d = '-'

instance : DecidablePred IsKey
  | [] => inferInstanceAs (Decidable False)
  | c :: cs => decidable_of_iff ((c.isAlpha ∨ c = '_') ∧ cs.all fun d ↦ isWord d || d = '-')
      (by simp [IsKey])

/-- The key ends at the colon and the value at its own quote, whatever comes after them. -/
theorem pairAt?_append {key value : List Char} (hkey : IsKey key) (hvalue : Quotable value)
    (rest : List Char) :
    pairAt? (key ++ ':' :: '\x22' :: (value ++ '\x22' :: rest)) =
      some ((String.ofList key, String.ofList value), rest) := by
  cases key with
  | nil => exact hkey.elim
  | cons c cs =>
    have hstart : isKeyStart c := by simpa [isKeyStart] using hkey.1
    have hpart : ∀ d ∈ cs, isKeyPart d := by simpa [isKeyPart] using hkey.2
    have hcolon : isKeyPart ':' = false := by decide
    rw [List.cons_append, pairAt?, if_pos hstart, List.dropWhile_append_of_pos hpart,
      List.takeWhile_append_of_pos hpart, List.dropWhile_cons_of_neg (by simp [hcolon]),
      List.takeWhile_cons_of_neg (by simp [hcolon]), List.append_nil]
    simp only [hvalue.valueOf_append]
    rfl

structure Pair where
  key : String
  value : String
  isKey : IsKey key.toList
  quotable : Quotable value.toList

def Pair.text (pair : Pair) : String :=
  pair.key ++ ":\x22" ++ pair.value ++ "\x22"

theorem Pair.text_pos (pair : Pair) : 0 < pair.text.toList.length := by
  simp [text]

theorem Pair.pairAt?_text (pair : Pair) (rest : List Char) :
    pairAt? (pair.text.toList ++ rest) = some ((pair.key, pair.value), rest) := by
  have htext : pair.text.toList ++ rest =
      pair.key.toList ++ ':' :: '\x22' :: (pair.value.toList ++ '\x22' :: rest) := by
    simp [text]
  rw [htext, pairAt?_append pair.isKey pair.quotable, String.ofList_toList, String.ofList_toList]

end Pair

inductive Spells : List Pair → String → Prop
  | empty : Spells [] ""
  | one (pair : Pair) : Spells [pair] pair.text
  | more (pair : Pair) {next : Pair} {pairs : List Pair} {gap tag : String} :
      Gap gap → Spells (next :: pairs) tag →
        Spells (pair :: next :: pairs) (pair.text ++ gap ++ tag)

section Scan

theorem pairsFrom_pair (pair : Pair) (fuel : Nat) (rest : List Char) :
    pairsFrom (fuel + 1) (pair.text.toList ++ rest) =
      (pair.key, pair.value) :: pairsFrom fuel rest := by
  have hread := pair.pairAt?_text rest
  cases htext : pair.text.toList ++ rest with
  | nil =>
    rw [htext] at hread
    cases hread
  | cons c cs =>
    rw [htext] at hread
    rw [pairsFrom, hread]

theorem isKeyStart_of_isBlank {c : Char} (h : isBlank c) : isKeyStart c = false :=
  eq_false_of_isBlank (p := isKeyStart) h (by decide)

/-- No pair starts in a gap. -/
theorem pairsFrom_gap {gap : List Char} (h : ∀ c ∈ gap, isBlank c) (fuel : Nat)
    (rest : List Char) : pairsFrom (gap.length + fuel) (gap ++ rest) = pairsFrom fuel rest := by
  induction gap with
  | nil => rw [List.length_nil, Nat.zero_add, List.nil_append]
  | cons c gap ih =>
    rw [List.forall_mem_cons] at h
    have hnone : pairAt? (c :: (gap ++ rest)) = none := by
      rw [pairAt?, isKeyStart_of_isBlank h.1]
      rfl
    rw [List.length_cons, Nat.add_right_comm, List.cons_append, pairsFrom, hnone]
    exact ih h.2

/-- Every step of the scan takes a character at least, so the length of a tag is fuel enough. -/
theorem Spells.pairsFrom_eq {pairs : List Pair} {tag : String} (h : Spells pairs tag)
    {fuel : Nat} (hfuel : tag.toList.length ≤ fuel) :
    pairsFrom fuel tag.toList = pairs.map fun pair ↦ (pair.key, pair.value) := by
  induction h generalizing fuel with
  | empty => cases fuel <;> rfl
  | one pair =>
    obtain ⟨fuel, rfl⟩ := Nat.exists_eq_add_of_le' (pair.text_pos.trans_le hfuel)
    rw [← List.append_nil pair.text.toList, pairsFrom_pair]
    cases fuel <;> rfl
  | @more pair next pairs gap tag hgap _ ih =>
    have hpos := pair.text_pos
    rw [String.toList_append, String.toList_append, List.append_assoc] at hfuel ⊢
    rw [List.length_append, List.length_append] at hfuel
    obtain ⟨fuel, rfl⟩ : ∃ spare, fuel = gap.toList.length + (tag.toList.length + spare) + 1 :=
      ⟨fuel - (gap.toList.length + tag.toList.length + 1), by omega⟩
    rw [pairsFrom_pair, pairsFrom_gap hgap.2, List.map_cons, ih (Nat.le_add_right _ _)]

end Scan

/-- The first pair with a key decides. -/
theorem lookup_map_pair (pairs : List Pair) (key : String) :
    (pairs.map fun pair ↦ (pair.key, pair.value)).lookup key =
      (pairs.find? (·.key = key)).map Pair.value := by
  induction pairs with
  | nil => rfl
  | cons pair pairs ih =>
    by_cases hkey : pair.key = key
    · simp [hkey]
    · have hother : (key == pair.key) = false := by simpa using Ne.symm hkey
      rw [List.map_cons, List.lookup_cons, hother, ih, List.find?_cons_of_neg (by simpa using hkey)]

/-- What is written into a tag is read from it: a key has the value of the first pair with that
key, and a key without a pair has none. -/
theorem spelled_pairs_read_back {τ : Type} (field : Code.FieldOf τ) {tag : String}
    (htag : field.tag = some tag) {pairs : List Pair} (h : Spells pairs tag) (key : String) :
    field.tagValue? key = (pairs.find? (·.key = key)).map Pair.value := by
  rw [Code.FieldOf.tagValue?, htag, Option.bind_some, Tag.pairs, h.pairsFrom_eq le_rfl,
    lookup_map_pair]

/-- A value may quote another pair, and its last backslash does not take the closing quote. -/
theorem spelled_pairs_read_back_quoting :
    let quoting : Pair := ⟨"_x-1", "see json:\\\x22no\\\x22 \\\\", by decide, by decide⟩
    let named : Pair := ⟨"json", "id,omitempty", by decide, by decide⟩
    let late : Pair := ⟨"json", "late", by decide, by decide⟩
    let tag :=
      "_x-1:\x22see json:\\\x22no\\\x22 \\\\\x22 \tjson:\x22id,omitempty\x22 json:\x22late\x22"
    let field : Code.FieldOf Code.TypeExpr := ⟨["ID"], .name "int", some tag⟩
    field.tag = some tag ∧ Spells [quoting, named, late] tag ∧
      field.tagValue? "json" = some "id,omitempty" ∧ field.tagValue? "no" = none := by
  intro quoting named late tag field
  have hspells : Spells [quoting, named, late]
      (quoting.text ++ " \t" ++ (named.text ++ " " ++ late.text)) :=
    .more quoting (by decide) (.more named (by decide) (.one late))
  have htag : quoting.text ++ " \t" ++ (named.text ++ " " ++ late.text) = tag := by decide
  rw [htag] at hspells
  exact ⟨rfl, hspells, (spelled_pairs_read_back field rfl hspells "json").trans (by decide),
    (spelled_pairs_read_back field rfl hspells "no").trans (by decide)⟩

end HandlerDocs.Tag
