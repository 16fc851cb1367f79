import HandlerDocs.Code.Token
import HandlerDocs.Code.Type
import HandlerDocs.Proofs.Prelude
import HandlerDocs.Shape

namespace HandlerDocs

namespace Naming

open Text

variable {c : Char} {text rest package other : String} {marks : List Char}

theorem isNameChar_of_isNamePart (h : Code.Lexer.isNamePart c = true) : isNameChar c = true := by
  simp only [Code.Lexer.isNamePart, Code.Lexer.isNameStart, Bool.or_eq_true,
    decide_eq_true_eq] at h
  simp only [isNameChar, isAlphanumeric, isNumeric, Bool.or_eq_true, decide_eq_true_eq]
  tauto

theorem isMarker_of_isNameChar (h : isNameChar c = true) : isMarker c = false := by
  by_contra hmarker
  simp only [isMarker, Bool.not_eq_false, Bool.or_eq_true, decide_eq_true_eq] at hmarker
  rcases hmarker with ((rfl | rfl) | rfl) | rfl <;> revert h <;> decide

theorem upTo_append (h : '[' ∉ text.toList) : upTo '[' (text ++ rest) = text ++ upTo '[' rest := by
  have htext : ∀ c ∈ text.toList, decide (c ≠ '[') = true :=
    fun c hc ↦ decide_eq_true fun hbracket ↦ h (hbracket ▸ hc)
  rw [upTo, upTo, String.toList_append, List.takeWhile_append_of_pos htext, String.ofList_append,
    String.ofList_toList]

section Word

def Word (text : String) : Prop :=
  text ≠ "" ∧ ∀ c ∈ text.toList, isNameChar c = true

theorem Word.not_mem (h : Word text) (hc : isNameChar c = false) : c ∉ text.toList := by
  intro hmem
  rw [h.2 c hmem] at hc
  cases hc

theorem Word.head? (h : Word text) (rest : String) :
    ∀ c ∈ (text ++ rest).toList.head?, isMarker c = false := by
  obtain ⟨first, more, hfirst⟩ :=
    List.exists_cons_of_ne_nil (String.toList_eq_nil_iff.not.2 h.1)
  intro c hc
  rw [String.toList_append, hfirst] at hc
  obtain rfl := Option.some.inj hc
  exact isMarker_of_isNameChar (h.2 _ (by simp [hfirst]))

theorem Word.of_head? {p : Char → Bool} (hfirst : text.toList.head?.any p = true)
    (hparts : text.toList.all Code.Lexer.isNamePart = true) : Word text := by
  constructor
  · rintro rfl
    cases hfirst
  · exact fun c hc ↦ isNameChar_of_isNamePart (List.all_eq_true.1 hparts c hc)

def isIdentifier (text : String) : Bool :=
  text.toList.head?.any Code.Lexer.isNameStart && text.toList.all Code.Lexer.isNamePart &&
    !Code.Lexer.keywords.contains text

theorem word_of_isIdentifier (h : isIdentifier text = true) : Word text := by
  simp only [isIdentifier, Bool.and_eq_true] at h
  exact .of_head? h.1.1 h.1.2

end Word

section Marks

/-- An element name that can be qualified: no map or interface type, no text with other characters
than those of a name, and no name of the documentation. -/
def isPlain (rest : String) : Bool :=
  let head := (upTo '[' rest).toList
  !(head.isEmpty || !head.all isNameChar || startsWith rest "map[" ||
    startsWith rest "interface\x7b" || documentary.contains rest)

def qualifyElement (rest package : String) : String :=
  if isPlain rest then qualify rest package else rest

/-- A written type is qualified behind its marks. -/
theorem qualifyText_append (hmarks : ∀ c ∈ marks, isMarker c = true)
    (hrest : ∀ c ∈ rest.toList.head?, isMarker c = false) :
    qualifyText (String.ofList marks ++ rest) package =
      String.ofList marks ++ qualifyElement rest package := by
  have hstop : rest.toList.takeWhile isMarker = [] ∧
      rest.toList.dropWhile isMarker = rest.toList := by
    cases hcs : rest.toList with
    | nil => exact ⟨rfl, rfl⟩
    | cons c cs =>
      have hc : isMarker c = false := hrest c (by simp [hcs])
      simp [hc]
  have hdrop : dropLeading isMarker (String.ofList marks ++ rest) = rest := by
    rw [dropLeading, String.toList_append, String.toList_ofList,
      List.dropWhile_append_of_pos hmarks, hstop.2, String.ofList_toList]
  have htake : (String.ofList marks ++ rest).toList.takeWhile isMarker = marks := by
    rw [String.toList_append, String.toList_ofList, List.takeWhile_append_of_pos hmarks, hstop.1,
      List.append_nil]
  rw [qualifyText, hdrop, htake, qualifyElement, isPlain]
  cases _ || _ || _ || _ || _ <;> rfl

theorem exists_marks (text : String) : ∃ marks rest, text = String.ofList marks ++ rest ∧
    (∀ c ∈ marks, isMarker c = true) ∧ ∀ c ∈ rest.toList.head?, isMarker c = false := by
  refine ⟨text.toList.takeWhile isMarker, String.ofList (text.toList.dropWhile isMarker),
    ?_, ?_, ?_⟩
  · rw [← String.ofList_append, List.takeWhile_append_dropWhile, String.ofList_toList]
  · exact fun c hc ↦ List.mem_takeWhile_imp hc
  · intro c hc
    have hstop := List.head?_dropWhile_not isMarker text.toList
    rw [String.toList_ofList, Option.mem_def] at hc
    rwa [hc] at hstop

theorem qualifyText_of_head? (hrest : ∀ c ∈ rest.toList.head?, isMarker c = false) :
    qualifyText rest package = qualifyElement rest package := by
  have h := @qualifyText_append rest package [] (List.forall_mem_nil _) hrest
  rwa [String.ofList_nil, String.empty_append, String.empty_append] at h

theorem qualifyText_marks (hmarks : ∀ c ∈ marks, isMarker c = true) :
    qualifyText (String.ofList marks ++ text) package =
      String.ofList marks ++ qualifyText text package := by
  obtain ⟨more, rest, rfl, hmore, hrest⟩ := exists_marks text
  have hall : ∀ c ∈ marks ++ more, isMarker c = true :=
    fun c hc ↦ (List.mem_append.1 hc).elim (hmarks c) (hmore c)
  rw [← String.append_assoc, ← String.ofList_append, qualifyText_append hall hrest,
    qualifyText_append hmore hrest, String.ofList_append, String.append_assoc]

end Marks

section Bare

def isSettled (text : String) : Bool :=
  hasChar '.' (upTo '[' text) || isPredeclared (upTo '[' text)

theorem qualify_of_isSettled (h : isSettled text = true) : qualify text package = text := by
  rw [isSettled, Bool.or_eq_true] at h
  rw [qualify]
  rcases h with h | h <;> simp [h]

theorem qualify_of_not_isSettled (hpackage : package ≠ "") (h : isSettled text = false) :
    qualify text package = package ++ "." ++ text := by
  rw [isSettled, Bool.or_eq_false_iff] at h
  simp [qualify, h, hpackage]

theorem qualify_eq_self_iff :
    qualify text package = text ↔ package = "" ∨ isSettled text = true := by
  constructor
  · intro h
    by_contra hbare
    simp only [not_or, Bool.not_eq_true] at hbare
    rw [qualify_of_not_isSettled hbare.1 hbare.2] at h
    have hlength := congrArg String.length h
    have hdot : ".".length = 1 := rfl
    simp only [String.length_append] at hlength
    omega
  · rintro (rfl | h)
    · rfl
    · exact qualify_of_isSettled h

theorem isSettled_append (h : Word package) : isSettled (package ++ "." ++ rest) = true := by
  have hbracket : '[' ∉ (package ++ ".").toList := by
    simpa using h.not_mem (c := '[') (by decide)
  rw [isSettled, upTo_append hbracket]
  simp [hasChar]

end Bare

section Twice

variable (h : Word package)

include h

theorem qualifyElement_eq_or (rest : String) :
    (∀ other, qualifyElement rest other = rest) ∨
      qualifyElement rest package = package ++ "." ++ rest := by
  cases hplain : isPlain rest with
  | false => exact .inl fun other ↦ by simp [qualifyElement, hplain]
  | true =>
    cases hsettled : isSettled rest with
    | true => exact .inl fun other ↦ by simp [qualifyElement, qualify_of_isSettled hsettled]
    | false => exact .inr (by simp [qualifyElement, hplain, qualify_of_not_isSettled h.1 hsettled])

theorem qualifyText_qualifyText :
    qualifyText (qualifyText text package) other = qualifyText text package := by
  obtain ⟨marks, rest, rfl, hmarks, hrest⟩ := exists_marks text
  have helement :
      qualifyText (qualifyElement rest package) other = qualifyElement rest package := by
    rcases qualifyElement_eq_or h rest with hsame | hdotted
    · rw [hsame, qualifyText_of_head? hrest, hsame]
    · rw [hdotted, String.append_assoc, qualifyText_of_head? (h.head? _), ← String.append_assoc,
        qualifyElement, qualify_of_isSettled (isSettled_append h), ite_self]
  rw [qualifyText_append hmarks hrest, qualifyText_marks hmarks, helement]

end Twice

section TypeName

def TypeHead (head : String) : Prop :=
  isIdentifier head = true ∨ ∃ package base, head = package ++ "." ++ base ∧
    isIdentifier package = true ∧ isIdentifier base = true

def TypeName (text : String) : Prop :=
  ∃ head args, text = head ++ args ∧ TypeHead head ∧ (args = "" ∨ startsWith args "[" = true)

variable {head args start : String}

theorem TypeHead.word (h : TypeHead head) : Word head := by
  rcases h with h | ⟨package, base, rfl, hpackage, hbase⟩
  · exact word_of_isIdentifier h
  · refine ⟨by simp, fun c hc ↦ ?_⟩
    simp only [String.toList_append, List.mem_append] at hc
    rcases hc with (hc | hc) | hc
    · exact (word_of_isIdentifier hpackage).2 c hc
    · obtain rfl : c = '.' := by simpa using hc
      decide
    · exact (word_of_isIdentifier hbase).2 c hc

theorem TypeHead.ne_map (h : TypeHead head) : head ≠ "map" := by
  rintro rfl
  rcases h with h | ⟨package, base, hdotted, -⟩
  · exact absurd h (by decide)
  · have hdot : '.' ∈ "map".toList := by simp [hdotted]
    exact absurd hdot (by decide)

theorem exists_eq_append_of_startsWith (h : startsWith text start = true) :
    ∃ more, text = start ++ more := by
  obtain ⟨more, hmore⟩ := List.isPrefixOf_iff_prefix.1 h
  exact ⟨String.ofList more, String.toList_inj.1 (by simp [hmore])⟩

theorem upTo_args (h : args = "" ∨ startsWith args "[" = true) : upTo '[' args = "" := by
  rcases h with rfl | h
  · rfl
  · obtain ⟨more, rfl⟩ := exists_eq_append_of_startsWith h
    simp [upTo]

theorem isPlain_of_typeName (h : TypeName text) (hdoc : text ∉ documentary) :
    isPlain text = true := by
  obtain ⟨head, args, rfl, htype, hargs⟩ := h
  have hhead : upTo '[' (head ++ args) = head := by
    rw [upTo_append (htype.word.not_mem (by decide)), upTo_args hargs, String.append_empty]
  have hmap : startsWith (head ++ args) "map[" = false := by
    rw [Bool.eq_false_iff]
    intro hstart
    obtain ⟨more, hmore⟩ := exists_eq_append_of_startsWith hstart
    rw [hmore] at hhead
    exact htype.ne_map (hhead.symm.trans (by simp [upTo]))
  have hinterface : startsWith (head ++ args) "interface\x7b" = false := by
    rw [Bool.eq_false_iff]
    intro hstart
    obtain ⟨more, hmore⟩ := exists_eq_append_of_startsWith hstart
    rw [hmore, upTo_append (by decide)] at hhead
    exact htype.word.not_mem (c := '\x7b') (by decide) (by rw [← hhead]; simp)
  rw [isPlain, hhead, hmap, hinterface]
  simpa [htype.word.1, hdoc] using htype.word.2

theorem qualifyText_of_typeName (h : TypeName text) (hdoc : text ∉ documentary) :
    qualifyText text package = qualify text package := by
  have hplain := isPlain_of_typeName h hdoc
  obtain ⟨head, args, rfl, htype, -⟩ := h
  rw [qualifyText_of_head? (htype.word.head? args), qualifyElement, if_pos hplain]

end TypeName

end Naming

namespace Code.TypeExpr

variable {t : TypeExpr}

def isNumeral (len : String) : Bool :=
  len.toList.head?.any Char.isDigit && len.toList.all Lexer.isNamePart

/-- A named type behind pointers, slices and arrays. The name is none that only documentation
uses. -/
inductive Simple : TypeExpr → Prop
  | name {text : String} : Naming.TypeName text → text ∉ Naming.documentary → Simple (.name text)
  | pointer {elem : TypeExpr} : Simple elem → Simple (.pointer elem)
  | slice {elem : TypeExpr} : Simple elem → Simple (.slice elem)
  | array {len : String} {elem : TypeExpr} :
      isNumeral len = true → Simple elem → Simple (.array len elem)

def hasArray : TypeExpr → Bool
  | .pointer elem => elem.hasArray
  | .slice elem => elem.hasArray
  | .array _ _ => true
  | _ => false

def elementName : TypeExpr → String
  | .name text => text
  | .pointer elem => elem.elementName
  | .slice elem => elem.elementName
  | .array _ elem => elem.elementName
  | _ => ""

theorem qualifyText_array {len : String} (hlen : isNumeral len = true) (elem package : String) :
    Naming.qualifyText ("[" ++ len ++ "]" ++ elem) package = "[" ++ len ++ "]" ++ elem := by
  have hword : Naming.Word len := by
    rw [isNumeral, Bool.and_eq_true] at hlen
    exact .of_head? hlen.1 hlen.2
  have hbracket : '[' ∉ (len ++ "]").toList := by
    simpa using hword.not_mem (c := '[') (by decide)
  -- The marks end at the length, so that the closing bracket is left in what should be a name.
  have hplain : Naming.isPlain (len ++ "]" ++ elem) = false := by
    have hname : Naming.isNameChar ']' = false := by decide
    rw [Naming.isPlain, Naming.upTo_append hbracket]
    simp [hname]
  have hrest : Naming.qualifyText (len ++ "]" ++ elem) package = len ++ "]" ++ elem := by
    rw [String.append_assoc, Naming.qualifyText_of_head? (hword.head? _), ← String.append_assoc,
      Naming.qualifyElement, hplain]
    rfl
  have hmarks : "[" ++ len ++ "]" ++ elem = String.ofList ['['] ++ (len ++ "]" ++ elem) := by
    simp only [String.append_assoc]
  rw [hmarks, Naming.qualifyText_marks (by simp [Naming.isMarker]), hrest]

theorem Simple.qualifyText_render (h : t.Simple) (package : String) :
    Naming.qualifyText t.render package =
      (if t.hasArray then t else t.qualify package).render := by
  induction h with
  | name htype hdoc => exact Naming.qualifyText_of_typeName htype hdoc
  | @pointer elem _ ih =>
    rw [render, show "*" = String.ofList ['*'] from rfl,
      Naming.qualifyText_marks (by simp [Naming.isMarker]), ih, hasArray]
    cases elem.hasArray <;> rfl
  | @slice elem _ ih =>
    rw [render, show "[]" = String.ofList ['[', ']'] from rfl,
      Naming.qualifyText_marks (by simp [Naming.isMarker]), ih, hasArray]
    cases elem.hasArray <;> rfl
  | array hlen _ _ => exact qualifyText_array hlen _ package

theorem Simple.render_qualify_eq_iff (h : t.Simple) (package : String) :
    t.render = (t.qualify package).render ↔
      Naming.qualify t.elementName package = t.elementName := by
  induction h with
  | name => exact eq_comm
  | pointer _ ih => simpa [render, qualify, elementName] using ih
  | slice _ ih => simpa [render, qualify, elementName] using ih
  | array _ _ ih => simpa [render, qualify, elementName] using ih

/-- Qualifying a type as it is written is the same as writing the qualified type, as long as there
is no array on the way to its name. Where there is one the text stays as it is, and this is the
qualified type only if the name is dotted or predeclared, or the package has no name. -/
theorem text_qualifier_agrees_iff (h : t.Simple) (package : String) :
    let head := Text.upTo '[' t.elementName
    Naming.qualifyText t.render package =
      (if t.hasArray then t else t.qualify package).render ∧
    (Naming.qualifyText t.render package = (t.qualify package).render ↔
      t.hasArray = false ∨ package = "" ∨ Text.hasChar '.' head = true ∨
        Naming.isPredeclared head = true) := by
  intro head
  refine ⟨h.qualifyText_render package, ?_⟩
  rw [h.qualifyText_render, ← Bool.or_eq_true]
  cases harray : t.hasArray with
  | false => simp
  | true =>
    simp only [if_true, Bool.true_eq_false, false_or]
    exact (h.render_qualify_eq_iff package).trans Naming.qualify_eq_self_iff

theorem simple_books : Simple (.name "Book") ∧ Simple (.name "model.Book") ∧
    Simple (.name "List[*Book]") := by
  refine ⟨.name ⟨"Book", "", ?_⟩ ?_, .name ⟨"model.Book", "", ?_⟩ ?_,
    .name ⟨"List", "[*Book]", ?_⟩ ?_⟩
  · exact ⟨by decide, .inl (by decide), .inl rfl⟩
  · decide
  · exact ⟨by decide, .inr ⟨"model", "Book", by decide⟩, .inl rfl⟩
  · decide
  · exact ⟨by decide, .inl (by decide), .inr (by decide)⟩
  · decide

/-- A generic type behind marks, and an array of a type that has its package already. -/
theorem text_qualifier_agrees_books :
    let lists : TypeExpr := .pointer (.slice (.name "List[*Book]"))
    let books : TypeExpr := .pointer (.array "0x10" (.slice (.name "model.Book")))
    (lists.Simple ∧ books.Simple ∧ books.hasArray = true) ∧
    Naming.qualifyText "*[]List[*Book]" "api" = "*[]api.List[*Book]" ∧
      Naming.qualifyText "*[0x10][]model.Book" "api" = (books.qualify "api").render := by
  intro lists books
  have hlists : lists.Simple := .pointer (.slice simple_books.2.2)
  have hbooks : books.Simple := .pointer (.array (by decide) (.slice simple_books.2.1))
  refine ⟨⟨hlists, hbooks, rfl⟩, ?_, ?_⟩
  · exact (text_qualifier_agrees_iff hlists "api").1
  · exact (text_qualifier_agrees_iff hbooks "api").2.2 (.inr (.inr (.inl (by decide))))

/-- The name of an array's element is qualified in the type and not in the text. -/
theorem array_text_stays_bare :
    let books : TypeExpr := .array "4" (.name "Book")
    books.Simple ∧ Naming.isIdentifier "model" = true ∧
      Naming.qualifyText books.render "model" = "[4]Book" ∧
      (books.qualify "model").render = "[4]model.Book" :=
  ⟨.array (by decide) simple_books.1, by decide, by decide, by decide⟩

end Code.TypeExpr

namespace Shape

variable {package : String}

section Skeleton

mutual

def skeleton : Shape → Shape
  | .named _ => .named ""
  | .unresolved text => .unresolved text
  | .record _ fields => .record "" (skeletonFields fields)

def skeletonFields : List (String × Shape) → List (String × Shape)
  | [] => []
  | (key, value) :: more => (key, value.skeleton) :: skeletonFields more

end

mutual

theorem skeleton_qualify : ∀ s : Shape, (s.qualify package).skeleton = s.skeleton
  | .named name => by rw [qualify, skeleton, skeleton]
  | .unresolved text => by rw [qualify]
  | .record name fields => by rw [qualify, skeleton, skeleton, skeletonFields_qualifyFields fields]

theorem skeletonFields_qualifyFields : ∀ fields : List (String × Shape),
    skeletonFields (qualifyFields package fields) = skeletonFields fields
  | [] => by rw [qualifyFields]
  | (key, value) :: more => by
    rw [qualifyFields, skeletonFields, skeletonFields, skeleton_qualify value,
      skeletonFields_qualifyFields more]

end

end Skeleton

mutual

theorem qualify_qualify (h : Naming.Word package) (other : String) :
    ∀ s : Shape, (s.qualify package).qualify other = s.qualify package
  | .named name => by rw [qualify, qualify, Naming.qualifyText_qualifyText h]
  | .unresolved text => by rw [qualify, qualify]
  | .record name fields => by
    rw [qualify, qualify, Naming.qualifyText_qualifyText h, qualifyFields_qualifyFields h]

theorem qualifyFields_qualifyFields (h : Naming.Word package) (other : String) :
    ∀ fields : List (String × Shape),
      qualifyFields other (qualifyFields package fields) = qualifyFields package fields
  | [] => by rw [qualifyFields, qualifyFields]
  | (key, value) :: more => by
    rw [qualifyFields, qualifyFields, qualify_qualify h, qualifyFields_qualifyFields h]

end

/-- A shape that is qualified once is not changed by a second package, and in particular not by the
same one. Only type names change: kinds, keys, nesting and unresolved texts stay. -/
theorem first_qualification_wins (s : Shape) (h : Naming.isIdentifier package = true)
    (other : String) :
    (s.qualify package).qualify other = s.qualify package ∧
      (s.qualify package).skeleton = s.skeleton :=
  ⟨qualify_qualify (Naming.word_of_isIdentifier h) other s, skeleton_qualify s⟩

/-- A reply of one package that is handed on to another. -/
theorem first_qualification_wins_page :
    let s : Shape := .record "*Page[Book]" [("items", .named "[]Book"), ("kind", .named "integer"),
      ("raw", .unresolved "load(id)"), ("meta", .record "" [("by", .named "map[string]Book")])]
    let once : Shape := .record "*model.Page[Book]" [("items", .named "[]model.Book"),
      ("kind", .named "integer"), ("raw", .unresolved "load(id)"),
      ("meta", .record "" [("by", .named "map[string]Book")])]
    Naming.isIdentifier "model" = true ∧ s.qualify "model" = once ∧ once.qualify "api" = once ∧
      once.skeleton = s.skeleton := by
  intro s once
  have hpackage : Naming.isIdentifier "model" = true := by decide
  have honce : s.qualify "model" = once := by decide +kernel
  obtain ⟨htwice, hskeleton⟩ := first_qualification_wins s hpackage "api"
  rw [honce] at htwice hskeleton
  exact ⟨hpackage, honce, htwice, hskeleton⟩

end Shape

end HandlerDocs
