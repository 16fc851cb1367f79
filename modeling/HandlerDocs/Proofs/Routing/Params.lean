import HandlerDocs.Proofs.Routing.Join
import HandlerDocs.Proofs.Text.Words

namespace HandlerDocs.Routing.Path

open Text

section Names

def isMark (c : Char) : Bool :=
  c = ':' || c = '*'

/-- The name that a text gives right after a mark: all word characters that follow it, if any do. -/
def nameAt? : List Char → Option String
  | [] => none
  | c :: cs =>
    let name := cs.takeWhile isWord
    if isMark c && !name.isEmpty then some (String.ofList name) else none

def names (cs : List Char) : List String :=
  cs.tails.filterMap nameAt?

theorem names_cons (c : Char) (cs : List Char) :
    names (c :: cs) = (nameAt? (c :: cs)).toList ++ names cs := by
  rw [names, List.tails_cons, List.filterMap_cons]
  cases nameAt? (c :: cs) <;> rfl

theorem names_cons_of_not_isMark {c : Char} (h : isMark c = false) (cs : List Char) :
    names (c :: cs) = names cs := by
  rw [names_cons, nameAt?, h]
  rfl

theorem isMark_of_isWord {c : Char} (h : isWord c) : isMark c = false := by
  rw [isMark, Bool.or_eq_false_iff, decide_eq_false_iff_not, decide_eq_false_iff_not]
  constructor <;> rintro rfl <;> exact absurd h (by decide)

theorem names_append_left {as : List Char} (h : ∀ c ∈ as, isMark c = false) (bs : List Char) :
    names (as ++ bs) = names bs := by
  induction as with
  | nil => rfl
  | cons c as ih =>
    rw [List.forall_mem_cons] at h
    rw [List.cons_append, names_cons_of_not_isMark h.1, ih h.2]

/-- What stands behind, where no name can go on, adds no name. -/
theorem names_append_right (as : List Char) {bs : List Char}
    (h : ∀ c ∈ bs, isMark c = false ∧ isWord c = false) : names (as ++ bs) = names as := by
  induction as with
  | nil => simpa using names_append_left (fun c hc ↦ (h c hc).1) []
  | cons c as ih =>
    have hname : (as ++ bs).takeWhile isWord = as.takeWhile isWord := by
      have hstop : bs.takeWhile isWord = [] := by
        cases bs with
        | nil => rfl
        | cons d bs => simp [(h d (by simp)).2]
      rw [List.takeWhile_append]
      split
      · rename_i hall
        rw [hstop, List.append_nil, (List.takeWhile_prefix _).eq_of_length hall]
      · rfl
    rw [List.cons_append, names_cons, names_cons, ih, nameAt?, nameAt?, hname]

variable {p : Char → Bool} (h : ∀ c, p c → isMark c = false ∧ isWord c = false)

include h

theorem names_dropWhile (cs : List Char) : names (cs.dropWhile p) = names cs := by
  have hfront : names (cs.takeWhile p ++ cs.dropWhile p) = names (cs.dropWhile p) :=
    names_append_left (fun c hc ↦ (h c (List.mem_takeWhile_imp hc)).1) _
  rw [← hfront, List.takeWhile_append_dropWhile]

theorem names_dropWhileEnd (cs : List Char) : names (dropWhileEnd p cs) = names cs := by
  have hsplit : dropWhileEnd p cs ++ (cs.reverse.takeWhile p).reverse = cs := by
    rw [dropWhileEnd, ← List.reverse_append, List.takeWhile_append_dropWhile, List.reverse_reverse]
  have hback : names (dropWhileEnd p cs ++ (cs.reverse.takeWhile p).reverse) =
      names (dropWhileEnd p cs) := names_append_right _ fun c hc ↦
    h c (List.mem_takeWhile_imp (List.mem_reverse.1 hc))
  rw [← hback, hsplit]

end Names

section Scan

def readingAfter (name : Option (List Char)) (c : Char) : Option (List Char) :=
  if c = '\x7b' then some []
  else name.bind fun name ↦ if isWord c then some (c :: name) else none

def closed? (name : Option (List Char)) (c : Char) : Option String :=
  name.bind fun name ↦
    if c = '\x7d' && !name.isEmpty then some (String.ofList name.reverse) else none

theorem paramsFrom_cons (name : Option (List Char)) (c : Char) (cs : List Char) :
    paramsFrom name (c :: cs) = (closed? name c).toList ++ paramsFrom (readingAfter name c) cs := by
  by_cases hopen : c = '\x7b'
  · subst hopen
    cases name <;> simp [paramsFrom, closed?, readingAfter]
  · cases name with
    | none => simp [paramsFrom, closed?, readingAfter, hopen]
    | some name =>
      by_cases hword : isWord c
      · have hclose : c ≠ '\x7d' := by
          rintro rfl
          exact absurd hword (by decide)
        simp [paramsFrom, closed?, readingAfter, hopen, hword, hclose]
      · by_cases hclose : (c = '\x7d' && !name.isEmpty) = true
        · simp only [paramsFrom, closed?, readingAfter, Option.bind_some, if_neg hopen,
            if_neg hword, if_pos hclose]
          rfl
        · simp only [paramsFrom, closed?, readingAfter, Option.bind_some, if_neg hopen,
            if_neg hword, if_neg hclose]
          rfl

section Steps

variable {name : List Char} {c : Char} (cs : List Char)

theorem paramsFrom_none_cons (h : c ≠ '\x7b') : paramsFrom none (c :: cs) = paramsFrom none cs := by
  simp [paramsFrom_cons, closed?, readingAfter, h]

theorem paramsFrom_open (name : Option (List Char)) :
    paramsFrom name ('\x7b' :: cs) = paramsFrom (some []) cs := by
  cases name <;> simp [paramsFrom_cons, closed?, readingAfter]

theorem paramsFrom_word (h : isWord c) :
    paramsFrom (some name) (c :: cs) = paramsFrom (some (c :: name)) cs := by
  have hbrace : c ≠ '\x7b' ∧ c ≠ '\x7d' := by
    constructor <;> rintro rfl <;> exact absurd h (by decide)
  simp [paramsFrom_cons, closed?, readingAfter, h, hbrace]

theorem paramsFrom_close (h : name ≠ []) :
    paramsFrom (some name) ('\x7d' :: cs) = String.ofList name.reverse :: paramsFrom none cs := by
  have hword : isWord '\x7d' = false := by decide
  simp [paramsFrom_cons, closed?, readingAfter, h, hword]

end Steps

theorem paramsFrom_slash (name : Option (List Char)) (cs : List Char) :
    paramsFrom name ('/' :: cs) = paramsFrom none cs := by
  have hword : isWord '/' = false := by decide
  rw [paramsFrom_cons]
  cases name <;> simp [closed?, readingAfter, hword]

/-- No name in braces goes over a slash. -/
theorem paramsFrom_append (name : Option (List Char)) (as bs : List Char) :
    paramsFrom name (as ++ '/' :: bs) = paramsFrom name as ++ paramsFrom none bs := by
  induction as generalizing name with
  | nil => simpa [paramsFrom] using paramsFrom_slash name bs
  | cons c as ih => rw [List.cons_append, paramsFrom_cons, paramsFrom_cons, ih, List.append_assoc]

theorem paramsFrom_collapse (name : Option (List Char)) (cs : List Char) :
    paramsFrom name (collapse cs) = paramsFrom name cs := by
  fun_induction collapse cs generalizing name with
  | case1 cs ih => rw [ih, paramsFrom_slash, paramsFrom_slash, paramsFrom_slash]
  | case2 c cs _ ih => rw [paramsFrom_cons, paramsFrom_cons, ih]
  | case3 => rfl

end Scan

theorem params_join (base path : String) :
    params (join base path) = params base ++ params path := by
  by_cases hpath : path = ""
  · by_cases hbase : base = ""
    · subst hpath hbase
      decide
    · rw [hpath, join_empty hbase]
      simp [params, paramsFrom]
  · rw [params, toList_join hpath, paramsFrom_collapse, paramsFrom_append]
    rfl

theorem params_foldl_join (base : String) (paths : List String) :
    params (paths.foldl join base) = params base ++ paths.flatMap params := by
  induction paths generalizing base with
  | nil => simp
  | cons path paths ih =>
    rw [List.foldl_cons, ih, params_join, List.flatMap_cons, List.append_assoc]

section Braces

variable {c : Char} {cs : List Char}

theorem opensName_iff : opensName c cs ↔ isMark c ∧ cs.takeWhile isWord ≠ [] := by
  cases cs with
  | nil => simp [opensName]
  | cons d cs =>
    by_cases hd : isWord d <;> simp [opensName, isMark, hd]

def bracedAt (c : Char) (cs : List Char) : List Char :=
  if opensName c cs then '\x7b' :: bracedFrom true cs else c :: bracedFrom false cs

theorem bracedFrom_true_word (hc : isWord c) :
    bracedFrom true (c :: cs) = c :: bracedFrom true cs := by
  simp [bracedFrom, hc]

theorem bracedFrom_true_other (hc : isWord c = false) :
    bracedFrom true (c :: cs) = '\x7d' :: bracedAt c cs := by
  simp [bracedFrom, bracedAt, hc]

/-- Reading a text in braces finds the names after its marks, also when it begins inside of one. -/
theorem paramsFrom_bracedFrom (hopen : '\x7b' ∉ cs) :
    paramsFrom none (bracedFrom false cs) = names cs ∧
      ∀ name, name ≠ [] ∨ cs.takeWhile isWord ≠ [] →
        paramsFrom (some name) (bracedFrom true cs) =
          String.ofList (name.reverse ++ cs.takeWhile isWord) :: names cs := by
  induction cs with
  | nil =>
    refine ⟨rfl, fun name hname ↦ ?_⟩
    have hne : name ≠ [] := by simpa using hname
    rw [bracedFrom, paramsFrom_close [] hne, List.takeWhile_nil, List.append_nil]
    rfl
  | cons c cs ih =>
    rw [List.mem_cons, not_or] at hopen
    obtain ⟨hout, hin⟩ := ih hopen.2
    have hat : paramsFrom none (bracedAt c cs) = names (c :: cs) := by
      rw [bracedAt, names_cons, nameAt?]
      split
      · rename_i hopens
        obtain ⟨hmark, hne⟩ := opensName_iff.1 hopens
        rw [paramsFrom_open, hin [] (.inr hne), if_pos (by simpa [hmark] using hne)]
        rfl
      · rename_i hopens
        rw [opensName_iff] at hopens
        rw [paramsFrom_none_cons _ (Ne.symm hopen.1), hout, if_neg (by simpa using hopens)]
        rfl
    refine ⟨hat, fun name hname ↦ ?_⟩
    by_cases hc : isWord c
    · rw [bracedFrom_true_word hc, paramsFrom_word _ hc, hin _ (.inl (by simp)),
        names_cons_of_not_isMark (isMark_of_isWord hc), List.takeWhile_cons_of_pos hc]
      simp
    · rw [List.takeWhile_cons_of_neg hc] at hname ⊢
      rw [bracedFrom_true_other (by simpa using hc), paramsFrom_close _ (by simpa using hname), hat,
        List.append_nil]

end Braces

theorem dropWhileEnd_subset (p : Char → Bool) (cs : List Char) : dropWhileEnd p cs ⊆ cs :=
  fun _ hc ↦ List.mem_reverse.1 ((List.dropWhile_suffix p).mem (List.mem_reverse.1 hc))

theorem params_normalize {raw : String} (h : '\x7b' ∉ raw.toList) :
    params (normalize raw) = names raw.toList := by
  have hblank (c : Char) (hc : isBlank c) : isMark c = false ∧ isWord c = false :=
    ⟨eq_false_of_isBlank (p := isMark) hc (by decide), isWord_of_isBlank hc⟩
  have hquote (c : Char) (hc : isQuote c) : isMark c = false ∧ isWord c = false := by
    rw [isQuote, Bool.or_eq_true, decide_eq_true_eq, decide_eq_true_eq] at hc
    rcases hc with rfl | rfl <;> decide
  have hopen : '\x7b' ∉ dropWhileEnd isQuote ((trim raw).toList.dropWhile isQuote) := fun hmem ↦ by
    have htrim := (List.dropWhile_suffix _).mem (dropWhileEnd_subset _ _ hmem)
    rw [toList_trim] at htrim
    exact h ((List.dropWhile_suffix _).mem (dropWhileEnd_subset _ _ htrim))
  rw [params, normalize, String.toList_ofList, (paramsFrom_bracedFrom hopen).1,
    names_dropWhileEnd hquote, names_dropWhile hquote, toList_trim, names_dropWhileEnd hblank,
    names_dropWhile hblank]

/-- The parameters of nested groups are those of each group in turn: of a path without an opening
brace all names after `:` and `*`, and of a documented path the names in braces. -/
theorem params_in_order :
    (∀ paths : List String, (∀ path ∈ paths, '\x7b' ∉ path.toList) →
      params ((paths.map normalize).foldl join "") = paths.flatMap fun path ↦ names path.toList) ∧
    ∀ base path : String, params (join base path) = params base ++ params path := by
  refine ⟨fun paths h ↦ ?_, params_join⟩
  rw [params_foldl_join, List.flatMap_map]
  exact List.flatMap_congr fun path hpath ↦ params_normalize (h path hpath)

/-- Marks side by side, a mark without a name, and a mark in front of the quote that ends a path. -/
theorem params_in_order_shop :
    (∀ path ∈ ["\"/shop/:id\" ", "::é*b-", "`/files/*`"], '\x7b' ∉ path.toList) ∧
      params ((["\"/shop/:id\" ", "::é*b-", "`/files/*`"].map normalize).foldl join "") =
        ["id", "é", "b"] := by
  have hopen : ∀ path ∈ ["\"/shop/:id\" ", "::é*b-", "`/files/*`"], '\x7b' ∉ path.toList := by
    decide
  exact ⟨hopen, (params_in_order.1 _ hopen).trans (by decide +kernel)⟩

end HandlerDocs.Routing.Path
