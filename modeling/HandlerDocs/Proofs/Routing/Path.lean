import HandlerDocs.Proofs.Prelude
import HandlerDocs.Routing.Path

namespace HandlerDocs.Routing.Path

open Text

def Apart (c d : Char) : Prop :=
  ¬(c = '/' ∧ d = '/')

def Unmarked (c d : Char) : Prop :=
  (c = ':' ∨ c = '*') → isWord d = false

/-- A path as it is documented: it starts with a slash, has no two slashes in a row, and names its
parameters in braces. -/
structure WellFormed (path : String) : Prop where
  rooted : path.toList.head? = some '/'
  apart : path.toList.IsChain Apart
  unmarked : path.toList.IsChain Unmarked

def IsGroup (group : String) : Prop :=
  group = "" ∨ WellFormed group

section Collapse

@[simp] theorem head?_collapse (cs : List Char) : (collapse cs).head? = cs.head? := by
  fun_induction collapse cs with
  | case1 cs ih => exact ih
  | case2 c cs => rfl
  | case3 => rfl

/-- What neighbours have in common stays when slashes are dropped. -/
theorem isChain_collapse {R : Char → Char → Prop} {cs : List Char} (h : cs.IsChain R) :
    (collapse cs).IsChain R := by
  fun_induction collapse cs with
  | case1 cs ih => exact ih h.tail
  | case2 c cs hne ih =>
    rw [List.isChain_cons] at h ⊢
    rw [head?_collapse]
    exact ⟨h.1, ih h.2⟩
  | case3 => exact h

theorem apart_collapse (cs : List Char) : (collapse cs).IsChain Apart := by
  fun_induction collapse cs with
  | case1 cs ih => exact ih
  | case2 c cs hne ih =>
    rw [List.isChain_cons, head?_collapse]
    refine ⟨fun d hd hslash ↦ ?_, ih⟩
    obtain ⟨rest, rfl⟩ := List.head?_eq_some_iff.1 hd
    exact hne rest hslash.1 (congrArg (· :: rest) hslash.2)
  | case3 => exact .nil

theorem collapse_cons {c : Char} {cs : List Char} (h : ∀ d ∈ cs.head?, Apart c d) :
    collapse (c :: cs) = c :: collapse cs := by
  rw [collapse]
  rintro cs' rfl rfl
  exact h '/' rfl ⟨rfl, rfl⟩

/-- A front without two slashes in a row stays as it is. -/
theorem isPrefix_collapse {front : List Char} (h : front.IsChain Apart) (rest : List Char) :
    front <+: collapse (front ++ rest) := by
  induction front with
  | nil => exact List.nil_prefix
  | cons c front ih =>
    rw [List.isChain_cons] at h
    cases front with
    | nil =>
      obtain ⟨after, hafter⟩ := List.head?_eq_some_iff.1 (head?_collapse ([c] ++ rest))
      exact ⟨after, hafter.symm⟩
    | cons d front =>
      have hcons : collapse (c :: (d :: front ++ rest)) = c :: collapse (d :: front ++ rest) :=
        collapse_cons h.1
      rw [List.cons_append, hcons]
      exact (List.prefix_cons_inj c).2 (ih h.2)

end Collapse

section Braces

theorem unmarked_cons {c : Char} {cs : List Char} (hc : c ≠ ':' ∧ c ≠ '*')
    (h : cs.IsChain Unmarked) : (c :: cs).IsChain Unmarked :=
  List.isChain_cons.2 ⟨fun _ _ hmark ↦ (hmark.elim hc.1 hc.2).elim, h⟩

theorem isWord_head?_bracedFrom {c : Char} {cs : List Char} (hc : c = ':' ∨ c = '*')
    (h : ¬opensName c cs) {d : Char} (hd : d ∈ (bracedFrom false cs).head?) :
    isWord d = false := by
  cases cs with
  | nil => cases hd
  | cons e cs =>
    have he : isWord e = false := by
      rcases hc with rfl | rfl <;> simpa [opensName] using h
    simp only [bracedFrom, Bool.false_and, Bool.false_eq_true, if_false] at hd
    split at hd
    · obtain rfl : '\x7b' = d := Option.some.inj hd
      decide
    · obtain rfl : e = d := Option.some.inj hd
      exact he

/-- No name follows a mark once all names are in braces. -/
theorem unmarked_bracedFrom (inside : Bool) (cs : List Char) :
    (bracedFrom inside cs).IsChain Unmarked := by
  have hopened (c : Char) (cs : List Char) (hin : (bracedFrom true cs).IsChain Unmarked)
      (hout : (bracedFrom false cs).IsChain Unmarked) :
      (if opensName c cs then '\x7b' :: bracedFrom true cs
        else c :: bracedFrom false cs).IsChain Unmarked := by
    split
    · exact unmarked_cons (by decide) hin
    · rename_i hopens
      exact List.isChain_cons.2 ⟨fun d hd hc ↦ isWord_head?_bracedFrom hc hopens hd, hout⟩
  fun_induction bracedFrom inside cs with
  | case1 => exact .nil
  | case2 => exact .singleton _
  | case3 inside c cs hword ih =>
    have hc : isWord c = true := (Bool.and_eq_true_iff.1 hword).2
    refine unmarked_cons ⟨?_, ?_⟩ ih
    · rintro rfl
      exact absurd hc (by decide)
    · rintro rfl
      exact absurd hc (by decide)
  | case4 c cs rest _ hin hout => exact unmarked_cons (by decide) (hopened c cs hin hout)
  | case5 inside c cs _ rest _ hin hout => exact hopened c cs hin hout

end Braces

theorem unmarked_normalize (raw : String) : (normalize raw).toList.IsChain Unmarked := by
  rw [normalize, String.toList_ofList]
  exact unmarked_bracedFrom false _

/-- What is served below a group has a well-formed path that the path of the group starts. -/
theorem join_wellFormed {base path : String} (hbase : IsGroup base)
    (hpath : path.toList.IsChain Unmarked) :
    WellFormed (join base path) ∧ base.toList <+: (join base path).toList := by
  rw [join]
  split
  · split
    · rename_i hempty
      obtain rfl : base = "" := String.isEmpty_iff.1 hempty
      exact ⟨⟨rfl, .singleton _, .singleton _⟩, List.nil_prefix⟩
    · rename_i hempty
      exact ⟨hbase.resolve_left fun h ↦ hempty (String.isEmpty_iff.2 h), List.prefix_rfl⟩
  · have hslash : ('/' :: path.toList).IsChain Unmarked := unmarked_cons (by decide) hpath
    have hapart : base.toList.IsChain Apart := by
      rcases hbase with rfl | hbase
      · exact .nil
      · exact hbase.apart
    have hrooted : (base.toList ++ '/' :: path.toList).head? = some '/' := by
      rcases hbase with rfl | hbase
      · rfl
      · rw [List.head?_append, hbase.rooted, Option.some_or]
    have hunmarked : (base.toList ++ '/' :: path.toList).IsChain Unmarked := by
      rcases hbase with rfl | hbase
      · exact hslash
      · refine List.isChain_append.2 ⟨hbase.unmarked, hslash, fun c _ d hd _ ↦ ?_⟩
        obtain rfl : '/' = d := Option.some.inj hd
        decide
    refine ⟨⟨?_, ?_, ?_⟩, ?_⟩ <;> rw [String.toList_ofList]
    · exact (head?_collapse _).trans hrooted
    · exact apart_collapse _
    · exact isChain_collapse hunmarked
    · exact isPrefix_collapse hapart _

end HandlerDocs.Routing.Path
