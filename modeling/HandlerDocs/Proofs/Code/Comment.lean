import HandlerDocs.Proofs.Code.Trivia
import HandlerDocs.Proofs.SourceFile.Chunks

namespace HandlerDocs.Code

open Edit Lexer

namespace Pos

theorem after_append (p : Pos) (cs ds : List Char) : p.after (cs ++ ds) = (p.after cs).after ds :=
  List.foldl_append

theorem byte_after (p : Pos) (cs : List Char) : (p.after cs).byte = p.byte + bytes cs := by
  induction cs generalizing p with
  | nil => rfl
  | cons c cs ih =>
    have hstep : (p.step c).byte = p.byte + c.utf8Size := by
      rw [step]
      split
      · rename_i hc
        rw [hc]
        rfl
      · rfl
    rw [after, List.foldl_cons, ← after, ih, hstep, bytes_cons, Nat.add_assoc]

theorem column_after_concat (p : Pos) (cs : List Char) : (p.after (cs ++ ['\n'])).column = 0 := by
  rw [after_append]
  rfl

/-- Only a line feed leads back to the first column. -/
theorem getLast?_of_column_after {p : Pos} {cs : List Char} (hne : cs ≠ [])
    (h : (p.after cs).column = 0) : cs.getLast? = some '\n' := by
  rw [← List.dropLast_append_getLast hne, after_append] at h
  rw [List.getLast?_eq_getLast_of_ne_nil hne]
  generalize cs.getLast hne = c at h ⊢
  generalize p.after cs.dropLast = q at h
  have hsize := c.utf8Size_pos
  change (q.step c).column = 0 at h
  rw [step] at h
  split at h
  · rename_i hc
    rw [hc]
  · dsimp only at h
    omega

end Pos

namespace DocComment

def commentLines (lines : List (List Char)) : List Trivia :=
  lines.flatMap fun line ↦ [.line line, .space '\n']

theorem charsOf_commentLines {lines : List (List Char)} (h : lines ≠ []) :
    charsOf (commentLines lines) = List.intercalate ['\n'] lines ++ ['\n'] := by
  induction lines with
  | nil => contradiction
  | cons line lines ih =>
    cases lines with
    | nil => simp [commentLines, Trivia.chars]
    | cons next lines =>
      have hmore := ih (by simp)
      rw [commentLines, List.flatMap_cons, ← commentLines, charsOf_append, hmore]
      simp [Trivia.chars, List.intercalate]

theorem run_append (lines : List (List Char)) (above : List Trivia) :
    run ((lines.flatMap fun line ↦ [.space '\n', .line line]) ++ .space '\n' :: above) =
      lines ++ run (.space '\n' :: above) := by
  induction lines with
  | nil => rfl
  | cons line lines ih =>
    cases lines with
    | nil => simp [run]
    | cons next lines =>
      simp only [List.flatMap_cons, List.cons_append, List.nil_append] at ih ⊢
      rw [run, ih]

theorem exists_above (back : List Trivia) :
    ∃ above, .space '\n' :: back =
        ((run (.space '\n' :: back)).flatMap fun line ↦ [.space '\n', .line line]) ++
          .space '\n' :: above ∧
      run (.space '\n' :: above) = [] := by
  generalize hall : Trivia.space '\n' :: back = all
  fun_induction run all generalizing back with
  | case1 text more ih =>
    obtain ⟨above, heq, htop⟩ := ih more rfl
    exact ⟨above, by rw [List.flatMap_cons, List.append_assoc, ← heq]; rfl, htop⟩
  | case2 all hne =>
    subst hall
    refine ⟨back, rfl, ?_⟩
    rw [run]
    exact hne

theorem exists_back_of_run_ne_nil {all : List Trivia} (h : run all ≠ []) :
    ∃ back, all = .space '\n' :: back := by
  rw [run.eq_def] at h
  split at h
  · exact ⟨_, rfl⟩
  · contradiction

theorem mem_of_mem_run {all : List Trivia} {text : List Char} (h : text ∈ run all) :
    .line text ∈ all := by
  fun_induction run all with
  | case1 line more ih =>
    rcases List.mem_cons.1 h with rfl | h
    · simp
    · have hmem := ih h
      simp only [List.mem_cons, reduceCtorEq, false_or] at hmem
      simp [hmem]
  | case2 => simp at h

theorem mem_of_mem_block {lead : List Trivia} {text : List Char} (h : text ∈ block lead) :
    .line text ∈ lead := by
  have hmem := mem_of_mem_run (List.mem_reverse.1 h)
  exact List.mem_reverse.1 ((List.dropWhile_suffix _).mem hmem)

/-- The trivia in front of a declaration, cut at its comment: what stands above up to the end of
a line, the comment, and the blanks on the line of the declaration. -/
structure Laid (lead above : List Trivia) (lines : List (List Char)) (gap : List Trivia) :
    Prop where
  eq : lead = above ++ .space '\n' :: (commentLines lines ++ gap)
  top : run (.space '\n' :: above.reverse) = []
  sameLine : ∀ t ∈ gap, sameLine t

namespace Laid

variable {lead above gap : List Trivia} {lines : List (List Char)}

theorem reverse_eq (h : Laid lead above lines gap) :
    lead.reverse = gap.reverse ++
      ((lines.reverse.flatMap fun line ↦ [.space '\n', .line line]) ++
        .space '\n' :: above.reverse) := by
  rw [h.eq, commentLines, List.reverse_append, List.reverse_cons, List.reverse_append,
    List.reverse_flatMap]
  simp [Function.comp_def]

theorem cut_reverse (h : Laid lead above lines gap) :
    lead.reverse.takeWhile DocComment.sameLine = gap.reverse ∧
      lead.reverse.dropWhile DocComment.sameLine =
        (lines.reverse.flatMap fun line ↦ [.space '\n', .line line]) ++
          .space '\n' :: above.reverse := by
  have hgap : ∀ t ∈ gap.reverse, DocComment.sameLine t := fun t ht ↦
    h.sameLine t (List.mem_reverse.1 ht)
  rw [h.reverse_eq, List.takeWhile_append_of_pos hgap, List.dropWhile_append_of_pos hgap]
  cases lines.reverse with
  | nil => simp [DocComment.sameLine]
  | cons => simp [DocComment.sameLine]

theorem block_eq (h : Laid lead above lines gap) : block lead = lines := by
  rw [block, h.cut_reverse.2, run_append, h.top, List.append_nil, List.reverse_reverse]

theorem charsOf_eq (h : Laid lead above lines gap) (hne : lines ≠ []) :
    charsOf lead =
      (charsOf above ++ ['\n']) ++ (List.intercalate ['\n'] lines ++ '\n' :: charsOf gap) := by
  rw [h.eq]
  simp [charsOf_commentLines hne, Trivia.chars]

end Laid

/-- Lines put in the middle of a line: the first one does not fill a line of its own. -/
theorem block_append_commentLines {lead : List Trivia} (h : lead.getLast? ≠ some (.space '\n'))
    {lines : List (List Char)} (hne : lines ≠ []) :
    block (lead ++ commentLines lines) = lines.tail := by
  obtain ⟨line, lines, rfl⟩ := List.exists_cons_of_ne_nil hne
  have hreverse : (lead ++ commentLines (line :: lines)).reverse =
      (lines.reverse.flatMap fun line ↦ [.space '\n', .line line]) ++
        .space '\n' :: .line line :: lead.reverse := by
    rw [commentLines, List.flatMap_cons, List.reverse_append, List.reverse_append,
      List.reverse_flatMap]
    simp [Function.comp_def]
  have hdrop : (lead ++ commentLines (line :: lines)).reverse.dropWhile sameLine =
      (lead ++ commentLines (line :: lines)).reverse := by
    rw [hreverse]
    cases lines.reverse with
    | nil => simp [sameLine]
    | cons => simp [sameLine]
  have htop : run (.space '\n' :: .line line :: lead.reverse) = [] := by
    rw [run.eq_def]
    split
    · rename_i text more heq
      simp only [List.cons.injEq, true_and] at heq
      rw [← List.head?_reverse, heq.2] at h
      exact absurd rfl h
    · rfl
  rw [block, hdrop, hreverse, run_append, htop, List.append_nil, List.reverse_reverse,
    List.tail_cons]

theorem length_charsOf_gap {gap : List Trivia} (h : ∀ t ∈ gap, sameLine t) :
    (charsOf gap).length = gap.length := by
  induction gap with
  | nil => rfl
  | cons t gap ih =>
    have ht := h t (by simp)
    have hone : t.chars.length = 1 := by
      cases t with
      | space c => rfl
      | line => simp [sameLine] at ht
      | block => simp [sameLine] at ht
    rw [charsOf_cons, List.length_append, hone, ih fun u hu ↦ h u (by simp [hu])]
    simp [Nat.add_comm]

/-- A declaration that has a comment or starts a line can be cut at its comment. -/
theorem exists_laid {lead : List Trivia}
    (h : block lead ≠ [] ∨ lead.getLast? = some (.space '\n')) :
    ∃ above gap, Laid lead above (block lead) gap ∧ (block lead = [] → gap = []) := by
  have hback : ∃ back, lead.reverse.dropWhile sameLine = .space '\n' :: back := by
    rcases h with h | h
    · exact exists_back_of_run_ne_nil fun hrun ↦ h (by rw [block, hrun, List.reverse_nil])
    · obtain ⟨front, rfl⟩ := List.getLast?_eq_some_iff.1 h
      exact ⟨front.reverse, by simp [sameLine]⟩
  obtain ⟨back, hback⟩ := hback
  obtain ⟨above, habove, htop⟩ := exists_above back
  refine ⟨above.reverse, (lead.reverse.takeWhile sameLine).reverse, ⟨?_, ?_, ?_⟩, ?_⟩
  · have hlead := congrArg List.reverse
      (List.takeWhile_append_dropWhile (p := sameLine) (l := lead.reverse))
    rw [List.reverse_append, List.reverse_reverse, hback, habove, List.reverse_append,
      List.reverse_flatMap] at hlead
    calc lead = _ := hlead.symm
      _ = _ := by simp [block, hback, commentLines, Function.comp_def]
  · rw [List.reverse_reverse]
    exact htop
  · intro t ht
    exact List.mem_takeWhile_imp (List.mem_reverse.1 ht)
  · intro hnone
    obtain ⟨front, rfl⟩ := List.getLast?_eq_some_iff.1 (h.resolve_left fun hne ↦ hne hnone)
    simp [sameLine]

theorem lines_ofLead (lead : List Trivia) (origin : Pos) :
    (ofLead lead origin).lines =
      (block lead).map fun line ↦ String.ofList (Text.dropWhileEnd Text.isBlank line) := by
  rw [ofLead]
  split
  · rename_i hblock
    rw [hblock]
    rfl
  · rfl

theorem span_ofLead_eq_none {lead : List Trivia} {origin : Pos} :
    (ofLead lead origin).span = none ↔ block lead = [] := by
  rw [ofLead]
  split
  · rename_i hblock
    simp [absent, hblock]
  · rename_i hblock
    simpa using hblock

theorem Laid.span_ofLead {lead above gap : List Trivia} {lines : List (List Char)}
    (h : Laid lead above lines gap) (hne : lines ≠ []) (origin : Pos) :
    (ofLead lead origin).span = some (.between (origin.after (charsOf above ++ ['\n']))
      ((origin.after (charsOf above ++ ['\n'])).after (List.intercalate ['\n'] lines))) := by
  have hlength : (charsOf lead).length -
      ((List.intercalate ['\n'] lines).length + 1 + gap.reverse.length) =
        (charsOf above ++ ['\n']).length := by
    have hgap := length_charsOf_gap h.sameLine
    simp only [h.charsOf_eq hne, List.length_append, List.length_cons, List.length_nil,
      List.length_reverse, hgap]
    omega
  have htake : (charsOf lead).take ((charsOf lead).length -
      ((List.intercalate ['\n'] lines).length + 1 + gap.reverse.length)) =
        charsOf above ++ ['\n'] := by
    rw [hlength, h.charsOf_eq hne, List.take_left]
  rw [ofLead, h.block_eq]
  split
  · contradiction
  · dsimp only
    rw [h.cut_reverse.1, ← charsOf, htake]

end DocComment

end HandlerDocs.Code
