import HandlerDocs.Proofs.Code.LineComment
import HandlerDocs.Proofs.SourceFile.Placement

namespace HandlerDocs.Code

open Lexer DocComment Edit

def lineNumber (front : List Char) : ℕ :=
  front.count '\n' + 1

/-- What this text has of the line on which it ends, last character first. -/
def lastLine (front : List Char) : List Char :=
  front.reverse.takeWhile (· ≠ '\n')

theorem lastLine_append_of_notMem {ds : List Char} (h : '\n' ∉ ds) (cs : List Char) :
    lastLine (cs ++ ds) = ds.reverse ++ lastLine cs := by
  rw [lastLine, List.reverse_append, List.takeWhile_append_of_pos]
  · rfl
  · intro c hc
    rw [decide_eq_true_eq]
    rintro rfl
    exact h (List.mem_reverse.1 hc)

theorem lastLine_concat_newline (cs : List Char) : lastLine (cs ++ ['\n']) = [] := by
  simp [lastLine]

theorem lastLine_concat_of_ne {c : Char} (h : c ≠ '\n') (cs : List Char) :
    lastLine (cs ++ [c]) = c :: lastLine cs :=
  lastLine_append_of_notMem (by simpa using h.symm) cs

theorem Pos.start_after (cs : List Char) :
    start.after cs = ⟨bytes cs, cs.count '\n', bytes (lastLine cs)⟩ := by
  induction cs using List.reverseRecOn with
  | nil => rfl
  | append_singleton cs c ih =>
    rw [after_append, ih]
    change step _ c = _
    rw [step, bytes_append, List.count_append]
    split
    · rename_i hc
      have hsize : '\n'.utf8Size = 1 := rfl
      simp [lastLine, hc, hsize]
    · rename_i hc
      rw [lastLine_concat_of_ne hc, bytes_cons, bytes_cons, bytes_nil]
      simp [hc, Nat.add_comm]

structure Span.Marks (span : Span) (source before text after : List Char) : Prop
    extends span.Cuts source before text after where
  line : span.line = lineNumber before
  column : span.column = bytes (lastLine before) + 1
  endLine : span.endLine = lineNumber (before ++ text)

theorem Span.marks_between (before text after : List Char) :
    (Span.between (Pos.start.after before) (Pos.start.after (before ++ text))).Marks
      (before ++ text ++ after) before text after := by
  rw [between, Pos.start_after, Pos.start_after]
  exact ⟨⟨rfl, rfl, bytes_append before text⟩, rfl, rfl, rfl⟩

namespace FuncNode

/-- The comment of a function: line comments that each fill a line, the last one on the line above
the function, with no such comment on the line above the first one. -/
structure DocAbove (f : FuncNode) (source : List Char) (span : Span) : Prop where
  lines : ∃ before text after, span.Marks source before text after ∧
    (text.splitOn '\n').map (fun line ↦ Text.trimEnd (String.ofList line)) = f.doc.lines ∧
    ∀ line ∈ text.splitOn '\n', ['/', '/'] <+: line
  column : span.column = 1
  endLine : span.endLine + 1 = f.span.line
  top : ∀ front text, IsLineComment source front text → StartsLine front →
    lineNumber front + 1 ≠ span.line

/-- Without a comment: where only blanks precede the function on its line, no line comment fills
the line above. -/
structure Bare (f : FuncNode) (source before : List Char) : Prop where
  lines : f.doc.lines = []
  top : ∀ front text, IsLineComment source front text → StartsLine front →
    lineNumber front + 1 = f.span.line → ∃ c ∈ lastLine before, isSpace c = false

structure StandsIn (f : FuncNode) (source before text after : List Char) : Prop where
  span : f.span.Marks source before text after
  keyword : "func".toList <+: text
  doc : ∀ span ∈ f.doc.span, f.DocAbove source span
  bare : f.doc.span = none → f.Bare source before

end FuncNode

namespace Lexer

theorem Lexed.semicolon_or_breaksLine {ends : Bool} {cs : List Char} {before after : List Token}
    {s t : Token} {tail : List Trivia} (h : Lexed ends cs (before ++ s :: t :: after) tail)
    (hs : s.kind = .stop) : s.text.toList = [';'] ∨ t.lead.any Trivia.breaksLine := by
  generalize hts : before ++ s :: t :: after = ts at h
  induction h generalizing before with
  | done => simp at hts
  | stop hbreak _ ih =>
    cases before with
    | nil =>
      obtain ⟨rfl, rfl⟩ := List.cons.inj hts
      exact .inr (hbreak t rfl)
    | cons u before => exact ih (List.cons.inj hts).2
  | token _ _ htoken _ ih =>
    cases before with
    | nil =>
      obtain ⟨rfl, rfl⟩ := List.cons.inj hts
      exact .inl (by simpa using (lexeme_of_token htoken).stop hs)
    | cons u before => exact ih (List.cons.inj hts).2

end Lexer

namespace DocComment

theorem notMem_charsOf {gap : List Trivia} (h : ∀ t ∈ gap, sameLine t) : '\n' ∉ charsOf gap := by
  intro hmem
  obtain ⟨t, ht, hchars⟩ := List.mem_flatMap.1 hmem
  have hline := h t ht
  cases t with
  | space c =>
    obtain rfl : '\n' = c := by simpa [Trivia.chars] using hchars
    simp [sameLine] at hline
  | line => simp [sameLine] at hline
  | block => simp [sameLine] at hline

/-- Where only blanks are left of the last line, the trivia are blanks since a line feed, if they
have one. -/
theorem sameLine_or_exists_newline {lead : List Trivia} (hread : ∀ t ∈ lead, Readable t)
    {front : List Char} (hblank : ∀ c ∈ lastLine (front ++ charsOf lead), isSpace c) :
    (∀ t ∈ lead, sameLine t) ∨
      ∃ above gap, lead = above ++ .space '\n' :: gap ∧ ∀ t ∈ gap, sameLine t := by
  induction lead using List.reverseRecOn with
  | nil => exact .inl (by simp)
  | append_singleton lead t ih =>
    rw [List.forall_mem_append, List.forall_mem_singleton] at hread
    rw [charsOf_append, charsOf_cons, charsOf_nil, List.append_nil, ← List.append_assoc] at hblank
    have hslash : isSpace '/' = false := by decide
    cases hread.2 with
    | @space c hc =>
      by_cases hfeed : c = '\n'
      · exact .inr ⟨lead, [], by rw [hfeed], by simp⟩
      · have hsame : sameLine (.space c) := by simpa [sameLine] using hfeed
        rw [Trivia.chars, lastLine_concat_of_ne hfeed, List.forall_mem_cons] at hblank
        rcases ih hread.1 hblank.2 with hall | ⟨above, gap, rfl, hgap⟩
        · refine .inl (List.forall_mem_append.2 ⟨hall, by simpa using hsame⟩)
        · refine .inr ⟨above, gap ++ [.space c], by simp, ?_⟩
          exact List.forall_mem_append.2 ⟨hgap, by simpa using hsame⟩
    | @line text htext =>
      rw [Trivia.chars, lastLine_append_of_notMem (by simpa using htext)] at hblank
      have hspace := hblank '/' (by simp)
      rw [hslash] at hspace
      cases hspace
    | @block text hend =>
      obtain ⟨init, rfl⟩ := List.getLast?_eq_some_iff.1 hend
      rw [Trivia.chars, ← List.cons_append, ← List.cons_append, ← List.append_assoc,
        lastLine_concat_of_ne (by decide)] at hblank
      have hspace := hblank '/' (by simp)
      rw [hslash] at hspace
      cases hspace

theorem line_of_mem_block {lead : List Trivia} (hread : ∀ t ∈ lead, Readable t) {text : List Char}
    (h : text ∈ block lead) : ['/', '/'] <+: text ∧ '\n' ∉ text := by
  cases hread _ (mem_of_mem_block h) with
  | @line body hbody => exact ⟨⟨body, rfl⟩, by simpa using hbody⟩

theorem block_of_newline {above gap : List Trivia} (hgap : ∀ t ∈ gap, sameLine t) :
    block (above ++ .space '\n' :: gap) = (run (.space '\n' :: above.reverse)).reverse := by
  have hback : ∀ t ∈ gap.reverse, sameLine t := fun t ht ↦ hgap t (List.mem_reverse.1 ht)
  rw [block, List.reverse_append, List.reverse_cons, List.append_assoc,
    List.dropWhile_append_of_pos hback]
  rfl

end DocComment

structure FuncAt (ts : List Token) (f : FuncDecl) (front : List Token) (lead : List Trivia)
    (body back : List Token) : Prop where
  eq : ts = front ++ ⟨lead, .keyword, "func"⟩ :: (body ++ back)
  stop : front.getLast?.any (·.kind = .stop)
  doc : f.doc = ofLead lead (Pos.start.after (textOf front))
  span : f.span = .between (Pos.start.after (textOf front ++ charsOf lead))
    (Pos.start.after (textOf front ++ charsOf lead ++ ("func".toList ++ textOf body)))

theorem exists_funcAt {g : Grammar} {before : List Token} {ps : List (List Token)}
    {placed : List Placed} (hbefore : before.getLast?.any (·.kind = .stop))
    (hps : ∀ piece ∈ ps.dropLast, piece.getLast?.any (·.kind = .stop))
    (h : File.decls g (Pos.start.after (textOf before)) ps = some placed) :
    ∀ f ∈ functionsOf placed, ∃ front lead body back,
      FuncAt (before ++ ps.flatten) f front lead body back ∧ before <+: front := by
  induction ps generalizing before placed with
  | nil =>
    obtain rfl := Option.some.inj h
    simp [functionsOf]
  | cons piece ps ih =>
    obtain ⟨decl?, rest, hdecl, hrest, rfl⟩ := decls_cons_eq_some.1 h
    rw [functionsOf_append, List.forall_mem_append]
    constructor
    · by_cases hother : ∀ signature, decl? ≠ some (.function signature)
      · rw [functionsOf_other hother]
        simp
      · push Not at hother
        obtain ⟨signature, rfl⟩ := hother
        obtain ⟨lead, more, rfl, hmore⟩ := Grammar.exists_func_of_declOf? hdecl
        obtain ⟨f, hf, hdoc, -, hspan⟩ := functionsOf_func signature lead hmore
          (Pos.start.after (textOf before))
        rw [hf, List.forall_mem_singleton]
        refine ⟨before, lead, more.dropLast, more.getLast hmore :: ps.flatten,
          ⟨?_, hbefore, hdoc, ?_⟩, List.prefix_rfl⟩
        · have hsplit := List.dropLast_append_getLast hmore
          rw [List.flatten_cons, List.append_cons more.dropLast, hsplit]
          rfl
        · rw [hspan, ← Pos.after_append, ← Pos.after_append]
          simp only [List.append_assoc]
    · cases ps with
      | nil =>
        obtain rfl := Option.some.inj hrest
        simp [functionsOf]
      | cons next ps =>
        rw [List.dropLast_cons_of_ne_nil (by simp), List.forall_mem_cons] at hps
        rw [← Pos.after_append, ← textOf_append] at hrest
        have hlast : (before ++ piece).getLast?.any (·.kind = .stop) := by
          rw [List.getLast?_append]
          cases hpiece : piece.getLast? with
          | none => simp [hpiece] at hps
          | some t => simpa [hpiece] using hps.1
        intro f hf
        obtain ⟨front, lead, body, back, hat, hfront⟩ := ih hlast hps.2 hrest f hf
        rw [List.append_assoc, ← List.flatten_cons] at hat
        exact ⟨front, lead, body, back, hat, (List.prefix_append _ _).trans hfront⟩

namespace FuncAt

variable {source : List Char} {ts front body back : List Token} {tail lead : List Trivia}
  {f : FuncNode} (h : FuncAt ts (.ofNode f) front lead body back)
  (hlexed : Lexed false source ts tail)

include h hlexed

theorem source_eq : source = textOf front ++ charsOf lead ++ ("func".toList ++ textOf body) ++
    (textOf back ++ charsOf tail) := by
  rw [hlexed.eq, h.eq]
  simp [Token.chars, charsOf]

theorem marks : f.span.Marks source (textOf front ++ charsOf lead)
    ("func".toList ++ textOf body) (textOf back ++ charsOf tail) := by
  have hmarks := Span.marks_between (textOf front ++ charsOf lead) ("func".toList ++ textOf body)
    (textOf back ++ charsOf tail)
  rwa [← h.source_eq hlexed, ← h.span] at hmarks

theorem readable : ∀ t ∈ lead, Readable t :=
  hlexed.readable ⟨lead, .keyword, "func"⟩ (by simp [h.eq])

/-- A function on its own line comes after a line feed. -/
theorem exists_newline (hblank : ∀ c ∈ lastLine (textOf front ++ charsOf lead), isSpace c) :
    ∃ above gap, lead = above ++ .space '\n' :: gap ∧ ∀ t ∈ gap, sameLine t := by
  refine (sameLine_or_exists_newline (h.readable hlexed) hblank).resolve_left fun hline ↦ ?_
  obtain ⟨s, hs, hstop⟩ := (Option.any_eq_true _ _).1 h.stop
  obtain ⟨front, rfl⟩ := List.getLast?_eq_some_iff.1 hs
  have hts := h.eq
  rw [List.append_assoc, List.singleton_append] at hts
  rcases (hts ▸ hlexed).semicolon_or_breaksLine (of_decide_eq_true hstop) with hsemi | hbreak
  · have htext : textOf (front ++ [s]) = (textOf front ++ charsOf s.lead) ++ [';'] := by
      simp [Token.chars, charsOf, hsemi]
    rw [lastLine_append_of_notMem (notMem_charsOf hline), htext,
      lastLine_concat_of_ne (by decide)] at hblank
    exact absurd (hblank ';' (by simp)) (by decide)
  · exact notMem_charsOf hline (newline_mem_of_breaksLine hbreak)

/-- Above the line feed at which the comment of a function begins, or its own line, there is no
further line of a comment. -/
theorem lineNumber_ne (hfront : textOf front ≠ []) {above below : List Trivia}
    (hlead : lead = above ++ .space '\n' :: below) (htop : run (.space '\n' :: above.reverse) = [])
    {before text : List Char} (hcomment : IsLineComment source before text)
    (hstarts : StartsLine before) :
    lineNumber before + 1 ≠ lineNumber (textOf front ++ charsOf above ++ ['\n']) := by
  rw [h.eq, hlead] at hlexed
  exact fun heq ↦ not_isLineComment_above hlexed hfront htop hcomment hstarts (Nat.succ.inj heq)

theorem bare (hfront : textOf front ≠ []) (hnone : f.doc.span = none) :
    f.Bare source (textOf front ++ charsOf lead) := by
  have hdoc : f.doc = _ := h.doc
  rw [hdoc, span_ofLead_eq_none] at hnone
  refine ⟨by rw [hdoc, lines_ofLead, hnone]; rfl, fun before text hcomment hstarts hline ↦ ?_⟩
  by_contra hblank
  push Not at hblank
  obtain ⟨above, gap, rfl, hgap⟩ := h.exists_newline hlexed (by simpa using hblank)
  rw [block_of_newline hgap, List.reverse_eq_nil_iff] at hnone
  refine h.lineNumber_ne hlexed hfront rfl hnone hcomment hstarts (hline.trans ?_)
  have hgap' : (charsOf gap).count '\n' = 0 := List.count_eq_zero.2 (notMem_charsOf hgap)
  rw [(h.marks hlexed).line]
  simp [lineNumber, Trivia.chars, hgap']

section Doc

variable {span : Span} (hspan : f.doc.span = some span)

include hspan

omit hlexed in
theorem block_ne_nil : block lead ≠ [] := fun hnone ↦ by
  have hdoc : f.doc = _ := h.doc
  rw [hdoc, span_ofLead_eq_none.2 hnone] at hspan
  cases hspan

theorem marks_doc {above gap : List Trivia} (hlaid : Laid lead above (block lead) gap) :
    span.Marks source (textOf front ++ charsOf above ++ ['\n'])
      (List.intercalate ['\n'] (block lead))
      ('\n' :: charsOf gap ++ ("func".toList ++ textOf body) ++ (textOf back ++ charsOf tail)) := by
  have hdoc : f.doc = _ := h.doc
  have hblock := h.block_ne_nil hspan
  have hbetween := hlaid.span_ofLead hblock (Pos.start.after (textOf front))
  rw [← hdoc, hspan, Option.some.injEq, ← Pos.after_append, ← Pos.after_append,
    ← List.append_assoc] at hbetween
  have hsource : source = textOf front ++ charsOf above ++ ['\n'] ++
      List.intercalate ['\n'] (block lead) ++
      ('\n' :: charsOf gap ++ ("func".toList ++ textOf body) ++ (textOf back ++ charsOf tail)) := by
    rw [h.source_eq hlexed, hlaid.charsOf_eq hblock]
    simp
  rw [hsource, hbetween]
  exact Span.marks_between _ _ _

theorem docAbove (hfront : textOf front ≠ []) : f.DocAbove source span := by
  have hdoc : f.doc = _ := h.doc
  have hblock := h.block_ne_nil hspan
  have hlines : ∀ line ∈ block lead, ['/', '/'] <+: line ∧ '\n' ∉ line := fun line hline ↦
    line_of_mem_block (h.readable hlexed) hline
  have hsplit : (List.intercalate ['\n'] (block lead)).splitOn '\n' = block lead :=
    List.splitOn_intercalate '\n' (fun line hline ↦ (hlines line hline).2) hblock
  obtain ⟨above, gap, hlaid, -⟩ := exists_laid (.inl hblock)
  have hmarks := h.marks_doc hlexed hspan hlaid
  refine ⟨⟨_, _, _, hmarks, ?_, ?_⟩, ?_, ?_, fun before text hcomment hstarts ↦ ?_⟩
  · rw [hsplit, hdoc, lines_ofLead]
    exact List.map_congr_left fun line _ ↦ by rw [Text.trimEnd, String.toList_ofList]
  · rw [hsplit]
    exact fun line hline ↦ (hlines line hline).1
  · rw [hmarks.column, lastLine_concat_newline]
    rfl
  · have hgap : (charsOf gap).count '\n' = 0 := List.count_eq_zero.2 (notMem_charsOf hlaid.sameLine)
    rw [hmarks.endLine, (h.marks hlexed).line, hlaid.charsOf_eq hblock]
    simp only [lineNumber, List.count_append, List.count_cons, hgap]
    simp [Nat.add_assoc]
  · rw [hmarks.line]
    exact h.lineNumber_ne hlexed hfront hlaid.eq hlaid.top hcomment hstarts

end Doc

theorem standsIn (hfront : textOf front ≠ []) :
    f.StandsIn source (textOf front ++ charsOf lead) ("func".toList ++ textOf body)
      (textOf back ++ charsOf tail) :=
  ⟨h.marks hlexed, List.prefix_append _ _, fun _ hspan ↦ h.docAbove hlexed hspan hfront,
    h.bare hlexed hfront⟩

end FuncAt

namespace File

theorem exists_standsIn {source : String} {file : File} (h : File.parse source = .ok file) :
    ∀ f ∈ file.functions, ∃ before text after, f.StandsIn source.toList before text after := by
  intro f hf
  obtain ⟨ts, tail, htokens, hts⟩ := File.parse_eq_ok h
  obtain ⟨word, name, stop, rest, placed, rfl, hclause, hdecls, rfl⟩ := File.ofTokens_eq_some hts
  simp only [Parse.isNext, Bool.and_eq_true, decide_eq_true_eq] at hclause
  obtain ⟨⟨⟨-, hword⟩, -⟩, hstop⟩ := hclause
  have hlast : [word, name, stop].getLast?.any (·.kind = .stop) := by simp [hstop]
  obtain ⟨front, lead, body, back, hat, hfront⟩ := exists_funcAt hlast
    (getLast?_of_mem_dropLast_pieces 0 rest) hdecls (.ofNode f) (List.mem_map_of_mem hf)
  rw [flatten_pieces] at hat
  have hne : textOf front ≠ [] := by
    obtain ⟨more, rfl⟩ := hfront
    simp [Token.chars, hword]
  exact ⟨_, _, _, hat.standsIn (tokens_eq_some_iff.1 htokens) hne⟩

/-- In a source file that is read, functions are stretches of the text, one after another. The
comment of one comes after the functions in front of it and fills the lines right above it, as far
up as there are comments that fill a line. -/
theorem spans_in_order {source : String} {file : File} (h : File.parse source = .ok file) :
    (∀ f ∈ file.functions, ∃ before text after, f.StandsIn source.toList before text after) ∧
    file.functions.Pairwise fun f g ↦ f.span.stop ≤ g.span.start ∧
      ∀ span ∈ g.doc.span, f.span.stop ≤ span.start := by
  refine ⟨exists_standsIn h, ?_⟩
  have hread : SourceFile.parse "" source = .ok (.ofFile "" source file) := by
    rw [SourceFile.parse, h]
    rfl
  obtain ⟨⟨hin, hapart⟩, -⟩ := SourceFile.inOrder_of_parse hread
  refine (List.pairwise_map.1 hapart).imp_of_mem fun {f g} _ hg hle ↦ ?_
  refine ⟨hle.trans (hin _ (List.mem_map_of_mem hg)).top_le, fun span hspan ↦ ?_⟩
  have htop : (FuncDecl.ofNode g).top = span.start := FuncDecl.top_eq hspan
  rwa [htop] at hle

/-- A comment ends at an empty line and at a block comment, and there is none in the middle of a
line. -/
theorem spans_in_order_of_three :
    ∃ file, File.parse ("package p\n// é\n\n// A é. \r\n//\n\tfunc A()\n// x\n/* y\n// z */\n" ++
        "// B\nfunc B(); func C()\n") = .ok file ∧
      file.functions.map (fun f ↦ (f.span.start, f.span.stop, f.doc.lines)) =
        [(32, 40, ["// A é.", "//"]), (64, 72, ["// B"]), (74, 82, [])] ∧
      (∀ f ∈ file.functions, ∃ before text after, f.StandsIn
        ("package p\n// é\n\n// A é. \r\n//\n\tfunc A()\n// x\n/* y\n// z */\n" ++
          "// B\nfunc B(); func C()\n").toList before text after) ∧
      file.functions.Pairwise fun f g ↦ f.span.stop ≤ g.span.start ∧
        ∀ span ∈ g.doc.span, f.span.stop ≤ span.start := by
  obtain ⟨file, hparse, hview⟩ := exists_ok_of_toOption (show (File.parse
      ("package p\n// é\n\n// A é. \r\n//\n\tfunc A()\n// x\n/* y\n// z */\n" ++
        "// B\nfunc B(); func C()\n")).toOption.map (fun file ↦
          file.functions.map fun f ↦ (f.span.start, f.span.stop, f.doc.lines)) =
      some [(32, 40, ["// A é.", "//"]), (64, 72, ["// B"]), (74, 82, [])] by
    decide +kernel)
  exact ⟨file, hparse, hview, spans_in_order hparse⟩

end File

end HandlerDocs.Code
