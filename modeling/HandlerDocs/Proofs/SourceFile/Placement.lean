import HandlerDocs.Proofs.SourceFile.Reload

namespace HandlerDocs

open Code Code.Lexer Code.DocComment Edit

structure Code.Span.Cuts (span : Span) (text before old after : List Char) : Prop where
  eq : text = before ++ old ++ after
  start : span.start = bytes before
  stop : span.stop = bytes before + bytes old

def Code.Span.IsIn (span : Span) (text : List Char) : Prop :=
  ∃ before old after, span.Cuts text before old after

theorem Code.Span.isIn_iff {span : Span} {text : List Char} : span.IsIn text ↔
    bytes (takeBytes span.start text) = span.start ∧ span.start ≤ span.stop ∧
      bytes (takeBytes (span.stop - span.start) (dropBytes span.start text)) =
        span.stop - span.start := by
  constructor
  · rintro ⟨before, old, after, rfl, hstart, hstop⟩
    have hlength : span.stop - span.start = bytes old := by omega
    rw [hstart] at hlength ⊢
    rw [hlength, List.append_assoc, takeBytes_bytes_append, dropBytes_bytes_append,
      takeBytes_bytes_append]
    exact ⟨rfl, by omega, rfl⟩
  · rintro ⟨hstart, hle, hlength⟩
    refine ⟨takeBytes span.start text,
      takeBytes (span.stop - span.start) (dropBytes span.start text),
      dropBytes (span.stop - span.start) (dropBytes span.start text), ?_, hstart.symm, by omega⟩
    rw [List.append_assoc, takeBytes_append_dropBytes, takeBytes_append_dropBytes]

instance (span : Span) (text : List Char) : Decidable (span.IsIn text) :=
  decidable_of_iff _ Code.Span.isIn_iff.symm

namespace FuncDecl

def top (f : FuncDecl) : ℕ :=
  (f.doc.span.map Span.start).getD f.span.start

structure IsIn (f : FuncDecl) (text : List Char) : Prop where
  span : f.span.IsIn text
  nonempty : f.span.start < f.span.stop
  doc : ∀ span ∈ f.doc.span, span.IsIn text ∧ span.stop ≤ f.span.start

instance (f : FuncDecl) (text : List Char) : Decidable (f.IsIn text) :=
  decidable_of_iff (f.span.IsIn text ∧ f.span.start < f.span.stop ∧
    ∀ span ∈ f.doc.span, span.IsIn text ∧ span.stop ≤ f.span.start)
    ⟨fun h ↦ ⟨h.1, h.2.1, h.2.2⟩, fun h ↦ ⟨h.span, h.nonempty, h.doc⟩⟩

def BreaksAfterDoc (f : FuncDecl) (text : List Char) : Prop :=
  ∀ span ∈ f.doc.span, SourceFile.lineEnd text span.stop ≤ f.span.start

theorem top_eq {f : FuncDecl} {span : Span} (h : f.doc.span = some span) : f.top = span.start := by
  rw [top, h, Option.map_some, Option.getD_some]

theorem IsIn.top_le {f : FuncDecl} {text : List Char} (h : f.IsIn text) :
    f.top ≤ f.span.start := by
  cases hdoc : f.doc.span with
  | none => rw [top, hdoc, Option.map_none, Option.getD_none]
  | some span =>
    obtain ⟨⟨before, old, after, hcuts⟩, hstop⟩ := h.doc span hdoc
    have hstart := hcuts.start
    have hend := hcuts.stop
    rw [top_eq hdoc]
    omega

theorem IsIn.top_lt {f : FuncDecl} {text : List Char} (h : f.IsIn text) : f.top < f.span.stop :=
  h.top_le.trans_lt h.nonempty

end FuncDecl

structure SourceFile.InOrder (file : SourceFile) : Prop where
  isIn : ∀ f ∈ file.functions, f.IsIn file.source.toList
  apart : file.functions.Pairwise fun f g ↦ f.span.stop ≤ g.top

instance (file : SourceFile) : Decidable file.InOrder :=
  decidable_of_iff ((∀ f ∈ file.functions, f.IsIn file.source.toList) ∧
    file.functions.Pairwise fun f g ↦ f.span.stop ≤ g.top)
    ⟨fun h ↦ ⟨h.1, h.2⟩, fun h ↦ ⟨h.isIn, h.apart⟩⟩

theorem SourceFile.lineEnd_append (before after : List Char) {line : List Char} (h : '\n' ∉ line) :
    lineEnd (before ++ (line ++ '\n' :: after)) (bytes before) = bytes before + bytes line + 1 := by
  have hline : ∀ c ∈ line, (decide (c ≠ '\n')) = true := fun c hc ↦ by
    rw [decide_eq_true_eq]
    rintro rfl
    exact h hc
  rw [lineEnd, dropBytes_bytes_append, List.takeWhile_append_of_pos hline]
  simp

/-- A function read behind its lead: it and its comment stand where the lead says. -/
theorem isIn_of_lead {f : FuncDecl} {origin : Pos} {lead : List Trivia} {before body : List Char}
    (horigin : origin.byte = bytes before) (hdoc : f.doc = ofLead lead origin) (hbody : body ≠ [])
    (hspan : f.span = .between (origin.after (charsOf lead)) (origin.after (charsOf lead ++ body)))
    (after : List Char) :
    f.IsIn (before ++ charsOf lead ++ body ++ after) ∧
      f.BreaksAfterDoc (before ++ charsOf lead ++ body ++ after) ∧ bytes before ≤ f.top := by
  have hstart : f.span.start = bytes (before ++ charsOf lead) := by
    rw [hspan, Span.between, Pos.byte_after, horigin, bytes_append]
  have hstop : f.span.stop = bytes (before ++ charsOf lead) + bytes body := by
    rw [hspan]
    simp only [Span.between, Pos.byte_after, horigin, bytes_append, Nat.add_assoc]
  have hfunction : f.span.Cuts (before ++ charsOf lead ++ body ++ after) (before ++ charsOf lead)
      body after := ⟨rfl, hstart, hstop⟩
  have hpos := bytes_pos hbody
  by_cases hblock : block lead = []
  · have hnone : f.doc.span = none := by rw [hdoc, span_ofLead_eq_none, hblock]
    refine ⟨⟨⟨_, _, _, hfunction⟩, by omega, by simp [hnone]⟩, ?_, ?_⟩
    · simp [FuncDecl.BreaksAfterDoc, hnone]
    · rw [FuncDecl.top, hnone, Option.map_none, Option.getD_none, hstart, bytes_append]
      omega
  · obtain ⟨above, gap, hlaid, -⟩ := exists_laid (.inl hblock)
    have hchars := hlaid.charsOf_eq hblock
    have hsome := hlaid.span_ofLead hblock origin
    rw [← hdoc] at hsome
    generalize List.intercalate ['\n'] (block lead) = text at hchars hsome
    generalize charsOf above ++ ['\n'] = front at hchars hsome
    have hcuts : (Span.between (origin.after front) ((origin.after front).after text)).Cuts
        (before ++ charsOf lead ++ body ++ after) (before ++ front) text
        ('\n' :: (charsOf gap ++ body ++ after)) := by
      refine ⟨by simp [hchars], ?_, ?_⟩
      · rw [Span.between, Pos.byte_after, horigin, bytes_append]
      · simp only [Span.between, Pos.byte_after, horigin, bytes_append]
    have hline := SourceFile.lineEnd_append (before ++ front ++ text) (charsOf gap ++ body ++ after)
      (List.not_mem_nil (a := '\n'))
    rw [List.nil_append, ← hcuts.eq, bytes_append, ← hcuts.stop, bytes_nil, Nat.add_zero] at hline
    -- the line feed behind the comment is in front of the function
    have hbreak : bytes (before ++ front) + bytes text + 1 ≤ f.span.start := by
      have hfeed : bytes ('\n' :: charsOf gap) = 1 + bytes (charsOf gap) := rfl
      rw [hstart, hchars, bytes_append, bytes_append, bytes_append, bytes_append, hfeed]
      omega
    have hstop' := hcuts.stop
    refine ⟨⟨⟨_, _, _, hfunction⟩, by omega, ?_⟩, ?_, ?_⟩
    · rw [hsome]
      rintro span ⟨⟩
      exact ⟨⟨_, _, _, hcuts⟩, by omega⟩
    · rw [FuncDecl.BreaksAfterDoc, hsome]
      rintro span ⟨⟩
      omega
    · rw [FuncDecl.top_eq hsome, hcuts.start, bytes_append]
      omega

theorem inOrder_of_decls {g : Grammar} {origin : Pos} {ps : List (List Token)}
    {placed : List Placed} {text before after : List Char}
    (htext : text = before ++ textOf ps.flatten ++ after)
    (horigin : origin.byte = bytes before) (h : File.decls g origin ps = some placed) :
    (∀ f ∈ functionsOf placed, f.IsIn text ∧ f.BreaksAfterDoc text ∧ bytes before ≤ f.top) ∧
      (functionsOf placed).Pairwise fun f g ↦ f.span.stop ≤ g.top := by
  induction ps generalizing origin placed before with
  | nil =>
    obtain rfl := Option.some.inj h
    simp [functionsOf]
  | cons piece ps ih =>
    obtain ⟨decl?, rest, hdecl, hrest, rfl⟩ := decls_cons_eq_some.1 h
    rw [functionsOf_append]
    rw [List.flatten_cons, textOf_append] at htext
    have hnext : (origin.after (textOf piece)).byte = bytes (before ++ textOf piece) := by
      rw [Pos.byte_after, horigin, bytes_append]
    obtain ⟨hmore, hapart⟩ := ih (by simp [htext]) hnext hrest
    have hlater : ∀ f ∈ functionsOf rest,
        f.IsIn text ∧ f.BreaksAfterDoc text ∧ bytes before ≤ f.top := fun f hf ↦ by
      obtain ⟨hin, hbreak, htop⟩ := hmore f hf
      rw [bytes_append] at htop
      exact ⟨hin, hbreak, by omega⟩
    by_cases hother : ∀ signature, decl? ≠ some (.function signature)
    · rw [functionsOf_other hother]
      exact ⟨hlater, hapart⟩
    · push Not at hother
      obtain ⟨signature, rfl⟩ := hother
      obtain ⟨lead, more, rfl, hne⟩ := Grammar.exists_func_of_declOf? hdecl
      obtain ⟨f, hf, hdoc, -, hspan⟩ := functionsOf_func signature lead hne origin
      have hlast : textOf more = textOf more.dropLast ++ textOf [more.getLast hne] := by
        rw [← textOf_append, List.dropLast_append_getLast hne]
      have htext' : text = before ++ charsOf lead ++ ("func".toList ++ textOf more.dropLast) ++
          (textOf [more.getLast hne] ++ textOf ps.flatten ++ after) := by
        rw [htext, textOf_cons, Token.chars, hlast]
        simp [charsOf]
      rw [List.append_assoc] at hspan
      have hin := isIn_of_lead horigin hdoc (by simp) hspan
        (textOf [more.getLast hne] ++ textOf ps.flatten ++ after)
      rw [← htext'] at hin
      rw [hf, List.singleton_append]
      refine ⟨List.forall_mem_cons.2 ⟨hin, hlater⟩, List.pairwise_cons.2 ⟨fun g hg ↦ ?_, hapart⟩⟩
      have htop := (hmore g hg).2.2
      have hstop : f.span.stop =
          bytes (before ++ charsOf lead ++ ("func".toList ++ textOf more.dropLast)) := by
        rw [hspan]
        simp only [Span.between, Pos.byte_after, horigin, bytes_append, Nat.add_assoc]
      refine Nat.le_trans ?_ htop
      rw [hstop, textOf_cons, Token.chars, hlast]
      simp only [bytes_append, charsOf]
      omega

/-- In a file that is read the functions stand one after another, and every comment ends its
line. -/
theorem SourceFile.inOrder_of_parse {path source : String} {file : SourceFile}
    (h : parse path source = .ok file) :
    file.InOrder ∧ ∀ f ∈ file.functions, f.BreaksAfterDoc file.source.toList := by
  obtain ⟨tree, htree, rfl⟩ := parse_eq_ok h
  obtain ⟨ts, tail, htokens, hts⟩ := File.parse_eq_ok htree
  obtain ⟨word, name, stop, rest, placed, rfl, -, hdecls, rfl⟩ := File.ofTokens_eq_some hts
  have htext : source.toList = textOf [word, name, stop] ++ textOf (pieces 0 rest).flatten ++
      charsOf tail := by
    rw [(tokens_eq_some_iff.1 htokens).eq, flatten_pieces, ← textOf_append]
    rfl
  have horigin := Pos.byte_after .start (textOf [word, name, stop])
  obtain ⟨hin, hapart⟩ := inOrder_of_decls htext (by rw [horigin]; exact Nat.zero_add _) hdecls
  exact ⟨⟨fun f hf ↦ (hin f hf).1, hapart⟩, fun f hf ↦ (hin f hf).2.1⟩

end HandlerDocs
