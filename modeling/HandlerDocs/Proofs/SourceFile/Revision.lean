import HandlerDocs.Proofs.Code.Pieces
import HandlerDocs.Proofs.Text.Trim

namespace HandlerDocs

open Code Code.Lexer Code.DocComment Edit

def IsCommentLine (line : String) : Prop :=
  ['/', '/'] <+: line.toList ∧ '\n' ∉ line.toList

instance (line : String) : Decidable (IsCommentLine line) :=
  inferInstanceAs (Decidable (_ ∧ _))

theorem sound_commentLines {lines : List String} (hlines : ∀ line ∈ lines, IsCommentLine line)
    {gap : List Trivia} (hgap : ∀ t ∈ gap, sameLine t ∧ Readable t) :
    Sound (commentLines (lines.map String.toList) ++ gap) := by
  intro rest hrest
  induction lines with
  | nil =>
    induction gap with
    | nil => exact .nil hrest
    | cons t gap ih =>
      obtain ⟨hline, hread⟩ := hgap t (by simp)
      cases hread with
      | space hc => exact .space hc (ih fun u hu ↦ hgap u (by simp [hu]))
      | line => simp [sameLine] at hline
      | block => simp [sameLine] at hline
  | cons line lines ih =>
    have hmore := ih fun l hl ↦ hlines l (by simp [hl])
    obtain ⟨⟨text, htext⟩, hnewline⟩ := hlines line (by simp)
    have hspace : Leads ('\n' :: (charsOf (commentLines (lines.map String.toList) ++ gap) ++ rest))
        (.space '\n' :: (commentLines (lines.map String.toList) ++ gap)) rest :=
      .space (by decide) hmore
    have hnot : '\n' ∉ text := fun hmem ↦ hnewline (by rw [← htext]; simp [hmem])
    have hleads := Leads.line hnot (by simp) hspace
    simpa [commentLines, ← htext, Trivia.chars] using hleads

structure IsReadLine (line : String) : Prop where
  comment : IsCommentLine line
  trimmed : Text.trimEnd line = line

theorem isCommentLine_of_readable {text : List Char} (h : Readable (.line text)) :
    IsCommentLine (String.ofList text) := by
  cases h with
  | @line body hbody =>
    rw [IsCommentLine, String.toList_ofList]
    exact ⟨⟨body, rfl⟩, by simp [hbody]⟩

theorem isReadLine_of_readable {text : List Char} (h : Readable (.line text)) :
    IsReadLine (String.ofList (Text.dropWhileEnd Text.isBlank text)) := by
  refine ⟨?_, Text.trimEnd_ofList_dropWhileEnd text⟩
  cases h with
  | @line body hbody =>
    have hslash : Text.isBlank '/' = false := by decide
    have hcut : Text.dropWhileEnd Text.isBlank ('/' :: '/' :: body) =
        '/' :: '/' :: Text.dropWhileEnd Text.isBlank body := by
      simp [Text.dropWhileEnd_cons, hslash]
    have hbody' : '\n' ∉ Text.dropWhileEnd Text.isBlank body := fun hmem ↦
      hbody ((List.rdropWhile_prefix Text.isBlank body).mem hmem)
    rw [IsCommentLine, String.toList_ofList, hcut]
    exact ⟨⟨_, rfl⟩, by simp [hbody']⟩

theorem isReadLine_of_ofLead {lead : List Trivia} (h : ∀ t ∈ lead, Readable t) (origin : Pos) :
    ∀ line ∈ (ofLead lead origin).lines, IsReadLine line := by
  intro line hline
  rw [lines_ofLead] at hline
  obtain ⟨text, htext, rfl⟩ := List.mem_map.1 hline
  exact isReadLine_of_readable (h _ (mem_of_mem_block htext))

def FuncDecl.original (f : FuncDecl) : FuncDecl :=
  { f with pending := none }

structure IsBlock (lines : List String) : Prop where
  ne_nil : lines ≠ []
  comment : ∀ line ∈ lines, IsCommentLine line

inductive SameButComments : List Char → List Char → Prop
  | nil : SameButComments [] []
  | char {text text' : List Char} (c : Char) :
    SameButComments text text' → SameButComments (c :: text) (c :: text')
  | comments {text text' : List Char} {lines lines' : List String} :
    (∀ line ∈ lines, IsCommentLine line) → (∀ line ∈ lines', IsCommentLine line) →
    SameButComments text text' →
    SameButComments ((lines.flatMap fun line ↦ line.toList ++ ['\n']) ++ text)
      ((lines'.flatMap fun line ↦ line.toList ++ ['\n']) ++ text')

namespace SameButComments

theorem prepend {text text' : List Char} (h : SameButComments text text') (front : List Char) :
    SameButComments (front ++ text) (front ++ text') := by
  induction front with
  | nil => exact h
  | cons c front ih => exact .char c ih

theorem refl (text : List Char) : SameButComments text text := by
  simpa using nil.prepend text

theorem append {text text' more more' : List Char} (h : SameButComments text text')
    (hmore : SameButComments more more') : SameButComments (text ++ more) (text' ++ more') := by
  induction h with
  | nil => exact hmore
  | char c _ ih => exact .char c ih
  | comments hlines hlines' _ ih =>
    rw [List.append_assoc, List.append_assoc]
    exact .comments hlines hlines' ih

end SameButComments

theorem flatMap_eq_joinLines {lines : List String} (h : lines ≠ []) :
    (lines.flatMap fun line ↦ line.toList ++ ['\n']) = SourceFile.joinLines lines ++ ['\n'] := by
  induction lines with
  | nil => contradiction
  | cons line lines ih =>
    cases lines with
    | nil => simp [SourceFile.joinLines]
    | cons next lines =>
      rw [List.flatMap_cons, ih (by simp)]
      simp [SourceFile.joinLines, List.intercalate]

/-- The lines that are read again when these are put above the function. Without a comment to
replace they go right in front of it, so in the middle of a line the first one does not fill a
line of its own. -/
def FuncDecl.shown (f : FuncDecl) (lines : List String) : List String :=
  if f.doc.span = none ∧ f.span.column ≠ 1 then lines.tail else lines

def FuncDecl.HasRoom (f : FuncDecl) : Prop :=
  f.doc.span = none → f.span.column = 1

theorem FuncDecl.shown_of_hasRoom {f : FuncDecl} (h : f.HasRoom) (lines : List String) :
    f.shown lines = lines :=
  if_neg fun hmid ↦ hmid.2 (h hmid.1)

theorem FuncDecl.shown_of_not_hasRoom {f : FuncDecl} (h : ¬ f.HasRoom) (lines : List String) :
    f.doc.span = none ∧ f.shown lines = lines.tail := by
  rw [HasRoom, Classical.not_imp] at h
  exact ⟨h.1, if_pos h⟩

def FuncDecl.rereadLines (f : FuncDecl) : List String :=
  ((f.pending.map f.shown).getD f.doc.lines).map Text.trimEnd

structure Patched (f : FuncDecl) (origin : Pos) (lead lead' : List Trivia) (rest : List Char)
    (lines : List String) (before old new after : List Char) : Prop where
  old_eq : before ++ old ++ after = charsOf lead ++ rest
  new_eq : before ++ new ++ after = charsOf lead' ++ rest
  after_ne_nil : after ≠ []
  edit : ∀ source, SourceFile.editOf? source f =
    some ⟨origin.byte + bytes before, origin.byte + bytes before + bytes old, new⟩
  comments : SameButComments (before ++ old ++ after) (before ++ new ++ after)
  relead : Relead true lead lead'
  block_eq : block lead' = (f.shown lines).map String.toList

section Patches

variable {f : FuncDecl} {origin : Pos} {lead : List Trivia} {lines : List String}
  {rest : List Char} (hpending : f.pending = some lines) (hlines : IsBlock lines)
  (hdoc : f.doc = ofLead lead origin)

include hpending hlines hdoc

theorem exists_patched_of_block (hread : ∀ t ∈ lead, Readable t) (hblock : block lead ≠ []) :
    ∃ lead' before old new after, Patched f origin lead lead' rest lines before old new after := by
  obtain ⟨above, gap, hlaid, -⟩ := exists_laid (.inl hblock)
  have hgap : ∀ t ∈ gap, sameLine t ∧ Readable t := fun t ht ↦
    ⟨hlaid.sameLine t ht, hread t (by rw [hlaid.eq]; simp [ht])⟩
  have hne : lines.map String.toList ≠ [] := by simpa using hlines.ne_nil
  have hlaid' : Laid _ above (lines.map String.toList) gap := ⟨rfl, hlaid.top, hlaid.sameLine⟩
  have hspan := hlaid.span_ofLead hblock origin
  have hshown : f.shown lines = lines := if_neg (by simp [hdoc, hspan])
  refine ⟨_, charsOf above ++ ['\n'], List.intercalate ['\n'] (block lead),
    SourceFile.joinLines lines, '\n' :: (charsOf gap ++ rest),
    ⟨?_, ?_, by simp, fun source ↦ ?_, ?_, ?_, by rw [hshown, hlaid'.block_eq]⟩⟩
  · rw [hlaid.charsOf_eq hblock]
    simp
  · rw [hlaid'.charsOf_eq hne]
    simp [SourceFile.joinLines]
  · rw [SourceFile.editOf?, hpending, hdoc, hspan]
    obtain ⟨line, lines, rfl⟩ := List.exists_cons_of_ne_nil hlines.ne_nil
    simp only [Span.between, Pos.byte_after]
  · have hold : ∀ line ∈ (block lead).map String.ofList, IsCommentLine line :=
      List.forall_mem_map.2 fun text htext ↦
        isCommentLine_of_readable (hread _ (mem_of_mem_block htext))
    have hsame := (SameButComments.comments hold hlines.comment
      (.refl (charsOf gap ++ rest))).prepend (charsOf above ++ ['\n'])
    rw [flatMap_eq_joinLines (by simpa using hblock), flatMap_eq_joinLines hlines.ne_nil] at hsame
    simpa [SourceFile.joinLines, Function.comp_def] using hsame
  · have hchange : Relead true _ _ := .change above (commentLines (block lead) ++ gap)
      (sound_commentLines hlines.comment hgap)
    rwa [← hlaid.eq] at hchange

/-- Without a comment the lines go in front of the function. -/
theorem exists_patched_of_span (hstart : f.span.start = (origin.after (charsOf lead)).byte)
    (hplace : f.span.column = 1 ↔ lead.getLast? = some (.space '\n')) (hrest : rest ≠ [])
    (hblock : block lead = []) :
    ∃ lead' before old new after, Patched f origin lead lead' rest lines before old new after := by
  have hspan : f.doc.span = none := by rw [hdoc, span_ofLead_eq_none, hblock]
  have hne : lines.map String.toList ≠ [] := by simpa using hlines.ne_nil
  have hsound : Sound (commentLines (lines.map String.toList)) := by
    simpa using @sound_commentLines lines hlines.comment [] (by simp)
  have hblock' : block (lead ++ commentLines (lines.map String.toList)) =
      (f.shown lines).map String.toList := by
    by_cases hcolumn : f.span.column = 1
    · obtain ⟨above, gap, hlaid, hgap⟩ := exists_laid (.inr (hplace.1 hcolumn))
      have hlead : lead = above ++ [.space '\n'] := by
        simpa [hblock, hgap hblock, commentLines] using hlaid.eq
      have hlaid' : Laid (lead ++ commentLines (lines.map String.toList)) above
          (lines.map String.toList) [] := ⟨by simp [hlead], hlaid.top, by simp⟩
      rw [FuncDecl.shown, if_neg (by simp [hcolumn]), hlaid'.block_eq]
    · rw [FuncDecl.shown, if_pos ⟨hspan, hcolumn⟩, List.map_tail,
        block_append_commentLines (fun hlast ↦ hcolumn (hplace.2 hlast)) hne]
  refine ⟨_, charsOf lead, [], SourceFile.joinLines lines ++ ['\n'], rest,
    ⟨by simp, ?_, hrest, fun source ↦ ?_, ?_, .add lead rfl hsound, hblock'⟩⟩
  · rw [charsOf_append, charsOf_commentLines hne]
    simp [SourceFile.joinLines]
  · rw [SourceFile.editOf?, hpending, hspan]
    obtain ⟨line, lines, rfl⟩ := List.exists_cons_of_ne_nil hlines.ne_nil
    dsimp only
    rw [hstart, Pos.byte_after, bytes_nil, Nat.add_zero]
  · have hsame := (@SameButComments.comments _ _ [] lines (by simp) hlines.comment
      (.refl rest)).prepend (charsOf lead)
    rw [flatMap_eq_joinLines hlines.ne_nil] at hsame
    simpa using hsame

end Patches

/-- A piece of code at `origin`, the functions it declares with their pending comments, the piece
with these comments in place, and the chunks of text that change. -/
inductive PieceRevision (g : Grammar) (origin : Pos) :
    List Token → List FuncDecl → List Token → List Chunk → Prop
  | other {piece : List Token} {decl? : Option Grammar.Decl} :
    g.declOf? piece = some decl? → (∀ signature, decl? ≠ some (.function signature)) →
    PieceRevision g origin piece [] piece [.keep (textOf piece)]
  | kept {lead : List Trivia} {more : List Token} {signature : Grammar.Signature}
      {f : FuncDecl} :
    g.declOf? (⟨lead, .keyword, "func"⟩ :: more) = some (some (.function signature)) → more ≠ [] →
    f.doc = ofLead lead origin → f.pending = none →
    PieceRevision g origin (⟨lead, .keyword, "func"⟩ :: more) [f]
      (⟨lead, .keyword, "func"⟩ :: more) [.keep (textOf (⟨lead, .keyword, "func"⟩ :: more))]
  | revised {lead lead' : List Trivia} {more : List Token} {signature : Grammar.Signature}
      {f : FuncDecl} {lines : List String} {before old new after : List Char} :
    g.declOf? (⟨lead, .keyword, "func"⟩ :: more) = some (some (.function signature)) → more ≠ [] →
    f.pending = some lines →
    Patched f origin lead lead' ("func".toList ++ textOf more) lines before old new after →
    PieceRevision g origin (⟨lead, .keyword, "func"⟩ :: more) [f]
      (⟨lead', .keyword, "func"⟩ :: more) [.keep before, .replace old new, .keep after]

namespace PieceRevision

variable {g : Grammar} {origin : Pos} {piece piece' : List Token} {fs : List FuncDecl}
  {cs : List Chunk}

theorem respaced (h : PieceRevision g origin piece fs piece' cs) : Respaced true piece piece' := by
  cases h with
  | other => exact .refl _ _
  | kept => exact .refl _ _
  | revised _ _ _ hpatch => exact .cons hpatch.relead (.refl _ _)

theorem oldText_eq (h : PieceRevision g origin piece fs piece' cs) : oldText cs = textOf piece := by
  cases h with
  | other => simp [Chunk.keep]
  | kept => simp [Chunk.keep]
  | revised _ _ _ hpatch =>
    have htext := hpatch.old_eq
    simp only [oldText_cons, oldText_nil, Chunk.keep, Chunk.replace, List.append_nil]
    rw [← List.append_assoc, htext, textOf_cons, Token.chars, List.append_assoc]
    rfl

theorem newText_eq (h : PieceRevision g origin piece fs piece' cs) :
    newText cs = textOf piece' := by
  cases h with
  | other => simp [Chunk.keep, Chunk.new]
  | kept => simp [Chunk.keep, Chunk.new]
  | revised _ _ _ hpatch =>
    have htext := hpatch.new_eq
    simp only [newText_cons, newText_nil, Chunk.new, Chunk.keep, Chunk.replace, List.append_nil,
      Option.getD_some, Option.getD_none]
    rw [← List.append_assoc, htext, textOf_cons, Token.chars, List.append_assoc]
    rfl

theorem edits_eq (h : PieceRevision g origin piece fs piece' cs) (source : List Char) :
    fs.filterMap (SourceFile.editOf? source) = ofChunks origin.byte cs := by
  cases h with
  | other => rfl
  | kept _ _ _ hpending => simp [SourceFile.editOf?, hpending, ofChunks, Chunk.keep]
  | revised _ _ _ hpatch => simp [hpatch.edit, ofChunks, Chunk.keep, Chunk.replace]

theorem sameButComments (h : PieceRevision g origin piece fs piece' cs) :
    SameButComments (textOf piece) (textOf piece') := by
  rw [← h.oldText_eq, ← h.newText_eq]
  cases h with
  | other => exact .refl _
  | kept => exact .refl _
  | revised _ _ _ hpatch => simpa [Chunk.new, Chunk.keep, Chunk.replace] using hpatch.comments

/-- The piece goes on after its edit. -/
theorem ordered (h : PieceRevision g origin piece fs piece' cs) :
    (ofChunks origin.byte cs).Pairwise (·.start < ·.start) ∧
      ∀ e ∈ ofChunks origin.byte cs, e.start < origin.byte + bytes (textOf piece) := by
  have hold := h.oldText_eq
  cases h with
  | other => simp [ofChunks, Chunk.keep]
  | kept => simp [ofChunks, Chunk.keep]
  | revised _ _ _ hpatch =>
    have hpos := bytes_pos hpatch.after_ne_nil
    rw [← hold]
    simp only [ofChunks, Chunk.keep, Chunk.replace, oldText_cons, oldText_nil, List.append_nil,
      bytes_append, Option.map_none, Option.map_some, Option.toList_none, Option.toList_some,
      List.nil_append, List.pairwise_singleton, List.mem_singleton, true_and, forall_eq]
    omega

theorem length_eq (h : PieceRevision g origin piece fs piece' cs) :
    piece'.length = piece.length := by
  cases h with
  | other => rfl
  | kept => rfl
  | revised => rfl

theorem declOf?_eq (h : PieceRevision g origin piece fs piece' cs) :
    g.declOf? piece' = g.declOf? piece := by
  cases h with
  | other => rfl
  | kept => rfl
  | revised => exact Grammar.declOf?_lead _ _ _

end PieceRevision

def functionsOf (placed : List Placed) : List FuncDecl :=
  (placed.filterMap Placed.function?).map FuncDecl.ofNode

theorem functionsOf_append (ps qs : List Placed) :
    functionsOf (ps ++ qs) = functionsOf ps ++ functionsOf qs := by
  simp [functionsOf]

theorem functionsOf_other {decl? : Option Grammar.Decl}
    (h : ∀ signature, decl? ≠ some (.function signature)) (origin : Pos) (used : List Token) :
    functionsOf (decl?.map (⟨·, origin, used⟩)).toList = [] := by
  rcases decl? with _ | _ | _ | _ | signature
  · rfl
  · rfl
  · rfl
  · rfl
  · exact absurd rfl (h signature)

theorem decls_cons_eq_some {g : Grammar} {origin : Pos} {piece : List Token}
    {ps : List (List Token)} {placed : List Placed} :
    File.decls g origin (piece :: ps) = some placed ↔
      ∃ decl? rest, g.declOf? piece = some decl? ∧
        File.decls g (origin.after (textOf piece)) ps = some rest ∧
        placed = (decl?.map (⟨·, origin, piece.dropLast⟩)).toList ++ rest := by
  simp only [File.decls, Option.bind_eq_bind, Option.bind_eq_some_iff, Option.pure_def,
    Option.some.injEq]
  constructor
  · rintro ⟨decl?, hdecl, rest, hrest, rfl⟩
    exact ⟨decl?, rest, hdecl, hrest, rfl⟩
  · rintro ⟨decl?, rest, hdecl, hrest, rfl⟩
    exact ⟨decl?, hdecl, rest, hrest, rfl⟩

/-- A function behind its lead: what it is read as. -/
theorem functionsOf_func (signature : Grammar.Signature) (lead : List Trivia) {more : List Token}
    (hmore : more ≠ []) (origin : Pos) :
    ∃ f, functionsOf ((some (Grammar.Decl.function signature)).map
        (Placed.mk · origin (⟨lead, .keyword, "func"⟩ :: more).dropLast)).toList = [f] ∧
      f.doc = ofLead lead origin ∧ f.pending = none ∧
      f.span = .between (origin.after (charsOf lead))
        (origin.after (charsOf lead ++ "func".toList ++ textOf more.dropLast)) := by
  rw [List.dropLast_cons_of_ne_nil hmore]
  exact ⟨_, rfl, rfl, rfl, rfl⟩

/-- The comment of a function that is read comes from what precedes it. -/
theorem exists_lead_of_decls {g : Grammar} {origin : Pos} {ps : List (List Token)}
    {placed : List Placed} (h : File.decls g origin ps = some placed)
    (hread : ∀ t ∈ ps.flatten, ∀ x ∈ t.lead, Readable x) :
    ∀ f ∈ functionsOf placed, f.pending = none ∧
      ∃ lead origin, f.doc = ofLead lead origin ∧ ∀ x ∈ lead, Readable x := by
  induction ps generalizing origin placed with
  | nil =>
    obtain rfl := Option.some.inj h
    simp [functionsOf]
  | cons piece ps ih =>
    obtain ⟨decl?, rest, hdecl, hrest, rfl⟩ := decls_cons_eq_some.1 h
    rw [List.flatten_cons, List.forall_mem_append] at hread
    rw [functionsOf_append, List.forall_mem_append]
    refine ⟨?_, ih hrest hread.2⟩
    by_cases hother : ∀ signature, decl? ≠ some (.function signature)
    · rw [functionsOf_other hother]
      simp
    · push Not at hother
      obtain ⟨signature, rfl⟩ := hother
      obtain ⟨lead, more, rfl, hmore⟩ := Grammar.exists_func_of_declOf? hdecl
      obtain ⟨f, hf, hdoc, hpending, -⟩ :=
        functionsOf_func signature lead hmore origin
      rw [hf, List.forall_mem_singleton]
      exact ⟨hpending, lead, origin, hdoc, hread.1 ⟨lead, .keyword, "func"⟩ (by simp)⟩

theorem PieceRevision.docLines_eq {g : Grammar} {origin : Pos} {piece piece' : List Token}
    {fs : List FuncDecl} {cs : List Chunk} (h : PieceRevision g origin piece fs piece' cs)
    {decl? : Option Grammar.Decl} (hdecl : g.declOf? piece = some decl?) (origin' : Pos) :
    (functionsOf (decl?.map (⟨·, origin', piece'.dropLast⟩)).toList).map FuncDecl.docLines =
      fs.map FuncDecl.rereadLines := by
  cases h with
  | other hdecl' hother =>
    obtain rfl := Option.some.inj (hdecl'.symm.trans hdecl)
    rw [functionsOf_other hother]
    rfl
  | kept hdecl' hmore hdoc hpending =>
    obtain rfl := Option.some.inj (hdecl'.symm.trans hdecl)
    obtain ⟨f', hf', hdoc', hpending', -⟩ := functionsOf_func _ _ hmore origin'
    rw [hf']
    simp only [List.map_cons, List.map_nil, FuncDecl.docLines, FuncDecl.rereadLines, hpending,
      hpending', hdoc, hdoc', Option.map_none, Option.getD_none, lines_ofLead, List.map_map,
      List.cons.injEq, and_true]
    refine List.map_congr_left fun line _ ↦ ?_
    exact (Text.trimEnd_ofList_dropWhileEnd line).symm
  | revised hdecl' hmore hpending hpatch =>
    obtain rfl := Option.some.inj (hdecl'.symm.trans hdecl)
    obtain ⟨f', hf', hdoc', hpending', -⟩ := functionsOf_func _ _ hmore origin'
    rw [hf']
    simp only [List.map_cons, List.map_nil, FuncDecl.docLines, FuncDecl.rereadLines, hpending,
      hpending', hdoc', Option.map_some, Option.getD_none, Option.getD_some, lines_ofLead,
      hpatch.block_eq, List.map_map]
    rfl

inductive Revision (g : Grammar) :
    Pos → List (List Token) → List FuncDecl → List (List Token) → List Chunk → Prop
  | nil {origin : Pos} : Revision g origin [] [] [] []
  | cons {origin : Pos} {piece piece' : List Token} {ps qs : List (List Token)}
      {fs fs' : List FuncDecl} {cs cs' : List Chunk} :
    PieceRevision g origin piece fs piece' cs →
    Revision g (origin.after (textOf piece)) ps fs' qs cs' →
    Revision g origin (piece :: ps) (fs ++ fs') (piece' :: qs) (cs ++ cs')

namespace Revision

variable {g : Grammar} {origin : Pos} {ps qs : List (List Token)} {fs : List FuncDecl}
  {cs : List Chunk}

theorem respaced (h : Revision g origin ps fs qs cs)
    (hstop : ∀ piece ∈ ps.dropLast, piece.getLast?.any (·.kind = .stop)) :
    Respaced true ps.flatten qs.flatten := by
  induction h with
  | nil => exact .nil
  | @cons origin piece piece' ps qs fs fs' cs cs' hpiece hmore ih =>
    rw [List.flatten_cons, List.flatten_cons]
    cases hmore with
    | nil => simpa using hpiece.respaced
    | cons =>
      rw [List.dropLast_cons_of_ne_nil (by simp), List.forall_mem_cons] at hstop
      exact hpiece.respaced.append hstop.1 (ih hstop.2)

theorem map_length_eq (h : Revision g origin ps fs qs cs) :
    qs.map List.length = ps.map List.length := by
  induction h with
  | nil => rfl
  | cons hpiece _ ih => rw [List.map_cons, List.map_cons, hpiece.length_eq, ih]

theorem oldText_eq (h : Revision g origin ps fs qs cs) : oldText cs = textOf ps.flatten := by
  induction h with
  | nil => rfl
  | cons hpiece _ ih => rw [oldText_append, hpiece.oldText_eq, ih, List.flatten_cons, textOf_append]

theorem newText_eq (h : Revision g origin ps fs qs cs) : newText cs = textOf qs.flatten := by
  induction h with
  | nil => rfl
  | cons hpiece _ ih => rw [newText_append, hpiece.newText_eq, ih, List.flatten_cons, textOf_append]

theorem sameButComments (h : Revision g origin ps fs qs cs) :
    SameButComments (textOf ps.flatten) (textOf qs.flatten) := by
  induction h with
  | nil => exact .nil
  | cons hpiece _ ih =>
    rw [List.flatten_cons, List.flatten_cons, textOf_append, textOf_append]
    exact hpiece.sameButComments.append ih

theorem edits_eq (h : Revision g origin ps fs qs cs) (source : List Char) :
    fs.filterMap (SourceFile.editOf? source) = ofChunks origin.byte cs := by
  induction h with
  | nil => rfl
  | cons hpiece _ ih =>
    rw [List.filterMap_append, hpiece.edits_eq, ih, ofChunks_append, hpiece.oldText_eq,
      Pos.byte_after]

theorem ordered (h : Revision g origin ps fs qs cs) :
    (ofChunks origin.byte cs).Pairwise (·.start < ·.start) := by
  induction h with
  | nil => exact .nil
  | cons hpiece _ ih =>
    rw [ofChunks_append, hpiece.oldText_eq, ← Pos.byte_after]
    refine List.pairwise_append.2 ⟨hpiece.ordered.1, ih, fun e he e' he' ↦ ?_⟩
    have hend := hpiece.ordered.2 e he
    have hstart := le_start_of_mem_ofChunks he'
    rw [Pos.byte_after] at hstart
    omega

/-- The revised code declares what the code declared, with the pending comments. -/
theorem reread (h : Revision g origin ps fs qs cs) {placed : List Placed}
    (hdecls : File.decls g origin ps = some placed) (origin' : Pos) :
    ∃ placed', File.decls g origin' qs = some placed' ∧
      placed'.map Placed.decl = placed.map Placed.decl ∧
      (functionsOf placed').map FuncDecl.docLines = fs.map FuncDecl.rereadLines := by
  -- The revised pieces stand elsewhere, so the origin is generalised with what is placed.
  induction h generalizing placed origin' with
  | nil =>
    obtain rfl := Option.some.inj hdecls
    exact ⟨[], rfl, rfl, rfl⟩
  | @cons origin piece piece' ps qs fs fs' cs cs' hpiece _ ih =>
    obtain ⟨decl?, rest, hdecl, hrest, rfl⟩ := decls_cons_eq_some.1 hdecls
    obtain ⟨rest', hrest', hdecl', hlines⟩ := ih hrest (origin'.after (textOf piece'))
    refine ⟨_, decls_cons_eq_some.2 ⟨decl?, rest', hpiece.declOf?_eq.trans hdecl, hrest', rfl⟩,
      ?_, ?_⟩
    · rw [List.map_append, List.map_append, hdecl']
      cases decl? <;> rfl
    · rw [functionsOf_append, List.map_append, List.map_append, hlines, hpiece.docLines_eq hdecl]

end Revision

/-- Functions with pending comments have a revision of their code. -/
theorem exists_revision {g : Grammar} {source : List Char} {tail : List Trivia}
    {before : List Token} {ps : List (List Token)} {placed : List Placed} {fs : List FuncDecl}
    (hlexed : Lexed false source (before ++ ps.flatten) tail) (hbefore : textOf before ≠ [])
    (hdecls : File.decls g (Pos.start.after (textOf before)) ps = some placed)
    (hfs : fs.map FuncDecl.original = functionsOf placed)
    (hedit : ∀ f ∈ fs, ∀ lines, f.pending = some lines → IsBlock lines) :
    ∃ qs cs, Revision g (Pos.start.after (textOf before)) ps fs qs cs := by
  induction ps generalizing before placed fs with
  | nil =>
    obtain rfl := Option.some.inj hdecls
    obtain rfl := List.map_eq_nil_iff.1 hfs
    exact ⟨[], [], .nil⟩
  | cons piece ps ih =>
    obtain ⟨decl?, rest, hdecl, hrest, rfl⟩ := decls_cons_eq_some.1 hdecls
    rw [functionsOf_append] at hfs
    rw [← Pos.after_append, ← textOf_append] at hrest
    have hlexed' : Lexed false source ((before ++ piece) ++ ps.flatten) tail := by
      simpa using hlexed
    have hbefore' : textOf (before ++ piece) ≠ [] := by simp [hbefore]
    by_cases hother : ∀ signature, decl? ≠ some (.function signature)
    · rw [functionsOf_other hother, List.nil_append] at hfs
      obtain ⟨qs, cs, hrevision⟩ := ih hlexed' hbefore' hrest hfs hedit
      rw [textOf_append, Pos.after_append] at hrevision
      exact ⟨_, _, .cons (.other hdecl hother) hrevision⟩
    · push Not at hother
      obtain ⟨signature, rfl⟩ := hother
      obtain ⟨lead, more, rfl, hmore⟩ := Grammar.exists_func_of_declOf? hdecl
      obtain ⟨f', hf', hdoc, -, hspan⟩ :=
        functionsOf_func signature lead hmore (Pos.start.after (textOf before))
      have hstart := congrArg Span.start hspan
      have hcolumn : f'.span.column = _ + 1 := congrArg Span.column hspan
      rw [hf', List.singleton_append] at hfs
      obtain ⟨f, fs, rfl, rfl, hmap⟩ := List.map_eq_cons_iff.1 hfs
      change f.doc = _ at hdoc
      obtain ⟨qs, cs, hrevision⟩ := ih hlexed' hbefore' hrest hmap
        fun f hf ↦ hedit f (List.mem_cons_of_mem _ hf)
      rw [textOf_append, Pos.after_append] at hrevision
      cases hpending : f.pending with
      | none => exact ⟨_, _, .cons (.kept hdecl hmore hdoc hpending) hrevision⟩
      | some lines =>
        have hlines := hedit f (by simp) lines hpending
        have hread := hlexed.readable ⟨lead, .keyword, "func"⟩ (by simp)
        have hplace : f.span.column = 1 ↔ lead.getLast? = some (.space '\n') := by
          change f.span.column = _ at hcolumn
          rw [hcolumn, ← Pos.after_append]
          constructor
          · intro hone
            have hlast := Pos.getLast?_of_column_after (by simp [hbefore]) (Nat.succ.inj hone)
            exact hlexed.getLast?_lead (t := ⟨lead, .keyword, "func"⟩) hlast
          · intro hlast
            obtain ⟨front, rfl⟩ := List.getLast?_eq_some_iff.1 hlast
            have hcolumn := Pos.column_after_concat .start (textOf before ++ charsOf front)
            simpa [Trivia.chars] using hcolumn
        have hpatch : ∃ lead' before' old new after,
            Patched f (Pos.start.after (textOf before)) lead lead' ("func".toList ++ textOf more)
              lines before' old new after := by
          by_cases hblock : block lead = []
          · exact exists_patched_of_span hpending hlines hdoc hstart hplace (by simp) hblock
          · exact exists_patched_of_block hpending hlines hdoc hread hblock
        obtain ⟨lead', before', old, new, after, hpatch⟩ := hpatch
        exact ⟨_, _, .cons (.revised hdecl hmore hpending hpatch) hrevision⟩

end HandlerDocs
