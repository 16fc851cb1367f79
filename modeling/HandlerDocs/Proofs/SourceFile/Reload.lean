import HandlerDocs.Proofs.SourceFile.Revision

namespace HandlerDocs

open Code Code.Lexer Edit

namespace Code.File

/-- A file that is read opens with its package clause, and goes on with its declarations. -/
theorem ofTokens_eq_some {ts : List Token} {file : File} (h : ofTokens ts = some file) :
    ∃ word name stop rest placed, ts = word :: name :: stop :: rest ∧
      (Parse.isNext .keyword "package" word && name.kind = .name && stop.kind = .stop) = true ∧
      decls (.upTo (4 * rest.length + 8)) (Pos.start.after (textOf [word, name, stop]))
        (pieces 0 rest) = some placed ∧
      file = ofDecls name.text placed := by
  rw [ofTokens.eq_def] at h
  split at h
  · rename_i word name stop rest
    split at h
    · rename_i hclause
      obtain ⟨placed, hplaced, rfl⟩ := Option.map_eq_some_iff.1 h
      refine ⟨word, name, stop, rest, placed, rfl, hclause, ?_, rfl⟩
      simpa [textOf] using hplaced
    · simp at h
  · simp at h

theorem parse_eq_ok {source : String} {file : File} (h : File.parse source = .ok file) :
    ∃ ts tail, tokens source.toList = some (ts, tail) ∧ ofTokens ts = some file := by
  rw [File.parse] at h
  split at h
  · cases h
  · cases h
  · rename_i ts tail hne htokens
    split at h
    · rename_i file' hfile
      cases h
      exact ⟨ts, tail, htokens, hfile⟩
    · cases h

theorem parse_of_tokens {source : String} {ts : List Token} {tail : List Trivia} {file : File}
    (htokens : tokens source.toList = some (ts, tail)) (hfile : ofTokens ts = some file) :
    File.parse source = .ok file := by
  rw [File.parse, htokens]
  cases ts with
  | nil => cases hfile
  | cons t ts =>
    dsimp only
    rw [hfile]

section Congruence

variable {placed placed' : List Placed} (h : placed'.map Placed.decl = placed.map Placed.decl)

include h

theorem flatMap_eq_of_decl {α : Type} (f : Placed → List α)
    (hf : ∀ p, f p = f ⟨p.decl, .start, []⟩) : placed'.flatMap f = placed.flatMap f := by
  have hmap (ps : List Placed) :
      ps.flatMap f = (ps.map Placed.decl).flatMap fun d ↦ f ⟨d, .start, []⟩ := by
    rw [List.flatMap_map]
    exact List.flatMap_congr fun p _ ↦ hf p
  rw [hmap, hmap, h]

/-- What is declared tells the code of the functions. -/
theorem map_code_functionsOf :
    (functionsOf placed').map FuncDecl.code = (functionsOf placed).map FuncDecl.code := by
  have hflat (ps : List Placed) : (functionsOf ps).map FuncDecl.code =
      ps.flatMap fun p ↦ (p.function?.map (FuncDecl.code ∘ FuncDecl.ofNode)).toList := by
    induction ps with
    | nil => rfl
    | cons p ps ih =>
      rw [List.flatMap_cons, ← ih, functionsOf, functionsOf, List.filterMap_cons]
      cases p.function? <;> rfl
  rw [hflat, hflat]
  refine flatMap_eq_of_decl h _ fun p ↦ ?_
  rcases p with ⟨_ | _ | _ | _, origin, used⟩ <;> rfl

end Congruence

end Code.File

namespace SourceFile

def original (file : SourceFile) : SourceFile :=
  { file with functions := file.functions.map FuncDecl.original, dirty := false }

theorem parse_eq_ok {path source : String} {file : SourceFile} (h : parse path source = .ok file) :
    ∃ tree, File.parse source = .ok tree ∧ ofFile path source tree = file := by
  rw [parse] at h
  cases htree : File.parse source with
  | error e =>
    rw [htree] at h
    cases h
  | ok tree =>
    rw [htree] at h
    exact ⟨tree, rfl, Except.ok.inj h⟩

theorem original_of_parse {path source : String} {file : SourceFile}
    (h : parse path source = .ok file) :
    file.path = path ∧ file.source = source ∧ file.original = file ∧ file.dirty = false := by
  obtain ⟨tree, -, rfl⟩ := parse_eq_ok h
  refine ⟨rfl, rfl, ?_, rfl⟩
  simp [original, ofFile, FuncDecl.original, FuncDecl.ofNode]

theorem exists_lead_of_parse {path source : String} {file : SourceFile}
    (h : parse path source = .ok file) :
    ∀ f ∈ file.functions, f.pending = none ∧
      ∃ lead origin, f.doc = DocComment.ofLead lead origin ∧ ∀ x ∈ lead, Readable x := by
  obtain ⟨tree, htree, rfl⟩ := parse_eq_ok h
  obtain ⟨ts, tail, htokens, hts⟩ := File.parse_eq_ok htree
  obtain ⟨word, name, stop, rest, placed, rfl, -, hdecls, rfl⟩ := File.ofTokens_eq_some hts
  refine exists_lead_of_decls hdecls fun t ht ↦ ?_
  rw [flatten_pieces] at ht
  exact (tokens_eq_some_iff.1 htokens).readable t (by simp [ht])

theorem isReadLine_of_parse {path source : String} {file : SourceFile}
    (h : parse path source = .ok file) :
    ∀ f ∈ file.functions, ∀ line ∈ f.docLines, IsReadLine line := by
  intro f hf
  obtain ⟨hpending, lead, origin, hdoc, hread⟩ := exists_lead_of_parse h f hf
  rw [FuncDecl.docLines, hpending, Option.getD_none, hdoc]
  exact isReadLine_of_ofLead hread origin

theorem lines_of_span_eq_none {path source : String} {file : SourceFile}
    (h : parse path source = .ok file) {f : FuncDecl} (hf : f ∈ file.functions)
    (hspan : f.doc.span = none) : f.doc.lines = [] := by
  obtain ⟨-, lead, origin, hdoc, -⟩ := exists_lead_of_parse h f hf
  rw [hdoc, DocComment.lines_ofLead, DocComment.span_ofLead_eq_none.1 (hdoc ▸ hspan), List.map_nil]

theorem code_original (file : SourceFile) : file.original.code = file.code := by
  simp only [code, original, List.map_map]
  rfl

theorem code_ofFile_congr {placed placed' : List Placed} {path package source source' : String}
    (h : placed'.map Placed.decl = placed.map Placed.decl) :
    (ofFile path source' (File.ofDecls package placed')).code =
      (ofFile path source (File.ofDecls package placed)).code := by
  have himports := File.flatMap_eq_of_decl h Placed.imports fun _ ↦ rfl
  have hvars := File.flatMap_eq_of_decl h Placed.vars fun _ ↦ rfl
  have htypes := File.flatMap_eq_of_decl h Placed.types fun _ ↦ rfl
  have hfunctions := File.map_code_functionsOf h
  simp only [functionsOf] at hfunctions
  simp only [code, ofFile, File.ofDecls, himports, hvars, htypes, hfunctions]

/-- How the text of a file changes when its pending comments are put in place: behind the package
clause the pieces of its code are revised. -/
structure FileRevision (file : SourceFile) (word name stop : Token) (rest : List Token)
    (tail : List Trivia) (placed : List Placed) (qs : List (List Token)) (cs : List Chunk) :
    Prop where
  tokens : tokens file.source.toList = some (word :: name :: stop :: rest, tail)
  clause : (Parse.isNext .keyword "package" word && name.kind = .name && stop.kind = .stop) = true
  decls : File.decls (.upTo (4 * rest.length + 8)) (Pos.start.after (textOf [word, name, stop]))
    (pieces 0 rest) = some placed
  original : ofFile file.path file.source (File.ofDecls name.text placed) = file.original
  revision : Revision (.upTo (4 * rest.length + 8)) (Pos.start.after (textOf [word, name, stop]))
    (pieces 0 rest) file.functions qs cs

theorem exists_fileRevision {file : SourceFile}
    (h : parse file.path file.source = .ok file.original)
    (hblock : ∀ f ∈ file.functions, ∀ lines, f.pending = some lines → IsBlock lines) :
    ∃ word name stop rest tail placed qs cs,
      FileRevision file word name stop rest tail placed qs cs := by
  obtain ⟨tree, htree, hfile⟩ := parse_eq_ok h
  obtain ⟨ts, tail, htokens, hts⟩ := File.parse_eq_ok htree
  obtain ⟨word, name, stop, rest, placed, rfl, hclause, hdecls, rfl⟩ := File.ofTokens_eq_some hts
  have hfunctions : file.functions.map FuncDecl.original = functionsOf placed :=
    (congrArg SourceFile.functions hfile).symm
  have hbefore : textOf [word, name, stop] ≠ [] := by
    have htext : word.text = "package" := by
      simp only [Parse.isNext, Bool.and_eq_true, decide_eq_true_eq] at hclause
      exact hclause.1.1.2
    simp [Token.chars, htext]
  obtain ⟨qs, cs, hrevision⟩ := exists_revision
    (by simpa [flatten_pieces] using tokens_eq_some_iff.1 htokens) hbefore hdecls hfunctions hblock
  exact ⟨_, _, _, _, _, _, _, _, htokens, hclause, hdecls, hfile, hrevision⟩

namespace FileRevision

variable {file : SourceFile} {word name stop : Token} {rest : List Token} {tail : List Trivia}
  {placed : List Placed} {qs : List (List Token)} {cs : List Chunk}
  (h : FileRevision file word name stop rest tail placed qs cs)

include h

theorem render_eq : file.render =
    String.ofList (textOf (word :: name :: stop :: qs.flatten) ++ charsOf tail) := by
  have hold := h.revision.oldText_eq
  have hnew := h.revision.newText_eq
  have hsource := (tokens_eq_some_iff.1 h.tokens).eq
  have hbyte := Pos.byte_after .start (textOf [word, name, stop])
  have hchunks : file.render = String.ofList
      (newText (.keep (textOf [word, name, stop]) :: cs) ++ charsOf tail) := by
    refine render_of_chunks ?_ ?_ ?_
    · simp [hold, Chunk.keep, flatten_pieces, hsource]
    · rw [edits, h.revision.edits_eq, hbyte]
      rfl
    · have hordered := h.revision.ordered
      rwa [hbyte] at hordered
  simpa [hnew, Chunk.new, Chunk.keep] using hchunks

theorem sameButComments_render : SameButComments file.source.toList file.render.toList := by
  have hpieces := h.revision.sameButComments
  have hclause := SameButComments.refl (textOf [word, name, stop])
  rw [flatten_pieces] at hpieces
  have hall := hclause.append (hpieces.append (.refl (charsOf tail)))
  rw [h.render_eq, String.toList_ofList, (tokens_eq_some_iff.1 h.tokens).eq]
  simpa using hall

theorem respaced : Respaced true rest qs.flatten := by
  simpa [flatten_pieces] using h.revision.respaced (getLast?_of_mem_dropLast_pieces 0 rest)

theorem tokens_render :
    Code.tokens file.render.toList = some (word :: name :: stop :: qs.flatten, tail) := by
  have hstop : stop.kind = .stop := by
    have hclause := h.clause
    simp only [Bool.and_eq_true, decide_eq_true_eq] at hclause
    exact hclause.2
  have hclause := (Respaced.refl true [word, name, stop]).append (by simp [hstop]) h.respaced
  rw [h.render_eq, String.toList_ofList]
  exact tokens_respaced h.tokens hclause

end FileRevision

/-- The text of a file with pending comments is read again as the same code, with the comments that
show. -/
theorem parse_render {file : SourceFile} (h : parse file.path file.source = .ok file.original)
    (hblock : ∀ f ∈ file.functions, ∀ lines, f.pending = some lines → IsBlock lines) :
    ∃ fresh, parse file.path file.render = .ok fresh ∧ fresh.code = file.code ∧
      fresh.functions.map FuncDecl.docLines = file.functions.map FuncDecl.rereadLines := by
  obtain ⟨word, name, stop, rest, tail, placed, qs, cs, hfile⟩ := exists_fileRevision h hblock
  obtain ⟨placed', hdecls, hdecl, hlines⟩ :=
    hfile.revision.reread hfile.decls (Pos.start.after (textOf [word, name, stop]))
  have hword := hfile.respaced.map_word
  -- Where a declaration ends is told by the words, so the new text falls into the new pieces.
  have htree : File.ofTokens (word :: name :: stop :: qs.flatten) =
      some (File.ofDecls name.text placed') := by
    have hlength := congrArg List.length hword
    rw [List.length_map, List.length_map] at hlength
    rw [File.ofTokens, if_pos hfile.clause, hlength,
      pieces_eq_of_map_word hword rfl hfile.revision.map_length_eq]
    exact Option.map_eq_some_iff.2 ⟨placed', by simpa [textOf] using hdecls, rfl⟩
  refine ⟨ofFile file.path file.render (File.ofDecls name.text placed'), ?_, ?_, hlines⟩
  · rw [parse, File.parse_of_tokens hfile.tokens_render htree]
    rfl
  · rw [← code_original file, ← hfile.original]
    exact code_ofFile_congr hdecl

/-- Only comment lines of its text change. -/
theorem sameButComments_render {file : SourceFile}
    (h : parse file.path file.source = .ok file.original)
    (hblock : ∀ f ∈ file.functions, ∀ lines, f.pending = some lines → IsBlock lines) :
    SameButComments file.source.toList file.render.toList := by
  obtain ⟨word, name, stop, rest, tail, placed, qs, cs, hfile⟩ := exists_fileRevision h hblock
  exact hfile.sameButComments_render

end SourceFile

end HandlerDocs
