import HandlerDocs.Proofs.Project.Edits
import HandlerDocs.Proofs.SourceFile.Placement

namespace HandlerDocs

open Code Edit SourceFile

namespace Edit

/-- A place further on in a text cuts what is left of it. -/
theorem exists_gap_of_bytes_le {before text front after : List Char}
    (h : before ++ text = front ++ after) (hle : bytes before ≤ bytes front) :
    ∃ gap, front = before ++ gap ∧ text = gap ++ after := by
  rcases List.append_eq_append_iff.1 h with ⟨gap, hfront, htext⟩ | ⟨gap, hbefore, hafter⟩
  · exact ⟨gap, hfront, htext⟩
  · have hgap : gap = [] := by
      by_contra hne
      have hpos := bytes_pos hne
      rw [hbefore, bytes_append] at hle
      omega
    subst hgap
    exact ⟨[], by simpa using hbefore.symm, by simpa using hafter.symm⟩

def Fits (e : Edit) (text : List Char) : Prop :=
  ∃ before old after, text = before ++ old ++ after ∧ e.start = bytes before ∧
    e.stop = bytes before + bytes old

theorem Fits.stop_le {e : Edit} {text : List Char} (h : e.Fits text) : e.stop ≤ bytes text := by
  obtain ⟨before, old, after, rfl, -, hstop⟩ := h
  simp only [bytes_append]
  omega

def InRange : List Edit → List Char → Prop
  | [], _ => True
  | e :: es, text => e.Fits text ∧ InRange es (apply text e)

theorem inRange_append {es es' : List Edit} {text : List Char} :
    InRange (es ++ es') text ↔ InRange es text ∧ InRange es' (es.foldl apply text) := by
  induction es generalizing text with
  | nil => simp [InRange]
  | cons e es ih => simp [InRange, ih, and_assoc]

theorem inRange_ofChunks (before : List Char) (cs : List Chunk) (after : List Char) :
    InRange (ofChunks (bytes before) cs).reverse (before ++ oldText cs ++ after) := by
  induction cs generalizing before with
  | nil => trivial
  | cons c cs ih =>
    have hrest := ih (before ++ c.old)
    have htext := foldr_apply_ofChunks (before ++ c.old) cs after
    rw [bytes_append] at hrest htext
    rw [ofChunks, List.reverse_append, inRange_append, List.foldl_reverse, oldText_cons,
      ← List.append_assoc before, htext]
    refine ⟨hrest, ?_⟩
    cases c.new? with
    | none => trivial
    | some text => exact ⟨⟨before, c.old, _, List.append_assoc _ _ _, rfl, rfl⟩, trivial⟩

end Edit

def ClosesLine (line after : List Char) : Prop :=
  (∃ text, '\n' ∉ text ∧ line = text ++ ['\n']) ∨ '\n' ∉ line ∧ after = []

/-- What becomes of a text, of which `n` bytes are done, when the blocks of these functions are
rewritten: a block is replaced, or it is taken out with the rest of its line, or it comes in front
of a function that had none. -/
inductive Spliced : ℕ → List Char → List FuncDecl → List Char → Prop
  | done {n : ℕ} {text : List Char} : Spliced n text [] text
  | kept {n : ℕ} {text result : List Char} {f : FuncDecl} {fs : List FuncDecl} :
    f.pending = none → Spliced n text fs result → Spliced n text (f :: fs) result
  | none {n : ℕ} {text result : List Char} {f : FuncDecl} {fs : List FuncDecl} :
    f.pending = some [] → f.doc.span = none →
    Spliced n text fs result → Spliced n text (f :: fs) result
  | replaced {n : ℕ} {before old after result : List Char} {f : FuncDecl} {fs : List FuncDecl}
      {lines : List String} {span : Span} :
    f.pending = some lines → lines ≠ [] → f.doc.span = some span →
    span.start = n + bytes before → span.stop = span.start + bytes old →
    Spliced span.stop after fs result →
    Spliced n (before ++ old ++ after) (f :: fs) (before ++ joinLines lines ++ result)
  | removed {n : ℕ} {before old line after result : List Char} {f : FuncDecl}
      {fs : List FuncDecl} {span : Span} :
    f.pending = some [] → f.doc.span = some span →
    span.start = n + bytes before → span.stop = span.start + bytes old → ClosesLine line after →
    Spliced (span.stop + bytes line) after fs result →
    Spliced n (before ++ old ++ line ++ after) (f :: fs) (before ++ result)
  | inserted {n : ℕ} {before after result : List Char} {f : FuncDecl} {fs : List FuncDecl}
      {lines : List String} :
    f.pending = some lines → lines ≠ [] → f.doc.span = none →
    f.span.start = n + bytes before → Spliced f.span.start after fs result →
    Spliced n (before ++ after) (f :: fs) (before ++ joinLines lines ++ ['\n'] ++ result)

/-- From where the rest of a line begins, the line ends behind that rest. -/
theorem ClosesLine.lineEnd_eq {line after : List Char} (h : ClosesLine line after)
    (before : List Char) :
    lineEnd (before ++ (line ++ after)) (bytes before) = bytes before + bytes line := by
  rcases h with ⟨text, htext, rfl⟩ | ⟨hline, rfl⟩
  · rw [List.append_assoc, List.singleton_append, lineEnd_append before after htext, bytes_append]
    rfl
  · have hall : line.takeWhile (· ≠ '\n') = line :=
      List.takeWhile_eq_self_iff.2 fun c hc ↦ decide_eq_true fun heq ↦ hline (heq ▸ hc)
    simp only [lineEnd, List.append_nil, dropBytes_bytes_append, hall]
    simp

theorem exists_closesLine (rest : List Char) :
    ∃ line after, rest = line ++ after ∧ ClosesLine line after := by
  by_cases hfeed : '\n' ∈ rest
  · obtain ⟨text, after, rfl, htext⟩ := List.eq_append_cons_of_mem hfeed
    exact ⟨text ++ ['\n'], after, by simp, .inl ⟨text, htext, rfl⟩⟩
  · exact ⟨rest, [], by simp, .inr ⟨hfeed, rfl⟩⟩

/-- The edits of the functions cut the text into what is kept and what is replaced, and the result
is what they put there. -/
theorem Spliced.exists_chunks {source before text result : List Char} {fs : List FuncDecl} {n : ℕ}
    (h : Spliced n text fs result) (hsource : source = before ++ text) (hn : n = bytes before) :
    ∃ cs, oldText cs = text ∧ newText cs = result ∧
      fs.filterMap (editOf? source) = ofChunks n cs := by
  induction h generalizing before with
  | @done n text =>
    exact ⟨[.keep text], by simp [Chunk.keep], by simp [Chunk.new, Chunk.keep], rfl⟩
  | kept hpending _ ih =>
    obtain ⟨cs, hold, hnew, hedits⟩ := ih hsource hn
    exact ⟨cs, hold, hnew, by simpa [editOf?, hpending] using hedits⟩
  | none hpending hdoc _ ih =>
    obtain ⟨cs, hold, hnew, hedits⟩ := ih hsource hn
    exact ⟨cs, hold, hnew, by simpa [editOf?, hpending, hdoc] using hedits⟩
  | @replaced n front old after result f fs lines span hpending hne hdoc hstart hstop _ ih =>
    obtain ⟨line, lines, rfl⟩ := List.exists_cons_of_ne_nil hne
    obtain ⟨cs, rfl, rfl, hedits⟩ := @ih (before ++ front ++ old) (by simp [hsource])
      (by simp only [bytes_append]; omega)
    refine ⟨.keep front :: .replace old (joinLines (line :: lines)) :: cs,
      by simp [Chunk.keep, Chunk.replace], by simp [Chunk.new, Chunk.keep, Chunk.replace], ?_⟩
    have hedit : editOf? source f = some ⟨span.start, span.stop, joinLines (line :: lines)⟩ := by
      simp [editOf?, hpending, hdoc]
    rw [List.filterMap_cons_some hedit, hedits, hstop, hstart]
    rfl
  | @removed n front old line after result f fs span hpending hdoc hstart hstop hline _ ih =>
    have hbefore : bytes (before ++ front ++ old) = span.stop := by
      simp only [bytes_append]
      omega
    obtain ⟨cs, rfl, rfl, hedits⟩ := @ih (before ++ front ++ old ++ line) (by simp [hsource])
      (by rw [bytes_append, hbefore])
    refine ⟨.keep front :: .replace (old ++ line) [] :: cs,
      by simp [Chunk.keep, Chunk.replace], by simp [Chunk.new, Chunk.keep, Chunk.replace], ?_⟩
    have hend : lineEnd source span.stop = span.stop + bytes line := by
      have hclosed := hline.lineEnd_eq (before ++ front ++ old)
      rw [hbefore] at hclosed
      simpa [hsource] using hclosed
    have hedit : editOf? source f = some ⟨span.start, span.stop + bytes line, []⟩ := by
      simp [editOf?, hpending, hdoc, hend]
    rw [List.filterMap_cons_some hedit, hedits, hstop, hstart]
    simp [ofChunks, Chunk.keep, Chunk.replace, Nat.add_assoc]
  | @inserted n front after result f fs lines hpending hne hdoc hstart _ ih =>
    obtain ⟨line, lines, rfl⟩ := List.exists_cons_of_ne_nil hne
    obtain ⟨cs, rfl, rfl, hedits⟩ := @ih (before ++ front) (by simp [hsource])
      (by rw [bytes_append]; omega)
    refine ⟨.keep front :: .replace [] (joinLines (line :: lines) ++ ['\n']) :: cs,
      by simp [Chunk.keep, Chunk.replace], by simp [Chunk.new, Chunk.keep, Chunk.replace], ?_⟩
    have hedit : editOf? source f =
        some ⟨f.span.start, f.span.start, joinLines (line :: lines) ++ ['\n']⟩ := by
      simp [editOf?, hpending, hdoc]
    rw [List.filterMap_cons_some hedit, hedits, hstart]
    rfl

namespace FuncDecl

def isRewritten (f : FuncDecl) : Bool :=
  match f.pending, f.doc.span with
  | none, _ => false
  | some [], none => false
  | _, _ => true

def cutEnd (source : List Char) (f : FuncDecl) : ℕ :=
  match f.pending, f.doc.span with
  | some [], some span => lineEnd source span.stop
  | _, some span => span.stop
  | _, none => f.span.start

end FuncDecl

/-- What a function takes out of the text, and how the text goes on behind it. -/
theorem FuncDecl.exists_cut {f : FuncDecl} {source : List Char} (hin : f.IsIn source)
    (hf : f.isRewritten) :
    ∃ front old after, source = front ++ old ++ after ∧ f.top = bytes front ∧
      f.cutEnd source = bytes front + bytes old ∧
      ∀ n gap fs result, f.top = n + bytes gap → Spliced (f.cutEnd source) after fs result →
        ∃ text, Spliced n (gap ++ old ++ after) (f :: fs) text := by
  cases hpending : f.pending with
  | none => simp [isRewritten, hpending] at hf
  | some lines =>
    cases hdoc : f.doc.span with
    | none =>
      obtain ⟨front, body, after, hcuts⟩ := hin.span
      have hne : lines ≠ [] := by
        rintro rfl
        simp [isRewritten, hpending, hdoc] at hf
      have hcut : f.cutEnd source = f.span.start := by simp [cutEnd, hpending, hdoc]
      have htop : f.top = f.span.start := by simp [top, hdoc]
      refine ⟨front, [], body ++ after, ?_, htop.trans hcuts.start, hcut.trans hcuts.start, ?_⟩
      · simp [hcuts.eq]
      · intro n gap fs result hgap hmore
        rw [hcut] at hmore
        rw [htop] at hgap
        exact ⟨_, by simpa using Spliced.inserted hpending hne hdoc hgap hmore⟩
    | some span =>
      obtain ⟨⟨front, old, after, hcuts⟩, -⟩ := hin.doc span hdoc
      have htop := top_eq hdoc
      have hstart := hcuts.start
      have hstop := hcuts.stop
      cases lines with
      | nil =>
        obtain ⟨line, after, rfl, hline⟩ := exists_closesLine after
        have hend := hline.lineEnd_eq (front ++ old)
        rw [← hcuts.eq, bytes_append, ← hstop] at hend
        have hcut : f.cutEnd source = span.stop + bytes line := by
          simp [cutEnd, hpending, hdoc, hend]
        refine ⟨front, old ++ line, after, ?_, htop.trans hstart, ?_, ?_⟩
        · simp [hcuts.eq]
        · rw [hcut, bytes_append]
          omega
        · intro n gap fs result hgap hmore
          rw [hcut] at hmore
          rw [htop] at hgap
          exact ⟨_, by simpa using Spliced.removed hpending hdoc hgap (by omega) hline hmore⟩
      | cons line lines =>
        have hcut : f.cutEnd source = span.stop := by simp [cutEnd, hpending, hdoc]
        refine ⟨front, old, after, hcuts.eq, htop.trans hstart, hcut.trans hstop, ?_⟩
        intro n gap fs result hgap hmore
        rw [hcut] at hmore
        rw [htop] at hgap
        exact ⟨_, .replaced hpending (by simp) hdoc hgap (by omega) hmore⟩

theorem Spliced.cons_of_not_isRewritten {f : FuncDecl} (hf : f.isRewritten = false) {n : ℕ}
    {text result : List Char} {fs : List FuncDecl} (h : Spliced n text fs result) :
    Spliced n text (f :: fs) result := by
  rw [FuncDecl.isRewritten.eq_def] at hf
  split at hf
  · exact .kept ‹_› h
  · exact .none ‹_› ‹_› h
  · cases hf

theorem start_of_editOf? {source : List Char} {f : FuncDecl} {e : Edit}
    (h : editOf? source f = some e) : e.start = f.top := by
  rw [editOf?.eq_def] at h
  split at h <;> cases h <;> simp [FuncDecl.top, *]

/-- The blocks can be rewritten where each takes its text before the next one begins. -/
theorem exists_spliced {source : List Char} {fs : List FuncDecl} (hin : ∀ f ∈ fs, f.IsIn source)
    (hcut : fs.Pairwise fun f g ↦ f.isRewritten → g.isRewritten → f.cutEnd source ≤ g.top)
    {before text : List Char} (hsource : source = before ++ text)
    (htop : ∀ f ∈ fs, f.isRewritten → bytes before ≤ f.top) :
    ∃ result, Spliced (bytes before) text fs result := by
  induction fs generalizing before text with
  | nil => exact ⟨text, .done⟩
  | cons f fs ih =>
    rw [List.forall_mem_cons] at hin htop
    rw [List.pairwise_cons] at hcut
    cases hf : f.isRewritten with
    | false =>
      obtain ⟨result, hspliced⟩ := ih hin.2 hcut.2 hsource htop.2
      exact ⟨result, hspliced.cons_of_not_isRewritten hf⟩
    | true =>
      -- The text is cut behind what this function takes; the later ones begin there or below.
      obtain ⟨front, old, after, hfront, hbytes, hend, hstep⟩ := FuncDecl.exists_cut hin.1 hf
      have hle := htop.1 hf
      rw [hbytes] at hle
      obtain ⟨gap, rfl, rfl⟩ := exists_gap_of_bytes_le
        (hsource.symm.trans (hfront.trans (List.append_assoc _ _ _))) hle
      rw [← bytes_append] at hend
      obtain ⟨result, hspliced⟩ := ih hin.2 hcut.2 hfront fun g hg hg' ↦
        hend ▸ hcut.1 g hg hf hg'
      rw [← List.append_assoc]
      exact hstep (bytes before) gap fs result (by rw [hbytes, bytes_append]) (hend ▸ hspliced)

namespace SourceFile

/-- A block that is taken out ends its line before the next function whose block is rewritten. -/
def Clear (file : SourceFile) : Prop :=
  file.functions.Pairwise fun f g ↦ f.pending = some [] → g.isRewritten →
    ∀ span ∈ f.doc.span, lineEnd file.source.toList span.stop ≤ g.top

theorem InOrder.cutEnd_le {file : SourceFile} (h : file.InOrder) (hclear : file.Clear) :
    file.functions.Pairwise fun f g ↦
      f.isRewritten → g.isRewritten → f.cutEnd file.source.toList ≤ g.top := by
  refine (h.apart.and hclear).imp_of_mem ?_
  rintro f g hf - ⟨hapart, hclear⟩ - hg
  have hin := h.isIn f hf
  have hnonempty := hin.nonempty
  rw [FuncDecl.cutEnd.eq_def]
  split
  · exact hclear ‹_› hg _ ‹_›
  · have hdoc := (hin.doc _ ‹_›).2
    omega
  · omega

theorem InOrder.ordered {file : SourceFile} (h : file.InOrder) :
    file.edits.Pairwise (·.start < ·.start) := by
  have htop : file.functions.Pairwise fun f g ↦ f.top < g.top :=
    h.apart.imp_of_mem fun hf _ hapart ↦ (h.isIn _ hf).top_lt.trans_le hapart
  refine htop.filterMap _ fun f g hlt e he e' he' ↦ ?_
  rw [start_of_editOf? he, start_of_editOf? he']
  exact hlt

theorem InOrder.render_eq {file : SourceFile} (h : file.InOrder) :
    file.render = String.ofList (file.edits.reverse.foldl apply file.source.toList) := by
  rw [render, mergeSort_eq_reverse h.ordered]

def setDocs (file : SourceFile) (calls : List (ℕ × List String)) : SourceFile :=
  calls.foldl (fun file call ↦ (file.setDoc call.1 call.2).1) file

theorem setDocs_concat (file : SourceFile) (calls : List (ℕ × List String))
    (call : ℕ × List String) :
    file.setDocs (calls ++ [call]) = ((file.setDocs calls).setDoc call.1 call.2).1 := by
  simp [setDocs]

theorem original_setDocs (file : SourceFile) (calls : List (ℕ × List String)) :
    (file.setDocs calls).original = file.original := by
  induction calls using List.reverseRecOn with
  | nil => rfl
  | append_singleton calls call ih => rw [setDocs_concat, original_setDoc, ih]

theorem source_setDocs (file : SourceFile) (calls : List (ℕ × List String)) :
    (file.setDocs calls).source = file.source := by
  have hsource : (file.setDocs calls).original.source = file.original.source := by
    rw [original_setDocs]
  exact hsource

theorem inOrder_original {file : SourceFile} : file.original.InOrder ↔ file.InOrder := by
  have hin (f : FuncDecl) (text : List Char) : f.original.IsIn text ↔ f.IsIn text :=
    ⟨fun h ↦ ⟨h.span, h.nonempty, h.doc⟩, fun h ↦ ⟨h.span, h.nonempty, h.doc⟩⟩
  constructor
  · intro h
    exact ⟨fun f hf ↦ (hin f _).1 (h.isIn _ (List.mem_map_of_mem hf)), List.pairwise_map.1 h.apart⟩
  · intro h
    refine ⟨fun f hf ↦ ?_, List.pairwise_map.2 h.apart⟩
    obtain ⟨g, hg, rfl⟩ := List.mem_map.1 hf
    exact (hin g _).2 (h.isIn g hg)

theorem InOrder.setDocs {file : SourceFile} (h : file.InOrder) (calls : List (ℕ × List String)) :
    (file.setDocs calls).InOrder := by
  rw [← inOrder_original, original_setDocs, inOrder_original]
  exact h

end SourceFile

/-- The function after these blocks were asked for: the last one is pending, unless the block was
never to change. -/
def FuncDecl.asked (f : FuncDecl) (blocks : List (List String)) : FuncDecl :=
  if ∀ lines ∈ blocks, lines = f.docLines then f else { f with pending := blocks.getLast? }

theorem FuncDecl.asked_concat (f : FuncDecl) (blocks : List (List String)) (lines : List String) :
    f.asked (blocks ++ [lines]) = ((f.asked blocks).setDoc lines).1 := by
  have hconcat : (∀ l ∈ blocks ++ [lines], l = f.docLines) ↔
      (∀ l ∈ blocks, l = f.docLines) ∧ f.docLines = lines := by
    rw [List.forall_mem_append, List.forall_mem_singleton, @eq_comm _ lines]
  rw [asked, asked]
  by_cases hall : ∀ l ∈ blocks, l = f.docLines
  · rw [if_pos hall, setDoc]
    by_cases hsame : f.docLines = lines
    · rw [if_pos hsame, if_pos (hconcat.2 ⟨hall, hsame⟩)]
    · rw [if_neg hsame, if_neg fun h ↦ hsame (hconcat.1 h).2]
      simp
  · rw [if_neg hall, if_neg fun h ↦ hall (hconcat.1 h).1, setDoc]
    have hne : blocks ≠ [] := by
      rintro rfl
      exact hall (by simp)
    split
    · rename_i hlast
      rw [docLines, List.getLast?_eq_some_getLast hne, Option.getD_some] at hlast
      simp [List.getLast?_eq_some_getLast hne, hlast]
    · simp

namespace SourceFile

theorem getElem?_setDocs (file : SourceFile) (calls : List (ℕ × List String)) (i : ℕ) :
    (file.setDocs calls).functions[i]? = file.functions[i]?.map fun f ↦
      f.asked ((calls.filter (·.1 = i)).map (·.2)) := by
  induction calls using List.reverseRecOn with
  | nil => simp [FuncDecl.asked, setDocs]
  | append_singleton calls call ih =>
    rw [setDocs_concat, functions_setDoc, List.getElem?_modify, ih, List.filter_append,
      List.map_append]
    cases file.functions[i]? with
    | none => rfl
    | some f =>
      by_cases hi : call.1 = i
      · simp [hi, FuncDecl.asked_concat]
      · simp [hi]

end SourceFile

/-- What is done of the text lies in front of the functions that are left. -/
theorem Spliced.le_top {n : ℕ} {text result : List Char} {fs : List FuncDecl}
    (h : Spliced n text fs result) : ∀ g ∈ fs, g.isRewritten → n ≤ g.top := by
  induction h with
  | done => simp
  | kept hpending _ ih =>
    exact List.forall_mem_cons.2 ⟨by simp [FuncDecl.isRewritten, hpending], ih⟩
  | none hpending hdoc _ ih =>
    exact List.forall_mem_cons.2 ⟨by simp [FuncDecl.isRewritten, hpending, hdoc], ih⟩
  | replaced _ _ hdoc hstart hstop _ ih =>
    refine List.forall_mem_cons.2 ⟨fun _ ↦ ?_, fun g hg hg' ↦ ?_⟩
    · rw [FuncDecl.top_eq hdoc]
      omega
    · have hle := ih g hg hg'
      omega
  | removed _ hdoc hstart hstop _ _ ih =>
    refine List.forall_mem_cons.2 ⟨fun _ ↦ ?_, fun g hg hg' ↦ ?_⟩
    · rw [FuncDecl.top_eq hdoc]
      omega
    · have hle := ih g hg hg'
      omega
  | inserted _ _ hdoc hstart _ ih =>
    refine List.forall_mem_cons.2 ⟨fun _ ↦ ?_, fun g hg hg' ↦ ?_⟩
    · rw [FuncDecl.top, hdoc, Option.map_none, Option.getD_none]
      omega
    · have hle := ih g hg hg'
      omega

namespace SourceFile

theorem pairwise_of_spliced {source before text result : List Char} {fs : List FuncDecl} {n : ℕ}
    (h : Spliced n text fs result) (hsource : source = before ++ text) (hn : n = bytes before) :
    fs.Pairwise fun f g ↦ f.pending = some [] → g.isRewritten →
      ∀ span ∈ f.doc.span, lineEnd source span.stop ≤ g.top := by
  induction h generalizing before with
  | done => exact .nil
  | kept hpending _ ih => exact .cons (by simp [hpending]) (ih hsource hn)
  | none _ hdoc _ ih => exact .cons (by simp [hdoc]) (ih hsource hn)
  | @replaced n front old after result f fs lines span hpending hne hdoc hstart hstop _ ih =>
    refine .cons (fun g _ hremoved ↦ ?_) (@ih (before ++ front ++ old) ?_ ?_)
    · exact absurd (Option.some.inj (hpending.symm.trans hremoved)) hne
    · simp [hsource]
    · simp only [bytes_append]
      omega
  | @inserted n front after result f fs lines hpending hne hdoc hstart _ ih =>
    refine .cons (fun g _ hremoved ↦ ?_) (@ih (before ++ front) ?_ ?_)
    · exact absurd (Option.some.inj (hpending.symm.trans hremoved)) hne
    · simp [hsource]
    · rw [bytes_append]
      omega
  | @removed n front old line after result f fs span hpending hdoc hstart hstop hline hmore ih =>
    have hbefore : bytes (before ++ front ++ old) = span.stop := by
      simp only [bytes_append]
      omega
    have hsource' : source = (before ++ front ++ old) ++ (line ++ after) := by simp [hsource]
    refine .cons (fun g hg _ hg' span' hspan ↦ ?_)
      (@ih (before ++ front ++ old ++ line) ?_ ?_)
    · obtain rfl := Option.some.inj (hdoc.symm.trans hspan)
      rw [hsource', ← hbefore, hline.lineEnd_eq, hbefore]
      exact hmore.le_top g hg hg'
    · simp [hsource]
    · rw [bytes_append, hbefore]

theorem InOrder.exists_spliced_iff {file : SourceFile} (h : file.InOrder) :
    (∃ text, Spliced 0 file.source.toList file.functions text) ↔ file.Clear := by
  constructor
  · rintro ⟨text, hspliced⟩
    exact pairwise_of_spliced hspliced (List.nil_append _).symm rfl
  · intro hclear
    exact exists_spliced h.isIn (h.cutEnd_le hclear) (List.nil_append _).symm
      fun _ _ _ ↦ Nat.zero_le _

/-- The edits of a file fit its text one after another and give the result that the pending blocks
ask for. -/
theorem InOrder.render_of_spliced {file : SourceFile} (h : file.InOrder) {text : List Char}
    (htext : Spliced 0 file.source.toList file.functions text) :
    file.render = String.ofList text ∧
      InRange (file.edits.mergeSort fun a b ↦ decide (b.start ≤ a.start)) file.source.toList := by
  obtain ⟨cs, hold, hnew, hedits⟩ := htext.exists_chunks (List.nil_append _).symm rfl
  have hordered := h.ordered
  have hrange := inRange_ofChunks [] cs []
  rw [bytes_nil] at hrange
  constructor
  · rw [render_of_chunks (by rw [hold, List.append_nil]) hedits (hedits ▸ hordered),
      List.append_nil, hnew]
  · rw [mergeSort_eq_reverse hordered, edits, hedits, ← hold]
    simpa using hrange

/-- A file is clear whatever blocks are pending, since asking for one moves no span: as it was read,
its blocks end their lines before their functions begin. -/
theorem clear_of_original {path source : String} {file : SourceFile}
    (h : parse path source = .ok file.original) : file.Clear := by
  obtain ⟨hread, hbreak⟩ := inOrder_of_parse h
  have horder := inOrder_original.1 hread
  refine horder.apart.imp_of_mem fun {f g} hf _ hapart _ _ span hspan ↦ ?_
  have hend : lineEnd file.source.toList span.stop ≤ f.span.start :=
    hbreak f.original (List.mem_map_of_mem hf) span hspan
  have hnonempty := (horder.isIn f hf).nonempty
  omega

theorem clear_of_parse {path source : String} {file : SourceFile} (h : parse path source = .ok file)
    (calls : List (ℕ × List String)) : (file.setDocs calls).Clear := by
  have horiginal := (original_of_parse h).2.2.1
  apply clear_of_original
  rw [original_setDocs, horiginal]
  exact h

/-- The text of a file whose functions stand in order, after any blocks were asked for: as long as
no block that is taken out shares the end of its line with a later one that is rewritten, what was
asked for last is put in place and nothing else changes. A file that was read is always so. -/
theorem render_splices_blocks {file : SourceFile} (h : file.InOrder)
    (calls : List (ℕ × List String)) :
    (∀ i : ℕ, (file.setDocs calls).functions[i]? = file.functions[i]?.map fun f ↦
      f.asked ((calls.filter (·.1 = i)).map (·.2))) ∧
    ((file.setDocs calls).Clear →
      InRange ((file.setDocs calls).edits.mergeSort fun a b ↦ decide (b.start ≤ a.start))
        file.source.toList ∧
      ∀ text, Spliced 0 file.source.toList (file.setDocs calls).functions text ↔
        (file.setDocs calls).render = String.ofList text) ∧
    ((∃ text, Spliced 0 file.source.toList (file.setDocs calls).functions text) →
      (file.setDocs calls).Clear) ∧
    ∀ path source, parse path source = .ok file → (file.setDocs calls).Clear := by
  have hafter := h.setDocs calls
  have hrender (text : List Char) := @InOrder.render_of_spliced _ hafter text
  have hexists := hafter.exists_spliced_iff
  rw [source_setDocs] at hrender hexists
  refine ⟨file.getElem?_setDocs calls, fun hclear ↦ ?_, hexists.1,
    fun path source hparse ↦ clear_of_parse hparse calls⟩
  obtain ⟨result, hspliced⟩ := hexists.2 hclear
  obtain ⟨hresult, hrange⟩ := hrender result hspliced
  refine ⟨hrange, fun text ↦ ⟨fun htext ↦ (hrender text htext).1, fun htext ↦ ?_⟩⟩
  obtain rfl := String.ofList_inj.1 (hresult.symm.trans htext)
  exact hspliced

/-- A block goes with the rest of its line, one is replaced, and one comes in front of its
function; the last function was asked for the block it has. -/
theorem render_splices_blocks_of_four :
    ∃ file, parse "p.go" ("package p\n\n// A é.\r\nfunc A()\n\n// B is old.\n// So is this.\n" ++
        "\tfunc B(); func C()\n// D é.  \nfunc D()\n") = .ok file ∧ file.InOrder ∧
      Spliced 0 file.source.toList
        (file.setDocs [(0, ["// A"]), (1, ["// B", "// new"]), (2, ["// C"]), (0, []),
          (3, ["// D é."]), (4, ["// E"])]).functions
        ("package p\n\nfunc A()\n\n// B\n// new\n" ++
          "\tfunc B(); // C\nfunc C()\n// D é.  \nfunc D()\n").toList := by
  generalize hcalls : [(0, ["// A"]), (1, ["// B", "// new"]), (2, ["// C"]), (0, []),
    (3, ["// D é."]), (4, ["// E"])] = calls
  -- the kernel does not evaluate the sort, so the edits are evaluated in reverse
  obtain ⟨file, hparse, hfold⟩ := exists_ok_of_toOption (show (parse "p.go"
      ("package p\n\n// A é.\r\nfunc A()\n\n// B is old.\n// So is this.\n" ++
        "\tfunc B(); func C()\n// D é.  \nfunc D()\n")).toOption.map (fun file ↦
      (file.setDocs calls).edits.reverse.foldl apply (file.setDocs calls).source.toList) =
      some ("package p\n\nfunc A()\n\n// B\n// new\n" ++
        "\tfunc B(); // C\nfunc C()\n// D é.  \nfunc D()\n").toList by
    rw [← hcalls]
    decide +kernel)
  have horder := (inOrder_of_parse hparse).1
  obtain ⟨-, hrender, -, hclear⟩ := render_splices_blocks horder calls
  refine ⟨file, hparse, horder, ((hrender (hclear _ _ hparse)).2 _).2 ?_⟩
  rw [(horder.setDocs calls).render_eq, hfold]

/-- Two blocks are taken out of a text of one line, which is not the text that their functions were
read from: the second edit goes beyond what the first leaves. And a block that was only asked for
leaves nothing behind in a text, not even a line feed. -/
theorem render_out_of_range :
    (∃ file other : SourceFile,
      parse "p.go" "package p; var abcdefghijklmnopqrstuvwxyz int" = .ok file ∧
      parse "p.go" "package p\n//F\nfunc F()\n//G\nfunc G()\n" = .ok other ∧
      let mixed := { file with functions := other.functions }
      mixed.InOrder ∧ ¬InRange ((mixed.setDocs [(0, []), (1, [])]).edits.mergeSort
        fun a b ↦ decide (b.start ≤ a.start)) mixed.source.toList) ∧
    ∃ file, parse "p.go" "package p\n\nfunc F() \x7b\x7d\n" = .ok file ∧
      (file.setDocs [(0, ["// F"]), (0, [])]).render = "package p\n\nfunc F() \x7b\x7d\n" := by
  constructor
  · have hview : (parse "p.go" "package p; var abcdefghijklmnopqrstuvwxyz int").toOption.bind
        (fun file ↦ (parse "p.go" "package p\n//F\nfunc F()\n//G\nfunc G()\n").toOption.map
          fun other ↦
            let mixed := { file with functions := other.functions }
            (decide mixed.InOrder, (mixed.setDocs [(0, []), (1, [])]).edits,
              bytes (apply mixed.source.toList ⟨23, 45, []⟩))) =
        some (true, [⟨10, 45, []⟩, ⟨23, 45, []⟩], 23) := by decide +kernel
    obtain ⟨file, hfile, hview⟩ := Option.bind_eq_some_iff.1 hview
    obtain ⟨other, hother, hview⟩ := Option.map_eq_some_iff.1 hview
    simp only [Prod.mk.injEq, decide_eq_true_iff] at hview
    obtain ⟨horder, hedits, hleft⟩ := hview
    refine ⟨file, other, toOption_eq_some.1 hfile, toOption_eq_some.1 hother, horder, ?_⟩
    rw [mergeSort_eq_reverse (horder.setDocs _).ordered, hedits]
    rintro ⟨-, hfits, -⟩
    have hstop : 45 ≤ 23 := hfits.stop_le.trans_eq hleft
    exact absurd hstop (by decide)
  · obtain ⟨file, hparse, hfold⟩ := exists_ok_of_toOption (show
        (parse "p.go" "package p\n\nfunc F() \x7b\x7d\n").toOption.map (fun file ↦
          let after := file.setDocs [(0, ["// F"]), (0, [])]
          after.edits.reverse.foldl apply after.source.toList) =
        some "package p\n\nfunc F() \x7b\x7d\n".toList by decide +kernel)
    refine ⟨file, hparse, ?_⟩
    rw [((inOrder_of_parse hparse).1.setDocs _).render_eq, hfold, String.ofList_toList]

end SourceFile

end HandlerDocs
