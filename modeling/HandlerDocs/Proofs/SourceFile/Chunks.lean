import HandlerDocs.Proofs.Prelude
import HandlerDocs.SourceFile.Splice

namespace HandlerDocs

namespace Edit

@[simp] theorem bytes_nil : bytes [] = 0 := rfl

@[simp] theorem bytes_cons (c : Char) (cs : List Char) : bytes (c :: cs) = c.utf8Size + bytes cs :=
  rfl

@[simp] theorem bytes_append (as bs : List Char) : bytes (as ++ bs) = bytes as + bytes bs := by
  induction as with
  | nil => simp
  | cons c as ih => simp [ih, Nat.add_assoc]

theorem bytes_pos {cs : List Char} (h : cs ≠ []) : 0 < bytes cs := by
  obtain ⟨c, cs, rfl⟩ := List.exists_cons_of_ne_nil h
  have hc := c.utf8Size_pos
  rw [bytes_cons]
  omega

theorem takeBytes_bytes_append (as bs : List Char) : takeBytes (bytes as) (as ++ bs) = as := by
  induction as with
  | nil =>
    cases bs with
    | nil => rfl
    | cons c bs =>
      have hc := c.utf8Size_pos
      exact if_neg (by simp only [bytes_nil]; omega)
  | cons c as ih =>
    rw [List.cons_append, takeBytes, bytes_cons, if_pos (by omega), Nat.add_sub_cancel_left, ih]

theorem dropBytes_bytes_append (as bs : List Char) : dropBytes (bytes as) (as ++ bs) = bs := by
  induction as with
  | nil =>
    cases bs with
    | nil => rfl
    | cons c bs =>
      have hc := c.utf8Size_pos
      exact if_neg (by simp only [bytes_nil]; omega)
  | cons c as ih =>
    rw [List.cons_append, dropBytes, bytes_cons, if_pos (by omega), Nat.add_sub_cancel_left, ih]

theorem takeBytes_append_dropBytes (n : ℕ) (cs : List Char) :
    takeBytes n cs ++ dropBytes n cs = cs := by
  induction cs generalizing n with
  | nil => rfl
  | cons c cs ih =>
    rw [takeBytes, dropBytes]
    split
    · rw [List.cons_append, ih]
    · rfl

theorem apply_append (before old after text : List Char) :
    apply (before ++ old ++ after) ⟨bytes before, bytes before + bytes old, text⟩ =
      before ++ text ++ after := by
  rw [apply, ← bytes_append, dropBytes_bytes_append, List.append_assoc before old,
    takeBytes_bytes_append]

structure Chunk where
  old : List Char
  new? : Option (List Char)

namespace Chunk

def keep (text : List Char) : Chunk := ⟨text, none⟩

def replace (old new : List Char) : Chunk := ⟨old, some new⟩

def new (c : Chunk) : List Char := c.new?.getD c.old

end Chunk

def oldText (cs : List Chunk) : List Char := cs.flatMap Chunk.old

def newText (cs : List Chunk) : List Char := cs.flatMap Chunk.new

def ofChunks : Nat → List Chunk → List Edit
  | _, [] => []
  | n, c :: more =>
    (c.new?.map (⟨n, n + bytes c.old, ·⟩)).toList ++ ofChunks (n + bytes c.old) more

@[simp] theorem oldText_nil : oldText [] = [] := rfl

@[simp] theorem oldText_cons (c : Chunk) (cs : List Chunk) :
    oldText (c :: cs) = c.old ++ oldText cs := rfl

@[simp] theorem oldText_append (cs ds : List Chunk) :
    oldText (cs ++ ds) = oldText cs ++ oldText ds :=
  List.flatMap_append

@[simp] theorem newText_nil : newText [] = [] := rfl

@[simp] theorem newText_cons (c : Chunk) (cs : List Chunk) :
    newText (c :: cs) = c.new ++ newText cs := rfl

@[simp] theorem newText_append (cs ds : List Chunk) :
    newText (cs ++ ds) = newText cs ++ newText ds :=
  List.flatMap_append

theorem ofChunks_append (n : ℕ) (cs ds : List Chunk) :
    ofChunks n (cs ++ ds) = ofChunks n cs ++ ofChunks (n + bytes (oldText cs)) ds := by
  induction cs generalizing n with
  | nil => simp [ofChunks]
  | cons c cs ih =>
    rw [List.cons_append, ofChunks, ofChunks, ih, oldText_cons, bytes_append, List.append_assoc,
      Nat.add_assoc]

theorem le_start_of_mem_ofChunks {n : ℕ} {cs : List Chunk} {e : Edit} (h : e ∈ ofChunks n cs) :
    n ≤ e.start := by
  induction cs generalizing n with
  | nil => simp [ofChunks] at h
  | cons c cs ih =>
    rw [ofChunks, List.mem_append] at h
    rcases h with h | h
    · obtain ⟨text, -, rfl⟩ := Option.map_eq_some_iff.1 (Option.mem_toList.1 h)
      rfl
    · exact (Nat.le_add_right n _).trans (ih h)

/-- Replacements made from the last one on put each new text in the place of the old. -/
theorem foldr_apply_ofChunks (before : List Char) (cs : List Chunk) (after : List Char) :
    (ofChunks (bytes before) cs).foldr (fun e text ↦ apply text e)
      (before ++ oldText cs ++ after) = before ++ newText cs ++ after := by
  induction cs generalizing before with
  | nil => rfl
  | cons c cs ih =>
    have hrest := ih (before ++ c.old)
    rw [bytes_append] at hrest
    rw [ofChunks, List.foldr_append, oldText_cons, ← List.append_assoc before, hrest]
    cases hnew : c.new? with
    | none => simp [Chunk.new, hnew]
    | some text =>
      simp only [Option.map_some, Option.toList_some, List.foldr_cons, List.foldr_nil]
      rw [List.append_assoc (before ++ c.old), apply_append]
      simp [Chunk.new, hnew]

theorem mergeSort_eq_reverse {edits : List Edit} (h : edits.Pairwise (·.start < ·.start)) :
    (edits.mergeSort fun a b ↦ decide (b.start ≤ a.start)) = edits.reverse := by
  have hsorted : (edits.mergeSort fun a b ↦ decide (b.start ≤ a.start)).Pairwise
      fun a b ↦ b.start ≤ a.start := by
    refine (List.pairwise_mergeSort ?_ ?_ edits).imp of_decide_eq_true
    · simp only [decide_eq_true_eq]
      omega
    · simp only [Bool.or_eq_true, decide_eq_true_eq]
      omega
  have hreverse : edits.reverse.Pairwise fun a b ↦ b.start ≤ a.start :=
    List.pairwise_reverse.2 (h.imp Nat.le_of_lt)
  refine List.Perm.eq_of_pairwise ?_ hsorted hreverse
    ((List.mergeSort_perm _ _).trans (List.reverse_perm _).symm)
  -- two edits that start at one byte are one edit
  have hnodup : (edits.map Edit.start).Nodup := List.pairwise_map.2 (h.imp Nat.ne_of_lt)
  intro a b ha hb hba hab
  exact List.inj_on_of_nodup_map hnodup ((List.mergeSort_perm _ _).mem_iff.1 ha)
    (List.mem_reverse.1 hb) (Nat.le_antisymm hab hba)

end Edit

namespace SourceFile

open Edit

/-- A file whose pending blocks replace chunks of its text is rendered with these replaced. -/
theorem render_of_chunks {file : SourceFile} {chunks : List Chunk} {tail : List Char}
    (hsource : file.source.toList = oldText chunks ++ tail)
    (hedits : file.edits = ofChunks 0 chunks)
    (hordered : (ofChunks 0 chunks).Pairwise (·.start < ·.start)) :
    file.render = String.ofList (newText chunks ++ tail) := by
  have happly := foldr_apply_ofChunks [] chunks tail
  simp only [bytes_nil, List.nil_append] at happly
  rw [render, hedits, mergeSort_eq_reverse hordered, hsource, List.foldl_reverse, happly]

end SourceFile

end HandlerDocs
