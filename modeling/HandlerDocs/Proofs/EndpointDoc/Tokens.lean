import HandlerDocs.Proofs.EndpointDoc.Written

namespace HandlerDocs.EndpointDoc

open Text

/-- The tokens of two parameter lines agree, up to the case of the keyword and of the flag and
up to the spelling of the location. -/
inductive SameParam : List String → List String → Prop
  | intro {key key' place place' flag flag' : String} {kind : ParamKind} (name type : String)
      (text : List String) (hkey : lower key = lower key')
      (hplace : ParamKind.ofText? place = some kind)
      (hplace' : ParamKind.ofText? place' = some kind) (hflag : lower flag = lower flag') :
      SameParam (key :: name :: place :: type :: flag :: text)
        (key' :: name :: place' :: type :: flag' :: text)

inductive SameResponse : List String → List String → Prop
  | intro {key key' zeros : String} (status : String) (rest : List String)
      (hkey : lower key ∈ ["@success", "@failure"]) (hkey' : lower key' ∈ ["@success", "@failure"])
      (hzeros : ∀ c ∈ zeros.toList, c = '0') :
      SameResponse (key :: (zeros ++ status) :: rest) (key' :: status :: rest)

theorem sameParam_cons {key key' name name' place place' type type' flag flag' : String}
    {text text' : List String} :
    SameParam (key :: name :: place :: type :: flag :: text)
        (key' :: name' :: place' :: type' :: flag' :: text') ↔
      lower key = lower key' ∧ name = name' ∧
        (∃ kind, ParamKind.ofText? place = some kind ∧ ParamKind.ofText? place' = some kind) ∧
        type = type' ∧ lower flag = lower flag' ∧ text = text' := by
  constructor
  · intro h
    cases h with
    | intro name type text hkey hplace hplace' hflag =>
      exact ⟨hkey, rfl, ⟨_, hplace, hplace'⟩, rfl, hflag, rfl⟩
  · rintro ⟨hkey, rfl, ⟨kind, hplace, hplace'⟩, rfl, hflag, rfl⟩
    exact .intro name type text hkey hplace hplace' hflag

theorem SameParam.length_eq {old new : List String} (h : SameParam old new) :
    old.length = new.length := by
  cases h
  rfl

section Param

variable {p : ParamDoc} {place flag text : String}

/-- The tokens of the five columns; only the last may go on in what follows. -/
theorem words_columns (h : p.Columns place flag text) (after : String) :
    words (text ++ after) =
      p.name :: place :: p.type :: flag :: words ("\"" ++ p.description ++ "\"" ++ after) := by
  obtain ⟨g₁, g₂, g₃, g₄, hg₁, hg₂, hg₃, hg₄, rfl⟩ := h.split
  have hassoc (word gap rest : String) :
      word ++ gap ++ rest ++ after = word ++ gap ++ (rest ++ after) := String.append_assoc
  rw [hassoc, words_column h.legible.name hg₁, hassoc, words_column h.placed.solid hg₂, hassoc,
    words_column h.legible.type hg₃, hassoc, words_column h.flagged.solid hg₄]

theorem words_comment {key : String} (hkey : Solid ("@" ++ key)) (text : String) :
    words (bare ("// @" ++ key ++ " " ++ text)) = ("@" ++ key) :: words text := by
  rw [comment_at, bare_comment, words_trim, words_column hkey gap_space]

theorem words_writeParam (h : p.Legible) :
    words (bare (writeParam p)) = "@Param" :: p.name :: p.kind.text :: p.type ::
      writeFlag p.required :: words ("\"" ++ p.description ++ "\"") := by
  have htext := words_columns (columns_paramText h) ""
  rw [String.append_empty, String.append_empty] at htext
  rw [writeParam_eq h, words_comment (by decide), htext]
  rfl

end Param

section Response

variable {r : ResponseDoc} {status text : String}

theorem words_responseColumns (h : r.Columns status text) :
    words text = status :: r.schema :: words r.type := by
  obtain ⟨g₁, g₂, hg₁, hg₂, rfl⟩ := h.split
  rw [words_column (solid_status h.counted) hg₁, words_column (solid_schema h.legible) hg₂]

theorem keyword_writeResponse (r : ResponseDoc) :
    keyword (bare (writeResponse r)) = if r.isSuccess then "@Success" else "@Failure" := by
  rw [writeResponse_eq]
  split
  · rw [comment_at, bare_comment, keyword_trim (by decide)]
    rfl
  · rw [comment_at, bare_comment, keyword_trim (by decide)]
    rfl

theorem words_writeResponse (h : r.Legible) :
    words (bare (writeResponse r)) = (if r.isSuccess then "@Success" else "@Failure") ::
      Nat.repr r.status :: r.schema :: words r.type := by
  have htext := words_responseColumns (columns_responseText h)
  rw [writeResponse_eq]
  split
  · rw [words_comment (by decide), htext]
    rfl
  · rw [words_comment (by decide), htext]
    rfl

end Response

/-- The first token of a line is its keyword. -/
theorem words_eq_cons {line : String} (h : keyword line ≠ "") :
    words line = keyword line :: words (remainder line) := by
  have hkey : Solid (keyword line) := by
    refine solid_iff_ink.2 ⟨h, fun c hc ↦ ?_⟩
    rw [keyword, String.toList_ofList] at hc
    exact List.mem_takeWhile_imp hc
  have hsplit : line = keyword line ++ dropLeading isInk line := by
    rw [← String.toList_inj, String.toList_append, keyword, dropLeading, String.toList_ofList,
      String.toList_ofList, List.takeWhile_append_dropWhile]
  have hblank : ∀ c ∈ (dropLeading isInk line).toList.head?, isBlank c := by
    intro c hc
    rw [dropLeading, String.toList_ofList] at hc
    have hstop := List.head?_dropWhile_not isInk line.toList
    rw [Option.mem_def.1 hc] at hstop
    simpa [isInk] using hstop
  calc words line = words (keyword line ++ dropLeading isInk line) := by rw [← hsplit]
    _ = words (keyword line) ++ words (dropLeading isInk line) := words_append (.inr hblank)
    _ = keyword line :: words (remainder line) := by
      rw [hkey.words_eq, remainder, words_trim, List.singleton_append]

theorem trimmed_remainder (line : String) : Trimmed (remainder line) :=
  trimmed_trim _

section Line

variable {raw : String}

theorem keyword_ne_empty {line key : String} (h : lower (keyword line) = key) (hkey : key ≠ "") :
    keyword line ≠ "" := by
  intro hempty
  apply hkey
  rw [← h, hempty]
  rfl

theorem read_singleton (h : keyword (bare raw) ≠ "") :
    read [raw] = (Item.ofLine (bare raw)).addTo empty := by
  have hne : bare raw ≠ "" := by
    intro hempty
    rw [hempty] at h
    exact h rfl
  have hfilter : ([raw].map bare).filter (fun line ↦ !line.isEmpty) = [bare raw] := by simp [hne]
  rw [read, hfilter, List.foldl_cons, List.foldl_nil, readLine_eq]

theorem read_param_line (h : lower (keyword (bare raw)) = "@param") :
    read [raw] = ((readParam? (remainder (bare raw))).map fun p ↦ { empty with params := [p] }).getD
      { empty with extra := [bare raw] } := by
  rw [read_singleton (keyword_ne_empty h (by decide)), Item.ofLine, h, Item.ofKeyword_param]
  cases readParam? (remainder (bare raw)) <;> rfl

theorem read_response_line (h : lower (keyword (bare raw)) ∈ ["@success", "@failure"]) :
    read [raw] = ((readResponse? (remainder (bare raw))).map fun r ↦
      { empty with responses := [r] }).getD { empty with extra := [bare raw] } := by
  simp only [List.mem_cons, List.not_mem_nil, or_false] at h
  rcases h with h | h
  · rw [read_singleton (keyword_ne_empty h (by decide)), Item.ofLine, h, Item.ofKeyword_success]
    cases readResponse? (remainder (bare raw)) <;> rfl
  · rw [read_singleton (keyword_ne_empty h (by decide)), Item.ofLine, h, Item.ofKeyword_failure]
    cases readResponse? (remainder (bare raw)) <;> rfl

end Line

/-- The line of a parameter keeps its tokens exactly when the columns are all that it has and its
flag is one of the two that are written. -/
theorem sameParam_iff {line before columns after place flag : String} {p : ParamDoc}
    (hkey : lower (keyword line) = "@param") (hline : remainder line = before ++ columns ++ after)
    (hbefore : ∀ c ∈ before.toList.getLast?, isBlank c) (h : p.Columns place flag columns) :
    SameParam (words line) (words (bare (writeParam p))) ↔
      before = "" ∧ after = "" ∧ (lower flag = "true" ∨ lower flag = "false") := by
  have hwords : words line = keyword line :: (words before ++ (p.name :: place :: p.type :: flag ::
      words ("\"" ++ p.description ++ "\"" ++ after))) := by
    rw [words_eq_cons (keyword_ne_empty hkey (by decide)), hline, String.append_assoc,
      words_append (.inl hbefore), words_columns h]
  have htrim : Trimmed (before ++ columns ++ after) := hline ▸ trimmed_remainder line
  rw [hwords, words_writeParam h.legible]
  constructor
  · intro hsame
    -- a token before the columns would be one too many
    have hnone : words before = [] := by
      have hlength := hsame.length_eq
      have hle := length_words_le ("\"" ++ p.description ++ "\"") after
      simp only [List.length_cons, List.length_append] at hlength
      apply List.eq_nil_of_length_eq_zero
      omega
    rw [hnone, List.nil_append, sameParam_cons] at hsame
    obtain ⟨-, -, -, -, hflag, htext⟩ := hsame
    refine ⟨?_, htrim.eq_empty_of_end (forall_isBlank_of_words_append htext), ?_⟩
    · rw [String.append_assoc] at htrim
      exact htrim.eq_empty_of_start (words_eq_nil.1 hnone)
    · rw [hflag]
      cases p.required
      · exact .inr (by decide)
      · exact .inl (by decide)
  · rintro ⟨rfl, rfl, hflag⟩
    have hflag' : lower flag = lower (writeFlag p.required) := by
      rw [h.required]
      rcases hflag with hflag | hflag <;> rw [hflag] <;> decide
    rw [String.append_empty, words_eq_nil.2 (by simp), List.nil_append, sameParam_cons]
    exact ⟨by rw [hkey]; decide, rfl, ⟨p.kind, h.kind, ofText?_text _⟩, rfl, hflag', rfl⟩

/-- The line of a response keeps its tokens but for its keyword, which is written by the status. -/
theorem sameResponse_writeResponse {line status : String} {r : ResponseDoc}
    (hkey : lower (keyword line) ∈ ["@success", "@failure"])
    (h : r.Columns status (remainder line)) :
    SameResponse (words line) (words (bare (writeResponse r))) := by
  have hne : keyword line ≠ "" := keyword_ne_empty rfl (by rintro hempty; simp [hempty] at hkey)
  obtain ⟨-, -, zeros, hzeros, hstatus⟩ := decimalBelow?_eq_some h.counted
  rw [words_eq_cons hne, words_responseColumns h, words_writeResponse h.legible, hstatus]
  refine .intro _ _ hkey ?_ hzeros
  split <;> decide

/-- What becomes of a line for a parameter or a response. It is kept as it stands when it is not
in the form of its attribute. Else the line that is written for it has the same tokens, except
that text around the columns of a parameter is lost, and so is a flag other than true and false. -/
theorem read_singleton_tokens (raw : String) :
    (lower (keyword (bare raw)) = "@param" →
      (read [raw] = { empty with extra := [bare raw] } ∧
        ∀ p place flag columns after, ParamDoc.Columns p place flag columns →
          remainder (bare raw) ≠ columns ++ after) ∨
      ∃ p before columns after place flag, read [raw] = { empty with params := [p] } ∧
        remainder (bare raw) = before ++ columns ++ after ∧ p.Columns place flag columns ∧
        (SameParam (words (bare raw)) (words (bare (writeParam p))) ↔
          before = "" ∧ after = "" ∧ (lower flag = "true" ∨ lower flag = "false"))) ∧
    (lower (keyword (bare raw)) ∈ ["@success", "@failure"] →
      (read [raw] = { empty with extra := [bare raw] } ∧
        ∀ r status, ¬ ResponseDoc.Columns r status (remainder (bare raw))) ∨
      ∃ r status, read [raw] = { empty with responses := [r] } ∧
        r.Columns status (remainder (bare raw)) ∧
        keyword (bare (writeResponse r)) = (if r.isSuccess then "@Success" else "@Failure") ∧
        SameResponse (words (bare raw)) (words (bare (writeResponse r)))) := by
  constructor
  · intro hkey
    have hread := read_param_line hkey
    cases hparam : readParam? (remainder (bare raw)) with
    | none =>
      refine .inl ⟨by rw [hread, hparam]; rfl, ?_⟩
      intro p place flag columns after hcolumns heq
      rw [heq, readParam?_of_columns hcolumns after] at hparam
      cases hparam
    | some p =>
      obtain ⟨before, columns, after, place, flag, hline, hbefore, hcolumns⟩ :=
        exists_columns_of_readParam? hparam
      exact .inr ⟨p, before, columns, after, place, flag, by rw [hread, hparam]; rfl, hline,
        hcolumns, sameParam_iff hkey hline hbefore hcolumns⟩
  · intro hkey
    have hread := read_response_line hkey
    cases hresponse : readResponse? (remainder (bare raw)) with
    | none =>
      refine .inl ⟨by rw [hread, hresponse]; rfl, ?_⟩
      intro r status hcolumns
      rw [readResponse?_of_columns hcolumns] at hresponse
      cases hresponse
    | some r =>
      obtain ⟨status, hcolumns⟩ := exists_columns_of_readResponse? (trimmed_remainder _) hresponse
      exact .inr ⟨r, status, by rw [hread, hresponse]; rfl, hcolumns,
        keyword_writeResponse r, sameResponse_writeResponse hkey hcolumns⟩

theorem read_singleton_tokens_book :
    let param := "// @PARAM see id Form int yes \"Book ID\" minimum(1)"
    let response := "//\t@failure 0404   \x7bobject\x7d main.Error"
    (lower (keyword (bare param)) = "@param" ∧
      ∃ p before columns after place flag, read [param] = { empty with params := [p] } ∧
        remainder (bare param) = before ++ columns ++ after ∧ p.Columns place flag columns ∧
        (SameParam (words (bare param)) (words (bare (writeParam p))) ↔
          before = "" ∧ after = "" ∧ (lower flag = "true" ∨ lower flag = "false"))) ∧
    lower (keyword (bare response)) ∈ ["@success", "@failure"] ∧
      ∃ r status, read [response] = { empty with responses := [r] } ∧
        r.Columns status (remainder (bare response)) ∧
        keyword (bare (writeResponse r)) = (if r.isSuccess then "@Success" else "@Failure") ∧
        SameResponse (words (bare response)) (words (bare (writeResponse r))) := by
  intro param response
  have hparam : lower (keyword (bare param)) = "@param" := by decide +kernel
  have hresponse : lower (keyword (bare response)) ∈ ["@success", "@failure"] := by decide +kernel
  refine ⟨⟨hparam, ?_⟩, hresponse, ?_⟩
  · refine ((read_singleton_tokens param).1 hparam).resolve_left fun hextra ↦ ?_
    exact absurd hextra.1 (by decide +kernel)
  · refine ((read_singleton_tokens response).2 hresponse).resolve_left fun hextra ↦ ?_
    exact absurd hextra.1 (by decide +kernel)

/-- An attribute after the description is neither kept with the parameter nor in the line. -/
theorem param_attribute_dropped :
    let raw := "// @Param id path int true \"Book ID\" minimum(1)"
    lower (keyword (bare raw)) = "@param" ∧ read [raw] ≠ { empty with extra := [bare raw] } ∧
      ∀ p, read [raw] = { empty with params := [p] } →
        ¬ SameParam (words (bare raw)) (words (bare (writeParam p))) := by
  intro raw
  have hfound : read [raw] = { empty with params := [⟨"id", .path, "int", true, "Book ID"⟩] } := by
    decide +kernel
  rw [hfound]
  refine ⟨by decide +kernel, fun hextra ↦ ?_, ?_⟩
  · exact absurd (congrArg EndpointDoc.params hextra) (List.cons_ne_nil _ _)
  intro p hread hsame
  obtain rfl : (⟨"id", .path, "int", true, "Book ID"⟩ : ParamDoc) = p := by
    simpa using congrArg EndpointDoc.params hread
  exact absurd hsame.length_eq (by decide +kernel)

end HandlerDocs.EndpointDoc
