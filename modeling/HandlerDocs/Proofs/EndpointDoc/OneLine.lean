import HandlerDocs.Proofs.EndpointDoc.Derived

namespace HandlerDocs

open Text

theorem Text.oneLine_intercalate {items : List String} :
    OneLine (",".intercalate items) ↔ ∀ item ∈ items, OneLine item := by
  induction items with
  | nil => exact iff_of_true (by decide) (by simp)
  | cons item items ih =>
    cases items with
    | nil => simp
    | cons next items =>
      have hcomma : OneLine "," := by decide
      rw [String.intercalate_cons_cons, oneLine_append, oneLine_append, ih, List.forall_mem_cons]
      simp [hcomma]

structure ParamDoc.OneLine (p : ParamDoc) : Prop where
  name : Text.OneLine p.name
  type : Text.OneLine p.type
  description : Text.OneLine p.description

namespace EndpointDoc

structure OneLine (d : EndpointDoc) : Prop where
  summary : Text.OneLine d.summary
  id : ∀ x ∈ d.id, Text.OneLine x
  tags : ∀ x ∈ d.tags, Text.OneLine x
  descriptions : ∀ x ∈ d.descriptions, Text.OneLine x
  accept : ∀ x ∈ d.accept, Text.OneLine x
  produce : ∀ x ∈ d.produce, Text.OneLine x
  params : ∀ p ∈ d.params, p.OneLine
  responses : ∀ r ∈ d.responses, Text.OneLine r.schema ∧ Text.OneLine r.type
  extra : ∀ x ∈ d.extra, Text.OneLine x
  routers : ∀ r ∈ d.routers, Text.OneLine r.path ∧ Text.OneLine r.method

section Writing

theorem oneLine_writeOptional {key : String} (hkey : Text.OneLine key) (value : Option String) :
    (∀ line ∈ writeOptional key value, Text.OneLine line) ↔ ∀ x ∈ value, Text.OneLine x := by
  have hmark : Text.OneLine "// @" ∧ Text.OneLine " " := by decide
  cases value with
  | none => simp [writeOptional]
  | some text =>
    rw [writeOptional]
    split
    · rename_i hempty
      rw [String.isEmpty_iff.1 hempty]
      simp [show Text.OneLine "" by decide]
    · simp [hmark, hkey]

theorem oneLine_writeMedia {key : String} (hkey : Text.OneLine key) (media : List String) :
    (∀ line ∈ writeMedia key media, Text.OneLine line) ↔ ∀ x ∈ media, Text.OneLine x := by
  have hmark : Text.OneLine "// @" ∧ Text.OneLine " " := by decide
  have hlist : (∀ x ∈ media, Text.OneLine x) ↔ ∀ x ∈ mediaList media, Text.OneLine x :=
    forall_congr' fun x ↦ by rw [mem_mediaList]
  rw [writeMedia.eq_def, hlist]
  split
  · rename_i hnil
    simp [hnil]
  · rw [List.forall_mem_singleton, oneLine_append, oneLine_append, oneLine_append,
      oneLine_intercalate]
    simp [hmark, hkey]

theorem oneLine_writeParam {p : ParamDoc} : Text.OneLine (writeParam p) ↔ p.OneLine := by
  have hmarks : Text.OneLine "// @Param " ∧ Text.OneLine " " ∧ Text.OneLine " \"" ∧
      Text.OneLine "\"" := by decide
  have hkind : Text.OneLine p.kind.text := by cases p.kind <;> decide
  have hflag : Text.OneLine (writeFlag p.required) := by cases p.required <;> decide
  unfold writeParam
  simp only [oneLine_append, hmarks, hkind, hflag, true_and, and_true]
  split
  -- Without a description the name is written in its place.
  · rename_i hempty
    have hdescription : Text.OneLine p.description := by
      rw [String.isEmpty_iff.1 hempty]
      decide
    exact ⟨fun h ↦ ⟨h.2, h.1.2, hdescription⟩, fun h ↦ ⟨⟨h.name, h.type⟩, h.name⟩⟩
  · exact ⟨fun h ↦ ⟨h.1.1, h.1.2, h.2⟩, fun h ↦ ⟨⟨h.name, h.type⟩, h.description⟩⟩

theorem oneLine_writeResponse {r : ResponseDoc} :
    Text.OneLine (writeResponse r) ↔ Text.OneLine r.schema ∧ Text.OneLine r.type := by
  have hmarks : Text.OneLine "// @" ∧ Text.OneLine " " := by decide
  have hword : Text.OneLine (if r.isSuccess then "Success" else "Failure") := by
    split <;> decide
  have hstatus := (solid_repr r.status).oneLine
  unfold writeResponse
  simp [hmarks, hword, hstatus]

theorem oneLine_writeRouter {r : RouterDoc} :
    Text.OneLine (writeRouter r) ↔ Text.OneLine r.path ∧ Text.OneLine r.method := by
  have hmarks : Text.OneLine "// @Router " ∧ Text.OneLine " [" ∧ Text.OneLine "]" := by decide
  unfold writeRouter
  simp [hmarks]

/-- The lines of a document are lines exactly when its texts stay on one. -/
theorem oneLine_write_iff {d : EndpointDoc} :
    (∀ line ∈ d.write, Text.OneLine line) ↔ d.OneLine := by
  have hmarks : Text.OneLine "// @Summary " ∧ Text.OneLine "// @Description " ∧
      Text.OneLine "// " := by decide
  simp only [write, List.forall_mem_append, List.forall_mem_singleton, List.forall_mem_map,
    List.mem_mergeSort, oneLine_writeOptional (show Text.OneLine "ID" by decide),
    oneLine_writeOptional (show Text.OneLine "Tags" by decide),
    oneLine_writeMedia (show Text.OneLine "Accept" by decide),
    oneLine_writeMedia (show Text.OneLine "Produce" by decide), oneLine_writeParam,
    oneLine_writeResponse, oneLine_writeRouter, oneLine_append, hmarks, true_and]
  constructor
  · rintro ⟨⟨⟨⟨⟨⟨⟨⟨⟨hsummary, hid⟩, htags⟩, hdescriptions⟩, haccept⟩, hproduce⟩, hparams⟩,
      hresponses⟩, hextra⟩, hrouters⟩
    exact ⟨hsummary, hid, htags, hdescriptions, haccept, hproduce, hparams, hresponses, hextra,
      hrouters⟩
  · intro h
    exact ⟨⟨⟨⟨⟨⟨⟨⟨⟨h.summary, h.id⟩, h.tags⟩, h.descriptions⟩, h.accept⟩, h.produce⟩, h.params⟩,
      h.responses⟩, h.extra⟩, h.routers⟩

end Writing

section Reading

theorem oneLine_trim {s : String} (h : Text.OneLine s) : Text.OneLine (trim s) :=
  h.of_subset fun _ ↦ mem_of_mem_trim

theorem oneLine_dropLeading {s : String} (h : Text.OneLine s) (p : Char → Bool) :
    Text.OneLine (dropLeading p s) := by
  refine h.of_subset fun c hc ↦ ?_
  rw [dropLeading, String.toList_ofList] at hc
  exact (List.dropWhile_suffix p).subset hc

theorem oneLine_bare {raw : String} (h : Text.OneLine raw) : Text.OneLine (bare raw) := by
  unfold bare
  exact oneLine_trim (oneLine_dropLeading (oneLine_trim h) _)

theorem subset_of_mem_fieldsOf {sep : Char} {cs field : List Char} (h : field ∈ fieldsOf sep cs) :
    field ⊆ cs := by
  induction cs generalizing field with
  | nil =>
    rw [fieldsOf, List.mem_singleton] at h
    simp [h]
  | cons c cs ih =>
    rw [fieldsOf] at h
    split at h
    · rcases List.mem_cons.1 h with rfl | h
      · simp
      · exact List.subset_cons_of_subset c (ih h)
    · cases hfs : fieldsOf sep cs with
      | nil =>
        rw [hfs, List.mem_singleton] at h
        simp [h]
      | cons f fs =>
        rw [hfs] at ih h
        rcases List.mem_cons.1 h with rfl | h
        · exact List.cons_subset_cons c (ih List.mem_cons_self)
        · exact List.subset_cons_of_subset c (ih (List.mem_cons_of_mem _ h))

theorem oneLine_of_mem_readMedia {list item : String} (h : Text.OneLine list)
    (hitem : item ∈ readMedia list) : Text.OneLine item := by
  simp only [readMedia, fields, List.mem_filter, List.mem_map] at hitem
  obtain ⟨⟨field, ⟨cs, hcs, rfl⟩, rfl⟩, -⟩ := hitem
  refine oneLine_trim (h.of_subset ?_)
  rw [String.toList_ofList]
  exact subset_of_mem_fieldsOf hcs

inductive Item.OneLine : Item → Prop
  | summary {text : String} : Text.OneLine text → OneLine (.summary text)
  | id {text : String} : Text.OneLine text → OneLine (.id text)
  | tags {text : String} : Text.OneLine text → OneLine (.tags text)
  | description {text : String} : Text.OneLine text → OneLine (.description text)
  | accept {media : List String} : (∀ x ∈ media, Text.OneLine x) → OneLine (.accept media)
  | produce {media : List String} : (∀ x ∈ media, Text.OneLine x) → OneLine (.produce media)
  | param {p : ParamDoc} : p.OneLine → OneLine (.param p)
  | response {r : ResponseDoc} : Text.OneLine r.schema → Text.OneLine r.type → OneLine (.response r)
  | router {r : RouterDoc} : Text.OneLine r.path → Text.OneLine r.method → OneLine (.router r)
  | extra {line : String} : Text.OneLine line → OneLine (.extra line)
  | nothing : OneLine .nothing

theorem oneLine_of_word {s : String} (h : ∀ c ∈ s.toList, isWord c) : Text.OneLine s :=
  fun hmem ↦ absurd (h _ hmem) (by decide)

theorem Item.oneLine_response {text : String} {r : ResponseDoc} (h : readResponse? text = some r) :
    (Item.response r).OneLine := by
  obtain ⟨word, -, hword, hschema⟩ := (readResponse?_legible h).schema
  refine .response ?_ (readResponse?_legible h).oneLine
  rw [hschema, oneLine_append, oneLine_append]
  exact ⟨⟨by decide, oneLine_of_word hword⟩, by decide⟩

theorem Item.oneLine_ofLine {line : String} (h : Text.OneLine line) : (ofLine line).OneLine := by
  have hrest : Text.OneLine (remainder line) := oneLine_trim (oneLine_dropLeading h _)
  unfold ofLine ofKeyword
  split
  · exact .summary hrest
  · exact .id hrest
  · exact .tags hrest
  · exact .description hrest
  · exact .accept fun x ↦ oneLine_of_mem_readMedia hrest
  · exact .produce fun x ↦ oneLine_of_mem_readMedia hrest
  · cases hparam : readParam? (remainder line) with
    | none => exact .extra h
    | some p =>
      obtain ⟨hp, hsub⟩ := readParam?_eq_some hparam
      exact .param ⟨hp.name.oneLine, hp.type.oneLine, hrest.of_subset hsub⟩
  · cases hresponse : readResponse? (remainder line) with
    | none => exact .extra h
    | some r => exact oneLine_response hresponse
  · cases hresponse : readResponse? (remainder line) with
    | none => exact .extra h
    | some r => exact oneLine_response hresponse
  · cases hrouter : readRouter? (remainder line) with
    | none => exact .nothing
    | some r =>
      have hr := readRouter?_legible hrouter
      exact .router hr.path.oneLine (oneLine_of_word hr.word)
  · split
    · exact .extra h
    · exact .description h

theorem oneLine_empty : empty.OneLine := by
  refine ⟨by decide, ?_, ?_, ?_, ?_, ?_, ?_, ?_, ?_, ?_⟩ <;> simp [empty]

theorem oneLine_putParam {p : ParamDoc} {params : List ParamDoc} (hp : p.OneLine)
    (h : ∀ q ∈ params, q.OneLine) : ∀ q ∈ putParam p params, q.OneLine := by
  induction params with
  | nil => simpa [putParam] using hp
  | cons q params ih =>
    rw [List.forall_mem_cons] at h
    rw [putParam]
    split
    · refine List.forall_mem_cons.2 ⟨?_, h.2⟩
      rw [refine]
      split <;> split
      · exact ⟨h.1.name, hp.type, hp.description⟩
      · exact ⟨h.1.name, h.1.type, hp.description⟩
      · exact ⟨h.1.name, hp.type, h.1.description⟩
      · exact h.1
    · exact List.forall_mem_cons.2 ⟨h.1, ih h.2⟩

theorem OneLine.addTo {doc : EndpointDoc} (hdoc : doc.OneLine) {i : Item} (hi : i.OneLine) :
    (i.addTo doc).OneLine := by
  cases hi with
  | summary h =>
    rw [Item.addTo]
    split
    · exact { hdoc with summary := h }
    · exact hdoc
  | id h =>
    refine { hdoc with id := ?_ }
    rintro x ⟨⟩
    cases hid : doc.id with
    | none => exact h
    | some known => exact hdoc.id known hid
  | tags h =>
    refine { hdoc with tags := ?_ }
    rintro x ⟨⟩
    cases htags : doc.tags with
    | none => exact h
    | some known => exact hdoc.tags known htags
  | description h =>
    rw [Item.addTo, addDescription]
    split
    · exact hdoc
    · refine { hdoc with descriptions := List.forall_mem_append.2 ⟨hdoc.descriptions, ?_⟩ }
      exact List.forall_mem_singleton.2 h
  | accept h => exact { hdoc with accept := List.forall_mem_append.2 ⟨hdoc.accept, h⟩ }
  | produce h => exact { hdoc with produce := List.forall_mem_append.2 ⟨hdoc.produce, h⟩ }
  | param h => exact { hdoc with params := oneLine_putParam h hdoc.params }
  | response hschema htype =>
    rw [Item.addTo, addResponse]
    split
    · exact hdoc
    · refine { hdoc with responses := List.forall_mem_append.2 ⟨hdoc.responses, ?_⟩ }
      exact List.forall_mem_singleton.2 ⟨hschema, htype⟩
  | router hpath hmethod =>
    rw [Item.addTo, addRouter]
    split
    · exact hdoc
    · refine { hdoc with routers := List.forall_mem_append.2 ⟨hdoc.routers, ?_⟩ }
      exact List.forall_mem_singleton.2 ⟨hpath, hmethod⟩
  | extra h =>
    refine { hdoc with extra := List.forall_mem_append.2 ⟨hdoc.extra, ?_⟩ }
    exact List.forall_mem_singleton.2 h
  | nothing => exact hdoc

theorem OneLine.addAll {doc : EndpointDoc} (hdoc : doc.OneLine) {is : List Item}
    (h : ∀ i ∈ is, i.OneLine) : (EndpointDoc.addAll doc is).OneLine := by
  induction is generalizing doc with
  | nil => exact hdoc
  | cons i is ih =>
    rw [List.forall_mem_cons] at h
    rw [addAll_cons]
    exact ih (hdoc.addTo h.1) h.2

/-- What is read from lines stays on one line each. -/
theorem oneLine_read {lines : List String} (h : ∀ line ∈ lines, Text.OneLine line) :
    (read lines).OneLine := by
  rw [read_eq]
  have hitems : ∀ i ∈ items lines, i.OneLine := by
    intro i hi
    obtain ⟨line, hline, hitem⟩ := List.mem_filterMap.1 hi
    rw [item?] at hitem
    split at hitem
    · cases hitem
    · obtain rfl := Option.some.inj hitem
      exact Item.oneLine_ofLine (oneLine_bare (h line hline))
  exact oneLine_empty.addAll hitems

end Reading

/-- No text runs over a line that comes into a block from code: the summary and the tags where the
block has none, the media types, the names of the parameters with what is said of those that nobody
described, and the routes. -/
structure Unbroken (derived existing : EndpointDoc) : Prop where
  summary : existing.summary = "" → Text.OneLine derived.summary
  tags : existing.tags = none → ∀ x ∈ derived.tags, Text.OneLine x
  accept : ∀ x ∈ derived.accept, Text.OneLine x
  produce : ∀ x ∈ derived.produce, Text.OneLine x
  params : ∀ p ∈ derived.params,
    Text.OneLine p.name ∧ Text.OneLine (describe existing p).description
  routers : ∀ r ∈ derived.routers, Text.OneLine r.path ∧ Text.OneLine r.method

theorem name_describe (existing : EndpointDoc) (p : ParamDoc) :
    (describe existing p).name = p.name ∧ (describe existing p).type = p.type := by
  rw [describe]
  split
  · split <;> exact ⟨rfl, rfl⟩
  · exact ⟨rfl, rfl⟩

theorem oneLine_merge_iff {derived existing : EndpointDoc} (hd : derived.Derived)
    (he : existing.OneLine) : (merge derived existing).OneLine ↔ Unbroken derived existing := by
  rw [merge_eq, hd.id, hd.descriptions, hd.extra]
  constructor
  · intro h
    refine ⟨fun hsummary ↦ ?_, fun htags x hx ↦ ?_, ?_, ?_, fun p hp ↦ ?_, h.routers⟩
    · simpa [hsummary] using h.summary
    · exact h.tags x (by simpa [htags] using hx)
    · exact (List.forall_mem_append.1 h.accept).1
    · exact (List.forall_mem_append.1 h.produce).1
    · have hline := h.params _ (mem_keepNew_of_mem ParamDoc.key (List.mem_map_of_mem hp) _)
      exact ⟨(name_describe existing p).1 ▸ hline.name, hline.description⟩
  · intro h
    refine ⟨?_, ?_, ?_, ?_, ?_, ?_, ?_, ?_, ?_, h.routers⟩
    · dsimp only
      split
      · rename_i hempty
        exact h.summary (String.isEmpty_iff.1 hempty)
      · exact he.summary
    · exact forall_mem_orElse he.id (by simp)
    -- A hand-written tag hides the derived one, so that nothing is asked of the latter.
    · dsimp only
      cases htags : existing.tags with
      | none => exact h.tags htags
      | some text =>
        rw [Option.orElse_some, ← htags]
        exact he.tags
    · exact he.descriptions
    · exact List.forall_mem_append.2 ⟨h.accept, he.accept⟩
    · exact List.forall_mem_append.2 ⟨h.produce, he.produce⟩
    · intro p hp
      rcases mem_of_mem_keepNew _ hp with hp | hp
      · obtain ⟨q, hq, rfl⟩ := List.mem_map.1 hp
        obtain ⟨hname, htype⟩ := name_describe existing q
        exact ⟨hname ▸ (h.params q hq).1, htype ▸ hd.params q hq, (h.params q hq).2⟩
      · exact he.params p hp
    · intro r hr
      exact (mem_of_mem_keepNew _ hr).elim (hd.responses r) (he.responses r)
    · intro x hx
      exact (mem_of_mem_keepNew _ hx).elim (by simp) (he.extra x)

/-- The lines of an updated block are lines exactly when no text from code breaks them. -/
theorem oneLine_update_iff {derived : EndpointDoc} (hd : derived.Derived) {lines : List String}
    (h : ∀ line ∈ lines, Text.OneLine line) :
    (∀ line ∈ derived.update lines, Text.OneLine line) ↔ Unbroken derived (read lines) := by
  rw [update, oneLine_write_iff, oneLine_merge_iff hd (oneLine_read h)]

end EndpointDoc

end HandlerDocs
