import HandlerDocs.Proofs.EndpointDoc.Derived

namespace HandlerDocs.EndpointDoc

open Text

namespace Item

def isListed : Item → Bool
  | .summary _ | .id _ | .tags _ | .description _ => false
  | _ => true

theorem addTo_of_isListed {i : Item} (h : i.isListed) (doc : EndpointDoc) :
    (i.addTo doc).summary = doc.summary ∧ (i.addTo doc).id = doc.id ∧
      (i.addTo doc).tags = doc.tags ∧ (i.addTo doc).descriptions = doc.descriptions := by
  cases i with
  | summary | id | tags | description => cases h
  | accept | produce | param | extra | nothing => exact ⟨rfl, rfl, rfl, rfl⟩
  | response r =>
    rw [addTo, addResponse]
    split <;> exact ⟨rfl, rfl, rfl, rfl⟩
  | router r =>
    rw [addTo, addRouter]
    split <;> exact ⟨rfl, rfl, rfl, rfl⟩

theorem mem_extra_addTo {i : Item} {doc : EndpointDoc} {x : String} :
    x ∈ (i.addTo doc).extra ↔ x ∈ doc.extra ∨ i = .extra x := by
  cases i with
  | extra line => simp [addTo, addExtra, eq_comm]
  | id | tags | accept | produce | param | nothing => simp [addTo, addParam]
  | summary | description | response | router =>
    simp only [addTo, addDescription, addResponse, addRouter]
    split <;> simp

end Item

section AddAll

variable {doc : EndpointDoc} {is : List Item}

theorem addAll_of_isListed (h : ∀ i ∈ is, i.isListed) :
    (addAll doc is).summary = doc.summary ∧ (addAll doc is).id = doc.id ∧
      (addAll doc is).tags = doc.tags ∧ (addAll doc is).descriptions = doc.descriptions := by
  induction is generalizing doc with
  | nil => exact ⟨rfl, rfl, rfl, rfl⟩
  | cons i is ih =>
    rw [List.forall_mem_cons] at h
    obtain ⟨hsummary, hid, htags, hdescriptions⟩ := Item.addTo_of_isListed h.1 doc
    have hmore := @ih (i.addTo doc) h.2
    rwa [hsummary, hid, htags, hdescriptions] at hmore

theorem mem_extra_addAll {x : String} :
    x ∈ (addAll doc is).extra ↔ x ∈ doc.extra ∨ .extra x ∈ is := by
  induction is generalizing doc with
  | nil => simp
  | cons i is ih =>
    rw [addAll_cons, ih, Item.mem_extra_addTo, List.mem_cons, or_assoc, @eq_comm _ i]

end AddAll

theorem items_writeOptional_trim {key : String} {item : String → Item}
    (hitem : ∀ x, item? ("// @" ++ key ++ " " ++ x) = some (item (trim x)))
    (value : Option String) :
    items (writeOptional key value) =
      (((value.filter fun x ↦ !x.isEmpty).map trim).map item).toList := by
  cases value with
  | none => rfl
  | some x =>
    by_cases hempty : x = ""
    · subst hempty
      rfl
    · rw [writeOptional, if_neg (by simpa using hempty), items, List.filterMap_cons_some (hitem x),
        Option.filter_some_pos (by simpa using hempty)]
      rfl

def listedLines (d : EndpointDoc) : List String :=
  writeMedia "Accept" d.accept ++ writeMedia "Produce" d.produce ++
  (d.params.mergeSort fun p q ↦ decide (p.kind.rank ≤ q.kind.rank)).map writeParam ++
  (d.responses.mergeSort fun r s ↦ decide (r.status ≤ s.status)).map writeResponse ++
  d.extra.map ("// " ++ ·) ++ d.routers.map writeRouter

theorem write_eq_append_listedLines (d : EndpointDoc) : d.write =
    ["// @Summary " ++ d.summary] ++ writeOptional "ID" d.id ++ writeOptional "Tags" d.tags ++
      d.descriptions.map ("// @Description " ++ ·) ++ listedLines d := by
  simp only [write, listedLines, List.append_assoc]

theorem Item.isListed_getD {α : Type} {entry : α → Item} {other : Item}
    (hentry : ∀ a, (entry a).isListed) (hother : other.isListed) (value : Option α) :
    ((value.map entry).getD other).isListed := by
  cases value with
  | none => exact hother
  | some a => exact hentry a

theorem isListed_writeParam {p : ParamDoc} {i : Item} (h : item? (writeParam p) = some i) :
    i.isListed := by
  have hline : writeParam p = "// @" ++ "Param" ++ " " ++ (p.name ++ (" " ++ (p.kind.text ++ (" " ++
      (p.type ++ (" " ++ (writeFlag p.required ++ (" \"" ++
        ((if p.description.isEmpty then p.name else p.description) ++ "\""))))))))) := by
    unfold writeParam
    apply String.toList_inj.1
    simp only [String.toList_append, List.append_assoc]
    rfl
  -- Its columns may be anything: the line is read as some parameter, or kept as it is.
  rw [hline, item?_at (by decide), show lower ("@" ++ "Param") = "@param" by decide,
    Item.ofKeyword_param] at h
  rw [← Option.some.inj h]
  exact Item.isListed_getD (fun _ ↦ rfl) rfl _

theorem isListed_writeResponse {r : ResponseDoc} {i : Item} (h : item? (writeResponse r) = some i) :
    i.isListed := by
  rw [writeResponse_eq] at h
  split at h
  · rw [item?_at (by decide), show lower ("@" ++ "Success") = "@success" by decide,
      Item.ofKeyword_success] at h
    rw [← Option.some.inj h]
    exact Item.isListed_getD (fun _ ↦ rfl) rfl _
  · rw [item?_at (by decide), show lower ("@" ++ "Failure") = "@failure" by decide,
      Item.ofKeyword_failure] at h
    rw [← Option.some.inj h]
    exact Item.isListed_getD (fun _ ↦ rfl) rfl _

/-- Whatever the entries are, their lines give no text of the block. -/
theorem isListed_of_mem_items {d : EndpointDoc} (h : ∀ x ∈ d.extra, IsExtra x) :
    ∀ i ∈ items (listedLines d), i.isListed := by
  intro i hi
  obtain ⟨line, hline, hitem⟩ := List.mem_filterMap.1 hi
  have hmedia {key : String} {item : List String → Item} {media : List String}
      (hkey : ∀ x, item? ("// @" ++ key ++ " " ++ x) = some (item (readMedia (trim x))))
      (hlisted : ∀ media, (item media).isListed) (hmem : line ∈ writeMedia key media) :
      i.isListed := by
    rw [writeMedia.eq_def] at hmem
    split at hmem
    · simp at hmem
    · rw [List.mem_singleton.1 hmem, hkey] at hitem
      rw [← Option.some.inj hitem]
      exact hlisted _
  simp only [listedLines, List.mem_append, List.mem_map] at hline
  rcases hline with ((((hline | hline) | ⟨p, -, rfl⟩) | ⟨r, -, rfl⟩) | ⟨x, hx, rfl⟩) | ⟨r, -, rfl⟩
  · exact hmedia item?_accept (fun _ ↦ rfl) hline
  · exact hmedia item?_produce (fun _ ↦ rfl) hline
  · exact isListed_writeParam hitem
  · exact isListed_writeResponse hitem
  · rw [item?_extra (h x hx)] at hitem
    rw [← Option.some.inj hitem]
    rfl
  · rw [item?_router] at hitem
    rw [← Option.some.inj hitem]
    exact Item.isListed_getD (fun _ ↦ rfl) rfl _

/-- What is read from a written block, up to the entries of its lists. -/
theorem read_write_eq_addAll_listed {d : EndpointDoc} (htrim : ∀ x ∈ d.descriptions, Trimmed x)
    (hdistinct : d.descriptions.Nodup) :
    read d.write = addAll
      { summary := trim d.summary
        id := (d.id.filter fun x ↦ !x.isEmpty).map trim
        tags := (d.tags.filter fun x ↦ !x.isEmpty).map trim
        descriptions := d.descriptions } (items (listedLines d)) := by
  have hsummary : items ["// @Summary " ++ d.summary] = [.summary (trim d.summary)] := by
    rw [items, List.filterMap_cons_some (item?_summary _), List.filterMap_nil]
  have hdescriptions : items (d.descriptions.map ("// @Description " ++ ·)) =
      d.descriptions.map .description :=
    items_map fun x hx ↦ by
      have hx : trim x = x := htrim x hx
      rw [item?_description, hx]
  rw [read_eq, write_eq_append_listedLines]
  simp only [items_append, addAll_append, hsummary, hdescriptions,
    items_writeOptional_trim item?_id, items_writeOptional_trim item?_tags]
  rw [addAll_cons, addAll_nil, addAll_id rfl, addAll_tags rfl,
    addAll_descriptions _ (by simpa [Item.addTo, empty] using hdistinct)]
  rfl

/-- The texts and the further lines of a written block are read again. -/
theorem read_write_texts {d : EndpointDoc} (htrim : ∀ x ∈ d.descriptions, Trimmed x)
    (hdistinct : d.descriptions.Nodup) (hextra : ∀ x ∈ d.extra, IsExtra x) :
    (read d.write).summary = trim d.summary ∧
      (read d.write).id = (d.id.filter fun x ↦ !x.isEmpty).map trim ∧
      (read d.write).tags = (d.tags.filter fun x ↦ !x.isEmpty).map trim ∧
      (read d.write).descriptions = d.descriptions ∧
      ∀ x ∈ d.extra, x ∈ (read d.write).extra := by
  rw [read_write_eq_addAll_listed htrim hdistinct]
  obtain ⟨hsummary, hid, htags, hdescriptions⟩ :=
    addAll_of_isListed (isListed_of_mem_items hextra)
  refine ⟨hsummary, hid, htags, hdescriptions, fun x hx ↦ mem_extra_addAll.2 (.inr ?_)⟩
  have hline : "// " ++ x ∈ listedLines d := by
    have hmem : "// " ++ x ∈ d.extra.map ("// " ++ ·) := List.mem_map_of_mem hx
    simp only [listedLines, List.mem_append]
    tauto
  exact List.mem_filterMap.2 ⟨_, hline, item?_extra (hextra x hx)⟩

/-- What was written by hand in one block is still there in another: its descriptions come first
and in order, the lines of other attributes are kept, and so are the texts that are not blank. -/
structure Survives (lines later : List String) : Prop where
  descriptions : (read lines).descriptions <+: (read later).descriptions
  extra : ∀ x ∈ (read lines).extra, x ∈ (read later).extra
  summary : (read lines).summary ≠ "" → (read later).summary = (read lines).summary
  id : ∀ x ∈ (read lines).id, x ≠ "" → (read later).id = some x
  tags : ∀ x ∈ (read lines).tags, x ≠ "" → (read later).tags = some x

namespace Survives

theorem refl (lines : List String) : Survives lines lines :=
  ⟨List.prefix_rfl, fun _ hx ↦ hx, fun _ ↦ rfl, fun _ hx _ ↦ hx, fun _ hx _ ↦ hx⟩

theorem trans {lines later last : List String} (h : Survives lines later)
    (h' : Survives later last) : Survives lines last where
  descriptions := h.descriptions.trans h'.descriptions
  extra x hx := h'.extra x (h.extra x hx)
  summary hne := by
    have hsummary := h.summary hne
    rw [← hsummary] at hne
    exact (h'.summary hne).trans hsummary
  id x hx hne := h'.id x (h.id x hx hne) hne
  tags x hx hne := h'.tags x (h.tags x hx hne) hne

end Survives

theorem filter_map_trim {value derived : Option String} {x : String} (hx : x ∈ value) (hne : x ≠ "")
    (htrim : Trimmed x) :
    (((value.orElse fun _ ↦ derived).filter fun x ↦ !x.isEmpty).map trim) = some x := by
  obtain rfl : value = some x := hx
  have htrim : trim x = x := htrim
  rw [Option.orElse_some, Option.filter_some_pos (by simpa using hne), Option.map_some, htrim]

/-- One update keeps what was written by hand, whatever the code tells about the handler. -/
theorem survives_update {derived : EndpointDoc} (hd : derived.Derived) (lines : List String) :
    Survives lines (derived.update lines) := by
  have hread : (read lines).Legible := (fullyLegible_read lines).toLegible
  have hmerge := merge_eq derived (read lines)
  rw [hd.descriptions, hd.extra] at hmerge
  unfold update
  -- Nothing derived comes before what is there, so the block can be read field by field.
  generalize merge derived (read lines) = merged at hmerge
  have hdescriptions : merged.descriptions = (read lines).descriptions := by
    rw [hmerge]
    rfl
  have hextra (x : String) : x ∈ merged.extra ↔ x ∈ (read lines).extra := by
    rw [hmerge]
    simpa using mem_map_keepNew (fun x ↦ x) [] (read lines).extra (k := x)
  obtain ⟨hsummary, hid, htags, htexts, hlines⟩ := read_write_texts
    (hdescriptions ▸ hread.descriptions) (hdescriptions ▸ hread.distinctDescriptions)
    fun x hx ↦ hread.extra x ((hextra x).1 hx)
  refine ⟨?_, fun x hx ↦ hlines x ((hextra x).2 hx), fun hne ↦ ?_, fun x hx hne ↦ ?_,
    fun x hx hne ↦ ?_⟩
  · rw [htexts, hdescriptions]
  · have htrim : trim (read lines).summary = (read lines).summary := hread.summary
    have hkept : merged.summary = (read lines).summary := by
      rw [hmerge]
      exact if_neg (by simpa using hne)
    rw [hsummary, hkept, htrim]
  · rw [hid, hmerge]
    exact filter_map_trim hx hne (hread.id x hx)
  · rw [htags, hmerge]
    exact filter_map_trim hx hne (hread.tags x hx)

/-- However often a block is updated, and whatever the code tells each time, it keeps what was
written by hand. -/
theorem handwritten_survives_updates {docs : List EndpointDoc} (h : ∀ d ∈ docs, d.Built)
    (lines : List String) :
    Survives lines (docs.foldl (fun lines derived ↦ derived.update lines) lines) := by
  induction docs generalizing lines with
  | nil => exact .refl lines
  | cons derived docs ih =>
    rw [List.forall_mem_cons] at h
    exact (survives_update h.1.derived lines).trans (ih h.2 _)

theorem handwritten_survives_book :
    let first := ((start "GetBook" "/api").addRoute "/api/books/\x7bid\x7d" "get").emit
      (.param .query "page size" (.named "string") false (some "1\n2"))
    let second := ((start "GetBook" "/v2").emit (.accept "")).emit
      (.response 200 (.named "[]*Book"))
    let lines := ["// Finds a book.", "// @Summary Find", "// @Security ApiKeyAuth",
      "// @Description", "// @Param token header string true \"Token\""]
    (first.Built ∧ second.Built) ∧
      (read lines).descriptions = ["Finds a book.", ""] ∧
      (read lines).extra = ["@Security ApiKeyAuth", "@Param token header string true \"Token\""] ∧
      Survives lines (second.update (first.update lines)) := by
  intro first second lines
  have hfirst : first.Built := .emit _ (.addRoute _ _ (.start _ _))
  have hsecond : second.Built := .emit _ (.emit _ (.start _ _))
  have hbuilt : ∀ d ∈ [first, second], d.Built :=
    List.forall_mem_cons.2 ⟨hfirst, List.forall_mem_singleton.2 hsecond⟩
  exact ⟨⟨hfirst, hsecond⟩, by decide +kernel, by decide +kernel,
    handwritten_survives_updates hbuilt lines⟩

end HandlerDocs.EndpointDoc
