import HandlerDocs.EndpointDoc.Merge
import HandlerDocs.Proofs.EndpointDoc.Item
import HandlerDocs.Proofs.EndpointDoc.Order

namespace HandlerDocs.ParamDoc

def key (p : ParamDoc) : ParamKind × String :=
  (p.kind, p.name)

theorem sameKey_iff {p q : ParamDoc} : p.sameKey q ↔ p.key = q.key := by
  simp [sameKey, key]

end HandlerDocs.ParamDoc

namespace HandlerDocs.EndpointDoc

open Text

structure IsExtra (line : String) : Prop where
  trimmed : Trimmed line
  marked : startsWith line "@"
  kept : (read [line]).extra = [line]

theorem comment_at (key text : String) :
    "// @" ++ key ++ " " ++ text = "// " ++ ("@" ++ key ++ " " ++ text) := by
  rw [show "// @" = "// " ++ "@" from rfl]
  simp only [String.append_assoc]

theorem item?_at {key : String} (hkey : Solid ("@" ++ key)) (text : String) :
    item? ("// @" ++ key ++ " " ++ text) =
      some (Item.ofKeyword (lower ("@" ++ key)) (trim text)
        (trim ("@" ++ key ++ " " ++ text))) := by
  rw [comment_at, item?_keyword hkey]

theorem item?_summary (text : String) :
    item? ("// @Summary " ++ text) = some (.summary (trim text)) :=
  item?_at (by decide : Solid ("@" ++ "Summary")) text

theorem item?_id (text : String) : item? ("// @" ++ "ID" ++ " " ++ text) = some (.id (trim text)) :=
  item?_at (by decide) text

theorem item?_tags (text : String) :
    item? ("// @" ++ "Tags" ++ " " ++ text) = some (.tags (trim text)) :=
  item?_at (by decide) text

theorem item?_description (text : String) :
    item? ("// @Description " ++ text) = some (.description (trim text)) :=
  item?_at (by decide : Solid ("@" ++ "Description")) text

theorem item?_accept (text : String) :
    item? ("// @" ++ "Accept" ++ " " ++ text) = some (.accept (readMedia (trim text))) :=
  item?_at (by decide) text

theorem item?_produce (text : String) :
    item? ("// @" ++ "Produce" ++ " " ++ text) = some (.produce (readMedia (trim text))) :=
  item?_at (by decide) text

theorem writeParam_eq {p : ParamDoc} (h : p.Legible) :
    writeParam p = "// @" ++ "Param" ++ " " ++ paramText p := by
  have hdesc : p.description.isEmpty = false := by simpa using h.described
  unfold writeParam paramText
  dsimp only
  rw [hdesc, if_neg Bool.false_ne_true, ← String.toList_inj]
  simp only [String.toList_append, List.append_assoc]
  rfl

theorem item?_param {p : ParamDoc} (h : p.Legible) : item? (writeParam p) = some (.param p) := by
  have htrim : trim (paramText p) = paramText p := trimmed_paramText h
  rw [writeParam_eq h, item?_at (by decide), htrim,
    show lower ("@" ++ "Param") = "@param" by decide, Item.ofKeyword_param, readParam?_paramText h]
  rfl

theorem writeResponse_eq (r : ResponseDoc) : writeResponse r =
    "// @" ++ (if r.isSuccess then "Success" else "Failure") ++ " " ++ responseText r := by
  unfold writeResponse responseText
  simp only [String.append_assoc]

theorem item?_response {r : ResponseDoc} (h : r.Legible) :
    item? (writeResponse r) = some (.response r) := by
  have htrim : trim (responseText r) = responseText r := trimmed_responseText h
  have hread := readResponse?_responseText h
  rw [writeResponse_eq]
  split
  · rw [item?_at (by decide), htrim, show lower ("@" ++ "Success") = "@success" by decide,
      Item.ofKeyword_success, hread]
    rfl
  · rw [item?_at (by decide), htrim, show lower ("@" ++ "Failure") = "@failure" by decide,
      Item.ofKeyword_failure, hread]
    rfl

theorem item?_router (r : RouterDoc) : item? (writeRouter r) =
    some (((readRouter? (trim (routerText r))).map .router).getD .nothing) := by
  have hline : writeRouter r = "// @" ++ "Router" ++ " " ++ routerText r := by
    unfold writeRouter routerText
    rw [← String.toList_inj]
    simp only [String.toList_append, List.append_assoc]
    rfl
  rw [hline, item?_at (by decide)]
  rfl

theorem bare_of_marked {line : String} (htrim : Trimmed line) (hmark : startsWith line "@") :
    bare line = line := by
  have hslash : line.toList.dropWhile (· = '/') = line.toList := by
    refine dropWhile_eq_self.2 fun c hc ↦ ?_
    obtain ⟨rest, hrest⟩ := List.isPrefixOf_iff_prefix.1 hmark
    rw [← hrest] at hc
    obtain rfl : '@' = c := by simpa using hc
    decide
  have htrim : trim line = line := htrim
  rw [bare, htrim, dropLeading, hslash, String.ofList_toList, htrim]

theorem ne_empty_of_marked {line : String} (hmark : startsWith line "@") : line ≠ "" := by
  rintro rfl
  exact absurd hmark (by decide)

theorem items_of_marked {line : String} (htrim : Trimmed line) (hmark : startsWith line "@") :
    items [line] = [Item.ofLine line] := by
  have hline : item? line = some (Item.ofLine line) := by
    rw [item?, bare_of_marked htrim hmark, if_neg (by simpa using ne_empty_of_marked hmark)]
  rw [items, List.filterMap_cons_some hline, List.filterMap_nil]

theorem ofLine_of_isExtra {line : String} (h : IsExtra line) : Item.ofLine line = .extra line := by
  have hkept := h.kept
  rw [read_eq, items_of_marked h.trimmed h.marked, addAll_cons, addAll_nil] at hkept
  cases hline : Item.ofLine line <;> rw [hline] at hkept <;>
    simp [Item.addTo, addDescription, addParam, addResponse, addRouter, addExtra, empty] at hkept
  rw [hkept]

theorem item?_extra {line : String} (h : IsExtra line) :
    item? ("// " ++ line) = some (.extra line) := by
  have htrim : trim line = line := h.trimmed
  rw [item?, bare_comment, htrim, if_neg (by simpa using ne_empty_of_marked h.marked),
    ofLine_of_isExtra h]

theorem putParam_of_new {p : ParamDoc} {params : List ParamDoc}
    (h : p.key ∉ params.map ParamDoc.key) : putParam p params = params ++ [p] := by
  induction params with
  | nil => rfl
  | cons q params ih =>
    rw [List.map_cons, List.mem_cons, not_or] at h
    have hq : ¬ q.sameKey p := fun hqp ↦ h.1 (ParamDoc.sameKey_iff.1 hqp).symm
    rw [putParam, if_neg hq, ih h.2, List.cons_append]

theorem addResponse_of_new {r : ResponseDoc} {doc : EndpointDoc}
    (h : r.status ∉ doc.responses.map ResponseDoc.status) :
    doc.addResponse r = { doc with responses := doc.responses ++ [r] } := by
  rw [addResponse, if_neg (by simpa using h)]

theorem addResponse_of_mem {r : ResponseDoc} {doc : EndpointDoc}
    (h : r.status ∈ doc.responses.map ResponseDoc.status) : doc.addResponse r = doc := by
  rw [addResponse, if_pos (by simpa using h)]

section AddAll

variable (doc : EndpointDoc)

theorem addAll_descriptions {texts : List String} (h : (doc.descriptions ++ texts).Nodup) :
    addAll doc (texts.map .description) =
      { doc with descriptions := doc.descriptions ++ texts } := by
  induction texts generalizing doc with
  | nil => simp
  | cons text texts ih =>
    have hnew : text ∉ doc.descriptions := fun hmem ↦
      (List.nodup_append.1 h).2.2 text hmem text List.mem_cons_self rfl
    rw [List.map_cons, addAll_cons, Item.addTo, addDescription, if_neg (by simpa using hnew), ih]
    · simp
    · simpa using h

theorem addAll_params {params : List ParamDoc}
    (h : ((doc.params ++ params).map ParamDoc.key).Nodup) :
    addAll doc (params.map .param) = { doc with params := doc.params ++ params } := by
  induction params generalizing doc with
  | nil => simp
  | cons p params ih =>
    have hnew : p.key ∉ doc.params.map ParamDoc.key := fun hmem ↦ by
      rw [List.map_append, List.map_cons] at h
      exact (List.nodup_append.1 h).2.2 p.key hmem p.key List.mem_cons_self rfl
    rw [List.map_cons, addAll_cons, Item.addTo, addParam, putParam_of_new hnew, ih]
    · simp
    · simpa using h

theorem addAll_responses {responses : List ResponseDoc}
    (h : ((doc.responses ++ responses).map ResponseDoc.status).Nodup) :
    addAll doc (responses.map .response) =
      { doc with responses := doc.responses ++ responses } := by
  induction responses generalizing doc with
  | nil => simp
  | cons r responses ih =>
    have hnew : r.status ∉ doc.responses.map ResponseDoc.status := fun hmem ↦ by
      rw [List.map_append, List.map_cons] at h
      exact (List.nodup_append.1 h).2.2 r.status hmem r.status List.mem_cons_self rfl
    rw [List.map_cons, addAll_cons, Item.addTo, addResponse_of_new hnew, ih]
    · simp
    · simpa using h

theorem addAll_extra (lines : List String) :
    addAll doc (lines.map .extra) = { doc with extra := doc.extra ++ lines } := by
  induction lines generalizing doc with
  | nil => simp
  | cons line lines ih => simp [ih, Item.addTo, addExtra]

theorem addAll_routers {routers : List RouterDoc} (h : (doc.routers ++ routers).Nodup) :
    addAll doc (routers.map .router) = { doc with routers := doc.routers ++ routers } := by
  induction routers generalizing doc with
  | nil => simp
  | cons r routers ih =>
    have hnew : r ∉ doc.routers := fun hmem ↦
      (List.nodup_append.1 h).2.2 r hmem r List.mem_cons_self rfl
    rw [List.map_cons, addAll_cons, Item.addTo, addRouter, if_neg (by simpa using hnew), ih]
    · simp
    · simpa using h

end AddAll

structure Legible (d : EndpointDoc) : Prop where
  summary : Trimmed d.summary
  id : ∀ x ∈ d.id, Trimmed x
  tags : ∀ x ∈ d.tags, Trimmed x
  descriptions : ∀ x ∈ d.descriptions, Trimmed x
  distinctDescriptions : d.descriptions.Nodup
  accept : ∀ x ∈ d.accept, IsMedia x
  produce : ∀ x ∈ d.produce, IsMedia x
  params : ∀ p ∈ d.params, p.Legible
  distinctParams : (d.params.map ParamDoc.key).Nodup
  responses : ∀ r ∈ d.responses, r.Legible
  distinctResponses : (d.responses.map ResponseDoc.status).Nodup
  extra : ∀ x ∈ d.extra, IsExtra x

theorem items_writeOptional {key : String} {item : String → Item}
    (hitem : ∀ x, item? ("// @" ++ key ++ " " ++ x) = some (item (trim x))) {value : Option String}
    (h : ∀ x ∈ value, Trimmed x) :
    items (writeOptional key value) = ((value.filter fun x ↦ !x.isEmpty).map item).toList := by
  cases value with
  | none => rfl
  | some x =>
    have hx : trim x = x := h x rfl
    by_cases hempty : x = ""
    · subst hempty
      rfl
    · rw [writeOptional, if_neg (by simpa using hempty), items, List.filterMap_cons_some (hitem x),
        Option.filter_some_pos (by simpa using hempty), hx]
      rfl

theorem items_writeMedia {key : String} {item : List String → Item}
    (hitem : ∀ x, item? ("// @" ++ key ++ " " ++ x) = some (item (readMedia (trim x))))
    {media : List String} (h : ∀ x ∈ media, IsMedia x) :
    items (writeMedia key media) =
      if mediaList media = [] then [] else [item (mediaList media)] := by
  have hmedia : ∀ x ∈ mediaList media, IsMedia x := fun x hx ↦ h x (mem_mediaList.1 hx)
  have htrim : trim (",".intercalate (mediaList media)) = ",".intercalate (mediaList media) :=
    trimmed_intercalate hmedia
  rw [writeMedia.eq_def]
  split
  · rename_i hnil
    simp [hnil]
  · rename_i hne
    rw [items, List.filterMap_cons_some (hitem _), htrim, readMedia_intercalate hne hmedia,
      if_neg hne]
    rfl

theorem items_write {d : EndpointDoc} (h : d.Legible) :
    items d.write =
      [Item.summary d.summary] ++ ((d.id.filter fun x ↦ !x.isEmpty).map Item.id).toList ++
      ((d.tags.filter fun x ↦ !x.isEmpty).map Item.tags).toList ++
      d.descriptions.map Item.description ++
      (if mediaList d.accept = [] then [] else [Item.accept (mediaList d.accept)]) ++
      (if mediaList d.produce = [] then [] else [Item.produce (mediaList d.produce)]) ++
      (byRank (·.kind.rank) d.params).map Item.param ++
      (byRank (·.status) d.responses).map Item.response ++
      d.extra.map Item.extra ++ items (d.routers.map writeRouter) := by
  have hsummary : items ["// @Summary " ++ d.summary] = [.summary d.summary] := by
    have htrim : trim d.summary = d.summary := h.summary
    rw [items, List.filterMap_cons_some (item?_summary _), htrim, List.filterMap_nil]
  have hdescriptions : items (d.descriptions.map ("// @Description " ++ ·)) =
      d.descriptions.map .description :=
    items_map fun x hx ↦ by
      have htrim : trim x = x := h.descriptions x hx
      rw [item?_description, htrim]
  have hparams : items ((byRank (·.kind.rank) d.params).map writeParam) =
      (byRank (·.kind.rank) d.params).map .param :=
    items_map fun p hp ↦ item?_param (h.params p ((mem_byRank _).1 hp))
  have hresponses : items ((byRank (·.status) d.responses).map writeResponse) =
      (byRank (·.status) d.responses).map .response :=
    items_map fun r hr ↦ item?_response (h.responses r ((mem_byRank _).1 hr))
  have hextra : items (d.extra.map ("// " ++ ·)) = d.extra.map .extra :=
    items_map fun x hx ↦ item?_extra (h.extra x hx)
  rw [byRank] at hparams hresponses
  simp only [write, items_append, hsummary, items_writeOptional item?_id h.id,
    items_writeOptional item?_tags h.tags, hdescriptions, items_writeMedia item?_accept h.accept,
    items_writeMedia item?_produce h.produce, hparams, hresponses, hextra, byRank]

end HandlerDocs.EndpointDoc
