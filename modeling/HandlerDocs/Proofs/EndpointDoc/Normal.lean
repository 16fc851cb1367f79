import HandlerDocs.Proofs.EndpointDoc.Written

namespace HandlerDocs.EndpointDoc

open Text

def normal (d : EndpointDoc) : EndpointDoc :=
  { d with
    id := d.id.filter fun x ↦ !x.isEmpty
    tags := d.tags.filter fun x ↦ !x.isEmpty
    accept := mediaList d.accept
    produce := mediaList d.produce
    params := byRank (·.kind.rank) d.params
    responses := byRank (·.status) d.responses }

theorem writeOptional_filter (key : String) (value : Option String) :
    writeOptional key (value.filter fun x ↦ !x.isEmpty) = writeOptional key value := by
  cases value with
  | none => rfl
  | some x =>
    by_cases hx : x = ""
    · subst hx
      rfl
    · rw [Option.filter_some_pos (by simpa using hx)]

theorem writeMedia_mediaList (key : String) (media : List String) :
    writeMedia key (mediaList media) = writeMedia key media := by
  rw [writeMedia, mediaList_idem, writeMedia]

/-- Only the reader's view of a document is written. -/
theorem write_normal (d : EndpointDoc) : d.normal.write = d.write := by
  have hparams := byRank_idem (fun p : ParamDoc ↦ p.kind.rank) d.params
  have hresponses := byRank_idem ResponseDoc.status d.responses
  simp only [byRank] at hparams hresponses
  simp only [write, normal, byRank, writeOptional_filter, writeMedia_mediaList, hparams, hresponses]

section AddAll

variable {doc : EndpointDoc}

theorem addAll_id (h : doc.id = none) (value : Option String) :
    addAll doc (value.map Item.id).toList = { doc with id := value } := by
  cases value with
  | none => exact congrArg (fun value ↦ { doc with id := value }) h
  | some x => simp [Item.addTo, h]

theorem addAll_tags (h : doc.tags = none) (value : Option String) :
    addAll doc (value.map Item.tags).toList = { doc with tags := value } := by
  cases value with
  | none => exact congrArg (fun value ↦ { doc with tags := value }) h
  | some x => simp [Item.addTo, h]

theorem addAll_accept (h : doc.accept = []) (media : List String) :
    addAll doc (if media = [] then [] else [.accept media]) = { doc with accept := media } := by
  split
  · rename_i hnil
    rw [hnil]
    exact congrArg (fun media ↦ { doc with accept := media }) h
  · simp [Item.addTo, h]

theorem addAll_produce (h : doc.produce = []) (media : List String) :
    addAll doc (if media = [] then [] else [.produce media]) = { doc with produce := media } := by
  split
  · rename_i hnil
    rw [hnil]
    exact congrArg (fun media ↦ { doc with produce := media }) h
  · simp [Item.addTo, h]

end AddAll

theorem Legible.nodup_byRank_params {d : EndpointDoc} (h : d.Legible) :
    ((byRank (·.kind.rank) d.params).map ParamDoc.key).Nodup :=
  ((byRank_perm _ _).map _).nodup_iff.2 h.distinctParams

theorem Legible.nodup_byRank_responses {d : EndpointDoc} (h : d.Legible) :
    ((byRank (·.status) d.responses).map ResponseDoc.status).Nodup :=
  ((byRank_perm _ _).map _).nodup_iff.2 h.distinctResponses

/-- What is read from a written block is the document, but for the routes, which are read line by
line. -/
theorem read_write_eq_addAll {d : EndpointDoc} (h : d.Legible) :
    read d.write = addAll { d.normal with routers := [] } (items (d.routers.map writeRouter)) := by
  rw [read_eq, items_write h]
  simp only [addAll_append]
  rw [addAll_cons, addAll_nil, addAll_id rfl, addAll_tags rfl,
    addAll_descriptions _ (by exact h.distinctDescriptions), addAll_accept rfl, addAll_produce rfl,
    addAll_params _ (by exact h.nodup_byRank_params),
    addAll_responses _ (by exact h.nodup_byRank_responses), addAll_extra]
  rfl

structure FullyLegible (d : EndpointDoc) : Prop extends Legible d where
  routers : ∀ r ∈ d.routers, r.Legible
  distinctRouters : d.routers.Nodup

theorem read_write {d : EndpointDoc} (h : d.FullyLegible) : read d.write = d.normal := by
  have hitems : items (d.routers.map writeRouter) = d.routers.map .router :=
    items_map fun r hr ↦ by
      have htrim : trim (routerText r) = routerText r := trimmed_routerText (h.routers r hr)
      rw [item?_router, htrim, readRouter?_routerText (h.routers r hr)]
      rfl
  rw [read_write_eq_addAll h.toLegible, hitems, addAll_routers _ (by exact h.distinctRouters)]
  rfl

end HandlerDocs.EndpointDoc
