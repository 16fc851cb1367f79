import HandlerDocs.Proofs.EndpointDoc.Normal

namespace HandlerDocs.EndpointDoc

open Text

theorem marked_of_keyword {line : String} (h : (lower (keyword line)).toList.head? = some '@') :
    startsWith line "@" := by
  rw [lower, keyword, String.toList_ofList, String.toList_ofList] at h
  cases hline : line.toList with
  | nil => simp [hline] at h
  | cons c cs =>
    by_cases hc : isInk c
    · rw [hline, List.takeWhile_cons_of_pos hc] at h
      have hat : c = '@' := toLower_eq_at (Option.some.inj h)
      simp [startsWith, hline, hat]
    · rw [hline, List.takeWhile_cons_of_neg hc] at h
      simp at h

namespace Item

inductive Legible : Item → Prop
  | summary {text : String} : Trimmed text → Legible (.summary text)
  | id {text : String} : Trimmed text → Legible (.id text)
  | tags {text : String} : Trimmed text → Legible (.tags text)
  | description {text : String} : Trimmed text → Legible (.description text)
  | accept {media : List String} : (∀ x ∈ media, IsMedia x) → Legible (.accept media)
  | produce {media : List String} : (∀ x ∈ media, IsMedia x) → Legible (.produce media)
  | param {p : ParamDoc} : p.Legible → Legible (.param p)
  | response {r : ResponseDoc} : r.Legible → Legible (.response r)
  | router {r : RouterDoc} : r.Legible → Legible (.router r)
  | extra {line : String} : IsExtra line → Legible (.extra line)
  | nothing : Legible .nothing

theorem isExtra_of_ofLine {line : String} (htrim : Trimmed line) (hmark : startsWith line "@")
    (h : ofLine line = .extra line) : IsExtra line := by
  refine ⟨htrim, hmark, ?_⟩
  rw [read_eq, items_of_marked htrim hmark, h]
  rfl

theorem ofLine_legible_or {line : String} (htrim : Trimmed line) :
    (ofLine line).Legible ∨ startsWith line "@" ∧ ofLine line = .extra line := by
  have hrest : Trimmed (remainder line) := trimmed_trim _
  unfold ofLine ofKeyword
  generalize hkey : lower (keyword line) = key
  split
  · exact .inl (.summary hrest)
  · exact .inl (.id hrest)
  · exact .inl (.tags hrest)
  · exact .inl (.description hrest)
  · exact .inl (.accept fun x ↦ isMedia_of_mem_readMedia)
  · exact .inl (.produce fun x ↦ isMedia_of_mem_readMedia)
  · cases hparam : readParam? (remainder line) with
    | some p => exact .inl (.param (readParam?_legible hparam))
    | none => exact .inr ⟨marked_of_keyword (by rw [hkey]; rfl), rfl⟩
  · cases hresponse : readResponse? (remainder line) with
    | some r => exact .inl (.response (readResponse?_legible hresponse))
    | none => exact .inr ⟨marked_of_keyword (by rw [hkey]; rfl), rfl⟩
  · cases hresponse : readResponse? (remainder line) with
    | some r => exact .inl (.response (readResponse?_legible hresponse))
    | none => exact .inr ⟨marked_of_keyword (by rw [hkey]; rfl), rfl⟩
  · cases hrouter : readRouter? (remainder line) with
    | some r => exact .inl (.router (readRouter?_legible hrouter))
    | none => exact .inl .nothing
  · split
    · rename_i hmark
      exact .inr ⟨hmark, rfl⟩
    · exact .inl (.description htrim)

theorem ofLine_legible {line : String} (htrim : Trimmed line) : (ofLine line).Legible := by
  rcases ofLine_legible_or htrim with h | ⟨hmark, h⟩
  · exact h
  · rw [h]
    exact .extra (isExtra_of_ofLine htrim hmark h)

end Item

theorem trimmed_bare (raw : String) : Trimmed (bare raw) := by
  rw [bare]
  exact trimmed_trim _

theorem legible_of_mem_items {lines : List String} {i : Item} (h : i ∈ items lines) :
    i.Legible := by
  obtain ⟨line, -, hline⟩ := List.mem_filterMap.1 h
  rw [item?] at hline
  split at hline
  · simp at hline
  · obtain rfl := Option.some.inj hline
    exact Item.ofLine_legible (trimmed_bare line)

theorem key_refine (known seen : ParamDoc) : (refine known seen).key = known.key := by
  rw [refine]
  split <;> split <;> rfl

theorem legible_refine {known seen : ParamDoc} (hk : known.Legible) (hs : seen.Legible) :
    (refine known seen).Legible := by
  rw [refine]
  split <;> split
  · exact ⟨hk.name, hs.type, hs.described, hs.unquoted⟩
  · exact ⟨hk.name, hk.type, hs.described, hs.unquoted⟩
  · exact ⟨hk.name, hs.type, hk.described, hk.unquoted⟩
  · exact hk

theorem map_key_putParam (p : ParamDoc) (params : List ParamDoc) :
    (putParam p params).map ParamDoc.key =
      if p.key ∈ params.map ParamDoc.key then params.map ParamDoc.key
      else params.map ParamDoc.key ++ [p.key] := by
  induction params with
  | nil => rfl
  | cons q params ih =>
    rw [putParam]
    split
    · rename_i hq
      simp [key_refine, ParamDoc.sameKey_iff.1 hq]
    · rename_i hq
      have hne : p.key ≠ q.key := fun h ↦ hq (ParamDoc.sameKey_iff.2 h.symm)
      rw [List.map_cons, ih, List.map_cons]
      by_cases hmem : p.key ∈ params.map ParamDoc.key
      · rw [if_pos hmem, if_pos (List.mem_cons_of_mem _ hmem)]
      · rw [if_neg hmem, if_neg (by simp [hne, hmem]), List.cons_append]

theorem nodup_putParam {p : ParamDoc} {params : List ParamDoc}
    (h : (params.map ParamDoc.key).Nodup) : ((putParam p params).map ParamDoc.key).Nodup := by
  rw [map_key_putParam]
  split
  · exact h
  · rename_i hnew
    exact nodup_snoc h hnew

theorem legible_putParam {p : ParamDoc} {params : List ParamDoc} (hp : p.Legible)
    (h : ∀ q ∈ params, q.Legible) : ∀ q ∈ putParam p params, q.Legible := by
  induction params with
  | nil => simpa [putParam] using hp
  | cons q params ih =>
    rw [List.forall_mem_cons] at h
    rw [putParam]
    split
    · exact List.forall_mem_cons.2 ⟨legible_refine h.1 hp, h.2⟩
    · exact List.forall_mem_cons.2 ⟨h.1, ih h.2⟩

theorem FullyLegible.addTo {doc : EndpointDoc} (hdoc : doc.FullyLegible) {i : Item}
    (hi : i.Legible) : (i.addTo doc).FullyLegible := by
  cases hi with
  | summary h =>
    rw [Item.addTo]
    split
    · exact { hdoc with summary := h }
    · exact hdoc
  | id h =>
    refine { hdoc with id := ?_ }
    rintro x ⟨⟩
    cases hid : doc.id with
    | none => exact h
    | some known => exact hdoc.id known hid
  | tags h =>
    refine { hdoc with tags := ?_ }
    rintro x ⟨⟩
    cases htags : doc.tags with
    | none => exact h
    | some known => exact hdoc.tags known htags
  | description h =>
    rw [Item.addTo, addDescription]
    split
    · exact hdoc
    · rename_i hnew
      exact { hdoc with
        descriptions := List.forall_mem_append.2 ⟨hdoc.descriptions, by simpa using h⟩
        distinctDescriptions := nodup_snoc hdoc.distinctDescriptions (by simpa using hnew) }
  | accept h => exact { hdoc with accept := List.forall_mem_append.2 ⟨hdoc.accept, h⟩ }
  | produce h => exact { hdoc with produce := List.forall_mem_append.2 ⟨hdoc.produce, h⟩ }
  | param h =>
    exact { hdoc with
      params := legible_putParam h hdoc.params
      distinctParams := nodup_putParam hdoc.distinctParams }
  | @response r h =>
    by_cases hnew : r.status ∈ doc.responses.map ResponseDoc.status
    · rw [Item.addTo, addResponse_of_mem hnew]
      exact hdoc
    · rw [Item.addTo, addResponse_of_new hnew]
      refine { hdoc with
        responses := List.forall_mem_append.2 ⟨hdoc.responses, by simpa using h⟩
        distinctResponses := ?_ }
      rw [List.map_append]
      exact nodup_snoc hdoc.distinctResponses hnew
  | router h =>
    rw [Item.addTo, addRouter]
    split
    · exact hdoc
    · rename_i hnew
      exact { hdoc with
        routers := List.forall_mem_append.2 ⟨hdoc.routers, by simpa using h⟩
        distinctRouters := nodup_snoc hdoc.distinctRouters (by simpa using hnew) }
  | extra h =>
    exact { hdoc with extra := List.forall_mem_append.2 ⟨hdoc.extra, by simpa using h⟩ }
  | nothing => exact hdoc

theorem FullyLegible.addAll {doc : EndpointDoc} (hdoc : doc.FullyLegible) {is : List Item}
    (h : ∀ i ∈ is, i.Legible) : (EndpointDoc.addAll doc is).FullyLegible := by
  induction is generalizing doc with
  | nil => exact hdoc
  | cons i is ih =>
    rw [List.forall_mem_cons] at h
    rw [addAll_cons]
    exact ih (hdoc.addTo h.1) h.2

theorem fullyLegible_empty : empty.FullyLegible where
  summary := trimmed_empty
  id := by simp [empty]
  tags := by simp [empty]
  descriptions := by simp [empty]
  distinctDescriptions := .nil
  accept := by simp [empty]
  produce := by simp [empty]
  params := by simp [empty]
  distinctParams := .nil
  responses := by simp [empty]
  distinctResponses := .nil
  extra := by simp [empty]
  routers := by simp [empty]
  distinctRouters := .nil

/-- Whatever the lines are, what is read from them can be written without loss. -/
theorem fullyLegible_read (lines : List String) : (read lines).FullyLegible := by
  rw [read_eq]
  exact fullyLegible_empty.addAll fun i hi ↦ legible_of_mem_items hi

/-- Writing what was read settles a block: doing it once more changes nothing. -/
theorem write_read_write_read (lines : List String) :
    (read (read lines).write).write = (read lines).write := by
  rw [read_write (fullyLegible_read lines), write_normal]

/-- The one document among those with the same block that reading the block gives. -/
structure Canonical (d : EndpointDoc) : Prop where
  summary : Trimmed d.summary
  id : ∀ x ∈ d.id, x ≠ "" ∧ Trimmed x
  tags : ∀ x ∈ d.tags, x ≠ "" ∧ Trimmed x
  descriptions : ∀ x ∈ d.descriptions, Trimmed x
  distinctDescriptions : d.descriptions.Nodup
  accept : ∀ x ∈ d.accept, IsMedia x
  sortedAccept : d.accept.Pairwise (· < ·)
  produce : ∀ x ∈ d.produce, IsMedia x
  sortedProduce : d.produce.Pairwise (· < ·)
  params : ∀ p ∈ d.params, p.Legible
  distinctParams : (d.params.map ParamDoc.key).Nodup
  sortedParams : d.params.Pairwise fun p q ↦ p.kind.rank ≤ q.kind.rank
  responses : ∀ r ∈ d.responses, r.Legible
  sortedResponses : d.responses.Pairwise fun r s ↦ r.status < s.status
  routers : ∀ r ∈ d.routers, r.Legible
  distinctRouters : d.routers.Nodup
  extra : ∀ x ∈ d.extra, IsExtra x

theorem filter_nonempty_eq_self {value : Option String} :
    (value.filter fun x ↦ !x.isEmpty) = value ↔ ∀ x ∈ value, x ≠ "" := by
  cases value with
  | none => simp
  | some x => simp

theorem mediaList_eq_self {media : List String} :
    mediaList media = media ↔ media.Pairwise (· < ·) := by
  constructor
  · intro h
    rw [← h]
    exact pairwise_mediaList media
  · intro h
    exact mediaList_eq_of_pairwise h fun _ ↦ Iff.rfl

theorem byRank_eq_self_iff {α : Type} {rank : α → ℕ} {xs : List α} :
    byRank rank xs = xs ↔ xs.Pairwise fun a b ↦ rank a ≤ rank b := by
  constructor
  · intro h
    rw [← h]
    exact pairwise_byRank rank xs
  · exact byRank_eq_self rank

theorem pairwise_status_iff {responses : List ResponseDoc} :
    (responses.Pairwise fun r s ↦ r.status < s.status) ↔
      (responses.Pairwise fun r s ↦ r.status ≤ s.status) ∧
        (responses.map ResponseDoc.status).Nodup := by
  rw [List.Nodup, List.pairwise_map, ← List.pairwise_and_iff]
  simp only [lt_iff_le_and_ne]

theorem normal_eq_self_iff {d : EndpointDoc} :
    d.normal = d ↔ (∀ x ∈ d.id, x ≠ "") ∧ (∀ x ∈ d.tags, x ≠ "") ∧ d.accept.Pairwise (· < ·) ∧
      d.produce.Pairwise (· < ·) ∧ (d.params.Pairwise fun p q ↦ p.kind.rank ≤ q.kind.rank) ∧
      d.responses.Pairwise fun r s ↦ r.status ≤ s.status := by
  obtain ⟨summary, id, tags, descriptions, accept, produce, params, responses, routers, extra⟩ := d
  simp only [normal, EndpointDoc.mk.injEq, filter_nonempty_eq_self, mediaList_eq_self,
    byRank_eq_self_iff, true_and, and_true]

theorem canonical_iff {d : EndpointDoc} : d.Canonical ↔ d.FullyLegible ∧ d.normal = d := by
  rw [normal_eq_self_iff]
  constructor
  · intro h
    obtain ⟨hresponses, hstatus⟩ := pairwise_status_iff.1 h.sortedResponses
    refine ⟨?_, fun x hx ↦ (h.id x hx).1, fun x hx ↦ (h.tags x hx).1, h.sortedAccept,
      h.sortedProduce, h.sortedParams, hresponses⟩
    exact { h with
      id := fun x hx ↦ (h.id x hx).2
      tags := fun x hx ↦ (h.tags x hx).2
      distinctResponses := hstatus }
  · rintro ⟨h, hid, htags, haccept, hproduce, hparams, hresponses⟩
    exact { h with
      id := fun x hx ↦ ⟨hid x hx, h.id x hx⟩
      tags := fun x hx ↦ ⟨htags x hx, h.tags x hx⟩
      sortedAccept := haccept
      sortedProduce := hproduce
      sortedParams := hparams
      sortedResponses := pairwise_status_iff.2 ⟨hresponses, h.distinctResponses⟩ }

/-- The documents that reading gives back from their own block are the canonical ones. -/
theorem read_write_eq_self_iff (d : EndpointDoc) : read d.write = d ↔ d.Canonical := by
  rw [canonical_iff]
  constructor
  · intro h
    have hd : d.FullyLegible := h ▸ fullyLegible_read d.write
    exact ⟨hd, read_write hd ▸ h⟩
  · rintro ⟨hd, hnormal⟩
    rw [read_write hd, hnormal]

end HandlerDocs.EndpointDoc
