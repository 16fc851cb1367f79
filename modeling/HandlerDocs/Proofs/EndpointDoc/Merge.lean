import HandlerDocs.Proofs.EndpointDoc.RoundTrip

namespace HandlerDocs.EndpointDoc

open Text

section KeepNew

variable {α κ : Type} [DecidableEq κ] (key : α → κ)

def keepNew (items more : List α) : List α :=
  more.foldl (fun acc x ↦ if key x ∈ acc.map key then acc else acc ++ [x]) items

theorem keepNew_cons (items : List α) (x : α) (more : List α) :
    keepNew key items (x :: more) =
      keepNew key (if key x ∈ items.map key then items else items ++ [x]) more := rfl

theorem mem_of_mem_keepNew {items more : List α} {x : α} (h : x ∈ keepNew key items more) :
    x ∈ items ∨ x ∈ more := by
  induction more generalizing items with
  | nil => exact .inl h
  | cons y more ih =>
    rw [keepNew_cons] at h
    rcases ih h with h | h
    · split at h
      · exact .inl h
      · rcases List.mem_append.1 h with h | h
        · exact .inl h
        · exact .inr (List.mem_cons.2 (.inl (List.mem_singleton.1 h)))
    · exact .inr (List.mem_cons_of_mem _ h)

theorem mem_keepNew_of_mem {items : List α} {x : α} (h : x ∈ items) (more : List α) :
    x ∈ keepNew key items more := by
  induction more generalizing items with
  | nil => exact h
  | cons y more ih =>
    rw [keepNew_cons]
    split
    · exact ih h
    · exact ih (List.mem_append_left _ h)

theorem nodup_keepNew {items : List α} (h : (items.map key).Nodup) (more : List α) :
    ((keepNew key items more).map key).Nodup := by
  induction more generalizing items with
  | nil => exact h
  | cons x more ih =>
    rw [keepNew_cons]
    split
    · exact ih h
    · rename_i hnew
      refine ih ?_
      rw [List.map_append]
      exact nodup_snoc h hnew

theorem keepNew_of_subset {items more : List α} (h : ∀ x ∈ more, key x ∈ items.map key) :
    keepNew key items more = items := by
  induction more with
  | nil => rfl
  | cons x more ih =>
    rw [List.forall_mem_cons] at h
    rw [keepNew_cons, if_pos h.1, ih h.2]

theorem mem_map_keepNew (items more : List α) {k : κ} :
    k ∈ (keepNew key items more).map key ↔ k ∈ items.map key ∨ k ∈ more.map key := by
  induction more generalizing items with
  | nil => simp [keepNew]
  | cons x more ih =>
    rw [keepNew_cons, ih, List.map_cons, List.mem_cons]
    split
    · rename_i hx
      constructor
      · rintro (h | h)
        · exact .inl h
        · exact .inr (.inr h)
      · rintro (h | rfl | h)
        · exact .inl h
        · exact .inl hx
        · exact .inr h
    · simp only [List.map_append, List.map_cons, List.map_nil, List.mem_append, List.mem_singleton,
        or_assoc]

theorem keepNew_eq (items : List α) {more : List α} (h : (more.map key).Nodup) :
    keepNew key items more = items ++ more.filter (key · ∉ items.map key) := by
  induction more generalizing items with
  | nil => simp [keepNew]
  | cons x more ih =>
    rw [List.map_cons, List.nodup_cons] at h
    rw [keepNew_cons]
    split
    · rename_i hx
      rw [ih _ h.2, List.filter_cons_of_neg (by simpa using hx)]
    · rename_i hx
      have hrest : more.filter (key · ∉ (items ++ [x]).map key) =
          more.filter (key · ∉ items.map key) := by
        refine List.filter_congr fun y hy ↦ ?_
        have hne : key y ≠ key x := fun he ↦ h.1 (he ▸ List.mem_map_of_mem hy)
        simp [hne]
      rw [ih _ h.2, hrest, List.filter_cons_of_pos (by simpa using hx), List.append_assoc,
        List.singleton_append]

theorem filter_keepNew (items : List α) {more : List α} (h : (more.map key).Nodup) :
    (keepNew key items more).filter (key · ∉ items.map key) =
      more.filter (key · ∉ items.map key) := by
  have hitems : items.filter (key · ∉ items.map key) = [] := by
    refine List.filter_eq_nil_iff.2 fun x hx ↦ ?_
    simpa using ⟨x, hx, rfl⟩
  rw [keepNew_eq key items h, List.filter_append, hitems, List.filter_filter, List.nil_append]
  simp only [Bool.and_self]

/-- Keeping what was kept before, in the order in which it was written, gives the same list. -/
theorem byRank_keepNew_byRank (rank : α → ℕ) {items more : List α} (hitems : (items.map key).Nodup)
    (hmore : (more.map key).Nodup) :
    byRank rank (keepNew key items (byRank rank (keepNew key items more))) =
      byRank rank (keepNew key items more) := by
  have hkept : ((byRank rank (keepNew key items more)).map key).Nodup :=
    ((byRank_perm _ _).map _).nodup_iff.2 (nodup_keepNew key hitems more)
  rw [keepNew_eq key items hkept, byRank_append_filter_byRank, filter_keepNew key items hmore,
    ← keepNew_eq key items hmore]

end KeepNew

theorem appendNew_eq (items more : List String) :
    appendNew items more = keepNew (fun x ↦ x) items more := by
  simp [appendNew, keepNew]

theorem isSome_param? {doc : EndpointDoc} {p : ParamDoc} :
    (doc.param? p.kind p.name).isSome ↔ p.key ∈ doc.params.map ParamDoc.key := by
  simp [param?, ParamDoc.key, and_comm]

theorem foldl_keepParam (doc : EndpointDoc) (olds : List ParamDoc) :
    olds.foldl keepParam doc = { doc with params := keepNew ParamDoc.key doc.params olds } := by
  induction olds generalizing doc with
  | nil => rfl
  | cons p olds ih =>
    rw [List.foldl_cons, ih, keepNew_cons, keepParam]
    by_cases h : p.key ∈ doc.params.map ParamDoc.key
    · rw [if_pos (isSome_param?.2 h), if_pos h]
    · rw [if_neg fun hsome ↦ h (isSome_param?.1 hsome), if_neg h]

theorem foldl_addResponse (doc : EndpointDoc) (olds : List ResponseDoc) :
    olds.foldl (fun doc r ↦ doc.addResponse r) doc =
      { doc with responses := keepNew ResponseDoc.status doc.responses olds } := by
  induction olds generalizing doc with
  | nil => rfl
  | cons r olds ih =>
    rw [List.foldl_cons, ih, keepNew_cons]
    by_cases h : r.status ∈ doc.responses.map ResponseDoc.status
    · rw [addResponse_of_mem h, if_pos h]
    · rw [addResponse_of_new h, if_neg h]

theorem addResponse_eq (d : EndpointDoc) (r : ResponseDoc) : d.addResponse r =
    { d with responses := keepNew ResponseDoc.status d.responses [r] } :=
  foldl_addResponse d [r]

theorem merge_eq (derived existing : EndpointDoc) : merge derived existing =
    { derived with
      summary := if existing.summary.isEmpty then derived.summary else existing.summary
      id := existing.id.orElse fun _ ↦ derived.id
      tags := existing.tags.orElse fun _ ↦ derived.tags
      descriptions := keepNew (fun x ↦ x) existing.descriptions derived.descriptions
      accept := derived.accept ++ existing.accept
      produce := derived.produce ++ existing.produce
      params := keepNew ParamDoc.key (derived.params.map (describe existing)) existing.params
      responses := keepNew ResponseDoc.status derived.responses existing.responses
      extra := keepNew (fun x ↦ x) derived.extra existing.extra } := by
  rw [merge, foldl_keepParam, foldl_addResponse, appendNew_eq, appendNew_eq]

theorem describe_legible {existing : EndpointDoc} (h : existing.Legible) {p : ParamDoc}
    (hp : p.Legible) : (describe existing p).Legible := by
  rw [describe]
  split
  · rename_i old hold
    have hmem : old.Legible := h.params old (List.mem_of_find?_eq_some hold)
    split
    · exact hp
    · exact ⟨hp.name, hp.type, hmem.described, hmem.unquoted⟩
  · exact hp

theorem key_describe (existing : EndpointDoc) (p : ParamDoc) :
    (describe existing p).key = p.key := by
  rw [describe]
  split
  · split <;> rfl
  · rfl

theorem map_key_describe (existing : EndpointDoc) (params : List ParamDoc) :
    (params.map (describe existing)).map ParamDoc.key = params.map ParamDoc.key := by
  rw [List.map_map]
  exact List.map_congr_left fun p _ ↦ key_describe existing p

/-- A description that was taken over once is taken over again. -/
theorem describe_of_param? {existing later : EndpointDoc} {p : ParamDoc}
    (h : later.param? p.kind p.name = some (describe existing p)) :
    describe later p = describe existing p := by
  rw [describe, h]
  dsimp only
  rw [describe]
  split
  · rename_i old hold
    have hname : old.name = p.name := by
      have hfound := List.find?_some hold
      simp only [Bool.and_eq_true, decide_eq_true_eq] at hfound
      exact hfound.2
    split
    · split <;> rfl
    · rename_i hplain
      have hplain : ¬ ({ p with description := old.description } : ParamDoc).isPlain := by
        simpa only [ParamDoc.isPlain, hname] using hplain
      rw [if_neg hplain]
  · split <;> rfl

theorem param?_of_mem {doc : EndpointDoc} (h : (doc.params.map ParamDoc.key).Nodup) {p : ParamDoc}
    (hp : p ∈ doc.params) : doc.param? p.kind p.name = some p := by
  obtain ⟨q, hq⟩ := Option.isSome_iff_exists.1 (isSome_param?.2 (List.mem_map_of_mem hp))
  have hfound := List.find?_some hq
  simp only [Bool.and_eq_true, decide_eq_true_eq] at hfound
  have hkey : q.key = p.key := Prod.ext hfound.1 hfound.2
  rw [hq, List.inj_on_of_nodup_map h (List.mem_of_find?_eq_some hq) hp hkey]

structure WellFormed (d : EndpointDoc) : Prop where
  summary : Trimmed d.summary
  id : ∀ x ∈ d.id, x ≠ "" ∧ Trimmed x
  tags : ∀ x ∈ d.tags, x ≠ "" ∧ Trimmed x
  descriptions : ∀ x ∈ d.descriptions, Trimmed x
  accept : ∀ x ∈ d.accept, IsMedia x
  produce : ∀ x ∈ d.produce, IsMedia x
  params : ∀ p ∈ d.params, p.Legible
  distinctParams : (d.params.map ParamDoc.key).Nodup
  responses : ∀ r ∈ d.responses, r.Legible
  distinctResponses : (d.responses.map ResponseDoc.status).Nodup
  noExtra : d.extra = []

theorem legible_merge {derived existing : EndpointDoc} (hd : derived.WellFormed)
    (he : existing.Legible) : (merge derived existing).Legible := by
  rw [merge_eq]
  have hparams : ((derived.params.map (describe existing)).map ParamDoc.key).Nodup :=
    (map_key_describe existing derived.params).symm ▸ hd.distinctParams
  refine ⟨?_, ?_, ?_, ?_, ?_, ?_, ?_, ?_, ?_, ?_, ?_, ?_⟩
  · dsimp only
    split
    · exact hd.summary
    · exact he.summary
  · exact forall_mem_orElse he.id fun x hx ↦ (hd.id x hx).2
  · exact forall_mem_orElse he.tags fun x hx ↦ (hd.tags x hx).2
  · intro x hx
    exact (mem_of_mem_keepNew _ hx).elim (he.descriptions x) (hd.descriptions x)
  · have hdistinct := he.distinctDescriptions
    simpa using nodup_keepNew (fun x ↦ x) (by simpa using hdistinct) derived.descriptions
  · exact List.forall_mem_append.2 ⟨hd.accept, he.accept⟩
  · exact List.forall_mem_append.2 ⟨hd.produce, he.produce⟩
  · intro p hp
    rcases mem_of_mem_keepNew _ hp with hp | hp
    · obtain ⟨q, hq, rfl⟩ := List.mem_map.1 hp
      exact describe_legible he (hd.params q hq)
    · exact he.params p hp
  · exact nodup_keepNew _ hparams _
  · intro r hr
    exact (mem_of_mem_keepNew _ hr).elim (hd.responses r) (he.responses r)
  · exact nodup_keepNew _ hd.distinctResponses _
  · intro x hx
    rcases mem_of_mem_keepNew _ hx with hx | hx
    · rw [hd.noExtra] at hx
      simp at hx
    · exact he.extra x hx

end HandlerDocs.EndpointDoc
