import HandlerDocs.Proofs.EndpointDoc.Merge

namespace HandlerDocs

namespace Fact

def isParam (kind : ParamKind) : Fact → Bool
  | .param k _ _ _ _ => k = kind
  | _ => false

def isResponse (status : ℕ) : Fact → Bool
  | .response s _ => s = status
  | _ => false

def accepted? : Fact → Option String
  | .accept media => some media
  | _ => none

def produced? : Fact → Option String
  | .produce media => some media
  | _ => none

/-- Each kind of parameter and each status sees the same facts in the same order, and the media
types are the same; how all these follow each other is left open. -/
structure SameStreams (fs gs : List Fact) : Prop where
  params : ∀ kind, fs.filter (isParam kind) = gs.filter (isParam kind)
  responses : ∀ status, fs.filter (isResponse status) = gs.filter (isResponse status)
  accept : ∀ media, media ∈ fs.filterMap accepted? ↔ media ∈ gs.filterMap accepted?
  produce : ∀ media, media ∈ fs.filterMap produced? ↔ media ∈ gs.filterMap produced?

end Fact

namespace EndpointDoc

theorem rank_injective : Function.Injective ParamKind.rank := by
  intro a b h
  cases a <;> cases b <;> first | rfl | cases h

theorem byRank_kind_congr {as bs : List ParamDoc}
    (h : ∀ kind, as.filter (·.kind = kind) = bs.filter (·.kind = kind)) :
    byRank (·.kind.rank) as = byRank (·.kind.rank) bs := by
  apply byRank_congr
  intro k
  by_cases hk : ∃ kind : ParamKind, kind.rank = k
  · obtain ⟨kind, rfl⟩ := hk
    simpa only [rank_injective.eq_iff] using h kind
  · have hnone (ps : List ParamDoc) : ps.filter (·.kind.rank = k) = [] := by
      apply List.filter_eq_nil_iff.2
      intro p _ hp
      exact hk ⟨p.kind, by simpa using hp⟩
    rw [hnone, hnone]

theorem mediaList_congr {as bs : List String} (h : ∀ x, x ∈ as ↔ x ∈ bs) :
    mediaList as = mediaList bs := by
  apply mediaList_eq_of_pairwise (pairwise_mediaList bs)
  intro x
  rw [h, mem_mediaList]

def frame (d : EndpointDoc) : EndpointDoc :=
  { d with accept := [], produce := [], params := [], responses := [] }

/-- The documents differ at most in the order of entries that are written apart from each other, and
in repeated media types. -/
structure Alike (d e : EndpointDoc) : Prop where
  frame : d.frame = e.frame
  accept : ∀ x, x ∈ d.accept ↔ x ∈ e.accept
  produce : ∀ x, x ∈ d.produce ↔ x ∈ e.produce
  params : ∀ kind, d.params.filter (·.kind = kind) = e.params.filter (·.kind = kind)
  responses : ∀ status, d.responses.filter (·.status = status) =
    e.responses.filter (·.status = status)

section KeepNew

variable {α κ : Type} [DecidableEq κ] (key : α → κ)

/-- What is kept for some of the keys is told by the items with these keys. -/
theorem filter_keepNew_key (p : κ → Bool) (items more : List α) :
    (keepNew key items more).filter (p ∘ key) =
      keepNew key (items.filter (p ∘ key)) (more.filter (p ∘ key)) := by
  induction more generalizing items with
  | nil => rfl
  | cons x more ih =>
    rw [keepNew_cons, ih]
    by_cases hx : (p ∘ key) x
    · have hmem : key x ∈ (items.filter (p ∘ key)).map key ↔ key x ∈ items.map key := by
        simp only [List.mem_map, List.mem_filter, Function.comp_apply] at hx ⊢
        constructor
        · rintro ⟨y, ⟨hy, -⟩, heq⟩
          exact ⟨y, hy, heq⟩
        · rintro ⟨y, hy, heq⟩
          exact ⟨y, ⟨hy, heq ▸ hx⟩, heq⟩
      rw [List.filter_cons_of_pos hx, keepNew_cons, if_congr hmem rfl rfl]
      split
      · rfl
      · rw [List.filter_append, List.filter_cons_of_pos hx, List.filter_nil]
    · rw [List.filter_cons_of_neg hx]
      split
      · rfl
      · rw [List.filter_append, List.filter_cons_of_neg hx, List.filter_nil, List.append_nil]

end KeepNew

theorem filter_putParam (kind : ParamKind) (p : ParamDoc) (params : List ParamDoc) :
    (putParam p params).filter (·.kind = kind) =
      if p.kind = kind then putParam p (params.filter (·.kind = kind))
      else params.filter (·.kind = kind) := by
  induction params with
  | nil => by_cases hp : p.kind = kind <;> simp [putParam, hp]
  | cons q params ih =>
    rw [putParam]
    split
    · rename_i hkey
      have hkind : q.kind = p.kind := congrArg Prod.fst (ParamDoc.sameKey_iff.1 hkey)
      have hrefined : (refine q p).kind = q.kind := congrArg Prod.fst (key_refine q p)
      by_cases hp : p.kind = kind
      · simp [hrefined, hkind, hp, putParam, hkey]
      · simp [hrefined, hkind, hp]
    · rename_i hkey
      by_cases hq : q.kind = kind
      · rw [List.filter_cons_of_pos (by simpa using hq), ih,
          List.filter_cons_of_pos (by simpa using hq), putParam, if_neg hkey]
        split <;> rfl
      · rw [List.filter_cons_of_neg (by simpa using hq), ih,
          List.filter_cons_of_neg (by simpa using hq)]

section View

variable {γ : Type} {view : EndpointDoc → γ}

theorem view_foldl_congr
    (hstep : ∀ d e fact, view d = view e → view (emit d fact) = view (emit e fact))
    (fs : List Fact) {d e : EndpointDoc} (h : view d = view e) :
    view (fs.foldl emit d) = view (fs.foldl emit e) := by
  induction fs generalizing d e with
  | nil => exact h
  | cons fact fs ih => exact ih (hstep d e fact h)

/-- A view of the document that some facts leave alone is told by the others. -/
theorem view_foldl_filter {sees : Fact → Bool}
    (hskip : ∀ d fact, sees fact = false → view (emit d fact) = view d)
    (hstep : ∀ d e fact, view d = view e → view (emit d fact) = view (emit e fact))
    (fs : List Fact) (d : EndpointDoc) :
    view (fs.foldl emit d) = view ((fs.filter sees).foldl emit d) := by
  induction fs generalizing d with
  | nil => rfl
  | cons fact fs ih =>
    rw [List.foldl_cons, ih]
    cases hsees : sees fact with
    | true => rw [List.filter_cons_of_pos hsees, List.foldl_cons]
    | false =>
      rw [List.filter_cons_of_neg (by simp [hsees])]
      exact view_foldl_congr hstep _ (hskip d fact hsees)

end View

theorem filter_params_emit_of_not_isParam {kind : ParamKind} {fact : Fact}
    (h : fact.isParam kind = false) (d : EndpointDoc) :
    (d.emit fact).params.filter (·.kind = kind) = d.params.filter (·.kind = kind) := by
  cases fact with
  | param k name shape required default =>
    have hk : k ≠ kind := by simpa [Fact.isParam] using h
    simp only [emit, addParam, filter_putParam, if_neg hk]
  | accept | produce => rfl
  | response => rw [emit, addResponse_eq]

theorem filter_params_emit_congr {kind : ParamKind} {d e : EndpointDoc}
    (h : d.params.filter (·.kind = kind) = e.params.filter (·.kind = kind)) (fact : Fact) :
    (d.emit fact).params.filter (·.kind = kind) = (e.emit fact).params.filter (·.kind = kind) := by
  cases fact with
  | param => simp only [emit, addParam, filter_putParam, h]
  | accept | produce => exact h
  | response =>
    rw [emit, emit, addResponse_eq, addResponse_eq]
    exact h

theorem filter_responses_addResponse (status : ℕ) (d : EndpointDoc) (r : ResponseDoc) :
    (d.addResponse r).responses.filter (·.status = status) =
      keepNew ResponseDoc.status (d.responses.filter (·.status = status))
        ([r].filter (·.status = status)) := by
  rw [addResponse_eq]
  exact filter_keepNew_key ResponseDoc.status (decide <| · = status) _ _

theorem status_ofShape (status : ℕ) (shape : Shape) :
    (ResponseDoc.ofShape status shape).status = status := by
  rw [ResponseDoc.ofShape]
  split <;> rfl

theorem filter_responses_emit_of_not_isResponse {status : ℕ} {fact : Fact}
    (h : fact.isResponse status = false) (d : EndpointDoc) :
    (d.emit fact).responses.filter (·.status = status) =
      d.responses.filter (·.status = status) := by
  cases fact with
  | param | accept | produce => rfl
  | response s shape =>
    have hs : (ResponseDoc.ofShape s shape).status ≠ status := by
      rw [status_ofShape]
      simpa [Fact.isResponse] using h
    rw [emit, filter_responses_addResponse, List.filter_cons_of_neg (by simpa using hs)]
    rfl

theorem filter_responses_emit_congr {status : ℕ} {d e : EndpointDoc}
    (h : d.responses.filter (·.status = status) = e.responses.filter (·.status = status))
    (fact : Fact) :
    (d.emit fact).responses.filter (·.status = status) =
      (e.emit fact).responses.filter (·.status = status) := by
  cases fact with
  | param | accept | produce => exact h
  | response s shape =>
    rw [emit, emit, filter_responses_addResponse, filter_responses_addResponse, h]

theorem frame_foldl_emit (fs : List Fact) (d : EndpointDoc) :
    (fs.foldl emit d).frame = d.frame := by
  induction fs generalizing d with
  | nil => rfl
  | cons fact fs ih =>
    rw [List.foldl_cons, ih]
    cases fact with
    | param | accept | produce => rfl
    | response =>
      rw [emit, addResponse_eq]
      rfl

theorem foldl_emit_append {list : EndpointDoc → List String} {told? : Fact → Option String}
    (hstep : ∀ d fact, list (emit d fact) = list d ++ (told? fact).toList) (fs : List Fact)
    (d : EndpointDoc) : list (fs.foldl emit d) = list d ++ fs.filterMap told? := by
  induction fs generalizing d with
  | nil => simp
  | cons fact fs ih =>
    rw [List.foldl_cons, ih, hstep, List.append_assoc]
    cases h : told? fact with
    | none =>
      rw [List.filterMap_cons_none h]
      rfl
    | some media =>
      rw [List.filterMap_cons_some h]
      rfl

theorem accept_foldl_emit (fs : List Fact) (d : EndpointDoc) :
    (fs.foldl emit d).accept = d.accept ++ fs.filterMap Fact.accepted? := by
  apply foldl_emit_append
  intro d fact
  cases fact with
  | accept => rfl
  | param | produce => exact (List.append_nil _).symm
  | response =>
    rw [emit, addResponse_eq]
    exact (List.append_nil _).symm

theorem produce_foldl_emit (fs : List Fact) (d : EndpointDoc) :
    (fs.foldl emit d).produce = d.produce ++ fs.filterMap Fact.produced? := by
  apply foldl_emit_append
  intro d fact
  cases fact with
  | produce => rfl
  | param | accept => exact (List.append_nil _).symm
  | response =>
    rw [emit, addResponse_eq]
    exact (List.append_nil _).symm

theorem alike_foldl_emit {fs gs : List Fact} (h : Fact.SameStreams fs gs) (d : EndpointDoc) :
    Alike (fs.foldl emit d) (gs.foldl emit d) where
  frame := by rw [frame_foldl_emit, frame_foldl_emit]
  accept x := by simp only [accept_foldl_emit, List.mem_append, h.accept]
  produce x := by simp only [produce_foldl_emit, List.mem_append, h.produce]
  params kind := by
    have hview := @view_foldl_filter _ (fun d ↦ d.params.filter (·.kind = kind)) _
      (fun d fact hskip ↦ filter_params_emit_of_not_isParam hskip d)
      (fun d e fact hde ↦ filter_params_emit_congr hde fact)
    rw [hview fs, hview gs, h.params]
  responses status := by
    have hview := @view_foldl_filter _ (fun d ↦ d.responses.filter (·.status = status)) _
      (fun d fact hskip ↦ filter_responses_emit_of_not_isResponse hskip d)
      (fun d e fact hde ↦ filter_responses_emit_congr hde fact)
    rw [hview fs, hview gs, h.responses]

theorem filter_params_merge (kind : ParamKind) (derived existing : EndpointDoc) :
    (merge derived existing).params.filter (·.kind = kind) =
      keepNew ParamDoc.key ((derived.params.filter (·.kind = kind)).map (describe existing))
        (existing.params.filter (·.kind = kind)) := by
  have hkind (p : ParamDoc) : (describe existing p).kind = p.kind :=
    congrArg Prod.fst (key_describe existing p)
  have hfilter := filter_keepNew_key ParamDoc.key (fun k ↦ decide (k.1 = kind))
    (derived.params.map (describe existing)) existing.params
  rw [List.filter_map] at hfilter
  simp only [Function.comp_def, ParamDoc.key, hkind] at hfilter
  rw [merge_eq]
  exact hfilter

theorem filter_responses_merge (status : ℕ) (derived existing : EndpointDoc) :
    (merge derived existing).responses.filter (·.status = status) =
      keepNew ResponseDoc.status (derived.responses.filter (·.status = status))
        (existing.responses.filter (·.status = status)) := by
  rw [merge_eq]
  exact filter_keepNew_key ResponseDoc.status (decide <| · = status) _ _

theorem frame_merge (derived existing : EndpointDoc) :
    (merge derived existing).frame = (merge derived.frame existing).frame := by
  rw [merge_eq, merge_eq]
  rfl

namespace Alike

variable {d e : EndpointDoc} (h : Alike d e)

include h

theorem merge (existing : EndpointDoc) : Alike (merge d existing) (merge e existing) where
  frame := by rw [frame_merge, h.frame, ← frame_merge]
  accept x := by simp only [merge_eq, List.mem_append, h.accept]
  produce x := by simp only [merge_eq, List.mem_append, h.produce]
  params kind := by rw [filter_params_merge, h.params, ← filter_params_merge]
  responses status := by rw [filter_responses_merge, h.responses, ← filter_responses_merge]

theorem normal_eq : d.normal = e.normal := by
  have hnormal (x : EndpointDoc) : x.normal =
      { x.frame.normal with
        accept := mediaList x.accept
        produce := mediaList x.produce
        params := byRank (·.kind.rank) x.params
        responses := byRank (·.status) x.responses } := rfl
  rw [hnormal d, hnormal e, h.frame, mediaList_congr h.accept, mediaList_congr h.produce,
    byRank_kind_congr h.params, byRank_congr _ h.responses]

theorem write_eq : d.write = e.write := by
  rw [← write_normal d, h.normal_eq, write_normal]

end Alike

/-- Neither the block of a handler nor what replaces an existing one depends on the order in which
independent facts were found. -/
theorem written_alike_of_sameStreams {fs gs : List Fact} (h : Fact.SameStreams fs gs)
    (d : EndpointDoc) :
    (fs.foldl emit d).write = (gs.foldl emit d).write ∧
      ∀ lines, (fs.foldl emit d).update lines = (gs.foldl emit d).update lines := by
  have halike := alike_foldl_emit h d
  constructor
  · exact halike.write_eq
  · intro lines
    exact (halike.merge (read lines)).write_eq

/-- The two runs meet the query, the statuses and the body in another order; the second mention of
the query and the second shape of status 200 come later in both. -/
theorem written_alike_of_sameStreams_books :
    let page : Fact := .param .query "page" (.named "string") false none
    let numbered : Fact := .param .query "page" (.named "int") false (some "1")
    let body : Fact := .param .body "book" (.named "Book") true none
    let found : Fact := .response 200 (.named "Book")
    let listed : Fact := .response 200 (.named "string")
    let missing : Fact := .response 404 (.named "gin.H")
    let fs := [page, found, .accept "json", body, numbered, missing, listed, .accept "json"]
    let gs := [.accept "json", missing, body, found, listed, page, numbered]
    let d := (start "ListBooks" "/books").addRoute "/books/\x7bid\x7d" "post"
    Fact.SameStreams fs gs ∧ fs.foldl emit d ≠ gs.foldl emit d ∧
      (fs.foldl emit d).write = (gs.foldl emit d).write ∧
      (fs.foldl emit d).update ["// Books"] = (gs.foldl emit d).update ["// Books"] := by
  intro page numbered body found listed missing fs gs d
  have hstreams : Fact.SameStreams fs gs := by
    refine ⟨fun kind ↦ by cases kind <;> rfl, fun status ↦ ?_, fun media ↦ ?_, fun media ↦ ?_⟩
    · rcases eq_or_ne 200 status with rfl | hfound
      · rfl
      · rcases eq_or_ne 404 status with rfl | hmissing
        · rfl
        · simp [fs, gs, page, numbered, body, found, listed, missing, Fact.isResponse, hfound,
            hmissing]
    · simp [fs, gs, page, numbered, body, found, listed, missing, Fact.accepted?, eq_comm]
    · simp [fs, gs, page, numbered, body, found, listed, missing, Fact.produced?]
  have hwritten := written_alike_of_sameStreams hstreams d
  exact ⟨hstreams, by decide +kernel, hwritten.1, hwritten.2 _⟩

end EndpointDoc

end HandlerDocs
