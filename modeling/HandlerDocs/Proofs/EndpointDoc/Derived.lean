import HandlerDocs.Endpoint
import HandlerDocs.Proofs.EndpointDoc.Merge

namespace HandlerDocs

open Text

namespace EndpointDoc

/-- What code alone can tell about a handler: it gives no identifier, no description and no further
line, no tag without a text, and types that stay on one line. -/
structure Derived (d : EndpointDoc) : Prop where
  id : d.id = none
  tags : d.tags ≠ some ""
  descriptions : d.descriptions = []
  params : ∀ p ∈ d.params, OneLine p.type
  responses : ∀ r ∈ d.responses, OneLine r.schema ∧ OneLine r.type
  extra : d.extra = []

theorem inked_documented (shape : Shape) : ∀ c ∈ shape.documented.toList, isBlank c = false := by
  intro c hc
  rw [Shape.documented, String.toList_ofList, List.mem_filter] at hc
  simpa using (Bool.and_eq_true_iff.1 hc.2).2

theorem dropSlices_suffix (cs : List Char) : ResponseDoc.dropSlices cs <:+ cs := by
  induction cs using ResponseDoc.dropSlices.induct with
  | case1 cs ih =>
    rw [ResponseDoc.dropSlices]
    exact ih.trans ((List.suffix_cons _ _).trans (List.suffix_cons _ _))
  | case2 cs h => rw [ResponseDoc.dropSlices.eq_2 cs h]

theorem oneLine_ofShape (status : ℕ) (shape : Shape) :
    OneLine (ResponseDoc.ofShape status shape).schema ∧
      OneLine (ResponseDoc.ofShape status shape).type := by
  have hinked := inked_documented shape
  rw [ResponseDoc.ofShape]
  split
  · rename_i schema hlookup
    obtain ⟨front, back, hentries, -⟩ := List.lookup_eq_some_iff.1 hlookup
    have hmem : (shape.documented, schema) ∈ ResponseDoc.scalarSchemas := by simp [hentries]
    have hall : ∀ entry ∈ ResponseDoc.scalarSchemas, OneLine entry.2 := by decide
    exact ⟨hall _ hmem, oneLine_of_inked hinked⟩
  · rename_i cs _ htext
    have harray : OneLine "\x7barray\x7d" := by decide
    refine ⟨harray, oneLine_of_inked fun c hc ↦ hinked c ?_⟩
    rw [String.toList_ofList] at hc
    rw [htext]
    exact List.mem_cons_of_mem _ (List.mem_cons_of_mem _ ((dropSlices_suffix cs).subset hc))
  · have hobject : OneLine "\x7bobject\x7d" := by decide
    exact ⟨hobject, oneLine_of_inked hinked⟩

theorem derived_start (summary group : String) : (start summary group).Derived := by
  refine ⟨rfl, ?_, rfl, by simp [start, empty], by simp [start, empty], rfl⟩
  rw [start]
  dsimp only
  split
  · simp
  · rename_i hne
    intro h
    exact hne (by rw [Option.some.inj h]; rfl)

namespace Derived

variable {d : EndpointDoc}

theorem addParam (h : d.Derived) {p : ParamDoc} (hp : OneLine p.type) : (d.addParam p).Derived := by
  refine { h with params := ?_ }
  have hput (params : List ParamDoc) (hparams : ∀ q ∈ params, OneLine q.type) :
      ∀ q ∈ putParam p params, OneLine q.type := by
    induction params with
    | nil => simpa [putParam] using hp
    | cons q params ih =>
      rw [List.forall_mem_cons] at hparams
      rw [putParam]
      split
      · refine List.forall_mem_cons.2 ⟨?_, hparams.2⟩
        rw [refine]
        split <;> split
        · exact hp
        · exact hparams.1
        · exact hp
        · exact hparams.1
      · exact List.forall_mem_cons.2 ⟨hparams.1, ih hparams.2⟩
  exact hput d.params h.params

theorem addResponse (h : d.Derived) {r : ResponseDoc} (hr : OneLine r.schema ∧ OneLine r.type) :
    (d.addResponse r).Derived := by
  rw [EndpointDoc.addResponse]
  split
  · exact h
  · exact { h with responses := List.forall_mem_append.2 ⟨h.responses, by simpa using hr⟩ }

theorem addRouter (h : d.Derived) (r : RouterDoc) : (d.addRouter r).Derived := by
  rw [EndpointDoc.addRouter]
  split
  · exact h
  · exact { h with }

theorem addRoute (h : d.Derived) (path method : String) : (d.addRoute path method).Derived := by
  refine addRouter ?_ _
  have hstring : OneLine "string" := by decide
  exact List.foldlRecOn _ _ h fun doc hdoc name _ ↦ hdoc.addParam hstring

theorem emit (h : d.Derived) (fact : Fact) : (d.emit fact).Derived := by
  cases fact with
  | param kind name shape => exact h.addParam (oneLine_of_inked (inked_documented shape))
  | accept => exact { h with }
  | produce => exact { h with }
  | response status shape => exact h.addResponse (oneLine_ofShape status shape)

theorem wellFormed (h : d.Derived) (hlegible : d.Legible) : d.WellFormed where
  summary := hlegible.summary
  id := by simp [h.id]
  tags x hx := ⟨fun hempty ↦ h.tags (hempty ▸ hx), hlegible.tags x hx⟩
  descriptions := hlegible.descriptions
  accept := hlegible.accept
  produce := hlegible.produce
  params := hlegible.params
  distinctParams := hlegible.distinctParams
  responses := hlegible.responses
  distinctResponses := hlegible.distinctResponses
  noExtra := h.extra

end Derived

/-- A document as it is built from code: started for a group, with routes and facts added to it in
any order. -/
inductive Built : EndpointDoc → Prop
  | start (summary group : String) : Built (start summary group)
  | addRoute {d : EndpointDoc} (path method : String) : Built d → Built (d.addRoute path method)
  | emit {d : EndpointDoc} (fact : Fact) : Built d → Built (d.emit fact)

theorem Built.derived {d : EndpointDoc} (h : d.Built) : d.Derived := by
  induction h with
  | start summary group => exact derived_start summary group
  | addRoute path method _ ih => exact ih.addRoute path method
  | emit fact _ ih => exact ih.emit fact

end EndpointDoc

namespace Endpoint

theorem built_document (p : Project) (limit : ℕ) (f : FuncRef) (routes : List Routing.Route) :
    (document p limit f routes).Built := by
  have hrouted := List.foldlRecOn routes (fun doc r ↦ doc.addRoute r.path r.method)
    (EndpointDoc.Built.start (((p.function? f).map (·.name)).getD "")
      ((routes.head?.map (·.group)).getD ""))
    fun doc hdoc r _ ↦ hdoc.addRoute r.path r.method
  exact List.foldlRecOn _ _ hrouted fun doc hdoc fact _ ↦ hdoc.emit fact

theorem derived_all {p : Project} {options : Routing.Options} {limit : ℕ} {e : Endpoint}
    (he : e ∈ all p options limit) : e.doc.Derived := by
  obtain ⟨f, -, rfl⟩ := List.mem_map.1 he
  exact (built_document _ _ _ _).derived

end Endpoint

end HandlerDocs
