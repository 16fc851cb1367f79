import HandlerDocs.Proofs.EndpointDoc.Derived

namespace HandlerDocs.EndpointDoc

structure Distinct (d : EndpointDoc) : Prop where
  params : (d.params.map ParamDoc.key).Nodup
  responses : (d.responses.map ResponseDoc.status).Nodup
  routers : d.routers.Nodup
  descriptions : d.descriptions.Nodup

theorem distinct_empty : empty.Distinct :=
  ⟨.nil, .nil, .nil, .nil⟩

theorem distinct_start (summary group : String) : (start summary group).Distinct :=
  ⟨.nil, .nil, .nil, .nil⟩

/-- Whatever the lines are, what is read from them is distinct, since it can be written and read
again. -/
theorem distinct_read (lines : List String) : (read lines).Distinct := by
  have hread := fullyLegible_read lines
  exact ⟨hread.distinctParams, hread.distinctResponses, hread.distinctRouters,
    hread.distinctDescriptions⟩

/-- Merging does not go through the functions that add one entry: it appends what has a key of its
own, so that the parameters of the existing block may even repeat. -/
theorem nodup_params_merge {derived : EndpointDoc} (h : (derived.params.map ParamDoc.key).Nodup)
    (existing : EndpointDoc) : ((merge derived existing).params.map ParamDoc.key).Nodup := by
  rw [merge_eq]
  apply nodup_keepNew
  rw [map_key_describe]
  exact h

namespace Distinct

variable {d : EndpointDoc}

theorem addParam (h : d.Distinct) (p : ParamDoc) : (d.addParam p).Distinct :=
  { h with params := nodup_putParam h.params }

theorem addResponse (h : d.Distinct) (r : ResponseDoc) : (d.addResponse r).Distinct := by
  rw [addResponse_eq]
  exact { h with responses := nodup_keepNew _ h.responses [r] }

theorem addDescription (h : d.Distinct) (line : String) : (d.addDescription line).Distinct := by
  rw [EndpointDoc.addDescription]
  split
  · exact h
  · rename_i hnew
    exact { h with descriptions := nodup_snoc h.descriptions (by simpa using hnew) }

theorem addRouter (h : d.Distinct) (r : RouterDoc) : (d.addRouter r).Distinct := by
  rw [EndpointDoc.addRouter]
  split
  · exact h
  · rename_i hnew
    exact { h with routers := nodup_snoc h.routers (by simpa using hnew) }

theorem addRoute (h : d.Distinct) (path method : String) : (d.addRoute path method).Distinct := by
  apply addRouter
  exact List.foldlRecOn _ _ h fun doc hdoc name _ ↦ hdoc.addParam _

theorem emit (h : d.Distinct) (fact : Fact) : (d.emit fact).Distinct := by
  cases fact with
  | param => exact h.addParam _
  | accept => exact { h with }
  | produce => exact { h with }
  | response => exact h.addResponse _

theorem merge {derived existing : EndpointDoc} (hd : derived.Distinct)
    (he : existing.descriptions.Nodup) : (merge derived existing).Distinct := by
  refine ⟨nodup_params_merge hd.params existing, ?_, ?_, ?_⟩ <;> rw [merge_eq]
  · exact nodup_keepNew _ hd.responses _
  · exact hd.routers
  · simpa using nodup_keepNew (fun x ↦ x) (by simpa using he) derived.descriptions

end Distinct

/-- The documents that any number of operations can make, a merge taking two of them. -/
inductive Reached : EndpointDoc → Prop
  | empty : Reached empty
  | start (summary group : String) : Reached (start summary group)
  | read (lines : List String) : Reached (read lines)
  | addRoute {d : EndpointDoc} (path method : String) : Reached d → Reached (d.addRoute path method)
  | emit {d : EndpointDoc} (fact : Fact) : Reached d → Reached (d.emit fact)
  | addParam {d : EndpointDoc} (p : ParamDoc) : Reached d → Reached (d.addParam p)
  | addResponse {d : EndpointDoc} (r : ResponseDoc) : Reached d → Reached (d.addResponse r)
  | addDescription {d : EndpointDoc} (line : String) : Reached d → Reached (d.addDescription line)
  | merge {derived existing : EndpointDoc} :
    Reached derived → Reached existing → Reached (merge derived existing)

theorem entries_stay_distinct {d : EndpointDoc} (h : d.Reached) : d.Distinct := by
  induction h with
  | empty => exact distinct_empty
  | start summary group => exact distinct_start summary group
  | read lines => exact distinct_read lines
  | addRoute path method _ ih => exact ih.addRoute path method
  | emit fact _ ih => exact ih.emit fact
  | addParam p _ ih => exact ih.addParam p
  | addResponse r _ ih => exact ih.addResponse r
  | addDescription line _ ih => exact ih.addDescription line
  | merge _ _ ihd ihe => exact ihd.merge ihe.descriptions

/-- Every list is given something twice. -/
theorem entries_stay_distinct_book :
    let path := "/\x7bid\x7d/\x7bid\x7d"
    let derived := (((start "GetBook" "/api").addRoute path "get").addRoute path "get").emit
      (.response 200 (.named "Book"))
    let lines := ["// Finds a book.", "// @Description Finds a book.",
      "// @Success 200 \x7bstring\x7d string"]
    let existing := ((read lines).addParam ⟨"id", .query, "string", false, "Other"⟩).addParam
      ⟨"id", .path, "integer", true, "Book"⟩
    let doc := ((merge derived existing).addDescription "Finds a book.").addResponse
      ⟨404, "\x7bobject\x7d", "gin.H"⟩
    doc.Reached ∧ doc.Distinct ∧
      (doc.params.map ParamDoc.key, doc.responses.map ResponseDoc.status, doc.routers,
        doc.descriptions) =
      ([(.path, "id"), (.query, "id")], [200, 404], [⟨path, "get"⟩], ["Finds a book."]) := by
  intro path derived lines existing doc
  have hderived : derived.Reached := .emit _ (.addRoute _ _ (.addRoute _ _ (.start _ _)))
  have hexisting : existing.Reached := .addParam _ (.addParam _ (.read _))
  have hdoc : doc.Reached := .addResponse _ (.addDescription _ (.merge hderived hexisting))
  refine ⟨hdoc, entries_stay_distinct hdoc, ?_⟩
  decide +kernel

end HandlerDocs.EndpointDoc
