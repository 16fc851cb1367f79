import HandlerDocs.Proofs.EndpointDoc.Merge
import HandlerDocs.Proofs.Project.Blocks

namespace HandlerDocs.EndpointDoc

open Text

theorem legible_normal {d : EndpointDoc} (h : d.Legible) : d.normal.Legible where
  summary := h.summary
  id := fun x hx ↦ h.id x (Option.mem_filter_iff.1 hx).1
  tags := fun x hx ↦ h.tags x (Option.mem_filter_iff.1 hx).1
  descriptions := h.descriptions
  distinctDescriptions := h.distinctDescriptions
  accept := fun x hx ↦ h.accept x (mem_mediaList.1 hx)
  produce := fun x hx ↦ h.produce x (mem_mediaList.1 hx)
  params := fun p hp ↦ h.params p ((mem_byRank _).1 hp)
  distinctParams := h.nodup_byRank_params
  responses := fun r hr ↦ h.responses r ((mem_byRank _).1 hr)
  distinctResponses := h.nodup_byRank_responses
  extra := h.extra

theorem addAll_items_routers (doc : EndpointDoc) (routers : List RouterDoc) :
    ∃ read, addAll doc (items (routers.map writeRouter)) = { doc with routers := read } := by
  induction routers generalizing doc with
  | nil => exact ⟨doc.routers, rfl⟩
  | cons r routers ih =>
    rw [List.map_cons, items, List.filterMap_cons_some (item?_router r), addAll_cons]
    cases readRouter? (trim (routerText r)) with
    | none => exact ih doc
    | some found =>
      obtain ⟨read, hread⟩ := ih (doc.addRouter found)
      refine ⟨read, hread.trans ?_⟩
      rw [addRouter]
      split <;> rfl

theorem read_write_of_legible {d : EndpointDoc} (h : d.Legible) :
    ∃ routers, read d.write = { d.normal with routers := routers } := by
  rw [read_write_eq_addAll h]
  exact addAll_items_routers _ _

theorem write_eq_iff {d e : EndpointDoc} (hd : d.Legible) (he : e.Legible)
    (hrouters : d.routers = e.routers) : d.write = e.write ↔ d.normal = e.normal := by
  constructor
  · intro h
    obtain ⟨rs, hrs⟩ := read_write_of_legible hd
    obtain ⟨ss, hss⟩ := read_write_of_legible he
    rw [h, hss] at hrs
    calc
      d.normal
        = { ({ d.normal with routers := rs } : EndpointDoc) with routers := d.routers } := rfl
      _ = { ({ e.normal with routers := ss } : EndpointDoc) with routers := e.routers } := by
        rw [hrs, hrouters]
      _ = e.normal := rfl
  · intro h
    rw [← write_normal d, h, write_normal e]

/-- An attribute that was left blank by hand comes back if it is derived. -/
theorem filter_orElse_iff {existing derived : Option String} (h : ∀ x ∈ derived, x ≠ "") :
    ((((existing.orElse fun _ ↦ derived).filter fun x ↦ !x.isEmpty).orElse fun _ ↦ derived).filter
        fun x ↦ !x.isEmpty) = ((existing.orElse fun _ ↦ derived).filter fun x ↦ !x.isEmpty) ↔
      (existing = some "" → derived = none) := by
  have hderived : (derived.filter fun x ↦ !x.isEmpty) = derived := filter_nonempty_eq_self.2 h
  cases existing with
  | none => simp [hderived]
  | some x =>
    by_cases hx : x = ""
    · subst hx
      have hblank : ((some "").filter fun x ↦ !x.isEmpty) = none := rfl
      simp [hblank, hderived]
    · have hfilter : ((some x).filter fun x ↦ !x.isEmpty) = some x :=
        Option.filter_some_pos (by simpa using hx)
      simp [hfilter, hx]

def BlankSafe (derived : EndpointDoc) (lines : List String) : Prop :=
  ((read lines).tags = some "" → derived.tags = none) ∧
    ((read lines).id = some "" → derived.id = none)

section Again

variable {derived existing : EndpointDoc}

theorem normal_merge_params (hd : derived.WellFormed) (he : existing.Legible) :
    byRank (·.kind.rank) (merge derived (merge derived existing).normal).params =
      byRank (·.kind.rank) (merge derived existing).params := by
  have hm := legible_merge hd he
  have hkeys := map_key_describe existing derived.params
  have hdescribe : derived.params.map (describe (merge derived existing).normal) =
      derived.params.map (describe existing) := by
    refine List.map_congr_left fun p hp ↦ describe_of_param? ?_
    have hmem : describe existing p ∈ (merge derived existing).normal.params := by
      refine (mem_byRank _).2 ?_
      rw [merge_eq]
      exact mem_keepNew_of_mem _ (List.mem_map_of_mem hp) _
    obtain ⟨hkind, hname⟩ := Prod.mk.inj (key_describe existing p)
    rw [← hkind, ← hname]
    exact param?_of_mem (legible_normal hm).distinctParams hmem
  rw [merge_eq derived (merge derived existing).normal, hdescribe, merge_eq derived existing]
  exact byRank_keepNew_byRank ParamDoc.key _ (hkeys ▸ hd.distinctParams) he.distinctParams

theorem normal_merge_responses (hd : derived.WellFormed) (he : existing.Legible) :
    byRank (·.status) (merge derived (merge derived existing).normal).responses =
      byRank (·.status) (merge derived existing).responses := by
  rw [merge_eq derived (merge derived existing).normal, merge_eq derived existing]
  exact byRank_keepNew_byRank ResponseDoc.status _ hd.distinctResponses he.distinctResponses

theorem normal_merge_descriptions :
    (merge derived (merge derived existing).normal).descriptions =
      (merge derived existing).descriptions := by
  rw [merge_eq derived (merge derived existing).normal, merge_eq derived existing]
  refine keepNew_of_subset _ fun x hx ↦ ?_
  exact (mem_map_keepNew _ _ _).2 (.inr (List.mem_map_of_mem hx))

theorem normal_merge_extra (hd : derived.WellFormed) :
    (merge derived (merge derived existing).normal).extra = (merge derived existing).extra := by
  rw [merge_eq derived (merge derived existing).normal, merge_eq derived existing]
  have hnodup : ((keepNew (fun x ↦ x) [] existing.extra).map fun x ↦ x).Nodup :=
    nodup_keepNew _ (by exact .nil) _
  dsimp only [normal]
  rw [hd.noExtra, keepNew_eq _ _ hnodup]
  simp

theorem normal_merge_id_iff (hd : derived.WellFormed) :
    (merge derived (merge derived existing).normal).normal.id = (merge derived existing).normal.id ↔
      (existing.id = some "" → derived.id = none) := by
  rw [merge_eq derived (merge derived existing).normal, merge_eq derived existing]
  exact filter_orElse_iff fun x hx ↦ (hd.id x hx).1

theorem normal_merge_tags_iff (hd : derived.WellFormed) :
    (merge derived (merge derived existing).normal).normal.tags =
        (merge derived existing).normal.tags ↔
      (existing.tags = some "" → derived.tags = none) := by
  rw [merge_eq derived (merge derived existing).normal, merge_eq derived existing]
  exact filter_orElse_iff fun x hx ↦ (hd.tags x hx).1

theorem normal_merge_summary : (merge derived (merge derived existing).normal).summary =
    (merge derived existing).summary := by
  rw [merge_eq derived (merge derived existing).normal, merge_eq derived existing]
  dsimp only [normal]
  by_cases hempty : existing.summary.isEmpty
  · rw [if_pos hempty]
    exact ite_self _
  · rw [if_neg hempty]
    exact if_neg hempty

/-- Merging once more what was merged and written changes nothing, unless a blank attribute hides
a derived one. -/
theorem normal_merge_eq_iff (hd : derived.WellFormed) (he : existing.Legible) :
    (merge derived (merge derived existing).normal).normal = (merge derived existing).normal ↔
      (existing.tags = some "" → derived.tags = none) ∧
        (existing.id = some "" → derived.id = none) := by
  rw [← normal_merge_tags_iff hd, ← normal_merge_id_iff hd]
  constructor
  · intro h
    exact ⟨congrArg EndpointDoc.tags h, congrArg EndpointDoc.id h⟩
  · rintro ⟨htags, hid⟩
    apply EndpointDoc.ext
    case summary => exact normal_merge_summary
    case id => exact hid
    case tags => exact htags
    case descriptions => exact normal_merge_descriptions
    case accept =>
      rw [merge_eq derived (merge derived existing).normal, merge_eq derived existing]
      exact mediaList_append_mediaList _ _
    case produce =>
      rw [merge_eq derived (merge derived existing).normal, merge_eq derived existing]
      exact mediaList_append_mediaList _ _
    case params => exact normal_merge_params hd he
    case responses => exact normal_merge_responses hd he
    case routers =>
      rw [merge_eq derived (merge derived existing).normal, merge_eq derived existing]
      rfl
    case extra => exact normal_merge_extra hd

/-- The block of a handler is settled by one update, unless a blank attribute hides a derived
one. -/
theorem update_update_eq_iff (hd : derived.WellFormed) (lines : List String) :
    derived.update (derived.update lines) = derived.update lines ↔ BlankSafe derived lines := by
  have hread : (read lines).Legible := (fullyLegible_read lines).toLegible
  have hmerge := legible_merge hd hread
  have hagain := legible_merge hd (legible_normal hmerge)
  obtain ⟨routers, hrouters⟩ := read_write_of_legible hmerge
  have hupdate : derived.update (derived.update lines) =
      (merge derived (merge derived (read lines)).normal).write := by
    rw [update, update, hrouters]
    rfl
  rw [hupdate, update, write_eq_iff hagain hmerge (by rw [merge_eq, merge_eq]),
    normal_merge_eq_iff hd hread, BlankSafe]

end Again

/-- A second update with the same derived documentation leaves a block as the first one made it,
and so a second annotation of a handler reports no change, exactly when no blank attribute hides a
derived one. -/
theorem second_update_idle_iff {derived : EndpointDoc} (hd : derived.WellFormed)
    (lines : List String) :
    (derived.update (derived.update lines) = derived.update lines ↔ BlankSafe derived lines) ∧
      ∀ (p : Project) (f : FuncRef), (p.function? f).isSome → p.docLines f = lines →
        (((p.annotate f derived).1.annotate f derived).2 = false ↔ BlankSafe derived lines) := by
  have hupdate := update_update_eq_iff hd lines
  refine ⟨hupdate, fun p f hf hlines ↦ ?_⟩
  have hfirst : (p.annotate f derived).1.docLines f = derived.update lines := by
    rw [Project.annotate, hlines, Project.docLines_setDoc_self hf]
  have hsome : ((p.annotate f derived).1.function? f).isSome := by
    rwa [Project.annotate, Project.isSome_function?_setDoc]
  rw [← hupdate, Project.annotate, Project.setDoc_unchanged_iff hsome, hfirst, eq_comm]

theorem second_update_idle_book :
    let derived : EndpointDoc :=
      { summary := "GetBook", tags := some "api", produce := ["json"],
        params := [⟨"id", .path, "string", true, "id"⟩],
        responses := [⟨200, "\x7bobject\x7d", "model.Book"⟩],
        routers := [⟨"/api/books/\x7bid\x7d", "get"⟩] }
    let lines := ["// Finds a book.", "// @Param id path string true \"Book ID\"",
      "// @Failure 404 \x7bobject\x7d gin.H", "// @ID"]
    derived.WellFormed ∧ BlankSafe derived lines ∧
      derived.update (derived.update lines) = derived.update lines := by
  intro derived lines
  have hmedia : IsMedia "json" := ⟨by decide, by decide, by decide⟩
  have hparam : ParamDoc.Legible ⟨"id", .path, "string", true, "id"⟩ :=
    ⟨by decide, by decide, by decide, by decide⟩
  have hresponse : ResponseDoc.Legible ⟨200, "\x7bobject\x7d", "model.Book"⟩ :=
    ⟨by decide, ⟨"object", by decide, by simp [isWord], rfl⟩, by decide, by decide, by decide⟩
  have hd : derived.WellFormed :=
    { summary := by decide
      id := by simp [derived]
      tags := by rintro x ⟨⟩; exact ⟨by decide, by decide⟩
      descriptions := by simp [derived]
      accept := by simp [derived]
      produce := List.forall_mem_singleton.2 hmedia
      params := List.forall_mem_singleton.2 hparam
      distinctParams := by decide
      responses := List.forall_mem_singleton.2 hresponse
      distinctResponses := by decide
      noExtra := rfl }
  have hsafe : BlankSafe derived lines := ⟨by decide, by decide⟩
  exact ⟨hd, hsafe, (second_update_idle_iff hd lines).1.2 hsafe⟩

/-- A blank attribute is not written, so that the derived one comes in with the second update. -/
theorem second_update_after_blank_id :
    let derived : EndpointDoc := { id := some "list" }
    derived.WellFormed ∧ (read ["// @ID"]).tags ≠ some "" ∧
      derived.update ["// @ID"] = ["// @Summary "] ∧
      derived.update (derived.update ["// @ID"]) = ["// @Summary ", "// @ID list"] := by
  intro derived
  have hd : derived.WellFormed :=
    { summary := by decide
      id := by rintro x ⟨⟩; exact ⟨by decide, by decide⟩
      tags := by simp [derived]
      descriptions := by simp [derived]
      accept := by simp [derived]
      produce := by simp [derived]
      params := by simp [derived]
      distinctParams := .nil
      responses := by simp [derived]
      distinctResponses := .nil
      noExtra := rfl }
  exact ⟨hd, by decide, by cbv, by cbv⟩

end HandlerDocs.EndpointDoc
