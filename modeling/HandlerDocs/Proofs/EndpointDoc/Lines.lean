import HandlerDocs.Proofs.EndpointDoc.Settled

namespace HandlerDocs.EndpointDoc

open Text

theorem bare_trimEnd (raw : String) : bare (trimEnd raw) = bare raw := by
  rw [bare, trim_trimEnd, bare]

/-- Blanks at the ends of lines are not read. -/
theorem read_map_trimEnd (lines : List String) : read (lines.map trimEnd) = read lines := by
  have hbare : bare ∘ trimEnd = bare := funext bare_trimEnd
  rw [read, read, List.map_map, hbare]

/-- A written line is the line of one entry. -/
theorem forall_mem_write {d : EndpointDoc} {P : String → Prop}
    (hsummary : P ("// @Summary " ++ d.summary))
    (hoptional : ∀ key x, (x ∈ d.id ∨ x ∈ d.tags) → x ≠ "" → P ("// @" ++ key ++ " " ++ x))
    (hdescriptions : ∀ x ∈ d.descriptions, P ("// @Description " ++ x))
    (hmedia : ∀ key media, media = d.accept ∨ media = d.produce → mediaList media ≠ [] →
      P ("// @" ++ key ++ " " ++ ",".intercalate (mediaList media)))
    (hparams : ∀ p ∈ d.params, P (writeParam p))
    (hresponses : ∀ r ∈ d.responses, P (writeResponse r))
    (hextra : ∀ x ∈ d.extra, P ("// " ++ x)) (hrouters : ∀ r ∈ d.routers, P (writeRouter r)) :
    ∀ line ∈ d.write, P line := by
  have hwriteOptional (key : String) (value : Option String)
      (h : ∀ x ∈ value, x ≠ "" → P ("// @" ++ key ++ " " ++ x)) :
      ∀ line ∈ writeOptional key value, P line := by
    rw [writeOptional.eq_def]
    split
    · rename_i text
      split
      · simp
      · rename_i hne
        exact List.forall_mem_singleton.2 (h text rfl (by simpa using hne))
    · simp
  have hwriteMedia (key : String) (media : List String)
      (h : mediaList media ≠ [] → P ("// @" ++ key ++ " " ++ ",".intercalate (mediaList media))) :
      ∀ line ∈ writeMedia key media, P line := by
    rw [writeMedia.eq_def]
    split
    · simp
    · rename_i hne
      exact List.forall_mem_singleton.2 (h hne)
  simp only [write, List.forall_mem_append, List.forall_mem_map, List.mem_mergeSort]
  exact ⟨⟨⟨⟨⟨⟨⟨⟨⟨List.forall_mem_singleton.2 hsummary,
    hwriteOptional _ _ fun x hx ↦ hoptional _ x (.inl hx)⟩,
    hwriteOptional _ _ fun x hx ↦ hoptional _ x (.inr hx)⟩, hdescriptions⟩,
    hwriteMedia _ _ (hmedia _ _ (.inl rfl))⟩, hwriteMedia _ _ (hmedia _ _ (.inr rfl))⟩, hparams⟩,
    hresponses⟩, hextra⟩, hrouters⟩

theorem write_ne_nil (d : EndpointDoc) : d.write ≠ [] := by
  simp [write]

theorem isPrefix_append {s : String} (h : ['/', '/'] <+: s.toList) (t : String) :
    ['/', '/'] <+: (s ++ t).toList := by
  rw [String.toList_append]
  exact h.trans (List.prefix_append _ _)

/-- Every written line is a comment. -/
theorem isPrefix_of_mem_write {d : EndpointDoc} : ∀ line ∈ d.write, ['/', '/'] <+: line.toList := by
  have hmark (text : String) : ['/', '/'] <+: ("// @" ++ text).toList :=
    isPrefix_append (by decide) text
  refine forall_mem_write ?_ ?_ ?_ ?_ ?_ ?_ ?_ ?_
  · exact isPrefix_append (by decide) _
  · intro key x _ _
    exact isPrefix_append (isPrefix_append (hmark key) _) _
  · intro x _
    exact isPrefix_append (by decide) _
  · intro key media _ _
    exact isPrefix_append (isPrefix_append (hmark key) _) _
  · intro p _
    unfold writeParam
    simp only [String.append_assoc]
    exact isPrefix_append (by decide) _
  · intro r _
    unfold writeResponse
    simp only [String.append_assoc]
    exact hmark _
  · intro x _
    exact isPrefix_append (by decide) _
  · intro r _
    unfold writeRouter
    simp only [String.append_assoc]
    exact isPrefix_append (by decide) _

/-- Only an entry without a text leaves a blank at the end of its line. -/
theorem map_trimEnd_write_iff {d : EndpointDoc} (h : d.Legible) :
    d.write.map trimEnd = d.write ↔ d.summary ≠ "" ∧ "" ∉ d.descriptions := by
  rw [map_eq_self_iff]
  constructor
  · intro htrim
    constructor
    · intro hempty
      have hline := htrim ("// @Summary " ++ d.summary) (by simp [write])
      rw [hempty] at hline
      exact absurd hline (by decide)
    · intro hempty
      have hmem : "// @Description " ++ "" ∈ d.descriptions.map ("// @Description " ++ ·) :=
        List.mem_map_of_mem hempty
      have hline := htrim ("// @Description " ++ "") (by
        simp only [write, List.mem_append]
        tauto)
      exact absurd hline (by decide)
  · rintro ⟨hsummary, hdescriptions⟩
    have hmedia (media : List String) (hm : ∀ x ∈ media, IsMedia x) (hne : mediaList media ≠ []) :
        trimEnd (",".intercalate (mediaList media)) = ",".intercalate (mediaList media) ∧
          ",".intercalate (mediaList media) ≠ "" := by
      have hlist : ∀ x ∈ mediaList media, IsMedia x := fun x hx ↦ hm x (mem_mediaList.1 hx)
      refine ⟨(trimmed_intercalate hlist).trimEnd_eq, fun hempty ↦ hne ?_⟩
      rw [← readMedia_intercalate hne hlist, hempty]
      decide
    refine forall_mem_write ?_ ?_ ?_ ?_ ?_ ?_ ?_ ?_
    · exact trimEnd_append h.summary.trimEnd_eq hsummary
    · rintro key x (hx | hx) hne
      · exact trimEnd_append (h.id x hx).trimEnd_eq hne
      · exact trimEnd_append (h.tags x hx).trimEnd_eq hne
    · intro x hx
      refine trimEnd_append (h.descriptions x hx).trimEnd_eq ?_
      rintro rfl
      exact hdescriptions hx
    · rintro key media (rfl | rfl) hne
      · obtain ⟨htrim, htext⟩ := hmedia _ h.accept hne
        exact trimEnd_append htrim htext
      · obtain ⟨htrim, htext⟩ := hmedia _ h.produce hne
        exact trimEnd_append htrim htext
    · intro p _
      unfold writeParam
      exact trimEnd_append (by decide) (by decide)
    · intro r hr
      unfold writeResponse
      exact trimEnd_append (h.responses r hr).type.trimEnd_eq (h.responses r hr).typed
    · intro x hx
      have hline := h.extra x hx
      exact trimEnd_append hline.trimmed.trimEnd_eq (ne_empty_of_marked hline.marked)
    · intro r _
      unfold writeRouter
      exact trimEnd_append (by decide) (by decide)

/-- One update settles the block of a handler also in the file: no attribute that was left blank
hides a derived one, and neither the summary nor a description is without a text. -/
structure Settled (derived : EndpointDoc) (lines : List String) : Prop where
  blankSafe : BlankSafe derived lines
  summary : derived.summary ≠ "" ∨ (read lines).summary ≠ ""
  descriptions : "" ∉ (read lines).descriptions ∧ "" ∉ derived.descriptions

theorem summary_merge_ne_empty_iff {derived existing : EndpointDoc} :
    (merge derived existing).summary ≠ "" ↔ derived.summary ≠ "" ∨ existing.summary ≠ "" := by
  rw [merge_eq]
  dsimp only
  by_cases hempty : existing.summary.isEmpty
  · rw [if_pos hempty]
    simp [String.isEmpty_iff.1 hempty]
  · rw [if_neg hempty]
    have hne : existing.summary ≠ "" := by simpa using hempty
    simp [hne]

theorem mem_descriptions_merge {derived existing : EndpointDoc} {x : String} :
    x ∈ (merge derived existing).descriptions ↔
      x ∈ existing.descriptions ∨ x ∈ derived.descriptions := by
  rw [merge_eq]
  simpa using mem_map_keepNew (fun x ↦ x) existing.descriptions derived.descriptions (k := x)

/-- A block that was updated, stored and read again is updated to itself exactly when it is
settled. -/
theorem update_map_trimEnd_eq_iff {derived : EndpointDoc} (hd : derived.WellFormed)
    (lines : List String) :
    derived.update ((derived.update lines).map trimEnd) = (derived.update lines).map trimEnd ↔
      Settled derived lines := by
  have hread : (read lines).Legible := (fullyLegible_read lines).toLegible
  have hmerge := legible_merge hd hread
  have hagain := legible_merge hd (fullyLegible_read (derived.update lines)).toLegible
  have hfirst : (derived.update lines).map trimEnd = derived.update lines ↔
      (derived.summary ≠ "" ∨ (read lines).summary ≠ "") ∧
        "" ∉ (read lines).descriptions ∧ "" ∉ derived.descriptions := by
    rw [update, map_trimEnd_write_iff hmerge, summary_merge_ne_empty_iff, mem_descriptions_merge,
      not_or]
  -- blanks that the first block leaves at its line ends are written again
  have hsecond (h : derived.update (derived.update lines) = (derived.update lines).map trimEnd) :
      (derived.update lines).map trimEnd = derived.update lines := by
    have htrim : (derived.update (derived.update lines)).map trimEnd =
        derived.update (derived.update lines) := by
      rw [h, List.map_map]
      exact List.map_congr_left fun line _ ↦ trimEnd_ofList_dropWhileEnd _
    rw [update, map_trimEnd_write_iff hagain] at htrim
    obtain ⟨routers, hrouters⟩ := read_write_of_legible hmerge
    rw [update, map_trimEnd_write_iff hmerge]
    rw [summary_merge_ne_empty_iff, mem_descriptions_merge, not_or, update, hrouters] at htrim
    refine ⟨?_, htrim.2.1⟩
    rcases htrim.1 with hsummary | hsummary
    · exact summary_merge_ne_empty_iff.2 (.inl hsummary)
    · exact hsummary
  rw [update, read_map_trimEnd, ← update]
  constructor
  · intro h
    have hfull := hsecond h
    rw [hfull, update_update_eq_iff hd] at h
    obtain ⟨hsummary, hdescriptions⟩ := hfirst.1 hfull
    exact ⟨h, hsummary, hdescriptions⟩
  · intro h
    rw [hfirst.2 ⟨h.summary, h.descriptions⟩]
    exact (update_update_eq_iff hd lines).2 h.blankSafe

theorem summary_mem_items_write (d : EndpointDoc) : .summary (trim d.summary) ∈ items d.write := by
  have hline : "// @Summary " ++ d.summary ∈ d.write := by simp [write]
  exact List.mem_filterMap.2 ⟨_, hline, item?_summary _⟩

theorem summary_notMem_items_tail {d : EndpointDoc} (h : d.Legible) (text : String) :
    .summary text ∉ items d.write.tail := by
  have hwrite : d.write = ("// @Summary " ++ d.summary) :: d.write.tail := by simp [write]
  have hitems := items_write h
  rw [hwrite, items, List.filterMap_cons_some (item?_summary _), ← items] at hitems
  simp only [List.append_assoc, List.cons_append, List.nil_append] at hitems
  have hrouters : .summary text ∉ items (d.routers.map writeRouter) := by
    intro hmem
    obtain ⟨line, hline, hitem⟩ := List.mem_filterMap.1 hmem
    obtain ⟨r, -, rfl⟩ := List.mem_map.1 hline
    rw [item?_router] at hitem
    cases hread : readRouter? (trim (routerText r)) <;> simp [hread] at hitem
  rw [(List.cons.inj hitems).2]
  simp only [List.mem_append, not_or]
  refine ⟨by simp, by simp, by simp, ?_, ?_, by simp, by simp, by simp, hrouters⟩
  · split <;> simp
  · split <;> simp

/-- A block that has lost its first line is not up to date. -/
theorem update_tail_ne {derived : EndpointDoc} (hd : derived.WellFormed) (lines : List String) :
    derived.update ((derived.update lines).tail.map trimEnd) ≠
      (derived.update lines).tail.map trimEnd := by
  have hmerge := legible_merge hd (fullyLegible_read lines).toLegible
  have hitem : item? ∘ trimEnd = item? := funext fun line ↦ by
    rw [Function.comp_apply, item?, item?, bare_trimEnd]
  have htrim : items ((derived.update lines).tail.map trimEnd) =
      items (derived.update lines).tail := by
    rw [items, List.filterMap_map, hitem, items]
  have hnot (text : String) : .summary text ∉ items (derived.update lines).tail :=
    summary_notMem_items_tail hmerge text
  rw [← htrim] at hnot
  -- An update always writes a summary, and none is left here.
  intro heq
  rw [← heq] at hnot
  exact hnot _ (summary_mem_items_write _)

theorem getLast?_write {d : EndpointDoc} (h : d.routers ≠ []) :
    ∃ r, d.write.getLast? = some (writeRouter r) := by
  have hne : d.routers.map writeRouter ≠ [] := by simpa using h
  rw [write, List.getLast?_append_of_ne_nil _ hne, List.getLast?_map]
  exact ⟨_, by rw [List.getLast?_eq_some_getLast h, Option.map_some]⟩

end HandlerDocs.EndpointDoc
