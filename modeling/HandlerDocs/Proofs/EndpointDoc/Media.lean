import HandlerDocs.Proofs.EndpointDoc.Columns

namespace HandlerDocs.EndpointDoc

open Text

structure IsMedia (item : String) : Prop where
  nonempty : item ≠ ""
  trimmed : Trimmed item
  noComma : ',' ∉ item.toList

theorem fieldsOf_eq_splitOn (sep : Char) (cs : List Char) : fieldsOf sep cs = cs.splitOn sep := by
  induction cs with
  | nil => rfl
  | cons c cs ih =>
    rw [fieldsOf, ih, List.splitOn_cons_eq_if_modifyHead]
    by_cases hc : c = sep
    · simp [hc]
    · rw [if_neg hc, if_neg (by simpa using hc)]
      cases h : cs.splitOn sep with
      | nil => exact absurd h (List.splitOn_ne_nil _ _)
      | cons f fs => rfl

theorem not_mem_of_mem_fieldsOf {sep : Char} {cs field : List Char}
    (h : field ∈ fieldsOf sep cs) : sep ∉ field := by
  induction cs generalizing field with
  | nil =>
    rw [fieldsOf, List.mem_singleton] at h
    simp [h]
  | cons c cs ih =>
    rw [fieldsOf] at h
    split at h
    · rcases List.mem_cons.1 h with rfl | h
      · simp
      · exact ih h
    · rename_i hc
      cases hfs : fieldsOf sep cs with
      | nil =>
        rw [hfs, List.mem_singleton] at h
        simp [h, Ne.symm hc]
      | cons f fs =>
        rw [hfs] at ih h
        rcases List.mem_cons.1 h with rfl | h
        · simp [Ne.symm hc, ih List.mem_cons_self]
        · exact ih (List.mem_cons_of_mem _ h)

theorem isMedia_of_mem_readMedia {list item : String} (h : item ∈ readMedia list) :
    IsMedia item := by
  simp only [readMedia, fields, List.mem_filter, List.mem_map, Bool.not_eq_true',
    String.isEmpty_eq_false_iff] at h
  obtain ⟨⟨field, ⟨cs, hcs, rfl⟩, rfl⟩, hne⟩ := h
  refine ⟨hne, trimmed_trim _, fun hcomma ↦ not_mem_of_mem_fieldsOf hcs ?_⟩
  simpa using mem_of_mem_trim hcomma

theorem readMedia_intercalate {items : List String} (hne : items ≠ [])
    (h : ∀ item ∈ items, IsMedia item) : readMedia (",".intercalate items) = items := by
  have hsplit : fieldsOf ',' (",".intercalate items).toList = items.map String.toList := by
    rw [fieldsOf_eq_splitOn, String.toList_intercalate]
    refine List.splitOn_intercalate ',' (fun l hl ↦ ?_) (by simpa using hne)
    obtain ⟨item, hitem, rfl⟩ := List.mem_map.1 hl
    exact (h item hitem).noComma
  have hfields : (fields ',' (",".intercalate items)).map trim = items := by
    rw [fields, hsplit, List.map_map, List.map_map]
    refine (List.map_congr_left fun item hitem ↦ ?_).trans (List.map_id' items)
    have htrim : trim item = item := (h item hitem).trimmed
    simpa using htrim
  rw [readMedia, hfields, List.filter_eq_self]
  intro item hitem
  simpa using (h item hitem).nonempty

theorem trimmed_intercalate {items : List String} (h : ∀ item ∈ items, IsMedia item) :
    Trimmed (",".intercalate items) := by
  induction items with
  | nil => exact trimmed_empty
  | cons item items ih =>
    have hitem := h item List.mem_cons_self
    cases items with
    | nil => simpa using hitem.trimmed
    | cons next items =>
      have hrest := trimmed_iff.1 (ih fun i hi ↦ h i (List.mem_cons_of_mem _ hi))
      have htext : (",".intercalate (item :: next :: items)).toList =
          item.toList ++ ',' :: (",".intercalate (next :: items)).toList := by
        simp [String.intercalate_cons_cons]
      refine trimmed_iff.2 ⟨?_, ?_⟩
      · rw [htext, List.head?_append_of_ne_nil _ (by simpa using hitem.nonempty)]
        exact (trimmed_iff.1 hitem.trimmed).1
      · rw [htext, List.getLast?_append_of_ne_nil _ (by simp), List.getLast?_cons]
        intro c hc
        cases hlast : (",".intercalate (next :: items)).toList.getLast? with
        | none =>
          rw [hlast, Option.mem_some_iff] at hc
          subst hc
          decide
        | some d =>
          rw [hlast, Option.mem_some_iff] at hc
          exact hc ▸ hrest.2 d hlast

theorem dedup_cons (a : String) (items : List String) :
    dedup (a :: items) = if items.head? = some a then dedup items else a :: dedup items := by
  cases items with
  | nil => rfl
  | cons b more => simp only [dedup, List.head?_cons, Option.some.injEq, eq_comm]

theorem mem_dedup {items : List String} {x : String} : x ∈ dedup items ↔ x ∈ items := by
  induction items with
  | nil => rfl
  | cons a items ih =>
    rw [dedup_cons]
    split
    · rename_i h
      have ha : a ∈ items := List.mem_of_mem_head? h
      rw [ih, List.mem_cons]
      exact ⟨.inr, fun hx ↦ hx.elim (fun e ↦ e ▸ ha) fun hx ↦ hx⟩
    · rw [List.mem_cons, List.mem_cons, ih]

theorem pairwise_dedup {items : List String} (h : items.Pairwise (· ≤ ·)) :
    (dedup items).Pairwise (· < ·) := by
  induction items with
  | nil => exact .nil
  | cons a items ih =>
    rw [List.pairwise_cons] at h
    rw [dedup_cons]
    split
    · exact ih h.2
    · rename_i hne
      refine List.pairwise_cons.2 ⟨fun b hb ↦ lt_of_le_of_ne (h.1 b (mem_dedup.1 hb)) ?_, ih h.2⟩
      -- an equal item later on would stand at the front, where it was ruled out
      rintro rfl
      cases items with
      | nil => simp [dedup] at hb
      | cons c more =>
        have hc : c ≤ a := by
          rcases List.mem_cons.1 (mem_dedup.1 hb) with hac | hac
          · exact hac.ge
          · exact (List.pairwise_cons.1 h.2).1 a hac
        exact hne (by rw [List.head?_cons, le_antisymm hc (h.1 c List.mem_cons_self)])

theorem mem_mediaList {media : List String} {x : String} : x ∈ mediaList media ↔ x ∈ media := by
  rw [mediaList, mem_dedup, List.mem_mergeSort]

theorem pairwise_mediaList (media : List String) : (mediaList media).Pairwise (· < ·) := by
  have htrans (a b c : String) (hab : decide (a ≤ b) = true) (hbc : decide (b ≤ c) = true) :
      decide (a ≤ c) = true := by
    simp only [decide_eq_true_eq] at *
    exact hab.trans hbc
  have htotal (a b : String) : (decide (a ≤ b) || decide (b ≤ a)) = true := by
    simpa using le_total a b
  have h := List.pairwise_mergeSort htrans htotal media
  exact pairwise_dedup (h.imp fun hab ↦ by simpa using hab)

/-- A media list is the one strictly increasing list with the given members. -/
theorem mediaList_eq_of_pairwise {media items : List String} (h : items.Pairwise (· < ·))
    (hmem : ∀ x, x ∈ media ↔ x ∈ items) : mediaList media = items := by
  have hperm : (mediaList media).Perm items := by
    refine (List.perm_ext_iff_of_nodup ?_ ?_).2 fun x ↦ mem_mediaList.trans (hmem x)
    · exact (pairwise_mediaList media).imp ne_of_lt
    · exact h.imp ne_of_lt
  exact hperm.eq_of_pairwise (fun a b _ _ hab hba ↦ (lt_asymm hab hba).elim)
    (pairwise_mediaList media) h

@[simp] theorem mediaList_idem (media : List String) :
    mediaList (mediaList media) = mediaList media :=
  mediaList_eq_of_pairwise (pairwise_mediaList media) fun _ ↦ Iff.rfl

/-- Adding to a media list what it was made from does not change it. -/
theorem mediaList_append_mediaList (derived existing : List String) :
    mediaList (derived ++ mediaList (derived ++ existing)) = mediaList (derived ++ existing) := by
  refine mediaList_eq_of_pairwise (pairwise_mediaList _) fun x ↦ ?_
  rw [List.mem_append, mem_mediaList, List.mem_append]
  exact ⟨fun h ↦ h.elim .inl fun hx ↦ hx, .inr⟩

end HandlerDocs.EndpointDoc
