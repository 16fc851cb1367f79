import HandlerDocs.Overview
import HandlerDocs.Proofs.EndpointDoc.Lines
import HandlerDocs.Proofs.Text.Words

namespace HandlerDocs

open Text EndpointDoc

namespace Overview

/-- A run of characters without blanks is the first word of what it begins. -/
theorem head?_wordsOf {word rest : List Char} (hne : word ≠ [])
    (hword : ∀ c ∈ word, isBlank c = false) (hrest : ∀ c ∈ rest.head?, isBlank c) :
    (wordsOf (word ++ rest)).head? = some word := by
  rw [wordsOf_append (.inr hrest), wordsOf_eq_singleton hne hword]
  rfl

theorem solid_spelling {k : Key} (hk : k ∈ allKeys) : Solid k.spelling := by
  revert k
  decide +kernel

theorem lower_spelling {k : Key} (hk : k ∈ allKeys) : lower k.spelling = k.key := by
  revert k
  decide +kernel

theorem solid_at {s : String} (h : Solid s) : Solid ("@" ++ s) := by
  refine ⟨by simp, fun c hc ↦ ?_⟩
  rw [String.toList_append, List.mem_append] at hc
  rcases hc with hc | hc
  · obtain rfl : c = '@' := by simpa using hc
    decide
  · exact h.2 c hc

/-- The key of a line that was written for it. -/
theorem lineKey?_written {k : Key} (hspelling : Solid k.spelling) (value : Option String) :
    lineKey? (written k value) = some (lower k.spelling) := by
  have hline : ∃ rest : List Char, (∀ c ∈ rest.head?, isBlank c) ∧
      (bare (written k value)).toList = '@' :: (k.spelling.toList ++ rest) := by
    cases value with
    | none =>
      refine ⟨[], by simp, ?_⟩
      have hcomment : written k none = "// " ++ ("@" ++ k.spelling) := by
        rw [written, ← String.append_assoc]
        rfl
      have htrim : trim ("@" ++ k.spelling) = "@" ++ k.spelling := (solid_at hspelling).trimmed
      rw [hcomment, bare_comment, htrim, String.toList_append, List.append_nil]
      rfl
    | some text =>
      have hcomment : written k (some text) = "// " ++ ("@" ++ k.spelling ++ " " ++ text) := by
        rw [written, ← String.append_assoc, ← String.append_assoc, ← String.append_assoc]
        rfl
      rw [hcomment, bare_comment, toList_trim_keyword (solid_at hspelling)]
      split
      · exact ⟨[], by simp, by simp⟩
      · exact ⟨' ' :: dropWhileEnd isBlank text.toList, by simp [isBlank], by simp⟩
  obtain ⟨rest, hrest, hbare⟩ := hline
  unfold lineKey?
  rw [hbare]
  change ((wordsOf (k.spelling.toList ++ rest)).head?.map fun word ↦ lower (String.ofList word)) = _
  rw [head?_wordsOf hspelling.toList_ne_nil hspelling.2 hrest, Option.map_some,
    String.ofList_toList]

theorem lineKey?_trimEnd (line : String) : lineKey? (trimEnd line) = lineKey? line := by
  unfold lineKey?
  rw [bare_trimEnd]

end Overview

namespace OverviewOptions

open Overview

variable (o : OverviewOptions)

theorem keys_sublist : o.keys.Sublist allKeys := by
  have hpart (enabled : Bool) (part : List Key) : (if enabled then part else []).Sublist part := by
    cases enabled <;> simp
  exact (((hpart _ _).append (hpart _ _)).append (hpart _ _)).append (hpart _ _)

theorem nodup_keys : (o.keys.map Key.key).Nodup :=
  (by decide +kernel : (allKeys.map Key.key).Nodup).sublist (o.keys_sublist.map Key.key)

theorem keys_ne_nil (h : o.isEnabled) : o.keys ≠ [] := by
  obtain ⟨base, license, tag, security, values⟩ := o
  simp only [isEnabled, Bool.or_eq_true] at h
  rcases h with ((rfl | rfl) | rfl) | rfl <;>
    simp [keys, baseKeys, licenseKeys, tagKeys, securityKeys]

theorem enables_of_mem {k : Key} (hk : k ∈ o.keys) : o.enables k.key := by
  rw [enables, List.any_eq_true]
  exact ⟨k, hk, by simp⟩

def Lasting : Prop :=
  ∀ k ∈ o.keys, ∀ value ∈ Assoc.get? k.key o.values, value ≠ "" ∧ trimEnd value = value

def Unbroken : Prop :=
  ∀ k ∈ o.keys, ∀ value ∈ Assoc.get? k.key o.values, OneLine value

end OverviewOptions

namespace Overview

variable {o : OverviewOptions} {lines : List String}

theorem mem_allKeys {k : Key} (hk : k ∈ o.keys) : k ∈ allKeys :=
  o.keys_sublist.subset hk

theorem lineKey?_lineFor {k : Key} (hk : k ∈ o.keys) :
    lineKey? (lineFor o lines k) = some k.key := by
  have hwritten (value : Option String) : lineKey? (written k value) = some k.key := by
    rw [lineKey?_written (solid_spelling (mem_allKeys hk)), lower_spelling (mem_allKeys hk)]
  rw [lineFor]
  cases Assoc.get? k.key o.values with
  | some value => exact hwritten _
  | none =>
    cases hfind : lines.find? fun line ↦ decide (lineKey? line = some k.key) with
    | none => exact hwritten _
    | some line => simpa using List.find?_some hfind

theorem lineFor_of_some {k : Key} {value : String} (h : Assoc.get? k.key o.values = some value) :
    lineFor o lines k = written k (some value) := by
  rw [lineFor, h]

theorem lineFor_of_none {k : Key} (h : Assoc.get? k.key o.values = none) : lineFor o lines k =
    (lines.find? fun line ↦ decide (lineKey? line = some k.key)).getD (written k k.value) := by
  rw [lineFor, h]

theorem trimEnd_written_iff (k : Key) (value : String) :
    trimEnd (written k (some value)) = written k (some value) ↔
      value ≠ "" ∧ trimEnd value = value := by
  rw [written]
  by_cases hempty : value = ""
  · subst hempty
    rw [String.append_empty, trimEnd_append_eq_self (by decide)]
    decide
  · rw [trimEnd_append_eq_self hempty]
    simp [hempty]

def kept (o : OverviewOptions) (lines : List String) : List String :=
  lines.filter fun line ↦ !(lineKey? line).any o.enables

theorem kept_append_map {line : Key → String}
    (hline : ∀ k ∈ o.keys, lineKey? (line k) = some k.key) :
    kept o (kept o lines ++ o.keys.map line) = kept o lines := by
  have hkeys : kept o (o.keys.map line) = [] := by
    rw [kept, List.filter_eq_nil_iff]
    intro l hl
    obtain ⟨k, hk, rfl⟩ := List.mem_map.1 hl
    simp [hline k hk, o.enables_of_mem hk]
  have hkept : kept o (kept o lines) = kept o lines := by
    rw [kept, List.filter_eq_self]
    exact fun l hl ↦ (List.mem_filter.1 hl).2
  calc kept o (kept o lines ++ o.keys.map line)
      = kept o (kept o lines) ++ kept o (o.keys.map line) := List.filter_append ..
    _ = kept o lines := by rw [hkept, hkeys, List.append_nil]

/-- Among the lines of a block that was updated the one for a key is found. -/
theorem find?_append_map {line : Key → String}
    (hline : ∀ k ∈ o.keys, lineKey? (line k) = some k.key) {k : Key} (hk : k ∈ o.keys) :
    (kept o lines ++ o.keys.map line).find? (fun l ↦ decide (lineKey? l = some k.key)) =
      some (line k) := by
  have hkept : (kept o lines).find? (fun l ↦ decide (lineKey? l = some k.key)) = none := by
    rw [List.find?_eq_none]
    intro l hl hkey
    have hnot := (List.mem_filter.1 hl).2
    simp [of_decide_eq_true hkey, o.enables_of_mem hk] at hnot
  have hkeys : o.keys.find? ((fun l ↦ decide (lineKey? l = some k.key)) ∘ line) = some k := by
    obtain ⟨before, after, hsplit⟩ := List.append_of_mem hk
    have hnodup := o.nodup_keys
    rw [hsplit, List.map_append, List.map_cons, List.nodup_append] at hnodup
    have hbefore : before.find? ((fun l ↦ decide (lineKey? l = some k.key)) ∘ line) = none := by
      rw [List.find?_eq_none]
      intro j hj hkey
      have hjkey := hline j (by simp [hsplit, hj])
      simp only [Function.comp_apply, decide_eq_true_eq, hjkey, Option.some.injEq] at hkey
      exact hnodup.2.2 j.key (List.mem_map_of_mem hj) k.key (by simp) hkey
    rw [hsplit, List.find?_append, hbefore, Option.none_or,
      List.find?_cons_of_pos (by simp [hline k hk])]
  rw [List.find?_append, hkept, Option.none_or, List.find?_map, hkeys, Option.map_some]

/-- General information that was updated, stored and read again is updated to itself exactly when
the configured values last. -/
theorem update_map_trimEnd_eq_iff (hlines : lines.map trimEnd = lines) :
    update o ((update o lines).map trimEnd) = (update o lines).map trimEnd ↔ o.Lasting := by
  have hkept : (kept o lines).map trimEnd = kept o lines :=
    map_eq_self_iff.2 fun l hl ↦ map_eq_self_iff.1 hlines l (List.mem_of_mem_filter hl)
  have hstored : (update o lines).map trimEnd =
      kept o lines ++ o.keys.map fun k ↦ trimEnd (lineFor o lines k) := by
    rw [update, List.map_append, List.map_map]
    exact congrArg (· ++ _) hkept
  have hline : ∀ k ∈ o.keys, lineKey? (trimEnd (lineFor o lines k)) = some k.key := fun k hk ↦ by
    rw [lineKey?_trimEnd, lineKey?_lineFor hk]
  have hagain : update o ((update o lines).map trimEnd) =
      kept o lines ++ o.keys.map (lineFor o ((update o lines).map trimEnd)) := by
    rw [update, hstored]
    exact congrArg (· ++ _) (kept_append_map hline)
  rw [hagain, hstored, List.append_cancel_left_eq, List.map_inj_left, OverviewOptions.Lasting]
  refine forall_congr' fun k ↦ forall_congr' fun hk ↦ ?_
  cases hvalue : Assoc.get? k.key o.values with
  | none =>
    rw [lineFor_of_none hvalue, find?_append_map hline hk]
    simp
  | some value =>
    rw [lineFor_of_some hvalue, lineFor_of_some hvalue, eq_comm, trimEnd_written_iff]
    simp

theorem update_ne_nil (h : o.isEnabled) : update o lines ≠ [] := by
  rw [update]
  simp [o.keys_ne_nil h]

/-- Every line is one that was there, or it was written for a key. -/
theorem mem_update {line : String} (h : line ∈ update o lines) :
    line ∈ lines ∨ ∃ k ∈ o.keys, line = written k k.value ∨
      ∃ value ∈ Assoc.get? k.key o.values, line = written k (some value) := by
  rw [update, List.mem_append] at h
  rcases h with h | h
  · exact .inl (List.mem_of_mem_filter h)
  · obtain ⟨k, hk, rfl⟩ := List.mem_map.1 h
    cases hvalue : Assoc.get? k.key o.values with
    | some value => exact .inr ⟨k, hk, .inr ⟨value, hvalue, lineFor_of_some hvalue⟩⟩
    | none =>
      rw [lineFor_of_none hvalue]
      cases hfind : lines.find? fun line ↦ decide (lineKey? line = some k.key) with
      | none => exact .inr ⟨k, hk, .inl rfl⟩
      | some old => exact .inl (List.mem_of_find?_eq_some hfind)

theorem isPrefix_written (k : Key) (value : Option String) :
    ['/', '/'] <+: (written k value).toList := by
  have hmark : ['/', '/'] <+: ("// @" ++ k.spelling).toList := isPrefix_append (by decide) _
  cases value with
  | none => exact hmark
  | some text => exact isPrefix_append (isPrefix_append hmark _) _

theorem isPrefix_of_mem_update (h : ∀ line ∈ lines, ['/', '/'] <+: line.toList) :
    ∀ line ∈ update o lines, ['/', '/'] <+: line.toList := by
  intro line hline
  rcases mem_update hline with hold | ⟨k, -, rfl | ⟨value, -, rfl⟩⟩
  · exact h line hold
  · exact isPrefix_written k _
  · exact isPrefix_written k _

theorem oneLine_written {k : Key} (hk : k ∈ allKeys) (value : Option String) :
    OneLine (written k value) ↔ ∀ text ∈ value, OneLine text := by
  have hmarks : OneLine "// @" ∧ OneLine " " := by decide
  have hspelling := (solid_spelling hk).oneLine
  cases value with
  | none => simp [written, hmarks, hspelling]
  | some text => simp [written, hmarks, hspelling]

/-- The lines of general information are lines exactly when no configured value breaks them. -/
theorem oneLine_update_iff (h : ∀ line ∈ lines, OneLine line) :
    (∀ line ∈ update o lines, OneLine line) ↔ o.Unbroken := by
  have hdefaults : ∀ k ∈ allKeys, ∀ text ∈ k.value, OneLine text := by decide +kernel
  constructor
  · intro hupdate k hk value hvalue
    have hline : lineFor o lines k ∈ update o lines :=
      List.mem_append_right _ (List.mem_map_of_mem hk)
    rw [lineFor_of_some hvalue] at hline
    exact (oneLine_written (mem_allKeys hk) _).1 (hupdate _ hline) value rfl
  · intro hvalues line hline
    rcases mem_update hline with hold | ⟨k, hk, rfl | ⟨value, hvalue, rfl⟩⟩
    · exact h line hold
    · exact (oneLine_written (mem_allKeys hk) _).2 (hdefaults k (mem_allKeys hk))
    · refine (oneLine_written (mem_allKeys hk) _).2 ?_
      rintro text ⟨⟩
      exact hvalues k hk value hvalue

/-- General information that has lost its first line is not up to date. -/
theorem update_tail_ne (h : o.isEnabled) :
    update o ((update o []).tail.map trimEnd) ≠ (update o []).tail.map trimEnd := by
  have hkeys := List.length_pos_iff.2 (o.keys_ne_nil h)
  -- One line per key is written always, and one is missing here.
  have hlength (lines : List String) : o.keys.length ≤ (update o lines).length := by
    rw [update, List.length_append, List.length_map]
    omega
  have hnil : (update o []).length = o.keys.length := by simp [update]
  intro heq
  have hlong := hlength ((update o []).tail.map trimEnd)
  rw [heq, List.length_map, List.length_tail, hnil] at hlong
  omega

theorem lineKey?_of_mem_getLast? (h : o.isEnabled) {line : String}
    (hline : line ∈ (update o lines).getLast?) : ∃ k ∈ o.keys, lineKey? line = some k.key := by
  have hne : o.keys.map (lineFor o lines) ≠ [] := by simpa using o.keys_ne_nil h
  rw [update, List.getLast?_append_of_ne_nil _ hne] at hline
  obtain ⟨k, hk, rfl⟩ := List.mem_map.1 (List.mem_of_getLast? hline)
  exact ⟨k, hk, lineKey?_lineFor hk⟩

theorem lineKey?_writeRouter (r : RouterDoc) : lineKey? (writeRouter r) = some "router" := by
  have hline : writeRouter r = written ⟨"router", "Router", none⟩ (some (routerText r)) := by
    unfold writeRouter routerText written
    rw [← String.toList_inj]
    simp only [String.toList_append, List.append_assoc]
    rfl
  rw [hline, lineKey?_written (by decide)]
  decide

/-- Where general information goes above a handler, its comment is never up to date: the routes of
the handler come last there. -/
theorem update_ne_of_suffix {derived : EndpointDoc} (hrouters : derived.routers ≠ [])
    (h : o.isEnabled) {block : List String} (hblock : block <:+ update o lines) :
    derived.update (block.map trimEnd) ≠ block.map trimEnd := by
  have hkeys : ∀ k ∈ allKeys, k.key ≠ "router" := by decide +kernel
  intro heq
  have hne : block ≠ [] := by
    rintro rfl
    exact write_ne_nil _ heq
  obtain ⟨front, hfront⟩ := hblock
  have hlast : block.getLast hne ∈ (update o lines).getLast? := by
    rw [← hfront, List.getLast?_append_of_ne_nil _ hne]
    exact List.getLast_mem_getLast? hne
  obtain ⟨k, hk, hkey⟩ := lineKey?_of_mem_getLast? h hlast
  have hroutes : (merge derived (read (block.map trimEnd))).routers ≠ [] := by
    rw [merge_eq]
    exact hrouters
  obtain ⟨r, hr⟩ := getLast?_write hroutes
  -- The last line of the block sets a key of the general information, so it names no route.
  rw [← EndpointDoc.update, heq, List.getLast?_map, List.getLast?_eq_some_getLast hne,
    Option.map_some, Option.some.injEq] at hr
  have hrouter := lineKey?_writeRouter r
  rw [← hr, lineKey?_trimEnd, hkey, Option.some.injEq] at hrouter
  exact hkeys k (mem_allKeys hk) hrouter

end Overview

end HandlerDocs
