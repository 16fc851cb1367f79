import HandlerDocs.Proofs.Overview

namespace HandlerDocs.Overview

/-- The line that general information has for a key: a configured value, or else the first line
that sets the key, as it stands, or else the default. -/
inductive Stands (o : OverviewOptions) (lines : List String) (k : Key) : String → Prop
  | configured {value : String} :
    Assoc.get? k.key o.values = some value → Stands o lines k (written k (some value))
  | existing {before after : List String} {line : String} :
    Assoc.get? k.key o.values = none → lines = before ++ line :: after →
    lineKey? line = some k.key → (∀ l ∈ before, lineKey? l ≠ some k.key) → Stands o lines k line
  | default :
    Assoc.get? k.key o.values = none → (∀ l ∈ lines, lineKey? l ≠ some k.key) →
    Stands o lines k (written k k.value)

variable {o : OverviewOptions} {lines : List String}

theorem stands_lineFor (k : Key) : Stands o lines k (lineFor o lines k) := by
  cases hvalue : Assoc.get? k.key o.values with
  | some value =>
    rw [lineFor_of_some hvalue]
    exact .configured hvalue
  | none =>
    rw [lineFor_of_none hvalue]
    cases hfind : lines.find? fun line ↦ decide (lineKey? line = some k.key) with
    | none => exact .default hvalue (by simpa using hfind)
    | some line =>
      obtain ⟨hkey, before, after, rfl, hbefore⟩ := List.find?_eq_some_iff_append.1 hfind
      exact .existing hvalue rfl (by simpa using hkey) (by simpa using hbefore)

theorem Stands.eq {k : Key} {line : String} (h : Stands o lines k line) :
    line = lineFor o lines k := by
  cases h with
  | configured hvalue => rw [lineFor_of_some hvalue]
  | existing hvalue hlines hkey hbefore =>
    have hnone : List.find? (fun l ↦ decide (lineKey? l = some k.key)) _ = none :=
      List.find?_eq_none.2 fun l hl ↦ by simpa using hbefore l hl
    rw [lineFor_of_none hvalue, hlines, List.find?_append, hnone, Option.none_or,
      List.find?_cons_of_pos (by simpa using hkey), Option.getD_some]
  | default hvalue hlines =>
    rw [lineFor_of_none hvalue, List.find?_eq_none.2 fun l hl ↦ by simpa using hlines l hl,
      Option.getD_none]

theorem enables_eq (key : String) : o.enables key = decide (key ∈ o.keys.map Key.key) := by
  rw [Bool.eq_iff_iff, OverviewOptions.enables, List.any_eq_true, decide_eq_true_eq, List.mem_map]
  simp

theorem kept_eq : kept o lines =
    lines.filter fun line ↦ ∀ key ∈ lineKey? line, key ∉ o.keys.map Key.key := by
  refine List.filter_congr fun line _ ↦ ?_
  cases lineKey? line with
  | none => simp
  | some key =>
    rw [Option.any_some, enables_eq, ← decide_not]
    simp only [Option.mem_some_iff, forall_eq']

theorem update_eq : update o lines = kept o lines ++ o.keys.map (lineFor o lines) := rfl

/-- A block that holds a line for every key keeps all but the configured values. -/
theorem update_append_map {line : Key → String}
    (hline : ∀ k ∈ o.keys, lineKey? (line k) = some k.key)
    (hvalue : ∀ k ∈ o.keys, ∀ value ∈ Assoc.get? k.key o.values, line k = written k (some value)) :
    update o (kept o lines ++ o.keys.map line) = kept o lines ++ o.keys.map line := by
  have hkeys : o.keys.map (lineFor o (kept o lines ++ o.keys.map line)) = o.keys.map line := by
    refine List.map_congr_left fun k hk ↦ ?_
    cases hget : Assoc.get? k.key o.values with
    | some value => rw [lineFor_of_some hget, hvalue k hk value hget]
    | none => rw [lineFor_of_none hget, find?_append_map hline hk, Option.getD_some]
  rw [update_eq, hkeys, kept_append_map hline]

theorem filterMap_lineKey?_kept :
    ((kept o lines).filterMap lineKey?).filter o.enables = [] := by
  rw [List.filter_eq_nil_iff]
  intro key hkey
  obtain ⟨line, hline, hsets⟩ := List.mem_filterMap.1 hkey
  simpa [hsets] using (List.mem_filter.1 hline).2

/-- Of the keys that an updated block sets, the enabled ones are set once and in their order. -/
theorem enabled_keys_update :
    ((update o lines).filterMap lineKey?).filter o.enables = o.keys.map Key.key := by
  have hkeys : (o.keys.map (lineFor o lines)).filterMap lineKey? = o.keys.map Key.key := by
    rw [List.filterMap_map, ← List.filterMap_eq_map]
    refine List.filterMap_congr fun k hk ↦ ?_
    rw [Function.comp_apply, lineKey?_lineFor hk]
    rfl
  have henabled : (o.keys.map Key.key).filter o.enables = o.keys.map Key.key := by
    rw [List.filter_eq_self]
    intro key hkey
    obtain ⟨k, hk, rfl⟩ := List.mem_map.1 hkey
    exact o.enables_of_mem hk
  rw [update_eq, List.filterMap_append, List.filter_append, hkeys, henabled,
    filterMap_lineKey?_kept, List.nil_append]

/-- Updated general information is up to date. It is what other lines there were, in their order,
and then one line for each enabled key, in the order of the table. -/
theorem update_settles (o : OverviewOptions) (lines : List String) :
    update o (update o lines) = update o lines ∧
    (∀ result, update o lines = result ↔ ∃ block, List.Forall₂ (Stands o lines) o.keys block ∧
      result = lines.filter (fun line ↦ ∀ key ∈ lineKey? line, key ∉ o.keys.map Key.key) ++ block) ∧
    ((update o lines).filterMap lineKey?).filter (· ∈ o.keys.map Key.key) = o.keys.map Key.key ∧
    o.keys.Sublist allKeys ∧ (o.keys.map Key.key).Nodup := by
  refine ⟨?_, ?_, ?_, o.keys_sublist, o.nodup_keys⟩
  · exact update_append_map (fun k hk ↦ lineKey?_lineFor hk) fun k _ value hvalue ↦
      lineFor_of_some hvalue
  · intro result
    rw [← kept_eq, update_eq]
    constructor
    · rintro rfl
      exact ⟨_, List.forall₂_map_right_iff.2 (List.forall₂_same.2 fun k _ ↦ stands_lineFor k), rfl⟩
    · rintro ⟨block, hblock, rfl⟩
      have hlines : o.keys.map (lineFor o lines) = block := by
        rw [← List.forall₂_eq_eq_eq, List.forall₂_map_left_iff]
        exact hblock.imp fun k line hline ↦ hline.eq.symm
      rw [hlines]
  · have henables : (fun key ↦ decide (key ∈ o.keys.map Key.key)) = o.enables :=
      funext fun key ↦ (enables_eq key).symm
    rw [henables, enabled_keys_update]

end HandlerDocs.Overview
