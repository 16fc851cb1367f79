import HandlerDocs.Proofs.Routing.Path

namespace HandlerDocs.Routing.Path

instance : DecidableRel Apart := fun c d ↦ inferInstanceAs (Decidable ¬(c = '/' ∧ d = '/'))

section Collapse

/-- Of slashes in a row the first stays. -/
theorem collapse_eq_destutter (cs : List Char) : collapse cs = cs.destutter Apart := by
  fun_induction collapse cs with
  | case1 cs ih =>
    have hslashes : ¬Apart '/' '/' := not_not.2 ⟨rfl, rfl⟩
    rw [ih, List.destutter_cons', List.destutter_cons', List.destutter'_cons_neg _ hslashes]
  | case2 c cs hne ih =>
    cases cs with
    | nil => rfl
    | cons d cs =>
      have hapart : Apart c d := by
        rintro ⟨hc, rfl⟩
        exact hne cs hc rfl
      rw [ih, List.destutter_cons', List.destutter_cons', List.destutter'_cons_pos _ hapart]
  | case3 => rfl

theorem collapse_collapse (cs : List Char) : collapse (collapse cs) = collapse cs := by
  rw [collapse_eq_destutter, collapse_eq_destutter, List.destutter_idem]

theorem collapse_cons_collapse (c : Char) (cs : List Char) :
    collapse (c :: collapse cs) = collapse (c :: cs) := by
  by_cases h : ∀ d ∈ cs.head?, Apart c d
  · rw [collapse_cons h, collapse_cons (by rwa [head?_collapse]), collapse_collapse]
  · -- Both are slashes, and the first of them is dropped on either side.
    push Not at h
    obtain ⟨d, hd, hslash⟩ := h
    obtain ⟨rfl, rfl⟩ := not_not.1 hslash
    obtain ⟨cs, rfl⟩ := List.head?_eq_some_iff.1 hd
    obtain ⟨rest, hrest⟩ := List.head?_eq_some_iff.1 (head?_collapse ('/' :: cs))
    rw [hrest, collapse, ← hrest, collapse_collapse, ← collapse.eq_1]

theorem collapse_append_collapse (as bs : List Char) :
    collapse (as ++ collapse bs) = collapse (as ++ bs) := by
  induction as with
  | nil => exact collapse_collapse bs
  | cons c as ih =>
    rw [List.cons_append, List.cons_append, ← collapse_cons_collapse, ih, collapse_cons_collapse]

theorem collapse_collapse_append (as bs : List Char) :
    collapse (collapse as ++ bs) = collapse (as ++ bs) := by
  fun_induction collapse as with
  | case1 as ih => rw [ih]; rfl
  | case2 c as _ ih =>
    rw [List.cons_append, List.cons_append, ← collapse_cons_collapse, ih, collapse_cons_collapse]
  | case3 => rfl

end Collapse

theorem join_empty {base : String} (h : base ≠ "") : join base "" = base := by
  simp [join, h]

theorem toList_join {base path : String} (h : path ≠ "") :
    (join base path).toList = collapse (base.toList ++ '/' :: path.toList) := by
  rw [join, if_neg (by simpa using h), String.toList_ofList]

theorem join_ne_empty (base path : String) : join base path ≠ "" := by
  by_cases hpath : path = ""
  · by_cases hbase : base = ""
    · subst hpath hbase
      decide
    · rwa [hpath, join_empty hbase]
  · intro hempty
    have hhead := head?_collapse (base.toList ++ '/' :: path.toList)
    rw [← toList_join hpath, hempty] at hhead
    simp at hhead

theorem join_assoc (a : String) {b c : String} (h : ¬(b = "" ∧ c = "")) :
    join (join a b) c = join a (join b c) := by
  by_cases hc : c = ""
  · have hb : b ≠ "" := fun hb ↦ h ⟨hb, hc⟩
    rw [hc, join_empty (join_ne_empty a b), join_empty hb]
  · rw [← String.toList_inj, toList_join hc, toList_join (join_ne_empty b c), toList_join hc]
    by_cases hb : b = ""
    · have hone : collapse (a.toList ++ '/' :: '/' :: c.toList) =
          collapse (a.toList ++ '/' :: c.toList) := by
        rw [← collapse_append_collapse, collapse, collapse_append_collapse]
      have hright : collapse (a.toList ++ '/' :: collapse ('/' :: c.toList)) =
          collapse (a.toList ++ '/' :: '/' :: c.toList) := by
        simpa using collapse_append_collapse (a.toList ++ ['/']) ('/' :: c.toList)
      subst hb
      rw [String.toList_empty, List.nil_append, hright, hone]
      by_cases ha : a = ""
      · subst ha
        rfl
      · rw [join_empty ha]
    · have hright := collapse_append_collapse (a.toList ++ ['/']) (b.toList ++ '/' :: c.toList)
      rw [toList_join hb, collapse_collapse_append]
      simpa using hright.symm

def slashed (paths : List String) : List Char :=
  (paths.filter (· ≠ "")).flatMap fun path ↦ '/' :: path.toList

theorem slashed_cons (path : String) (paths : List String) :
    slashed (path :: paths) = slashed [path] ++ slashed paths := by
  rw [slashed, slashed, slashed, ← List.flatMap_append, ← List.filter_append,
    List.singleton_append]

theorem slashed_eq_cons {paths : List String} (h : ∃ path ∈ paths, path ≠ "") :
    slashed paths = '/' :: ("/".intercalate (paths.filter (· ≠ ""))).toList := by
  have hne : paths.filter (· ≠ "") ≠ [] := by simpa using h
  rw [slashed, String.toList_intercalate]
  generalize paths.filter (· ≠ "") = named at hne
  induction named with
  | nil => contradiction
  | cons path named ih =>
    cases named with
    | nil => simp
    | cons next named =>
      rw [List.flatMap_cons, ih (by simp)]
      simp [List.intercalate_cons_cons]

/-- One path more below a group: without slashes in a row nothing is lost but those at the seam. -/
theorem toList_join_slashed {base : String} (hne : base ≠ "")
    (hbase : collapse base.toList = base.toList) (path : String) :
    (join base path).toList = collapse (base.toList ++ slashed [path]) := by
  by_cases hpath : path = ""
  · rw [hpath, join_empty hne]
    simpa [slashed] using hbase.symm
  · rw [toList_join hpath]
    simp [slashed, hpath]

theorem toList_foldl_join {base : String} (hne : base ≠ "")
    (hbase : collapse base.toList = base.toList) (paths : List String) :
    (paths.foldl join base).toList = collapse (base.toList ++ slashed paths) := by
  induction paths generalizing base with
  | nil => simpa [slashed] using hbase.symm
  | cons path paths ih =>
    have hstep := toList_join_slashed hne hbase path
    have hjoined : collapse (join base path).toList = (join base path).toList := by
      rw [hstep, collapse_collapse]
    rw [List.foldl_cons, ih (join_ne_empty base path) hjoined, hstep, collapse_collapse_append,
      List.append_assoc, ← slashed_cons]

/-- Paths of groups inside each other, from no group at all. -/
theorem toList_nested (path : String) (paths : List String) :
    ((path :: paths).foldl join "").toList = collapse ('/' :: slashed (path :: paths)) := by
  have hfirst : join "" path = join "/" path := by
    by_cases hpath : path = ""
    · subst hpath
      decide
    · rw [← String.toList_inj, toList_join hpath, toList_join hpath]
      exact (collapse.eq_1 path.toList).symm
  rw [List.foldl_cons, hfirst, ← List.foldl_cons, toList_foldl_join (by decide) (by decide)]
  rfl

/-- Nested groups have one path however it is divided among them: the parts with one slash between
them. So it does not matter in which order a path is put together, unless nothing is added. -/
theorem join_parts_once :
    (∀ (path : String) (paths : List String), (path :: paths).foldl join "" =
      if ∀ part ∈ path :: paths, part = "" then "/"
      else String.ofList (("/" ++ "/".intercalate
        ((path :: paths).filter (· ≠ ""))).toList.destutter Apart)) ∧
    ∀ a b c : String, ¬(b = "" ∧ c = "") → join (join a b) c = join a (join b c) := by
  refine ⟨fun path paths ↦ ?_, fun a b c h ↦ join_assoc a h⟩
  rw [← String.toList_inj, toList_nested]
  split
  · rename_i hempty
    have hnone : (path :: paths).filter (· ≠ "") = [] := by simpa using hempty
    rw [slashed, hnone]
    rfl
  · rename_i hempty
    push Not at hempty
    rw [slashed_eq_cons hempty, String.toList_ofList, String.toList_append,
      ← collapse_eq_destutter]
    rfl

/-- Groups add slashes of their own, and one adds nothing. -/
theorem join_parts_once_api :
    ["", "api/", "", "//v1", "/"].foldl join "" = "/api/v1/" ∧ ¬("" = "" ∧ "items" = "") ∧
      join (join "/api/" "") "items" = join "/api/" (join "" "items") := by
  obtain ⟨hfold, hassoc⟩ := join_parts_once
  exact ⟨(hfold "" ["api/", "", "//v1", "/"]).trans (by decide), by decide,
    hassoc _ _ _ (by decide)⟩

end HandlerDocs.Routing.Path
