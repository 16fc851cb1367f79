import HandlerDocs.Proofs.Prelude
import HandlerDocs.Trace

namespace HandlerDocs.Trace

variable {α σ : Type}

abbrev Walk (α σ : Type) := (FuncRef → σ → Trace α) → Trace α

/-- A walk that enters some of the given functions, at most `width` times, and always does the same
whatever becomes of them. -/
inductive Planned (functions : List FuncRef) : ℕ → Walk α σ → Prop
  | nil : Planned functions 0 fun _ ↦ []
  | found (item : α) : Planned functions 0 fun _ ↦ [.found item]
  | enter {f : FuncRef} (hf : f ∈ functions) (start : σ) :
      Planned functions 1 fun enter ↦ enter f start
  | append {m n : ℕ} {a b : Walk α σ} : Planned functions m a → Planned functions n b →
      Planned functions (m + n) fun enter ↦ a enter ++ b enter
  | weaken {m n : ℕ} {a : Walk α σ} : Planned functions m a → m ≤ n → Planned functions n a

/-- Enters a function and those that its body enters, no more than `limit` of them one inside the
other, and none that is active. -/
def descend (body : FuncRef → σ → Walk α σ) :
    (limit : ℕ) → (active : List FuncRef) → FuncRef → σ → Trace α
  | 0, _, _, _ => []
  | limit + 1, active, f, start =>
    if f ∈ active then [] else .inside f (body f start (descend body limit (f :: active)))

def entries (walk : Trace α) : ℕ :=
  walk.countP fun event ↦ match event with
    | .entered _ => true
    | _ => false

def activate (active : List FuncRef) : Event α → List FuncRef
  | .found _ => active
  | .entered f => f :: active
  | .left f => active.erase f

def activeAfter (active : List FuncRef) (walk : Trace α) : List FuncRef :=
  walk.foldl activate active

/-- No function is entered while it is active or with more than `limit` others active, and in the
end the same ones are active as in the beginning. -/
structure Orderly (limit : ℕ) (active : List FuncRef) (walk : Trace α) : Prop where
  entered (k : ℕ) (f : FuncRef) : walk[k]? = some (.entered f) →
    f ∉ activeAfter active (walk.take k) ∧ (activeAfter active (walk.take k)).length ≤ limit
  restored : activeAfter active walk = active

section Items

@[simp] theorem items_nil : items ([] : Trace α) = [] := rfl

@[simp] theorem items_append (a b : Trace α) : items (a ++ b) = items a ++ items b :=
  List.filterMap_append

@[simp] theorem items_ofItems (found : List α) : items (ofItems found) = found := by
  rw [items, ofItems, List.filterMap_map]
  exact List.filterMap_some

@[simp] theorem items_inside (f : FuncRef) (body : Trace α) :
    items (inside f body) = items body := by
  rw [inside, List.cons_append, items, List.filterMap_cons_none rfl]
  exact (items_append ..).trans (List.append_nil _)

theorem items_flatMap {β : Type} (walks : β → Trace α) (xs : List β) :
    items (xs.flatMap walks) = (xs.map fun x ↦ items (walks x)).flatten := by
  induction xs with
  | nil => rfl
  | cons x xs ih =>
    rw [List.flatMap_cons, items_append, ih, List.map_cons, List.flatten_cons]

end Items

section Planned

variable {functions : List FuncRef} {width : ℕ} {walk : Walk α σ}
  {enter enter' : FuncRef → σ → Trace α}

theorem Planned.ofItems (items : List α) :
    Planned (σ := σ) functions 0 fun _ ↦ Trace.ofItems items := by
  induction items with
  | nil => exact .nil
  | cons item items ih => exact .append (.found item) ih

theorem Planned.congr (h : Planned functions width walk)
    (henter : ∀ f ∈ functions, ∀ start, enter f start = enter' f start) :
    walk enter = walk enter' := by
  induction h with
  | nil => rfl
  | found => rfl
  | enter hf start => exact henter _ hf start
  | append _ _ iha ihb => exact congrArg₂ (· ++ ·) iha ihb
  | weaken _ _ ih => exact ih

theorem Planned.sublist (h : Planned functions width walk)
    (henter : ∀ f ∈ functions, ∀ start, (enter f start).Sublist (enter' f start)) :
    (walk enter).Sublist (walk enter') := by
  induction h with
  | nil => exact .refl _
  | found => exact .refl _
  | enter hf start => exact henter _ hf start
  | append _ _ iha ihb => exact iha.append ihb
  | weaken _ _ ih => exact ih

theorem Planned.entries_le {bound : ℕ} (h : Planned functions width walk)
    (henter : ∀ f ∈ functions, ∀ start, (enter f start).entries ≤ bound) :
    (walk enter).entries ≤ width * bound := by
  induction h with
  | nil => simp [entries]
  | found => simp [entries]
  | enter hf start => simpa using henter _ hf start
  | append _ _ iha ihb =>
    rw [entries, List.countP_append, Nat.add_mul]
    exact Nat.add_le_add iha ihb
  | weaken _ hle ih => exact ih.trans (Nat.mul_le_mul_right _ hle)

end Planned

section Orderly

variable {limit : ℕ} {active : List FuncRef}

theorem activeAfter_append (active : List FuncRef) (a b : Trace α) :
    activeAfter active (a ++ b) = activeAfter (activeAfter active a) b :=
  List.foldl_append

theorem Orderly.nil (limit : ℕ) (active : List FuncRef) : Orderly limit active ([] : Trace α) :=
  ⟨by simp, rfl⟩

theorem Orderly.found (limit : ℕ) (active : List FuncRef) (item : α) :
    Orderly limit active [.found item] := by
  refine ⟨fun k f hk ↦ ?_, rfl⟩
  cases k <;> simp at hk

theorem Orderly.append {a b : Trace α} (ha : Orderly limit active a) (hb : Orderly limit active b) :
    Orderly limit active (a ++ b) := by
  refine ⟨fun k f hk ↦ ?_, by rw [activeAfter_append, ha.restored, hb.restored]⟩
  rcases lt_or_ge k a.length with hlt | hge
  · rw [List.take_append_of_le_length hlt.le]
    exact ha.entered k f (List.getElem?_append_left hlt ▸ hk)
  · rw [List.getElem?_append_right hge] at hk
    rw [List.take_append, List.take_of_length_le hge, activeAfter_append, ha.restored]
    exact hb.entered _ f hk

theorem Orderly.flatMap {β : Type} {walks : β → Trace α}
    (h : ∀ x, Orderly limit active (walks x)) (xs : List β) :
    Orderly limit active (xs.flatMap walks) := by
  induction xs with
  | nil => exact .nil _ _
  | cons x xs ih => exact (h x).append ih

/-- A function that may be entered is active as long as its body is walked. -/
theorem Orderly.inside {f : FuncRef} {body : Trace α} (hf : f ∉ active)
    (hlimit : active.length ≤ limit) (h : Orderly limit (f :: active) body) :
    Orderly limit active (Trace.inside f body) := by
  constructor
  · intro k g hk
    cases k with
    | zero =>
      obtain rfl : f = g := by simpa [Trace.inside] using hk
      exact ⟨hf, hlimit⟩
    | succ k =>
      have hk : (body ++ [.left f])[k]? = some (.entered g) := hk
      have hlt : k < body.length := by
        by_contra hge
        rw [List.getElem?_append_right (not_lt.1 hge)] at hk
        cases List.mem_singleton.1 (List.mem_of_getElem? hk)
      rw [List.getElem?_append_left hlt] at hk
      have htake : (Trace.inside f body).take (k + 1) = .entered f :: body.take k := by
        rw [Trace.inside, List.cons_append, List.take_succ_cons,
          List.take_append_of_le_length hlt.le]
      rw [htake]
      exact h.entered k g hk
  · have hafter : activeAfter active (Trace.inside f body) =
        activeAfter (activeAfter (f :: active) body) [.left f] := activeAfter_append ..
    rw [hafter, h.restored]
    exact List.erase_cons_head ..

theorem Planned.orderly {functions : List FuncRef} {width : ℕ} {walk : Walk α σ}
    {enter : FuncRef → σ → Trace α} (h : Planned functions width walk)
    (henter : ∀ f ∈ functions, ∀ start, Orderly limit active (enter f start)) :
    Orderly limit active (walk enter) := by
  induction h with
  | nil => exact .nil _ _
  | found item => exact .found _ _ item
  | enter hf start => exact henter _ hf start
  | append _ _ iha ihb => exact iha.append ihb
  | weaken _ _ ih => exact ih

end Orderly

theorem entries_inside (f : FuncRef) (walk : Trace α) :
    (Trace.inside f walk).entries = walk.entries + 1 := by
  simp [Trace.inside, entries]

theorem entries_flatMap_le {β : Type} {walks : β → Trace α} {bound : ℕ}
    (h : ∀ x, entries (walks x) ≤ bound) (xs : List β) :
    entries (xs.flatMap walks) ≤ xs.length * bound := by
  induction xs with
  | nil => simp [entries]
  | cons x xs ih =>
    rw [List.flatMap_cons, entries, List.countP_append, List.length_cons, Nat.succ_mul,
      Nat.add_comm]
    exact Nat.add_le_add ih (h x)

structure Bodies (functions : List FuncRef) (width : ℕ) (body : FuncRef → σ → Walk α σ) : Prop where
  planned (f : FuncRef) (start : σ) : Planned functions width (body f start)
  outside (f : FuncRef) (start : σ) : f ∉ functions → body f start = fun _ ↦ []

namespace Bodies

variable {functions : List FuncRef} {width : ℕ} {body : FuncRef → σ → Walk α σ}

theorem descend_sublist (h : Bodies functions width body) {m n : ℕ} (hmn : m ≤ n)
    (active : List FuncRef) (f : FuncRef) (start : σ) :
    (descend body m active f start).Sublist (descend body n active f start) := by
  induction m generalizing n active f start with
  | zero => exact List.nil_sublist _
  | succ m ih =>
    obtain ⟨n, rfl⟩ := Nat.exists_eq_add_of_le' (Nat.one_le_of_lt hmn)
    rw [descend, descend]
    split
    · exact .refl _
    · refine List.Sublist.append (List.Sublist.cons_cons _ ?_) (.refl _)
      exact (h.planned f start).sublist fun g _ start' ↦ ih (Nat.le_of_succ_le_succ hmn) _ g start'

theorem mem_active_of_length_le {active : List FuncRef} (hactive : active.Nodup)
    (hsub : active ⊆ functions) (hlength : functions.length ≤ active.length) {f : FuncRef}
    (hf : f ∈ functions) : f ∈ active :=
  ((hactive.subperm hsub).perm_of_length_le hlength).mem_iff.2 hf

/-- Once all functions are active none is entered, whatever the limit. -/
theorem descend_eq (h : Bodies functions width body) {m n : ℕ} {active : List FuncRef}
    (hmn : m ≤ n) (hm : functions.length ≤ m + active.length) (hactive : active.Nodup)
    (hsub : active ⊆ functions) {f : FuncRef} (hf : f ∈ functions) (start : σ) :
    descend body m active f start = descend body n active f start := by
  induction m generalizing n active f start with
  | zero =>
    -- As many functions are active as there are, so `f` is one of them.
    have hmem : f ∈ active := mem_active_of_length_le hactive hsub (by omega) hf
    cases n with
    | zero => rfl
    | succ n => rw [descend, descend, if_pos hmem]
  | succ m ih =>
    obtain ⟨n, rfl⟩ := Nat.exists_eq_add_of_le' (Nat.one_le_of_lt hmn)
    rw [descend, descend]
    split
    · rfl
    · rename_i hnew
      refine congrArg (Trace.inside f) ((h.planned f start).congr fun g hg start' ↦ ?_)
      exact ih (by omega) (by rw [List.length_cons]; omega) (List.nodup_cons.2 ⟨hnew, hactive⟩)
        (List.cons_subset.2 ⟨hf, hsub⟩) hg start'

theorem descend_top_eq (h : Bodies functions width body) {m n : ℕ} (hmn : m ≤ n)
    (hm : functions.length ≤ m + 1) (f : FuncRef) (start : σ) :
    descend body (m + 1) [] f start = descend body (n + 1) [] f start := by
  by_cases hf : f ∈ functions
  · exact h.descend_eq (Nat.succ_le_succ hmn) (by simpa using hm) List.nodup_nil
      (List.nil_subset _) hf start
  · rw [descend, descend, h.outside f start hf]

/-- `n` is what the active functions leave of the limit. -/
theorem orderly_descend (h : Bodies functions width body) {limit n : ℕ} {active : List FuncRef}
    (hn : n + active.length ≤ limit + 1) (f : FuncRef) (start : σ) :
    Orderly limit active (descend body n active f start) := by
  induction n generalizing active f start with
  | zero => exact .nil _ _
  | succ n ih =>
    rw [descend]
    split
    · exact .nil _ _
    · rename_i hnew
      refine .inside hnew (by omega) ((h.planned f start).orderly fun g _ start' ↦ ?_)
      exact ih (by rw [List.length_cons]; omega) g start'

theorem entries_descend_le (h : Bodies functions width body) {n : ℕ} {active : List FuncRef}
    (hactive : active.Nodup) (hsub : active ⊆ functions) {f : FuncRef} (hf : f ∈ functions)
    (start : σ) : (descend body n active f start).entries ≤
      ∑ i ∈ Finset.range (min n (functions.length - active.length)), width ^ i := by
  induction n generalizing active f start with
  | zero => simp [descend, entries]
  | succ n ih =>
    rw [descend]
    split
    · simp [entries]
    · rename_i hnew
      have hcons : (f :: active).Nodup := List.nodup_cons.2 ⟨hnew, hactive⟩
      have hsub' : f :: active ⊆ functions := List.cons_subset.2 ⟨hf, hsub⟩
      have hle : (f :: active).length ≤ functions.length := (hcons.subperm hsub').length_le
      rw [List.length_cons] at hle
      have hmin : min (n + 1) (functions.length - active.length) =
          min n (functions.length - (f :: active).length) + 1 := by
        rw [List.length_cons]
        omega
      -- One entry for the function, and those of the functions that its body enters.
      rw [entries_inside, hmin, geom_sum_succ]
      exact Nat.succ_le_succ ((h.planned f start).entries_le fun g hg start' ↦
        ih hcons hsub' hg start')

/-- The number of functions bounds the walk, however large the limit. -/
theorem entries_descend_top_le (h : Bodies functions width body) (limit : ℕ) (f : FuncRef)
    (start : σ) : (descend body (limit + 1) [] f start).entries ≤
      ∑ i ∈ Finset.range (min limit functions.length + 1), width ^ i := by
  by_cases hf : f ∈ functions
  · refine (h.entries_descend_le List.nodup_nil (List.nil_subset _) hf start).trans ?_
    refine Finset.sum_le_sum_of_subset (Finset.range_subset_range.2 ?_)
    rw [List.length_nil]
    omega
  · rw [descend, h.outside f start hf, if_neg List.not_mem_nil, entries_inside, geom_sum_succ]
    exact Nat.succ_le_succ (Nat.zero_le _)

end Bodies

end HandlerDocs.Trace
