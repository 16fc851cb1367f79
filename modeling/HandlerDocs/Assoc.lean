namespace HandlerDocs.Assoc

variable {α : Type}

def get? (key : String) : List (String × α) → Option α
  | [] => none
  | (k, v) :: more => if k = key then some v else get? key more

/-- A present key keeps its place and takes the new value; a new key goes to the end. -/
def put (key : String) (value : α) : List (String × α) → List (String × α)
  | [] => [(key, value)]
  | (k, v) :: more => if k = key then (k, value) :: more else (k, v) :: put key value more

def erase (key : String) (entries : List (String × α)) : List (String × α) :=
  entries.filter fun e ↦ e.1 ≠ key

def ofList (entries : List (String × α)) : List (String × α) :=
  entries.foldl (fun acc e ↦ put e.1 e.2 acc) []

@[simp] theorem get?_put_self (key : String) (value : α) (entries : List (String × α)) :
    get? key (put key value entries) = some value := by
  induction entries with
  | nil => simp [put, get?]
  | cons e more ih => by_cases h : e.1 = key <;> simp [put, get?, h, ih]

@[simp] theorem get?_put_ne {key other : String} (h : other ≠ key) (value : α)
    (entries : List (String × α)) : get? other (put key value entries) = get? other entries := by
  induction entries with
  | nil => simp [put, get?, Ne.symm h]
  | cons e more ih =>
    by_cases hk : e.1 = key
    · simp [put, get?, hk, Ne.symm h]
    · by_cases ho : e.1 = other
      · simp [put, get?, ho, h]
      · simp [put, get?, hk, ho, ih]

@[simp] theorem get?_erase_self (key : String) (entries : List (String × α)) :
    get? key (erase key entries) = none := by
  induction entries with
  | nil => rfl
  | cons e more ih => by_cases h : e.1 = key <;> simp_all [erase, get?, List.filter]

@[simp] theorem get?_erase_ne {key other : String} (h : other ≠ key) (entries : List (String × α)) :
    get? other (erase key entries) = get? other entries := by
  induction entries with
  | nil => rfl
  | cons e more ih =>
    rw [erase] at ih ⊢
    by_cases hk : e.1 = key
    · rw [List.filter_cons_of_neg (by simp [hk]), get?, if_neg (hk ▸ Ne.symm h), ih]
    · rw [List.filter_cons_of_pos (by simp [hk]), get?, get?, ih]

theorem put_of_get? {key : String} {value : α} {entries : List (String × α)}
    (h : get? key entries = some value) : put key value entries = entries := by
  induction entries with
  | nil => cases h
  | cons e more ih =>
    rw [get?] at h
    rw [put]
    split at h
    · rename_i hk
      obtain rfl := Option.some.inj h
      rw [if_pos hk]
    · rename_i hk
      rw [if_neg hk, ih h]

@[simp] theorem put_put (key : String) (first second : α) (entries : List (String × α)) :
    put key second (put key first entries) = put key second entries := by
  induction entries with
  | nil => simp [put]
  | cons e more ih => by_cases h : e.1 = key <;> simp [put, h, ih]

theorem keys_put (key : String) (value : α) (entries : List (String × α)) :
    (put key value entries).map Prod.fst =
      if key ∈ entries.map Prod.fst then entries.map Prod.fst
      else entries.map Prod.fst ++ [key] := by
  induction entries with
  | nil => rfl
  | cons e more ih =>
    by_cases h : e.1 = key
    · simp [put, h]
    · have hkey : key ∈ (e :: more).map Prod.fst ↔ key ∈ more.map Prod.fst := by
        simp [Ne.symm h]
      rw [put, if_neg h, List.map_cons, ih]
      simp only [hkey]
      split <;> rfl

theorem mem_of_get? {key : String} {value : α} {entries : List (String × α)}
    (h : get? key entries = some value) : (key, value) ∈ entries := by
  induction entries with
  | nil => cases h
  | cons e more ih =>
    rw [get?] at h
    split at h
    · rename_i hk
      obtain rfl := Option.some.inj h
      exact hk ▸ List.mem_cons_self
    · exact List.mem_cons_of_mem _ (ih h)

theorem eq_or_mem_of_mem_put {key : String} {value : α} {e : String × α}
    {entries : List (String × α)} (h : e ∈ put key value entries) :
    e = (key, value) ∨ e ∈ entries := by
  induction entries with
  | nil => exact .inl (List.mem_singleton.1 h)
  | cons e' more ih =>
    rw [put] at h
    split at h
    · rename_i hk
      rcases List.mem_cons.1 h with rfl | h
      · exact .inl (hk ▸ rfl)
      · exact .inr (List.mem_cons_of_mem _ h)
    · rcases List.mem_cons.1 h with rfl | h
      · exact .inr List.mem_cons_self
      · exact (ih h).imp_right (List.mem_cons_of_mem _)

end HandlerDocs.Assoc
