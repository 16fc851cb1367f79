import HandlerDocs.Project
import HandlerDocs.Proofs.Prelude

namespace HandlerDocs

def SourceFile.declared? (file : SourceFile) (name : String) : Option TypeDecl :=
  ((file.struct? name).map .struct).or ((file.aliased? name).map .named)

namespace Project

variable {p : Project} {a b c : String × String} {n m : ℕ} {decl : StructDecl}

/-- The first file of a package that declares a name in one of these ways decides what it is. -/
def Declares (p : Project) (package name : String) (decl : TypeDecl) : Prop :=
  ∃ before file after, p.units.filter (·.package = package) = before ++ file :: after ∧
    file.declared? name = some decl ∧ ∀ earlier ∈ before, earlier.declared? name = none

theorem typeDecl?_eq_some_iff {package name : String} {decl : TypeDecl} :
    p.typeDecl? package name = some decl ↔ p.Declares package name decl := by
  have hfiles : p.units.filter (·.package = package) = (p.packageFiles package).map (·.1) := by
    rw [packageFiles, ← List.zipIdx_map_fst 0 p.units, List.filter_map, List.zipIdx_map_fst]
    rfl
  have hdecl : p.typeDecl? package name =
      (p.units.filter (·.package = package)).findSome? (·.declared? name) := by
    rw [hfiles, List.findSome?_map, typeDecl?]
    congr 1
    funext e
    simp only [Function.comp_apply, SourceFile.declared?, SourceFile.struct?, SourceFile.aliased?]
    rcases Assoc.get? name e.1.types with _ | _ | _ | _ <;> rfl
  rw [hdecl, List.findSome?_eq_some_iff]
  rfl

def IsStruct (p : Project) (a : String × String) (decl : StructDecl) : Prop :=
  p.Declares a.1 (Text.upTo '[' a.2) (.struct decl)

/-- A type is declared as a name for another one: behind its pointers, in the package before its dot
or else in the same one. What `isTypeName` does not take for a name leads nowhere. -/
def Hop (p : Project) (a b : String × String) : Prop :=
  ∃ target, p.Declares a.1 (Text.upTo '[' a.2) (.named target) ∧ isTypeName target = true ∧
    b = splitQualified a.1 (Text.dropLeading (· = '*') target)

inductive Hops (p : Project) : ℕ → String × String → String × String → Prop
  | zero (a : String × String) : Hops p 0 a a
  | cons {n : ℕ} {a b c : String × String} : p.Hop a b → Hops p n b c → Hops p (n + 1) a c

section Computed

def next? (p : Project) (a : String × String) : Option (String × String) :=
  match p.typeDecl? a.1 (Text.upTo '[' a.2) with
  | some (.named target) =>
    if isTypeName target then some (splitQualified a.1 (Text.dropLeading (· = '*') target))
    else none
  | _ => none

theorem hop_iff : p.Hop a b ↔ p.next? a = some b := by
  rw [next?]
  constructor
  · rintro ⟨target, htarget, hname, rfl⟩
    rw [typeDecl?_eq_some_iff.2 htarget]
    exact if_pos hname
  · intro h
    split at h
    · rename_i target htarget
      obtain ⟨hname, hb⟩ := Option.ite_none_right_eq_some.1 h
      exact ⟨target, typeDecl?_eq_some_iff.1 htarget, hname, (Option.some.inj hb).symm⟩
    · cases h

def along? (p : Project) : ℕ → String × String → Option (String × String)
  | 0, a => some a
  | n + 1, a => (p.next? a).bind (p.along? n)

theorem hops_iff : p.Hops n a b ↔ p.along? n a = some b := by
  constructor
  · intro h
    induction h with
    | zero => rfl
    | cons hop _ ih => rw [along?, hop_iff.1 hop, Option.bind_some, ih]
  · intro h
    induction n generalizing a with
    | zero => exact Option.some.inj h ▸ .zero a
    | succ n ih =>
      obtain ⟨next, hnext, hb⟩ := Option.bind_eq_some_iff.1 h
      exact .cons (hop_iff.2 hnext) (ih hb)

instance : Decidable (p.Hops n a b) := decidable_of_iff _ hops_iff.symm

end Computed

theorem Hop.unique (hb : p.Hop a b) (hc : p.Hop a c) : b = c :=
  Option.some.inj ((hop_iff.1 hb).symm.trans (hop_iff.1 hc))

theorem IsStruct.not_hop (h : p.IsStruct a decl) : ¬p.Hop a b := by
  rintro ⟨target, htarget, -⟩
  rw [IsStruct, ← typeDecl?_eq_some_iff] at h
  rw [← typeDecl?_eq_some_iff] at htarget
  cases h.symm.trans htarget

theorem Hops.trans (hab : p.Hops n a b) (hbc : p.Hops m b c) : p.Hops (n + m) a c := by
  induction hab with
  | zero => rwa [Nat.zero_add]
  | cons hop _ ih =>
    rw [Nat.add_right_comm]
    exact .cons hop (ih hbc)

/-- The hops to a struct are all the hops that there are. -/
theorem Hops.le_of_isStruct (hab : p.Hops n a b) (hb : p.IsStruct b decl) (hac : p.Hops m a c) :
    m ≤ n := by
  induction hab generalizing m with
  | zero a =>
    cases hac with
    | zero => exact Nat.le_refl 0
    | cons hop _ => exact absurd hop hb.not_hop
  | cons hop _ ih =>
    cases hac with
    | zero => exact Nat.zero_le _
    | cons hop' hac =>
      cases hop.unique hop'
      exact Nat.succ_le_succ (ih hb hac)

theorem Hops.exists_of_cycle (h : p.Hops (m + 1) a a) (k : ℕ) : ∃ n ≥ k, p.Hops n a a := by
  induction k with
  | zero => exact ⟨0, Nat.le_refl 0, .zero a⟩
  | succ k ih =>
    obtain ⟨n, hn, hops⟩ := ih
    exact ⟨n + (m + 1), by omega, hops.trans h⟩

section StructFrom

variable {hops : ℕ} {found : String × StructDecl}

theorem structFrom?_of_isStruct (h : p.IsStruct a decl) :
    p.structFrom? (hops + 1) a.1 a.2 = some (a.1, decl) := by
  rw [IsStruct, ← typeDecl?_eq_some_iff] at h
  rw [structFrom?, h]

theorem structFrom?_of_hop (h : p.Hop a b) :
    p.structFrom? (hops + 1) a.1 a.2 = p.structFrom? hops b.1 b.2 := by
  obtain ⟨target, htarget, hname, rfl⟩ := h
  rw [← typeDecl?_eq_some_iff] at htarget
  simp only [structFrom?, htarget, hname, if_true]

theorem structFrom?_succ_eq_some (h : p.structFrom? (hops + 1) a.1 a.2 = some found) :
    p.IsStruct a found.2 ∧ found.1 = a.1 ∨
      ∃ b, p.Hop a b ∧ p.structFrom? hops b.1 b.2 = some found := by
  rw [structFrom?] at h
  split at h
  · rename_i decl hdecl
    obtain rfl := Option.some.inj h
    exact .inl ⟨typeDecl?_eq_some_iff.1 hdecl, rfl⟩
  · rename_i target htarget
    obtain ⟨hname, hnext⟩ := Option.ite_none_right_eq_some.1 h
    have hop : p.Hop a _ := ⟨target, typeDecl?_eq_some_iff.1 htarget, hname, rfl⟩
    simp only at hnext
    exact .inr ⟨_, hop, hnext⟩
  · cases h

theorem structFrom?_of_hops (hab : p.Hops n a b) (hb : p.IsStruct b decl) (hn : n < hops) :
    p.structFrom? hops a.1 a.2 = some (b.1, decl) := by
  induction hab generalizing hops with
  | zero a =>
    obtain ⟨left, rfl⟩ := Nat.exists_eq_succ_of_ne_zero (Nat.ne_of_gt hn)
    exact structFrom?_of_isStruct hb
  | cons hop _ ih =>
    obtain ⟨left, rfl⟩ := Nat.exists_eq_succ_of_ne_zero (Nat.ne_zero_of_lt hn)
    rw [structFrom?_of_hop hop]
    exact ih hb (Nat.lt_of_succ_lt_succ hn)

theorem exists_hops_of_structFrom? (h : p.structFrom? hops a.1 a.2 = some found) :
    ∃ n < hops, ∃ type, p.Hops n a (found.1, type) ∧ p.IsStruct (found.1, type) found.2 := by
  induction hops generalizing a with
  | zero => cases h
  | succ hops ih =>
    rcases structFrom?_succ_eq_some h with ⟨hstruct, hhome⟩ | ⟨b, hop, hb⟩
    · rw [hhome]
      exact ⟨0, Nat.succ_pos hops, a.2, .zero a, hstruct⟩
    · obtain ⟨n, hn, type, htype, hstruct⟩ := ih hb
      exact ⟨n + 1, Nat.succ_lt_succ hn, type, .cons hop htype, hstruct⟩

end StructFrom

section StructNamed

variable {package name : String}

def startOf (package name : String) : String × String :=
  splitQualified package (Text.dropLeading Shape.isReference name)

theorem structNamed_eq (p : Project) (package name : String) :
    p.structNamed package name =
      (p.structFrom? maxHops (startOf package name).1 (startOf package name).2).elim
        (.error ⟨"struct", package, name⟩) .ok := by
  simp only [structNamed, startOf]
  cases p.structFrom? _ _ _ <;> rfl

theorem structNamed_eq_ok_iff {found : String × StructDecl} :
    p.structNamed package name = .ok found ↔ ∃ n < maxHops, ∃ type,
      p.Hops n (startOf package name) (found.1, type) ∧ p.IsStruct (found.1, type) found.2 := by
  rw [structNamed_eq]
  constructor
  · intro h
    cases hresult : p.structFrom? maxHops (startOf package name).1 (startOf package name).2 with
    | some result =>
      rw [hresult] at h
      obtain rfl := Except.ok.inj h
      exact exists_hops_of_structFrom? hresult
    | none =>
      rw [hresult] at h
      cases h
  · rintro ⟨n, hn, type, htype, hstruct⟩
    rw [structFrom?_of_hops htype hstruct hn]
    rfl

theorem structNamed_eq_error (h : ∀ n < maxHops, ∀ place decl,
      p.Hops n (startOf package name) place → ¬p.IsStruct place decl) :
    p.structNamed package name = .error ⟨"struct", package, name⟩ := by
  rw [structNamed_eq]
  cases hresult : p.structFrom? maxHops (startOf package name).1 (startOf package name).2 with
  | some found =>
    obtain ⟨n, hn, type, htype, hstruct⟩ := exists_hops_of_structFrom? hresult
    exact absurd hstruct (h n hn _ _ htype)
  | none => rfl

/-- A struct is found exactly when fewer hops than `maxHops` lead to it, and then in the package
that declares it. One that is further away is not found, nor is anything where the hops go
round. -/
theorem struct_found_within_hops (p : Project) (package name : String) :
    let start := startOf package name
    let lost : Except NotFound (String × StructDecl) := .error ⟨"struct", package, name⟩
    (∀ home decl, p.structNamed package name = .ok (home, decl) ↔
      ∃ n < maxHops, ∃ type, p.Hops n start (home, type) ∧ p.IsStruct (home, type) decl) ∧
    ((∀ n < maxHops, ∀ place decl, p.Hops n start place → ¬p.IsStruct place decl) →
      p.structNamed package name = lost) ∧
    (∀ n place decl, maxHops ≤ n → p.Hops n start place → p.IsStruct place decl →
      p.structNamed package name = lost) ∧
    (∀ n m place, p.Hops n start place → p.Hops (m + 1) place place →
      p.structNamed package name = lost) := by
  intro start lost
  refine ⟨fun home decl ↦ structNamed_eq_ok_iff, structNamed_eq_error,
    fun n place decl hn hplace hstruct ↦ ?_, fun n m place hplace hcycle ↦ ?_⟩
  · apply structNamed_eq_error
    intro k hk other decl' hother hstruct'
    have hle : n ≤ k := hother.le_of_isStruct hstruct' hplace
    omega
  · apply structNamed_eq_error
    intro k hk other decl hother hstruct
    -- Going round often enough makes more hops than there are to the struct.
    obtain ⟨j, hj, hround⟩ := hcycle.exists_of_cycle (k + 1)
    have hle : n + j ≤ k := hother.le_of_isStruct hstruct (hplace.trans hround)
    omega

end StructNamed

/-- Types with several names. In `shop` each of `T0` to `T7` is a name for the next one and `T8` is
a struct, `Event` is a name for the struct `channel`, and `Page` and `model.List` are names for each
other. -/
def namesProject : Project :=
  let shop : SourceFile := ⟨"shop.go", "shop", [], [], [],
    [("T0", .named "T1"), ("T1", .named "T2"), ("T2", .named "T3"), ("T3", .named "T4"),
     ("T4", .named "T5"), ("T5", .named "T6"), ("T6", .named "T7"), ("T7", .named "T8"),
     ("T8", .struct ⟨"T8", []⟩), ("Page", .named "*model.List[int]"),
     ("Event", .named "channel"), ("channel", .struct ⟨"channel", []⟩)], "", false⟩
  let model : SourceFile := ⟨"model.go", "model", [], [], [],
    [("List", .named "shop.Page"), ("Item", .named "shop.T2")], "", false⟩
  ⟨[model, shop]⟩

theorem isStruct_namesProject :
    namesProject.IsStruct ("shop", "T8") ⟨"T8", []⟩ ∧
      namesProject.IsStruct ("shop", "channel") ⟨"channel", []⟩ := by
  have hbase : Text.upTo '[' "T8" = "T8" ∧ Text.upTo '[' "channel" = "channel" := by decide
  simp [IsStruct, ← typeDecl?_eq_some_iff, hbase, namesProject, typeDecl?, packageFiles, Assoc.get?]

/-- Seven hops over a package border lead to a struct, eight are one too many, and two go round. -/
theorem struct_found_within_hops_names :
    let p := namesProject
    (p.Hops 7 (startOf "model" "*Item") ("shop", "T8") ∧
      p.IsStruct ("shop", "T8") ⟨"T8", []⟩ ∧
      p.Hops 8 (startOf "shop" "T0") ("shop", "T8") ∧
      p.Hops 1 (startOf "shop" "&Page[int]") ("model", "List[int]") ∧
      p.Hops 2 ("model", "List[int]") ("model", "List[int]")) ∧
    p.structNamed "model" "*Item" = .ok ("shop", ⟨"T8", []⟩) ∧
      p.structNamed "shop" "T0" = .error ⟨"struct", "shop", "T0"⟩ ∧
      p.structNamed "shop" "&Page[int]" = .error ⟨"struct", "shop", "&Page[int]"⟩ := by
  intro p
  have hstruct := isStruct_namesProject.1
  have hseven : p.Hops 7 (startOf "model" "*Item") ("shop", "T8") := by decide +kernel
  have height : p.Hops 8 (startOf "shop" "T0") ("shop", "T8") := by decide +kernel
  have henter : p.Hops 1 (startOf "shop" "&Page[int]") ("model", "List[int]") := by decide +kernel
  have hround : p.Hops 2 ("model", "List[int]") ("model", "List[int]") := by decide +kernel
  refine ⟨⟨hseven, hstruct, height, henter, hround⟩, ?_, ?_, ?_⟩
  · exact ((struct_found_within_hops p "model" "*Item").1 "shop" _).2
      ⟨7, by decide, "T8", hseven, hstruct⟩
  · exact (struct_found_within_hops p "shop" "T0").2.2.1 8 _ _ (Nat.le_refl 8) height hstruct
  · exact (struct_found_within_hops p "shop" "&Page[int]").2.2.2 1 1 _ henter hround

/-- After as many hops as there may be the struct that is reached is not looked at, and a name that
begins like a word of the language is not followed at all. -/
theorem struct_behind_last_hop_not_found :
    let p := namesProject
    (p.Hops maxHops (startOf "shop" "T0") ("shop", "T8") ∧ p.IsStruct ("shop", "T8") ⟨"T8", []⟩ ∧
      p.structNamed "shop" "T0" = .error ⟨"struct", "shop", "T0"⟩) ∧
    (p.Declares "shop" "Event" (.named "channel") ∧
      p.IsStruct ("shop", "channel") ⟨"channel", []⟩ ∧
      p.structNamed "shop" "Event" = .error ⟨"struct", "shop", "Event"⟩) := by
  intro p
  have hlost {name : String} (h : (p.structFrom? maxHops (startOf "shop" name).1
      (startOf "shop" name).2).isNone) :
      p.structNamed "shop" name = .error ⟨"struct", "shop", name⟩ := by
    rw [structNamed_eq, Option.isNone_iff_eq_none.1 h]
    rfl
  refine ⟨⟨by decide +kernel, isStruct_namesProject.1, hlost (by decide +kernel)⟩, ?_,
    isStruct_namesProject.2, hlost (by decide +kernel)⟩
  simp [← typeDecl?_eq_some_iff, p, namesProject, typeDecl?, packageFiles, Assoc.get?]

end Project

end HandlerDocs
