import HandlerDocs.Endpoint
import HandlerDocs.Proofs.Flow.Values
import HandlerDocs.Proofs.Project.Annotate
import HandlerDocs.Proofs.Project.Describe
import HandlerDocs.Proofs.Routing.Walk

namespace HandlerDocs

namespace Project

/-- No file before that of the function belongs to its package and declares the same functions: of
files with one content, the function is in the first. -/
def Foremost (p : Project) (f : FuncRef) : Prop :=
  ∃ u, p.unit? f.unit = some u ∧
    ∀ i < f.unit, ∀ v, p.unit? i = some v → v.package = u.package → v.functions ≠ u.functions

variable {p : Project} {f : FuncRef}

theorem mem_packageFiles {package : String} {u : SourceFile} {i : ℕ} :
    (u, i) ∈ p.packageFiles package ↔ p.unit? i = some u ∧ u.package = package := by
  rw [packageFiles, List.mem_filter, List.mk_mem_zipIdx_iff_getElem?, unit?, decide_eq_true_iff]

theorem pairwise_packageFiles (p : Project) (package : String) :
    (p.packageFiles package).Pairwise fun a b ↦ a.2 < b.2 := by
  have hnumbers : (p.units.zipIdx.map Prod.snd).Pairwise (· < ·) := by
    rw [List.zipIdx_map_snd]
    exact List.pairwise_lt_range'
  exact (List.pairwise_map.1 hnumbers).filter _

/-- A search through the files of a package ends at the first with a match. -/
theorem foremost_of_findSome? {package : String} {index? : List FuncDecl → Option ℕ}
    (h : (p.packageFiles package).findSome?
      (fun (file, unit) ↦ (index? file.functions).map (FuncRef.mk unit)) = some f) :
    p.Foremost f := by
  obtain ⟨before, ⟨u, j⟩, after, hfiles, hfound, hbefore⟩ := List.findSome?_eq_some_iff.1 h
  obtain ⟨index, hindex, rfl⟩ := Option.map_eq_some_iff.1 hfound
  have hu : (u, j) ∈ p.packageFiles package := by
    rw [hfiles]
    exact List.mem_append_right _ List.mem_cons_self
  obtain ⟨hunit, rfl⟩ := mem_packageFiles.1 hu
  refine ⟨u, hunit, ?_⟩
  intro i (hi : i < j) v hv hpackage hfunctions
  have horder := p.pairwise_packageFiles u.package
  have hmem : (v, i) ∈ p.packageFiles u.package := mem_packageFiles.2 ⟨hv, hpackage⟩
  rw [hfiles] at horder hmem
  obtain ⟨-, hafter, -⟩ := List.pairwise_append.1 horder
  rcases List.mem_append.1 hmem with hmem | hmem
  · have hnone : (index? v.functions).map (FuncRef.mk i) = none := hbefore (v, i) hmem
    rw [hfunctions, hindex] at hnone
    cases hnone
  · rcases List.mem_cons.1 hmem with heq | hmem
    · have hij : i = j := congrArg Prod.snd heq
      omega
    · have hij : j < i := (List.pairwise_cons.1 hafter).1 (v, i) hmem
      omega

theorem foremost_of_functionsNamed {package name : String}
    (h : (p.functionsNamed package name).head? = some f) : p.Foremost f := by
  rw [functionsNamed] at h
  dsimp only at h
  rw [List.head?_filterMap] at h
  exact foremost_of_findSome? h

theorem foremost_of_methodNamed? {package receiver name : String}
    (h : p.methodNamed? package receiver name = some f) : p.Foremost f :=
  foremost_of_findSome? h

theorem foremost_of_findMain (h : p.findMain = .ok f) : p.Foremost f := by
  apply foremost_of_functionsNamed
  rw [findMain] at h
  split at h
  · rename_i g fs hfound
    rw [hfound, ← Except.ok.inj h]
    rfl
  · cases h

theorem Foremost.of_code (h : p.code.Foremost f) : p.Foremost f := by
  obtain ⟨u', hu', hfirst⟩ := h
  have hunit (i : ℕ) : p.code.unit? i = (p.unit? i).map SourceFile.code := List.getElem?_map
  rw [hunit] at hu'
  obtain ⟨u, hu, rfl⟩ := Option.map_eq_some_iff.1 hu'
  refine ⟨u, hu, ?_⟩
  intro i hi v hv hpackage hfunctions
  refine hfirst i hi v.code ?_ hpackage ?_
  · rw [hunit, hv]
    rfl
  · exact congrArg (List.map FuncDecl.code) hfunctions

end Project

namespace Routing

theorem foremost_of_handler? {site : Site} {package : RouterPackage} {setup : Setup} {e : Code.Expr}
    {f : FuncRef} (h : handler? site package setup e = some f) : site.project.Foremost f := by
  unfold handler? at h
  obtain ⟨⟨g, receiver⟩, hcallee, h⟩ := Option.bind_eq_some_iff.1 h
  obtain ⟨name, -, h⟩ := Option.bind_eq_some_iff.1 h
  obtain ⟨decl, -, h⟩ := Option.bind_eq_some_iff.1 h
  obtain ⟨context, -, h⟩ := Option.bind_eq_some_iff.1 h
  obtain rfl := Option.some.inj h
  rcases Flow.calleeOf?_cases hcallee with ⟨-, _, _, hhead⟩ | ⟨_, _, _, -, -, hmethod⟩
  · exact Project.foremost_of_functionsNamed hhead
  · rw [Site.method?] at hmethod
    exact Project.foremost_of_methodNamed? hmethod

theorem foremost_of_route? {site : Site} {package : RouterPackage} {setup : Setup}
    {base method : String} {path : Code.Expr} {args : List Code.Expr} {r : Route}
    (h : route? site package setup base path method args = some r) :
    site.project.Foremost r.handler := by
  unfold route? at h
  obtain ⟨raw, -, h⟩ := Option.bind_eq_some_iff.1 h
  obtain ⟨last, -, h⟩ := Option.bind_eq_some_iff.1 h
  obtain ⟨handler, hhandler, h⟩ := Option.bind_eq_some_iff.1 h
  obtain rfl := Option.some.inj h
  exact foremost_of_handler? hhandler

theorem keeps_foremost {project : Project} {package : RouterPackage} (site : Site)
    (hsite : site.project = project) :
    Keeps site package (fun _ ↦ True) fun r ↦ project.Foremost r.handler where
  mount _ _ := trivial
  route _ h := by
    rw [registered?.eq_def] at h
    subst hsite
    split at h
    · exact foremost_of_route? h
    · obtain ⟨verb, -, h⟩ := Option.bind_eq_some_iff.1 h
      exact foremost_of_route? h
    · cases h

end Routing

/-- A handler is found in the first of all files that declare it in the same way. -/
theorem Endpoint.foremost_all {p : Project} {options : Routing.Options} {limit : ℕ} {e : Endpoint}
    (he : e ∈ all p options limit) : p.Foremost e.handler := by
  obtain ⟨f, hf, rfl⟩ := List.mem_map.1 he
  obtain ⟨r, hr, rfl⟩ := mem_handlers hf
  exact (Routing.forall_mem_routes Routing.keeps_foremost r hr).of_code

end HandlerDocs
