import HandlerDocs.Proofs.PathName
import HandlerDocs.Proofs.Project.Reload
import HandlerDocs.Proofs.SourceFile.LoadError

namespace HandlerDocs

theorem Project.pairwise_units_ofFiles (files : List SourceFile) :
    (ofFiles files).units.Pairwise fun a b ↦ PathName.le a.path b.path = true := by
  refine List.pairwise_mergeSort ?_ ?_ files
  · intro a b c
    exact PathName.le_trans
  · intro a b
    rw [Bool.or_eq_true]
    exact PathName.le_total a.path b.path

/-- Files of different paths come into one order, whatever order they had. -/
theorem Project.ofFiles_of_perm {as bs : List SourceFile} (h : as.Perm bs)
    (hpaths : (as.map fun u ↦ PathName.parts u.path).Nodup) : ofFiles as = ofFiles bs := by
  refine congrArg Project.mk (mergeSort_of_perm h ?_ ?_ ?_)
  · intro a b c
    exact PathName.le_trans
  · intro a b
    exact PathName.le_total a.path b.path
  · intro a ha b hb hab hba
    exact List.inj_on_of_nodup_map hpaths ha hb (PathName.le_antisymm hab hba)

namespace Generation

open SourceFile (LoadError Wording loadFrom)

def error? : Except LoadError SourceFile → Option LoadError
  | .ok _ => none
  | .error e => some e

@[simp] theorem error?_ok (file : SourceFile) : error? (.ok file) = none := rfl

@[simp] theorem error?_error (e : LoadError) : error? (.error e) = some e := rfl

theorem failure?_eq (wording : Wording) (result : Except LoadError SourceFile) :
    failure? wording result = (error? result).map (·.message wording) := by
  cases result <;> rfl

def sortErrors (wording : Wording) (errors : List LoadError) : List LoadError :=
  errors.mergeSort fun a b ↦ decide (a.message wording ≤ b.message wording)

def sortMessages (messages : List String) : List String :=
  messages.mergeSort fun a b ↦ decide (a ≤ b)

theorem map_message_sortErrors (wording : Wording) (errors : List LoadError) :
    (sortErrors wording errors).map (·.message wording) =
      sortMessages (errors.map (·.message wording)) :=
  List.map_mergeSort fun _ _ _ _ ↦ rfl

/-- Workers that load files: the paths that wait for one, what was loaded and is not yet delivered,
and the files and failures in the order of their delivery. -/
structure Pool where
  waiting : List String
  busy : List (Except LoadError SourceFile)
  units : List SourceFile
  errors : List LoadError

namespace Pool

def start (paths : List String) : Pool :=
  ⟨paths, [], [], []⟩

structure Done (s : Pool) : Prop where
  waiting : s.waiting = []
  busy : s.busy = []

def result (s : Pool) (wording : Wording) : Project × List LoadError :=
  (.ofFiles s.units, sortErrors wording s.errors)

/-- The project is made, and the failures are listed in the order of their messages. Which of two
failures comes first is left open only where different paths are shown alike. -/
structure Yields (s : Pool) (wording : Wording) (p : Project) (errors : List LoadError) :
    Prop where
  project : (s.result wording).1 = p
  messages : (s.result wording).2.map (·.message wording) =
    sortMessages (errors.map (·.message wording))
  failures : (s.result wording).2.Perm errors
  order : (∀ a ∈ errors, ∀ b ∈ errors, wording.path a.path = wording.path b.path →
    a.path = b.path) → (s.result wording).2 = sortErrors wording errors

section Run

variable (disk : Disk) (cwd : Disk.Place) (workers : ℕ)

/-- A worker without work takes any path that waits; any worker that is busy delivers. There is at
least one. -/
inductive Step : Pool → Pool → Prop
  | take {before after : List String} {path : String} {busy : List (Except LoadError SourceFile)}
      {units : List SourceFile} {errors : List LoadError} : busy.length < max workers 1 →
      Step ⟨before ++ path :: after, busy, units, errors⟩
        ⟨before ++ after, loadFrom disk cwd path :: busy, units, errors⟩
  | deliver {waiting : List String} {before after : List (Except LoadError SourceFile)}
      {file : SourceFile} {units : List SourceFile} {errors : List LoadError} :
      Step ⟨waiting, before ++ .ok file :: after, units, errors⟩
        ⟨waiting, before ++ after, units ++ [file], errors⟩
  | fail {waiting : List String} {before after : List (Except LoadError SourceFile)}
      {e : LoadError} {units : List SourceFile} {errors : List LoadError} :
      Step ⟨waiting, before ++ .error e :: after, units, errors⟩
        ⟨waiting, before ++ after, units, errors ++ [e]⟩

def Run : Pool → Pool → Prop :=
  Relation.ReflTransGen (Step disk cwd workers)

def results (s : Pool) : List (Except LoadError SourceFile) :=
  s.waiting.map (loadFrom disk cwd) ++ s.busy ++ s.units.map .ok ++ s.errors.map .error

variable {disk cwd workers} {s t : Pool}

theorem Step.perm (h : Step disk cwd workers s t) :
    (t.results disk cwd).Perm (s.results disk cwd) := by
  classical
  rw [List.perm_iff_count]
  intro result
  cases h <;>
    · simp only [results, List.map_append, List.map_cons, List.map_nil, List.count_append,
        List.count_cons, List.count_nil]
      omega

theorem Run.perm (h : Run disk cwd workers s t) :
    (t.results disk cwd).Perm (s.results disk cwd) := by
  induction h with
  | refl => exact List.Perm.refl _
  | tail _ hstep ih => exact hstep.perm.trans ih

def size (s : Pool) : ℕ :=
  2 * s.waiting.length + s.busy.length

theorem Step.size_lt (h : Step disk cwd workers s t) : t.size < s.size := by
  cases h <;>
    · simp only [size, List.length_append, List.length_cons]
      omega

theorem exists_step (h : 0 < s.size) : ∃ t, Step disk cwd workers s t := by
  obtain ⟨waiting, busy, units, errors⟩ := s
  cases busy with
  | nil =>
    cases waiting with
    | nil => exact absurd h (lt_irrefl 0)
    | cons path waiting =>
      have hstep : Step disk cwd workers ⟨[] ++ path :: waiting, [], units, errors⟩ _ :=
        .take (lt_max_of_lt_right Nat.one_pos)
      exact ⟨_, hstep⟩
  | cons result busy =>
    cases result with
    | error e =>
      have hstep : Step disk cwd workers ⟨waiting, [] ++ .error e :: busy, units, errors⟩ _ := .fail
      exact ⟨_, hstep⟩
    | ok file =>
      have hstep : Step disk cwd workers ⟨waiting, [] ++ .ok file :: busy, units, errors⟩ _ :=
        .deliver
      exact ⟨_, hstep⟩

/-- Workers never get stuck. -/
theorem exists_done (s : Pool) : ∃ t, Run disk cwd workers s t ∧ t.Done := by
  induction hsize : s.size using Nat.strong_induction_on generalizing s with
  | _ n ih =>
    subst hsize
    rcases Nat.eq_zero_or_pos s.size with hzero | hpos
    · refine ⟨s, .refl, ?_, ?_⟩
      · apply List.eq_nil_of_length_eq_zero
        rw [size] at hzero
        omega
      · apply List.eq_nil_of_length_eq_zero
        rw [size] at hzero
        omega
    · obtain ⟨t, hstep⟩ := exists_step hpos
      obtain ⟨last, hrun, hdone⟩ := ih t.size hstep.size_lt t rfl
      exact ⟨last, .head hstep hrun, hdone⟩

end Run

end Pool

section Load

variable {disk : Disk} {cwd : Disk.Place} {workers : ℕ}

def errorsOf (disk : Disk) (cwd : Disk.Place) (paths : List String) : List LoadError :=
  (paths.map (loadFrom disk cwd)).filterMap error?

theorem errorsOf_append (as bs : List String) :
    errorsOf disk cwd (as ++ bs) = errorsOf disk cwd as ++ errorsOf disk cwd bs := by
  rw [errorsOf, List.map_append, List.filterMap_append]
  rfl

theorem map_message_errorsOf (wording : Wording) (paths : List String) :
    sortMessages ((errorsOf disk cwd paths).map (·.message wording)) =
      (load disk cwd paths wording).2 := by
  rw [errorsOf, List.map_filterMap, load, collect]
  simp only [← failure?_eq]
  rfl

theorem loadFrom_of_mem_errorsOf {paths : List String} {e : LoadError}
    (h : e ∈ errorsOf disk cwd paths) : loadFrom disk cwd e.path = .error e := by
  obtain ⟨result, hresult, he⟩ := List.mem_filterMap.1 h
  obtain ⟨path, -, rfl⟩ := List.mem_map.1 hresult
  cases hload : loadFrom disk cwd path with
  | ok file =>
    rw [hload] at he
    cases he
  | error e' =>
    rw [hload] at he
    obtain rfl := Option.some.inj he
    rw [SourceFile.path_of_loadFrom_error hload]
    exact hload

/-- What was delivered when all is done. -/
theorem delivered_perm {paths : List String} {s : Pool}
    (hrun : Pool.Run disk cwd workers (.start paths) s) (hdone : s.Done) :
    s.units.Perm ((paths.map (loadFrom disk cwd)).filterMap (·.toOption)) ∧
      s.errors.Perm (errorsOf disk cwd paths) := by
  have hperm := hrun.perm
  rw [Pool.results, Pool.results, hdone.waiting, hdone.busy] at hperm
  constructor
  · have hunits := hperm.filterMap fun result ↦ result.toOption
    simpa [Pool.start, List.filterMap_map, Except.toOption] using hunits
  · have herrors := hperm.filterMap error?
    simpa [errorsOf, Pool.start, List.filterMap_map, Function.comp_def] using herrors

theorem nodup_loaded {paths : List String} (h : (paths.map PathName.parts).Nodup) :
    (((paths.map (loadFrom disk cwd)).filterMap (·.toOption)).map
      fun u ↦ PathName.parts u.path).Nodup :=
  List.pairwise_map.2 (pairwise_loaded (List.pairwise_map.1 h))

theorem yields_of_run (wording : Wording) {paths : List String}
    (hpaths : (paths.map PathName.parts).Nodup) {s : Pool}
    (hrun : Pool.Run disk cwd workers (.start paths) s) (hdone : s.Done) {p : Project}
    (hp : (load disk cwd paths).1 = p) {errors : List LoadError}
    (herrors : (errorsOf disk cwd paths).Perm errors) : s.Yields wording p errors := by
  obtain ⟨hunits, hdelivered⟩ := delivered_perm hrun hdone
  have hperm := hdelivered.trans herrors
  refine ⟨?_, ?_, (List.mergeSort_perm _ _).trans hperm, fun hshown ↦ ?_⟩
  · rw [← hp]
    refine Project.ofFiles_of_perm hunits ?_
    exact (hunits.map _).nodup_iff.2 (nodup_loaded hpaths)
  · rw [Pool.result, map_message_sortErrors]
    exact mergeSort_key_of_perm (hperm.map _) fun _ _ _ _ h ↦ h
  · refine mergeSort_key_of_perm hperm fun a ha b hb hmessage ↦ ?_
    -- A path has one failure, and a message tells the path where paths are shown apart.
    have hpath := hshown a (hperm.mem_iff.1 ha) b (hperm.mem_iff.1 hb)
      (LoadError.shown_eq_of_message_eq hmessage)
    have hload := loadFrom_of_mem_errorsOf (hdelivered.mem_iff.1 ha)
    rw [hpath, loadFrom_of_mem_errorsOf (hdelivered.mem_iff.1 hb)] at hload
    exact (Except.error.inj hload).symm

/-- Files that cannot be loaded do not change the project, wherever they are in the list. -/
theorem load_of_perm_append {paths broken all : List String} (hall : all.Perm (paths ++ broken))
    (hpaths : (all.map PathName.parts).Nodup)
    (hbroken : ∀ path ∈ broken, ∃ e, loadFrom disk cwd path = .error e) :
    (load disk cwd all).1 = (load disk cwd paths).1 := by
  have hnone : (broken.map (loadFrom disk cwd)).filterMap (·.toOption) = [] := by
    rw [List.filterMap_map, List.filterMap_eq_nil_iff]
    intro path hpath
    obtain ⟨e, he⟩ := hbroken path hpath
    rw [Function.comp_apply, he]
    rfl
  have hfiles := (hall.map (loadFrom disk cwd)).filterMap (·.toOption)
  rw [List.map_append, List.filterMap_append, hnone, List.append_nil] at hfiles
  exact Project.ofFiles_of_perm hfiles (nodup_loaded hpaths)

/-- However many workers load files of different paths, and in whatever order they deliver, they
come to an end with the files that can be read in the order of their paths, and with them the
numbers of the files of each package, and with one list of messages about the others. The failures
behind the messages stand in one order too unless different paths are shown alike. More files that
cannot be loaded change nothing but the failures. -/
theorem load_in_any_order (wording : Wording) {paths : List String}
    (hpaths : (paths.map PathName.parts).Nodup) :
    let p := (load disk cwd paths wording).1
    let errors := errorsOf disk cwd paths
    (p.units.Perm ((paths.map (loadFrom disk cwd)).filterMap (·.toOption)) ∧
        p.units.Pairwise fun a b ↦ PathName.le a.path b.path = true) ∧
      sortMessages (errors.map (·.message wording)) = (load disk cwd paths wording).2 ∧
      (∀ s, Pool.Run disk cwd workers (.start paths) s →
        (∃ t, Pool.Run disk cwd workers s t ∧ t.Done) ∧
          (s.Done → s.Yields wording p errors)) ∧
      ∀ broken all, all.Perm (paths ++ broken) → (all.map PathName.parts).Nodup →
        (∀ path ∈ broken, ∃ e, loadFrom disk cwd path = .error e) →
        ∀ s, Pool.Run disk cwd workers (.start all) s → s.Done →
          s.Yields wording p (errors ++ errorsOf disk cwd broken) := by
  intro p errors
  refine ⟨⟨List.mergeSort_perm _ _, Project.pairwise_units_ofFiles _⟩,
    map_message_errorsOf wording paths, fun s hrun ↦ ⟨?_, ?_⟩, ?_⟩
  · exact Pool.exists_done s
  · intro hdone
    exact yields_of_run wording hpaths hrun hdone rfl (.refl _)
  · intro broken all hall hdistinct hbroken s hrun hdone
    have hload := load_of_perm_append hall hdistinct hbroken
    refine yields_of_run wording hdistinct hrun hdone hload ?_
    rw [← errorsOf_append]
    exact (hall.map (loadFrom disk cwd)).filterMap error?

/-- Two files are delivered in both orders, and a third is missing. -/
theorem load_in_any_order_two :
    let disk : Disk :=
      ⟨[(["a.go"], .file "package a\n".toUTF8), (["b.go"], .file "package b\n".toUTF8)]⟩
    let paths := ["b.go", "c.go", "a.go"]
    (paths.map PathName.parts).Nodup ∧
      ∃ s t, Pool.Run disk [] 2 (.start paths) s ∧ Pool.Run disk [] 2 (.start paths) t ∧
        s.Done ∧ t.Done ∧ s.units.map (·.path) = ["b.go", "a.go"] ∧
        t.units.map (·.path) = ["a.go", "b.go"] ∧ s.result .text = t.result .text := by
  intro disk paths
  have hpaths : (paths.map PathName.parts).Nodup := by decide
  obtain ⟨a, ha, hpatha⟩ := exists_ok_of_toOption (show
    (loadFrom disk [] "a.go").toOption.map (·.path) = some "a.go" by decide +kernel)
  obtain ⟨b, hb, hpathb⟩ := exists_ok_of_toOption (show
    (loadFrom disk [] "b.go").toOption.map (·.path) = some "b.go" by decide +kernel)
  obtain ⟨e, he⟩ : ∃ e, loadFrom disk [] "c.go" = .error e := ⟨.unreadable "c.go" .notFound, rfl⟩
  -- Both workers load a file, and either may be the first to deliver it.
  have htaken : Pool.Run disk [] 2 (.start paths) ⟨["c.go"], [.ok a, .ok b], [], []⟩ := by
    rw [← ha, ← hb]
    exact .head (@Pool.Step.take disk [] 2 [] ["c.go", "a.go"] "b.go" [] [] [] (by decide))
      (.single (@Pool.Step.take disk [] 2 ["c.go"] [] "a.go" _ [] [] (by decide)))
  have hlast (units : List SourceFile) :
      Pool.Run disk [] 2 ⟨["c.go"], [], units, []⟩ ⟨[], [], units, [e]⟩ := by
    refine .head (@Pool.Step.take disk [] 2 [] [] "c.go" [] units [] (by decide)) ?_
    rw [he]
    exact .single (@Pool.Step.fail disk [] 2 [] [] [] e units [])
  have hs : Pool.Run disk [] 2 (.start paths) ⟨[], [], [b, a], [e]⟩ := by
    refine htaken.trans (.head (@Pool.Step.deliver disk [] 2 ["c.go"] [.ok a] [] b [] []) ?_)
    exact .head (@Pool.Step.deliver disk [] 2 ["c.go"] [] [] a [b] []) (hlast [b, a])
  have ht : Pool.Run disk [] 2 (.start paths) ⟨[], [], [a, b], [e]⟩ := by
    refine htaken.trans (.head (@Pool.Step.deliver disk [] 2 ["c.go"] [] [.ok b] a [] []) ?_)
    exact .head (@Pool.Step.deliver disk [] 2 ["c.go"] [] [] b [a] []) (hlast [a, b])
  have hany := (@load_in_any_order disk [] 2 .text paths hpaths).2.2.1
  have hsame {s t : Pool} (hs : Pool.Run disk [] 2 (.start paths) s)
      (ht : Pool.Run disk [] 2 (.start paths) t) (hs' : s.Done) (ht' : t.Done) :
      s.result .text = t.result .text := by
    have hyields := (hany s hs).2 hs'
    have hyields' := (hany t ht).2 ht'
    refine Prod.ext (hyields.project.trans hyields'.project.symm) ?_
    rw [hyields.order fun _ _ _ _ h ↦ h, hyields'.order fun _ _ _ _ h ↦ h]
  refine ⟨hpaths, _, _, hs, ht, ⟨rfl, rfl⟩, ⟨rfl, rfl⟩, ?_, ?_, hsame hs ht ⟨rfl, rfl⟩ ⟨rfl, rfl⟩⟩
  · rw [List.map_cons, List.map_singleton, hpatha, hpathb]
  · rw [List.map_cons, List.map_singleton, hpatha, hpathb]

end Load

theorem Pool.run_pair (disk : Disk) (cwd : Disk.Place) (a b : String) :
    Pool.Run disk cwd 2 (.start [a, b])
      ⟨[], [loadFrom disk cwd b, loadFrom disk cwd a], [], []⟩ :=
  .head (@Pool.Step.take disk cwd 2 [] [b] a [] [] [] (by decide))
    (.single (@Pool.Step.take disk cwd 2 [] [] b _ [] [] (by simp)))

/-- The names of two missing files are bytes that are shown alike, and the failures stand in the
order of their delivery. So do two files whose paths differ only in how they are written. -/
theorem load_in_delivery_order :
    let a := PathName.ofBytes [0xFE, 0x2E, 0x67, 0x6F]
    let b := PathName.ofBytes [0xFF, 0x2E, 0x67, 0x6F]
    let disk : Disk := ⟨[(["x"], .dir), (["x", "a.go"], .file "package p\n".toUTF8)]⟩
    (PathName.parts a ≠ PathName.parts b ∧
      ∃ s t, Pool.Run disk [] 2 (.start [a, b]) s ∧ Pool.Run disk [] 2 (.start [a, b]) t ∧
        s.Done ∧ t.Done ∧ (s.result .bytes).2 ≠ (t.result .bytes).2) ∧
      ∃ s t, Pool.Run disk [] 2 (.start ["x/a.go", "x//a.go"]) s ∧
        Pool.Run disk [] 2 (.start ["x/a.go", "x//a.go"]) t ∧
        s.Done ∧ t.Done ∧ (s.result .text).1 ≠ (t.result .text).1 := by
  intro a b disk
  constructor
  · let e (path : String) : LoadError := .unreadable path .notFound
    have hpair := Pool.run_pair disk [] a b
    have hmissing {path : String} (h : disk.resolve [] path = .error .notFound) :
        loadFrom disk [] path = .error (e path) := by
      rw [loadFrom, Disk.read, h]
      rfl
    rw [hmissing (by decide +kernel), hmissing (by decide +kernel)] at hpair
    have hmessage : (e a).message .bytes = (e b).message .bytes := by decide +kernel
    have hsort {c d : LoadError} (h : c.message .bytes = d.message .bytes) :
        sortErrors .bytes [c, d] = [c, d] := by
      refine List.mergeSort_of_pairwise (List.pairwise_pair.2 ?_)
      rw [h, decide_eq_true_iff]
    refine ⟨by decide, ⟨[], [], [], [e a, e b]⟩, ⟨[], [], [], [e b, e a]⟩, ?_, ?_, ⟨rfl, rfl⟩,
      ⟨rfl, rfl⟩, ?_⟩
    · exact hpair.trans (.head (@Pool.Step.fail disk [] 2 [] [.error (e b)] [] (e a) [] [])
        (.single (@Pool.Step.fail disk [] 2 [] [] [] (e b) [] [e a])))
    · exact hpair.trans (.head (@Pool.Step.fail disk [] 2 [] [] [.error (e a)] (e b) [] [])
        (.single (@Pool.Step.fail disk [] 2 [] [] [] (e a) [] [e b])))
    · rw [Pool.result, Pool.result, hsort hmessage, hsort hmessage.symm]
      decide
  · have hpair := Pool.run_pair disk [] "x/a.go" "x//a.go"
    obtain ⟨a, ha, hpatha⟩ := exists_ok_of_toOption (show
      (loadFrom disk [] "x/a.go").toOption.map (·.path) = some "x/a.go" by decide +kernel)
    obtain ⟨b, hb, hpathb⟩ := exists_ok_of_toOption (show
      (loadFrom disk [] "x//a.go").toOption.map (·.path) = some "x//a.go" by decide +kernel)
    rw [ha, hb] at hpair
    have hsort {c d : SourceFile} (h : PathName.parts c.path = PathName.parts d.path) :
        Project.ofFiles [c, d] = ⟨[c, d]⟩ := by
      refine congrArg Project.mk (List.mergeSort_of_pairwise (List.pairwise_pair.2 ?_))
      rw [PathName.le, h]
      exact or_self_iff.1 (PathName.partsLe_total _ _)
    have hparts : PathName.parts a.path = PathName.parts b.path := by
      rw [hpatha, hpathb]
      decide +kernel
    refine ⟨⟨[], [], [a, b], []⟩, ⟨[], [], [b, a], []⟩, ?_, ?_, ⟨rfl, rfl⟩, ⟨rfl, rfl⟩, ?_⟩
    · exact hpair.trans (.head (@Pool.Step.deliver disk [] 2 [] [.ok b] [] a [] [])
        (.single (@Pool.Step.deliver disk [] 2 [] [] [] b [a] [])))
    · exact hpair.trans (.head (@Pool.Step.deliver disk [] 2 [] [] [.ok a] b [] [])
        (.single (@Pool.Step.deliver disk [] 2 [] [] [] a [b] [])))
    · rw [Pool.result, Pool.result, hsort hparts, hsort hparts.symm]
      intro heq
      have hpaths := congrArg (fun p ↦ p.units.map SourceFile.path) heq
      simp [hpatha, hpathb] at hpaths

end Generation

end HandlerDocs
