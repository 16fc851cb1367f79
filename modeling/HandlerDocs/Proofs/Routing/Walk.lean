import HandlerDocs.Proofs.Descent
import HandlerDocs.Routing.Discovery

namespace HandlerDocs.Routing

open Code

section Routers

variable (M : String → Prop)

def Mounted (routers : Routers) : Prop :=
  ∀ e ∈ routers, M e.2

variable {M} {routers : Routers}

theorem Mounted.put (h : Mounted M routers) (name : String) {mount : String} (hmount : M mount) :
    Mounted M (Assoc.put name mount routers) := by
  intro e he
  rcases Assoc.eq_or_mem_of_mem_put he with rfl | he
  · exact hmount
  · exact h e he

theorem Mounted.erase (h : Mounted M routers) (name : String) :
    Mounted M (Assoc.erase name routers) :=
  fun e he ↦ h e (List.mem_of_mem_filter he)

theorem Mounted.passRouters (h : Mounted M routers) (params : List Param)
    {mounts : List (Option String)} (hmounts : ∀ mount, some mount ∈ mounts → M mount) :
    Mounted M (passRouters routers params mounts) := by
  rw [Routing.passRouters]
  have hpairs : ∀ p ∈ params.zip mounts, ∀ mount ∈ p.2, M mount :=
    fun p hp mount hmount ↦ hmounts mount (hmount ▸ (List.of_mem_zip hp).2)
  generalize params.zip mounts = pairs at hpairs
  induction pairs generalizing routers with
  | nil => exact h
  | cons pair pairs ih =>
    refine ih ?_ fun p hp ↦ hpairs p (List.mem_cons_of_mem _ hp)
    have hpair := hpairs pair List.mem_cons_self
    obtain ⟨⟨name, type⟩, mount⟩ := pair
    cases name with
    | none => exact h
    | some name =>
      cases mount with
      | none => exact h.erase name
      | some mount => exact h.put name (hpair mount rfl)

theorem Mounted.forget {setup : Setup} (h : Mounted M setup.routers) (names : List String) :
    Mounted M (forget setup names).routers := by
  rw [Routing.forget]
  generalize setup.routers = routers at h
  induction names generalizing routers with
  | nil => exact h
  | cons name names ih => exact ih _ (h.erase name)

end Routers

section Finds

variable (Q : Route → Prop)

def Finds (trace : Trace Route) : Prop :=
  ∀ r ∈ trace.items, Q r

variable {Q}

theorem Finds.append {a b : Trace Route} (ha : Finds Q a) (hb : Finds Q b) : Finds Q (a ++ b) := by
  rw [Finds, Trace.items_append]
  exact List.forall_mem_append.2 ⟨ha, hb⟩

theorem finds_nil : Finds Q [] :=
  fun _ h ↦ absurd h List.not_mem_nil

end Finds

/-- What single steps of setup code in a file keep: router expressions serve under paths with `M` as
long as router variables do, and registrations on these make routes with `Q`. -/
structure Keeps (site : Site) (package : RouterPackage) (M : String → Prop) (Q : Route → Prop) :
    Prop where
  mount {setup : Setup} {e : Expr} {mount : String} :
    Mounted M setup.routers → mount? site package setup e = some mount → M mount
  route {setup : Setup} {base method : String} {args : List Expr} {r : Route} :
    M base → registered? site package setup base method args = some r → Q r

structure KeepsInside (site : Site) (package : RouterPackage)
    (enter : FuncRef → Routers → Trace Route) (M : String → Prop) (Q : Route → Prop) : Prop
    extends Keeps site package M Q where
  enter (f : FuncRef) {routers : Routers} : Mounted M routers → Finds Q (enter f routers)

section Walk

variable {site : Site} {package : RouterPackage} {enter : FuncRef → Routers → Trace Route}
  {M : String → Prop} {Q : Route → Prop}

theorem finds_walkHelper (hkeeps : KeepsInside site package enter M Q) {setup : Setup}
    (h : Mounted M setup.routers) (fn : Expr) (args : List Expr) :
    Finds Q (walkHelper site package enter setup fn args) := by
  simp only [walkHelper]
  split
  · exact finds_nil
  · split
    · exact finds_nil
    · refine hkeeps.enter _ (h.passRouters _ fun mount hmount ↦ ?_)
      obtain ⟨arg, -, hmount⟩ := List.mem_map.1 hmount
      exact hkeeps.mount h hmount

theorem finds_walkCall (hkeeps : KeepsInside site package enter M Q) {setup : Setup}
    (h : Mounted M setup.routers) (e : Expr) :
    Finds Q (walkCall site package enter setup e) := by
  rw [walkCall.eq_def]
  split
  · split
    · rename_i hbase
      rw [Finds, Trace.items_ofItems]
      intro r hr
      exact hkeeps.route (hkeeps.mount h hbase) (Option.mem_toList.1 hr)
    · exact finds_walkHelper hkeeps h _ _
  · exact finds_walkHelper hkeeps h _ _
  · exact finds_nil

theorem finds_walkPair (hkeeps : KeepsInside site package enter M Q) {setup : Setup}
    (h : Mounted M setup.routers) (target value : Expr) :
    Mounted M (walkPair site package enter setup target value).1.routers ∧
      Finds Q (walkPair site package enter setup target value).2 := by
  rw [walkPair]
  split
  · exact ⟨h, finds_walkCall hkeeps h value⟩
  · rename_i name mount _ hmount
    exact ⟨h.put name (hkeeps.mount h hmount), finds_nil⟩
  · rename_i name _ _
    have herased : Mounted M (Assoc.erase name setup.routers) := h.erase name
    exact ⟨herased, finds_walkCall hkeeps herased value⟩

theorem finds_walkPairs (hkeeps : KeepsInside site package enter M Q) {setup : Setup}
    (h : Mounted M setup.routers) (pairs : List (Expr × Expr)) :
    Mounted M (walkPairs site package enter setup pairs).1.routers ∧
      Finds Q (walkPairs site package enter setup pairs).2 := by
  induction pairs generalizing setup with
  | nil => exact ⟨h, finds_nil⟩
  | cons pair pairs ih =>
    obtain ⟨hpair, hfirst⟩ := finds_walkPair hkeeps h pair.1 pair.2
    obtain ⟨hpairs, hrest⟩ := ih hpair
    exact ⟨hpairs, hfirst.append hrest⟩

theorem finds_walkTargets (hkeeps : KeepsInside site package enter M Q) {setup : Setup}
    (h : Mounted M setup.routers) (targets values : List Expr) :
    Mounted M (walkTargets site package enter setup targets values).1.routers ∧
      Finds Q (walkTargets site package enter setup targets values).2 := by
  rw [walkTargets]
  split
  · exact finds_walkPairs hkeeps h _
  · exact ⟨h.forget _, finds_nil⟩

theorem finds_walkSpecs (hkeeps : KeepsInside site package enter M Q) {setup : Setup}
    (h : Mounted M setup.routers) (specs : List ValueSpec) :
    Mounted M (walkSpecs site package enter setup specs).1.routers ∧
      Finds Q (walkSpecs site package enter setup specs).2 := by
  induction specs generalizing setup with
  | nil => exact ⟨h, finds_nil⟩
  | cons spec specs ih =>
    simp only [walkSpecs]
    split
    · exact ih (h.forget _)
    · obtain ⟨htargets, hfirst⟩ :=
        finds_walkTargets hkeeps h (spec.names.map .ident) spec.values
      obtain ⟨hspecs, hrest⟩ := ih htargets
      exact ⟨hspecs, hfirst.append hrest⟩

mutual

theorem finds_walkStmt (hkeeps : KeepsInside site package enter M Q) {setup : Setup}
    (h : Mounted M setup.routers) : (s : Stmt) →
    Mounted M (walkStmt site package enter setup s).1.routers ∧
      Finds Q (walkStmt site package enter setup s).2
  | .assign targets values _ => by
    simp only [walkStmt]
    exact finds_walkTargets hkeeps h targets values
  | .declare specs => by
    simp only [walkStmt]
    exact finds_walkSpecs hkeeps h specs
  | .eval e => by
    simp only [walkStmt]
    exact ⟨h, finds_walkCall hkeeps h e⟩
  | .branch init body otherwise => by
    obtain ⟨hstart, hinit⟩ := finds_walkInit hkeeps h init
    simp only [walkStmt]
    exact ⟨h, (hinit.append (finds_walkBlock hkeeps hstart body)).append
      (finds_walkInit hkeeps hstart otherwise).2⟩
  | .block body => by
    simp only [walkStmt]
    exact ⟨h, finds_walkBlock hkeeps h body⟩
  | .scoped init bodies => by
    obtain ⟨hstart, hinit⟩ := finds_walkInit hkeeps h init
    simp only [walkStmt]
    exact ⟨h, hinit.append (finds_walkBlocks hkeeps hstart bodies)⟩
  | .result _ | .deferred _ | .other _ => by
    simp only [walkStmt]
    exact ⟨h, finds_nil⟩

theorem finds_walkInit (hkeeps : KeepsInside site package enter M Q) {setup : Setup}
    (h : Mounted M setup.routers) : (init : Option Stmt) →
    Mounted M (walkInit site package enter setup init).1.routers ∧
      Finds Q (walkInit site package enter setup init).2
  | none => by
    simp only [walkInit]
    exact ⟨h, finds_nil⟩
  | some s => by
    simp only [walkInit]
    exact finds_walkStmt hkeeps h s

theorem finds_walkBlock (hkeeps : KeepsInside site package enter M Q) {setup : Setup}
    (h : Mounted M setup.routers) : (body : List Stmt) →
    Finds Q (walkBlock site package enter setup body)
  | [] => by
    simp only [walkBlock]
    exact finds_nil
  | s :: body => by
    obtain ⟨hafter, hfirst⟩ := finds_walkStmt hkeeps h s
    simp only [walkBlock]
    exact hfirst.append (finds_walkBlock hkeeps hafter body)

theorem finds_walkBlocks (hkeeps : KeepsInside site package enter M Q) {setup : Setup}
    (h : Mounted M setup.routers) :
    (bodies : List (List Stmt)) → Finds Q (walkBlocks site package enter setup bodies)
  | [] => by
    simp only [walkBlocks]
    exact finds_nil
  | body :: bodies => by
    simp only [walkBlocks]
    exact (finds_walkBlock hkeeps h body).append (finds_walkBlocks hkeeps h bodies)

end

end Walk

theorem finds_followSetup {project : Project} {package : RouterPackage} {M : String → Prop}
    {Q : Route → Prop} (hkeeps : ∀ site : Site, site.project = project → Keeps site package M Q)
    (limit : ℕ) (active : List FuncRef) (f : FuncRef) {routers : Routers} (h : Mounted M routers) :
    Finds Q (followSetup project package limit active f routers) := by
  induction limit generalizing active f routers with
  | zero => exact finds_nil
  | succ limit ih =>
    rw [followSetup]
    split
    · exact finds_nil
    · rw [Finds, Trace.items_inside]
      exact finds_walkBlock ⟨hkeeps _ rfl, fun g _ hg ↦ ih _ g hg⟩ h _

theorem mem_of_mem_distinctFrom {seen : List (String × String × FuncRef)} {found : List Route}
    {r : Route} (h : r ∈ distinctFrom seen found) : r ∈ found := by
  induction found generalizing seen with
  | nil => cases h
  | cons r' found ih =>
    rw [distinctFrom] at h
    split at h
    · exact List.mem_cons_of_mem _ (ih h)
    · rcases List.mem_cons.1 h with rfl | h
      · exact List.mem_cons_self
      · exact List.mem_cons_of_mem _ (ih h)

/-- What registrations give to routes holds of every route of the project. -/
theorem forall_mem_routes {project : Project} {options : Options} {M : String → Prop}
    {Q : Route → Prop}
    (hkeeps : ∀ site : Site, site.project = project → Keeps site options.package M Q) :
    ∀ r ∈ routes project options, Q r := by
  intro r hr
  have hfound : r ∈ Trace.items ((setups project options.package).flatMap
      (setupTrace project options.package options.maxDepth)) :=
    List.mem_of_mem_filter (mem_of_mem_distinctFrom hr)
  obtain ⟨event, hevent, hitem⟩ := List.mem_filterMap.1 hfound
  obtain ⟨f, -, hevent⟩ := List.mem_flatMap.1 hevent
  exact finds_followSetup hkeeps _ [] f (List.forall_mem_nil _) r
    (List.mem_filterMap.2 ⟨event, hevent, hitem⟩)

end HandlerDocs.Routing
