import HandlerDocs.Disk.Basic
import HandlerDocs.Proofs.Prelude

namespace HandlerDocs.Disk

theorem lookup_cons_of_ne {key p : Place} (h : p ≠ key) (node : Node)
    (entries : List (Place × Node)) : ((key, node) :: entries).lookup p = entries.lookup p := by
  rw [List.lookup_cons, beq_false_of_ne h]

theorem lookup_putEntry (place : Place) (node : Node) (entries : List (Place × Node)) (p : Place) :
    (putEntry place node entries).lookup p = if p = place then some node else entries.lookup p := by
  induction entries with
  | nil =>
    by_cases hp : p = place
    · rw [putEntry, hp, List.lookup_cons_self, if_pos rfl]
    · rw [putEntry, lookup_cons_of_ne hp, if_neg hp]
  | cons e entries ih =>
    obtain ⟨key, value⟩ := e
    rw [putEntry]
    by_cases hkey : key = place
    · subst hkey
      rw [if_pos rfl]
      by_cases hp : p = key
      · rw [hp, List.lookup_cons_self, if_pos rfl]
      · rw [lookup_cons_of_ne hp, lookup_cons_of_ne hp, if_neg hp]
    · rw [if_neg hkey]
      by_cases hp : p = key
      · rw [hp, List.lookup_cons_self, List.lookup_cons_self, if_neg hkey]
      · rw [lookup_cons_of_ne hp, lookup_cons_of_ne hp, ih]

theorem longest_putEntry {place : Place} (bytes : ByteArray) {entries : List (Place × Node)}
    (h : ∀ node ∈ entries.lookup place, node.linkLength = 0) (n : ℕ) :
    (putEntry place (.file bytes) entries).foldl (fun n e ↦ max n e.2.linkLength) n =
      entries.foldl (fun n e ↦ max n e.2.linkLength) n := by
  induction entries generalizing n with
  | nil => exact max_eq_left n.zero_le
  | cons e entries ih =>
    obtain ⟨key, value⟩ := e
    rw [putEntry]
    by_cases hkey : key = place
    · subst hkey
      have hvalue : value.linkLength = 0 := h value List.lookup_cons_self
      rw [if_pos rfl, List.foldl_cons, List.foldl_cons, hvalue]
      rfl
    · rw [lookup_cons_of_ne (Ne.symm hkey)] at h
      rw [if_neg hkey, List.foldl_cons, List.foldl_cons, ih h]

/-- What stands at a place, if anything, is a file. -/
def Takes (disk : Disk) (place : Place) : Prop :=
  ∀ node ∈ disk.node? place, ∃ bytes, node = .file bytes

theorem takes_of_file {disk : Disk} {place : Place} {old : ByteArray}
    (h : disk.node? place = some (.file old)) : disk.Takes place := by
  intro node hnode
  exact ⟨old, Option.some.inj (hnode.symm.trans h)⟩

/-- A write puts a file at the destination of its path, where no directory or link is. -/
theorem write_eq_ok {disk disk' : Disk} {cwd : Place} {path : String} {bytes : ByteArray} :
    disk.write cwd path bytes = .ok disk' ↔ ∃ place, disk.destination cwd path = .ok place ∧
      disk.Takes place ∧ disk' = disk.put place (.file bytes) := by
  rw [write]
  cases disk.destination cwd path with
  | error e => simp [bind, Except.bind]
  | ok place =>
    simp only [bind, Except.bind, Except.ok.injEq, exists_eq_left', Takes]
    cases disk.node? place with
    | none => simp [pure, Except.pure, eq_comm]
    | some node =>
      cases node with
      | file => simp [pure, Except.pure, eq_comm]
      | dir => simp [throw, throwThe, MonadExceptOf.throw]
      | link => simp [throw, throwThe, MonadExceptOf.throw]

section Paths

variable {disk : Disk} {cwd place : Place} {path : String}

theorem resolve_eq_ok : disk.resolve cwd path = .ok place ↔ path.isEmpty = false ∧
    disk.walkFrom (disk.stepBound path) maxLinks cwd (PathName.parts path) = .ok place ∧
    ∀ bytes, disk.node? place = some (.file bytes) → asksForDir path = false := by
  rw [resolve]
  simp only [bind, Except.bind, pure, Except.pure, throw, throwThe, MonadExceptOf.throw]
  cases path.isEmpty with
  | true => simp
  | false =>
    cases disk.walkFrom (disk.stepBound path) maxLinks cwd (PathName.parts path) with
    | error e => simp
    | ok found =>
      by_cases hfound : found = place
      · subst hfound
        cases hnode : disk.node? found with
        | none => simp [hnode]
        | some node => cases node <;> simp [hnode]
      · cases hnode : disk.node? found with
        | none => simp [hnode, hfound]
        | some node => cases node <;> cases asksForDir path <;> simp [hnode, hfound]

theorem resolve_eq_notFound : disk.resolve cwd path = .error .notFound ↔ path.isEmpty = true ∨
    disk.walkFrom (disk.stepBound path) maxLinks cwd (PathName.parts path) = .error .notFound := by
  rw [resolve]
  simp only [bind, Except.bind, pure, Except.pure, throw, throwThe, MonadExceptOf.throw]
  cases path.isEmpty with
  | true => simp
  | false =>
    cases disk.walkFrom (disk.stepBound path) maxLinks cwd (PathName.parts path) with
    | error e => simp
    | ok found =>
      cases hnode : disk.node? found with
      | none => simp [hnode]
      | some node => cases node <;> cases asksForDir path <;> simp [hnode]

/-- A path that can be read leads to a file. -/
theorem read_eq_ok {bytes : ByteArray} : disk.read cwd path = .ok bytes ↔
    ∃ place, disk.resolve cwd path = .ok place ∧ disk.node? place = some (.file bytes) := by
  rw [read]
  cases disk.resolve cwd path with
  | error e => simp [bind, Except.bind]
  | ok place =>
    simp only [bind, Except.bind, Except.ok.injEq, exists_eq_left']
    cases disk.node? place with
    | none => simp [throw, throwThe, MonadExceptOf.throw]
    | some node =>
      cases node with
      | file => simp [pure, Except.pure]
      | dir => simp [throw, throwThe, MonadExceptOf.throw]
      | link => simp [throw, throwThe, MonadExceptOf.throw]

theorem destination_of_resolve (h : disk.resolve cwd path = .ok place) :
    disk.destination cwd path = .ok place := by
  rw [destination, h]

theorem destination_of_read {bytes : ByteArray} (h : disk.read cwd path = .ok bytes) :
    disk.destination cwd path = disk.resolve cwd path := by
  obtain ⟨place, hresolve, -⟩ := read_eq_ok.1 h
  rw [destination_of_resolve hresolve, hresolve]

/-- A new file stands in the directory of its path, or where the link in its place leads. -/
theorem newPlace_succ_eq_ok {links : ℕ} : disk.newPlace cwd (links + 1) path = .ok place ↔
    ∃ name before dir, (PathName.parts path).reverse = .named name :: before ∧
      disk.walkFrom (disk.stepBound path) maxLinks cwd before.reverse = .ok dir ∧
      disk.node? dir = some .dir ∧
      ((∃ target, disk.node? (dir ++ [name]) = some (.link target) ∧
          disk.newPlace dir links target = .ok place) ∨
        (∀ target, disk.node? (dir ++ [name]) ≠ some (.link target)) ∧
          asksForDir path = false ∧ place = dir ++ [name]) := by
  rw [newPlace]
  constructor
  · intro h
    split at h
    · rename_i name before hparts
      cases hwalk : disk.walkFrom (disk.stepBound path) maxLinks cwd before.reverse with
      | error e =>
        rw [hwalk] at h
        cases h
      | ok dir =>
        rw [hwalk] at h
        dsimp only [bind, Except.bind] at h
        split at h
        · rename_i hdir
          refine ⟨name, before, dir, hparts, hwalk, hdir, ?_⟩
          split at h
          · rename_i target hlink
            exact .inl ⟨target, hlink, h⟩
          · rename_i hplain
            split at h
            · cases h
            · rename_i hfile
              exact .inr ⟨hplain, by simpa using hfile, (Except.ok.inj h).symm⟩
        · cases h
    · cases h
  · rintro ⟨name, before, dir, hparts, hwalk, hdir, ⟨target, hlink, htarget⟩ | ⟨hplain, hfile, rfl⟩⟩
    · rw [hparts]
      dsimp only
      rw [hwalk]
      simp only [bind, Except.bind, hdir, hlink, htarget]
    · rw [hparts]
      dsimp only
      rw [hwalk]
      simp [bind, Except.bind, pure, Except.pure, hdir, hfile]

end Paths

section Put

variable {disk : Disk} {place : Place} (h : disk.Takes place) (bytes : ByteArray)

include h

theorem Takes.ne_nil : place ≠ [] := by
  rintro rfl
  obtain ⟨bytes, hroot⟩ := h .dir rfl
  cases hroot

theorem node?_put (p : Place) : (disk.put place (.file bytes)).node? p =
    if p = place then some (.file bytes) else disk.node? p := by
  have hplace := h.ne_nil
  rw [node?, node?, put, lookup_putEntry]
  cases p with
  | nil => simp [Ne.symm hplace]
  | cons => rfl

theorem stepBound_put (path : String) :
    (disk.put place (.file bytes)).stepBound path = disk.stepBound path := by
  have hplace := h.ne_nil
  have hlength : ∀ node ∈ disk.entries.lookup place, node.linkLength = 0 := by
    intro node hnode
    obtain ⟨old, rfl⟩ := h node (by rwa [node?, if_neg (by simpa using hplace)])
    rfl
  rw [stepBound, stepBound]
  dsimp only [put]
  rw [longest_putEntry bytes hlength]

/-- A new file changes where a path leads only if the path led nowhere. -/
theorem walkFrom_put (steps links : ℕ) (here : Place) (parts : List PathPart) :
    let walk := (disk.put place (.file bytes)).walkFrom steps links here parts
    walk = disk.walkFrom steps links here parts ∨
      disk.node? place = none ∧ disk.walkFrom steps links here parts = .error .notFound ∧
        (walk = .ok place ∨ walk = .error .notDirectory) := by
  induction steps generalizing links here parts with
  | zero => exact .inl rfl
  | succ steps ih =>
    cases parts with
    | nil => exact .inl rfl
    | cons part more =>
      cases part with
      | root => exact ih links [] more
      | current => exact ih links here more
      | parent => exact ih links here.dropLast more
      | named name =>
        have hnode := node?_put h bytes (here ++ [name])
        by_cases hfile : here ++ [name] = place
        · rw [if_pos hfile] at hnode
          simp only [walkFrom, hnode]
          cases hold : disk.node? place with
          | none =>
            -- The walk comes to the new file and ends there, or it would have to go on inside.
            rw [hfile, hold]
            refine .inr ⟨rfl, rfl, ?_⟩
            cases more
            · exact .inl rfl
            · exact .inr rfl
          | some node =>
            obtain ⟨old, rfl⟩ := h node hold
            rw [hfile, hold]
            exact .inl rfl
        · rw [if_neg hfile] at hnode
          simp only [walkFrom, hnode]
          cases disk.node? (here ++ [name]) with
          | none => exact .inl rfl
          | some node =>
            cases node with
            | file => exact .inl rfl
            | dir => exact ih links (here ++ [name]) more
            | link target =>
              cases links with
              | zero => exact .inl rfl
              | succ links => exact ih links here (PathName.parts target ++ more)

theorem walkFrom_of_put {steps links : ℕ} {here q : Place} {parts : List PathPart}
    (hwalk : (disk.put place (.file bytes)).walkFrom steps links here parts = .ok q) :
    q = place ∨ disk.walkFrom steps links here parts = .ok q := by
  rcases walkFrom_put h bytes steps links here parts with hsame | ⟨-, -, hplace | herror⟩
  · exact .inr (hsame.symm.trans hwalk)
  · exact .inl (Except.ok.inj (hwalk.symm.trans hplace))
  · cases herror.symm.trans hwalk

theorem resolve_put {cwd q : Place} {path : String}
    (hpath : (disk.put place (.file bytes)).resolve cwd path = .ok q) :
    q = place ∨ disk.resolve cwd path = .ok q := by
  rw [resolve_eq_ok, stepBound_put h] at hpath
  obtain ⟨hempty, hwalk, hplain⟩ := hpath
  rw [or_iff_not_imp_left]
  intro hne
  rw [node?_put h, if_neg hne] at hplain
  exact resolve_eq_ok.2 ⟨hempty, (walkFrom_of_put h bytes hwalk).resolve_left hne, hplain⟩

/-- A path that leads to a file leads there still when another file is stored. -/
theorem resolve_put_of_file {cwd q : Place} {path : String} {old : ByteArray}
    (hpath : disk.resolve cwd path = .ok q) (hfile : disk.node? q = some (.file old)) :
    (disk.put place (.file bytes)).resolve cwd path = .ok q := by
  obtain ⟨hempty, hwalk, hplain⟩ := resolve_eq_ok.1 hpath
  rw [resolve_eq_ok, stepBound_put h]
  refine ⟨hempty, ?_, fun _ _ ↦ hplain old hfile⟩
  rcases walkFrom_put h bytes _ _ cwd (PathName.parts path) with hsame | ⟨-, hnone, -⟩
  · exact hsame.trans hwalk
  · cases hnone.symm.trans hwalk

theorem newPlace_put {cwd q : Place} {links : ℕ} {path : String}
    (hpath : (disk.put place (.file bytes)).newPlace cwd links path = .ok q) :
    q = place ∨ disk.newPlace cwd links path = .ok q := by
  induction links generalizing cwd path with
  | zero => exact .inr hpath
  | succ links ih =>
    rw [newPlace_succ_eq_ok, stepBound_put h] at hpath
    obtain ⟨name, before, dir, hparts, hwalk, hdir, hlast⟩ := hpath
    rw [node?_put h] at hdir hlast
    have hne : dir ≠ place := by
      intro heq
      rw [if_pos heq] at hdir
      cases hdir
    rw [if_neg hne] at hdir
    have hwalk' := (walkFrom_of_put h bytes hwalk).resolve_left hne
    by_cases hname : dir ++ [name] = place
    · rw [if_pos hname] at hlast
      rcases hlast with ⟨target, hlink, -⟩ | ⟨-, -, rfl⟩
      · cases hlink
      · exact .inl hname
    · rw [if_neg hname] at hlast
      rw [or_iff_not_imp_left]
      intro hq
      refine newPlace_succ_eq_ok.2 ⟨name, before, dir, hparts, hwalk', hdir, ?_⟩
      rcases hlast with ⟨target, hlink, htarget⟩ | hplain
      · exact .inl ⟨target, hlink, (ih htarget).resolve_left hq⟩
      · exact .inr hplain

/-- Another file is stored where it was to be stored before, or else at the same place. -/
theorem destination_put {cwd q : Place} {path : String}
    (hpath : (disk.put place (.file bytes)).destination cwd path = .ok q) :
    q = place ∨ disk.destination cwd path = .ok q := by
  rw [destination] at hpath
  split at hpath
  · rename_i hresolve
    split at hpath
    · cases hpath
    · rename_i hempty
      have hnone : disk.resolve cwd path = .error .notFound := by
        rw [resolve_eq_notFound, stepBound_put h] at hresolve
        refine resolve_eq_notFound.2 (.inr ?_)
        have hwalk := hresolve.resolve_left hempty
        rcases walkFrom_put h bytes _ _ cwd (PathName.parts path) with hsame | ⟨-, hnone, -⟩
        · exact hsame.symm.trans hwalk
        · exact hnone
      rw [destination, hnone]
      dsimp only
      rw [if_neg hempty]
      exact newPlace_put h bytes hpath
  · exact (resolve_put h bytes hpath).imp_right destination_of_resolve

end Put

section Overwrite

variable {disk : Disk} {place : Place} {old : ByteArray} (h : disk.node? place = some (.file old))
  (new : ByteArray)

include h

/-- A path leads to the same place when the content of a file changes. -/
theorem walkFrom_overwrite (steps links : ℕ) (here : Place) (parts : List PathPart) :
    (disk.put place (.file new)).walkFrom steps links here parts =
      disk.walkFrom steps links here parts := by
  rcases walkFrom_put (takes_of_file h) new steps links here parts with hsame | ⟨hnone, -⟩
  · exact hsame
  · cases hnone.symm.trans h

theorem resolve_overwrite (cwd : Place) (path : String) :
    (disk.put place (.file new)).resolve cwd path = disk.resolve cwd path := by
  have htakes := takes_of_file h
  rw [resolve, resolve, stepBound_put htakes, walkFrom_overwrite h]
  cases hwalk : disk.walkFrom (disk.stepBound path) maxLinks cwd (PathName.parts path) with
  | error e => rfl
  | ok found =>
    dsimp only [bind, Except.bind]
    rw [node?_put htakes]
    by_cases hfile : found = place
    · rw [if_pos hfile, hfile, h]
    · rw [if_neg hfile]

theorem read_overwrite (cwd : Place) (path : String) :
    (disk.put place (.file new)).read cwd path =
      if disk.resolve cwd path = .ok place then .ok new else disk.read cwd path := by
  rw [read, read, resolve_overwrite h]
  cases hresolve : disk.resolve cwd path with
  | error e => rfl
  | ok found =>
    dsimp only [bind, Except.bind]
    rw [node?_put (takes_of_file h)]
    by_cases hfile : found = place
    · rw [if_pos hfile, if_pos (by rw [hfile])]
      rfl
    · rw [if_neg hfile, if_neg (by simpa using hfile)]

theorem write_of_file {cwd : Place} {path : String} (hpath : disk.resolve cwd path = .ok place) :
    disk.write cwd path new = .ok (disk.put place (.file new)) :=
  write_eq_ok.2 ⟨place, destination_of_resolve hpath, takes_of_file h, rfl⟩

end Overwrite

def writeAll (cwd : Place) (writes : List (String × String)) (disk : Disk) :
    Except DiskError Disk :=
  writes.foldlM (fun disk w ↦ disk.writeText cwd w.1 w.2) disk

theorem writeAll_cons_eq_ok {cwd : Place} {w : String × String} {writes : List (String × String)}
    {disk disk' : Disk} : disk.writeAll cwd (w :: writes) = .ok disk' ↔
      ∃ disk₁, disk.writeText cwd w.1 w.2 = .ok disk₁ ∧ disk₁.writeAll cwd writes = .ok disk' := by
  rw [writeAll, List.foldlM_cons]
  cases disk.writeText cwd w.1 w.2 with
  | error e => simp [bind, Except.bind]
  | ok disk₁ => simp [bind, Except.bind, writeAll]

section WriteAll

variable {cwd : Place} {writes more : List (String × String)} {disk disk' : Disk}
  (h : disk.writeAll cwd writes = .ok disk')

include h

theorem writeAll_append : disk.writeAll cwd (writes ++ more) = disk'.writeAll cwd more := by
  rw [writeAll, List.foldlM_append, ← writeAll, h]
  rfl

/-- A path that leads to a file leads there still, whatever is stored. -/
theorem resolve_writeAll {path : String} {q : Place} {old : ByteArray}
    (hpath : disk.resolve cwd path = .ok q) (hfile : disk.node? q = some (.file old)) :
    disk'.resolve cwd path = .ok q := by
  induction writes generalizing disk old with
  | nil =>
    cases h
    exact hpath
  | cons w writes ih =>
    obtain ⟨disk₁, hwrite, hrest⟩ := writeAll_cons_eq_ok.1 h
    obtain ⟨place, -, htakes, rfl⟩ := write_eq_ok.1 hwrite
    have hpath₁ := resolve_put_of_file htakes w.2.toUTF8 hpath hfile
    have hnode := node?_put htakes w.2.toUTF8 q
    by_cases hq : q = place
    · rw [if_pos hq] at hnode
      exact ih hrest hpath₁ hnode
    · rw [if_neg hq, hfile] at hnode
      exact ih hrest hpath₁ hnode

/-- A place where no text is to be stored keeps what it holds. -/
theorem node?_writeAll {q : Place} (hq : ∀ w ∈ writes, disk.destination cwd w.1 ≠ .ok q) :
    disk'.node? q = disk.node? q := by
  induction writes generalizing disk with
  | nil =>
    cases h
    rfl
  | cons w writes ih =>
    obtain ⟨disk₁, hwrite, hrest⟩ := writeAll_cons_eq_ok.1 h
    obtain ⟨place, hplace, htakes, rfl⟩ := write_eq_ok.1 hwrite
    rw [List.forall_mem_cons] at hq
    have hne : q ≠ place := by
      rintro rfl
      exact hq.1 hplace
    rw [ih hrest, node?_put htakes, if_neg hne]
    -- No later text is led to `q` by what was stored so far.
    intro v hv hdest
    rcases destination_put htakes _ hdest with heq | hdest'
    · exact hne heq
    · exact hq.2 v hv hdest'

/-- A file keeps its bytes when no text is to be stored in it. -/
theorem read_writeAll {path : String} {bytes : ByteArray} (hread : disk.read cwd path = .ok bytes)
    (hpath : ∀ w ∈ writes, disk.destination cwd w.1 ≠ disk.destination cwd path) :
    disk'.read cwd path = .ok bytes := by
  obtain ⟨q, hresolve, hfile⟩ := read_eq_ok.1 hread
  rw [destination_of_resolve hresolve] at hpath
  refine read_eq_ok.2 ⟨q, ?_, (node?_writeAll h hpath).trans hfile⟩
  exact resolve_writeAll h hresolve hfile

end WriteAll

end HandlerDocs.Disk
