import CodeAtlas.Proofs.Project.Names

/-!
# What becomes of a registration

A registration looks at the directory first and at the name only then.  This file says what it comes
to in each case, and what that means for a registry after any number of registrations and removals,
in file systems that may change from one to the next.
-/

namespace CodeAtlas

namespace Projects

variable {ps projects : Projects} {p : Project} {files : FileSystem} {now path wanted : String}
  {name description : Option String} {root : Place} {e : Error}

/-! ## The cases of a registration -/

/-- A path that leads to no directory is refused whatever the name. -/
theorem register_of_no_root (h : Project.rootAt files path = .error e) :
    ps.register files now path name description = .error e := by
  simp [register, h, bind, Except.bind]

theorem register_of_requested (hroot : Project.rootAt files path = .ok root)
    (hname : requestedName? name = some wanted) :
    ps.register files now path name description =
      if ps.contains wanted then .error (.duplicateName wanted)
      else .ok (⟨wanted, root, description, now⟩, ps.insert ⟨wanted, root, description, now⟩) := by
  cases htaken : ps.contains wanted <;>
    simp only [register, hroot, hname, htaken, bind, Except.bind] <;> rfl

theorem register_of_not_requested (hroot : Project.rootAt files path = .ok root)
    (hname : requestedName? name = none) :
    ps.register files now path name description =
      .ok (⟨ps.freeName (Project.nameOf root), root, description, now⟩,
        ps.insert ⟨ps.freeName (Project.nameOf root), root, description, now⟩) := by
  simp only [register, hroot, hname, bind, Except.bind]
  rfl

/-- A project that is registered is inserted under a name that was free. -/
theorem eq_insert_of_register (h : ps.register files now path name description = .ok (p, projects)) :
    projects = ps.insert p ∧ ps.contains p.name = false := by
  cases hroot : Project.rootAt files path with
  | error e =>
    rw [register_of_no_root hroot] at h
    cases h
  | ok root =>
    cases hname : requestedName? name with
    | none =>
      obtain ⟨k, hk⟩ := ps.exists_firstFree (Project.nameOf root)
      rw [register_of_not_requested hroot hname, hk.freeName_eq] at h
      cases h
      exact ⟨rfl, hk.free⟩
    | some wanted =>
      rw [register_of_requested hroot hname] at h
      cases htaken : ps.contains wanted with
      | true =>
        rw [htaken] at h
        cases h
      | false =>
        rw [htaken] at h
        cases h
        exact ⟨rfl, htaken⟩

/-! ## Registrations and removals -/

/-- What may be asked of a registry. -/
inductive Change where
  | register (files : FileSystem) (now path : String) (name description : Option String)
  | remove (name : String)

/-- The registry after a change; a registration that fails leaves it as it is. -/
def Change.apply (ps : Projects) : Change → Projects
  | register files now path name description =>
    match ps.register files now path name description with
    | .ok (_, projects) => projects
    | .error _ => ps
  | remove name => (ps.remove name).2

theorem Change.apply_of_error (h : ps.register files now path name description = .error e) :
    (Change.register files now path name description).apply ps = ps := by
  simp only [apply, h]

theorem Change.apply_of_ok (h : ps.register files now path name description = .ok (p, projects)) :
    (Change.register files now path name description).apply ps = projects := by
  simp only [apply, h]

/-- The registry after some changes, from the empty one on. -/
def after (changes : List Change) : Projects :=
  changes.foldl Change.apply .empty

theorem Ordered.apply (h : ps.Ordered) (change : Change) : (change.apply ps).Ordered := by
  cases change with
  | remove name => exact h.remove name
  | register files now path name description =>
    cases hregister : ps.register files now path name description with
    | error e => rwa [Change.apply_of_error hregister]
    | ok registered =>
      obtain ⟨p, projects⟩ := registered
      obtain ⟨rfl, -⟩ := eq_insert_of_register hregister
      rw [Change.apply_of_ok hregister]
      exact h.insert p

theorem ordered_after (changes : List Change) : (after changes).Ordered := by
  have hfold (ps : Projects) (h : ps.Ordered) : (changes.foldl Change.apply ps).Ordered := by
    induction changes generalizing ps with
    | nil => exact h
    | cons change rest ih => exact ih _ (h.apply change)
  exact hfold .empty .empty

/-! ## What holds after any of them -/

/-- **Names never collide, and a registration always ends.**  After any registrations and removals:

* the projects are in the order of their names, and each is stored under its own;
* a registration that fails changes nothing; one that succeeds adds just its project, under a name
  that was free, and whatever is stored under other names stays as it was;
* a path that leads to no directory is refused whatever the name; with a directory, a name that is
  asked for is refused as a duplicate exactly if it is taken, and is the name of the project else;
* without a name any directory is registered: the search for a name ends, at the first that is free
  of the base and its numbered forms. -/
theorem names_never_collide (changes : List Change) :
    let ps := after changes
    ps.items.Pairwise (fun p q => p.name < q.name) ∧
    (∀ name p, ps.get? name = some p ↔ p ∈ ps.items ∧ p.name = name) ∧
    ∀ files now path name description,
      let change := Change.register files now path name description
      let outcome := ps.register files now path name description
      (∀ e, outcome = .error e → change.apply ps = ps) ∧
      (∀ p projects, outcome = .ok (p, projects) →
        change.apply ps = projects ∧ ps.contains p.name = false ∧
        projects.items.Perm (p :: ps.items) ∧ projects.get? p.name = some p ∧
        ∀ other, other ≠ p.name → projects.get? other = ps.get? other) ∧
      (∀ e, Project.rootAt files path = .error e → outcome = .error e) ∧
      ∀ root, Project.rootAt files path = .ok root →
        (∀ wanted, requestedName? name = some wanted →
          (outcome = .error (.duplicateName wanted) ↔ ps.contains wanted = true) ∧
          (ps.contains wanted = false →
            ∃ p projects, outcome = .ok (p, projects) ∧ p.name = wanted)) ∧
        (requestedName? name = none → ∃ p projects k, outcome = .ok (p, projects) ∧
          Searches ps (Project.nameOf root) (Project.nameOf root) 2 p.name ∧
          p.name = candidate (Project.nameOf root) k ∧ FirstFree ps (Project.nameOf root) k) := by
  intro ps
  have h : ps.Ordered := ordered_after changes
  refine ⟨h, fun name p => h.get?_eq_some_iff, fun files now path name description => ?_⟩
  intro change outcome
  refine ⟨fun e he => Change.apply_of_error he, ?added, fun e he => register_of_no_root he,
    fun root hroot => ⟨?named, ?unnamed⟩⟩
  case added =>
    intro p projects hp
    obtain ⟨rfl, hfree⟩ := eq_insert_of_register hp
    refine ⟨Change.apply_of_ok hp, hfree, perm_insert hfree, ?_, fun other hother => ?_⟩
    · rw [get?_insert, if_pos rfl]
    · rw [get?_insert, if_neg hother.symm]
  case named =>
    intro wanted hwanted
    have houtcome : outcome = _ := register_of_requested hroot hwanted
    rw [houtcome]
    cases htaken : ps.contains wanted with
    | true => exact ⟨⟨fun _ => rfl, fun _ => rfl⟩, nofun⟩
    | false => exact ⟨⟨nofun, nofun⟩, fun _ => ⟨_, _, rfl, rfl⟩⟩
  case unnamed =>
    intro hname
    obtain ⟨k, hk⟩ := ps.exists_firstFree (Project.nameOf root)
    refine ⟨_, _, k, register_of_not_requested hroot hname, ?_⟩
    rw [hk.freeName_eq]
    exact ⟨hk.searches, rfl, hk⟩

/-- A taken name is not looked at where there is no directory. -/
theorem missing_before_taken :
    let ps := after [.register ⟨[], []⟩ "now" "/" (some "demo") none]
    requestedName? (some "demo") = some "demo" ∧ ps.contains "demo" = true ∧
      ps.register ⟨[], []⟩ "now" "/missing" (some "demo") none =
        .error (.invalidPath "/missing" "path does not exist") := by
  intro ps
  have hname : requestedName? (some "demo") = some "demo" := rfl
  have htop : Path.ofString "/" = { absolute := true, steps := [], directory := true } := rfl
  have hmissing : Path.ofString "/missing" = { absolute := true, steps := [.name "missing"] } := rfl
  have hroot : Project.rootAt ⟨[], []⟩ "/" = .ok [] := by
    simp [Project.rootAt, FileSystem.locate, htop, FileSystem.follow]
    rfl
  have hnone : Project.rootAt ⟨[], []⟩ "/missing" =
      .error (.invalidPath "/missing" "path does not exist") := by
    simp [Project.rootAt, FileSystem.locate, hmissing, FileSystem.follow, FileSystem.entry?,
      FileSystem.entryBelow?, bind, Except.bind]
  refine ⟨hname, ?_, register_of_no_root hnone⟩
  have hregister : Projects.empty.register ⟨[], []⟩ "now" "/" (some "demo") none = _ :=
    register_of_requested hroot hname
  rw [show ps = _ from Change.apply_of_ok hregister]
  rfl

end Projects

end CodeAtlas
