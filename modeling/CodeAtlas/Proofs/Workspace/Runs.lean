import CodeAtlas.Proofs.Workspace.Alike

/-!
# What the steps of a call come to

A call is put together from steps whose runs are known.  The equations of this file open one step
each, so that the run of a call is found by rewriting.
-/

namespace CodeAtlas

namespace Work

variable {α β : Type} (around : Surroundings) (w : Workspace)

@[simp]
theorem run_pure (a : α) : (pure a : Work α).run around w = (.ok a, w) := rfl

@[simp]
theorem run_throw (e : Error) : (throw e : Work α).run around w = (.error e, w) := rfl

@[simp]
theorem run_get : (get : Work Workspace).run around w = (.ok w, w) := rfl

@[simp]
theorem run_set (v : Workspace) : (set v : Work Unit).run around w = (.ok (), v) := rfl

@[simp]
theorem run_read : (read : Work Surroundings).run around w = (.ok around, w) := rfl

@[simp]
theorem run_lift (outcome : Except Error α) :
    (liftM outcome : Work α).run around w = (outcome, w) := rfl

theorem run_map (f : α → β) (x : Work α) :
    (f <$> x).run around w = ((x.run around w).1.map f, (x.run around w).2) := by
  rw [map_eq_pure_bind, run_bind]
  rcases x.run around w with ⟨_ | _, _⟩ <;> rfl

variable {around w}

/-- A call that succeeds has succeeded in its first step. -/
theorem ok_of_bind {x : Work α} {f : α → Work β} {outcome : Except Error α} {v : Workspace} {b : β}
    (hx : x.run around w = (outcome, v)) (h : ((x >>= f).run around w).1 = .ok b) :
    ∃ a, outcome = .ok a ∧ ((f a).run around v).1 = .ok b := by
  rw [run_bind, hx] at h
  cases outcome with
  | ok a => exact ⟨a, rfl, h⟩
  | error e => cases h

end Work

namespace Workspace

variable (around : Surroundings) (w : Workspace)

theorem policy_withLanguages (languages : Language.Registry) :
    Workspace.policy { w with languages } = w.policy := rfl

@[simp]
theorem run_project (name : String) :
    (project name).run around w = (w.projects.get name, w) := rfl

@[simp]
theorem run_language (name : String) :
    (language name).run around w =
      ((w.languages.get name).1, { w with languages := (w.languages.get name).2 }) := by
  rcases hget : w.languages.get name with ⟨_ | _, _⟩ <;>
    simp [language, Work.run_bind, hget]

theorem run_languageFor_none (path : String) :
    (languageFor path none).run around w = ((w.languages.forPath path).1, {
      w with languages := (w.languages.forPath path).2 }) := by
  rcases hfor : w.languages.forPath path with ⟨_ | _, _⟩ <;>
    simp [languageFor, Work.run_bind, hfor]

@[simp]
theorem run_resolve (p : Project) (path : String) :
    (resolve p path).run around w = (w.policy.resolve around.files p path, w) := rfl

@[simp]
theorem run_list (p : Project) (options : Listing.Options) :
    (list p options).run around w = (w.policy.list around.files p options, w) := rfl

@[simp]
theorem run_listLanguage (p : Project) (l : Language) :
    (listLanguage p l).run around w = (w.policy.listLanguage around.files p l, w) := rfl

/-- The cache is asked only if the file can be read. -/
theorem run_documentOf (file : FileRef) (l : Language) :
    (documentOf file l).run around w =
      match w.policy.readBytes around.files file with
      | .error e => (.error e, w)
      | .ok source =>
        ((w.cache.get around.parser around.now file source l).1,
          { w with cache := (w.cache.get around.parser around.now file source l).2 }) := by
  cases hsource : w.policy.readBytes around.files file with
  | error e => simp [documentOf, Work.run_bind, hsource]
  | ok source =>
    rcases hget : w.cache.get around.parser around.now file source l with ⟨_ | _, _⟩ <;>
      simp [documentOf, Work.run_bind, hsource, hget]

/-! ## Calls that change something -/

theorem run_register (path : String) (name description : Option String) :
    (register path name description).run around w =
      match w.projects.register around.files around.date path name description with
      | .error e => (.error e, w)
      | .ok (p, projects) => (.ok p, { w with projects, cache := w.cache.activate p.name }) := by
  cases hregister : w.projects.register around.files around.date path name description with
  | error e => simp [register, Work.run_bind, hregister]
  | ok registered => simp [register, Work.run_bind, Work.run_map, Except.map, hregister]

theorem run_remove (name : String) :
    (remove name).run around w = (.ok (w.projects.contains name), {
      w with
      projects := (w.projects.remove name).2
      cache := if w.projects.contains name then (w.cache.retire name).2 else w.cache }) := by
  simp [remove, Work.run_bind, Work.run_map, Except.map, Projects.remove]

theorem run_clearCache_none :
    (clearCache none).run around w =
      (.ok w.cache.clear.1, { w with cache := w.cache.clear.2 }) := rfl

theorem run_clearCache_some (name : String) :
    (clearCache (some name)).run around w =
      match w.projects.get name with
      | .error e => (.error e, w)
      | .ok p => (.ok (w.cache.invalidateProject p.name).1,
        { w with cache := (w.cache.invalidateProject p.name).2 }) := by
  cases hproject : w.projects.get name with
  | error e => simp [clearCache, Work.run_bind, hproject]
  | ok p =>
    simp only [clearCache, Work.run_bind, Work.run_get, run_project, hproject]
    rfl

end Workspace

end CodeAtlas
