import CodeAtlas.Proofs.Cache.Accounting
import CodeAtlas.Proofs.Project.Registration
import CodeAtlas.Proofs.Workspace.Footprints

/-!
# Projects and documents stay together

A workspace keeps its projects in one place and their documents in another, and the cache has a list
of its own of the projects that nothing is stored for.  Registering and removing a project changes
both places, one after the other.

`Cache.Serves` says what the two have to do with each other.  Each change of a project keeps it, and
so does whatever a call may do that changes none; hence it holds after every sequence of calls.  All
that is said of documents that are stored and of documents that are left alone follows from it.
-/

namespace CodeAtlas

/-! ## The cache of some projects -/

namespace Cache

variable {c : Cache} {ps : Projects} {name : String}

/-- The slots of all projects but one, with the ticks at which they were used. -/
def besides (c : Cache) (name : String) : List (Key × Slot) :=
  c.slots.filter fun e => e.1.project ≠ name

/-- A document is kept under a key. -/
def Keeps (c : Cache) (key : Key) (d : Document) : Prop :=
  ∃ slot, c.find? key = some slot ∧ slot.document = d

/-- The cache keeps documents of these projects only, and would keep one of each of them. -/
structure Serves (c : Cache) (ps : Projects) : Prop extends Settled c where
  registered : ∀ e ∈ c.slots, ps.contains e.1.project = true
  welcome : ∀ name, ps.contains name = true → name ∉ c.retired

theorem serves_new (settings : Settings) (ps : Projects) : (new settings).Serves ps where
  toSettled := settled_new settings
  registered _ he := nomatch he
  welcome _ _ hr := nomatch hr

namespace Serves

/-- Asking for a document adds at most a slot of its own project, and no project is retired. -/
theorem get (h : c.Serves ps) (parser : Syntax.Parser Language) (now : Nat) {file : FileRef}
    (hfile : ps.contains file.project = true) (source : List UInt8) (l : Language) :
    (c.get parser now file source l).2.Serves ps := by
  have hsettled := h.toSettled.get parser now file source l
  rcases hget : c.get parser now file source l with ⟨answer, d⟩
  rw [hget] at hsettled
  cases gets hget with
  | off hoff => exact ⟨hsettled, h.registered, h.welcome⟩
  | hit hon ha =>
    refine ⟨hsettled, fun e he => ?_, h.welcome⟩
    obtain ⟨f, hf, rfl⟩ := List.mem_map.mp he
    change ps.contains (useAt _ _ f).1.project = true
    rw [useAt_fst]
    exact h.registered f hf
  | unread hon ha hr => exact ⟨hsettled, h.registered, h.welcome⟩
  | refused hon ha hr hp => exact ⟨hsettled, h.registered, h.welcome⟩
  | @stored doc hon ha hr hp =>
    have hevict := Dropped.evict ((c.missed (.of file.project file.relative)).put now
      (.of file.project file.relative) doc) now (.of file.project file.relative)
    refine ⟨hsettled, fun e he => ?_, fun name hname hr => ?_⟩
    · rcases List.mem_cons.mp (hevict.slots.mem he) with rfl | he
      · exact hfile
      · exact h.registered e (List.mem_of_mem_filter he)
    · exact h.welcome name hname (hevict.retired ▸ hr)

theorem run (h : c.Serves ps) {operations : List Operation}
    (hasks : ∀ o ∈ operations, o.Asks ps) : (c.run operations).Serves ps := by
  induction operations generalizing c with
  | nil => exact h
  | cons o rest ih =>
    refine ih ?_ fun o ho => hasks o (List.mem_cons_of_mem _ ho)
    have ho : o.Asks ps := hasks o List.mem_cons_self
    cases o with
    | get parser now file source l => exact h.get parser now ho source l
    | _ => exact ho.elim

theorem activate (h : c.Serves ps) (p : Project) : (c.activate p.name).Serves (ps.insert p) where
  toSettled := h.toSettled.activate p.name
  registered e he := Projects.contains_insert_iff.mpr (.inr (h.registered e he))
  welcome name hname hr := by
    obtain ⟨hr, hne⟩ := List.mem_filter.mp hr
    rcases Projects.contains_insert_iff.mp hname with heq | hname
    · exact absurd heq.symm (by simpa using hne)
    · exact h.welcome name hname hr

theorem invalidateProject (h : c.Serves ps) (name : String) :
    (c.invalidateProject name).2.Serves ps where
  toSettled := h.toSettled.invalidateProject name
  registered e he := h.registered e ((Dropped.invalidateProject c name).slots.mem he)
  welcome := h.welcome

theorem retire (h : c.Serves ps) (name : String) :
    (c.retire name).2.Serves (ps.remove name).2 where
  toSettled := h.toSettled.retire name
  registered e he := Projects.contains_remove_iff.mpr
    ⟨project_ne_of_mem_invalidateProject he, (h.invalidateProject name).registered e he⟩
  welcome other hother hr := by
    obtain ⟨hne, hother⟩ := Projects.contains_remove_iff.mp hother
    rcases List.mem_cons.mp hr with rfl | hr
    · exact hne rfl
    · exact h.welcome other hother (List.mem_of_mem_filter hr)

theorem clear (h : c.Serves ps) : c.clear.2.Serves ps where
  toSettled := h.toSettled.clear
  registered _ he := nomatch he
  welcome := h.welcome

/-- Where no project of this name is registered there is nothing to remove. -/
theorem remove_absent (h : c.Serves ps) (hname : ps.contains name = false) :
    c.Serves (ps.remove name).2 where
  toSettled := h.toSettled
  registered e he := by
    refine Projects.contains_remove_iff.mpr ⟨?_, h.registered e he⟩
    rintro rfl
    rw [h.registered e he] at hname
    cases hname
  welcome other hother := h.welcome other (Projects.contains_remove_iff.mp hother).2

/-- Where documents are kept at all, the one that was asked for is. -/
theorem keeps_get (h : c.Serves ps) (hon : c.settings.enabled = true)
    {parser : Syntax.Parser Language} {now : Nat} {file : FileRef}
    (hfile : ps.contains file.project = true) {source : List UInt8} {l : Language} {d : Document}
    (hd : (c.get parser now file source l).1 = .ok d) :
    (c.get parser now file source l).2.Keeps (.of file.project file.relative) d := by
  have hsettled := h.toSettled.get parser now file source l
  rcases hget : c.get parser now file source l with ⟨answer, left⟩
  rw [hget] at hsettled hd
  have hkeeps {slot : Slot} (hmem : (Key.of file.project file.relative, slot) ∈ left.slots) :
      left.Keeps (.of file.project file.relative) slot.document :=
    ⟨slot, (lookup_eq_some_iff_mem hsettled.keys_nodup).mpr hmem, rfl⟩
  dsimp only at hd hkeeps ⊢
  cases gets hget with
  | off hoff => rw [hon] at hoff; cases hoff
  | @hit slot _ ha =>
    cases hd
    have hslot := mem_of_lookup_eq_some (Option.filter_eq_some_iff.mp ha).1
    have hused := List.mem_map_of_mem (f := useAt (.of file.project file.relative) (c.tick + 1)) hslot
    rw [useAt, if_pos rfl] at hused
    have hkept := hkeeps hused
    exact hkept
  | unread _ ha hr => cases hd
  | refused _ ha hr hp => exact absurd hp (h.welcome _ hfile)
  | stored _ ha hr hp =>
    cases hd
    exact hkeeps (mem_evict List.mem_cons_self rfl)

end Serves

/-! ## What other projects keep -/

theorem besides_invalidateProject (c : Cache) (name : String) :
    (c.invalidateProject name).2.besides name = c.besides name := by
  change (c.slots.filter fun e => !decide (e.1.project = name)).filter
    (fun e => decide (e.1.project ≠ name)) = _
  rw [List.filter_filter, besides]
  congr 1
  funext e
  simp

end Cache

/-! ## Calls -/

namespace Workspace

/-- What a call leaves behind. -/
def after {α : Type} (x : Work α) (around : Surroundings) (w : Workspace) : Workspace :=
  (x.run around w).2

/-- The calls of a workspace. -/
inductive Call where
  /-- A look at no more than the workspace, as for the list of its projects or for a template. -/
  | look
  | register (path : String) (name description : Option String)
  | project (name : String)
  | remove (name : String)
  | available (name : String) (again : Bool)
  | nodeTypes (name : String)
  | listFiles (name : String) (options : Listing.Options)
  | readFile (name path : String) (startLine maxLines : Option Nat)
  | fileMetadata (name path : String)
  | document (name path : String) (asked : Option String)
  | outline (name path : String) (r : OutlineRequest)
  | nodesAt (name path : String) (position : Syntax.Point) (asked : Option String)
  | findText (name : String) (options : Search.Options) (pattern : Option String)
    (asked : Option Nat)
  | runQuery (name source : String) (asked path : Option String) (count : Option Nat)
  | templates (name : String)
  | buildQuery (name : String) (chosen : List String)
  | adaptQuery (source first second : String)
  | symbols (name path : String)
  | findUsage (name symbol : String) (scope asked : Option String) (count : Option Nat)
  | overview (name : String)
  | complexity (name path : String)
  | dependencies (name path : String)
  | findSimilar (name snippet asked : String) (threshold : Number.Decimal) (count : Option Nat)
  | clearCache (name : Option String)

/-- The workspace after a call. -/
def Call.apply (around : Surroundings) (w : Workspace) : Call → Workspace
  | look => w
  | register path name description => after (Workspace.register path name description) around w
  | project name => after (Workspace.project name) around w
  | remove name => after (Workspace.remove name) around w
  | available name again => after (Workspace.available name again) around w
  | nodeTypes name => after (language name) around w
  | listFiles name options => after (Workspace.listFiles name options) around w
  | readFile name path startLine maxLines =>
    after (Workspace.readFile name path startLine maxLines) around w
  | fileMetadata name path => after (Workspace.fileMetadata name path) around w
  | document name path asked => after (Workspace.document name path asked) around w
  | outline name path r => after (Workspace.outline name path r) around w
  | nodesAt name path position asked =>
    after (Workspace.nodesAt name path position asked) around w
  | findText name options pattern asked =>
    after (Workspace.findText name options pattern asked) around w
  | runQuery name source asked path count =>
    after (Workspace.runQuery name source asked path count) around w
  | templates name => after (Workspace.templates name) around w
  | buildQuery name chosen => after (Workspace.buildQuery name chosen) around w
  | adaptQuery source first second => after (Workspace.adaptQuery source first second) around w
  | symbols name path => after (Workspace.symbols name path) around w
  | findUsage name symbol scope asked count =>
    after (Workspace.findUsage name symbol scope asked count) around w
  | overview name => after (Workspace.overview name) around w
  | complexity name path => after (Workspace.complexity name path) around w
  | dependencies name path => after (Workspace.dependencies name path) around w
  | findSimilar name snippet asked threshold count =>
    after (Workspace.findSimilar name snippet asked threshold count) around w
  | clearCache name => after (Workspace.clearCache name) around w

/-- The workspace after some calls, each in surroundings of its own. -/
def session (w : Workspace) (calls : List (Call × Surroundings)) : Workspace :=
  calls.foldl (fun w call => call.1.apply call.2 w) w

/-! ## What every call keeps -/

variable {w v : Workspace}

/-- A call that registers or removes a project or clears the cache does so.  Every other call only
reads. -/
theorem apply_cases (around : Surroundings) (w : Workspace) (call : Call) :
    (∃ path name description, call = .register path name description) ∨
      (∃ name, call = .remove name) ∨ (∃ name, call = .clearCache name) ∨
      w.Reads (call.apply around w) := by
  have hdoes {α : Type} {x : Work α} {e : Effect} {Q : α → Prop} {P P' P'' : Prop}
      (hx : Work.Does w.projects e x Q) : P ∨ P' ∨ P'' ∨ w.Reads (after x around w) :=
    .inr (.inr (.inr (hx around w rfl).reads))
  cases call with
  | register path name description => exact .inl ⟨path, name, description, rfl⟩
  | remove name => exact .inr (.inl ⟨name, rfl⟩)
  | clearCache name => exact .inr (.inr (.inl ⟨name, rfl⟩))
  | look => exact .inr (.inr (.inr (.refl w)))
  | project name => exact hdoes (does_project name)
  | available name again => exact hdoes (does_available name again)
  | nodeTypes name => exact hdoes (does_language name)
  | listFiles name options => exact hdoes (does_listFiles name options)
  | readFile name path startLine maxLines =>
    exact hdoes (does_readFile name path startLine maxLines)
  | fileMetadata name path => exact hdoes (does_fileMetadata name path)
  | document name path asked => exact hdoes (does_document name path asked)
  | outline name path r => exact hdoes (does_outline name path r)
  | nodesAt name path position asked => exact hdoes (does_nodesAt name path position asked)
  | findText name options pattern asked => exact hdoes (does_findText name options pattern asked)
  | runQuery name source asked path count =>
    exact hdoes (does_runQuery name source asked path count)
  | templates name => exact hdoes (does_templates name)
  | buildQuery name chosen => exact hdoes (does_buildQuery name chosen)
  | adaptQuery source first second => exact hdoes (does_adaptQuery source first second)
  | symbols name path => exact hdoes (does_symbols name path)
  | findUsage name symbol scope asked count =>
    exact hdoes (does_findUsage name symbol scope asked count)
  | overview name => exact hdoes (does_overview name)
  | complexity name path => exact hdoes (does_complexity name path)
  | dependencies name path => exact hdoes (does_dependencies name path)
  | findSimilar name snippet asked threshold count =>
    exact hdoes (does_findSimilar name snippet asked threshold count)

/-- Languages are in order after every call. -/
theorem sound_apply (h : w.languages.Sound) (around : Surroundings) (call : Call) :
    (call.apply around w).languages.Sound := by
  rcases apply_cases around w call with ⟨path, name, description, rfl⟩ | ⟨name, rfl⟩ |
    ⟨name, rfl⟩ | hreads
  · rw [Call.apply, after, run_register]
    split
    · exact h
    · exact h
  · rw [Call.apply, after, run_remove]
    exact h
  · cases name with
    | none => exact h
    | some name =>
      rw [Call.apply, after, run_clearCache_some]
      split
      · exact h
      · exact h
  · exact hreads.languages h

theorem sound_session (h : w.languages.Sound) (calls : List (Call × Surroundings)) :
    (w.session calls).languages.Sound := by
  induction calls generalizing w with
  | nil => exact h
  | cons call rest ih => exact ih (sound_apply h call.2 call.1)

/-- A workspace as it is between two calls. -/
structure Coherent (config : Config) (w : Workspace) : Prop where
  settings : w.cache.settings = .ofConfig config
  serves : w.cache.Serves w.projects

namespace Coherent

variable {config : Config}

theorem new (config : Config) : (Workspace.new config).Coherent config where
  settings := rfl
  serves := Cache.serves_new _ _

theorem reads (h : w.Coherent config) (hreads : w.Reads v) : v.Coherent config := by
  obtain ⟨operations, hcache, hasks⟩ := hreads.cache
  constructor
  · rw [hcache, Cache.run_settings, h.settings]
  · rw [hcache, hreads.projects]
    exact h.serves.run hasks

theorem register (h : w.Coherent config) (path : String) (name description : Option String)
    (around : Surroundings) :
    (after (Workspace.register path name description) around w).Coherent config := by
  rw [after, run_register]
  cases hregister : w.projects.register around.files around.date path name description with
  | error e => exact h
  | ok registered =>
    obtain ⟨p, projects⟩ := registered
    obtain ⟨rfl, -⟩ := Projects.eq_insert_of_register hregister
    exact ⟨h.settings, h.serves.activate p⟩

theorem remove (h : w.Coherent config) (name : String) (around : Surroundings) :
    (after (Workspace.remove name) around w).Coherent config := by
  rw [after, run_remove]
  cases hname : w.projects.contains name with
  | true => exact ⟨h.settings, h.serves.retire name⟩
  | false => exact ⟨h.settings, h.serves.remove_absent hname⟩

theorem clearCache (h : w.Coherent config) (name : Option String) (around : Surroundings) :
    (after (Workspace.clearCache name) around w).Coherent config := by
  cases name with
  | none => exact ⟨h.settings, h.serves.clear⟩
  | some name =>
    rw [after, run_clearCache_some]
    cases w.projects.get name with
    | error e => exact h
    | ok p => exact ⟨h.settings, h.serves.invalidateProject p.name⟩

/-- **Every call** keeps projects and documents together. -/
theorem apply (h : w.Coherent config) (around : Surroundings) (call : Call) :
    (call.apply around w).Coherent config := by
  rcases apply_cases around w call with ⟨path, name, description, rfl⟩ | ⟨name, rfl⟩ |
    ⟨name, rfl⟩ | hreads
  · exact h.register path name description around
  · exact h.remove name around
  · exact h.clearCache name around
  · exact h.reads hreads

theorem session (h : w.Coherent config) (calls : List (Call × Surroundings)) :
    (w.session calls).Coherent config := by
  induction calls generalizing w with
  | nil => exact h
  | cons call rest ih => exact ih (h.apply call.2 call.1)

/-! ## What calls do to documents -/

theorem keeps_documentOf (h : w.Coherent config) (hon : config.cache.enabled = true)
    {file : FileRef} (hfile : w.projects.contains file.project = true) {l : Language}
    {around : Surroundings} {d : Document} (hd : ((documentOf file l).run around w).1 = .ok d) :
    (after (documentOf file l) around w).cache.Keeps (.of file.project file.relative) d := by
  rw [after]
  rw [run_documentOf] at hd ⊢
  cases hsource : w.policy.readBytes around.files file with
  | error e =>
    rw [hsource] at hd
    cases hd
  | ok source =>
    rw [hsource] at hd
    exact h.serves.keeps_get (by rw [h.settings]; exact hon) hfile hd

theorem keeps_document (h : w.Coherent config) (hon : config.cache.enabled = true)
    {name path : String} {asked : Option String} {around : Surroundings} {d : Document}
    (hd : ((document name path asked).run around w).1 = .ok d) :
    ∃ p file, w.projects.get name = .ok p ∧ w.policy.resolve around.files p path = .ok file ∧
      (after (document name path asked) around w).cache.Keeps (.of name file.relative) d := by
  rw [after]
  simp only [document, documentAt, Work.run_bind, run_project, run_resolve] at hd ⊢
  cases hp : w.projects.get name with
  | error e =>
    simp only [hp] at hd
    cases hd
  | ok p =>
    obtain ⟨rfl, hname⟩ := Projects.name_of_get hp
    cases hfile : w.policy.resolve around.files p path with
    | error e =>
      simp only [hp, hfile] at hd
      cases hd
    | ok file =>
      simp only [hp, hfile] at hd ⊢
      have howned : file.project = p.name := (Policy.resolved_of_resolve hfile).owned
      have hran := does_languageFor path asked around w rfl
      generalize (languageFor path asked).run around w = q at hran hd ⊢
      obtain ⟨outcome, v⟩ := q
      cases outcome with
      | error e => cases hd
      | ok l =>
        refine ⟨p, file, rfl, hfile, ?_⟩
        have hregistered : v.projects.contains file.project = true := by
          rw [hran.reads.projects, howned]
          exact hname
        have hkept := (h.reads hran.reads).keeps_documentOf hon hregistered hd
        rw [howned] at hkept
        exact hkept

end Coherent

/-! ## Other projects -/

theorem besides_remove (name : String) (around : Surroundings) (w : Workspace) :
    (after (remove name) around w).cache.besides name = w.cache.besides name := by
  rw [after, run_remove]
  cases w.projects.contains name with
  | true => exact w.cache.besides_invalidateProject name
  | false => rfl

theorem besides_clearCache (name : String) (around : Surroundings) (w : Workspace) :
    (after (clearCache (some name)) around w).cache.besides name = w.cache.besides name := by
  rw [after, run_clearCache_some]
  cases hp : w.projects.get name with
  | error e => rfl
  | ok p =>
    obtain ⟨rfl, -⟩ := Projects.name_of_get hp
    exact w.cache.besides_invalidateProject p.name

theorem slots_register (path : String) (name description : Option String)
    (around : Surroundings) (w : Workspace) :
    (after (register path name description) around w).cache.slots = w.cache.slots := by
  rw [after, run_register]
  cases w.projects.register around.files around.date path name description with
  | error e => rfl
  | ok registered => rfl

/-! ## Sessions -/

/-- **Projects and their documents stay together.**  After every sequence of calls, whatever became
of each of them and whatever the files were:

* the documents that are kept are of registered projects, and no registered project is among those
  that nothing is stored for;
* once a project was there and is removed, none of its documents is kept;
* where documents are kept at all, a document of a registered project's file that was asked for is
  kept, both between two calls and in the middle of one;
* removing a project, clearing its documents and registering a project leave the documents of all
  other projects as they are, with the ticks at which they were used. -/
theorem session_coherent (config : Config) (calls : List (Call × Surroundings)) :
    let w := (new config).session calls
    (∀ e ∈ w.cache.slots, w.projects.contains e.1.project = true) ∧
    (∀ name, w.projects.contains name = true → name ∉ w.cache.retired) ∧
    (∀ name around, ((remove name).run around w).1 = .ok true →
      ∀ e ∈ (after (remove name) around w).cache.slots, e.1.project ≠ name) ∧
    (config.cache.enabled = true → ∀ around,
      (∀ name path asked d, ((document name path asked).run around w).1 = .ok d →
        ∃ p file, w.projects.get name = .ok p ∧ w.policy.resolve around.files p path = .ok file ∧
          (after (document name path asked) around w).cache.Keeps (.of name file.relative) d) ∧
      (∀ v file l d, w.Reads v → w.projects.contains file.project = true →
        ((documentOf file l).run around v).1 = .ok d →
        (after (documentOf file l) around v).cache.Keeps (.of file.project file.relative) d)) ∧
    (∀ name around,
      (after (remove name) around w).cache.besides name = w.cache.besides name ∧
      (after (clearCache (some name)) around w).cache.besides name = w.cache.besides name ∧
      ∀ path given description,
        (after (register path given description) around w).cache.slots = w.cache.slots) := by
  intro w
  have h : w.Coherent config := (Coherent.new config).session calls
  refine ⟨h.serves.registered, h.serves.welcome, ?removed, ?kept, ?apart⟩
  case removed =>
    intro name around hremoved
    rw [run_remove] at hremoved
    have hname : w.projects.contains name = true := Except.ok.inj hremoved
    rw [after, run_remove, hname]
    exact fun e he => Cache.project_ne_of_mem_invalidateProject he
  case kept =>
    intro hon around
    refine ⟨fun name path asked d hd => h.keeps_document hon hd, ?_⟩
    intro v file l d hreads hfile hd
    exact (h.reads hreads).keeps_documentOf hon (hreads.projects ▸ hfile) hd
  case apart =>
    exact fun name around => ⟨besides_remove name around w, besides_clearCache name around w,
      fun path given description => slots_register path given description around w⟩

end Workspace

end CodeAtlas
