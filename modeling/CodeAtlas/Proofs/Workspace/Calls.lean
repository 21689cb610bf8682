import CodeAtlas.Proofs.Files.Containment
import CodeAtlas.Proofs.Workspace.Alike
import CodeAtlas.Workspace.Inspection
import CodeAtlas.Workspace.Queries

/-!
# What no call gives away

Every call but two has the same outcome on alike workspaces, up to the time at which a project was
registered.  The heart of it is `Workspace.alike_documentOf`, where the cache is asked; all other
calls are followed through their steps.

The two calls left out are the ones that tell of the cache itself.  Clearing the cache leaves alike
workspaces behind, but tells how many documents there were, and the diagnosis tells the counts.
-/

namespace CodeAtlas

variable {common : Common}

/-! ## Registered projects -/

namespace Project.Redated

variable {p q : Project}

theorem name (h : p.Redated q) : q.name = p.name := by
  obtain ⟨date, rfl⟩ := h
  rfl

theorem root (h : p.Redated q) : q.root = p.root := by
  obtain ⟨date, rfl⟩ := h
  rfl

end Project.Redated

namespace Projects

variable {ps qs : Projects}

theorem get_redated (h : List.Forall₂ Project.Redated ps.items qs.items) (name : String) :
    Outcomes Project.Redated (ps.get name) (qs.get name) := by
  obtain ⟨ps⟩ := ps
  obtain ⟨qs⟩ := qs
  unfold get get?
  dsimp only at h ⊢
  induction h with
  | nil => exact .error _
  | @cons p q ps qs hpq _ ih =>
    rw [List.find?_cons, List.find?_cons, hpq.name]
    cases decide (p.name = name) with
    | true => exact .ok hpq
    | false => exact ih

theorem contains_eq_isOk_get (ps : Projects) (name : String) :
    ps.contains name = (ps.get name).isOk := by
  unfold contains get
  cases ps.get? name <;> rfl

theorem contains_redated (h : List.Forall₂ Project.Redated ps.items qs.items) (name : String) :
    qs.contains name = ps.contains name := by
  rw [contains_eq_isOk_get, contains_eq_isOk_get, (get_redated h name).isOk_eq]

theorem freeName_redated (h : List.Forall₂ Project.Redated ps.items qs.items) (base : String) :
    qs.freeName base = ps.freeName base := by
  have hfirst (fuel n : Nat) : qs.firstFree base fuel n = ps.firstFree base fuel n := by
    induction fuel generalizing n with
    | zero => rfl
    | succ fuel ih => simp only [firstFree, contains_redated h, ih]
  simp only [freeName, contains_redated h, hfirst, h.length_eq]

theorem insertInto_redated {p q : Project} {ps qs : List Project} (hpq : p.Redated q)
    (h : List.Forall₂ Project.Redated ps qs) :
    List.Forall₂ Project.Redated (insertInto p ps) (insertInto q qs) := by
  induction h with
  | nil => exact .cons hpq .nil
  | @cons p' q' ps qs hpq' hrest ih =>
    rw [insertInto, insertInto, hpq.name, hpq'.name]
    split
    · exact .cons hpq (.cons hpq' hrest)
    · split
      · exact .cons hpq hrest
      · exact .cons hpq' ih

theorem remove_redated (h : List.Forall₂ Project.Redated ps.items qs.items) (name : String) :
    (qs.remove name).1 = (ps.remove name).1 ∧
      List.Forall₂ Project.Redated (ps.remove name).2.items (qs.remove name).2.items := by
  refine ⟨contains_redated h name, ?_⟩
  refine List.rel_filter ?_ h
  intro p q hpq
  simp only [hpq.name]

theorem register_redated (h : List.Forall₂ Project.Redated ps.items qs.items)
    (files : FileSystem) (date date' path : String) (name description : Option String) :
    Outcomes (fun a b => a.1.Redated b.1 ∧ List.Forall₂ Project.Redated a.2.items b.2.items)
      (ps.register files date path name description)
      (qs.register files date' path name description) := by
  have hinsert (root : Place) (name : String) :
      List.Forall₂ Project.Redated
        (ps.insert { name, root, description, registeredAt := date }).items
        (qs.insert { name, root, description, registeredAt := date' }).items :=
    insertInto_redated ⟨date', rfl⟩ h
  unfold register
  cases Project.rootAt files path with
  | error e => exact .error e
  | ok root =>
    cases requestedName? name with
    | none =>
      simp only [freeName_redated h]
      exact .ok ⟨⟨date', rfl⟩, hinsert root _⟩
    | some name =>
      simp only [contains_redated h]
      cases ps.contains name with
      | true => exact .error _
      | false => exact .ok ⟨⟨date', rfl⟩, hinsert root name⟩

end Projects

namespace Workspace

/-! ## Projects -/

theorem alike_project (name : String) :
    Work.Alike common Project.Redated (project name) (project name) :=
  .bind .get fun _ _ hw => .lift (Projects.get_redated hw.projects name)

theorem alike_register (path : String) (name description : Option String) :
    Work.Alike common Project.Redated (register path name description)
      (register path name description) := by
  refine .bind .read ?_
  intro a b hab
  refine .bind .get ?_
  intro w v hw
  rw [hab.files]
  refine .bind (.lift (Projects.register_redated hw.projects a.files a.date b.date path name
    description)) ?_
  rintro ⟨p, ps⟩ ⟨q, qs⟩ ⟨hpq, hps⟩
  refine .bind (.set ?_) fun _ _ _ => .pure hpq
  exact (hw.withProjects hps).withCache (hw.cache.activate _) (hw.cache'.activate _)

theorem alike_remove (name : String) : Work.Alike common Eq (remove name) (remove name) := by
  refine .bind .get ?_
  intro w v hw
  obtain ⟨hremoved, hps⟩ := Projects.remove_redated hw.projects name
  refine .bind (.set ?_) fun _ _ _ => .pure hremoved.symm
  refine (hw.withProjects hps).withCache ?_ ?_
  · split
    · exact hw.cache.retire name
    · exact hw.cache
  · split
    · exact hw.cache'.retire name
    · exact hw.cache'

/-! ## Languages -/

theorem alike_language (name : String) : Work.Alike common Eq (language name) (language name) := by
  refine .bind .get ?_
  intro w v hw
  rw [hw.languages]
  exact .bind (.set hw.withLanguages) fun _ _ _ => .lift_same _

theorem alike_languageFor (path : String) (asked : Option String) :
    Work.Alike common Eq (languageFor path asked) (languageFor path asked) := by
  cases asked with
  | some name => exact alike_language name
  | none =>
    refine .bind .get ?_
    intro w v hw
    rw [hw.languages]
    exact .bind (.set hw.withLanguages) fun _ _ _ => .lift_same _

theorem alike_available (name : String) (again : Bool) :
    Work.Alike common Eq (available name again) (available name again) := by
  refine .bind .get ?_
  intro w v hw
  rw [hw.languages]
  cases again with
  | true => exact .bind (.set hw.withLanguages) fun _ _ _ => .pure rfl
  | false => exact .pure rfl

/-! ## Files

A project's files are found by its root, so its registration does not matter. -/

variable {p q : Project}

/-- A look at the files, which either side takes with the same policy. -/
theorem alike_look {α : Type} {R : α → α → Prop} (f : Policy → FileSystem → Except Error α)
    (h : ∀ policy files, Outcomes R (f policy files) (f policy files)) :
    Work.Alike common R (do f (← get).policy (← read).files)
      (do f (← get).policy (← read).files) := by
  refine .bind .get ?_
  intro w v hw
  refine .bind .read ?_
  intro a b hab
  rw [hw.policy, hab.files]
  exact .lift (h w.policy a.files)

theorem alike_list (hpq : p.Redated q) (options : Listing.Options) :
    Work.Alike common Eq (list p options) (list q options) := by
  obtain ⟨date, rfl⟩ := hpq
  exact alike_look (fun policy files => policy.list files p options) fun _ _ => .of_eq _

theorem alike_listLanguage (hpq : p.Redated q) (l : Language) :
    Work.Alike common Eq (listLanguage p l) (listLanguage q l) := by
  obtain ⟨date, rfl⟩ := hpq
  exact alike_look (fun policy files => policy.listLanguage files p l) fun _ _ => .of_eq _

theorem alike_listFiles (name : String) (options : Listing.Options) :
    Work.Alike common Eq (listFiles name options) (listFiles name options) := by
  refine .bind (alike_project name) ?_
  intro p q hpq
  exact alike_list hpq options

theorem alike_readFile (name path : String) (startLine maxLines : Option Nat) :
    Work.Alike common Eq (readFile name path startLine maxLines)
      (readFile name path startLine maxLines) := by
  refine .bind (alike_project name) ?_
  rintro p _ ⟨date, rfl⟩
  exact alike_look (fun policy files => policy.readText files p path startLine maxLines)
    fun _ _ => .of_eq _

theorem alike_fileMetadata (name path : String) :
    Work.Alike common Eq (fileMetadata name path) (fileMetadata name path) := by
  refine .bind (alike_project name) ?_
  rintro p _ ⟨date, rfl⟩
  exact alike_look (fun policy files => policy.metadata files p path) fun _ _ => .of_eq _

/-! ## Documents -/

/-- A file that is handed out was asked for by names. -/
theorem resolve_proper (policy : Policy) (files : FileSystem) (p : Project) (path : String) :
    Outcomes (fun f g => f = g ∧ f.relative.Proper) (policy.resolve files p path)
      (policy.resolve files p path) := by
  cases hresolve : policy.resolve files p path with
  | error e => exact .error e
  | ok file =>
    have accepted := Policy.accepted_of_accept (Policy.resolved_of_resolve hresolve).accepted
    exact .ok ⟨rfl, accepted.names⟩

theorem alike_resolve (hpq : p.Redated q) (path : String) :
    Work.Alike common (fun f g => f = g ∧ f.relative.Proper) (resolve p path)
      (resolve q path) := by
  obtain ⟨date, rfl⟩ := hpq
  exact alike_look (fun policy files => policy.resolve files p path) fun policy files =>
    resolve_proper policy files p path

/-- The octets that are read of a file are among the contents in play. -/
theorem readBytes_known (policy : Policy) {a b : Surroundings} (file : FileRef)
    (hab : Surroundings.Alike common a b) :
    Outcomes (fun source source' => source = source' ∧ source ∈ common.contents)
      (policy.readBytes a.files file) (policy.readBytes a.files file) := by
  unfold Policy.readBytes FileSystem.read
  cases hentry : a.files.entry? file.absolute with
  | none => exact .error _
  | some entry =>
    cases entry with
    | file content modified =>
      dsimp only
      split
      · exact .error _
      · exact .ok ⟨rfl, hab.contents _ _ _ (FileSystem.file?_eq_some_iff.mpr hentry)⟩
    | directory items => exact .error _
    | link target => exact .error _

/-- Either cache gives the document that reading the source anew gives. -/
theorem alike_documentOf {file : FileRef} (hfile : file.relative.Proper) (l : Language) :
    Work.Alike common Eq (documentOf file l) (documentOf file l) := by
  refine .bind .read ?_
  intro a b hab
  refine .bind .get ?_
  intro w v hw
  rw [hw.policy, hab.files, hab.parser, hab.parser']
  refine .bind (.lift (readBytes_known w.policy file hab)) ?_
  rintro source _ ⟨rfl, hsource⟩
  refine .bind .get ?_
  intro w v hw
  obtain ⟨hanswer, hcache⟩ := hw.cache.get common.digest a.now l hfile hsource
  obtain ⟨hanswer', hcache'⟩ := hw.cache'.get common.digest b.now l hfile hsource
  generalize w.cache.get common.parser a.now file source l = left at hanswer hcache ⊢
  generalize v.cache.get common.parser b.now file source l = right at hanswer' hcache' ⊢
  refine .bind (.set (hw.withCache hcache hcache')) fun _ _ _ => .lift ?_
  rw [hanswer, hanswer']
  exact .of_eq _

theorem alike_documentAt (hpq : p.Redated q) (path : String) (asked : Option String) :
    Work.Alike common Eq (documentAt p path asked) (documentAt q path asked) := by
  refine .bind (alike_resolve hpq path) ?_
  rintro file _ ⟨rfl, hfile⟩
  refine .bind (alike_languageFor path asked) ?_
  rintro l _ rfl
  exact alike_documentOf hfile l

theorem alike_document (name path : String) (asked : Option String) :
    Work.Alike common Eq (document name path asked) (document name path asked) :=
  .bind (alike_project name) fun _ _ hpq => alike_documentAt hpq path asked

/-- A file that cannot be read is left out on both sides. -/
theorem alike_inDocuments {α : Type} (hpq : p.Redated q) (l : Language) (find : Document → List α)
    (paths : List String) :
    Work.Alike common Eq (inDocuments p l find paths) (inDocuments q l find paths) := by
  induction paths with
  | nil => exact .pure rfl
  | cons path rest ih =>
    refine .bind (.tryCatch (.bind (alike_resolve hpq path) ?_) fun _ => .pure rfl) ?_
    · rintro file _ ⟨rfl, hfile⟩
      refine .bind (alike_documentOf hfile l) ?_
      rintro d _ rfl
      exact .pure rfl
    · rintro found _ rfl
      refine .bind ih ?_
      rintro more _ rfl
      exact .pure rfl

/-- The workspaces stay alike, but the number of documents is told. -/
theorem alike_clearCache (name : Option String) :
    Work.Alike common (fun _ _ => True) (clearCache name) (clearCache name) := by
  have hset (n m : Nat) (c d : Cache) (hc : c.Faithful common.parser common.contents)
      (hd : d.Faithful common.parser common.contents) :
      Work.Alike common (fun _ _ => True)
        (do modify fun w => { w with cache := c }; return n)
        (do modify fun w => { w with cache := d }; return m) :=
    .bind (.modify fun w v hw => hw.withCache hc hd) fun _ _ _ => .pure trivial
  cases name with
  | none =>
    refine .bind .get ?_
    intro w v hw
    exact hset _ _ _ _ (Cache.faithful_clear _) (Cache.faithful_clear _)
  | some name =>
    refine .bind .get ?_
    intro w v hw
    refine .bind (alike_project name) ?_
    intro p q hpq
    exact hset _ _ _ _ (hw.cache.invalidateProject _) (hw.cache'.invalidateProject _)

/-! ## Reports -/

theorem alike_outline (name path : String) (r : OutlineRequest) :
    Work.Alike common Eq (outline name path r) (outline name path r) := by
  refine .bind (alike_document name path r.language) ?_
  rintro d _ rfl
  refine .bind .get fun w v hw => .pure ?_
  rw [hw.config]
  rfl

theorem alike_nodesAt (name path : String) (position : Syntax.Point) (asked : Option String) :
    Work.Alike common Eq (nodesAt name path position asked) (nodesAt name path position asked) := by
  refine .bind (alike_document name path asked) ?_
  rintro d _ rfl
  cases Syntax.pathAt d.root d.source position true d.tree.smallest with
  | some nodes => exact .pure rfl
  | none => exact .throw _

theorem alike_symbols (name path : String) :
    Work.Alike common Eq (symbols name path) (symbols name path) := by
  refine .bind (alike_document name path none) ?_
  rintro d _ rfl
  exact .lift_same _

theorem alike_complexity (name path : String) :
    Work.Alike common Eq (complexity name path) (complexity name path) := by
  refine .bind (alike_document name path none) ?_
  rintro d _ rfl
  refine .bind (.lift_same (Analysis.Symbols.of d)) ?_
  rintro found _ rfl
  cases Analysis.Complexity.of? d found with
  | some report => exact .pure rfl
  | none => exact .throw _

theorem alike_dependencies (name path : String) :
    Work.Alike common Eq (dependencies name path) (dependencies name path) := by
  refine .bind (alike_document name path none) ?_
  rintro d _ rfl
  exact .lift_same _

theorem alike_overview (name : String) :
    Work.Alike common Eq (overview name) (overview name) := by
  refine .bind (alike_project name) fun p q hpq => .bind (alike_list hpq {}) ?_
  rintro paths _ rfl
  rw [hpq.name, hpq.root]
  exact .pure rfl

theorem alike_snippetProfile (l : Language) (snippet : String) :
    Work.Alike common Eq (snippetProfile l snippet) (snippetProfile l snippet) := by
  refine .bind .read ?_
  intro a b hab
  rw [hab.parser, hab.parser']
  cases common.parser l (Text.Utf8.encode snippet.toList) with
  | some tree => exact .pure rfl
  | none => exact .throw _

theorem alike_similarTo (hpq : p.Redated q) (l : Language) (profile : Analysis.Profile)
    (threshold : Nat × Nat) (limit : Nat) :
    Work.Alike common Eq (similarTo p l profile threshold limit)
      (similarTo q l profile threshold limit) := by
  refine .bind (alike_listLanguage hpq l) ?_
  rintro paths _ rfl
  refine .bind (alike_inDocuments hpq l _ paths) ?_
  rintro found _ rfl
  exact .pure rfl

theorem alike_findSimilar (name snippet asked : String) (threshold : Number.Decimal)
    (count : Option Nat) :
    Work.Alike common Eq (findSimilar name snippet asked threshold count)
      (findSimilar name snippet asked threshold count) := by
  refine .bind (alike_project name) ?_
  intro p q hpq
  have hrest : Work.Alike common Eq
      (do
        let l ← language asked
        let profile ← snippetProfile l snippet
        similarTo p l profile threshold.lowerEnd ((← get).limit count))
      (do
        let l ← language asked
        let profile ← snippetProfile l snippet
        similarTo q l profile threshold.lowerEnd ((← get).limit count)) := by
    refine .bind (alike_language asked) ?_
    rintro l _ rfl
    refine .bind (alike_snippetProfile l snippet) ?_
    rintro profile _ rfl
    refine .bind .get ?_
    intro w v hw
    rw [hw.limit]
    exact alike_similarTo hpq l profile _ _
  dsimp only
  split
  · exact hrest
  · exact .bind (.throw (R := Eq) _) fun _ _ _ => hrest

/-! ## Searches and queries -/

theorem alike_findText (name : String) (options : Search.Options) (pattern : Option String)
    (asked : Option Nat) :
    Work.Alike common Eq (findText name options pattern asked)
      (findText name options pattern asked) := by
  refine .bind (alike_project name) fun p q hpq => .bind (.lift_same (Search.of options)) ?_
  rintro search _ rfl
  refine .bind (alike_list hpq _) ?_
  rintro paths _ rfl
  refine .bind .get fun w v hw => .bind .read fun a b hab => ?_
  obtain ⟨date, rfl⟩ := hpq
  have hsame : search.inFiles? w.policy a.files p paths (w.limit asked) =
      search.inFiles? v.policy b.files { p with registeredAt := date } paths (v.limit asked) := by
    rw [hw.policy, hw.limit, hab.files]
    rfl
  rw [hsame]
  split
  · exact .pure rfl
  · exact .throw _

theorem alike_queryLanguage (asked path : Option String) :
    Work.Alike common Eq (queryLanguage asked path) (queryLanguage asked path) := by
  cases asked with
  | some name => exact alike_language name
  | none =>
    cases path with
    | some path => exact alike_languageFor path none
    | none => exact .throw _

theorem alike_runQuery (name source : String) (asked path : Option String) (count : Option Nat) :
    Work.Alike common Eq (runQuery name source asked path count)
      (runQuery name source asked path count) := by
  refine .bind (alike_project name) ?_
  intro p q hpq
  refine .bind .get ?_
  intro w v hw
  rw [hw.limit]
  refine .bind (alike_queryLanguage asked path) ?_
  rintro l _ rfl
  refine .bind (.lift_same (Query.compile l source)) ?_
  rintro query _ rfl
  cases path with
  | some path =>
    refine .bind (alike_documentAt hpq path (some l.id)) ?_
    rintro d _ rfl
    exact .pure rfl
  | none =>
    refine .bind (alike_listLanguage hpq l) ?_
    rintro paths _ rfl
    refine .bind (alike_inDocuments hpq l _ paths) ?_
    rintro hits _ rfl
    exact .pure rfl

theorem alike_usesIn (hpq : p.Redated q) (symbol : String) (limit : Nat)
    (groups : List (Language × List String)) :
    Work.Alike common Eq (usesIn p symbol limit groups) (usesIn q symbol limit groups) := by
  induction groups with
  | nil => exact .pure rfl
  | cons group rest ih =>
    obtain ⟨l, paths⟩ := group
    refine .bind (alike_language l.id) ?_
    rintro l _ rfl
    refine .bind (.lift_same (Query.Usage.source l symbol)) ?_
    rintro source _ rfl
    refine .bind (.lift_same (Query.compile l source)) ?_
    rintro query _ rfl
    refine .bind (alike_inDocuments hpq l _ paths) ?_
    rintro found _ rfl
    refine .bind ih ?_
    rintro more _ rfl
    exact .pure rfl

theorem alike_findUsage (name symbol : String) (scope asked : Option String)
    (count : Option Nat) :
    Work.Alike common Eq (findUsage name symbol scope asked count)
      (findUsage name symbol scope asked count) := by
  refine .bind (alike_project name) ?_
  intro p q hpq
  refine .bind .get ?_
  intro w v hw
  rw [hw.limit]
  have honly : Work.Alike common Eq (asked.mapM language) (asked.mapM language) := by
    cases asked with
    | none => exact .pure rfl
    | some name => exact .map (alike_language name) fun l _ h => congrArg some h
  refine .bind honly ?_
  rintro only _ rfl
  refine .bind (alike_list hpq _) ?_
  rintro paths _ rfl
  refine .bind (alike_usesIn hpq symbol _ _) ?_
  rintro hits _ rfl
  exact .pure rfl

/-! ## Queries as texts -/

theorem alike_templates (name : String) :
    Work.Alike common Eq (templates name) (templates name) := by
  refine .bind (alike_language name) ?_
  rintro l _ rfl
  exact .pure rfl

theorem alike_buildQuery (name : String) (chosen : List String) :
    Work.Alike common Eq (buildQuery name chosen) (buildQuery name chosen) := by
  refine .bind (alike_language name) ?_
  rintro l _ rfl
  exact .lift_same _

theorem alike_adaptQuery (source first second : String) :
    Work.Alike common Eq (adaptQuery source first second) (adaptQuery source first second) := by
  refine .bind (alike_language first) ?_
  rintro l _ rfl
  refine .bind (alike_language second) ?_
  rintro m _ rfl
  exact .pure rfl

end Workspace

end CodeAtlas
