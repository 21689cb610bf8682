import CodeAtlas.Proofs.Analysis.Tally
import CodeAtlas.Proofs.Files.Containment
import CodeAtlas.Proofs.Query.Templates
import CodeAtlas.Proofs.Query.Usage
import CodeAtlas.Proofs.Workspace.Effects
import CodeAtlas.Workspace.Inspection
import CodeAtlas.Workspace.Queries

/-!
# What each call may do

All calls but the ones that register or remove a project or clear the cache only read.  Nearly all
of them ask the cache when nothing can fail any more: whatever may be wrong with a call is found
before the first document is asked for, and what comes after that has been seen not to fail.

The exception is the call for the nodes at a position, for it takes the document to tell that there
is no such position.
-/

namespace CodeAtlas

/-! ## Steps -/

theorem Projects.name_of_get {projects : Projects} {name : String} {p : Project}
    (h : projects.get name = .ok p) : p.name = name ∧ projects.contains name = true := by
  unfold Projects.get at h
  split at h
  · rename_i found hfound
    cases h
    refine ⟨?_, by simp [Projects.contains, hfound]⟩
    simpa using List.find?_some hfound
  · cases h

theorem Cache.exists_get_of_total {parser : Syntax.Parser Language} (h : parser.Total) (c : Cache)
    (now : Nat) (file : FileRef) (source : List UInt8) (l : Language) :
    ∃ d, (c.get parser now file source l).1 = .ok d := by
  obtain ⟨tree, htree⟩ := Option.isSome_iff_exists.mp (h l source)
  have hread : ∃ d, Cache.read parser file source l = .ok d := by
    rw [Cache.read, htree]
    exact ⟨_, rfl⟩
  rcases hget : c.get parser now file source l with ⟨answer, left⟩
  cases Cache.gets hget with
  | off hoff => exact hread
  | hit hon ha => exact ⟨_, rfl⟩
  | unread hon ha hr =>
    obtain ⟨d, hd⟩ := hread
    rw [hd] at hr
    cases hr
  | refused hon ha hr hp => exact ⟨_, rfl⟩
  | stored hon ha hr hp => exact ⟨_, rfl⟩

namespace Workspace

open Work (Does)

variable {ps : Projects} {p : Project}

/-- What is known of a project that was found. -/
def Registered (ps : Projects) (p : Project) : Prop :=
  ps.contains p.name = true

theorem does_project (name : String) : Does ps .quiet (project name) (Registered ps) := by
  refine .bind .quiet .get rfl ?_
  rintro w rfl
  refine .lift fun p hp => ?_
  obtain ⟨rfl, hname⟩ := Projects.name_of_get hp
  exact hname

theorem does_language (name : String) : Does ps .quiet (language name) fun _ => True :=
  .languages (Language.Registry.get · name) (run_language · · name) fun _ h => h.get name

theorem does_languageFor (path : String) (asked : Option String) :
    Does ps .quiet (languageFor path asked) fun _ => True := by
  cases asked with
  | some name => exact does_language name
  | none =>
    refine .languages (Language.Registry.forPath · path) (fun around w => ?_)
      fun _ h => h.forPath path
    rcases hget : w.languages.forPath path with ⟨_ | _, _⟩ <;>
      simp [languageFor, Work.run_bind, hget]

theorem does_available (name : String) (again : Bool) :
    Does ps .quiet (available name again) fun _ => True := by
  cases again with
  | false => exact .bind .still .get rfl fun _ _ => .pure trivial
  | true =>
    refine .languages (fun registry => (.ok (registry.recheck name).1.isOk,
      (registry.recheck name).2)) (fun around w => ?_) fun _ h => h.recheck name
    simp [available, Work.run_bind, Work.run_map, Except.map]

/-- A look at the files. -/
theorem does_look {α : Type} {Q : α → Prop} (f : Policy → FileSystem → Except Error α)
    (h : ∀ policy files a, f policy files = .ok a → Q a) :
    Does ps .quiet (do f (← get).policy (← read).files) Q :=
  .bind .quiet .get rfl fun w _ =>
    .bind .quiet .read rfl fun around _ => .lift (h w.policy around.files)

theorem does_list (p : Project) (options : Listing.Options) :
    Does ps .quiet (list p options) fun _ => True :=
  does_look (fun policy files => policy.list files p options) fun _ _ _ _ => trivial

theorem does_listLanguage (p : Project) (l : Language) :
    Does ps .quiet (listLanguage p l) fun _ => True :=
  does_look (fun policy files => policy.listLanguage files p l) fun _ _ _ _ => trivial

theorem does_listFiles (name : String) (options : Listing.Options) :
    Does ps .quiet (listFiles name options) fun _ => True :=
  .bind .quiet (does_project name) rfl fun p _ => does_list p options

theorem does_readFile (name path : String) (startLine maxLines : Option Nat) :
    Does ps .quiet (readFile name path startLine maxLines) fun _ => True :=
  .bind .quiet (does_project name) rfl fun p _ =>
    does_look (fun policy files => policy.readText files p path startLine maxLines)
      fun _ _ _ _ => trivial

theorem does_fileMetadata (name path : String) :
    Does ps .quiet (fileMetadata name path) fun _ => True :=
  .bind .quiet (does_project name) rfl fun p _ =>
    does_look (fun policy files => policy.metadata files p path) fun _ _ _ _ => trivial

/-! ## Documents -/

theorem does_resolve (hp : Registered ps p) (path : String) :
    Does ps .quiet (resolve p path) fun file => ps.contains file.project = true :=
  does_look (fun policy files => policy.resolve files p path)
    fun _ _ _ hfile => (Policy.resolved_of_resolve hfile).owned ▸ hp

/-- The file is read before the cache is asked. -/
theorem does_documentOf {file : FileRef} (hfile : ps.contains file.project = true)
    (l : Language) : Does ps .early (documentOf file l) fun _ => True := by
  rintro around w rfl
  rw [run_documentOf]
  cases w.policy.readBytes around.files file with
  | error error => exact .error (.refl w) error rfl rfl
  | ok source =>
    exact {
      reads := .withGet w around.parser around.now hfile source l
      result := fun _ _ => trivial
      answers := fun h => nomatch h
      untouched := fun h => nomatch h
      early := fun _ htotal _ error herror => by
        obtain ⟨d, hd⟩ := w.cache.exists_get_of_total htotal around.now file source l
        rw [hd] at herror
        cases herror }

theorem does_documentAt (hp : Registered ps p) (path : String) (asked : Option String) :
    Does ps .early (documentAt p path asked) fun _ => True :=
  .bind .early (does_resolve hp path) rfl fun _ hfile =>
    .bind .early (does_languageFor path asked) rfl fun l _ => does_documentOf hfile l

theorem does_document (name path : String) (asked : Option String) :
    Does ps .early (document name path asked) fun _ => True :=
  .bind .early (does_project name) rfl fun _ hp => does_documentAt hp path asked

/-- What goes wrong with a file is no failure of the call. -/
theorem does_inDocuments {α : Type} (hp : Registered ps p) (l : Language)
    (find : Document → List α) (paths : List String) :
    Does ps .sure (inDocuments p l find paths) fun _ => True := by
  induction paths with
  | nil => exact .pure trivial
  | cons path rest ih =>
    have hdocument : Does ps .early (do return find (← documentOf (← resolve p path) l))
        fun _ => True :=
      .bind .early (does_resolve hp path) rfl fun _ hfile =>
        .bind .still (does_documentOf hfile l) rfl fun _ _ => .pure trivial
    have hfound := hdocument.tryCatch (g := .sure) (fun _ => return []) .still rfl fun _ =>
      .pure trivial
    exact hfound.bind .sure rfl fun _ _ => ih.bind .still rfl fun _ _ => .pure trivial

/-! ## Reports -/

theorem does_outline (name path : String) (r : OutlineRequest) :
    Does ps .early (outline name path r) fun _ => True :=
  .bind .still (does_document name path r.language) rfl fun _ _ =>
    .bind .still .get rfl fun _ _ => .pure trivial

/-- The position is looked for when there is a document. -/
theorem does_nodesAt (name path : String) (position : Syntax.Point) (asked : Option String) :
    Does ps .any (nodesAt name path position asked) fun _ => True := by
  refine .bind .quiet (does_document name path asked) rfl ?_
  intro d _
  cases Syntax.pathAt d.root d.source position true d.tree.smallest with
  | some nodes => exact .pure trivial
  | none => exact .throw _

theorem does_symbols (name path : String) : Does ps .early (symbols name path) fun _ => True := by
  refine .bind .still (does_document name path none) rfl ?_
  intro d _
  obtain ⟨found, hfound⟩ := Analysis.Symbols.exists_of d
  exact .lift_ok ⟨found, hfound, trivial⟩

theorem does_complexity (name path : String) :
    Does ps .early (complexity name path) fun _ => True := by
  refine .bind .still (does_document name path none) rfl ?_
  intro d _
  obtain ⟨found, hfound⟩ := Analysis.Symbols.exists_of d
  refine .bind .still (.lift_ok (Q := fun _ => True) ⟨found, hfound, trivial⟩) rfl ?_
  intro symbols _
  obtain ⟨t, report, -, hreport, -⟩ := Analysis.Complexity.exists_report d symbols
  rw [hreport]
  exact .pure trivial

theorem does_dependencies (name path : String) :
    Does ps .early (dependencies name path) fun _ => True := by
  refine .bind .still (does_document name path none) rfl ?_
  intro d _
  obtain ⟨found, hfound⟩ := Analysis.Dependencies.exists_of d
  exact .lift_ok ⟨found, hfound, trivial⟩

theorem does_overview (name : String) : Does ps .quiet (overview name) fun _ => True :=
  .bind .quiet (does_project name) rfl fun p _ =>
    .bind .still (does_list p {}) rfl fun _ _ => .pure trivial

theorem does_snippetProfile (l : Language) (snippet : String) :
    Does ps .quiet (snippetProfile l snippet) fun _ => True := by
  refine .bind .quiet .read rfl ?_
  intro around _
  cases around.parser l (Text.Utf8.encode snippet.toList) with
  | some tree => exact .pure trivial
  | none => exact .throw _

theorem does_similarTo (hp : Registered ps p) (l : Language) (profile : Analysis.Profile)
    (threshold : Nat × Nat) (limit : Nat) :
    Does ps .early (similarTo p l profile threshold limit) fun _ => True :=
  .bind .sure (does_listLanguage p l) rfl fun paths _ =>
    .bind .still (does_inDocuments hp l _ paths) rfl fun _ _ => .pure trivial

theorem does_findSimilar (name snippet asked : String) (threshold : Number.Decimal)
    (count : Option Nat) :
    Does ps .early (findSimilar name snippet asked threshold count) fun _ => True := by
  refine .bind .early (does_project name) rfl ?_
  intro p hp
  have hrest : Does ps .early (do
      let l ← language asked
      let profile ← snippetProfile l snippet
      similarTo p l profile threshold.lowerEnd ((← get).limit count)) fun _ => True :=
    .bind .early (does_language asked) rfl fun l _ =>
      .bind .early (does_snippetProfile l snippet) rfl fun profile _ =>
        .bind .early .get rfl fun _ _ => does_similarTo hp l profile _ _
  dsimp only
  split
  · exact hrest
  · exact .bind .early (.throw (Q := fun _ => True) _) rfl fun _ _ => hrest

/-! ## Searches and queries -/

theorem does_findText (name : String) (options : Search.Options) (pattern : Option String)
    (asked : Option Nat) : Does ps .quiet (findText name options pattern asked) fun _ => True := by
  refine .bind .quiet (does_project name) rfl fun p _ =>
    .bind .quiet (.lift (Q := fun _ => True) fun _ _ => trivial) rfl fun _ _ =>
      .bind .quiet (does_list p _) rfl fun _ _ =>
        .bind .quiet .get rfl fun _ _ =>
          .bind .quiet .read rfl fun _ _ => ?_
  split
  · exact .pure trivial
  · exact .throw _

theorem does_queryLanguage (asked path : Option String) :
    Does ps .quiet (queryLanguage asked path) fun _ => True := by
  cases asked with
  | some name => exact does_language name
  | none =>
    cases path with
    | some path => exact does_languageFor path none
    | none => exact .throw _

/-- The query is read before any document. -/
theorem does_runQuery (name source : String) (asked path : Option String) (count : Option Nat) :
    Does ps .early (runQuery name source asked path count) fun _ => True := by
  refine .bind .early (does_project name) rfl ?_
  intro p hp
  refine .bind .early .get rfl ?_
  intro w _
  refine .bind .early (does_queryLanguage asked path) rfl ?_
  intro l _
  refine .bind .early (.lift (Q := fun _ => True) fun _ _ => trivial) rfl ?_
  intro query _
  cases path with
  | some path =>
    exact .bind .still (does_documentAt hp path (some l.id)) rfl fun _ _ => .pure trivial
  | none =>
    exact .bind .sure (does_listLanguage p l) rfl fun paths _ =>
      .bind .still (does_inDocuments hp l _ paths) rfl fun _ _ => .pure trivial

/-- A language can be had by its identifier. -/
theorem does_language_id (l : Language) : Does ps .still (language l.id) fun _ => True := by
  intro around w hw
  have hran := does_language l.id around w hw
  exact { hran with
    answers := fun _ _ hsound => by
      rw [run_language]
      exact hsound.exists_get_id l }

/-- Where a name is one, the query for its uses can be read in whatever language it is. -/
theorem does_usesIn_name (hp : Registered ps p) {symbol : String}
    (h : Query.Usage.isName symbol = true) (limit : Nat)
    (groups : List (Language × List String)) :
    Does ps .sure (usesIn p symbol limit groups) fun _ => True := by
  induction groups with
  | nil => exact .pure trivial
  | cons group rest ih =>
    obtain ⟨l, paths⟩ := group
    refine .bind .sure (does_language_id l) rfl ?_
    intro l _
    obtain ⟨source, hsource, hquery⟩ := Query.Usage.compile_source l h
    refine .bind .sure (.lift_ok (Q := (· = source)) ⟨source, hsource, rfl⟩) rfl ?_
    rintro _ rfl
    refine .bind .sure (.lift_ok (Q := fun _ => True) ⟨_, hquery, trivial⟩) rfl ?_
    intro query _
    exact .bind .sure (does_inDocuments hp l _ paths) rfl fun _ _ =>
      ih.bind .still rfl fun _ _ => .pure trivial

/-- A name that is none is found out with the first language, before its files are looked at. -/
theorem does_usesIn_noName {symbol : String} (h : Query.Usage.isName symbol = false)
    (limit : Nat) (groups : List (Language × List String)) :
    Does ps .quiet (usesIn p symbol limit groups) fun _ => True := by
  cases groups with
  | nil => exact .pure trivial
  | cons group rest =>
    refine .bind .quiet (does_language_id group.1) rfl ?_
    intro l _
    refine .bind .still (.lift (Q := fun _ => False) fun source hsource => ?_) rfl
      fun _ hfalse => hfalse.elim
    simp [Query.Usage.source, h] at hsource

theorem does_usesIn (hp : Registered ps p) (symbol : String) (limit : Nat)
    (groups : List (Language × List String)) :
    Does ps .early (usesIn p symbol limit groups) fun _ => True := by
  cases h : Query.Usage.isName symbol with
  | true => exact (does_usesIn_name hp h limit groups).within rfl fun _ => id
  | false => exact (does_usesIn_noName h limit groups).within rfl fun _ => id

theorem does_findUsage (name symbol : String) (scope asked : Option String)
    (count : Option Nat) :
    Does ps .early (findUsage name symbol scope asked count) fun _ => True := by
  have honly : Does ps .quiet (asked.mapM language) fun _ => True := by
    cases asked with
    | none => exact .pure trivial
    | some name => exact (does_language name).map fun _ => id
  exact .bind .early (does_project name) rfl fun p hp =>
    .bind .early .get rfl fun _ _ =>
      .bind .early honly rfl fun _ _ =>
        .bind .early (does_list p _) rfl fun _ _ =>
          .bind .still (does_usesIn hp symbol _ _) rfl fun _ _ => .pure trivial

/-! ## Queries as texts -/

theorem does_templates (name : String) : Does ps .quiet (templates name) fun _ => True :=
  .bind .still (does_language name) rfl fun _ _ => .pure trivial

theorem does_buildQuery (name : String) (chosen : List String) :
    Does ps .quiet (buildQuery name chosen) fun _ => True :=
  .bind .quiet (does_language name) rfl fun _ _ => .lift fun _ _ => trivial

theorem does_adaptQuery (source first second : String) :
    Does ps .quiet (adaptQuery source first second) fun _ => True :=
  .bind .quiet (does_language first) rfl fun _ _ =>
    .bind .still (does_language second) rfl fun _ _ => .pure trivial

end Workspace

end CodeAtlas
