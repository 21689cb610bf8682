import CodeAtlas.Proofs.Workspace.Usages

/-!
# Symbols that are no names

A symbol is looked at when the query for a language is written, and a query is written for every
language that has files to be searched.  A name passes each time (`run_usesIn_name`), and anything
else fails at the first language (`run_usesIn_noName`).

If there is nothing to be searched, no query is written, and every symbol passes: one that is no
name then comes to an empty list of uses, like a name that is used nowhere (`symbol_refused_iff`).
Whether this happens depends on the files in the scope and on the language asked for, as
`findUsage_among_notes` shows.
-/

namespace CodeAtlas.Workspace

variable {around : Surroundings} {w : Workspace} {p : Project} {name symbol : String}
  {scope asked : Option String} {only : Option Language} {listed : List String}

/-- One of the files is of a language that is searched. -/
def Searchable (only : Option Language) (listed : List String) : Prop :=
  ∃ path ∈ listed, ∃ l, Language.ofPath? (Path.ofString path) = some l ∧ only.all (· = l) = true

/-- What is said of a symbol that is no name. -/
def refusal (symbol : String) : Error :=
  .invalidArgument s!"'{symbol}' is not an identifier"

theorem inLanguage_eq_nil_iff {l : Language} :
    inLanguage l listed = [] ↔
      ∀ path ∈ listed, Language.ofPath? (Path.ofString path) ≠ some l := by
  simp [inLanguage, List.filter_eq_nil_iff]

/-- There are no groups of files exactly if nothing is searched. -/
theorem byLanguage_eq_nil_iff (only : Option Language) (listed : List String) :
    byLanguage only listed = [] ↔ ¬ Searchable only listed := by
  constructor
  · rintro hnil ⟨path, hpath, l, hl, honly⟩
    have hfiles : inLanguage l listed ≠ [] := fun h => inLanguage_eq_nil_iff.mp h path hpath hl
    have hwanted : l ∈ Language.all.filter fun l => only.all (· = l) :=
      List.mem_filter.mpr ⟨Language.mem_all l, honly⟩
    have hgroup : (l, inLanguage l listed) ∈ byLanguage only listed :=
      List.mem_filter.mpr ⟨List.mem_map_of_mem hwanted, by simpa using hfiles⟩
    rw [hnil] at hgroup
    cases hgroup
  · intro hnone
    refine List.filter_eq_nil_iff.mpr fun group hgroup hfiles => ?_
    obtain ⟨l, hwanted, rfl⟩ := List.mem_map.mp hgroup
    have hempty : inLanguage l listed = [] := inLanguage_eq_nil_iff.mpr fun path hpath hl =>
      hnone ⟨path, hpath, l, hl, (List.mem_filter.mp hwanted).2⟩
    simp only [inLanguage] at hempty
    simp [hempty] at hfiles

/-! ## Writing the queries -/

/-- The search for a name always comes to something. -/
theorem run_usesIn_name (around : Surroundings) (hsound : w.languages.Sound)
    (hp : Registered w.projects p) (hname : Query.Usage.isName symbol = true) (limit : Nat)
    (groups : List (Language × List String)) :
    ∃ hits, ((usesIn p symbol limit groups).run around w).1 = .ok hits := by
  induction groups generalizing w with
  | nil => exact ⟨[], rfl⟩
  | cons group rest ih =>
    obtain ⟨l, paths⟩ := group
    obtain ⟨docs, left, -, hreads, hrun⟩ :=
      run_usesIn_cons around hsound hp hname limit l paths rest
    have hprojects : Registered left.projects p := by
      rw [hreads.projects]
      exact hp
    obtain ⟨hits, hrest⟩ := ih (hreads.languages (hsound.get l.id)) hprojects
    rw [hrun, hrest]
    exact ⟨_, rfl⟩

/-- The search for anything else fails with the first language. -/
theorem run_usesIn_noName (hsound : w.languages.Sound)
    (hname : Query.Usage.isName symbol = false) (limit : Nat)
    {groups : List (Language × List String)} (hgroups : groups ≠ []) :
    ((usesIn p symbol limit groups).run around w).1 = .error (refusal symbol) := by
  cases groups with
  | nil => exact absurd rfl hgroups
  | cons group rest =>
    obtain ⟨l, paths⟩ := group
    have hlang : (language l.id).run around w =
        (.ok l, { w with languages := (w.languages.get l.id).2 }) := by
      rw [run_language, hsound.get_id]
    have hsource : Query.Usage.source l symbol = .error (refusal symbol) := by
      rw [Query.Usage.source, hname]
      rfl
    simp [usesIn, Work.run_bind, hlang, hsource]

/-! ## The search for uses -/

section FindUsage

variable (hsound : w.languages.Sound) (hproject : w.projects.get name = .ok p)
  (hasked : asked.mapM (fun id => (w.languages.get id).1) = .ok only)
  (hlisted : w.policy.list around.files p { pattern := scope } = .ok listed) (count : Option Nat)

include hsound hproject hasked hlisted

theorem run_findUsage_name (hname : Query.Usage.isName symbol = true) :
    ∃ hits, ((findUsage name symbol scope asked count).run around w).1 = .ok hits := by
  obtain ⟨languages, hlanguages, hrun⟩ :=
    run_findUsage_usesIn hproject hasked hlisted symbol count
  have hp : Registered w.projects p := (does_project name around w rfl).result p hproject
  obtain ⟨hits, huses⟩ := run_usesIn_name (w := { w with languages }) around (hlanguages hsound) hp
    hname (w.limit count) (byLanguage only listed)
  rw [hrun, huses]
  exact ⟨_, rfl⟩

theorem run_findUsage_noName (hname : Query.Usage.isName symbol = false)
    (hsearch : Searchable only listed) :
    ((findUsage name symbol scope asked count).run around w).1 = .error (refusal symbol) := by
  obtain ⟨languages, hlanguages, hrun⟩ :=
    run_findUsage_usesIn hproject hasked hlisted symbol count
  have hgroups := mt (byLanguage_eq_nil_iff only listed).mp (not_not.mpr hsearch)
  rw [hrun, run_usesIn_noName (w := { w with languages }) (hlanguages hsound) hname _ hgroups]
  rfl

omit hsound in
theorem run_findUsage_of_not_searchable (hsearch : ¬ Searchable only listed) (symbol : String) :
    ((findUsage name symbol scope asked count).run around w).1 = .ok [] := by
  obtain ⟨languages, -, hrun⟩ := run_findUsage_usesIn hproject hasked hlisted symbol count
  rw [hrun, (byLanguage_eq_nil_iff only listed).mpr hsearch]
  simp [usesIn, Except.map, firstHits]

end FindUsage

/-- **A symbol that is no name is refused exactly if a file is searched for it.**  Take any
workspace that calls have come to, a project of it, a scope that can be read, and a language that is
known or none.  Then the files in the scope are listed, and the search for the uses of a symbol
fails if and only if the symbol is no name and one of these files is of a language that is searched;
the failure says that the symbol is none.  With nothing to be searched, every symbol has an empty
list of uses. -/
theorem symbol_refused_iff (config : Config) {calls : List (Call × Surroundings)}
    {glob : Option Glob} :
    let w := (new config).session calls
    w.projects.get name = .ok p → asked.mapM (fun id => (w.languages.get id).1) = .ok only →
    Listing.globOf scope = .ok glob →
    ∃ listed, w.policy.list around.files p { pattern := scope } = .ok listed ∧ ∀ symbol count,
      let outcome := ((findUsage name symbol scope asked count).run around w).1
      (outcome = .error (.invalidArgument s!"'{symbol}' is not an identifier") ↔
        Query.Usage.isName symbol = false ∧ Searchable only listed) ∧
      (∀ e, outcome = .error e → e = .invalidArgument s!"'{symbol}' is not an identifier") ∧
      (¬ Searchable only listed → outcome = .ok []) := by
  intro w hproject hasked hglob
  have hsound : w.languages.Sound :=
    sound_session (Language.Registry.sound_empty.preload config.language.preferred) calls
  obtain ⟨listed, hlisted⟩ :
      ∃ listed, w.policy.list around.files p { pattern := scope } = .ok listed :=
    ⟨_, Policy.list_eq hglob⟩
  refine ⟨listed, hlisted, fun symbol count => ?_⟩
  by_cases hsearch : Searchable only listed
  · cases hname : Query.Usage.isName symbol with
    | true =>
      obtain ⟨hits, hok⟩ := run_findUsage_name hsound hproject hasked hlisted count hname
      simp [hok, hsearch]
    | false =>
      have herror := run_findUsage_noName hsound hproject hasked hlisted count hname hsearch
      simp [herror, hsearch, refusal]
  · have hok := run_findUsage_of_not_searchable hproject hasked hlisted count hsearch symbol
    simp [hok, hsearch]

/-- Among the files of the example there are some in a language, so what is no name is refused. -/
theorem symbol_refused_iff_twin :
    let w := rootSpace twinAround
    w.projects.get "demo" = .ok demo ∧ Listing.globOf none = .ok none ∧
    Query.Usage.isName "a-b" = false ∧
    ∀ count, ((findUsage "demo" "a-b" none none count).run twinAround w).1 =
      .error (.invalidArgument "'a-b' is not an identifier") := by
  intro w
  have hproject : w.projects.get "demo" = .ok demo := project_rootSpace twinAround rfl
  have hasked : (none : Option String).mapM (fun id => (w.languages.get id).1) = .ok none := rfl
  have hglob : Listing.globOf none = .ok none := rfl
  have hname : Query.Usage.isName "a-b" = false := rfl
  obtain ⟨listed, hlisted, hrefused⟩ := symbol_refused_iff {} hproject hasked hglob
  have hpolicy : w.policy = (new {}).policy := policy_rootSpace twinAround rfl
  have hsame : (Except.ok ["a.py", "z/../a.py"] : Except Error _) = .ok listed := by
    rw [← list_twinAround, ← hpolicy]
    exact hlisted
  obtain rfl := Except.ok.inj hsame
  have hsearch : Searchable none ["a.py", "z/../a.py"] :=
    ⟨"a.py", List.mem_cons_self, .python, by decide +kernel, rfl⟩
  exact ⟨hproject, hglob, hname, fun count => (hrefused "a-b" count).1.mpr ⟨hname, hsearch⟩⟩

/-! ### A project without sources -/

/-- A project with nothing but notes. -/
def notesAround : Surroundings :=
  { nestedAround with files := { items := [("notes.txt", .file [120] 7)] } }

theorem list_notesAround :
    (new {}).policy.list notesAround.files demo {} = .ok ["notes.txt"] := by
  have hlevel : Ignore.Level.of notesAround.files [] = { base := [], rules := [[], [], []] } := by
    simp [Ignore.Level.of, Ignore.Level.fileNames, FileSystem.readPath, FileSystem.locate_pathTo,
      FileSystem.follow, FileSystem.entry?, FileSystem.entryBelow?, notesAround, List.lookup_cons,
      bind, Except.bind]
  have hwalk : Listing.filesBelow notesAround.files (new {}).policy none [] =
      [(["notes.txt"] : Place)] := by
    have hitems : notesAround.files.items = [(("notes.txt" : RawText), .file [120] 7)] := rfl
    simp [Listing.filesBelow, FileSystem.locate_pathTo, FileSystem.follow, Listing.walk,
      Listing.walkItems, Listing.deeper?, FileSystem.entry?, FileSystem.entryBelow?, hlevel, hitems]
    decide +kernel
  have hwants : Listing.wants (new {}).policy {} none ["notes.txt"] = true := by decide +kernel
  have hslashed : Place.slashed ["notes.txt"] = "notes.txt" := by decide +kernel
  simp [Policy.list, Listing.globOf, bind, Except.bind, pure, Except.pure, demo, hwalk, hwants,
    hslashed]

/-- What is no name is searched for among the notes and found nowhere. -/
theorem findUsage_among_notes :
    let w := rootSpace notesAround
    w.projects.get "demo" = .ok demo ∧
    w.policy.list notesAround.files demo {} = .ok ["notes.txt"] ∧
    Query.Usage.isName "a-b" = false ∧
    ((findUsage "demo" "a-b" none none none).run notesAround w).1 = .ok [] := by
  intro w
  have hproject : w.projects.get "demo" = .ok demo := project_rootSpace notesAround rfl
  have hasked : (none : Option String).mapM (fun id => (w.languages.get id).1) = .ok none := rfl
  have hlisted : w.policy.list notesAround.files demo { pattern := none } = .ok ["notes.txt"] := by
    rw [show w.policy = (new {}).policy from policy_rootSpace notesAround rfl]
    exact list_notesAround
  have hsearch : ¬ Searchable none ["notes.txt"] := by
    rintro ⟨path, hpath, l, hl, -⟩
    obtain rfl := List.mem_singleton.mp hpath
    have hnone : Language.ofPath? (Path.ofString "notes.txt") = none := by decide +kernel
    rw [hnone] at hl
    cases hl
  exact ⟨hproject, hlisted, rfl,
    run_findUsage_of_not_searchable hproject hasked hlisted none hsearch "a-b"⟩

end CodeAtlas.Workspace
