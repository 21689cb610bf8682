import CodeAtlas.Proofs.Files.Listing
import CodeAtlas.Proofs.Language.Registry
import CodeAtlas.Proofs.Workspace.Calls
import CodeAtlas.Proofs.Workspace.Coherence
import CodeAtlas.Proofs.Workspace.Limits

/-!
# A query of a project is made of its files

A query can be put to one file, or to all files of a language at once.  The two ways read documents
and order hits on their own.  This file shows that they agree: as long as the limit cuts nothing,
what is found in the project is what is found in each listed file, one after the other.

Two facts carry it.  The cache does not show, so what a path comes to is the same wherever in a call
it is asked for, which is `Workspace.fresh`.  And to sort parts that follow each other is to sort
each of them, since the list of files is in the order by which the hits are sorted.

The second needs that hits are shown under the path that the file was listed by.  That is not so of
a name with a backslash, by which another file may be listed.
-/

namespace CodeAtlas

/-! ## Sorting parts -/

namespace Sorting

variable {α β : Type} {le : α → α → Bool}

/-- If no element of an earlier part comes after one of a later part, then to sort the whole is to
sort each part. -/
theorem mergeSort_flatMap (trans : ∀ a b c, le a b → le b c → le a c)
    (total : ∀ a b, le a b || le b a) {parts : List β} {f : β → List α}
    (h : parts.Pairwise fun x y => ∀ a ∈ f x, ∀ b ∈ f y, le a b) :
    (parts.flatMap f).mergeSort le = parts.flatMap fun x => (f x).mergeSort le := by
  induction parts with
  | nil => simp
  | cons x parts ih =>
    obtain ⟨hx, hparts⟩ := List.pairwise_cons.mp h
    rw [List.flatMap_cons, List.flatMap_cons, mergeSort_append trans total, ih hparts,
      List.merge_of_le]
    intro a b ha hb
    obtain ⟨y, hy, hb⟩ := List.mem_flatMap.mp hb
    exact hx y hy a (List.mem_mergeSort.mp ha) b (List.mem_mergeSort.mp hb)

end Sorting

namespace Workspace

/-! ## Workspaces that calls come to -/

variable {common : Common} {around : Surroundings} {w : Workspace}

/-- **Every call** leaves a workspace whose cache holds no more than what was read. -/
theorem alike_apply (ha : Surroundings.Alike common around around)
    (hw : Workspace.Alike common w w) (call : Call) :
    Workspace.Alike common (call.apply around w) (call.apply around w) := by
  cases call with
  | look => exact hw
  | register path name description => exact (alike_register path name description ha hw).2
  | project name => exact (alike_project name ha hw).2
  | remove name => exact (alike_remove name ha hw).2
  | available name again => exact (alike_available name again ha hw).2
  | nodeTypes name => exact (alike_language name ha hw).2
  | listFiles name options => exact (alike_listFiles name options ha hw).2
  | readFile name path startLine maxLines =>
    exact (alike_readFile name path startLine maxLines ha hw).2
  | fileMetadata name path => exact (alike_fileMetadata name path ha hw).2
  | document name path asked => exact (alike_document name path asked ha hw).2
  | outline name path r => exact (alike_outline name path r ha hw).2
  | nodesAt name path position asked => exact (alike_nodesAt name path position asked ha hw).2
  | findText name options pattern asked =>
    exact (alike_findText name options pattern asked ha hw).2
  | runQuery name source asked path count =>
    exact (alike_runQuery name source asked path count ha hw).2
  | templates name => exact (alike_templates name ha hw).2
  | buildQuery name chosen => exact (alike_buildQuery name chosen ha hw).2
  | adaptQuery source first second => exact (alike_adaptQuery source first second ha hw).2
  | symbols name path => exact (alike_symbols name path ha hw).2
  | findUsage name symbol scope asked count =>
    exact (alike_findUsage name symbol scope asked count ha hw).2
  | overview name => exact (alike_overview name ha hw).2
  | complexity name path => exact (alike_complexity name path ha hw).2
  | dependencies name path => exact (alike_dependencies name path ha hw).2
  | findSimilar name snippet asked threshold count =>
    exact (alike_findSimilar name snippet asked threshold count ha hw).2
  | clearCache name => exact (alike_clearCache name ha hw).2

theorem alike_session (hw : Workspace.Alike common w w) {calls : List (Call × Surroundings)}
    (hcalls : ∀ call ∈ calls, Surroundings.Alike common call.2 call.2) :
    Workspace.Alike common (w.session calls) (w.session calls) := by
  induction calls generalizing w with
  | nil => exact hw
  | cons call rest ih =>
    exact ih (alike_apply (hcalls call List.mem_cons_self) hw call.1)
      fun c hc => hcalls c (List.mem_cons_of_mem call hc)

theorem alike_new (config : Config) : Workspace.Alike common (.new config) (.new config) where
  config := rfl
  projects := .nil
  languages := rfl
  cache := Cache.faithful_new _
  cache' := Cache.faithful_new _

/-! ## What a path comes to -/

/-- The document of a path, read without a cache. -/
def fresh (policy : Policy) (around : Surroundings) (p : Project) (l : Language) (path : String) :
    Except Error Document := do
  let file ← policy.resolve around.files p path
  let source ← policy.readBytes around.files file
  Cache.read around.parser file source l

variable {p : Project} {l : Language}

/-- The document of a path in a language that is known. -/
def documentIn (p : Project) (l : Language) (path : String) : Work Document := do
  documentOf (← resolve p path) l

/-- The cache does not show in the document of a path, and goes on holding what was read. -/
theorem run_documentIn (ha : Surroundings.Alike common around around)
    (hw : Workspace.Alike common w w) (p : Project) (l : Language) (path : String) :
    ((documentIn p l path).run around w).1 = fresh w.policy around p l path ∧
      Workspace.Alike common ((documentIn p l path).run around w).2
        ((documentIn p l path).run around w).2 ∧
      ((documentIn p l path).run around w).2.policy = w.policy := by
  rw [documentIn, Work.run_bind, run_resolve, fresh]
  cases hfile : w.policy.resolve around.files p path with
  | error e => exact ⟨rfl, hw, rfl⟩
  | ok file =>
    have hproper : file.relative.Proper :=
      (Policy.accepted_of_accept (Policy.resolved_of_resolve hfile).accepted).names
    refine ⟨?_, (alike_documentOf hproper l ha hw).2, ?_⟩
    all_goals
      dsimp only [bind, Except.bind]
      rw [run_documentOf]
      have hknown := readBytes_known w.policy file ha
      cases hsource : w.policy.readBytes around.files file with
      | error e => rfl
      | ok source => ?_
    · rw [hsource] at hknown
      obtain ⟨-, hknown⟩ : source = source ∧ source ∈ common.contents := by
        cases hknown with
        | ok h => exact h
      rw [ha.parser]
      exact (hw.cache.get common.digest around.now l hproper hknown).1
    · rfl

/-- The document of a path as a list, which is empty if there is none. -/
def freshList (policy : Policy) (around : Surroundings) (p : Project) (l : Language)
    (path : String) : List Document :=
  (fresh policy around p l path).toOption.toList

theorem mem_freshList_iff {policy : Policy} {path : String} {d : Document} :
    d ∈ freshList policy around p l path ↔ fresh policy around p l path = .ok d := by
  rw [freshList, Option.mem_toList]
  cases fresh policy around p l path <;> simp [Except.toOption]

theorem run_inDocuments_cons (p : Project) (l : Language) (path : String) (rest : List String)
    (around : Surroundings) (w : Workspace) :
    ((inDocuments p l (fun d => [d]) (path :: rest)).run around w).1 =
      ((inDocuments p l (fun d => [d]) rest).run around
        ((documentIn p l path).run around w).2).1.map
          (((documentIn p l path).run around w).1.toOption.toList ++ ·) := by
  have hcons : inDocuments p l (fun d => [d]) (path :: rest) = (do
      let found ← tryCatch ((fun d => [d]) <$> documentIn p l path) fun _ => return []
      return found ++ (← inDocuments p l (fun d => [d]) rest)) := by
    simp [inDocuments, documentIn]
  rw [hcons]
  simp only [Work.run_bind, Work.run_tryCatch, Work.run_map]
  rcases (documentIn p l path).run around w with ⟨_ | d, left⟩ <;>
    rcases hrest : (inDocuments p l (fun d => [d]) rest).run around left with ⟨_ | docs, v⟩ <;>
      simp [Except.map, Except.toOption, hrest]

/-- The documents of some files are what each path comes to. -/
theorem run_inDocuments_fresh (ha : Surroundings.Alike common around around)
    (hw : Workspace.Alike common w w) (p : Project) (l : Language) (paths : List String) :
    ((inDocuments p l (fun d => [d]) paths).run around w).1 =
      .ok (paths.flatMap (freshList w.policy around p l)) := by
  induction paths generalizing w with
  | nil => rfl
  | cons path rest ih =>
    obtain ⟨hdocument, hleft, hpolicy⟩ := run_documentIn ha hw p l path
    rw [run_inDocuments_cons, ih hleft, hdocument, hpolicy, List.flatMap_cons]
    rfl

/-! ## Both ways to put a query -/

variable {name source asked : String} {q : Query}

theorem run_queried (ha : Surroundings.Alike common around around)
    (hw : Workspace.Alike common w w) (hproject : w.projects.get name = .ok p)
    (hlanguage : (w.languages.get asked).1 = .ok l) (hquery : Query.compile l source = .ok q)
    {paths : List String} (hpaths : w.policy.listLanguage around.files p l = .ok paths) :
    ((queried name source (some asked)).run around w).1 =
      .ok (q, paths.flatMap (freshList w.policy around p l)) := by
  let v : Workspace := { w with languages := (w.languages.get asked).2 }
  have hpolicy : v.policy = w.policy := policy_withLanguages w _
  have hdocs := run_inDocuments_fresh ha (w := v) hw.withLanguages p l paths
  have hlang : (queryLanguage (some asked) none).run around w = (.ok l, v) := by
    rw [queryLanguage, run_language, hlanguage]
  rw [hpolicy] at hdocs
  rcases hrun : (inDocuments p l (fun d => [d]) paths).run around v with ⟨outcome, left⟩
  rw [hrun] at hdocs
  simp [queried, Work.run_bind, Work.run_map, Except.map, hproject, hlang, hquery, hpolicy, hpaths,
    hrun, hdocs]

/-- Whether the language was asked for or is the one of the path, a file is read in it. -/
theorem run_documentAt (ha : Surroundings.Alike common around around)
    (hw : Workspace.Alike common w w) {path : String} {asked : Option String}
    {languages : Language.Registry}
    (hlanguage : (languageFor path asked).run around w = (.ok l, { w with languages }))
    (p : Project) :
    ((documentAt p path asked).run around w).1 = fresh w.policy around p l path := by
  rw [documentAt, Work.run_bind, run_resolve]
  cases hfile : w.policy.resolve around.files p path with
  | error e => simp [fresh, hfile, bind, Except.bind]
  | ok file =>
    let v : Workspace := { w with languages }
    have hpolicy : v.policy = w.policy := policy_withLanguages w _
    have hdocument := (run_documentIn ha (w := v) hw.withLanguages p l path).1
    rw [documentIn, Work.run_bind, run_resolve, hpolicy, hfile] at hdocument
    dsimp only at hdocument ⊢
    rw [Work.run_bind, hlanguage]
    exact hdocument

/-- What a query finds in one file. -/
theorem run_runQuery_at (ha : Surroundings.Alike common around around)
    (hw : Workspace.Alike common w w) (hproject : w.projects.get name = .ok p)
    (hlanguage : (w.languages.get asked).1 = .ok l) (hquery : Query.compile l source = .ok q)
    (path : String) (count : Option Nat) :
    ((runQuery name source (some asked) (some path) count).run around w).1 =
      (fresh w.policy around p l path).map fun d => Query.Hit.collect q d (w.limit count) := by
  let v : Workspace := { w with languages := (w.languages.get asked).2 }
  have hlang : (queryLanguage (some asked) (some path)).run around w = (.ok l, v) := by
    rw [queryLanguage, run_language, hlanguage]
  -- The language of the query is looked for once more, and found.
  have hagain : (languageFor path (some l.id)).run around v =
      (.ok l, { v with languages := (v.languages.get l.id).2 }) := by
    rw [languageFor, run_language, Language.Registry.get_id_of_get hlanguage]
  have hdocument := run_documentAt ha (w := v) hw.withLanguages hagain p
  rw [policy_withLanguages] at hdocument
  rcases hrun : (documentAt p path (some l.id)).run around v with ⟨answer, left⟩
  rw [hrun] at hdocument
  simp [runQuery, Work.run_bind, Work.run_map, hproject, hlang, hquery, hrun, ← hdocument]

/-! ## Parts -/

def startsNoLater (a b : Query.Hit) : Bool :=
  a.span.startByte ≤ b.span.startByte

/-- What a query finds in one file in the order of the starts, and nothing if the call fails. -/
def part (name source asked : String) (count : Option Nat) (around : Surroundings)
    (w : Workspace) (path : String) : List Query.Hit :=
  match ((runQuery name source (some asked) (some path) count).run around w).1 with
  | .ok hits => hits.mergeSort startsNoLater
  | .error _ => []

/-- If a path leads to a file, then the file is shown by this path. -/
def ShownAs (policy : Policy) (files : FileSystem) (p : Project) (path : String) : Prop :=
  ∀ file, policy.resolve files p path = .ok file → file.displayPath = path

theorem displayPath_of_fresh {policy : Policy} {path : String} {d : Document}
    (h : fresh policy around p l path = .ok d) (hshown : ShownAs policy around.files p path) :
    d.displayPath = path := by
  unfold fresh at h
  cases hfile : policy.resolve around.files p path with
  | error e => simp [hfile, bind, Except.bind] at h
  | ok file =>
    cases hsource : policy.readBytes around.files file with
    | error e => simp [hfile, hsource, bind, Except.bind] at h
    | ok octets =>
      simp only [hfile, hsource, bind, Except.bind] at h
      obtain ⟨tree, -, rfl⟩ := Cache.eq_of_read h
      exact hshown file hfile

theorem path_of_mem_collect {d : Document} {limit : Nat} {hit : Query.Hit}
    (h : hit ∈ Query.Hit.collect q d limit) : hit.path = d.displayPath := by
  obtain ⟨m, -, hm⟩ := List.mem_flatMap.mp (List.mem_of_mem_take h)
  obtain ⟨c, -, rfl⟩ := List.mem_map.mp hm
  rfl

/-- The hits of a file, as they are collected for the whole project. -/
def collected (q : Query) (limit : Nat) (policy : Policy) (around : Surroundings) (p : Project)
    (l : Language) (path : String) : List Query.Hit :=
  (freshList policy around p l path).flatMap fun d => Query.Hit.collect q d limit

theorem path_of_mem_collected {limit : Nat} {policy : Policy} {path : String} {hit : Query.Hit}
    (hshown : ShownAs policy around.files p path)
    (h : hit ∈ collected q limit policy around p l path) : hit.path = path := by
  obtain ⟨d, hd, hhit⟩ := List.mem_flatMap.mp h
  rw [path_of_mem_collect hhit]
  exact displayPath_of_fresh (mem_freshList_iff.mp hd) hshown

theorem part_eq (ha : Surroundings.Alike common around around)
    (hw : Workspace.Alike common w w) (hproject : w.projects.get name = .ok p)
    (hlanguage : (w.languages.get asked).1 = .ok l) (hquery : Query.compile l source = .ok q)
    (path : String) (count : Option Nat) :
    part name source asked count around w path =
      (collected q (w.limit count) w.policy around p l path).mergeSort startsNoLater := by
  rw [part, run_runQuery_at ha hw hproject hlanguage hquery, collected, freshList]
  cases fresh w.policy around p l path with
  | error e => simp [Except.map, Except.toOption]
  | ok d => simp [Except.map, Except.toOption]

/-- Within a file the order of the project is the order of the starts. -/
theorem mergeSort_of_samePath {hits : List Query.Hit} {path : String}
    (h : ∀ hit ∈ hits, hit.path = path) :
    hits.mergeSort hitNoLater = hits.mergeSort startsNoLater := by
  have hmap := List.map_mergeSort (f := id) (r := hitNoLater) (s := startsNoLater) (l := hits)
    fun a ha b hb => by
      rw [hitNoLater, if_neg (by rw [h a ha, h b hb]; simp)]
      rfl
  simpa using hmap

/-- The parts of a project, put together in the order of the files, are in order. -/
theorem mergeSort_collected {paths : List String} (hpaths : paths.Pairwise (· < ·)) {limit : Nat}
    {policy : Policy} (hshown : ∀ path ∈ paths, ShownAs policy around.files p path) :
    (paths.flatMap (collected q limit policy around p l)).mergeSort hitNoLater =
      paths.flatMap fun path =>
        (collected q limit policy around p l path).mergeSort startsNoLater := by
  rw [Sorting.mergeSort_flatMap hitNoLater_trans hitNoLater_total]
  · refine List.flatMap_congr fun path hpath => ?_
    exact mergeSort_of_samePath fun hit hhit => path_of_mem_collected (hshown path hpath) hhit
  · refine hpaths.imp_of_mem fun hx hy hxy a ha b hb => hitNoLater_iff.mpr (.inl ?_)
    rw [path_of_mem_collected (hshown _ hx) ha, path_of_mem_collected (hshown _ hy) hb]
    exact hxy

theorem length_flatMap_collect_le (q : Query) (limit : Nat) (docs : List Document) :
    (docs.flatMap fun d => Query.Hit.collect q d limit).length ≤
      (docs.flatMap (Query.Hit.all q)).length := by
  induction docs with
  | nil => simp
  | cons d docs ih =>
    have hd : (Query.Hit.collect q d limit).length ≤ (Query.Hit.all q d).length :=
      List.length_take_le' limit _
    simp only [List.flatMap_cons, List.length_append]
    omega

/-- The listed files of a language. -/
def inLanguage (l : Language) (listed : List String) : List String :=
  listed.filter fun path => Language.ofPath? (Path.ofString path) = some l

/-- Where no name holds a backslash, whatever is listed is shown by the path that it was listed
by. -/
theorem shownAs_of_list {policy : Policy} {files : FileSystem} (hfiles : files.Regular)
    (hroot : p.root.Proper) (hdirectory : files.isDirectory p.root) {options : Listing.Options}
    {glob : Option Glob} (hglob : Listing.globOf options.pattern = .ok glob)
    {listed : List String} (hlisted : policy.list files p options = .ok listed)
    (hplain : ∀ place ∈ Listing.visited files policy p options glob, place.Plain) :
    listed.Nodup ∧ ∀ path ∈ listed, ShownAs policy files p path := by
  constructor
  · rw [Policy.nodup_list_iff hglob hlisted]
    exact Policy.nodup_visited_of_plain hfiles hroot hdirectory hplain
  · intro path hpath file hfile
    obtain ⟨place, hplace, -, hback⟩ :=
      Policy.exists_visited_of_mem hfiles hroot hdirectory hglob hlisted hpath
    cases hback (hplain place hplace) with
    | file h leads shown =>
      rw [hfile] at h
      cases h
      exact shown
    | tooLarge there large h =>
      rw [hfile] at h
      cases h

theorem shownAs_of_plain {policy : Policy} {files : FileSystem} (hfiles : files.Regular)
    (hroot : p.root.Proper) (hdirectory : files.isDirectory p.root) {listed : List String}
    (hlisted : policy.list files p {} = .ok listed)
    (hplain : ∀ place ∈ Listing.visited files policy p {} none, place.Plain) :
    listed.Nodup ∧ ∀ path ∈ listed, ShownAs policy files p path :=
  have hglob : Listing.globOf ({} : Listing.Options).pattern = .ok none := rfl
  shownAs_of_list hfiles hroot hdirectory hglob hlisted hplain

/-- **Both ways to put a query agree.**  Take any workspace that calls have come to, with one parser
and contents of different digests, and a query that can be compiled.  Then the files are listed, and
if the limit is at least the number of hits there are, what the query finds in the project is what
it finds in each listed file of the language, in the order of the list and within each file in the
order of the starts, with nothing for files on which the single call fails.  This takes that the
list has no path twice and that each path in it is the one by which the file is shown; both are so
if no name on the way to a file holds a backslash. -/
theorem runQuery_eq_parts (config : Config) {calls : List (Call × Surroundings)}
    (hcalls : ∀ call ∈ calls, Surroundings.Alike common call.2 call.2)
    (ha : Surroundings.Alike common around around) :
    let w := (new config).session calls
    w.projects.get name = .ok p → (w.languages.get asked).1 = .ok l →
    Query.compile l source = .ok q →
    ∃ listed docs, w.policy.list around.files p {} = .ok listed ∧
      ((queried name source (some asked)).run around w).1 = .ok (q, docs) ∧
      (listed.Nodup → (∀ path ∈ inLanguage l listed, ShownAs w.policy around.files p path) →
        ∀ count, (docs.flatMap (Query.Hit.all q)).length ≤ w.limit count →
          ((runQuery name source (some asked) none count).run around w).1 =
            .ok ((inLanguage l listed).flatMap (part name source asked count around w))) ∧
      (around.files.Regular → p.root.Proper → around.files.isDirectory p.root →
        (∀ place ∈ Listing.visited around.files w.policy p {} none, place.Plain) →
        listed.Nodup ∧ ∀ path ∈ listed, ShownAs w.policy around.files p path) := by
  intro w hproject hlanguage hquery
  have hw : Workspace.Alike common w w := alike_session (alike_new config) hcalls
  have hglob : Listing.globOf ({} : Listing.Options).pattern = .ok none := rfl
  obtain ⟨listed, hlisted⟩ : ∃ listed, w.policy.list around.files p {} = .ok listed :=
    ⟨_, Policy.list_eq hglob⟩
  have hpaths : w.policy.listLanguage around.files p l = .ok (inLanguage l listed) := by
    rw [Policy.listLanguage, hlisted]
    rfl
  have hqueried := run_queried ha hw hproject hlanguage hquery hpaths
  refine ⟨listed, _, hlisted, hqueried, fun hnodup hshown count hlimit => ?law, fun hfiles hroot
    hdirectory => shownAs_of_plain hfiles hroot hdirectory hlisted⟩
  have hsorted : (inLanguage l listed).Pairwise (· < ·) :=
    ((Policy.pairwise_lt_iff (Policy.pairwise_list hlisted)).mpr hnodup).filter _
  have hlength := (length_flatMap_collect_le q (w.limit count) _).trans hlimit
  rw [run_runQuery, hqueried]
  simp only [Except.map, firstHits]
  rw [List.take_of_length_le (by rwa [List.length_mergeSort]), List.flatMap_assoc]
  refine congrArg Except.ok ((mergeSort_collected hsorted hshown).trans ?_)
  exact List.flatMap_congr fun path _ =>
    (part_eq ha hw hproject hlanguage hquery path count).symm

/-! ### A file that is listed by the way to another one

The root directory is the project.  The name of the second file holds backslashes. -/

/-- The workspace after the root directory was registered. -/
def rootSpace (around : Surroundings) : Workspace :=
  (new {}).session [(.register "/" (some "demo") none, around)]

/-- The root directory can be registered whatever it holds. -/
theorem rootSpace_eq (hdate : around.date = "now") : rootSpace around =
    { new {} with projects := ⟨[demo]⟩, cache := (new {}).cache.activate "demo" } := by
  have hpath : Path.ofString "/" = { absolute := true, steps := [], directory := true } := rfl
  have hroot : Project.rootAt around.files "/" = .ok [] := by
    simp [Project.rootAt, FileSystem.locate, hpath, FileSystem.follow]
    rfl
  have hname : Projects.requestedName? (some "demo") = some "demo" := rfl
  have hregister : (new {}).projects.register around.files around.date "/" (some "demo") none =
      .ok (demo, ⟨[demo]⟩) := by
    simp only [Projects.register, hroot, hname, hdate, bind, Except.bind]
    rfl
  change after (register "/" (some "demo") none) around (new {}) = _
  rw [after, run_register, hregister]
  rfl

theorem project_rootSpace (around : Surroundings) (hdate : around.date = "now") :
    (rootSpace around).projects.get "demo" = .ok demo := by
  rw [rootSpace_eq hdate]
  rfl

theorem policy_rootSpace (around : Surroundings) (hdate : around.date = "now") :
    (rootSpace around).policy = (new {}).policy := by
  rw [rootSpace_eq hdate]
  rfl

theorem languages_rootSpace (around : Surroundings) (hdate : around.date = "now") :
    (rootSpace around).languages = (new {}).languages := by
  rw [rootSpace_eq hdate]

theorem get_python_rootSpace (around : Surroundings) (hdate : around.date = "now") :
    ((rootSpace around).languages.get "python").1 = .ok .python := by
  rw [languages_rootSpace around hdate]
  rfl

/-- Whatever file there is holds one octet. -/
def oneContent : Common :=
  ⟨nestedAround.parser, {[120]}, Set.injOn_singleton _ _⟩

/-- Any parser will do. -/
theorem alike_withParser (parser : Syntax.Parser Language) {files : FileSystem}
    (hfiles : ∀ item ∈ files.items, item.2 = .file [120] 7) :
    Surroundings.Alike ⟨parser, {[120]}, Set.injOn_singleton _ _⟩
      { nestedAround with files, parser } { nestedAround with files, parser } where
  files := rfl
  parser := rfl
  parser' := rfl
  contents place content modified h := by
    rw [FileSystem.file?_eq_some_iff] at h
    have hflat : ∀ item ∈ files.items, ∀ inner, item.2 ≠ .directory inner := by
      intro item hitem inner
      rw [hfiles item hitem]
      simp
    rcases FileSystem.mem_items_of_flat hflat h with heq | ⟨name, hmem⟩
    · cases heq
    · cases hfiles _ hmem
      rfl

theorem alike_of_flat {files : FileSystem}
    (hfiles : ∀ item ∈ files.items, item.2 = .file [120] 7) :
    Surroundings.Alike oneContent { nestedAround with files } { nestedAround with files } :=
  alike_withParser nestedAround.parser hfiles

theorem alike_nestedAround : Surroundings.Alike oneContent nestedAround nestedAround := by
  have hfiles : ∀ item ∈ nestedAround.files.items, item.2 = .file [120] 7 := by
    simp [nestedAround]
  exact alike_of_flat hfiles

theorem alike_rootSpace (ha : Surroundings.Alike common around around) :
    Workspace.Alike common (rootSpace around) (rootSpace around) := by
  refine alike_session (alike_new {}) fun call hcall => ?_
  obtain rfl := List.mem_singleton.mp hcall
  exact ha

theorem runQuery_eq_parts_nested :
    Surroundings.Alike oneContent nestedAround nestedAround ∧
    (rootSpace nestedAround).projects.get "demo" = .ok demo ∧
    ((rootSpace nestedAround).languages.get "python").1 = .ok .python ∧
    Query.compile .python "(return_statement) @r" = .ok (single returns "r") ∧
    ∃ listed docs,
      (rootSpace nestedAround).policy.list nestedAround.files demo {} = .ok listed ∧
      ((queried "demo" "(return_statement) @r" (some "python")).run nestedAround
        (rootSpace nestedAround)).1 = .ok (single returns "r", docs) ∧
      (listed.Nodup → (∀ path ∈ inLanguage .python listed,
          ShownAs (rootSpace nestedAround).policy nestedAround.files demo path) →
        ∀ count, (docs.flatMap (Query.Hit.all (single returns "r"))).length ≤
            (rootSpace nestedAround).limit count →
          ((runQuery "demo" "(return_statement) @r" (some "python") none count).run nestedAround
            (rootSpace nestedAround)).1 =
            .ok ((inLanguage .python listed).flatMap (part "demo" "(return_statement) @r" "python"
              count nestedAround (rootSpace nestedAround)))) := by
  have hproject := project_rootSpace nestedAround rfl
  have hlanguage := get_python_rootSpace nestedAround rfl
  have hcalls : ∀ call ∈ [(Call.register "/" (some "demo") none, nestedAround)],
      Surroundings.Alike oneContent call.2 call.2 := by
    intro call hcall
    obtain rfl := List.mem_singleton.mp hcall
    exact alike_nestedAround
  obtain ⟨listed, docs, hlisted, hqueried, hlaw, -⟩ :=
    runQuery_eq_parts {} hcalls alike_nestedAround hproject hlanguage compile_returns
  exact ⟨alike_nestedAround, hproject, hlanguage, compile_returns, listed, docs, hlisted, hqueried,
    hlaw⟩

def twinAround : Surroundings :=
  { nestedAround with
    files := { items := [("a.py", .file [120] 7), ("z\\..\\a.py", .file [120] 7)] } }

theorem alike_twinAround : Surroundings.Alike oneContent twinAround twinAround :=
  alike_of_flat (by simp)

theorem list_twinAround : (new {}).policy.list twinAround.files demo {} =
    .ok ["a.py", "z/../a.py"] := by
  have hlevel : Ignore.Level.of twinAround.files [] = { base := [], rules := [[], [], []] } := by
    simp [Ignore.Level.of, Ignore.Level.fileNames, FileSystem.readPath, FileSystem.locate_pathTo,
      FileSystem.follow, FileSystem.entry?, FileSystem.entryBelow?, twinAround, List.lookup_cons,
      bind, Except.bind]
  have hwalk : Listing.filesBelow twinAround.files (new {}).policy none [] =
      ([["a.py"], ["z\\..\\a.py"]] : List Place) := by
    have hitems : twinAround.files.items =
      [(("a.py" : RawText), .file [120] 7), (("z\\..\\a.py" : RawText), .file [120] 7)] := rfl
    simp [Listing.filesBelow, FileSystem.locate_pathTo, FileSystem.follow, Listing.walk,
      Listing.walkItems, Listing.deeper?, FileSystem.entry?, FileSystem.entryBelow?, hlevel, hitems]
    decide +kernel
  have hshown : (([["a.py"], ["z\\..\\a.py"]] : List Place).filter
      (Listing.wants (new {}).policy {} none)).map Place.slashed = ["a.py", "z/../a.py"] := by
    decide +kernel
  have horder : "a.py" ≤ "z/../a.py" := by decide
  have hglob : Listing.globOf ({} : Listing.Options).pattern = .ok none := rfl
  rw [Policy.list_eq hglob, Listing.visited]
  change Except.ok ((((Listing.filesBelow twinAround.files (new {}).policy none []).filter
    _).map Place.slashed).mergeSort _) = _
  rw [hwalk, hshown]
  simp [List.mergeSort, List.MergeSort.Internal.splitInTwo, horder]

/-- Both paths lead to the first file, which is read as the parser reads it. -/
theorem fresh_twin {path : String} (h : path ∈ ["a.py", "z/../a.py"])
    {parser : Syntax.Parser Language} {tree : Syntax.Tree}
    (htree : parser .python [120] = some tree) :
    fresh (new {}).policy { twinAround with parser } demo .python path =
      .ok { nestedDocument with tree } := by
  have hresolve : (new {}).policy.resolve twinAround.files demo path = .ok nestedFile := by
    have haccept : (new {}).policy.accept demo path = .ok (["a.py"] : Place) := by
      simp only [List.mem_cons, List.not_mem_nil, or_false] at h
      rcases h with rfl | rfl <;> decide +kernel
    have hfollow : twinAround.files.follow FileSystem.linkLimit [] [.name "a.py"] =
        .ok (["a.py"] : Place) := by
      simp [FileSystem.follow, FileSystem.linkLimit, FileSystem.entry?, FileSystem.entryBelow?,
        twinAround]
    simp only [Policy.resolve, haccept, FileSystem.locate_pathTo, bind, Except.bind]
    simp [demo, hfollow]
    rfl
  have hoctets : (new {}).policy.readBytes twinAround.files nestedFile = .ok [120] := rfl
  simp only [fresh, hresolve, hoctets, bind, Except.bind, Cache.read, htree]
  rfl

theorem fresh_twinAround {path : String} (h : path ∈ ["a.py", "z/../a.py"]) :
    fresh (new {}).policy twinAround demo .python path = .ok nestedDocument :=
  fresh_twin h rfl

theorem inLanguage_twin :
    inLanguage .python ["a.py", "z/../a.py"] = ["a.py", "z/../a.py"] := by
  decide +kernel

/-- The hits of both files come under the one path by which the first file is shown, so in the
project those that start together stand together. -/
theorem runQuery_two_names :
    (rootSpace twinAround).policy.list twinAround.files demo {} = .ok ["a.py", "z/../a.py"] ∧
    ((runQuery "demo" "(return_statement) @r" (some "python") none none).run twinAround
      (rootSpace twinAround)).1 = .ok [
        hitAt "r" "return_statement" 4 5, hitAt "r" "return_statement" 4 5,
        hitAt "r" "return_statement" 6 8, hitAt "r" "return_statement" 6 8] ∧
    (inLanguage .python ["a.py", "z/../a.py"]).flatMap
      (part "demo" "(return_statement) @r" "python" none twinAround (rootSpace twinAround)) = [
        hitAt "r" "return_statement" 4 5, hitAt "r" "return_statement" 6 8,
        hitAt "r" "return_statement" 4 5, hitAt "r" "return_statement" 6 8] := by
  have hw := alike_rootSpace alike_twinAround
  have hpolicy := policy_rootSpace twinAround rfl
  have hproject := project_rootSpace twinAround rfl
  have hlanguage := get_python_rootSpace twinAround rfl
  have hlimit : (rootSpace twinAround).limit none = 100 := by
    rw [rootSpace_eq rfl]
    rfl
  have hlisted : (rootSpace twinAround).policy.list twinAround.files demo {} =
      .ok ["a.py", "z/../a.py"] := by
    rw [hpolicy]
    exact list_twinAround
  have hpaths : (rootSpace twinAround).policy.listLanguage twinAround.files demo .python =
      .ok ["a.py", "z/../a.py"] := by
    rw [Policy.listLanguage, hlisted]
    exact congrArg Except.ok inLanguage_twin
  have hfresh (path : String) (h : path ∈ ["a.py", "z/../a.py"]) :
      freshList (rootSpace twinAround).policy twinAround demo .python path = [nestedDocument] := by
    rw [freshList, hpolicy, fresh_twinAround h]
    rfl
  refine ⟨hlisted, ?_, ?_⟩
  · have hself (hit : Query.Hit) : hitNoLater hit hit = true :=
      hitNoLater_iff.mpr (.inr ⟨rfl, Nat.le_refl _⟩)
    have hyes : hitNoLater (hitAt "r" "return_statement" 4 5)
        (hitAt "r" "return_statement" 6 8) = true := rfl
    have hno : hitNoLater (hitAt "r" "return_statement" 6 8)
        (hitAt "r" "return_statement" 4 5) = false := rfl
    rw [run_runQuery, run_queried alike_twinAround hw hproject hlanguage compile_returns hpaths]
    simp [Except.map, hlimit, firstHits, hfresh, Query.Hit.collect, all_returns, List.mergeSort,
      List.MergeSort.Internal.splitInTwo, hself, hyes, hno]
  · have hyes : startsNoLater (hitAt "r" "return_statement" 4 5)
        (hitAt "r" "return_statement" 6 8) = true := by decide
    rw [inLanguage_twin]
    simp [part_eq alike_twinAround hw hproject hlanguage compile_returns, collected, hfresh, hlimit,
      Query.Hit.collect, all_returns, List.mergeSort, hyes]

end Workspace

end CodeAtlas
