import CodeAtlas.Proofs.Workspace.Parts

/-!
# How a path is spelled

A place of a project can be written in many ways: with dots, with steps to and fro, with slashes
that take no step, or from the root of the file system on.  What is read, kept and told of a file
goes by its place, so a question about a file comes to the same however its path is spelled.

The language of a file is the exception.  It is looked for in the path as it is written, before the
steps are taken, and there it is only found if the path ends with a name.  A path that ends with a
step to the parent leads to a file as well, and the metadata of the file tell its language; but no
question that depends on it is answered.
-/

namespace CodeAtlas

/-! ## Paths to one place -/

namespace Path

/-- The path ends with a name, and not with a step to the parent. -/
def Named (path : String) : Prop :=
  (ofString path).fileName?.isSome = true

/-- The last step of a path that ends with a name goes there. -/
theorem getLast?_resolve {p : Path} {s : RawText} (h : p.fileName? = some s) (root : Place) :
    (resolve root p).getLast? = some s := by
  unfold fileName? at h
  split at h
  · rename_i t hlast
    cases h
    obtain ⟨before, hsteps⟩ := List.getLast?_eq_some_iff.mp hlast
    rw [resolve, hsteps, List.foldl_append]
    simp [advance]
  · cases h

end Path

/-- The paths lead from the project to the same place by their steps. -/
def Project.LeadAlike (p : Project) (path path' : String) : Prop :=
  Path.resolve p.root (Path.ofString path) = Path.resolve p.root (Path.ofString path')

variable {p : Project} {path path' : String}

theorem Language.ofPath?_of_not_named (h : ¬ Path.Named path) :
    Language.ofPath? (Path.ofString path) = none := by
  have hnone : (Path.ofString path).fileName? = none := by simpa [Path.Named] using h
  rw [ofPath?, Path.extension?, hnone]
  rfl

theorem Project.LeadAlike.ofPath?_eq (h : p.LeadAlike path path')
    (hends : Path.Named path ↔ Path.Named path') :
    Language.ofPath? (Path.ofString path) = Language.ofPath? (Path.ofString path') := by
  by_cases hnamed : Path.Named path
  · obtain ⟨s, hs⟩ := Option.isSome_iff_exists.mp hnamed
    obtain ⟨t, ht⟩ := Option.isSome_iff_exists.mp (hends.mp hnamed)
    have hlast := Path.getLast?_resolve hs p.root
    rw [h, Path.getLast?_resolve ht] at hlast
    rw [Language.ofPath?, Language.ofPath?, Path.extension?, Path.extension?, hs, ht, hlast]
  · rw [Language.ofPath?_of_not_named hnamed,
      Language.ofPath?_of_not_named fun hnamed' => hnamed (hends.mpr hnamed')]

/-- What is done with the result of two outcomes that differ in their errors alone. -/
theorem Except.toOption_bind {ε α β : Type} {outcome outcome' : Except ε α}
    (h : outcome.toOption = outcome'.toOption) (f : α → Except ε β) :
    (outcome >>= f).toOption = (outcome' >>= f).toOption := by
  cases outcome <;> cases outcome' <;> cases h <;> rfl

namespace Policy

theorem accept_eq_ok_iff (h : p.LeadAlike path path') (policy : Policy) (relative : Place) :
    policy.accept p path = .ok relative ↔ policy.accept p path' = .ok relative := by
  unfold accept
  rw [h]
  split
  · simp
  · split
    · simp
    · split
      · simp
      · split <;> simp

/-- A path is judged and followed by its place, and only its refusal shows how it was spelled. -/
theorem toOption_resolve (h : p.LeadAlike path path') (policy : Policy) (fs : FileSystem) :
    (policy.resolve fs p path).toOption = (policy.resolve fs p path').toOption := by
  unfold resolve
  cases haccept : policy.accept p path with
  | ok relative =>
    rw [(accept_eq_ok_iff h policy relative).mp haccept]
    simp only [bind, Except.bind]
    split
    · rfl
    · split
      · rfl
      · simp only [pure, Except.pure]
        split
        · rfl
        · split <;> rfl
  | error e =>
    cases haccept' : policy.accept p path' with
    | ok relative =>
      rw [(accept_eq_ok_iff h policy relative).mpr haccept'] at haccept
      cases haccept
    | error e' => rfl

/-- A name at the end of a path is the name of the file, so both show the same language. -/
theorem ofPath?_of_resolve {policy : Policy} {fs : FileSystem} {file : FileRef}
    (h : policy.resolve fs p path = .ok file) (hends : Path.Named path) :
    Language.ofPath? (Path.ofString path) =
      (file.relative.extension?.bind RawText.text?).bind Language.ofExtension? := by
  have accepted := accepted_of_accept (resolved_of_resolve h).accepted
  obtain ⟨s, hs⟩ := Option.isSome_iff_exists.mp hends
  have hlast : file.relative.getLast? = some s := by
    rw [← Path.getLast?_resolve hs p.root, accepted.leads,
      List.getLast?_append_of_ne_nil p.root accepted.nonempty]
  rw [Language.ofPath?, Path.extension?, Place.extension?, hs, hlast]

end Policy

namespace Language.Registry

variable {registry : Registry}

theorem forPath_of_not_named (h : ¬ Path.Named path) :
    registry.forPath path = (.error (.languageNotDetected path), registry) := by
  rw [forPath, ofPath?_of_not_named h]

/-- If no language is found for either path, the failures differ in the path that they show. -/
theorem toOption_forPath (registry : Registry)
    (h : ofPath? (Path.ofString path) = ofPath? (Path.ofString path')) :
    (registry.forPath path).1.toOption = (registry.forPath path').1.toOption ∧
      (registry.forPath path).2 = (registry.forPath path').2 := by
  unfold forPath
  rw [h]
  split <;> exact ⟨rfl, rfl⟩

end Language.Registry

/-- Whether it was kept or read anew, a document is in the language that it was asked for in. -/
theorem Cache.language_of_get {c : Cache} {parser : Syntax.Parser Language} {now : Nat}
    {file : FileRef} {source : List UInt8} {l : Language} {d : Document}
    (h : (c.get parser now file source l).1 = .ok d) : d.language = l := by
  have hread {d : Document} (h : Cache.read parser file source l = .ok d) : d.language = l := by
    obtain ⟨tree, -, rfl⟩ := Cache.eq_of_read h
    rfl
  rcases hget : c.get parser now file source l with ⟨answer, left⟩
  rw [hget] at h
  cases Cache.gets hget with
  | off hoff => exact hread h
  | hit hon ha =>
    cases h
    obtain ⟨-, hanswers⟩ := Option.filter_eq_some_iff.mp ha
    simp only [Slot.answers, Bool.and_eq_true, decide_eq_true_eq] at hanswers
    exact hanswers.1.2
  | unread hon ha hr => cases h
  | refused hon ha hr hp =>
    cases h
    exact hread hr
  | stored hon ha hr hp =>
    cases h
    exact hread hr

/-! ## Calls that come to the same -/

/-- The calls succeed together with the same result, and leave the same behind.  If they fail, it
may be with different errors. -/
structure Work.Same {α : Type} (around : Surroundings) (w : Workspace) (x y : Work α) : Prop where
  answer : (x.run around w).1.toOption = (y.run around w).1.toOption
  left : (x.run around w).2 = (y.run around w).2

namespace Work.Same

variable {α β : Type} {around : Surroundings} {w : Workspace} {x y : Work α}

theorem refl (x : Work α) : Same around w x x := ⟨rfl, rfl⟩

/-- What follows is only carried out after a success, with what that has left. -/
theorem bind {f g : α → Work β} (hxy : Same around w x y)
    (hfg : ∀ a v, x.run around w = (.ok a, v) → Same around v (f a) (g a)) :
    Same around w (x >>= f) (y >>= g) := by
  obtain ⟨hanswer, hleft⟩ := hxy
  rcases hx : x.run around w with ⟨e | a, v⟩ <;> rcases hy : y.run around w with ⟨e' | b, u⟩ <;>
    rw [hx, hy] at hanswer hleft
  · constructor <;> rw [run_bind, run_bind, hx, hy]
    · rfl
    · exact hleft
  · cases hanswer
  · cases hanswer
  · cases hanswer
    cases hleft
    constructor <;> rw [run_bind, run_bind, hx, hy]
    · exact (hfg a v hx).answer
    · exact (hfg a v hx).left

theorem bind_left {f : α → Work β} (h : Same around w x y) :
    Same around w (x >>= f) (y >>= f) :=
  h.bind fun _ _ _ => refl _

theorem ok {a : α} (h : Same around w x y) (ha : (x.run around w).1 = .ok a) :
    (y.run around w).1 = .ok a := by
  have hanswer := h.answer
  rw [ha] at hanswer
  cases hy : (y.run around w).1 with
  | ok b =>
    rw [hy] at hanswer
    cases hanswer
    rfl
  | error e =>
    rw [hy] at hanswer
    cases hanswer

end Work.Same

/-- The call does not succeed. -/
def Work.Fails {α : Type} (around : Surroundings) (w : Workspace) (x : Work α) : Prop :=
  ∃ e, (x.run around w).1 = .error e

namespace Work.Fails

variable {α β : Type} {around : Surroundings} {w : Workspace} {x : Work α} {f : α → Work β}

theorem bind (h : Fails around w x) (f : α → Work β) : Fails around w (x >>= f) := by
  obtain ⟨e, he⟩ := h
  rcases hx : x.run around w with ⟨_ | _, v⟩ <;> rw [hx] at he <;> cases he
  exact ⟨e, by rw [run_bind, hx]⟩

/-- If what follows a success fails, then the whole does. -/
theorem after (x : Work α) (h : ∀ a v, x.run around w = (.ok a, v) → Fails around v (f a)) :
    Fails around w (x >>= f) := by
  rcases hx : x.run around w with ⟨e | a, v⟩
  · exact ⟨e, by rw [run_bind, hx]⟩
  · obtain ⟨e, he⟩ := h a v hx
    exact ⟨e, by rw [run_bind, hx]; exact he⟩

end Work.Fails

namespace Workspace

open Work (Same Fails)

variable {around : Surroundings} {w : Workspace} {name : String}

theorem same_languageFor (asked : Option String)
    (h : asked = none → Language.ofPath? (Path.ofString path) =
      Language.ofPath? (Path.ofString path')) :
    Same around w (languageFor path asked) (languageFor path' asked) := by
  cases asked with
  | some l => exact .refl _
  | none =>
    obtain ⟨hanswer, hleft⟩ := Language.Registry.toOption_forPath w.languages (h rfl)
    constructor <;> rw [run_languageFor_none, run_languageFor_none]
    · exact hanswer
    · rw [hleft]

/-- A look at the files comes to the same if what is looked for does. -/
theorem same_look {α : Type} {f g : Policy → FileSystem → Except Error α}
    (h : ∀ policy files, (f policy files).toOption = (g policy files).toOption) :
    Same around w (do f (← get).policy (← read).files) (do g (← get).policy (← read).files) := by
  constructor <;> simp [Work.run_bind, h]

/-- A call on a project is only carried out with a project of that name. -/
theorem same_in_project {α : Type} {f g : Project → Work α}
    (h : ∀ p, w.projects.get name = .ok p → Same around w (f p) (g p)) :
    Same around w (project name >>= f) (project name >>= g) := by
  refine (Same.refl _).bind fun p v hv => ?_
  rw [run_project] at hv
  obtain ⟨hp, rfl⟩ := Prod.mk.inj hv
  exact h p hp

theorem same_resolve (h : p.LeadAlike path path') :
    Same around w (resolve p path) (resolve p path') :=
  same_look fun policy files => Policy.toOption_resolve h policy files

theorem same_documentAt {asked : Option String} (h : p.LeadAlike path path')
    (hends : asked = none → (Path.Named path ↔ Path.Named path')) :
    Same around w (documentAt p path asked) (documentAt p path' asked) := by
  refine (same_resolve h).bind fun file v _ => ?_
  exact (same_languageFor asked fun hasked => h.ofPath?_eq (hends hasked)).bind_left

/-! ## Questions about a file -/

/-- What can be asked about one file, and what is answered. -/
inductive Question : Type → Type
  | text (startLine maxLines : Option Nat) : Question FileContent
  | metadata : Question FileMetadata
  | outline (r : OutlineRequest) : Question OutlineReport
  | nodesAt (position : Syntax.Point) (asked : Option String) : Question PositionReport
  | symbols : Question Analysis.Symbols
  | complexity : Question Analysis.Complexity
  | dependencies : Question Analysis.Dependencies
  | query (source : String) (asked : Option String) (count : Option Nat) :
    Question (List Query.Hit)

namespace Question

variable {α : Type}

def put (name path : String) : Question α → Work α
  | text startLine maxLines => readFile name path startLine maxLines
  | metadata => fileMetadata name path
  | outline r => Workspace.outline name path r
  | nodesAt position asked => Workspace.nodesAt name path position asked
  | symbols => Workspace.symbols name path
  | complexity => Workspace.complexity name path
  | dependencies => Workspace.dependencies name path
  | query source asked count => runQuery name source asked (some path) count

/-- The language is looked for in the path. -/
def Detects : Question α → Prop
  | text .. | metadata => False
  | outline r => r.language = none
  | nodesAt _ asked | query _ asked _ => asked = none
  | symbols | complexity | dependencies => True

end Question

theorem same_document {asked : Option String}
    (h : ∀ p, w.projects.get name = .ok p → p.LeadAlike path path')
    (hends : asked = none → (Path.Named path ↔ Path.Named path')) :
    Same around w (document name path asked) (document name path' asked) :=
  same_in_project fun p hp => same_documentAt (h p hp) hends

theorem same_put {α : Type} (q : Question α)
    (h : ∀ p, w.projects.get name = .ok p → p.LeadAlike path path')
    (hends : q.Detects → (Path.Named path ↔ Path.Named path')) :
    Same around w (q.put name path) (q.put name path') := by
  cases q with
  | text startLine maxLines =>
    refine same_in_project fun p hp => same_look
      (f := fun policy files => policy.readText files p path startLine maxLines)
      (g := fun policy files => policy.readText files p path' startLine maxLines) fun policy files =>
        Except.toOption_bind (Policy.toOption_resolve (h p hp) policy files) _
  | metadata =>
    refine same_in_project fun p hp => same_look
      (f := fun policy files => policy.metadata files p path)
      (g := fun policy files => policy.metadata files p path') fun policy files =>
        Except.toOption_bind (Policy.toOption_resolve (h p hp) policy files) _
  | outline r => exact (same_document h hends).bind_left
  | nodesAt position asked => exact (same_document h hends).bind_left
  | symbols => exact (same_document h fun _ => hends trivial).bind_left
  | complexity => exact (same_document h fun _ => hends trivial).bind_left
  | dependencies => exact (same_document h fun _ => hends trivial).bind_left
  | query source asked count =>
    refine same_in_project fun p hp => .bind (.refl _) fun _ _ _ => ?_
    have hlanguage (v : Workspace) :
        Same around v (queryLanguage asked (some path)) (queryLanguage asked (some path')) := by
      cases asked with
      | some l => exact .refl _
      | none => exact same_languageFor none fun _ => (h p hp).ofPath?_eq (hends rfl)
    refine (hlanguage _).bind fun l _ _ => .bind (.refl _) fun q _ _ => ?_
    exact (same_documentAt (h p hp) (by simp)).bind_left

/-! ## The language of a file -/

theorem fails_languageFor (hends : ¬ Path.Named path) : Fails around w (languageFor path none) :=
  ⟨.languageNotDetected path, by
    rw [run_languageFor_none, Language.Registry.forPath_of_not_named hends]⟩

theorem fails_document (hends : ¬ Path.Named path) :
    Fails around w (document name path none) :=
  .after _ fun p _ _ => .after (resolve p path) fun _ _ _ => (fails_languageFor hends).bind _

theorem fails_put {α : Type} {q : Question α} (hq : q.Detects) (hends : ¬ Path.Named path) :
    Fails around w (q.put name path) := by
  cases q with
  | text | metadata => exact hq.elim
  | outline r =>
    refine Fails.bind ?_ _
    rw [show r.language = none from hq]
    exact fails_document hends
  | nodesAt position asked =>
    obtain rfl := hq
    exact (fails_document hends).bind _
  | symbols | complexity | dependencies => exact (fails_document hends).bind _
  | query source asked count =>
    obtain rfl := hq
    exact .after _ fun _ _ _ => .after _ fun _ _ _ => (fails_languageFor hends).bind _

/-- The language that a file is read in is the one that its metadata tell. -/
theorem metadata_of_document {d : Document}
    (h : ((document name path none).run around w).1 = .ok d) :
    ∃ m, ((fileMetadata name path).run around w).1 = .ok m ∧ m.language = some d.language := by
  have hends : Path.Named path := by
    by_contra hends
    obtain ⟨e, he⟩ : Fails around w (document name path none) := fails_document hends
    rw [he] at h
    cases h
  obtain ⟨p, hproject, h⟩ := Work.ok_of_bind (run_project around w name) h
  obtain ⟨file, hfile, h⟩ := Work.ok_of_bind (run_resolve around w p path) h
  obtain ⟨l, hlanguage, h⟩ := Work.ok_of_bind (run_languageFor_none around w path) h
  rw [run_documentOf, policy_withLanguages] at h
  cases hsource : w.policy.readBytes around.files file with
  | error e =>
    rw [hsource] at h
    cases h
  | ok source =>
    rw [hsource] at h
    have hmetadata : ((fileMetadata name path).run around w).1 =
        w.policy.metadata around.files p path := by
      simp [fileMetadata, Work.run_bind, hproject]
    rw [hmetadata, Policy.metadata, hfile]
    dsimp only [bind, Except.bind]
    rw [hsource]
    refine ⟨_, rfl, ?_⟩
    dsimp only
    rw [← Policy.ofPath?_of_resolve hfile hends, Cache.language_of_get h]
    exact Language.Registry.ofPath?_of_forPath hlanguage

/-- **What is said of a file goes by its place.**  Take two paths that lead to one place of a
project.  A question that leaves the language open comes to the same for both if both end with a
name or neither does, and any other question always does.  If a path does not end with a name, then
no question that leaves the language open has an answer.  And the language in which an outline is
given, if it was left open, is the one that the metadata tell. -/
theorem answers_by_place (h : ∀ p, w.projects.get name = .ok p → p.LeadAlike path path') :
    (∀ (α : Type) (q : Question α), (q.Detects → (Path.Named path ↔ Path.Named path')) →
      Same around w (q.put name path) (q.put name path')) ∧
    (∀ (α : Type) (q : Question α), q.Detects → ¬ Path.Named path →
      Fails around w (q.put name path)) ∧
    ∀ r report, r.language = none → ((outline name path r).run around w).1 = .ok report →
      ∃ m, ((fileMetadata name path').run around w).1 = .ok m ∧
        m.language = some report.document.language := by
  refine ⟨fun α q hends => same_put q h hends, fun α q hq hends => fails_put hq hends, ?_⟩
  intro r report hr hreport
  obtain ⟨d, hd, hreport⟩ := Work.ok_of_bind rfl hreport
  obtain rfl : d = report.document := by cases hreport; rfl
  rw [hr] at hd
  obtain ⟨m, hm, hlanguage⟩ := metadata_of_document hd
  exact ⟨m, (same_put .metadata h False.elim).ok hm, hlanguage⟩

/-! ### A file with and without its name

The one file there is lies in the root directory, which is the project.  The first step of a detour
need not lead to anything, since it is taken back. -/

/-- A way out and back, at the beginning and at the end of a path. -/
theorem detours :
    demo.LeadAlike "a.py" "x/../a.py" ∧ demo.LeadAlike "a.py" "a.py/x/.." ∧
    Path.Named "a.py" ∧ Path.Named "x/../a.py" ∧ ¬ Path.Named "a.py/x/.." ∧
    Language.ofPath? (Path.ofString "a.py") = some .python ∧
    (new {}).policy.readBytes nestedAround.files nestedFile = .ok [120] := by
  simp only [Project.LeadAlike, Path.Named]
  decide +kernel

theorem fresh_nested {path : String} (h : demo.LeadAlike "a.py" path) :
    fresh (new {}).policy nestedAround demo .python path = .ok nestedDocument := by
  have hresolve : (new {}).policy.resolve nestedAround.files demo path = .ok nestedFile := by
    have hsame := Policy.toOption_resolve h (new {}).policy nestedAround.files
    rw [show (new {}).policy.resolve nestedAround.files demo "a.py" = .ok nestedFile from
      resolve_nested] at hsame
    cases hfile : (new {}).policy.resolve nestedAround.files demo path with
    | error e =>
      rw [hfile] at hsame
      cases hsame
    | ok file =>
      rw [hfile] at hsame
      cases hsame
      rfl
  obtain ⟨-, -, -, -, -, -, hoctets⟩ := detours
  simp only [fresh, hresolve, hoctets, bind, Except.bind]
  rfl

theorem leadAlike_rootSpace {path path' : String} (h : demo.LeadAlike path path') (p : Project)
    (hp : (rootSpace nestedAround).projects.get "demo" = .ok p) : p.LeadAlike path path' := by
  rw [project_rootSpace _ rfl] at hp
  cases hp
  exact h

/-- An outline of the file, as long as its name ends the path. -/
theorem outline_nested {path : String} (h : demo.LeadAlike "a.py" path) (hends : Path.Named path) :
    ∃ report, ((outline "demo" path {}).run nestedAround (rootSpace nestedAround)).1 = .ok report ∧
      report.document = nestedDocument := by
  obtain ⟨-, -, hnamed, -, -, hpython, -⟩ := detours
  have hpath : Language.ofPath? (Path.ofString path) = some .python := by
    rwa [← h.ofPath?_eq (iff_of_true hnamed hends)]
  have hfor : ((rootSpace nestedAround).languages.forPath path).1 = .ok .python := by
    rw [Language.Registry.forPath, hpath]
    exact get_python_rootSpace _ rfl
  have hlanguage := run_languageFor_none nestedAround (rootSpace nestedAround) path
  rw [hfor] at hlanguage
  have hat := run_documentAt alike_nestedAround (alike_rootSpace alike_nestedAround) hlanguage demo
  rw [policy_rootSpace _ rfl, fresh_nested h] at hat
  have hdocument : ((document "demo" path none).run nestedAround (rootSpace nestedAround)).1 =
      .ok nestedDocument := by
    rw [document, Work.run_bind, run_project, project_rootSpace _ rfl]
    exact hat
  rcases hrun : (document "demo" path none).run nestedAround (rootSpace nestedAround) with
    ⟨answer, left⟩
  rw [hrun] at hdocument
  obtain rfl : answer = .ok nestedDocument := hdocument
  exact ⟨_, by rw [outline, Work.run_bind, hrun]; rfl, rfl⟩

theorem answers_by_place_detour :
    (∀ p, (rootSpace nestedAround).projects.get "demo" = .ok p →
      p.LeadAlike "a.py" "x/../a.py") ∧
    (∀ (α : Type) (q : Question α), Same nestedAround (rootSpace nestedAround)
      (q.put "demo" "a.py") (q.put "demo" "x/../a.py")) ∧
    ∃ report, ((outline "demo" "x/../a.py" {}).run nestedAround (rootSpace nestedAround)).1 =
      .ok report ∧ report.document = nestedDocument := by
  obtain ⟨hlead, -, hnamed, hnamed', -⟩ := detours
  refine ⟨leadAlike_rootSpace hlead, fun α q => ?_, outline_nested hlead hnamed'⟩
  exact (answers_by_place (leadAlike_rootSpace hlead)).1 α q fun _ => iff_of_true hnamed hnamed'

/-- A path that ends with a step back leads to the file, and its metadata tell the language that no
outline finds. -/
theorem outline_of_unnamed_path :
    demo.LeadAlike "a.py" "a.py/x/.." ∧
    (∃ report, ((outline "demo" "a.py" {}).run nestedAround (rootSpace nestedAround)).1 =
      .ok report) ∧
    (∃ m, ((fileMetadata "demo" "a.py/x/..").run nestedAround (rootSpace nestedAround)).1 = .ok m ∧
      m.language = some .python) ∧
    ∃ e, ((outline "demo" "a.py/x/.." {}).run nestedAround (rootSpace nestedAround)).1 =
      .error e := by
  obtain ⟨-, hlead, hnamed, -, hunnamed, -⟩ := detours
  have hself : demo.LeadAlike "a.py" "a.py" := rfl
  obtain ⟨report, hreport, hdocument⟩ := outline_nested hself hnamed
  obtain ⟨d, hd, hreport'⟩ := Work.ok_of_bind rfl hreport
  obtain ⟨m, hm, hlanguage⟩ := metadata_of_document hd
  obtain rfl : d = report.document := by cases hreport'; rfl
  refine ⟨hlead, ⟨report, hreport⟩, ⟨m, ?_, ?_⟩, fails_put (q := .outline {}) rfl hunnamed⟩
  · exact (same_put .metadata (leadAlike_rootSpace hlead) False.elim).ok hm
  · rw [hlanguage, hdocument]
    rfl

end Workspace

end CodeAtlas
