import CodeAtlas.Launch
import CodeAtlas.Proofs.Project.Registration
import CodeAtlas.Proofs.Server.Sessions
import CodeAtlas.Proofs.Workspace.Coherence

/-!
# Failed calls change nothing

A call of a tool fails if the request is refused, or if its result says that it is an error.  This
file shows what a failed call leaves behind: the projects and the cache of the server as they were,
to the last tick and count.  The one tool that may have asked the cache by then is the one for the
nodes at a position.

There is one exception, and it is told apart by its error.  A project is registered before it is
shown, and a project whose root has a name that is no text cannot be shown.  Its registration is
carried out to the end and told to have failed (`unchanged_of_failed`, `nameless_registered`).

Most of it is about the tools that only read, and follows from their effects: whatever can fail does
so before the cache is asked.  Once there is a document nothing fails any more, as long as the
languages that a server remembers as failed are none, which every line keeps so.
-/

namespace CodeAtlas

/-! ## Calls that change something -/

/-- The call is carried out or fails without a trace, and has nothing to do with languages. -/
structure Work.Atomic {α : Type} (x : Work α) : Prop where
  languages : ∀ around w, (x.run around w).2.languages = w.languages
  unchanged : ∀ around w error, (x.run around w).1 = .error error → (x.run around w).2 = w

namespace Workspace

theorem atomic_remove (name : String) : (remove name).Atomic := by
  constructor
  · intro around w
    rw [run_remove]
  · intro around w error herror
    rw [run_remove] at herror
    cases herror

theorem atomic_clearCache (name : Option String) : (clearCache name).Atomic := by
  cases name with
  | none =>
    constructor
    · intro around w
      rw [run_clearCache_none]
    · intro around w error herror
      rw [run_clearCache_none] at herror
      cases herror
  | some name =>
    constructor
    · intro around w
      rw [run_clearCache_some]
      split <;> rfl
    · intro around w error herror
      rw [run_clearCache_some] at herror ⊢
      split at herror
      · rfl
      · cases herror

end Workspace

/-! ## Projects that cannot be shown -/

/-- What is told of a project that cannot be shown. -/
def Project.unshown : Error := .serialization "path contains invalid UTF-8 characters"

theorem Project.toValue_eq_error_iff {p : Project} {error : Error} :
    p.toValue = .error error ↔ p.root.text? = none ∧ error = Project.unshown := by
  rw [Project.toValue]
  cases p.root.text? <;> simp [Project.unshown, eq_comm]

/-- A project whose root is no text was registered under a name that was free. -/
structure Workspace.RegisteredUnshown (w w' : Workspace) (p : Project) : Prop where
  root : p.root.text? = none
  free : w.projects.contains p.name = false
  eq : w' = { w with projects := w.projects.insert p, cache := w.cache.activate p.name }

namespace Server

/-- The tool that fails when it has asked for the document. -/
def lateTool : String := "get_node_at_position"

/-- The projects are what they were, and so is the cache, unless the tool is the one that may fail
late. -/
structure Unchanged (tool? : Option String) (w w' : Workspace) : Prop where
  projects : w'.projects = w.projects
  cache : tool? ≠ some lateTool → w'.cache = w.cache

theorem Unchanged.refl (tool? : Option String) (w : Workspace) : Unchanged tool? w w :=
  ⟨rfl, fun _ => rfl⟩

/-! ## Work -/

/-- What is true of the work of a tool. -/
structure Orderly (tool : String) (work : Work Json.Value) : Prop where
  /-- No language is remembered as failed. -/
  sound : ∀ around w, w.languages.Sound → (work.run around w).2.languages.Sound
  failed : ∀ (around : Surroundings) (w : Workspace), around.parser.Total →
    w.languages.Sound → ∀ error, (work.run around w).1 = .error error →
      Unchanged tool w (work.run around w).2 ∨
        tool = Tool.registerProject.name ∧ error = Project.unshown ∧
          ∃ p, w.RegisteredUnshown (work.run around w).2 p

namespace Tool

variable {α : Type} {tool : String} {x : Work α} {toValue : α → Json.Value}
  {work : Work Json.Value}

/-- Work that changes no project is judged by its effect. -/
theorem orderly_of_does {e : Effect} {Q : Json.Value → Prop} (hwork : ∀ ps, Work.Does ps e work Q)
    (hlate : e.late = true → tool = lateTool) : Orderly tool work := by
  constructor
  · intro around w hsound
    exact (hwork w.projects around w rfl).reads.languages hsound
  · intro around w htotal hsound error herror
    have hran := hwork w.projects around w rfl
    refine .inl ⟨hran.reads.projects, fun htool => ?_⟩
    have hearly : e.late = false :=
      eq_false_of_ne_true fun he => htool (congrArg some (hlate he))
    exact hran.early hearly htotal hsound error herror

theorem orderly_of_shown {e : Effect} {Q : α → Prop} (h : shown toValue x = .ok work)
    (hx : ∀ ps, Work.Does ps e x Q) (hlate : e.late = true → tool = lateTool) :
    Orderly tool work := by
  cases h
  exact orderly_of_does (fun ps => (hx ps).map (R := fun _ => True) fun _ _ => trivial) hlate

theorem orderly_of_shown_atomic (h : shown toValue x = .ok work) (hx : x.Atomic) :
    Orderly tool work := by
  cases h
  constructor
  · intro around w hsound
    rw [Work.run_map, hx.languages]
    exact hsound
  · intro around w _ _ error herror
    rw [Work.run_map] at herror ⊢
    have hfailed : ∃ error, (x.run around w).1 = .error error := by
      cases houtcome : (x.run around w).1 with
      | ok a =>
        rw [houtcome] at herror
        cases herror
      | error error => exact ⟨error, rfl⟩
    obtain ⟨error, hfailed⟩ := hfailed
    dsimp only
    rw [hx.unchanged around w error hfailed]
    exact .inl (.refl _ _)

/-- A tool that only reads, and asks the cache when nothing can fail any more. -/
theorem orderly_of_shown_early {e : Effect} {Q : α → Prop} (h : shown toValue x = .ok work)
    (hx : ∀ ps, Work.Does ps e x Q) (hlate : e.late = false) : Orderly tool work :=
  orderly_of_shown h hx fun he => by rw [hlate] at he; cases he

/-- A registration is carried out or fails without a trace, and only then is the project shown. -/
theorem orderly_register {path : String} {name description : Option String}
    (h : shownIf Project.toValue (Workspace.register path name description) = .ok work) :
    Orderly registerProject.name work := by
  cases h
  constructor
  · intro around w hsound
    rw [Work.run_bind, Workspace.run_register]
    cases w.projects.register around.files around.date path name description <;> exact hsound
  · intro around w _ _ error herror
    rw [Work.run_bind, Workspace.run_register] at herror ⊢
    cases hregister : w.projects.register around.files around.date path name description with
    | error refused =>
      rw [hregister] at herror
      exact .inl (.refl _ _)
    | ok registered =>
      obtain ⟨p, projects⟩ := registered
      obtain ⟨rfl, hfree⟩ := Projects.eq_insert_of_register hregister
      rw [hregister] at herror
      obtain ⟨hroot, rfl⟩ := Project.toValue_eq_error_iff.mp herror
      exact .inr ⟨rfl, rfl, p, hroot, hfree, rfl⟩

/-- Nothing has happened when one of the projects cannot be shown. -/
theorem orderly_listProjects {arguments} (h : listProjects.work arguments = .ok work) :
    Orderly tool work := by
  cases h
  refine orderly_of_does (e := .quiet) (Q := fun _ => True) (fun _ => ?_) (by rintro ⟨⟩)
  exact (Work.Does.look _).bind .quiet rfl fun _ _ => .lift fun _ _ => trivial

/-- **Every tool** leaves things in order. -/
theorem orderly_of_mem_all {t : Tool} (ht : t ∈ all) {arguments}
    (h : t.work arguments = .ok work) : Orderly t.name work := by
  cases ht using cases_all with
  | registerProject => exact orderly_register h
  | listProjects => exact orderly_listProjects h
  | removeProject => exact orderly_of_shown_atomic h (Workspace.atomic_remove _)
  | listLanguages => exact orderly_of_shown_early h (fun _ => .look _) rfl
  | checkLanguageAvailable =>
    exact orderly_of_shown_early h (fun _ => Workspace.does_available _ _) rfl
  | listFiles => exact orderly_of_shown_early h (fun _ => Workspace.does_listFiles _ _) rfl
  | getFile => exact orderly_of_shown_early h (fun _ => Workspace.does_readFile _ _ _ _) rfl
  | getFileMetadata => exact orderly_of_shown_early h (fun _ => Workspace.does_fileMetadata _ _) rfl
  | getAst =>
    obtain ⟨name, path, request, h⟩ := exists_outline_of_getAst h
    exact orderly_of_shown_early h (fun _ => Workspace.does_outline name path request) rfl
  | getNodeAtPosition =>
    exact orderly_of_shown h (fun _ => Workspace.does_nodesAt _ _ _ _) fun _ => rfl
  | findText => exact orderly_of_shown_early h (fun _ => Workspace.does_findText _ _ _ _) rfl
  | runQuery => exact orderly_of_shown_early h (fun _ => Workspace.does_runQuery _ _ _ _ _) rfl
  | listQueryTemplates => exact orderly_of_shown_early h (fun _ => Workspace.does_templates _) rfl
  | getQueryTemplate =>
    exact orderly_of_shown_early h (fun _ => .lift (Q := fun _ => True) fun _ _ => trivial) rfl
  | buildQuery => exact orderly_of_shown_early h (fun _ => Workspace.does_buildQuery _ _) rfl
  | adaptQuery => exact orderly_of_shown_early h (fun _ => Workspace.does_adaptQuery _ _ _) rfl
  | getNodeTypes => exact orderly_of_shown_early h (fun _ => Workspace.does_language _) rfl
  | getSymbols => exact orderly_of_shown_early h (fun _ => Workspace.does_symbols _ _) rfl
  | findUsage => exact orderly_of_shown_early h (fun _ => Workspace.does_findUsage _ _ _ _ _) rfl
  | analyzeProject => exact orderly_of_shown_early h (fun _ => Workspace.does_overview _) rfl
  | analyzeComplexity => exact orderly_of_shown_early h (fun _ => Workspace.does_complexity _ _) rfl
  | getDependencies => exact orderly_of_shown_early h (fun _ => Workspace.does_dependencies _ _) rfl
  | findSimilarCode =>
    exact orderly_of_shown_early h (fun _ => Workspace.does_findSimilar _ _ _ _ _) rfl
  | clearCache => exact orderly_of_shown_atomic h (Workspace.atomic_clearCache _)
  | diagnoseConfig => exact orderly_of_shown_early h (fun _ => .look _) rfl

end Tool

variable {around : Surroundings} {w w' : Workspace}

/-! ## Lines -/

/-- The languages stay in order, whatever comes in. -/
theorem sound_receive (line : String) (around : Surroundings) (h : w.languages.Sound) :
    (Launch.receive line around w).2.languages.Sound := by
  have hcall (parameters : Option Json.Value) :
      (callTool parameters around w).2.languages.Sound := by
    unfold callTool
    cases hwork : toolWork parameters with
    | error refusal => exact h
    | ok work =>
      obtain ⟨t, ht, -, arguments, hwork⟩ := exists_of_toolWork hwork
      exact (Tool.orderly_of_mem_all ht hwork).sound around w h
  have hperform (r : Request) : (perform r around w).2.languages.Sound := by
    unfold perform
    split
    · exact h
    · exact h
    · exact h
    · exact hcall r.parameters
    · exact h
  have hrespond (r : Request) : (respond r around w).2.languages.Sound := by
    unfold respond
    split
    · exact h
    · exact hperform r
  unfold Launch.receive
  split
  · exact h
  · unfold answer
    cases Request.read line.toList with
    | none => exact h
    | some r => exact hrespond r

/-- The workspaces that a server with a configuration comes to. -/
inductive Reachable (config : Config) : Workspace → Prop
  | start : Reachable config (.new config)
  | line {w : Workspace} (h : Reachable config w) (line : String) (around : Surroundings) :
    Reachable config (Launch.receive line around w).2

theorem Reachable.sound {config : Config} (h : Reachable config w) : w.languages.Sound := by
  induction h with
  | start => exact Language.Registry.sound_empty.preload _
  | line _ line around ih => exact sound_receive line around ih

/-! ## Failures -/

/-- The request was refused, or the result says that it is an error. -/
def Response.Failed (r : Response) : Prop :=
  match r.outcome with
  | .error _ => True
  | .ok v => v.get? "isError" = some (.bool true)

theorem perform_call {r : Request} (hr : r.method = "tools/call") :
    perform r around w = callTool r.parameters around w := by
  simp [perform, hr]

/-- **Failed calls change nothing, but for registrations that cannot be shown.**  Wherever a server
has come to and whatever the files are, if the response to a call of a tool tells of a failure, then
the projects are what they were, and, unless the tool is the one that may fail late, so is the
cache: its slots with their ticks, its footprint, what it is retired for, and all that it counts.
Otherwise the tool was to register a project, its root is no text, the response says that this
cannot be shown, and the project was registered nevertheless.  The parser is taken to find a tree in
everything. -/
theorem unchanged_of_failed {config : Config} (hw : Reachable config w)
    (hparser : around.parser.Total) {r : Request} (hr : r.method = "tools/call")
    {response : Response} (h : respond r around w = (some response, w'))
    (hfailed : response.Failed) :
    Unchanged r.tool? w w' ∨
      r.tool? = some Tool.registerProject.name ∧
        response.outcome = .ok (told (.error Project.unshown)) ∧
        ∃ p, w.RegisteredUnshown w' p := by
  unfold respond at h
  split at h
  · cases h
  · rw [perform_call hr] at h
    unfold callTool at h
    cases hwork : toolWork r.parameters with
    | error refusal =>
      rw [hwork] at h
      cases h
      exact .inl (.refl _ _)
    | ok work =>
      obtain ⟨t, ht, hname, arguments, hasked⟩ := exists_of_toolWork hwork
      have htool : r.tool? = some t.name := by rw [Request.tool?, if_pos hr, hname]
      have hcases := (Tool.orderly_of_mem_all ht hasked).failed around w hparser hw.sound
      rw [hwork] at h
      dsimp only at h
      generalize work.run around w = p at h hcases
      obtain ⟨outcome, v⟩ := p
      cases h
      cases outcome with
      | ok v => cases hfailed
      | error error =>
        rw [htool]
        rcases hcases error rfl with hunchanged | ⟨hregister, rfl, hregistered⟩
        · exact .inl hunchanged
        · exact .inr ⟨congrArg some hregister, rfl, hregistered⟩

/-! ### A call for a project that is not there -/

def ghostCall : Request where
  id := some (.nat 1)
  method := "tools/call"
  parameters := some (.object [
    ("name", .text "get_symbols"),
    ("arguments", .object [("project", .text "ghost"), ("path", .text "a.py")])])

def ghostAround : Surroundings where
  files := Session.oneFile [120] 7
  parser := Session.wholeParser
  now := 0
  date := "now"

theorem respond_ghostCall : respond ghostCall ghostAround (.new {}) = (some {
    id := .nat 1, outcome := .ok (told (.error (.projectNotFound "ghost"))) }, .new {}) := rfl

theorem unchanged_of_failed_ghostCall : ∃ response w',
    Reachable {} (.new {}) ∧ ghostAround.parser.Total ∧ ghostCall.method = "tools/call" ∧
    respond ghostCall ghostAround (.new {}) = (some response, w') ∧ response.Failed ∧
    Unchanged ghostCall.tool? (.new {}) w' := by
  have hparser : ghostAround.parser.Total := fun _ _ => rfl
  refine ⟨_, _, .start, hparser, rfl, respond_ghostCall, rfl, ?_⟩
  rcases unchanged_of_failed .start hparser rfl respond_ghostCall rfl with h | ⟨htool, -⟩
  · exact h
  · exact absurd htool (by decide)

/-! ### A directory whose name is no text -/

/-- The octet is the beginning of no character. -/
def namelessDirectory : RawText := ⟨[255]⟩

/-- A directory whose name is no text, and a link to it. -/
def namelessAround : Surroundings where
  files := { items := [("home", .link namelessDirectory), (namelessDirectory, .directory [])] }
  parser := Session.wholeParser
  now := 0
  date := "now"

def namelessCall : Request where
  id := some (.nat 1)
  method := "tools/call"
  parameters := some (.object [
    ("name", .text "register_project"),
    ("arguments", .object [("path", .text "/home"), ("name", .text "demo")])])

def namelessProject : Project where
  name := "demo"
  root := [namelessDirectory]
  description := none
  registeredAt := "now"

theorem rootAt_nameless :
    Project.rootAt namelessAround.files "/home" = .ok [namelessDirectory] := by
  have hpath : Path.ofString "/home" = ⟨true, [.name "home"], false⟩ := by decide +kernel
  have htarget : Path.ofRaw namelessDirectory = ⟨false, [.name namelessDirectory], false⟩ := by
    decide +kernel
  have hname : (namelessDirectory == RawText.ofString "home") = false := by decide +kernel
  have hlocate : namelessAround.files.locate (Path.ofString "/home") = .ok [namelessDirectory] := by
    simp [hpath, htarget, hname, FileSystem.locate, FileSystem.follow, FileSystem.linkLimit,
      FileSystem.entry?, FileSystem.entryBelow?, namelessAround, List.lookup_cons, bind,
      Except.bind, pure, Except.pure]
  have hdirectory : namelessAround.files.isDirectory [namelessDirectory] = true := by
    decide +kernel
  rw [Project.rootAt, hlocate]
  exact if_pos hdirectory

theorem respond_namelessCall : respond namelessCall namelessAround (.new {}) = (some {
    id := .nat 1, outcome := .ok (told (.error Project.unshown)) }, {
      Workspace.new {} with
      projects := ⟨[namelessProject]⟩
      cache := (Workspace.new {}).cache.activate "demo" }) := by
  have hasked : toolWork namelessCall.parameters =
      Tool.shownIf Project.toValue (Workspace.register "/home" (some "demo") none) := rfl
  have hwanted : Projects.requestedName? (some "demo") = some "demo" := by decide +kernel
  have hregister : (Workspace.new {}).projects.register namelessAround.files namelessAround.date
      "/home" (some "demo") none = .ok (namelessProject, ⟨[namelessProject]⟩) := by
    rw [Projects.register_of_requested rootAt_nameless hwanted]
    rfl
  have hshown : namelessProject.toValue = .error Project.unshown :=
    Project.toValue_eq_error_iff.mpr ⟨by decide +kernel, rfl⟩
  rw [respond, if_neg (by decide), perform_call rfl, callTool, hasked, Tool.shownIf]
  dsimp only
  rw [Work.run_bind, Workspace.run_register, hregister]
  dsimp only
  rw [hshown]
  rfl

/-- A registration fails and is carried out nevertheless. -/
theorem nameless_registered : ∃ response w',
    Reachable {} (.new {}) ∧ namelessAround.parser.Total ∧ namelessCall.method = "tools/call" ∧
    respond namelessCall namelessAround (.new {}) = (some response, w') ∧ response.Failed ∧
    (Workspace.new {}).projects.items = [] ∧ w'.projects.items = [namelessProject] := by
  have hparser : namelessAround.parser.Total := fun _ _ => rfl
  exact ⟨_, _, .start, hparser, rfl, respond_namelessCall, rfl, rfl, rfl⟩

end Server

end CodeAtlas
