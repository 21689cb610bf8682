import CodeAtlas.Proofs.Workspace.Calls
import CodeAtlas.Server.Catalog

/-!
# What the tools tell on alike workspaces

Two tools tell of the cache, and two tell when projects were registered.  Every other tool tells
exactly the same on alike workspaces, and all of them leave alike workspaces behind.

What is said of every tool is proved for each of them by its name (`Tool.cases_all`).
-/

namespace CodeAtlas

/-! ## Values up to the members of one name -/

namespace Json

mutual

/-- The value with null in the place of whatever stands under a name. -/
def Value.mask (name : String) : Value → Value
  | .array items => .array (maskItems name items)
  | .object members => .object (maskMembers name members)
  | v => v

def maskItems (name : String) : List Value → List Value
  | [] => []
  | v :: rest => v.mask name :: maskItems name rest

def maskMembers (name : String) : List (String × Value) → List (String × Value)
  | [] => []
  | (other, v) :: rest =>
    (other, if other = name then .null else v.mask name) :: maskMembers name rest

end

end Json

/-- The values are the same but for what stands under one name. -/
def Json.Value.SameBut (name : String) (v v' : Json.Value) : Prop :=
  v.mask name = v'.mask name

/-- What a project's record tells of the time of its registration stands under one name. -/
theorem Project.Redated.outcomes_toValue {p q : Project} (h : p.Redated q) :
    Outcomes (Json.Value.SameBut "registered_at") p.toValue q.toValue := by
  obtain ⟨date, rfl⟩ := h
  simp only [Project.toValue]
  cases p.root.text? with
  | none => exact .error _
  | some root =>
    refine .ok ?_
    cases p.description <;> rfl

theorem Json.sameBut_array {name : String} {vs vs' : List Json.Value}
    (h : List.Forall₂ (Json.Value.SameBut name) vs vs') :
    Json.Value.SameBut name (.array vs) (.array vs') := by
  refine congrArg Json.Value.array ?_
  induction h with
  | nil => rfl
  | cons hv _ ih =>
    rw [maskItems, maskItems]
    exact congrArg₂ List.cons hv ih

namespace Server

variable {common : Common}

/-- The tools that tell of the cache. -/
def cacheTools : List String := ["clear_cache", "diagnose_config"]

/-- The tools that tell when projects were registered. -/
def datedTools : List String := ["register_project", "list_projects"]

/-- What a tool tells on two sides, if neither the cache nor the time of a registration is to show
in anything but the tools that tell of them. -/
inductive Agree (tool : String) : Json.Value → Json.Value → Prop
  | cache (h : tool ∈ cacheTools) (v v' : Json.Value) : Agree tool v v'
  | dated {v v' : Json.Value} (h : tool ∈ datedTools)
    (hv : v.SameBut "registered_at" v') : Agree tool v v'
  | same (v : Json.Value) : Agree tool v v

namespace Tool

/-! ## The tools there are -/

/-- What is said of every tool is said of each of them by its name. -/
@[elab_as_elim]
theorem cases_all {motive : (t : Tool) → t ∈ all → Prop}
    (registerProject : ∀ h, motive registerProject h)
    (listProjects : ∀ h, motive listProjects h)
    (removeProject : ∀ h, motive removeProject h)
    (listLanguages : ∀ h, motive listLanguages h)
    (checkLanguageAvailable : ∀ h, motive checkLanguageAvailable h)
    (listFiles : ∀ h, motive listFiles h)
    (getFile : ∀ h, motive getFile h)
    (getFileMetadata : ∀ h, motive getFileMetadata h)
    (getAst : ∀ h, motive getAst h)
    (getNodeAtPosition : ∀ h, motive getNodeAtPosition h)
    (findText : ∀ h, motive findText h)
    (runQuery : ∀ h, motive runQuery h)
    (listQueryTemplates : ∀ h, motive listQueryTemplates h)
    (getQueryTemplate : ∀ h, motive getQueryTemplate h)
    (buildQuery : ∀ h, motive buildQuery h)
    (adaptQuery : ∀ h, motive adaptQuery h)
    (getNodeTypes : ∀ h, motive getNodeTypes h)
    (getSymbols : ∀ h, motive getSymbols h)
    (findUsage : ∀ h, motive findUsage h)
    (analyzeProject : ∀ h, motive analyzeProject h)
    (analyzeComplexity : ∀ h, motive analyzeComplexity h)
    (getDependencies : ∀ h, motive getDependencies h)
    (findSimilarCode : ∀ h, motive findSimilarCode h)
    (clearCache : ∀ h, motive clearCache h)
    (diagnoseConfig : ∀ h, motive diagnoseConfig h)
    {t : Tool} (ht : t ∈ all) : motive t ht := by
  have hmem := ht
  simp only [all, List.mem_cons, List.not_mem_nil, or_false] at hmem
  rcases hmem with rfl | rfl | rfl | rfl | rfl | rfl | rfl | rfl | rfl | rfl | rfl | rfl | rfl |
    rfl | rfl | rfl | rfl | rfl | rfl | rfl | rfl | rfl | rfl | rfl | rfl
  · exact registerProject ht
  · exact listProjects ht
  · exact removeProject ht
  · exact listLanguages ht
  · exact checkLanguageAvailable ht
  · exact listFiles ht
  · exact getFile ht
  · exact getFileMetadata ht
  · exact getAst ht
  · exact getNodeAtPosition ht
  · exact findText ht
  · exact runQuery ht
  · exact listQueryTemplates ht
  · exact getQueryTemplate ht
  · exact buildQuery ht
  · exact adaptQuery ht
  · exact getNodeTypes ht
  · exact getSymbols ht
  · exact findUsage ht
  · exact analyzeProject ht
  · exact analyzeComplexity ht
  · exact getDependencies ht
  · exact findSimilarCode ht
  · exact clearCache ht
  · exact diagnoseConfig ht

variable {α : Type} {tool : String} {x : Work α} {toValue : α → Json.Value}
  {work : Work Json.Value}

theorem alike_of_shown {R : α → α → Prop} {Q : Json.Value → Json.Value → Prop}
    (h : shown toValue x = .ok work) (hx : Work.Alike common R x x)
    (hv : ∀ a b, R a b → Q (toValue a) (toValue b)) : Work.Alike common Q work work := by
  cases h
  exact hx.map hv

theorem alike_of_shown_same (h : shown toValue x = .ok work) (hx : Work.Alike common Eq x x) :
    Work.Alike common (Agree tool) work work := by
  refine alike_of_shown h hx ?_
  rintro a _ rfl
  exact .same _

theorem alike_of_shown_cache {R : α → α → Prop} (h : shown toValue x = .ok work)
    (hx : Work.Alike common R x x) (htool : tool ∈ cacheTools) :
    Work.Alike common (Agree tool) work work :=
  alike_of_shown h hx fun _ _ _ => .cache htool _ _

/-- Where a result cannot be shown, the error is the same on both sides. -/
theorem alike_of_shownIf {R : α → α → Prop} {Q : Json.Value → Json.Value → Prop}
    {toValue : α → Except Error Json.Value} (h : shownIf toValue x = .ok work)
    (hx : Work.Alike common R x x) (hv : ∀ a b, R a b → Outcomes Q (toValue a) (toValue b)) :
    Work.Alike common Q work work := by
  cases h
  exact hx.bind fun a b hab => .lift (hv a b hab)

/-! ## The tools one by one -/

/-- A range is refused before anything is looked at.  What is left to do is to show an outline. -/
theorem exists_outline_of_getAst {arguments} (h : getAst.work arguments = .ok work) :
    ∃ name path request, shown Workspace.OutlineReport.toValue
      (Workspace.outline name path request) = .ok work := by
  obtain ⟨name, path, maxDepth, maxChildren, includeText, startLine, endLine, startByte, endByte,
    language, ⟨⟩⟩ := arguments
  change (range startLine endLine startByte endByte >>= fun r => shown _ _) = .ok work at h
  cases hrange : range startLine endLine startByte endByte with
  | error refusal =>
    rw [hrange] at h
    cases h
  | ok r =>
    rw [hrange] at h
    exact ⟨name, path, _, h⟩

theorem alike_registerProject {arguments} (h : registerProject.work arguments = .ok work) :
    Work.Alike common (Agree registerProject.name) work work :=
  alike_of_shownIf h (Workspace.alike_register _ _ _) fun _ _ hpq =>
    hpq.outcomes_toValue.imp fun _ _ => .dated (by decide)

theorem alike_listProjects {arguments} (h : listProjects.work arguments = .ok work) :
    Work.Alike common (Agree listProjects.name) work work := by
  refine alike_of_shownIf (R := List.Forall₂ Project.Redated) h
    (.bind .get fun w v hw => .pure hw.projects) fun ps qs hpq => ?_
  refine (Outcomes.mapM hpq fun _ _ h => h.outcomes_toValue).bind fun vs vs' hvs => ?_
  exact .ok (.dated (by decide) (Json.sameBut_array hvs))

theorem alike_listLanguages {arguments} (h : listLanguages.work arguments = .ok work) :
    Work.Alike common (Agree listLanguages.name) work work := by
  refine alike_of_shown_same h (.bind .get fun w v hw => .pure ?_)
  rw [hw.languages]

theorem alike_diagnoseConfig {arguments} (h : diagnoseConfig.work arguments = .ok work) :
    Work.Alike common (Agree diagnoseConfig.name) work work :=
  alike_of_shown_cache (R := fun _ _ => True) h
    (.bind .get fun _ _ _ => .pure trivial) (by decide)

/-- **Every tool** leaves alike workspaces behind, and tells the same on alike workspaces as far as
it is meant to. -/
theorem alike_of_mem_all {t : Tool} (ht : t ∈ all) {arguments}
    (h : t.work arguments = .ok work) : Work.Alike common (Agree t.name) work work := by
  cases ht using cases_all with
  | registerProject => exact alike_registerProject h
  | listProjects => exact alike_listProjects h
  | removeProject => exact alike_of_shown_same h (Workspace.alike_remove _)
  | listLanguages => exact alike_listLanguages h
  | checkLanguageAvailable => exact alike_of_shown_same h (Workspace.alike_available _ _)
  | listFiles => exact alike_of_shown_same h (Workspace.alike_listFiles _ _)
  | getFile => exact alike_of_shown_same h (Workspace.alike_readFile _ _ _ _)
  | getFileMetadata => exact alike_of_shown_same h (Workspace.alike_fileMetadata _ _)
  | getAst =>
    obtain ⟨name, path, request, h⟩ := exists_outline_of_getAst h
    exact alike_of_shown_same h (Workspace.alike_outline name path request)
  | getNodeAtPosition => exact alike_of_shown_same h (Workspace.alike_nodesAt _ _ _ _)
  | findText => exact alike_of_shown_same h (Workspace.alike_findText _ _ _ _)
  | runQuery => exact alike_of_shown_same h (Workspace.alike_runQuery _ _ _ _ _)
  | listQueryTemplates => exact alike_of_shown_same h (Workspace.alike_templates _)
  | getQueryTemplate => exact alike_of_shown_same h (.lift_same _)
  | buildQuery => exact alike_of_shown_same h (Workspace.alike_buildQuery _ _)
  | adaptQuery => exact alike_of_shown_same h (Workspace.alike_adaptQuery _ _ _)
  | getNodeTypes => exact alike_of_shown_same h (Workspace.alike_language _)
  | getSymbols => exact alike_of_shown_same h (Workspace.alike_symbols _ _)
  | findUsage => exact alike_of_shown_same h (Workspace.alike_findUsage _ _ _ _ _)
  | analyzeProject => exact alike_of_shown_same h (Workspace.alike_overview _)
  | analyzeComplexity => exact alike_of_shown_same h (Workspace.alike_complexity _ _)
  | getDependencies => exact alike_of_shown_same h (Workspace.alike_dependencies _ _)
  | findSimilarCode => exact alike_of_shown_same h (Workspace.alike_findSimilar _ _ _ _ _)
  | clearCache => exact alike_of_shown_cache h (Workspace.alike_clearCache _) (by decide)
  | diagnoseConfig => exact alike_diagnoseConfig h

end Tool

end Server

end CodeAtlas
