import CodeAtlas.Launch
import CodeAtlas.Proofs.Server.Tools

/-!
# The cache shows in no session

A session is a list of lines, each with the files as they are when it comes.  Between two lines
anything may happen to the files: contents change, projects' directories vanish, and others take
their place.

This file shows that two servers whose configurations differ in the settings of the cache answer
every line of every session alike.  Each has a clock of its own, so documents expire on one side
and not on the other.

## What is not covered

The parser is a function of the language and the octets, the same for both servers.  Contents with
the same digest are told apart by neither server, so the contents of a session are taken to have
different ones.
-/

namespace CodeAtlas

namespace Server

variable {common : Common}

/-! ## Calls of tools -/

/-- The tool that a request asks for. -/
def Request.tool? (r : Request) : Option String :=
  if r.method = "tools/call" then
    r.parameters.bind fun parameters => (parameters.get? "name").bind Json.Value.text?
  else none

theorem Tool.exists_of_call {t : Tool} {v : Json.Value} {work : Work Json.Value}
    (h : t.call v = .ok work) : ∃ arguments, t.work arguments = .ok work := by
  unfold call at h
  split at h
  · exact ⟨(), h⟩
  · split at h
    · exact ⟨_, h⟩
    · cases h

theorem exists_of_toolWork {parameters : Option Json.Value} {work : Work Json.Value}
    (h : toolWork parameters = .ok work) :
    ∃ t ∈ Tool.all, (parameters.bind fun p => (p.get? "name").bind Json.Value.text?) =
      some t.name ∧ ∃ arguments, t.work arguments = .ok work := by
  unfold toolWork at h
  split at h
  · cases h
  · rename_i parameters
    split at h
    · cases h
    · rename_i name hname
      split at h
      · cases h
      · rename_i t ht
        obtain rfl : t.name = name := by simpa using List.find?_some ht
        exact ⟨t, List.mem_of_find?_eq_some ht, hname, Tool.exists_of_call h⟩

/-! ## Outcomes of requests -/

/-- The outcomes of a request on two sides: the same one, or what a tool tells. -/
inductive SameOutcome (r : Request) :
    Except Refusal Json.Value → Except Refusal Json.Value → Prop
  | same (outcome : Except Refusal Json.Value) : SameOutcome r outcome outcome
  | told {tool : String} (h : r.tool? = some tool) {v v' : Json.Value} (hv : Agree tool v v') :
    SameOutcome r (.ok (told (.ok v))) (.ok (told (.ok v')))

variable {a b : Surroundings} {w v : Workspace}

theorem alike_callTool (r : Request) (hr : r.method = "tools/call")
    (hab : Surroundings.Alike common a b) (hw : Workspace.Alike common w v) :
    SameOutcome r (callTool r.parameters a w).1 (callTool r.parameters b v).1 ∧
      Workspace.Alike common (callTool r.parameters a w).2 (callTool r.parameters b v).2 := by
  unfold callTool
  cases hwork : toolWork r.parameters with
  | error refusal => exact ⟨.same _, hw⟩
  | ok work =>
    obtain ⟨t, ht, hname, arguments, h⟩ := exists_of_toolWork hwork
    obtain ⟨houtcome, hleft⟩ := Tool.alike_of_mem_all ht h hab hw
    refine ⟨?_, hleft⟩
    have htool : r.tool? = some t.name := by rw [Request.tool?, if_pos hr, hname]
    dsimp only
    generalize (work.run a w).1 = outcome at houtcome ⊢
    generalize (work.run b v).1 = outcome' at houtcome ⊢
    cases houtcome with
    | ok hv => exact .told htool hv
    | error e => exact .same _

theorem alike_perform (r : Request) (hab : Surroundings.Alike common a b)
    (hw : Workspace.Alike common w v) :
    SameOutcome r (perform r a w).1 (perform r b v).1 ∧
      Workspace.Alike common (perform r a w).2 (perform r b v).2 := by
  unfold perform
  split
  · exact ⟨.same _, hw⟩
  · exact ⟨.same _, hw⟩
  · exact ⟨.same _, hw⟩
  · exact alike_callTool r ‹_› hab hw
  · exact ⟨.same _, hw⟩

/-! ## Lines -/

/-- The tool that a line asks for. -/
def toolAsked? (line : String) : Option String :=
  (Request.read line.toList).bind Request.tool?

/-- The line that tells what a tool's work came to. -/
def toldLine (id v : Json.Value) : String :=
  ({ id, outcome := .ok (told (.ok v)) } : Response).toValue.render

/-- The answers to a line on two sides: the same one or none, or what a tool tells to the same
request. -/
inductive SameAnswer (line : String) : Option String → Option String → Prop
  | same (answer : Option String) : SameAnswer line answer answer
  | told {tool : String} (h : toolAsked? line = some tool) (id : Json.Value) {v v' : Json.Value}
    (hv : Agree tool v v') : SameAnswer line (some (toldLine id v)) (some (toldLine id v'))

theorem alike_answer (line : String) (hab : Surroundings.Alike common a b)
    (hw : Workspace.Alike common w v) :
    SameAnswer line (answer line a w).1 (answer line b v).1 ∧
      Workspace.Alike common (answer line a w).2 (answer line b v).2 := by
  unfold answer
  cases hread : Request.read line.toList with
  | none => exact ⟨.same _, hw⟩
  | some r =>
    dsimp only
    unfold respond
    split
    · exact ⟨.same _, hw⟩
    · obtain ⟨houtcome, hleft⟩ := alike_perform r hab hw
      refine ⟨?_, hleft⟩
      dsimp only [Option.map_some]
      generalize (perform r a w).1 = outcome at houtcome ⊢
      generalize (perform r b v).1 = outcome' at houtcome ⊢
      cases houtcome with
      | same => exact .same _
      | told htool hv =>
        exact .told (by rw [toolAsked?, hread, Option.bind_some, htool]) (r.id.getD .null) hv

end Server

/-! ## Sessions -/

namespace Session

/-- One line, and the files as they are when it comes. -/
structure Turn where
  line : String
  files : FileSystem

/-- The time of each turn, in billionths of a second and as it is shown. -/
abbrev Clock := Nat → Nat × String

/-- What a server finds at its turn of this number. -/
def Turn.around (t : Turn) (parser : Syntax.Parser Language) (clock : Clock) (n : Nat) :
    Surroundings where
  files := t.files
  parser := parser
  now := (clock n).1
  date := (clock n).2

/-- What a server answers from one turn on. -/
def answersFrom (parser : Syntax.Parser Language) (clock : Clock) (n : Nat) (w : Workspace) :
    List Turn → List (Option String)
  | [] => []
  | t :: rest =>
    let (answer, w) := Launch.receive t.line (t.around parser clock n) w
    answer :: answersFrom parser clock (n + 1) w rest

/-- What a server that starts with this configuration answers. -/
def answers (config : Config) (parser : Syntax.Parser Language) (clock : Clock)
    (turns : List Turn) : List (Option String) :=
  answersFrom parser clock 0 (.new config) turns

/-- All contents that a file has in the course of a session. -/
def contents (turns : List Turn) : Set (List UInt8) :=
  { content | ∃ t ∈ turns, ∃ place modified, t.files.file? place = some (content, modified) }

variable {common : Common} {w v : Workspace}

/-- Work breaks off on both sides or on neither. -/
theorem alike_breaksOff (line : String) {a b : Surroundings}
    (hab : Surroundings.Alike common a b) (hw : Workspace.Alike common w v) :
    Launch.breaksOff line b v = Launch.breaksOff line a w := by
  unfold Launch.breaksOff
  cases Server.Request.read line.toList with
  | none => rfl
  | some r =>
    dsimp only
    cases hwork : Server.toolWork r.parameters with
    | error refusal => rfl
    | ok work =>
      obtain ⟨t, ht, -, arguments, h⟩ := Server.exists_of_toolWork hwork
      dsimp only
      rw [Work.breaksOff_eq (Server.Tool.alike_of_mem_all ht h hab hw).1]

theorem alike_receive (line : String) {a b : Surroundings}
    (hab : Surroundings.Alike common a b) (hw : Workspace.Alike common w v) :
    Server.SameAnswer line (Launch.receive line a w).1 (Launch.receive line b v).1 ∧
      Workspace.Alike common (Launch.receive line a w).2 (Launch.receive line b v).2 := by
  unfold Launch.receive
  split
  · exact ⟨.same _, hw⟩
  · obtain ⟨hanswer, hleft⟩ := Server.alike_answer line hab hw
    refine ⟨?_, hleft⟩
    dsimp only
    rw [alike_breaksOff line hab hw]
    split
    · exact .same _
    · exact hanswer

theorem answersFrom_same (clock clock' : Clock) (turns : List Turn)
    (hcontents : contents turns ⊆ common.contents) (m : Nat) (hw : Workspace.Alike common w v)
    (n : Nat) (t : Turn) (ht : turns[n]? = some t) :
    ∃ answer answer', (answersFrom common.parser clock m w turns)[n]? = some answer ∧
      (answersFrom common.parser clock' m v turns)[n]? = some answer' ∧
      Server.SameAnswer t.line answer answer' := by
  induction turns generalizing m w v n with
  | nil => cases ht
  | cons first rest ih =>
    have hab : Surroundings.Alike common (first.around common.parser clock m)
        (first.around common.parser clock' m) := {
      files := rfl
      parser := rfl
      parser' := rfl
      contents := fun place content modified h =>
        hcontents ⟨first, List.mem_cons_self, place, modified, h⟩ }
    obtain ⟨hanswer, hleft⟩ := alike_receive first.line hab hw
    cases n with
    | zero =>
      cases ht
      exact ⟨_, _, rfl, rfl, hanswer⟩
    | succ n =>
      refine ih ?_ (m + 1) hleft n ht
      rintro content ⟨t, hmem, hfile⟩
      exact hcontents ⟨t, List.mem_cons_of_mem _ hmem, hfile⟩

theorem alike_new (config : Config) (cache cache' : Config.Cache) :
    Workspace.Alike common (.new { config with cache }) (.new { config with cache := cache' }) where
  config := rfl
  projects := .nil
  languages := rfl
  cache := Cache.faithful_new _
  cache' := Cache.faithful_new _

/-- **The cache is transparent.**  Two servers whose configurations differ in the settings of the
cache, such as one without it, give the same answer to every line of a session, whatever happens to
the files between the lines and whatever their clocks show.  Left out are what the tools that tell
of the cache tell, and the time at which a project was registered. -/
theorem answers_same (config : Config) (cache cache' : Config.Cache)
    (parser : Syntax.Parser Language) (clock clock' : Clock) (turns : List Turn)
    (hdigest : Set.InjOn Text.Digest.sha256 (contents turns)) :
    ∀ (n : Nat) (t : Turn), turns[n]? = some t →
      ∃ answer answer', (answers { config with cache } parser clock turns)[n]? = some answer ∧
        (answers { config with cache := cache' } parser clock' turns)[n]? = some answer' ∧
        Server.SameAnswer t.line answer answer' := by
  intro n t ht
  let common : Common := ⟨parser, contents turns, hdigest⟩
  have hw : Workspace.Alike common (.new { config with cache })
      (.new { config with cache := cache' }) := alike_new config cache cache'
  exact answersFrom_same clock clock' turns (fun _ h => h) 0 hw n t ht

/-! ### A session with an edit

The root directory is registered as a project, and its one file is asked for before and after an
edit. -/

/-- A file system with one file. -/
def oneFile (content : List UInt8) (modified : Nat) : FileSystem where
  items := [("a.py", .file content modified)]

theorem content_of_oneFile {content content' : List UInt8} {modified modified' : Nat}
    {place : Place} (h : (oneFile content modified).file? place = some (content', modified')) :
    content' = content := by
  rw [FileSystem.file?_eq_some_iff, FileSystem.entry?, oneFile] at h
  have hlookup (name : RawText) :
      [(RawText.ofString "a.py", Entry.file content modified)].lookup name =
        if name = "a.py" then some (.file content modified) else none := by
    rw [List.lookup_cons, List.lookup_nil]
    by_cases hname : name = "a.py"
    · simp [hname]
    · simp [hname, beq_false_of_ne hname]
  cases place with
  | nil => simp [FileSystem.entryBelow?] at h
  | cons name rest =>
    cases rest with
    | nil =>
      dsimp only at h
      rw [FileSystem.entryBelow?, hlookup] at h
      split at h
      · cases h
        rfl
      · cases h
    | cons next rest =>
      by_cases hname : name = RawText.ofString "a.py" <;>
        simp [FileSystem.entryBelow?, hlookup, hname] at h

def callLine (tool : String) (arguments : Json.Value) : String :=
  (Json.Value.object [
    ("jsonrpc", .text "2.0"), ("id", .nat 1), ("method", .text "tools/call"),
    ("params", .object [("name", .text tool), ("arguments", arguments)])]).render

def outlineLine : String :=
  callLine "get_ast" (.object [("project", .text "project"), ("path", .text "a.py")])

def edit : List Turn := [
  ⟨callLine "register_project" (.object [("path", .text "/")]), oneFile [120] 7⟩,
  ⟨outlineLine, oneFile [120] 7⟩,
  ⟨outlineLine, oneFile [121, 121] 7⟩]

/-- A parser that sees one node in every source, and a defect if there is more than an octet. -/
def wholeParser : Syntax.Parser Language := fun _ source =>
  some (.ofRoot (.mk { (default : Syntax.Label) with kind := "module", named := true } [])
    (source.length > 1))

theorem contents_edit : contents edit ⊆ {[120], [121, 121]} := by
  rintro content ⟨t, ht, place, modified, hfile⟩
  simp only [edit, List.mem_cons, List.not_mem_nil, or_false] at ht
  rcases ht with rfl | rfl | rfl
  · exact .inl (content_of_oneFile hfile)
  · exact .inl (content_of_oneFile hfile)
  · exact .inr (content_of_oneFile hfile)

theorem digest_injOn_edit : Set.InjOn Text.Digest.sha256 (contents edit) := by
  have hne : Text.Digest.sha256 [120] ≠ Text.Digest.sha256 [121, 121] := by decide +kernel
  intro x hx y hy hxy
  rcases contents_edit hx with rfl | rfl <;> rcases contents_edit hy with rfl | rfl
  · rfl
  · exact absurd hxy hne
  · exact absurd hxy.symm hne
  · rfl

/-- After the edit a server that keeps documents and one that keeps none still answer alike. -/
theorem answers_same_after_edit :
    Set.InjOn Text.Digest.sha256 (contents edit) ∧ ∃ answer answer',
      (answers {} wholeParser (fun n => (n, "now")) edit)[2]? = some answer ∧
      (answers { cache := { enabled := false } } wholeParser (fun n => (n, "later")) edit)[2]? =
        some answer' ∧
      Server.SameAnswer outlineLine answer answer' :=
  ⟨digest_injOn_edit, answers_same {} {} { enabled := false } wholeParser _ _ edit
    digest_injOn_edit 2 ⟨outlineLine, oneFile [121, 121] 7⟩ rfl⟩

end Session

end CodeAtlas
