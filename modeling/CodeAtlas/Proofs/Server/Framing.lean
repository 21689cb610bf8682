import CodeAtlas.Proofs.Json.Printing
import CodeAtlas.Proofs.Json.Reading
import CodeAtlas.Proofs.Server.Answers
import Mathlib.Data.List.Nodup

/-!
# What a line of response holds

A response tells the outcome of a request as a text of JSON on one line, and the result of a tool is
a text of JSON in that text.  This file shows that nothing a tool comes up with can break the line,
and sorts the outcomes: which lines are refused and under which code, and what becomes of the errors
of tools, which are results.

The reasons for a refusal are spelled out in `BadCall` and `Refused` from the request alone, without
the server and what it remembers.  All but one are found before a tool is asked.  The one that is
left is the tool with ranges, which refuses two kinds of range at once.
-/

namespace CodeAtlas

open Json (IsText)

namespace Server

/-! ## Tools that are called wrongly -/

namespace Tool

/-- Both a range of lines and a range of octets are asked for. -/
def MixesRanges : Arguments getAst.parameters → Prop
  | (_, _, _, _, _, startLine, endLine, startByte, endByte, _) =>
    (startLine.isSome ∨ endLine.isSome) ∧ (startByte.isSome ∨ endByte.isSome)

/-- Only the tool with ranges can refuse arguments that it was able to read. -/
theorem exists_work_of_mem_all {t : Tool} (ht : t ∈ all) (hname : t.name ≠ getAst.name)
    (arguments : Arguments t.parameters) : ∃ work, t.work arguments = .ok work := by
  cases ht using cases_all
  case getAst => exact absurd rfl hname
  all_goals exact ⟨_, rfl⟩

theorem range_eq_error_iff {startLine endLine startByte endByte : Option Nat} {refusal : Refusal} :
    range startLine endLine startByte endByte = .error refusal ↔
      ((startLine.isSome ∨ endLine.isSome) ∧ (startByte.isSome ∨ endByte.isSome)) ∧
        refusal = .mixedRanges := by
  rw [← Bool.or_eq_true, ← Bool.or_eq_true, range]
  cases startLine.isSome || endLine.isSome <;> cases startByte.isSome || endByte.isSome <;>
    simp [eq_comm]

theorem work_getAst_eq_error_iff {arguments : Arguments getAst.parameters} {refusal : Refusal} :
    getAst.work arguments = .error refusal ↔ MixesRanges arguments ∧ refusal = .mixedRanges := by
  obtain ⟨project, path, maxDepth, maxChildren, includeText, startLine, endLine, startByte,
    endByte, language, ⟨⟩⟩ := arguments
  refine Iff.trans ?_ range_eq_error_iff
  change (range startLine endLine startByte endByte >>= fun r => shown _ _) = .error refusal ↔ _
  cases range startLine endLine startByte endByte with
  | error refused => constructor <;> rintro ⟨⟩ <;> rfl
  | ok r => exact iff_of_false nofun nofun

theorem eq_of_name_eq {t u : Tool} (ht : t ∈ all) (hu : u ∈ all) (h : t.name = u.name) : t = u := by
  have hnodup : (all.map Tool.name).Nodup := by decide
  exact List.inj_on_of_nodup_map hnodup ht hu h

theorem find?_eq_some_iff {t : Tool} {name : String} :
    find? name = some t ↔ t ∈ all ∧ t.name = name := by
  constructor
  · intro h
    exact ⟨List.mem_of_find?_eq_some h, by simpa using List.find?_some h⟩
  · rintro ⟨ht, rfl⟩
    cases h : find? t.name with
    | none => simpa using List.find?_eq_none.mp h t ht
    | some u =>
      have hname : u.name = t.name := by simpa using List.find?_some h
      rw [eq_of_name_eq (List.mem_of_find?_eq_some h) ht hname]

theorem find?_eq_none_iff {name : String} : find? name = none ↔ ∀ t ∈ all, t.name ≠ name := by
  simp [find?]

theorem exists_call_eq {t : Tool} (h : t.parameters = []) (v : Json.Value) :
    ∃ arguments, t.call v = t.work arguments := by
  obtain ⟨name, description, record, parameters, work⟩ := t
  cases h
  exact ⟨(), rfl⟩

theorem call_of_parameters {t : Tool} (h : t.parameters ≠ []) (v : Json.Value) :
    t.call v = match Arguments.read t.record t.parameters v with
      | .ok arguments => t.work arguments
      | .error fault => .error (.arguments fault) := by
  obtain ⟨name, description, record, parameters, work⟩ := t
  cases parameters with
  | nil => exact absurd rfl h
  | cons p ps =>
    dsimp only [call]
    cases Arguments.read record (p :: ps) v <;> rfl

end Tool

/-- The arguments that are given with a call, which are none if they are left out. -/
def givenArguments (parameters : Json.Value) : Json.Value :=
  (parameters.get? "arguments").getD (.object [])

/-- What can be wrong with the parameters of a call. -/
inductive BadCall : Option Json.Value → Refusal → Prop
  | noParameters : BadCall none .noParameters
  | noToolName {p : Json.Value} (h : ∀ name, p.get? "name" ≠ some (.text name)) :
    BadCall (some p) .noToolName
  | unknownTool {p : Json.Value} {name : String} (h : p.get? "name" = some (.text name))
    (hname : ∀ t ∈ Tool.all, t.name ≠ name) : BadCall (some p) (.unknownTool name)
  /-- A tool without parameters takes whatever is given. -/
  | arguments {p : Json.Value} {t : Tool} {fault : ArgumentFault} (ht : t ∈ Tool.all)
    (h : p.get? "name" = some (.text t.name)) (hparameters : t.parameters ≠ [])
    (hread : Arguments.read t.record t.parameters (givenArguments p) = .error fault) :
    BadCall (some p) (.arguments fault)
  | mixedRanges {p : Json.Value} {arguments : Arguments Tool.getAst.parameters}
    (h : p.get? "name" = some (.text Tool.getAst.name))
    (hread : Arguments.read Tool.getAst.record Tool.getAst.parameters (givenArguments p) =
      .ok arguments)
    (hmixed : Tool.MixesRanges arguments) : BadCall (some p) .mixedRanges

theorem bind_text?_eq_some_iff {v : Option Json.Value} {s : String} :
    v.bind Json.Value.text? = some s ↔ v = some (.text s) := by
  rcases v with _ | (_ | _ | _ | _ | _ | _) <;> simp [Json.Value.text?]

theorem toolWork_of_name {p : Json.Value} {name : String}
    (h : p.get? "name" = some (.text name)) :
    toolWork (some p) = match Tool.find? name with
      | none => .error (.unknownTool name)
      | some tool => tool.call (givenArguments p) := by
  rw [toolWork, bind_text?_eq_some_iff.mpr h]
  rfl

/-- What is wrong with the arguments of a call that is refused. -/
theorem badCall_of_call {p : Json.Value} {t : Tool} {refusal : Refusal} (ht : t ∈ Tool.all)
    (hname : p.get? "name" = some (.text t.name))
    (h : t.call (givenArguments p) = .error refusal) : BadCall (some p) refusal := by
  have hast (arguments : Arguments t.parameters) (h : t.work arguments = .error refusal) :
      t = Tool.getAst := by
    have hast : Tool.getAst ∈ Tool.all := by simp [Tool.all]
    refine Tool.eq_of_name_eq ht hast (by_contra fun hne => ?_)
    obtain ⟨work, hwork⟩ := Tool.exists_work_of_mem_all ht hne arguments
    rw [hwork] at h
    cases h
  by_cases hparameters : t.parameters = []
  · obtain ⟨arguments, hcall⟩ := Tool.exists_call_eq hparameters (givenArguments p)
    rw [hcall] at h
    obtain rfl := hast arguments h
    cases hparameters
  · rw [Tool.call_of_parameters hparameters] at h
    cases hread : Arguments.read t.record t.parameters (givenArguments p) with
    | error fault =>
      rw [hread] at h
      cases h
      exact .arguments ht hname hparameters hread
    | ok arguments =>
      rw [hread] at h
      obtain rfl := hast arguments h
      obtain ⟨hmixed, rfl⟩ := Tool.work_getAst_eq_error_iff.mp h
      exact .mixedRanges hname hread hmixed

/-- A call is refused if and only if something is wrong with its parameters. -/
theorem toolWork_eq_error_iff {parameters : Option Json.Value} {refusal : Refusal} :
    toolWork parameters = .error refusal ↔ BadCall parameters refusal := by
  constructor
  · intro h
    cases parameters with
    | none =>
      cases h
      exact .noParameters
    | some p =>
      cases hname : (p.get? "name").bind Json.Value.text? with
      | none =>
        rw [toolWork, hname] at h
        cases h
        refine .noToolName fun name hp => ?_
        rw [bind_text?_eq_some_iff.mpr hp] at hname
        cases hname
      | some name =>
        have hp := bind_text?_eq_some_iff.mp hname
        rw [toolWork_of_name hp] at h
        cases hfind : Tool.find? name with
        | none =>
          rw [hfind] at h
          cases h
          exact .unknownTool hp (Tool.find?_eq_none_iff.mp hfind)
        | some t =>
          rw [hfind] at h
          obtain ⟨ht, rfl⟩ := Tool.find?_eq_some_iff.mp hfind
          exact badCall_of_call ht hp h
  · intro h
    cases h with
    | noParameters => rfl
    | @noToolName p h =>
      cases hname : (p.get? "name").bind Json.Value.text? with
      | none => rw [toolWork, hname]
      | some name => exact absurd (bind_text?_eq_some_iff.mp hname) (h name)
    | unknownTool h hname =>
      rw [toolWork_of_name h, Tool.find?_eq_none_iff.mpr hname]
    | arguments ht h hparameters hread =>
      rw [toolWork_of_name h, Tool.find?_eq_some_iff.mpr ⟨ht, rfl⟩]
      dsimp only
      rw [Tool.call_of_parameters hparameters, hread]
    | mixedRanges h hread hmixed =>
      have ht : Tool.getAst ∈ Tool.all := by simp [Tool.all]
      rw [toolWork_of_name h, Tool.find?_eq_some_iff.mpr ⟨ht, rfl⟩]
      dsimp only
      rw [Tool.call_of_parameters (by decide), hread]
      exact Tool.work_getAst_eq_error_iff.mpr ⟨hmixed, rfl⟩

/-! ## Lines that are refused -/

variable {line : String} {around : Surroundings} {w : Workspace} {r : Request} {refusal : Refusal}

def methods : List String := ["initialize", "ping", "tools/list", "tools/call"]

/-- Why a line is refused, and under which code. -/
inductive Refused (line : String) : Int → Refusal → Prop
  | unreadable (h : Request.read line.toList = none) : Refused line (-32700) .unreadable
  | unknownMethod {r : Request} (h : Request.read line.toList = some r) (hr : r.method ∉ methods) :
    Refused line (-32601) (.unknownMethod r.method)
  | call {r : Request} {refusal : Refusal} (h : Request.read line.toList = some r)
    (hr : r.method = "tools/call") (hcall : BadCall r.parameters refusal) :
    Refused line (-32602) refusal

/-- The line asks for a call that is carried out. -/
def AsksFor (line : String) (work : Work Json.Value) : Prop :=
  ∃ r, Request.read line.toList = some r ∧ r.method = "tools/call" ∧
    toolWork r.parameters = .ok work

/-- The identifier of the request, and null where there is none. -/
def idOf (line : String) : Json.Value :=
  ((Request.read line.toList).bind Request.id).getD .null

theorem BadCall.code_eq {parameters : Option Json.Value} (h : BadCall parameters refusal) :
    refusal.code = -32602 := by
  cases h <;> rfl

theorem perform_of_notMem (hr : r.method ∉ methods) :
    perform r around w = (.error (.unknownMethod r.method), w) := by
  simp only [methods, List.mem_cons, List.not_mem_nil, or_false, not_or] at hr
  obtain ⟨hintroduce, hping, hlist, hcall⟩ := hr
  -- The last case of the match is found from these four.
  simp [perform]

theorem callTool_of_work {parameters : Option Json.Value} {work : Work Json.Value}
    (h : toolWork parameters = .ok work) :
    (callTool parameters around w).1 = .ok (told (work.run around w).1) := by
  rw [callTool, h]

theorem callTool_eq_error_iff {parameters : Option Json.Value} :
    (callTool parameters around w).1 = .error refusal ↔ BadCall parameters refusal := by
  rw [← toolWork_eq_error_iff]
  cases h : toolWork parameters with
  | error refused =>
    rw [callTool, h]
    constructor <;> rintro ⟨⟩ <;> rfl
  | ok work =>
    rw [callTool_of_work h]
    constructor <;> rintro ⟨⟩

theorem perform_eq_error_iff : (perform r around w).1 = .error refusal ↔
    (r.method ∉ methods ∧ refusal = .unknownMethod r.method) ∨
      (r.method = "tools/call" ∧ BadCall r.parameters refusal) := by
  by_cases hr : r.method ∈ methods
  · simp only [hr, not_true_eq_false, false_and, false_or]
    simp only [methods, List.mem_cons, List.not_mem_nil, or_false] at hr
    rcases hr with hr | hr | hr | hr
    · simp [perform, hr]
    · simp [perform, hr]
    · simp [perform, hr]
    · simp only [perform_call hr, hr, true_and, callTool_eq_error_iff]
  · have hcall : r.method ≠ "tools/call" := by
      rintro heq
      simp [heq, methods] at hr
    simp only [perform_of_notMem hr, hr, hcall, not_false_eq_true, true_and, false_and, or_false]
    constructor <;> rintro ⟨⟩ <;> rfl

theorem refused_iff (around : Surroundings) (w : Workspace) (h : Request.read line.toList = some r)
    {code : Int} :
    Refused line code refusal ↔ (perform r around w).1 = .error refusal ∧ code = refusal.code := by
  rw [perform_eq_error_iff]
  constructor
  · intro hrefused
    cases hrefused with
    | unreadable hnone =>
      rw [h] at hnone
      cases hnone
    | unknownMethod h' hr =>
      cases h.symm.trans h'
      exact ⟨.inl ⟨hr, rfl⟩, rfl⟩
    | call h' hr hcall =>
      cases h.symm.trans h'
      exact ⟨.inr ⟨hr, hcall⟩, hcall.code_eq.symm⟩
  · rintro ⟨⟨hr, rfl⟩ | ⟨hr, hcall⟩, rfl⟩
    · exact .unknownMethod h hr
    · rw [hcall.code_eq]
      exact .call h hr hcall

/-! ## What is told comes back -/

section

open Json (maxDepth)
open Json.Value (Returns)

variable {levels : Nat}

theorem returns_describe (p : Parameter) : (Tool.describe p).Returns (levels + 2) := by
  have hshape (s : Shape) : ∀ m ∈ Tool.members s, m.2.Returns (levels + 1) := by
    induction s with
    | optional s ih => exact ih
    | texts =>
      have hitems : (Json.Value.object [("type", .text "string")]).Returns (levels + 1) :=
        .single _ (.text _)
      exact List.forall_mem_cons.mpr ⟨.text _, List.forall_mem_singleton.mpr hitems⟩
    | _ => exact List.forall_mem_singleton.mpr (.text _)
  exact .ofMembers (List.forall_mem_cons.mpr ⟨.text _, hshape p.shape⟩)

theorem returns_schema (ps : List Parameter) : (Tool.schema ps).Returns (levels + 4) := by
  have hproperties : (Json.Value.ofMembers (ps.map fun p => (p.name, Tool.describe p))).Returns
      (levels + 3) := by
    refine .ofMembers fun m hm => ?_
    obtain ⟨p, -, rfl⟩ := List.mem_map.mp hm
    exact returns_describe p
  refine .ofMembers (List.forall_mem_append.mpr ⟨?_, ?_⟩)
  · exact List.forall_mem_cons.mpr ⟨.text _, List.forall_mem_singleton.mpr hproperties⟩
  · split
    · exact List.forall_mem_nil _
    · exact List.forall_mem_singleton.mpr (.texts _)

theorem returns_tool (t : Tool) : t.toValue.Returns (levels + 5) := by
  refine .ofMembers ?_
  simp only [List.forall_mem_cons, List.not_mem_nil, false_implies, implies_true, and_true]
  exact ⟨.text _, .text _, returns_schema t.parameters⟩

theorem returns_content (v : Json.Value) : (content v).2.Returns (levels + 2) :=
  .array (List.forall_mem_singleton.mpr (.pair (by decide) (.text _) (.text _)))

theorem returns_told (outcome : Except Error Json.Value) :
    (told outcome).Returns (levels + 3) := by
  cases outcome with
  | ok v => exact .single _ (returns_content v)
  | error e =>
    have hflag : (Json.Value.bool true).Returns (levels + 2) := ⟨⟨rfl, Nat.zero_le _⟩, rfl⟩
    exact .pair (by decide) (returns_content e.toValue) hflag

theorem returns_refusal (refusal : Refusal) : refusal.toValue.Returns (levels + 1) := by
  have hcode : (Json.Value.number (.ofInt refusal.code)).Returns levels := by
    refine ⟨⟨rfl, Nat.zero_le _⟩, ?_⟩
    cases refusal <;> rfl
  exact .pair (by decide) hcode (.text _)

/-- Whatever comes of a request comes back from its text. -/
theorem returns_perform {v : Json.Value} (h : (perform r around w).1 = .ok v) :
    v.Returns (maxDepth - 2) := by
  have hcall {parameters : Option Json.Value} (h : (callTool parameters around w).1 = .ok v) :
      v.Returns (maxDepth - 2) := by
    unfold callTool at h
    cases hwork : toolWork parameters with
    | error refused =>
      rw [hwork] at h
      cases h
    | ok work =>
      rw [hwork] at h
      cases h
      exact returns_told _
  unfold perform at h
  split at h
  · cases h
    exact ⟨⟨rfl, by decide⟩, rfl⟩
  · cases h
    exact .object .nil (List.forall_mem_nil _)
  · cases h
    refine .single _ (.array fun v hv => ?_)
    obtain ⟨t, -, rfl⟩ := List.mem_map.mp hv
    exact returns_tool t
  · exact hcall h
  · cases h

end

/-! ## The identifier -/

theorem mem_of_lookup {name : String} {v : Json.Value} {members : List (String × Json.Value)}
    (h : members.lookup name = some v) : (name, v) ∈ members := by
  obtain ⟨before, after, rfl, -⟩ := List.lookup_eq_some_iff.mp h
  simp

theorem eq_some_of_present? {v : Option Json.Value} {id : Json.Value}
    (h : Request.present? v = some id) : v = some id := by
  unfold Request.present? at h
  split at h
  · cases h
  · exact h

/-- The identifier is in order, since the reader has put it in order. -/
theorem tidy_id {cs : List Char} {id : Json.Value} (h : Request.read cs = some r)
    (hid : r.id = some id) : id.Tidy (Json.maxDepth - 2) := by
  obtain ⟨fields, hfields, h⟩ := Option.bind_eq_some_iff.mp h
  have htidy := Json.tidy_of_readRecord hfields
  have hlookup : fields.lookup "id" = some id := by
    obtain ⟨_, -, h⟩ := Option.bind_eq_some_iff.mp h
    obtain ⟨_, -, h⟩ := Option.bind_eq_some_iff.mp h
    obtain ⟨_, -, h⟩ := Option.bind_eq_some_iff.mp h
    obtain ⟨_, -, h⟩ := Option.bind_eq_some_iff.mp h
    cases h
    exact eq_some_of_present? hid
  exact htidy _ (mem_of_lookup hlookup)

theorem tidy_idOf (line : String) : (idOf line).Tidy (Json.maxDepth - 2) := by
  have hnull : Json.Value.null.Tidy (Json.maxDepth - 2) := ⟨rfl, Nat.zero_le _⟩
  unfold idOf
  cases h : Request.read line.toList with
  | none => exact hnull
  | some r =>
    cases hid : r.id with
    | none =>
      rw [Option.bind_some, hid]
      exact hnull
    | some id =>
      rw [Option.bind_some, hid]
      exact tidy_id h hid

/-! ## Responses -/

/-- What an error tells, in order. -/
def envelope (e : Error) : Json.Value :=
  .object ([("code", .text e.code), ("hint", .text e.hint), ("message", .text e.message)] ++
    (e.subject.map fun subject => ("subject", Json.Value.text subject)).toList)

theorem read_pretty_error (e : Error) :
    Json.read (e.toValue.pretty 0).toList = some (envelope e) := by
  have hordered : e.toValue.ordered = envelope e := by
    unfold Error.toValue envelope
    cases e.subject <;> rfl
  rw [← hordered]
  refine Json.read_of_isText (Json.isText_pretty e.toValue 0) ?_ ?_
  · unfold Error.toValue
    cases e.subject <;> rfl
  · have hdepth : e.toValue.depth = 1 := by
      unfold Error.toValue
      cases e.subject <;> rfl
    rw [hdepth]
    decide

/-- What the last member of a response tells of the line and of what came of it. -/
structure Tells (line : String) (around : Surroundings) (w : Workspace) (name : String)
    (v : Json.Value) : Prop where
  outcome : name = "error" ∨ name = "result"
  error_iff : name = "error" ↔ ∃ code refusal, Refused line code refusal
  refused : ∀ code refusal, Refused line code refusal →
    v = .object [("code", .number (.ofInt code)), ("message", .text refusal.message)]
  /-- What a tool finds is told as text. -/
  done : ∀ work result, AsksFor line work → (work.run around w).1 = .ok result →
    name = "result" ∧ ∃ text : String,
      v = .object [("content", .array [.object [("text", .text text), ("type", .text "text")]])] ∧
      IsText result text.toList
  /-- An error of a tool is no error of the response. -/
  failed : ∀ work error, AsksFor line work → (work.run around w).1 = .error error →
    name = "result" ∧ ∃ text : String,
      v = .object [
        ("content", .array [.object [("text", .text text), ("type", .text "text")]]),
        ("isError", .bool true)] ∧
      Json.read text.toList = some (envelope error)

theorem tells_unreadable (h : Request.read line.toList = none) :
    Tells line around w "error" Refusal.unreadable.toValue := by
  have hnone {r : Request} (hr : Request.read line.toList = some r) : False := by
    rw [h] at hr
    cases hr
  constructor
  case outcome => exact .inl rfl
  case error_iff => exact ⟨fun _ => ⟨_, _, .unreadable h⟩, fun _ => rfl⟩
  case refused =>
    intro code refusal hrefused
    cases hrefused with
    | unreadable => rfl
    | unknownMethod hr => exact (hnone hr).elim
    | call hr => exact (hnone hr).elim
  case done =>
    rintro work result ⟨r, hr, -⟩
    exact (hnone hr).elim
  case failed =>
    rintro work error ⟨r, hr, -⟩
    exact (hnone hr).elim

theorem perform_of_asksFor (h : Request.read line.toList = some r) {work : Work Json.Value}
    (hwork : AsksFor line work) :
    (perform r around w).1 = .ok (told (work.run around w).1) := by
  obtain ⟨r', h', hr, hwork⟩ := hwork
  cases h.symm.trans h'
  rw [perform_call hr, callTool_of_work hwork]

/-- The member that tells the outcome of a request. -/
def outcomeMember : Except Refusal Json.Value → String × Json.Value
  | .ok result => ("result", result)
  | .error refusal => ("error", refusal.toValue)

theorem tells_perform (h : Request.read line.toList = some r) :
    Tells line around w (outcomeMember (perform r around w).1).1
      (outcomeMember (perform r around w).1).2 := by
  constructor
  case outcome =>
    cases (perform r around w).1 with
    | ok result => exact .inr rfl
    | error refusal => exact .inl rfl
  case error_iff =>
    simp only [refused_iff around w h]
    cases (perform r around w).1 with
    | ok result => simp [outcomeMember]
    | error refusal => simp [outcomeMember]
  case refused =>
    intro code refusal hrefused
    obtain ⟨hperform, rfl⟩ := (refused_iff around w h).mp hrefused
    rw [hperform]
    rfl
  case done =>
    intro work result hwork hresult
    rw [perform_of_asksFor h hwork, hresult]
    exact ⟨rfl, _, rfl, Json.isText_pretty result 0⟩
  case failed =>
    intro work error hwork herror
    rw [perform_of_asksFor h hwork, herror]
    exact ⟨rfl, _, rfl, read_pretty_error error⟩

theorem read_members {members : List (String × Json.Value)}
    (htidy : ∀ m ∈ members, m.2.Tidy (Json.maxDepth - 2)) (hwords : ∀ m ∈ members, m.2.inWords) :
    Json.read (Json.Value.object members).render.toList = some (.ofMembers members) := by
  have hordered : (Json.Value.object members).ordered = .ofMembers members := by
    rw [Json.Value.ordered, Json.orderedMembers_of_forall fun m hm => (htidy m hm).ordered]
  have hdepth : (Json.Value.object members).depth < Json.maxDepth :=
    Nat.succ_lt_succ (Nat.lt_succ_of_le (Json.depthOfMembers_le.mpr fun m hm => (htidy m hm).depth))
  rw [← hordered]
  exact Json.read_of_isText (Json.isText_render _) (Json.membersInWords_iff.mpr hwords) hdepth

theorem toValue_eq (id : Json.Value) (outcome : Except Refusal Json.Value) :
    (Response.mk id outcome).toValue =
      .object [("jsonrpc", Response.protocol), ("id", id), outcomeMember outcome] := by
  cases outcome <;> rfl

/-- The answer to a line is an object of three members in some order. -/
theorem exists_members {s : String} (h : (answer line around w).1 = some s) :
    ∃ members name v, s = (Json.Value.object members).render ∧
      members.Perm [("jsonrpc", .text "2.0"), ("id", idOf line), (name, v)] ∧
      v.Returns (Json.maxDepth - 2) ∧ Tells line around w name v := by
  cases hread : Request.read line.toList with
  | none =>
    have hid : idOf line = .null := by rw [idOf, hread]; rfl
    rw [answer, hread] at h
    cases h
    refine ⟨_, _, _, rfl, ?_, returns_refusal .unreadable, tells_unreadable hread⟩
    rw [hid]
    exact List.reverse_perm
      [("jsonrpc", Response.protocol), ("id", .null), ("error", Refusal.unreadable.toValue)]
  | some r =>
    have hid : idOf line = r.id.getD .null := by rw [idOf, hread]; rfl
    rw [answer_of_read hread] at h
    by_cases hr : r.isNotification
    · rw [respond_notification hr] at h
      cases h
    · rw [respond_of_not_notification hr] at h
      cases h
      dsimp only
      rw [toValue_eq, hid]
      refine ⟨_, _, _, rfl, .refl _, ?_, tells_perform hread⟩
      cases houtcome : (perform r around w).1 with
      | ok result => exact returns_perform houtcome
      | error refusal => exact returns_refusal refusal

/-- **What a line of response holds.**  Whatever the server remembers and whatever line comes, an
answer is a single line.  It is a text of an object with three members: the version of the protocol,
the identifier of the request (null if it has none or the line is no request), and either an error
or a result.  It is an error exactly if the line is refused, which has one of seven reasons and a
code that goes with the reason, and the errors of tools are among the results, with a flag and a
text that reads back as what the error tells.

The text is one by the grammar for any identifier.  The server's own reader takes it in if the
identifier holds no fractions: those it reads are not always the fractions that are written. -/
theorem answer_framed {s : String} (h : (answer line around w).1 = some s) :
    '\n' ∉ s.toList ∧ ∃ members name v,
      IsText (.object members) s.toList ∧
      members.Perm [("jsonrpc", .text "2.0"), ("id", idOf line), (name, v)] ∧
      Tells line around w name v ∧
      ((idOf line).inWords → Json.read s.toList = some (.ofMembers members)) := by
  obtain ⟨members, name, v, rfl, hperm, hreturns, htells⟩ := exists_members h
  have hprintable := Json.printable_render (.object members)
  refine ⟨fun hnewline => absurd (hprintable _ hnewline) (by decide), members, name, v,
    Json.isText_render _, hperm, htells, fun hid => ?_⟩
  have hmember {P : Json.Value → Prop} (hjsonrpc : P (.text "2.0")) (hid : P (idOf line))
      (hv : P v) : ∀ m ∈ members, P m.2 := by
    intro m hm
    have hm := hperm.mem_iff.mp hm
    simp only [List.mem_cons, List.not_mem_nil, or_false] at hm
    rcases hm with rfl | rfl | rfl
    · exact hjsonrpc
    · exact hid
    · exact hv
  have hversion : (Json.Value.text "2.0").Tidy (Json.maxDepth - 2) := ⟨rfl, Nat.zero_le _⟩
  exact read_members (hmember hversion (tidy_idOf line) hreturns.toTidy)
    (hmember (P := fun v => v.inWords) rfl hid hreturns.inWords)

/-! ### A line that calls for a project that is not there -/

def ghostLine : String :=
  "\x7b\"jsonrpc\":\"2.0\",\"id\":\"a\",\"method\":\"tools/call\",\"params\":" ++
    "\x7b\"name\":\"get_symbols\",\"arguments\":" ++
    "\x7b\"project\":\"ghost\",\"path\":\"a.py\"\x7d\x7d\x7d"

theorem read_ghostLine : Request.read ghostLine.toList =
    some { ghostCall with
      id := some (.text "a")
      parameters := some (.object [
        ("arguments", .object [("path", .text "a.py"), ("project", .text "ghost")]),
        ("name", .text "get_symbols")]) } := by
  cbv

theorem answer_ghostLine : (answer ghostLine ghostAround (.new {})).1 =
    some (Response.toValue {
      id := .text "a", outcome := .ok (told (.error (.projectNotFound "ghost"))) }).render := by
  rw [answer_of_read read_ghostLine]
  rfl

theorem answer_framed_ghostLine : ∃ s, (answer ghostLine ghostAround (.new {})).1 = some s ∧
    '\n' ∉ s.toList ∧ ∃ members name v,
      IsText (.object members) s.toList ∧
      members.Perm [("jsonrpc", .text "2.0"), ("id", .text "a"), (name, v)] ∧
      Tells ghostLine ghostAround (.new {}) name v ∧
      Json.read s.toList = some (.ofMembers members) := by
  have hid : idOf ghostLine = .text "a" := by
    rw [idOf, read_ghostLine]
    rfl
  obtain ⟨hline, members, name, v, htext, hperm, htells, hread⟩ := answer_framed answer_ghostLine
  rw [hid] at hperm hread
  exact ⟨_, answer_ghostLine, hline, members, name, v, htext, hperm, htells, hread rfl⟩

end Server

end CodeAtlas
