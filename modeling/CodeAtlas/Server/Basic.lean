import CodeAtlas.Server.Catalog
import CodeAtlas.Server.Request

/-! # The server

The server answers each line with one line or not at all.  The result of a tool is shown as text,
and so is an error of its work; neither is a refusal of the request. -/

namespace CodeAtlas

/-- What an error tells a caller. -/
def Error.toValue (e : Error) : Json.Value :=
  .object <| [("code", .text e.code), ("message", .text e.message)] ++
    (e.subject.map fun subject => ("subject", Json.Value.text subject)).toList ++
    [("hint", .text e.hint)]

namespace Server

def protocolVersion : String := "2024-11-05"

def name : String := "arbor-mcp"

def introduction : Json.Value :=
  .object [
    ("capabilities", .object [("tools", .object [])]),
    ("protocolVersion", .text protocolVersion),
    ("serverInfo", .object [("name", .text name), ("version", .text Workspace.version)])]

/-- A result as text. -/
def content (v : Json.Value) : String × Json.Value :=
  ("content", .array [.object [("text", .text (v.pretty 0)), ("type", .text "text")]])

/-- What is told of the outcome of a tool's work. -/
def told : Except Error Json.Value → Json.Value
  | .ok v => .object [content v]
  | .error e => .object [content e.toValue, ("isError", .bool true)]

/-- The work that the parameters of a call ask for. -/
def toolWork (parameters : Option Json.Value) : Except Refusal (Work Json.Value) :=
  match parameters with
  | none => .error .noParameters
  | some parameters =>
    match (parameters.get? "name").bind Json.Value.text? with
    | none => .error .noToolName
    | some name =>
      match Tool.find? name with
      | none => .error (.unknownTool name)
      | some tool => tool.call ((parameters.get? "arguments").getD (.object []))

def callTool (parameters : Option Json.Value) (around : Surroundings) (w : Workspace) :
    Except Refusal Json.Value × Workspace :=
  match toolWork parameters with
  | .error refusal => (.error refusal, w)
  | .ok work =>
    let (outcome, w) := work.run around w
    (.ok (told outcome), w)

/-- What comes of a request by its method. -/
def perform (r : Request) (around : Surroundings) (w : Workspace) :
    Except Refusal Json.Value × Workspace :=
  match r.method with
  | "initialize" => (.ok introduction, w)
  | "ping" => (.ok (.object []), w)
  | "tools/list" => (.ok (.object [("tools", .array (Tool.all.map Tool.toValue))]), w)
  | "tools/call" => callTool r.parameters around w
  | method => (.error (.unknownMethod method), w)

/-- The response to a request, unless it asks for none. -/
def respond (r : Request) (around : Surroundings) (w : Workspace) : Option Response × Workspace :=
  if r.isNotification then (none, w)
  else
    let (outcome, w) := perform r around w
    (some { id := r.id.getD .null, outcome }, w)

/-- The line that answers a line, if there is one.  What it says of work that breaks off is never
sent. -/
def answer (line : String) (around : Surroundings) (w : Workspace) : Option String × Workspace :=
  match Request.read line.toList with
  | none => (some Response.unreadable.render, w)
  | some r =>
    let (response, w) := respond r around w
    (response.map fun response => response.toValue.render, w)

end Server

end CodeAtlas
