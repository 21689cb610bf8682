import CodeAtlas.Server.Arguments
import CodeAtlas.Workspace.Basic

/-! # Tools

A tool is a call on a workspace that is made by name.  Its parameters are both what it tells about
its arguments and what decides how they are read. -/

namespace CodeAtlas.Server

/-- Why a request is refused. -/
inductive Refusal where
  | unreadable
  | unknownMethod (name : String)
  | noParameters
  | noToolName
  | unknownTool (name : String)
  | arguments (fault : ArgumentFault)
  | mixedRanges

namespace Refusal

def code : Refusal → Int
  | unreadable => -32700
  | unknownMethod _ => -32601
  | noParameters | noToolName | unknownTool _ | arguments _ | mixedRanges => -32602

/-- What is told of a refusal.  What a line that cannot be read has wrong with it is left out. -/
def message : Refusal → String
  | unreadable => "Parse error"
  | unknownMethod name => s!"Method not found: {name}"
  | noParameters => "Missing params"
  | noToolName => "Missing tool name"
  | unknownTool name => s!"Unknown tool: {name}"
  | arguments fault => s!"Invalid arguments: {fault.message}"
  | mixedRanges => "Use either a line range or a byte range, not both"

def toValue (r : Refusal) : Json.Value :=
  .object [("code", .number (.ofInt r.code)), ("message", .text r.message)]

end Refusal

structure Tool where
  name : String
  description : String
  /-- What messages call the record of the arguments. -/
  record : String := ""
  parameters : List Parameter := []
  /-- What the tool does with its arguments, unless they contradict each other. -/
  work : Arguments parameters → Except Refusal (Work Json.Value)

namespace Tool

/-! ## What a tool tells about itself -/

def members : Shape → List (String × Json.Value)
  | .text => [("type", .text "string")]
  | .count => [("type", .text "integer")]
  | .flag => [("type", .text "boolean")]
  | .texts => [("type", .text "array"), ("items", .object [("type", .text "string")])]
  | .fraction => [("type", .text "number")]
  | .optional s => members s

def describe (p : Parameter) : Json.Value :=
  .ofMembers (("description", .text p.description) :: members p.shape)

def schema (ps : List Parameter) : Json.Value :=
  let required := (ps.filter Parameter.isRequired).map Parameter.name
  let properties := Json.Value.ofMembers (ps.map fun p => (p.name, describe p))
  let demand := if required.isEmpty then [] else [("required", Json.Value.texts required)]
  .ofMembers ([("type", .text "object"), ("properties", properties)] ++ demand)

def toValue (t : Tool) : Json.Value :=
  .ofMembers [
    ("name", .text t.name), ("description", .text t.description),
    ("inputSchema", schema t.parameters)]

/-! ## Calls -/

/-- The work that a call asks for.  A tool without parameters takes any arguments. -/
def call (t : Tool) (arguments : Json.Value) : Except Refusal (Work Json.Value) :=
  match t with
  | { parameters := [], work, .. } => work ()
  | { record, parameters := p :: ps, work, .. } =>
    match Arguments.read record (p :: ps) arguments with
    | .ok arguments => work arguments
    | .error fault => .error (.arguments fault)

end Tool

end CodeAtlas.Server
