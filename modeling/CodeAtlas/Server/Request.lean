import CodeAtlas.Json.Reader
import CodeAtlas.Server.Tool

/-! # Requests and responses

A request is one line of JSON, and so is a response.  A request is an object, or an array of its
four fields in order.  A response tells the identifier of its request, and either a result or why
the request was refused. -/

namespace CodeAtlas.Server

structure Request where
  id : Option Json.Value
  method : String
  parameters : Option Json.Value

namespace Request

def fieldNames : List String := ["jsonrpc", "id", "method", "params"]

/-- Null stands for a field that is left out. -/
def present? : Option Json.Value → Option Json.Value
  | some .null => none
  | v => v

def ofFields? (fields : List (String × Json.Value)) : Option Request := do
  let _ ← (← fields.lookup "jsonrpc").text?
  let method ← (← fields.lookup "method").text?
  return {
    id := present? (fields.lookup "id")
    method
    parameters := present? (fields.lookup "params") }

def read (line : List Char) : Option Request :=
  (Json.readRecord fieldNames line).bind ofFields?

/-- A notification asks for no response. -/
def isNotification (r : Request) : Bool :=
  "notifications/".toList.isPrefixOf r.method.toList

end Request

structure Response where
  id : Json.Value
  outcome : Except Refusal Json.Value

namespace Response

def protocol : Json.Value := .text "2.0"

def toValue (r : Response) : Json.Value :=
  match r.outcome with
  | .ok result => .object [("jsonrpc", protocol), ("id", r.id), ("result", result)]
  | .error refusal =>
    .object [("jsonrpc", protocol), ("id", r.id), ("error", refusal.toValue)]

/-- The response to a line that holds no request. -/
def unreadable : Json.Value :=
  .object [("error", Refusal.unreadable.toValue), ("id", .null), ("jsonrpc", protocol)]

end Response

end CodeAtlas.Server
