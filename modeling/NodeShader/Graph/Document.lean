import NodeShader.Graph.Scheme

/-!
Graphs as JSON documents.
-/

namespace NodeShader

namespace Pin

def decoder : Decoder Pin := .record [["node"], ["pin"]] fun levels fields =>
  match fields with
  | [node, pin] => do
    return ⟨← Decoder.required .text levels node, ← Decoder.required .whole levels pin⟩
  | _ => none

def json (pin : Pin) : Json :=
  .object [("node", .string pin.node), ("pin", .number (.integer pin.pin))]

end Pin

namespace Wire

def decoder : Decoder Wire := .record [["from"], ["to"]] fun levels fields =>
  match fields with
  | [source, target] => do
    return ⟨← Decoder.required Pin.decoder levels source,
      ← Decoder.required Pin.decoder levels target⟩
  | _ => none

def json (wire : Wire) : Json := .object [("from", wire.source.json), ("to", wire.target.json)]

end Wire

namespace Node

def decoder : Decoder Node :=
  .record [["id"], ["type", "kind"], ["inputs"], ["params"]] fun levels fields =>
    match fields with
    | [id, kind, inputs, params] => do
      return {
        id := ← Decoder.required .text levels id
        kindName := ← Decoder.required .text levels kind
        inputs := ← Decoder.withDefault [] (.list (.optional .text)) levels inputs
        params := ← Decoder.withDefault [] (.table .json) levels params }
    | _ => none

def json (node : Node) : Json := .object [
  ("id", .string node.id),
  ("type", .string node.kindName),
  ("inputs", .array (node.inputs.map fun input => (input.map Json.string).getD .null)),
  ("params", .object node.params)]

end Node

namespace Graph

def decoder : Decoder Graph := .record [["nodes"], ["edges"]] fun levels fields =>
  match fields with
  | [nodes, wires] => do
    return ⟨← Decoder.withDefault [] (.list Node.decoder) levels nodes,
      ← Decoder.withDefault [] (.list Wire.decoder) levels wires⟩
  | _ => none

/-- The graph that a text describes, with its defaults filled in. -/
def read? (text : String) : Option Graph := do
  let graph ← decoder Document.maxLevels (← Document.read? text)
  graph.normalize?

def json (graph : Graph) : Json := .object [
  ("nodes", .array (graph.nodes.map Node.json)),
  ("edges", .array (graph.wires.map Wire.json))]

end Graph

end NodeShader
