import NodeShader.Graph.Basic
import NodeShader.Json.Record

/-!
Schemes of nodes: which kinds of nodes an editor offers, with their sockets and default parameters.
-/

namespace NodeShader

inductive SocketType where
  | float
  | vec2
  | vec3
  deriving DecidableEq, Repr

namespace SocketType

def name : SocketType → String
  | .float => "Float"
  | .vec2 => "Vec2"
  | .vec3 => "Vec3"

def valueType : SocketType → ValueType
  | .float => .f32
  | .vec2 => .vec2f
  | .vec3 => .vec3f

def decoder : Decoder SocketType := .name
  [("float", .float), ("f32", .float), ("scalar", .float),
    ("vec2", .vec2), ("vector2", .vec2),
    ("vec3", .vec3), ("vector3", .vec3), ("color", .vec3)]

end SocketType

structure Socket where
  id : String
  type : SocketType
  deriving DecidableEq, Repr

structure NodeScheme where
  category : Option String
  inputs : List Socket
  output : Option SocketType
  defaults : List (String × Json)
  deriving DecidableEq

structure Scheme where
  version : String
  nodes : List (String × NodeScheme)
  deriving DecidableEq

namespace Socket

def decoder : Decoder Socket := .record [["id"], ["type"]] fun levels fields =>
  match fields with
  | [id, type] => do
    return ⟨← Decoder.required .text levels id, ← Decoder.required SocketType.decoder levels type⟩
  | _ => none

end Socket

namespace NodeScheme

def decoder : Decoder NodeScheme :=
  .record [["category"], ["inputs"], ["output"], ["defaultParams"]] fun levels fields =>
    match fields with
    | [category, inputs, output, defaults] => do
      return {
        category := ← Decoder.withDefault none (.optional .text) levels category
        inputs := ← Decoder.withDefault [] (.list Socket.decoder) levels inputs
        output := ← Decoder.withDefault none (.optional SocketType.decoder) levels output
        defaults := ← Decoder.withDefault [] (.table .json) levels defaults }
    | _ => none

/-- Pads the inputs of a node to its slots, and adds the parameters it leaves out. -/
def complete (scheme : NodeScheme) (node : Node) : Node :=
  { node with
    inputs := node.inputs ++ List.replicate (scheme.inputs.length - node.inputs.length) none
    params := node.params ++ scheme.defaults.filter fun entry => (node.param? entry.1).isNone }

end NodeScheme

namespace Scheme

def decoder : Decoder Scheme := .record [["version"], ["nodes"]] fun levels fields =>
  match fields with
  | [version, nodes] => do
    return ⟨← Decoder.required .text levels version,
      ← Decoder.required (.table NodeScheme.decoder) levels nodes⟩
  | _ => none

def read? (text : String) : Option Scheme := do
  decoder Document.maxLevels (← Document.read? text)

/-- The entry for the name of a kind, with its key. -/
def entry? (scheme : Scheme) (name : String) : Option (String × NodeScheme) :=
  match NodeKind.ofName name with
  | .unknown => none
  | kind => (scheme.nodes.lookup kind.name).map (kind.name, ·)

/-- The text of the scheme that comes with the program. -/
def bundledText : String := "\x7b
  \"version\": \"1\",
  \"nodes\": \x7b
    \"UV\": \x7b
      \"category\": \"Input\",
      \"output\": \"vec2\"
    \x7d,
    \"Time\": \x7b
      \"category\": \"Input\",
      \"output\": \"float\"
    \x7d,
    \"ConstFloat\": \x7b
      \"category\": \"Input\",
      \"output\": \"float\",
      \"defaultParams\": \x7b \"value\": 0.0 \x7d
    \x7d,
    \"Expr\": \x7b
      \"category\": \"Math\",
      \"inputs\": [
        \x7b \"id\": \"a\", \"type\": \"float\" \x7d,
        \x7b \"id\": \"b\", \"type\": \"float\" \x7d
      ],
      \"output\": \"float\",
      \"defaultParams\": \x7b \"expr\": \"0\" \x7d
    \x7d,
    \"CircleField\": \x7b
      \"category\": \"Field\",
      \"inputs\": [
        \x7b \"id\": \"R\", \"type\": \"float\" \x7d,
        \x7b \"id\": \"E\", \"type\": \"float\" \x7d
      ],
      \"output\": \"float\"
    \x7d,
    \"Multiply\": \x7b
      \"category\": \"Math\",
      \"inputs\": [
        \x7b \"id\": \"A\", \"type\": \"vec3\" \x7d,
        \x7b \"id\": \"B\", \"type\": \"vec3\" \x7d
      ],
      \"output\": \"vec3\"
    \x7d,
    \"Add\": \x7b
      \"category\": \"Math\",
      \"inputs\": [
        \x7b \"id\": \"A\", \"type\": \"vec3\" \x7d,
        \x7b \"id\": \"B\", \"type\": \"vec3\" \x7d
      ],
      \"output\": \"vec3\"
    \x7d,
    \"Saturate\": \x7b
      \"category\": \"Math\",
      \"inputs\": [
        \x7b \"id\": \"In\", \"type\": \"vec3\" \x7d
      ],
      \"output\": \"vec3\"
    \x7d,
    \"OutputFinal\": \x7b
      \"category\": \"Output\",
      \"inputs\": [
        \x7b \"id\": \"color\", \"type\": \"vec3\" \x7d
      ]
    \x7d
  \x7d
\x7d
"

/-- The scheme of the kinds that can be compiled. -/
def bundled : Scheme where
  version := "1"
  nodes := [
    ("UV", ⟨some "Input", [], some .vec2, []⟩),
    ("Time", ⟨some "Input", [], some .float, []⟩),
    ("ConstFloat", ⟨some "Input", [], some .float,
      [("value", .number (.fraction (.zero false)))]⟩),
    ("Expr", ⟨some "Math", [⟨"a", .float⟩, ⟨"b", .float⟩], some .float,
      [("expr", .string "0")]⟩),
    ("CircleField", ⟨some "Field", [⟨"R", .float⟩, ⟨"E", .float⟩], some .float, []⟩),
    ("Multiply", ⟨some "Math", [⟨"A", .vec3⟩, ⟨"B", .vec3⟩], some .vec3, []⟩),
    ("Add", ⟨some "Math", [⟨"A", .vec3⟩, ⟨"B", .vec3⟩], some .vec3, []⟩),
    ("Saturate", ⟨some "Math", [⟨"In", .vec3⟩], some .vec3, []⟩),
    ("OutputFinal", ⟨some "Output", [⟨"color", .vec3⟩], none, []⟩)]

/-- Completes a node if the scheme has an entry for its kind. -/
def complete (scheme : Scheme) (node : Node) : Node :=
  match scheme.entry? node.kindName with
  | some (_, entry) => entry.complete node
  | none => node

end Scheme

namespace Graph

/-- The graph with the inputs and parameters filled in that its nodes have by a scheme. -/
def completeBy (graph : Graph) (scheme : Scheme) : Graph :=
  { graph with nodes := graph.nodes.map scheme.complete }

/-- The graph with the default inputs and parameters of every node filled in. -/
def complete (graph : Graph) : Graph := graph.completeBy .bundled

/-- Fills in what nodes have by the scheme that comes with the program, as its text is read. -/
def normalize? (graph : Graph) : Option Graph :=
  (Scheme.read? Scheme.bundledText).map graph.completeBy

end Graph

end NodeShader
