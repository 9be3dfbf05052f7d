import NodeShader.Compile.Identifiers
import NodeShader.Compile.Node
import NodeShader.Graph.Closure
import NodeShader.Wgsl.Program

/-!
Compiling graphs: the nodes that the selected output needs are declared one after the other in
dependency order, and the output sets the color.
-/

namespace NodeShader

inductive Shader where
  /-- The program of a graph without output. -/
  | fallback
  | body (statements : List Statement)

namespace Shader

def text : Shader → String
  | .fallback => Program.fallback
  | .body statements => Program.text (statements.map Statement.text)

end Shader

/-- A fragment body that is being written. -/
structure Draft where
  identifiers : Identifiers
  bindings : Bindings
  statements : List Statement

namespace Draft

def empty : Draft := ⟨.empty, .empty, []⟩

def append (draft : Draft) (statement : Statement) : Draft :=
  { draft with statements := draft.statements ++ [statement] }

/-- Declares the value of a node. -/
def declare (draft : Draft) (id : String) (value : Typed) (options : Options) : Outcome Draft := do
  let (identifier, identifiers) ← draft.identifiers.allocate id options.strictIdentifiers
  let bindings := draft.bindings.bind id ⟨.name identifier, value.type⟩
  return { draft.append (.declare identifier value) with identifiers, bindings }

/-- Adds the statement of a node; outputs other than the selected one have none. -/
def add (options : Options) (output : Node) (order : Order) (draft : Draft) (node : Node) :
    Outcome Draft :=
  if node.kind.isOutput && node.id != output.id then do
    .note (.inactiveOutput node.id)
    return draft
  else do
    match ← node.compile ⟨order.slots node, draft.bindings⟩ options with
    | .value value => draft.declare node.id value options
    | .color code => return draft.append (.output code)

end Draft

namespace Graph

/-- The dependency order of the nodes that an output needs. -/
def orderFor (graph : Graph) (output : Node) : Order :=
  graph.order.restrict (graph.closure output.id)

def compile (graph : Graph) (options : Options) : Outcome Shader :=
  match graph.output? with
  | none => do
    .note .noOutput
    return .fallback
  | some output => do
    let order := graph.orderFor output
    graph.order.cuts.forM fun cut => .note (.cycle cut)
    if order.nodes.isEmpty then
      .note (.nothingNeeded output.id)
      return .fallback
    else
      .note (.compiling order.nodes.length graph.nodes.length output.id order.cuts.length order.ids)
      let draft ← order.nodes.foldlM (Draft.add options output order) .empty
      return .body draft.statements

/-- The shader of a graph when nothing is rejected. -/
def shader (graph : Graph) : Shader := (graph.compile .lenient).result.toOption.getD .fallback

end Graph

end NodeShader
