import NodeShader.Graph.Kind
import NodeShader.Json.Value
import NodeShader.Text.Blank

/-!
Graphs of shading nodes. A node names the nodes it reads from, one per input slot; where ids
repeat, the first node of an id is the one that is meant.
-/

namespace NodeShader

structure Node where
  id : String
  kindName : String
  inputs : List (Option String)
  params : List (String × Json)

/-- A place where a drawn wire ends. -/
structure Pin where
  node : String
  pin : Nat
  deriving DecidableEq, Repr

/-- A drawn wire. What a node reads is in its inputs; wires are only kept. -/
structure Wire where
  source : Pin
  target : Pin
  deriving DecidableEq, Repr

structure Graph where
  nodes : List Node
  wires : List Wire

namespace Json

/-- The scalar that a parameter holds, as a number or as the text of one. -/
def scalar? : Json → Option F32
  | .number (.integer value) => some (Floating.ofInt value : F64).convert
  | .number (.fraction value) => some value.convert
  | .string text => Floating.read? (trimBlanks text.toList)
  | _ => none

def text? : Json → Option String
  | .string text => some text
  | _ => none

end Json

namespace Node

def kind (node : Node) : NodeKind := .ofName node.kindName

/-- The id wired into a slot; an empty id or the node's own is no wire. -/
def input? (node : Node) (slot : Nat) : Option String :=
  match node.inputs[slot]? with
  | some (some id) => if id.isEmpty || id == node.id then none else some id
  | _ => none

def slots (node : Node) : List Nat := List.range node.inputs.length

def param? (node : Node) (key : String) : Option Json := node.params.lookup key

def scalarParam? (node : Node) (key : String) : Option F32 := do (← node.param? key).scalar?

def textParam? (node : Node) (key : String) : Option String := do (← node.param? key).text?

end Node

namespace Graph

/-- The node that an id stands for. -/
def find? (graph : Graph) (id : String) : Option Node := graph.nodes.find? (·.id == id)

/-- The node that feeds a slot of a node. -/
def feeder? (graph : Graph) (node : Node) (slot : Nat) : Option Node := do
  graph.find? (← node.input? slot)

theorem find?_id {graph : Graph} {id : String} {node : Node} (h : graph.find? id = some node) :
    node.id = id := by
  simpa using List.find?_some h

theorem find?_mem {graph : Graph} {id : String} {node : Node} (h : graph.find? id = some node) :
    node ∈ graph.nodes :=
  List.mem_of_find?_eq_some h

theorem feeder?_mem {graph : Graph} {node target : Node} {slot : Nat}
    (h : graph.feeder? node slot = some target) : target ∈ graph.nodes := by
  obtain ⟨_, _, found⟩ := Option.bind_eq_some_iff.1 h
  exact find?_mem found

/-- What a walk still has to look at: the nodes whose ids are not among `ids`, each with its
slots. -/
def effortOutside (ids : List String) : List Node → Nat
  | [] => 0
  | node :: rest =>
    (if ids.contains node.id then 0 else node.inputs.length + 1) + effortOutside ids rest

theorem effortOutside_cons_le (id : String) (ids : List String) (nodes : List Node) :
    effortOutside (id :: ids) nodes ≤ effortOutside ids nodes := by
  induction nodes with
  | nil => exact Nat.le_refl _
  | cons node rest ih =>
    refine Nat.add_le_add ?_ ih
    cases known : ids.contains node.id <;> simp_all
    split <;> omega

/-- Taking up a new node leaves less to look at, by the node and its slots. -/
theorem effortOutside_cons_lt {ids : List String} {node : Node} {nodes : List Node}
    (present : node ∈ nodes) (new : ids.contains node.id = false) :
    effortOutside (node.id :: ids) nodes + node.inputs.length < effortOutside ids nodes := by
  induction nodes with
  | nil => cases present
  | cons first rest ih =>
    have others := effortOutside_cons_le node.id ids rest
    cases present with
    | head =>
      simp only [effortOutside, new, List.contains_cons, beq_self_eq_true, Bool.true_or, if_true,
        Bool.false_eq_true, if_false]
      omega
    | tail _ present =>
      have kept := effortOutside_cons_le node.id ids [first]
      have := ih present
      simp only [effortOutside] at kept ⊢
      omega

end Graph

end NodeShader
