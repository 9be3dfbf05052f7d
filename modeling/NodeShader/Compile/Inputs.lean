import NodeShader.Graph.Order
import NodeShader.Wgsl.Code

/-!
What a node reads: the values declared so far, looked up by the ids in the node's slots.
-/

namespace NodeShader

/-- The declared values, by the ids of their nodes; the newest of an id counts. -/
structure Bindings where
  values : List (String × Typed)

namespace Bindings

def empty : Bindings := ⟨[]⟩

def bind (bindings : Bindings) (id : String) (value : Typed) : Bindings :=
  ⟨(id, value) :: bindings.values⟩

def find? (bindings : Bindings) (id : Option String) : Option Typed := do
  bindings.values.lookup (← id)

theorem find?_bind_self (bindings : Bindings) (id : String) (value : Typed) :
    (bindings.bind id value).find? (some id) = some value := by
  simp [find?, bind]

theorem find?_bind_of_ne (bindings : Bindings) {id other : String} (value : Typed)
    (h : other ≠ id) :
    (bindings.bind id value).find? (some other) = bindings.find? (some other) := by
  simp [find?, bind, List.lookup_cons, beq_eq_false_iff_ne.2 h]

/-- The value of an id as a type, or a default when there is none. -/
def getOr (bindings : Bindings) (id : Option String) (type : ValueType) (default : Typed) : Typed :=
  ((bindings.find? id).getD default).convert type

/-- The value of an id as a type, or its zero when there is none. -/
def get (bindings : Bindings) (id : Option String) (type : ValueType) : Typed :=
  bindings.getOr id type (.zero type)

end Bindings

structure Inputs where
  slots : List (Option String)
  bindings : Bindings

namespace Inputs

/-- The id in a slot. -/
def slot? (inputs : Inputs) (slot : Nat) : Option String := inputs.slots[slot]?.join

def get (inputs : Inputs) (slot : Nat) (type : ValueType) : Typed :=
  inputs.bindings.get (inputs.slot? slot) type

def getOr (inputs : Inputs) (slot : Nat) (type : ValueType) (default : Typed) : Typed :=
  inputs.bindings.getOr (inputs.slot? slot) type default

end Inputs

namespace Order

/-- The ids in the slots of a node, without those whose wire is cut. -/
def slots (order : Order) (node : Node) : List (Option String) :=
  node.slots.map fun slot => if order.isCut node.id slot then none else node.input? slot

end Order

end NodeShader
