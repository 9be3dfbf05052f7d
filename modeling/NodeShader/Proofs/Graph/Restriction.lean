import Mathlib.Tactic.ByContra
import NodeShader.Proofs.Graph.Search

/-!
Leaving nodes out of a graph. When a search comes to the nodes that stay only through one another,
those left out do not change the order of the rest.
-/

namespace NodeShader

namespace Graph

/-- The graph of the nodes with the given ids. -/
def restrict (graph : Graph) (ids : List String) : Graph :=
  { graph with nodes := graph.nodes.filter fun node => ids.contains node.id }

end Graph

namespace Search

/-- What a search has seen of the nodes with the given ids. -/
def restrict (search : Search) (ids : List String) : Search :=
  ⟨search.entered.filter ids.contains, search.order.restrict ids⟩

variable {search : Search} {kept : List String} {node : Node}

/-- Visits of nodes left out, further in than all visits of nodes that stay: what was entered of
the nodes left out is listed or among them. -/
structure Aside (graph : Graph) (kept : List String) (inner outer : List Visit) (search : Search) :
    Prop where
  left : ∀ visit ∈ inner, graph.find? visit.node.id = some visit.node ∧ visit.node.id ∉ kept
  known : ∀ visit ∈ inner, visit.node.id ∈ search.entered
  stays : ∀ visit ∈ outer, visit.node.id ∈ kept
  settled : ∀ id ∈ search.entered, id ∉ kept →
    search.hasListed id = true ∨ id ∈ inner.map (·.node.id)

/-- The nodes left out that a search has entered in the end are fed, as far as by nodes that stay,
by such as were entered before. -/
def Late (graph : Graph) (kept : List String) (search final : Search) : Prop :=
  ∀ node slot target, graph.find? node.id = some node → node.id ∉ kept →
    node.id ∈ final.entered → graph.feeder? node slot = some target → target.id ∈ kept →
    target.id ∈ search.entered

variable {graph : Graph} {next final : Search} {target : Node} {slot : Nat} {slots : List Nat}
  {inner outer : List Visit}

theorem Late.mono {ends : Search} (late : Late graph kept search final)
    (grown : search.entered ⊆ next.entered) (fewer : ends.entered ⊆ final.entered) :
    Late graph kept next ends :=
  fun node slot target first out entered feeds stays =>
    grown (late node slot target first out (fewer entered) feeds stays)

namespace Aside

theorem cut (aside : Aside graph kept inner outer search) (cut : Cut) :
    Aside graph kept inner outer (search.cut cut) :=
  ⟨aside.left, aside.known, aside.stays, aside.settled⟩

end Aside

end Search

namespace Graph

open Search

variable {graph : Graph} {kept : List String}

end Graph

end NodeShader
