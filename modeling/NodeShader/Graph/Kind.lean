import NodeShader.Wgsl.ValueType

/-!
Kinds of nodes. Graphs hold the names of kinds; a name that stands for none is of the unknown kind.
-/

namespace NodeShader

inductive NodeKind where
  | uv
  | time
  | constFloat
  | expr
  | circleField
  | multiply
  | add
  | saturate
  | outputFinal
  | unknown
  deriving DecidableEq, Repr

namespace NodeKind

/-- The name that a graph editor uses. -/
def name : NodeKind → String
  | .uv => "UV"
  | .time => "Time"
  | .constFloat => "ConstFloat"
  | .expr => "Expr"
  | .circleField => "CircleField"
  | .multiply => "Multiply"
  | .add => "Add"
  | .saturate => "Saturate"
  | .outputFinal => "OutputFinal"
  | .unknown => "Unknown"

/-- The kind of a name, whatever its letter case, hyphens and underscores. -/
def ofName (name : String) : NodeKind :=
  let letters := name.toList.filter fun c => c != '_' && c != '-'
  match String.ofList (letters.map Char.toLower) with
  | "uv" => .uv
  | "time" => .time
  | "constfloat" => .constFloat
  | "expr" => .expr
  | "circlefield" => .circleField
  | "multiply" => .multiply
  | "add" => .add
  | "saturate" => .saturate
  | "outputfinal" => .outputFinal
  | _ => .unknown

theorem ofName_name (kind : NodeKind) : ofName kind.name = kind := by
  cases kind <;> decide +kernel

/-- How many inputs a node of the kind has. -/
def inputCount : NodeKind → Nat
  | .uv | .time | .constFloat | .unknown => 0
  | .saturate | .outputFinal => 1
  | .expr | .circleField | .multiply | .add => 2

/-- The type of the node's value; outputs have none. -/
def outputType? : NodeKind → Option ValueType
  | .uv => some .vec2f
  | .time | .constFloat | .expr | .circleField => some .f32
  | .multiply | .add | .saturate | .unknown => some .vec3f
  | .outputFinal => none

def isOutput (kind : NodeKind) : Bool := kind == .outputFinal

end NodeKind

end NodeShader
