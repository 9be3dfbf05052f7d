import NodeShader.Compile.Inputs
import NodeShader.Compile.Options
import NodeShader.Compile.Outcome
import NodeShader.Formula.Lowering

/-!
The code of each kind of node.
-/

namespace NodeShader

/-- What a node contributes to the fragment body. -/
inductive Emission where
  | value (value : Typed)
  | color (code : Code)

namespace Node

def uvCode : Typed := ⟨.name "uv", .vec2f⟩

def timeCode : Typed := ⟨.name "u_time", .f32⟩

def constant (node : Node) : Typed := .literal ((node.scalarParam? "value").getD (.zero false))

/-- The text of a node's formula; a blank or missing one is a zero. -/
def formulaText (node : Node) : String :=
  let text := String.ofList (trimBlanks ((node.textParam? "expr").getD "").toList)
  if text.isEmpty then "0" else text

def environment (inputs : Inputs) : Environment where
  a := inputs.get 0 .f32
  b := inputs.get 1 .f32
  time := timeCode
  uv := uvCode

def formula (node : Node) (inputs : Inputs) (options : Options) : Outcome Typed :=
  match Formula.compileScalar (environment inputs) node.formulaText with
  | .ok value => pure value
  | .error error =>
    if options.strictExpressions then .fail (.badFormula node.id node.formulaText error)
    else do
      .note (.badFormula node.id error)
      return .zero .f32

/-- The scalar in a slot, as a plain literal if it is one. -/
def scalar (inputs : Inputs) (slot : Nat) (default : F32) : Typed :=
  let value := inputs.getOr slot .f32 (.literal default)
  match value.literal? with
  | some number => .literal number
  | none => value

/-- A parameter that is a finite number, or a default. -/
def finiteParam (node : Node) (key : String) (default : F32) : F32 :=
  ((node.scalarParam? key).filter (·.isFinite)).getD default

/-- The least softness of an edge. -/
def minimalEdge : F32 := .ofDecimal 1 (-4)

def atLeastMinimal (edge : Typed) : Typed :=
  match edge.literal? with
  | some value => .literal (value.max minimalEdge)
  | none => ⟨.call "max" [edge.code, .literal minimalEdge], .f32⟩

/-- An operation on scalars, carried out if both are literals. -/
def folded (operator : Operator) (left right : Typed) : Code :=
  match left.literal?, right.literal? with
  | some x, some y => .literal (operator.apply x y)
  | _, _ => .binary operator left.code right.code

/-- One inside a circle around the middle of the canvas and zero outside, with a soft edge. -/
def circle (node : Node) (inputs : Inputs) : Typed :=
  let radius := scalar inputs 0 (node.finiteParam "radius" (.ofDecimal 25 (-2)))
  let edge := atLeastMinimal (scalar inputs 1 (node.finiteParam "edge" (.ofDecimal 2 (-2))))
  let middle := Code.call "vec2f" [.number 5 (-1), .number 5 (-1)]
  let rise := Code.call "smoothstep" [folded .sub radius edge, folded .add radius edge,
    .call "distance" [uvCode.code, middle]]
  ⟨.binary .sub (.number 1 0) rise, .f32⟩

def componentwise (operator : Operator) (inputs : Inputs) : Typed :=
  ⟨.binary operator (inputs.get 0 .vec3f).code (inputs.get 1 .vec3f).code, .vec3f⟩

def saturated (inputs : Inputs) : Typed :=
  ⟨.call "clamp" [(inputs.get 0 .vec3f).code, .call "vec3f" [.number 0 0],
    .call "vec3f" [.number 1 0]], .vec3f⟩

/-- What a node contributes, given its inputs. -/
def compile (node : Node) (inputs : Inputs) (options : Options) : Outcome Emission :=
  match node.kind with
  | .uv => pure (.value uvCode)
  | .time => pure (.value timeCode)
  | .constFloat => pure (.value node.constant)
  | .expr => return .value (← node.formula inputs options)
  | .circleField => pure (.value (node.circle inputs))
  | .multiply => pure (.value (componentwise .mul inputs))
  | .add => pure (.value (componentwise .add inputs))
  | .saturate => pure (.value (saturated inputs))
  | .outputFinal => pure (.color (inputs.get 0 .vec3f).code)
  | .unknown => do
    .note (.unknownKind node.id node.kindName)
    return .value (.zero .vec3f)

end Node

end NodeShader
