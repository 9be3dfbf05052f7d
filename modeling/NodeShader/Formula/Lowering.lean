import NodeShader.Formula.Parser

/-!
Shader code of formulas. An operation on float literals alone is carried out here, and a result
that is not finite counts as zero: what remains in the code for the shader to compute depends on a
value that is only known when it runs.
-/

namespace NodeShader

/-- What each slot of a formula stands for. -/
structure Environment where
  a : Typed
  b : Typed
  time : Typed
  uv : Typed

namespace Environment

def get (environment : Environment) : Slot → Typed
  | .a => environment.a
  | .b => environment.b
  | .time => environment.time
  | .uv => environment.uv

end Environment

namespace Formula

def lowerNegate (x : Typed) : Typed :=
  match x.literal? with
  | some value => .literal (-value)
  | none => ⟨.paren (.negate x.code), x.type⟩

def lowerBinary (operator : Operator) (left right : Typed) : Typed :=
  match left.literal?, right.literal? with
  | some x, some y => .literal (operator.apply x y)
  | _, _ =>
    ⟨.paren (.binary operator left.code right.code), ValueType.widest [left.type, right.type]⟩

/-- A number filled into every component of a type. -/
def splat (value : F32) (type : ValueType) : Code := ((Typed.literal value).convert type).code

/-- A call of `clamp` or `smoothstep` with literal bounds in the wrong order, which the language
refuses, as the code that computes what its formula gives there. -/
def lowerMisordered? (function : Builtin) (arguments : List Typed) : Option Typed :=
  match function, arguments with
  | .clamp, [x, low, high] => do
    let lowValue ← low.literal?
    let highValue ← high.literal?
    if highValue.lt lowValue then some ⟨splat highValue x.type, x.type⟩ else none
  | .smoothstep, [low, high, x] => do
    let lowValue ← low.literal?
    let highValue ← high.literal?
    if lowValue.same highValue then
      some ⟨.call "step" [splat lowValue x.type, x.code], x.type⟩
    else if highValue.lt lowValue then
      let rising := Code.call "smoothstep" [splat highValue x.type, splat lowValue x.type, x.code]
      some ⟨.paren (.binary .sub (splat .one x.type) rising), x.type⟩
    else none
  | _, _ => none

/-- A call whose arguments are brought to the widest of their types. -/
def lowerPlainCall (function : Builtin) (arguments : List Typed) : Typed :=
  let type := ValueType.widest (arguments.map (·.type))
  let codes := arguments.map fun argument => (argument.convert type).code
  match function, type, codes with
  | .dot, .f32, [x, y] => ⟨.paren (.binary .mul x y), .f32⟩
  | _, _, _ => ⟨.call function.name codes, if function.yieldsScalar then .f32 else type⟩

def lowerCall (function : Builtin) (arguments : List Typed) : Typed :=
  match arguments.mapM Typed.literal? with
  | some values => .literal (function.apply values)
  | none => (lowerMisordered? function arguments).getD (lowerPlainCall function arguments)

def lowerSwizzle (vector : Typed) (components : Swizzle) : Except FormulaError Typed :=
  if vector.type = .f32 then .error (.scalarSwizzle components)
  else .ok ⟨vector.code.select components.text, components.type⟩

mutual

/-- The code of a formula. -/
def lower (environment : Environment) : Formula → Except FormulaError Typed
  | .number value => .ok (.literal value)
  | .pi => .ok (.literal .pi)
  | .slot name => .ok (environment.get name)
  | .negate operand => do return lowerNegate (← lower environment operand)
  | .binary operator left right => do
    return lowerBinary operator (← lower environment left) (← lower environment right)
  | .call function arguments => do return lowerCall function (← lowerAll environment arguments)
  | .swizzle vector components => do lowerSwizzle (← lower environment vector) components

def lowerAll (environment : Environment) : List Formula → Except FormulaError (List Typed)
  | [] => .ok []
  | argument :: rest => do
    return (← lower environment argument) :: (← lowerAll environment rest)

end

/-- The code of the formula that a text denotes, as a scalar. -/
def compileScalar (environment : Environment) (text : String) : Except FormulaError Typed := do
  let formula ← parse text
  return (← lower environment formula).convert .f32

end Formula

end NodeShader
