import NodeShader.Floating.Elementary
import NodeShader.Wgsl.Code

/-!
The builtin functions of the shading language that formulas may call, with what they compute on
scalars.
-/

namespace NodeShader

namespace Operator

def apply : Operator → F32 → F32 → F32
  | .add, x, y => x + y
  | .sub, x, y => x - y
  | .mul, x, y => x * y
  | .div, x, y => x / y
  | .rem, x, y => x % y

end Operator

namespace F32

def sign (x : F32) : F32 :=
  if (.zero false : F32).lt x then one else if x.lt (.zero false) then -one else .zero false

def clamp (x low high : F32) : F32 := (x.max low).min high

def saturate (x : F32) : F32 := x.clamp (.zero false) one

/-- One from the edge on, zero below it. -/
def step (edge x : F32) : F32 := if edge.le x then one else .zero false

def mix (x y share : F32) : F32 := x * (one - share) + y * share

/-- A smooth rise from zero at one edge to one at the other. -/
def smoothstep (low high x : F32) : F32 :=
  let t := saturate ((x - low) / (high - low))
  t * t * (ofDecimal 3 0 - ofDecimal 2 0 * t)

def pi : F32 := ofDecimal 31415927 (-7)

def degrees (x : F32) : F32 := x * ofDecimal 57295779513082320876798154814105170 (-33)

def radians (x : F32) : F32 := x * (pi / ofDecimal 180 0)

end F32

inductive Builtin where
  | sin | cos | tan | asin | acos | atan | sinh | cosh | tanh
  | abs | floor | ceil | round | trunc | fract | saturate
  | sqrt | inverseSqrt | exp | exp2 | log | log2
  | sign | degrees | radians | length
  | min | max | pow | step | atan2 | distance | dot
  | mix | clamp | smoothstep
  deriving DecidableEq, Repr

namespace Builtin

def all : List Builtin :=
  [.sin, .cos, .tan, .asin, .acos, .atan, .sinh, .cosh, .tanh,
    .abs, .floor, .ceil, .round, .trunc, .fract, .saturate,
    .sqrt, .inverseSqrt, .exp, .exp2, .log, .log2,
    .sign, .degrees, .radians, .length,
    .min, .max, .pow, .step, .atan2, .distance, .dot,
    .mix, .clamp, .smoothstep]

def name : Builtin → String
  | .sin => "sin" | .cos => "cos" | .tan => "tan"
  | .asin => "asin" | .acos => "acos" | .atan => "atan"
  | .sinh => "sinh" | .cosh => "cosh" | .tanh => "tanh"
  | .abs => "abs" | .floor => "floor" | .ceil => "ceil" | .round => "round" | .trunc => "trunc"
  | .fract => "fract" | .saturate => "saturate"
  | .sqrt => "sqrt" | .inverseSqrt => "inverseSqrt"
  | .exp => "exp" | .exp2 => "exp2" | .log => "log" | .log2 => "log2"
  | .sign => "sign" | .degrees => "degrees" | .radians => "radians" | .length => "length"
  | .min => "min" | .max => "max" | .pow => "pow" | .step => "step" | .atan2 => "atan2"
  | .distance => "distance" | .dot => "dot"
  | .mix => "mix" | .clamp => "clamp" | .smoothstep => "smoothstep"

def ofName? (name : String) : Option Builtin := all.find? (·.name == name)

theorem ofName?_name (function : Builtin) : ofName? function.name = some function := by
  cases function <;> decide +kernel

def arity : Builtin → Nat
  | .min | .max | .pow | .step | .atan2 | .distance | .dot => 2
  | .mix | .clamp | .smoothstep => 3
  | _ => 1

/-- Whether the result is a scalar whatever the type of the arguments. -/
def yieldsScalar : Builtin → Bool
  | .length | .distance | .dot => true
  | _ => false

/-- The value on scalars; zero for a wrong number of them. -/
def apply : Builtin → List F32 → F32
  | .sin, [x] => x.sin
  | .cos, [x] => x.cos
  | .tan, [x] => x.tan
  | .asin, [x] => x.asin
  | .acos, [x] => x.acos
  | .atan, [x] => x.atan
  | .sinh, [x] => x.sinh
  | .cosh, [x] => x.cosh
  | .tanh, [x] => x.tanh
  | .abs, [x] => x.abs
  | .floor, [x] => x.floor
  | .ceil, [x] => x.ceil
  | .round, [x] => x.round
  | .trunc, [x] => x.trunc
  | .fract, [x] => x - x.floor
  | .saturate, [x] => x.saturate
  | .sqrt, [x] => x.sqrt
  | .inverseSqrt, [x] => F32.one / x.sqrt
  | .exp, [x] => x.exp
  | .exp2, [x] => x.exp2
  | .log, [x] => x.log
  | .log2, [x] => x.log2
  | .sign, [x] => x.sign
  | .degrees, [x] => x.degrees
  | .radians, [x] => x.radians
  | .length, [x] => x.abs
  | .min, [x, y] => x.min y
  | .max, [x, y] => x.max y
  | .pow, [x, y] => x.pow y
  | .step, [edge, x] => edge.step x
  | .atan2, [y, x] => y.atan2 x
  | .distance, [x, y] => (x - y).abs
  | .dot, [x, y] => x * y
  | .mix, [x, y, share] => x.mix y share
  | .clamp, [x, low, high] => x.clamp low high
  | .smoothstep, [low, high, x] => low.smoothstep high x
  | _, _ => .zero false

end Builtin

end NodeShader
