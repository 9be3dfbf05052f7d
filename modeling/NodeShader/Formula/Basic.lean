import NodeShader.Formula.Lexeme
import NodeShader.Wgsl.Builtin

/-!
Formulas: the scalar expressions that users type, over two inputs, the time and the position.
-/

namespace NodeShader

/-- What a formula may refer to. -/
inductive Slot where
  | a
  | b
  | time
  | uv
  deriving DecidableEq, Repr

namespace Slot

def name : Slot → String
  | .a => "a"
  | .b => "b"
  | .time => "time"
  | .uv => "uv"

end Slot

inductive Axis where
  | x
  | y
  deriving DecidableEq, Repr

/-- A selection of one or two components. -/
inductive Swizzle where
  | one (first : Axis)
  | two (first second : Axis)
  deriving DecidableEq, Repr

namespace Axis

def char : Axis → Char
  | .x => 'x'
  | .y => 'y'

def ofChar? : Char → Option Axis
  | 'x' => some .x
  | 'y' => some .y
  | _ => none

end Axis

namespace Swizzle

def text : Swizzle → String
  | .one first => String.ofList [first.char]
  | .two first second => String.ofList [first.char, second.char]

def ofWord? : List Char → Option Swizzle
  | [first] => (Axis.ofChar? first).map .one
  | [first, second] => do return .two (← Axis.ofChar? first) (← Axis.ofChar? second)
  | _ => none

def type : Swizzle → ValueType
  | .one _ => .f32
  | .two _ _ => .vec2f

end Swizzle

inductive Formula where
  | number (value : F32)
  | pi
  | slot (name : Slot)
  | negate (operand : Formula)
  | binary (operator : Operator) (left right : Formula)
  | call (function : Builtin) (arguments : List Formula)
  | swizzle (vector : Formula) (components : Swizzle)

/-- Why a text is no formula, or a formula has no code. -/
inductive FormulaError where
  | unlexed (fault : Lexeme.Fault)
  | empty
  | expected (symbol : Symbol) (found : Option Lexeme)
  | tooDeep
  | invalidSwizzle (found : Lexeme)
  | missingSwizzle
  | unknownFunction (name : String)
  | wrongArity (function : Builtin) (given : Nat)
  | unknownIdentifier (name : String)
  | unexpected (found : Lexeme)
  | unexpectedEnd
  | trailing (found : Lexeme)
  | scalarSwizzle (components : Swizzle)
  deriving DecidableEq, Repr

namespace FormulaError

def message : FormulaError → String
  | .unlexed fault => fault.message
  | .empty => "empty expression"
  | .expected symbol (some found) =>
    "expected `" ++ symbol.char.toString ++ "`, found " ++ found.describe
  | .expected symbol none =>
    "expected `" ++ symbol.char.toString ++ "`, found end of expression"
  | .tooDeep => "expression nested too deeply"
  | .invalidSwizzle found => "invalid swizzle " ++ found.describe
  | .missingSwizzle => "expected swizzle after `.`"
  | .unknownFunction name => "unknown function `" ++ name ++ "`"
  | .wrongArity function given =>
    "`" ++ function.name ++ "` takes " ++ toString function.arity ++ " argument(s), got " ++
      toString given
  | .unknownIdentifier name => "unknown identifier `" ++ name ++ "`"
  | .unexpected found => "unexpected " ++ found.describe
  | .unexpectedEnd => "unexpected end of expression"
  | .trailing found => "unexpected " ++ found.describe ++ " after expression"
  | .scalarSwizzle components => "cannot swizzle `." ++ components.text ++ "` on a scalar"

end FormulaError

namespace Operator

def word : Operator → String
  | .add => "add"
  | .sub => "sub"
  | .mul => "mul"
  | .div => "div"
  | .rem => "rem"

end Operator

namespace Formula

mutual

/-- The tree of a formula, every operation in parentheses with its name first. -/
def outline : Formula → String
  | .number value => value.fractional
  | .pi => "pi"
  | .slot name => name.name
  | .negate operand => "(neg " ++ outline operand ++ ")"
  | .binary operator left right =>
    "(" ++ operator.word ++ " " ++ outline left ++ " " ++ outline right ++ ")"
  | .call function arguments => "(" ++ function.name ++ outlineAll arguments ++ ")"
  | .swizzle vector components => "(." ++ components.text ++ " " ++ outline vector ++ ")"

def outlineAll : List Formula → String
  | [] => ""
  | argument :: rest => " " ++ outline argument ++ outlineAll rest

end

end Formula

end NodeShader
