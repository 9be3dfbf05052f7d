import NodeShader.Floating.Text
import NodeShader.Wgsl.ValueType

/-!
Shader expressions as they are written, parentheses included, and their text.
-/

namespace NodeShader

inductive Operator where
  | add
  | sub
  | mul
  | div
  | rem
  deriving DecidableEq, Repr

namespace Operator

def symbol : Operator → Char
  | .add => '+'
  | .sub => '-'
  | .mul => '*'
  | .div => '/'
  | .rem => '%'

end Operator

inductive Code where
  | literal (value : F32)
  /-- A name, or any other text that is taken as it stands. -/
  | name (text : String)
  | paren (inner : Code)
  | negate (inner : Code)
  | binary (operator : Operator) (left right : Code)
  | call (function : String) (arguments : List Code)
  | member (inner : Code) (components : String)

namespace F32

/-- The number, or zero for what has no literal. -/
def orZero (x : F32) : F32 := if x.isFinite then x else .zero false

theorem orZero_of_isFinite {x : F32} (h : x.isFinite = true) : x.orZero = x := by
  rw [orZero, if_pos h]

@[simp]
theorem isFinite_orZero (x : F32) : x.orZero.isFinite = true := by
  unfold orZero
  split
  · assumption
  · rfl

/-- The literal of a number. -/
def literalText (x : F32) : String := x.orZero.fractional

def ofDecimal (digits : Nat) (exponent : Int) : F32 := Decimal.toFloating false ⟨digits, exponent⟩

def one : F32 := ofDecimal 1 0

end F32

namespace Code

mutual

def render : Code → String
  | .literal value => value.literalText
  | .name text => text
  | .paren inner => "(" ++ render inner ++ ")"
  | .negate inner => "-" ++ render inner
  | .binary operator left right =>
    render left ++ " " ++ operator.symbol.toString ++ " " ++ render right
  | .call function arguments => function ++ "(" ++ ", ".intercalate (renderAll arguments) ++ ")"
  | .member inner components => render inner ++ "." ++ components

def renderAll : List Code → List String
  | [] => []
  | code :: rest => render code :: renderAll rest

end

def number (digits : Nat) (exponent : Int) : Code := .literal (.ofDecimal digits exponent)

/-- Whether a character may stand in an identifier. -/
def isWordChar (c : Char) : Bool := c.isAlphanum || c == '_'

def isWord (text : String) : Bool := !text.isEmpty && text.toList.all isWordChar

/-- Components of a vector; whatever is not a single word is put in parentheses first. -/
def select (code : Code) (components : String) : Code :=
  if isWord code.render then .member code components else .member (.paren code) components

end Code

/-- An expression with its type. -/
structure Typed where
  code : Code
  type : ValueType

namespace Typed

def text (x : Typed) : String := x.code.render

/-- The literal of a number that was computed; what is not finite counts as zero. -/
def literal (value : F32) : Typed := ⟨.literal value, .f32⟩

/-- The value of a scalar that is nothing but a float literal. -/
def literal? (x : Typed) : Option F32 :=
  if x.type ≠ .f32 then none else
  match x.code with
  | .literal value => some value.orZero
  | .name text => (Floating.read? text.toList : Option F32).filter (·.isFinite)
  | _ => none

/-- The zero of a type. -/
def zero (type : ValueType) : Typed :=
  let zeros := List.replicate type.components (Code.literal (.zero false))
  match type with
  | .f32 => ⟨.literal (.zero false), .f32⟩
  | type => ⟨.call type.name zeros, type⟩

/-- The mean of some components of a vector. -/
def mean (code : Code) (first : String) (rest : List String) : Code :=
  let sum := (rest.map code.select).foldl (.binary .add) (code.select first)
  .paren (.binary .div (.paren sum) (.number (rest.length + 1) 0))

/-- The expression as another type: scalars fill every component, a missing third component is
zero and a missing fourth one, surplus components are dropped, and a vector becomes a scalar as the
mean of its components, the fourth left out. -/
def convert (x : Typed) (target : ValueType) : Typed :=
  let e := x.code
  let code := match x.type, target with
    | .f32, .vec2f => .call "vec2f" [e]
    | .f32, .vec3f => .call "vec3f" [e]
    | .f32, .vec4f => .call "vec4f" [.call "vec3f" [e], .number 1 0]
    | .vec2f, .f32 => mean e "x" ["y"]
    | .vec2f, .vec3f => .call "vec3f" [e, .number 0 0]
    | .vec2f, .vec4f => .call "vec4f" [e, .number 0 0, .number 1 0]
    | .vec3f, .f32 | .vec4f, .f32 => mean e "x" ["y", "z"]
    | .vec3f, .vec2f | .vec4f, .vec2f => e.select "xy"
    | .vec3f, .vec4f => .call "vec4f" [e, .number 1 0]
    | .vec4f, .vec3f => e.select "xyz"
    | _, _ => e
  ⟨code, target⟩

@[simp]
theorem literal?_literal (value : F32) : (literal value).literal? = some value.orZero := rfl

@[simp]
theorem zero_type (type : ValueType) : (zero type).type = type := by
  cases type <;> rfl

@[simp]
theorem convert_type (x : Typed) (target : ValueType) : (x.convert target).type = target := rfl

@[simp]
theorem convert_self (x : Typed) : x.convert x.type = x := by
  obtain ⟨code, type⟩ := x
  cases type <;> rfl

end Typed

end NodeShader
