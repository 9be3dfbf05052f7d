/-!
The value types of the shading language: scalars and vectors of `f32`.
-/

namespace NodeShader

inductive ValueType where
  | f32
  | vec2f
  | vec3f
  | vec4f
  deriving DecidableEq, Repr

namespace ValueType

def name : ValueType → String
  | .f32 => "f32"
  | .vec2f => "vec2f"
  | .vec3f => "vec3f"
  | .vec4f => "vec4f"

def components : ValueType → Nat
  | .f32 => 1
  | .vec2f => 2
  | .vec3f => 3
  | .vec4f => 4

def all : List ValueType := [.f32, .vec2f, .vec3f, .vec4f]

def ofName? (name : String) : Option ValueType := all.find? (·.name == name)

theorem ofName?_name (type : ValueType) : ofName? type.name = some type := by
  cases type <;> decide

/-- The type with more components; of two with as many, the second. -/
def wider (s t : ValueType) : ValueType := if s.components ≤ t.components then t else s

/-- The type with the most components; scalar when there is none. -/
def widest (types : List ValueType) : ValueType := types.foldl wider .f32

end ValueType

end NodeShader
