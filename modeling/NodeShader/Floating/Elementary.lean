import NodeShader.Floating.Arithmetic

/-!
The elementary functions of the scalar type, computed in the wider machine format and rounded back.
-/

namespace NodeShader

namespace F32

/-- The same number in the wider machine format. -/
def toMachine (x : F32) : Float :=
  match (x.convert : F64).bits? with
  | some bits => Float.ofBits bits.toUInt64
  | none => 0.0 / 0.0

def ofMachine (x : Float) : F32 :=
  if x.isNaN then .nan else (Floating.ofBits x.toBits.toNat : F64).convert

def unary (function : Float → Float) (x : F32) : F32 := ofMachine (function x.toMachine)

def binary (function : Float → Float → Float) (x y : F32) : F32 :=
  ofMachine (function x.toMachine y.toMachine)

def sin : F32 → F32 := unary Float.sin
def cos : F32 → F32 := unary Float.cos
def tan : F32 → F32 := unary Float.tan
def asin : F32 → F32 := unary Float.asin
def acos : F32 → F32 := unary Float.acos
def atan : F32 → F32 := unary Float.atan
def sinh : F32 → F32 := unary Float.sinh
def cosh : F32 → F32 := unary Float.cosh
def tanh : F32 → F32 := unary Float.tanh
def exp : F32 → F32 := unary Float.exp
def exp2 : F32 → F32 := unary Float.exp2
def log : F32 → F32 := unary Float.log
def log2 : F32 → F32 := unary Float.log2
def pow : F32 → F32 → F32 := binary Float.pow
def atan2 : F32 → F32 → F32 := binary Float.atan2

end F32

end NodeShader
