import NodeShader.Proofs.Wgsl.Reading
import NodeShader.Wgsl.Program

/-!
Evaluating shader expressions and running the statements of a fragment body. What literals,
operations and functions give is a parameter: over values it is a meaning of the language, and over
types it is a type checker.
-/

namespace NodeShader

/-- What the parts of expressions give; an operation may have no result. -/
structure Domain (V : Type) where
  uv : V
  time : V
  literal : List Char → Option V
  negate : V → Option V
  operate : Operator → V → V → Option V
  call : String → List V → Option V
  select : V → String → Option V
  /-- Whether a value may be declared with a type. -/
  suits : ValueType → V → Bool

variable {V : Type} (domain : Domain V)

namespace Expression

mutual

/-- The value of an expression, given the values of its names. -/
def eval (scope : String → Option V) : Expression → Option V
  | .literal digits => domain.literal digits
  | .name text => scope text
  | .negate operand => do domain.negate (← eval scope operand)
  | .binary operator left right => do
    domain.operate operator (← eval scope left) (← eval scope right)
  | .call function arguments => do domain.call function (← evalAll scope arguments)
  | .member vector components => do domain.select (← eval scope vector) components

def evalAll (scope : String → Option V) : List Expression → Option (List V)
  | [] => some []
  | expression :: rest => do return (← eval scope expression) :: (← evalAll scope rest)

end

end Expression

namespace Code

/-- The value of what a code means. -/
def eval (scope : String → Option V) (code : Code) : Option V := code.expression.eval domain scope

end Code

namespace Domain

/-- The value of a float literal. -/
def number (x : F32) : Option V :=
  if x.numeral.1 then do domain.negate (← domain.literal x.numeral.2)
  else domain.literal x.numeral.2

def zero : ValueType → Option V
  | .f32 => domain.number (.zero false)
  | type => do
    domain.call type.name (List.replicate type.components (← domain.number (.zero false)))

/-- The mean of some components of a vector. -/
def mean (vector : V) (first : String) (rest : List String) : Option V := do
  let sum ← rest.foldlM
    (fun sum component => do domain.operate .add sum (← domain.select vector component))
    (← domain.select vector first)
  domain.operate .div sum (← domain.number (.ofDecimal (rest.length + 1) 0))

/-- A value as another type: scalars fill every component, a missing third component is zero and a
missing fourth one, surplus components are dropped, and a vector becomes the mean of its
components, the fourth left out. -/
def convert (source target : ValueType) (value : V) : Option V :=
  match source, target with
  | .f32, .vec2f => domain.call "vec2f" [value]
  | .f32, .vec3f => domain.call "vec3f" [value]
  | .f32, .vec4f => do
    domain.call "vec4f" [← domain.call "vec3f" [value], ← domain.number (.ofDecimal 1 0)]
  | .vec2f, .f32 => domain.mean value "x" ["y"]
  | .vec2f, .vec3f => do domain.call "vec3f" [value, ← domain.number (.ofDecimal 0 0)]
  | .vec2f, .vec4f => do
    domain.call "vec4f"
      [value, ← domain.number (.ofDecimal 0 0), ← domain.number (.ofDecimal 1 0)]
  | .vec3f, .f32 | .vec4f, .f32 => domain.mean value "x" ["y", "z"]
  | .vec3f, .vec2f | .vec4f, .vec2f => domain.select value "xy"
  | .vec3f, .vec4f => do domain.call "vec4f" [value, ← domain.number (.ofDecimal 1 0)]
  | .vec4f, .vec3f => domain.select value "xyz"
  | _, _ => some value

end Domain

/-- What a fragment body has declared so far, and the color it has set. -/
structure Store (V : Type) where
  names : String → Option V
  color : Option V

namespace Store

/-- The store in which a fragment body starts: the position and the time are known, and the color
is black. -/
def start : Store V where
  names name := if name = "uv" then some domain.uv
    else if name = "u_time" then some domain.time else none
  color := domain.zero .vec3f

def declare (store : Store V) (identifier : String) (value : V) : Store V :=
  { store with
    names := fun name => if name = identifier then some value else store.names name }

end Store

/-- Runs a statement: its expression is read from its text and evaluated, and no name is declared
a second time. -/
def Statement.run (store : Store V) : Statement → Option (Store V)
  | .declare identifier value => do
    let result ← (← Expression.read? value.text).eval domain store.names
    if domain.suits value.type result && (store.names identifier).isNone then
      some (store.declare identifier result)
    else none
  | .output color => do
    let result ← (← Expression.read? color.render).eval domain store.names
    if domain.suits .vec3f result then some { store with color := some result } else none

/-- Runs the statements of a fragment body in their order. -/
def Store.runAll (store : Store V) (statements : List Statement) : Option (Store V) :=
  statements.foldlM (Statement.run domain) store

namespace Statement

variable {domain} {store next : Store V}

theorem run_declare_iff {identifier : String} {value : Typed} :
    (declare identifier value).run domain store = some next ↔
      ∃ expression, Expression.read? value.text = some expression ∧
        ∃ result, expression.eval domain store.names = some result ∧
          domain.suits value.type result = true ∧ store.names identifier = none ∧
          store.declare identifier result = next := by
  simp only [run, Option.bind_eq_bind, Option.bind_eq_some_iff, Option.ite_none_right_eq_some,
    Bool.and_eq_true, Option.isNone_iff_eq_none, Option.some.injEq, and_assoc]

theorem run_output_iff {color : Code} :
    (output color).run domain store = some next ↔
      ∃ expression, Expression.read? color.render = some expression ∧
        ∃ result, expression.eval domain store.names = some result ∧
          domain.suits .vec3f result = true ∧ { store with color := some result } = next := by
  simp only [run, Option.bind_eq_bind, Option.bind_eq_some_iff, Option.ite_none_right_eq_some,
    Option.some.injEq]

end Statement

namespace Store

variable {domain} {store last : Store V} {statements others : List Statement}
  {statement : Statement}

theorem runAll_append_iff :
    store.runAll domain (statements ++ others) = some last ↔
      ∃ next, store.runAll domain statements = some next ∧
        next.runAll domain others = some last := by
  rw [runAll, List.foldlM_append]
  exact Option.bind_eq_some_iff

theorem runAll_cons_iff :
    store.runAll domain (statement :: others) = some last ↔
      ∃ next, statement.run domain store = some next ∧ next.runAll domain others = some last := by
  rw [runAll, List.foldlM_cons]
  exact Option.bind_eq_some_iff

theorem runAll_concat_iff :
    store.runAll domain (statements ++ [statement]) = some last ↔
      ∃ next, store.runAll domain statements = some next ∧
        statement.run domain next = some last := by
  simp only [runAll_append_iff, runAll_cons_iff]
  refine exists_congr fun next => and_congr_right fun _ => ?_
  constructor
  · intro given
    rcases given with ⟨_, runs, same⟩
    cases same
    exact runs
  · exact fun runs => ⟨last, runs, rfl⟩

end Store

namespace Code

variable {domain} {scope : String → Option V}

@[simp]
theorem eval_literal (value : F32) : (literal value).eval domain scope = domain.number value := by
  rw [eval, expression, Domain.number]
  split <;> rfl

@[simp]
theorem eval_name (text : String) : (name text).eval domain scope = scope text := rfl

@[simp]
theorem eval_paren (inner : Code) : (paren inner).eval domain scope = inner.eval domain scope := rfl

@[simp]
theorem eval_negate (inner : Code) :
    (negate inner).eval domain scope = (inner.eval domain scope).bind domain.negate := rfl

@[simp]
theorem eval_binary (operator : Operator) (left right : Code) :
    (binary operator left right).eval domain scope = (left.eval domain scope).bind fun x =>
      (right.eval domain scope).bind fun y => domain.operate operator x y := rfl

theorem evalAll_expressions (codes : List Code) :
    Expression.evalAll domain scope (expressions codes) = codes.mapM (eval domain scope) := by
  induction codes with
  | nil => rfl
  | cons code codes ih =>
    rw [expressions, Expression.evalAll, ih, List.mapM_cons]
    rfl

@[simp]
theorem eval_call (function : String) (arguments : List Code) :
    (call function arguments).eval domain scope =
      (arguments.mapM (eval domain scope)).bind (domain.call function) := by
  rw [← evalAll_expressions]
  rfl

@[simp]
theorem eval_number (digits : Nat) (exponent : Int) :
    (number digits exponent).eval domain scope = domain.number (.ofDecimal digits exponent) :=
  eval_literal _

@[simp]
theorem eval_select (code : Code) (components : String) :
    (code.select components).eval domain scope =
      (code.eval domain scope).bind fun vector => domain.select vector components := by
  unfold select
  split <;> rfl

end Code

namespace Typed

variable {domain} {scope : String → Option V}

theorem eval_zero (type : ValueType) : (zero type).code.eval domain scope = domain.zero type := by
  cases type with
  | f32 => exact Code.eval_literal _
  | vec2f | vec3f | vec4f =>
    simp only [zero, Domain.zero, ValueType.components, List.replicate, Code.eval_call,
      List.mapM_cons, List.mapM_nil, Code.eval_literal]
    cases domain.number (.zero false) <;> rfl

theorem eval_sum_none (codes : List Code) {sum : Code} (nothing : sum.eval domain scope = none) :
    (codes.foldl (Code.binary .add) sum).eval domain scope = none := by
  induction codes generalizing sum with
  | nil => exact nothing
  | cons code codes ih => exact ih (by rw [Code.eval_binary, nothing, Option.bind_none])

theorem eval_sum {code : Code} {vector : V} (known : code.eval domain scope = some vector)
    (components : List String) (sum : Code) :
    ((components.map code.select).foldl (Code.binary .add) sum).eval domain scope =
      (sum.eval domain scope).bind fun start => components.foldlM
        (fun sum component => do domain.operate .add sum (← domain.select vector component))
        start := by
  induction components generalizing sum with
  | nil => exact (Option.bind_fun_some _).symm
  | cons component components ih =>
    calc
      _ = ((Code.binary .add sum (code.select component)).eval domain scope).bind fun start =>
          components.foldlM
            (fun sum component => do domain.operate .add sum (← domain.select vector component))
            start := ih _
      _ = _ := by
        rw [Code.eval_binary, Code.eval_select, known, Option.bind_some]
        simp only [List.foldlM_cons, Option.bind_eq_bind, Option.bind_assoc]

theorem eval_mean (code : Code) (first : String) (rest : List String) :
    (mean code first rest).eval domain scope =
      (code.eval domain scope).bind fun vector => domain.mean vector first rest := by
  unfold mean
  rw [Code.eval_paren, Code.eval_binary, Code.eval_number, Code.eval_paren]
  cases known : code.eval domain scope with
  | none =>
    have nothing : (code.select first).eval domain scope = none := by
      rw [Code.eval_select, known, Option.bind_none]
    rw [eval_sum_none _ nothing, Option.bind_none, Option.bind_none]
  | some vector =>
    rw [eval_sum known, Code.eval_select, known, Option.bind_some, Option.bind_some, Domain.mean]
    simp only [Option.bind_eq_bind, Option.bind_assoc]

/-- The value of a converted expression is the converted value. -/
theorem eval_convert (x : Typed) (target : ValueType) :
    (x.convert target).code.eval domain scope =
      (x.code.eval domain scope).bind (domain.convert x.type target) := by
  rcases x with ⟨code, type⟩
  cases known : code.eval domain scope with
  | none =>
    cases type <;> cases target <;> dsimp only [convert] <;>
      simp only [Code.eval_call, Code.eval_select, eval_mean, List.mapM_cons, known,
        Option.bind_eq_bind, Option.bind_none]
  | some value =>
    cases type <;> cases target <;> dsimp only [convert] <;>
      simp only [Domain.convert, Code.eval_call, Code.eval_select, Code.eval_number, eval_mean, List.mapM_cons,
        List.mapM_nil, known, Option.bind_eq_bind, Option.pure_def, Option.bind_assoc,
        Option.bind_some]

end Typed

end NodeShader
