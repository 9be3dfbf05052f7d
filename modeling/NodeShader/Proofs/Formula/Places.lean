import NodeShader.Proofs.Formula.Typing

/-!
Lowering that reads the arguments of a call, and the values it folds, by their places. A place past
the end of a list stops it; on formulas that call each function with as many arguments as it takes
it never stops for that, and is the lowering that goes by the shape of the lists.
-/

namespace NodeShader

/-- Why lowering by place may stop. -/
inductive Halt where
  | refused (error : FormulaError)
  | pastEnd

/-- What stands at a place of a list. -/
def entry {α : Type} (xs : List α) (place : Nat) : Except Halt α :=
  match xs[place]? with
  | some x => .ok x
  | none => .error .pastEnd

namespace Builtin

/-- The value on scalars that are read by their places. -/
def applyByPlace (function : Builtin) (xs : List F32) : Except Halt F32 :=
  match function with
  | .min | .max | .pow | .step | .atan2 | .distance | .dot => do
    return function.apply [← entry xs 0, ← entry xs 1]
  | .mix | .clamp | .smoothstep => do
    return function.apply [← entry xs 0, ← entry xs 1, ← entry xs 2]
  | _ => do return function.apply [← entry xs 0]

theorem applyByPlace_eq {function : Builtin} {xs : List F32} (arity : xs.length = function.arity) :
    function.applyByPlace xs = .ok (function.apply xs) := by
  cases function with
  | min | max | pow | step | atan2 | distance | dot =>
    obtain ⟨x, y, rfl⟩ := List.length_eq_two.1 arity
    rfl
  | mix | clamp | smoothstep =>
    obtain ⟨x, y, z, rfl⟩ := List.length_eq_three.1 arity
    rfl
  | _ =>
    obtain ⟨x, rfl⟩ := List.length_eq_one_iff.1 arity
    rfl

end Builtin

namespace Formula

def misorderedByPlace (function : Builtin) (arguments : List Typed) : Except Halt (Option Typed) :=
  match function with
  | .clamp | .smoothstep => do
    return lowerMisordered? function
      [← entry arguments 0, ← entry arguments 1, ← entry arguments 2]
  | _ => return none

def plainByPlace (function : Builtin) (arguments : List Typed) : Except Halt Typed :=
  let type := ValueType.widest (arguments.map (·.type))
  let codes := arguments.map fun argument => (argument.convert type).code
  match function, type with
  | .dot, .f32 => do
    return ⟨.paren (.binary .mul (← entry codes 0) (← entry codes 1)), .f32⟩
  | _, _ => return ⟨.call function.name codes, if function.yieldsScalar then .f32 else type⟩

def callByPlace (function : Builtin) (arguments : List Typed) : Except Halt Typed :=
  match arguments.mapM Typed.literal? with
  | some values => do return .literal (← function.applyByPlace values)
  | none => do
    match ← misorderedByPlace function arguments with
    | some recast => return recast
    | none => plainByPlace function arguments

mutual

/-- The code of a formula, lists being read by the places of their entries. -/
def lowerByPlace (environment : Environment) : Formula → Except Halt Typed
  | .number value => .ok (.literal value)
  | .pi => .ok (.literal .pi)
  | .slot name => .ok (environment.get name)
  | .negate operand => do return lowerNegate (← lowerByPlace environment operand)
  | .binary operator left right => do
    return lowerBinary operator (← lowerByPlace environment left) (← lowerByPlace environment right)
  | .call function arguments => do
    callByPlace function (← lowerAllByPlace environment arguments)
  | .swizzle vector components => do
    (lowerSwizzle (← lowerByPlace environment vector) components).mapError .refused

def lowerAllByPlace (environment : Environment) : List Formula → Except Halt (List Typed)
  | [] => .ok []
  | argument :: rest => do
    return (← lowerByPlace environment argument) :: (← lowerAllByPlace environment rest)

end

variable {function : Builtin} {arguments : List Typed}

theorem misorderedByPlace_eq (arity : arguments.length = function.arity) :
    misorderedByPlace function arguments = .ok (lowerMisordered? function arguments) := by
  cases function with
  | clamp | smoothstep =>
    obtain ⟨x, y, z, rfl⟩ := List.length_eq_three.1 arity
    rfl
  | _ => rfl

theorem plainByPlace_eq (arity : arguments.length = function.arity) :
    plainByPlace function arguments = .ok (lowerPlainCall function arguments) := by
  cases function with
  | dot =>
    obtain ⟨x, y, rfl⟩ := List.length_eq_two.1 arity
    unfold plainByPlace lowerPlainCall
    cases ValueType.widest ([x, y].map (·.type)) <;> rfl
  | _ => rfl

theorem length_of_literals {values : List F32}
    (known : arguments.mapM Typed.literal? = some values) : values.length = arguments.length := by
  induction arguments generalizing values with
  | nil =>
    cases known
    rfl
  | cons argument arguments ih =>
    simp only [List.mapM_cons, Option.bind_eq_bind, Option.bind_eq_some_iff] at known
    obtain ⟨value, -, others, rest, same⟩ := known
    cases same
    exact congrArg Nat.succ (ih rest)

theorem callByPlace_eq (arity : arguments.length = function.arity) :
    callByPlace function arguments = .ok (lowerCall function arguments) := by
  unfold callByPlace lowerCall
  cases known : arguments.mapM Typed.literal? with
  | some values =>
    have folded := Builtin.applyByPlace_eq ((length_of_literals known).trans arity)
    simp only [folded]
    rfl
  | none =>
    simp only [misorderedByPlace_eq arity, plainByPlace_eq arity]
    cases lowerMisordered? function arguments <;> rfl

theorem length_lowerAll {environment : Environment} {formulas : List Formula} {xs : List Typed}
    (lowered : lowerAll environment formulas = .ok xs) : xs.length = formulas.length := by
  induction formulas generalizing xs with
  | nil =>
    cases lowered
    rfl
  | cons formula formulas ih =>
    obtain ⟨x, -, others⟩ := except_bind_eq_ok.1 lowered
    obtain ⟨xs, rest, same⟩ := except_bind_eq_ok.1 others
    cases same
    exact congrArg Nat.succ (ih rest)

mutual

/-- No list is read past its end, so that reading by place makes no difference. -/
theorem lowerByPlace_eq (environment : Environment) : (formula : Formula) → formula.Saturated →
    lowerByPlace environment formula = (lower environment formula).mapError .refused
  | .number _, _ => rfl
  | .pi, _ => rfl
  | .slot _, _ => rfl
  | .negate operand, saturated => by
    rw [lowerByPlace, lower, lowerByPlace_eq environment operand saturated]
    cases lower environment operand <;> rfl
  | .binary operator left right, ⟨saturated, saturated'⟩ => by
    rw [lowerByPlace, lower, lowerByPlace_eq environment left saturated,
      lowerByPlace_eq environment right saturated']
    cases lower environment left with
    | error => rfl
    | ok x => cases lower environment right <;> rfl
  | .call function arguments, ⟨arity, saturated⟩ => by
    rw [lowerByPlace, lower, lowerAllByPlace_eq environment arguments saturated]
    cases lowered : lowerAll environment arguments with
    | error => rfl
    | ok xs => exact callByPlace_eq ((length_lowerAll lowered).trans arity)
  | .swizzle vector components, saturated => by
    rw [lowerByPlace, lower, lowerByPlace_eq environment vector saturated]
    cases lower environment vector <;> rfl

theorem lowerAllByPlace_eq (environment : Environment) : (formulas : List Formula) →
    AllSaturated formulas →
    lowerAllByPlace environment formulas = (lowerAll environment formulas).mapError .refused
  | [], _ => rfl
  | formula :: rest, ⟨saturated, saturated'⟩ => by
    rw [lowerAllByPlace, lowerAll, lowerByPlace_eq environment formula saturated,
      lowerAllByPlace_eq environment rest saturated']
    cases lower environment formula with
    | error => rfl
    | ok x => cases lowerAll environment rest <;> rfl

end

end Formula

end NodeShader
