import NodeShader.Formula.Basic

/-!
Reading formulas. Sums are made of products, products of signed operands, and an operand is a
number, a name, a call or a formula in parentheses, with component selections after it. Nesting is
limited: the formula itself, each parenthesis or argument and each sign take a level.
-/

namespace NodeShader

/-- What was read from the start of some lexemes; at least one of them is used up. -/
structure Parsed (α : Type) (input : List Lexeme) where
  value : α
  rest : List Lexeme
  shorter : rest.length < input.length

abbrev Parser (α : Type) := (input : List Lexeme) → Except FormulaError (Parsed α input)

namespace Parsed

variable {α β : Type}

def map {input : List Lexeme} (f : α → β) (p : Parsed α input) : Parsed β input :=
  ⟨f p.value, p.rest, p.shorter⟩

/-- A value that the first lexeme stands for. -/
def single {first : Lexeme} {rest : List Lexeme} (value : α) : Parsed α (first :: rest) :=
  ⟨value, rest, Nat.lt_succ_self _⟩

/-- The same, read after one more lexeme. -/
def next {first : Lexeme} {input : List Lexeme} (p : Parsed α input) : Parsed α (first :: input) :=
  ⟨p.value, p.rest, Nat.lt_succ_of_lt p.shorter⟩

end Parsed

namespace Formula

/-- The error of finding something else where a symbol must stand. -/
def expected {α : Type} (symbol : Symbol) (found : List Lexeme) : Except FormulaError α :=
  .error (.expected symbol found.head?)

def tooDeep {α : Type} : Parser α := fun _ => .error .tooDeep

def sumOperator? : Lexeme → Option Operator
  | .symbol .plus => some .add
  | .symbol .minus => some .sub
  | _ => none

def productOperator? : Lexeme → Option Operator
  | .symbol .star => some .mul
  | .symbol .slash => some .div
  | .symbol .percent => some .rem
  | _ => none

section

variable {α : Type} (join : Operator → α → α → α)

/-- The operators and operands after a first operand, grouped to the left. -/
def chainTail (operator? : Lexeme → Option Operator) (operand : Parser α) (left : α)
    (input : List Lexeme) :
    Except FormulaError { p : α × List Lexeme // p.2.length ≤ input.length } :=
  match input with
  | [] => .ok ⟨(left, []), Nat.le_refl _⟩
  | lexeme :: rest =>
    match operator? lexeme with
    | none => .ok ⟨(left, lexeme :: rest), Nat.le_refl _⟩
    | some operator => do
      let right ← operand rest
      let all ← chainTail operator? operand (join operator left right.value) right.rest
      return ⟨all.1, Nat.le_trans all.2
        (Nat.le_trans (Nat.le_of_lt right.shorter) (Nat.le_succ _))⟩
termination_by input.length
decreasing_by exact Nat.lt_trans right.shorter (Nat.lt_succ_self _)

/-- Operands with operators between them, grouped to the left. -/
def chain (operator? : Lexeme → Option Operator) (operand : Parser α) : Parser α :=
  fun input => do
    let first ← operand input
    let all ← chainTail join operator? operand first.value first.rest
    return ⟨all.1.1, all.1.2, Nat.lt_of_le_of_lt all.2 first.shorter⟩

/-- A sum of products of signed operands. -/
def sum (signed : Parser α) : Parser α :=
  chain join sumOperator? (chain join productOperator? signed)

/-- The arguments of a call after the first one, up to the closing parenthesis. -/
def moreArguments (nested : Parser α) (input : List Lexeme) :
    Except FormulaError { p : List α × List Lexeme // p.2.length ≤ input.length } :=
  match input with
  | .symbol .comma :: rest => do
    let next ← nested rest
    let others ← moreArguments nested next.rest
    return ⟨(next.value :: others.1.1, others.1.2), Nat.le_trans others.2
      (Nat.le_trans (Nat.le_of_lt next.shorter) (Nat.le_succ _))⟩
  | .symbol .closing :: rest => .ok ⟨([], rest), Nat.le_succ _⟩
  | found => expected .closing found
termination_by input.length
decreasing_by exact Nat.lt_trans next.shorter (Nat.lt_succ_self _)

/-- The arguments of a call, from after the opening parenthesis on. -/
def arguments (nested : Parser α) : Parser (List α)
  | .symbol .closing :: _ => .ok (.single [])
  | input => do
    let first ← nested input
    let others ← moreArguments nested first.rest
    return ⟨first.value :: others.1.1, others.1.2, Nat.lt_of_le_of_lt others.2 first.shorter⟩

/-- What stands in parentheses, from after the opening one on. -/
def enclosed (nested : Parser α) : Parser α := fun input => do
  let inner ← nested input
  match closed : inner.rest with
  | .symbol .closing :: after =>
    return ⟨inner.value, after, by
      have := inner.shorter
      rw [closed] at this
      exact Nat.lt_trans (Nat.lt_succ_self _) this⟩
  | found => expected .closing found

end

def ofName? : String → Option Formula
  | "a" => some (.slot .a)
  | "b" => some (.slot .b)
  | "time" | "u_time" => some (.slot .time)
  | "uv" => some (.slot .uv)
  | "pi" | "PI" => some .pi
  | _ => none

/-- A call of a named function, from after the opening parenthesis on. -/
def namedCall (nested : Parser Formula) (name : String) : Parser Formula := fun input =>
  match Builtin.ofName? name with
  | none => .error (.unknownFunction name)
  | some function => do
    let given ← arguments nested input
    if given.value.length = function.arity then return given.map (.call function)
    else .error (.wrongArity function given.value.length)

/-- An operand without component selections. -/
def primary (nested : Parser Formula) : Parser Formula
  | [] => .error .unexpectedEnd
  | .number digits :: _ => .ok (.single (.number (Lexeme.numberValue digits)))
  | .word letters :: .symbol .opening :: rest => do
    return (← namedCall nested (String.ofList letters) rest).next.next
  | .word letters :: _ =>
    match ofName? (String.ofList letters) with
    | some formula => .ok (.single formula)
    | none => .error (.unknownIdentifier (String.ofList letters))
  | .symbol .opening :: rest => do return (← enclosed nested rest).next
  | .symbol found :: _ => .error (.unexpected (.symbol found))

/-- The component selections after an operand. -/
def swizzles (vector : Formula) (input : List Lexeme) :
    Except FormulaError { p : Formula × List Lexeme // p.2.length ≤ input.length } :=
  match input with
  | [.symbol .dot] => .error .missingSwizzle
  | .symbol .dot :: .word letters :: rest =>
    match Swizzle.ofWord? letters with
    | some components => do
      let all ← swizzles (.swizzle vector components) rest
      return ⟨all.1, Nat.le_trans all.2 (Nat.le_trans (Nat.le_succ _) (Nat.le_succ _))⟩
    | none => .error (.invalidSwizzle (.word letters))
  | .symbol .dot :: found :: _ => .error (.invalidSwizzle found)
  | rest => .ok ⟨(vector, rest), Nat.le_refl _⟩

/-- An operand with its component selections. -/
def operand (nested : Parser Formula) : Parser Formula := fun input => do
  let first ← primary nested input
  let all ← swizzles first.value first.rest
  return ⟨all.1.1, all.1.2, Nat.lt_of_le_of_lt all.2 first.shorter⟩

/-- A signed operand, given how to read one that is a level further in. -/
def signedWith (inner : Parser Formula) : Parser Formula
  | .symbol .minus :: rest => do return ((← inner rest).map .negate).next
  | .symbol .plus :: rest => do return (← inner rest).next
  | input => operand (sum .binary inner) input

/-- A signed operand in which so many more levels may be opened. -/
def signed : (levels : Nat) → Parser Formula
  | 0 => signedWith tooDeep
  | levels + 1 => signedWith (signed levels)

/-- How many levels a formula may have, itself included. -/
def maxLevels : Nat := 64

/-- A formula with at most `levels` levels. -/
def within : (levels : Nat) → Parser Formula
  | 0 => tooDeep
  | levels + 1 => sum .binary (signed levels)

/-- The formula that lexemes make up. -/
def ofLexemes (lexemes : List Lexeme) : Except FormulaError Formula := do
  if lexemes.isEmpty then throw .empty
  let parsed ← within maxLevels lexemes
  match parsed.rest with
  | [] => return parsed.value
  | found :: _ => throw (.trailing found)

/-- The formula that a text denotes. -/
def parse (text : String) : Except FormulaError Formula :=
  match Lexeme.all text.toList with
  | .ok lexemes => ofLexemes lexemes
  | .error fault => .error (.unlexed fault)

end Formula

end NodeShader
