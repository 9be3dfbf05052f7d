import NodeShader.Formula.Parser

/-!
What the general parsers read, given what their operands read.
-/

namespace NodeShader

namespace Formula

variable {α : Type} {join : Operator → α → α → α} {operator? : Lexeme → Option Operator}
  {operand nested : Parser α} {input rest after : List Lexeme} {left right value : α}

/-- A parser reads a value from the start of some lexemes and leaves the rest. -/
def Reads (parser : Parser α) (input : List Lexeme) (value : α) (rest : List Lexeme) : Prop :=
  ∃ shorter, parser input = .ok ⟨value, rest, shorter⟩

/-- After a first operand a chain goes on to a value and leaves the rest. -/
def GoesOn (join : Operator → α → α → α) (operator? : Lexeme → Option Operator) (operand : Parser α)
    (left : α) (input : List Lexeme) (value : α) (rest : List Lexeme) : Prop :=
  ∃ shorter, chainTail join operator? operand left input = .ok ⟨(value, rest), shorter⟩

theorem GoesOn.stop (stop : ∀ lexeme ∈ rest.head?, operator? lexeme = none) :
    GoesOn join operator? operand left rest left rest := by
  cases rest with
  | nil => exact ⟨Nat.le_refl _, by rw [chainTail]⟩
  | cons lexeme rest => exact ⟨Nat.le_refl _, by rw [chainTail, stop lexeme (by simp)]⟩

theorem GoesOn.step {lexeme : Lexeme} {operator : Operator} (known : operator? lexeme = some operator)
    (second : Reads operand input right rest)
    (more : GoesOn join operator? operand (join operator left right) rest value after) :
    GoesOn join operator? operand left (lexeme :: input) value after := by
  rcases second with ⟨shorter, read⟩
  rcases more with ⟨short, went⟩
  refine ⟨Nat.le_trans short (Nat.le_trans (Nat.le_of_lt shorter) (Nat.le_succ _)), ?_⟩
  rw [chainTail, known]
  dsimp only
  rw [read]
  dsimp only [bind, Except.bind]
  rw [went]
  rfl

theorem Reads.chain (first : Reads operand input left rest)
    (more : GoesOn join operator? operand left rest value after) :
    Reads (chain join operator? operand) input value after := by
  rcases first with ⟨shorter, read⟩
  rcases more with ⟨short, went⟩
  refine ⟨Nat.lt_of_le_of_lt short shorter, ?_⟩
  simp only [Formula.chain, read, bind, Except.bind, went]
  rfl

/-- The arguments of a call after the first one are read up to the closing parenthesis. -/
def ReadsMore (nested : Parser α) (input : List Lexeme) (values : List α) (rest : List Lexeme) :
    Prop :=
  ∃ shorter, moreArguments nested input = .ok ⟨(values, rest), shorter⟩

theorem ReadsMore.closed (nested : Parser α) (rest : List Lexeme) :
    ReadsMore nested (.symbol .closing :: rest) [] rest :=
  ⟨Nat.le_succ _, by rw [moreArguments]⟩

theorem ReadsMore.comma {values : List α} (next : Reads nested input value rest)
    (others : ReadsMore nested rest values after) :
    ReadsMore nested (.symbol .comma :: input) (value :: values) after := by
  rcases next with ⟨shorter, read⟩
  rcases others with ⟨short, more⟩
  refine ⟨Nat.le_trans short (Nat.le_trans (Nat.le_of_lt shorter) (Nat.le_succ _)), ?_⟩
  rw [moreArguments, read]
  dsimp only [bind, Except.bind]
  rw [more]
  rfl

theorem Reads.no_arguments (nested : Parser α) (rest : List Lexeme) :
    Reads (arguments nested) (.symbol .closing :: rest) [] rest :=
  ⟨Nat.lt_succ_self _, rfl⟩

theorem Reads.some_arguments {values : List α} (first : Reads nested input value rest)
    (others : ReadsMore nested rest values after)
    (opened : input.head? ≠ some (.symbol .closing)) :
    Reads (arguments nested) input (value :: values) after := by
  rcases first with ⟨shorter, read⟩
  rcases others with ⟨short, more⟩
  refine ⟨Nat.lt_of_le_of_lt short shorter, ?_⟩
  rw [arguments, read]
  · dsimp only [bind, Except.bind]
    rw [more]
    rfl
  · intro rest same
    subst same
    exact opened rfl

theorem Reads.enclosed (inner : Reads nested input value (.symbol .closing :: rest)) :
    Reads (enclosed nested) input value rest := by
  rcases inner with ⟨shorter, read⟩
  refine ⟨Nat.lt_trans (Nat.lt_succ_self _) shorter, ?_⟩
  simp only [Formula.enclosed, read, bind, Except.bind]
  rfl

end Formula

end NodeShader
