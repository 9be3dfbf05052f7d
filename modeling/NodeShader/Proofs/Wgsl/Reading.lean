import NodeShader.Proofs.Formula.Parsing
import NodeShader.Proofs.Wgsl.Expression

/-!
Reading shader expressions: sums of products of signed operands, an operand being a literal, a
name, a call or an expression in parentheses, with components taken of it. The text of a code that
fits the grammar reads back as what the code means.
-/

namespace NodeShader

namespace Expression

open Formula (sum chain arguments enclosed sumOperator? productOperator? Reads ReadsMore GoesOn)

/-- The components taken of an operand, and what follows them. -/
def members (vector : Expression) (input : List Lexeme) :
    { p : Expression × List Lexeme // p.2.length ≤ input.length } :=
  match input with
  | .symbol .dot :: .word letters :: rest =>
    let all := members (.member vector (String.ofList letters)) rest
    ⟨all.1, Nat.le_trans all.2 (Nat.le_trans (Nat.le_succ _) (Nat.le_succ _))⟩
  | rest => ⟨(vector, rest), Nat.le_refl _⟩

/-- An operand without components taken of it. -/
def primary (nested : Parser Expression) : Parser Expression
  | .number digits :: _ => .ok (.single (.literal digits))
  | .word letters :: .symbol .opening :: rest => do
    return ((← arguments nested rest).map (.call (String.ofList letters))).next.next
  | .word letters :: _ => .ok (.single (.name (String.ofList letters)))
  | .symbol .opening :: rest => do return (← enclosed nested rest).next
  | .symbol found :: _ => .error (.unexpected (.symbol found))
  | [] => .error .unexpectedEnd

def singular (nested : Parser Expression) : Parser Expression := fun input => do
  let first ← primary nested input
  let all := members first.value first.rest
  return ⟨all.1.1, all.1.2, Nat.lt_of_le_of_lt all.2 first.shorter⟩

/-- A signed operand, given how to read one that is a level further in. -/
def unaryWith (inner : Parser Expression) : Parser Expression
  | .symbol .minus :: rest => do return ((← inner rest).map .negate).next
  | input => singular (sum .binary inner) input

/-- A signed operand in which so many levels may be opened. -/
def unary : (levels : Nat) → Parser Expression
  | 0 => unaryWith Formula.tooDeep
  | levels + 1 => unaryWith (unary levels)

/-- The expression that a text denotes. No text opens more levels than it has lexemes. -/
def read? (text : String) : Option Expression :=
  match Lexeme.all text.toList with
  | .error _ => none
  | .ok lexemes =>
    match sum .binary (unary lexemes.length) lexemes with
    | .ok ⟨value, [], _⟩ => some value
    | _ => none

variable {nested inner : Parser Expression} {input rest after : List Lexeme}
  {value vector : Expression}

theorem reads_singular (first : Reads (primary nested) input vector rest) :
    Reads (singular nested) input (members vector rest).1.1 (members vector rest).1.2 := by
  rcases first with ⟨shorter, read⟩
  refine ⟨Nat.lt_of_le_of_lt (members vector rest).2 shorter, ?_⟩
  rw [singular, read]
  rfl

theorem reads_operand (unsigned : input.head? ≠ some (.symbol .minus))
    (operand : Reads (singular (sum .binary inner)) input value rest) :
    Reads (unaryWith inner) input value rest := by
  rcases operand with ⟨shorter, read⟩
  refine ⟨shorter, ?_⟩
  rw [unaryWith, read]
  intro rest same
  subst same
  exact unsigned rfl

theorem reads_negate (operand : Reads inner input value rest) :
    Reads (unaryWith inner) (.symbol .minus :: input) (.negate value) rest := by
  rcases operand with ⟨shorter, read⟩
  refine ⟨Nat.lt_succ_of_lt shorter, ?_⟩
  unfold unaryWith
  simp only [read, bind, Except.bind]
  rfl

theorem reads_literal (nested : Parser Expression) (digits : List Char) (rest : List Lexeme) :
    Reads (primary nested) (.number digits :: rest) (.literal digits) rest :=
  ⟨Nat.lt_succ_self _, rfl⟩

theorem reads_name (nested : Parser Expression) (letters : List Char)
    (free : rest.head? ≠ some (.symbol .opening)) :
    Reads (primary nested) (.word letters :: rest) (.name (String.ofList letters)) rest := by
  refine ⟨Nat.lt_succ_self _, ?_⟩
  rw [primary]
  · rfl
  · intro rest same
    subst same
    exact free rfl

theorem reads_call {values : List Expression} (letters : List Char)
    (given : Reads (arguments nested) input values rest) :
    Reads (primary nested) (.word letters :: .symbol .opening :: input)
      (.call (String.ofList letters) values) rest := by
  rcases given with ⟨shorter, read⟩
  refine ⟨Nat.lt_succ_of_lt (Nat.lt_succ_of_lt shorter), ?_⟩
  simp only [primary, read, bind, Except.bind]
  rfl

theorem reads_paren (inside : Reads (enclosed nested) input value rest) :
    Reads (primary nested) (.symbol .opening :: input) value rest := by
  rcases inside with ⟨shorter, read⟩
  refine ⟨Nat.lt_succ_of_lt shorter, ?_⟩
  simp only [primary, read, bind, Except.bind]
  rfl

/-- Nothing that would go on with an operand. -/
def Stops (rest : List Lexeme) : Prop :=
  rest.head? ≠ some (.symbol .dot) ∧ rest.head? ≠ some (.symbol .opening)

theorem members_stops (value : Expression) (stops : Stops rest) :
    (members value rest).1 = (value, rest) := by
  unfold members
  split
  · exact absurd rfl stops.1
  · rfl

/-- How the lexemes of a code are read, from the tightest level to the loosest; on a level that is
looser than the code, more operators may follow. -/
structure ReadsBack (levels : Nat) (code : Code) : Prop where
  closed : code.IsClosed → ∀ rest, rest.head? ≠ some (.symbol .opening) →
    Reads (unary levels) (code.lexemes ++ rest) (members code.expression rest).1.1
      (members code.expression rest).1.2
  operand : code.rank ≤ 1 → ∀ rest, Stops rest →
    Reads (unary levels) (code.lexemes ++ rest) code.expression rest
  product : code.rank ≤ 2 → ∀ rest value after, Stops rest →
    GoesOn .binary productOperator? (unary levels) code.expression rest value after →
    Reads (chain .binary productOperator? (unary levels)) (code.lexemes ++ rest) value after
  sum : ∀ rest value after, Stops rest → (∀ lexeme ∈ rest.head?, productOperator? lexeme = none) →
    GoesOn .binary sumOperator? (chain .binary productOperator? (unary levels)) code.expression rest
      value after →
    Reads (sum .binary (unary levels)) (code.lexemes ++ rest) value after

namespace ReadsBack

variable {levels : Nat} {code : Code}

theorem of_product (loose : code.rank = 2)
    (product : ∀ rest value after, Stops rest →
      GoesOn .binary productOperator? (unary levels) code.expression rest value after →
      Reads (chain .binary productOperator? (unary levels)) (code.lexemes ++ rest) value after) :
    ReadsBack levels code where
  closed isClosed := by
    rw [Code.rank_of_closed isClosed] at loose
    cases loose
  operand tight := by omega
  product _ := product
  sum rest _ _ stops single more := (product rest _ _ stops (.stop single)).chain more

theorem of_sum (loose : code.rank = 3)
    (sum : ∀ rest value after, Stops rest →
      (∀ lexeme ∈ rest.head?, productOperator? lexeme = none) →
      GoesOn .binary sumOperator? (chain .binary productOperator? (unary levels)) code.expression
        rest value after →
      Reads (Formula.sum .binary (unary levels)) (code.lexemes ++ rest) value after) :
    ReadsBack levels code where
  closed isClosed := by
    rw [Code.rank_of_closed isClosed] at loose
    cases loose
  operand tight := by omega
  product tight := by omega
  sum := sum

theorem of_operand (isOpen : ¬ code.IsClosed)
    (operand : ∀ rest, Stops rest →
      Reads (unary levels) (code.lexemes ++ rest) code.expression rest) :
    ReadsBack levels code where
  closed isClosed := absurd isClosed isOpen
  operand _ := operand
  product _ rest _ _ stops more := (operand rest stops).chain more
  sum rest _ _ stops single more := ((operand rest stops).chain (.stop single)).chain more

theorem of_closed
    (closed : ∀ rest, rest.head? ≠ some (.symbol .opening) →
      Reads (unary levels) (code.lexemes ++ rest) (members code.expression rest).1.1
        (members code.expression rest).1.2) :
    ReadsBack levels code := by
  have operand (rest : List Lexeme) (stops : Stops rest) :
      Reads (unary levels) (code.lexemes ++ rest) code.expression rest := by
    have read := closed rest stops.2
    rwa [members_stops code.expression stops] at read
  exact {
    closed := fun _ => closed
    operand := fun _ => operand
    product := fun _ rest _ _ stops more => (operand rest stops).chain more
    sum := fun rest _ _ stops single more => ((operand rest stops).chain (.stop single)).chain more }

/-- Before the end of an expression, a code is read as what it means. -/
theorem whole (back : ReadsBack levels code) (rest : List Lexeme)
    (halts : ∀ lexeme ∈ rest.head?, lexeme = .symbol .closing ∨ lexeme = .symbol .comma) :
    Reads (Formula.sum .binary (unary levels)) (code.lexemes ++ rest) code.expression rest := by
  have stops : Stops rest := by
    constructor <;> intro first <;> rcases halts _ first with same | same <;> cases same
  refine back.sum rest _ _ stops ?_ (.stop ?_) <;> intro lexeme first <;>
    rcases halts lexeme first with rfl | rfl <;> rfl

end ReadsBack

theorem lexemes_head : (code : Code) → code.Fits →
    ∀ rest, (code.lexemes ++ rest).head? ≠ some (.symbol .closing)
  | .literal value, _, rest => by
    rw [Code.lexemes]
    split <;> simp
  | .name text, _, rest => by simp [Code.lexemes]
  | .paren inner, _, rest => by simp [Code.lexemes]
  | .negate inner, _, rest => by simp [Code.lexemes]
  | .binary operator left right, fits, rest => by
    rw [Code.lexemes, List.append_assoc]
    exact lexemes_head left fits.1 _
  | .call function arguments, _, rest => by simp [Code.lexemes]
  | .member inner components, fits, rest => by
    rw [Code.lexemes, List.append_assoc]
    exact lexemes_head inner fits.1 _

/-- Parentheses and calls take a level. -/
theorem unary_of_pos {levels : Nat} (some_level : 0 < levels) :
    unary levels = unaryWith (unary (levels - 1)) := by
  rcases Nat.exists_eq_succ_of_ne_zero (Nat.ne_of_gt some_level) with ⟨level, rfl⟩
  rfl

theorem unary_eq (levels : Nat) : ∃ inner, unary levels = unaryWith inner := by
  cases levels with
  | zero => exact ⟨_, rfl⟩
  | succ level => exact ⟨_, rfl⟩

theorem reads_numeral (levels : Nat) (digits : List Char) (stops : Stops rest) :
    Reads (unary levels) (.number digits :: rest) (.literal digits) rest := by
  rcases unary_eq levels with ⟨inner, same⟩
  have read := reads_singular (reads_literal (sum .binary inner) digits rest)
  rw [members_stops _ stops] at read
  rw [same]
  exact reads_operand nofun read

theorem members_member (vector : Expression) (components : String) (rest : List Lexeme) :
    (members vector (.symbol .dot :: .word components.toList :: rest)).1 =
      (members (.member vector components) rest).1 := by
  rw [members]
  simp only [String.ofList_toList]

theorem productOperator?_of_rank {operator : Operator} (tight : operator.rank = 2) :
    productOperator? (.symbol operator.mark) = some operator := by
  cases operator <;> first | rfl | cases tight

theorem sumOperator?_of_rank {operator : Operator} (loose : operator.rank = 3) :
    sumOperator? (.symbol operator.mark) = some operator ∧
      productOperator? (.symbol operator.mark) = none := by
  cases operator <;> first | exact ⟨rfl, rfl⟩ | cases loose

theorem stops_operator (operator : Operator) (rest : List Lexeme) :
    Stops (.symbol operator.mark :: rest) := by
  cases operator <;> exact ⟨nofun, nofun⟩

theorem lexemesMore_head (codes : List Code) (rest : List Lexeme) :
    ∀ lexeme ∈ (Code.lexemesMore codes ++ .symbol .closing :: rest).head?,
      lexeme = .symbol .closing ∨ lexeme = .symbol .comma := by
  cases codes with
  | nil =>
    intro _ given
    cases given
    exact .inl rfl
  | cons code codes =>
    intro _ given
    cases given
    exact .inr rfl

mutual

theorem readsBack : (code : Code) → code.Fits → ∀ levels, code.lexemes.length ≤ levels →
    ReadsBack levels code
  | .literal value, _, levels, enough => by
    apply ReadsBack.of_operand id
    intro rest stops
    rw [Code.lexemes] at enough ⊢
    rw [Code.expression]
    split
    · next negative =>
      rw [if_pos negative, List.length_cons] at enough
      rw [unary_of_pos (by omega)]
      exact reads_negate (reads_numeral _ _ stops)
    · exact reads_numeral _ _ stops
  | .name text, _, levels, _ => by
    apply ReadsBack.of_closed
    intro rest free
    rcases unary_eq levels with ⟨inner, same⟩
    have read := reads_singular (reads_name (sum .binary inner) text.toList free)
    rw [String.ofList_toList] at read
    rw [same]
    exact reads_operand nofun read
  | .paren inner, fits, levels, enough => by
    rw [Code.lexemes, List.length_cons, List.length_append] at enough
    have back := readsBack inner fits (levels - 1) (by omega)
    apply ReadsBack.of_closed
    intro rest _
    have inside := back.whole (.symbol .closing :: rest) (by intro _ first; cases first; exact .inl rfl)
    rw [unary_of_pos (by omega), Code.lexemes, List.cons_append, List.append_assoc]
    exact reads_operand nofun (reads_singular (reads_paren inside.enclosed))
  | .negate inner, fits, levels, enough => by
    rw [Code.lexemes, List.length_cons] at enough
    have back := readsBack inner fits.1 (levels - 1) (by omega)
    apply ReadsBack.of_operand id
    intro rest stops
    rw [unary_of_pos (by omega)]
    exact reads_negate (back.operand (by rw [fits.2]; exact Nat.zero_le _) rest stops)
  | .binary operator left right, fits, levels, enough => by
    rcases fits with ⟨fits_left, fits_right, left_rank, right_rank⟩
    rw [Code.lexemes, List.length_append, List.length_cons] at enough
    have first := readsBack left fits_left levels (by omega)
    have second := readsBack right fits_right levels (by omega)
    rcases operator.rank_cases with tight | loose
    · apply ReadsBack.of_product (show Code.rank (.binary operator left right) = 2 from tight)
      intro rest value after stops more
      rw [tight] at left_rank right_rank
      rw [Code.lexemes, List.append_assoc]
      apply first.product left_rank _ _ _ (stops_operator operator _)
      exact .step (productOperator?_of_rank tight)
        (second.operand (Nat.le_of_lt_succ right_rank) rest stops) more
    · apply ReadsBack.of_sum (show Code.rank (.binary operator left right) = 3 from loose)
      intro rest value after stops single more
      rw [loose] at right_rank
      rcases sumOperator?_of_rank loose with ⟨known, other⟩
      rw [Code.lexemes, List.append_assoc]
      apply first.sum _ _ _ (stops_operator operator _) (by intro _ first; cases first; exact other)
      exact .step known
        (second.product (Nat.le_of_lt_succ right_rank) rest _ _ stops (.stop single)) more
  | .call function arguments, fits, levels, enough => by
    rw [Code.lexemes, List.length_cons, List.length_cons, List.length_append] at enough
    apply ReadsBack.of_closed
    intro rest _
    have given := readsBackAll arguments fits.2 (levels - 1) (by omega) rest
    have called := reads_call function.toList given
    rw [String.ofList_toList] at called
    rw [unary_of_pos (by omega), Code.lexemes, List.cons_append, List.cons_append,
      List.append_assoc]
    exact reads_operand nofun (reads_singular called)
  | .member inner components, fits, levels, enough => by
    rw [Code.lexemes, List.length_append] at enough
    have back := readsBack inner fits.1 levels (by omega)
    apply ReadsBack.of_closed
    intro rest _
    have read := back.closed fits.2.1 (.symbol .dot :: .word components.toList :: rest) nofun
    rw [members_member] at read
    rw [Code.lexemes, List.append_assoc]
    exact read

theorem readsBackAll : (codes : List Code) → Code.FitsAll codes → ∀ levels,
    (Code.lexemesAll codes).length ≤ levels → ∀ rest,
      Reads (arguments (sum .binary (unary levels)))
        (Code.lexemesAll codes ++ .symbol .closing :: rest) (Code.expressions codes) rest
  | [], _, levels, _, rest => .no_arguments _ rest
  | code :: codes, fits, levels, enough, rest => by
    rw [Code.lexemesAll, List.length_append] at enough
    have others := readsBackMore codes fits.2 levels (by omega) rest
    rw [Code.lexemesAll, List.append_assoc]
    refine .some_arguments ((readsBack code fits.1 levels (by omega)).whole _ ?_) others
      (lexemes_head code fits.1 _)
    exact lexemesMore_head codes rest

theorem readsBackMore : (codes : List Code) → Code.FitsAll codes → ∀ levels,
    (Code.lexemesMore codes).length ≤ levels → ∀ rest,
      ReadsMore (sum .binary (unary levels))
        (Code.lexemesMore codes ++ .symbol .closing :: rest) (Code.expressions codes) rest
  | [], _, levels, _, rest => .closed _ rest
  | code :: codes, fits, levels, enough, rest => by
    rw [Code.lexemesMore, List.length_cons, List.length_append] at enough
    have others := readsBackMore codes fits.2 levels (by omega) rest
    rw [Code.lexemesMore, List.cons_append, List.append_assoc]
    refine .comma ((readsBack code fits.1 levels (by omega)).whole _ ?_) others
    exact lexemesMore_head codes rest

end

/-- The text of a code reads back as what the code means. -/
theorem read?_render {code : Code} (fits : code.Fits) : read? code.render = some code.expression := by
  have read := (readsBack code fits code.lexemes.length (Nat.le_refl _)).whole [] (by simp)
  rw [List.append_nil] at read
  rcases read with ⟨shorter, read⟩
  unfold read?
  rw [Lexeme.all_whole fits]
  dsimp only
  rw [read]

end Expression

end NodeShader
