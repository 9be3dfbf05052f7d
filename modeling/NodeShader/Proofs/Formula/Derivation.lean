import NodeShader.Proofs.Formula.Grammar
import NodeShader.Proofs.Formula.Levels
import NodeShader.Proofs.Wgsl.Reading

/-!
The parser of formulas accepts exactly their grammar, and lexemes derive at most one formula: what
derives is read, whatever follows it that does not go on with it.
-/

namespace NodeShader

namespace Formula

open Expression (Stops stops_operator sumOperator?_of_rank productOperator?_of_rank)

variable {levels : Nat} {input rest after : List Lexeme} {value vector formula : Formula}
  {nested inner : Parser Formula}

/-! ### What the parsers read -/

/-- After an operand come component selections up to a value, and the rest. -/
def Selects (vector : Formula) (input : List Lexeme) (value : Formula) (rest : List Lexeme) : Prop :=
  ∃ shorter, swizzles vector input = .ok ⟨(value, rest), shorter⟩

theorem Selects.stop (vector : Formula) (stop : rest.head? ≠ some (.symbol .dot)) :
    Selects vector rest vector rest := by
  refine ⟨Nat.le_refl _, ?_⟩
  unfold swizzles
  split
  · exact absurd rfl stop
  · exact absurd rfl stop
  · exact absurd rfl stop
  · rfl

theorem Selects.step {components : Swizzle}
    (more : Selects (.swizzle vector components) rest value after) :
    Selects vector (.symbol .dot :: .word components.text.toList :: rest) value after := by
  obtain ⟨shorter, read⟩ := more
  refine ⟨Nat.le_trans shorter (Nat.le_trans (Nat.le_succ _) (Nat.le_succ _)), ?_⟩
  simp only [swizzles, ofWord?_text, read]
  rfl

theorem Reads.operand (first : Reads (primary nested) input vector rest)
    (more : Selects vector rest value after) : Reads (operand nested) input value after := by
  obtain ⟨shorter, read⟩ := first
  obtain ⟨short, selected⟩ := more
  refine ⟨Nat.lt_of_le_of_lt short shorter, ?_⟩
  simp only [Formula.operand, read, bind, Except.bind, selected]
  rfl

theorem reads_number (nested : Parser Formula) (digits : List Char) (rest : List Lexeme) :
    Reads (primary nested) (.number digits :: rest) (.number (Lexeme.numberValue digits)) rest :=
  ⟨Nat.lt_succ_self _, rfl⟩

theorem reads_name {text : String} (known : IsName text value)
    (free : rest.head? ≠ some (.symbol .opening)) :
    Reads (primary nested) (.word text.toList :: rest) value rest := by
  refine ⟨Nat.lt_succ_self _, ?_⟩
  rw [primary]
  · rw [String.ofList_toList, ofName?_eq_some_iff.2 known]
    rfl
  · intro rest same
    subst same
    exact free rfl

theorem reads_call {function : Builtin} {values : List Formula}
    (given : Reads (arguments nested) input values rest) (arity : values.length = function.arity) :
    Reads (primary nested) (.word function.name.toList :: .symbol .opening :: input)
      (.call function values) rest := by
  obtain ⟨shorter, read⟩ := given
  refine ⟨Nat.lt_succ_of_lt (Nat.lt_succ_of_lt shorter), ?_⟩
  simp only [primary, namedCall, String.ofList_toList, Builtin.ofName?_name, read, bind,
    Except.bind, arity, if_true]
  rfl

theorem reads_paren (inside : Reads (enclosed nested) input value rest) :
    Reads (primary nested) (.symbol .opening :: input) value rest := by
  obtain ⟨shorter, read⟩ := inside
  refine ⟨Nat.lt_succ_of_lt shorter, ?_⟩
  simp only [primary, read, bind, Except.bind]
  rfl

theorem reads_minus (operand : Reads inner input value rest) :
    Reads (signedWith inner) (.symbol .minus :: input) (.negate value) rest := by
  obtain ⟨shorter, read⟩ := operand
  refine ⟨Nat.lt_succ_of_lt shorter, ?_⟩
  simp only [signedWith, read, bind, Except.bind]
  rfl

theorem reads_plus (operand : Reads inner input value rest) :
    Reads (signedWith inner) (.symbol .plus :: input) value rest := by
  obtain ⟨shorter, read⟩ := operand
  refine ⟨Nat.lt_succ_of_lt shorter, ?_⟩
  simp only [signedWith, read, bind, Except.bind]
  rfl

/-- No operand starts with a sign. -/
theorem reads_unsigned (unsigned : Reads (operand (sum .binary inner)) input value rest) :
    Reads (signedWith inner) input value rest := by
  obtain ⟨shorter, read⟩ := unsigned
  refine ⟨shorter, ?_⟩
  unfold signedWith
  split
  · cases read
  · cases read
  · exact read

/-- No formula starts with a closing parenthesis. -/
theorem not_closing (opened : Reads (within levels) input value rest) :
    input.head? ≠ some (.symbol .closing) := by
  obtain ⟨shorter, read⟩ := opened
  cases input with
  | nil => exact nofun
  | cons first input =>
    intro same
    cases same
    rw [within_eq] at read
    cases levels with
    | zero => cases read
    | succ levels => cases levels <;> cases read

/-! ### What derives is read -/

/-- Before further arguments, or none, a formula is at its end. -/
theorem AreMore.halts {levels : Nat} {lexemes : List Lexeme} {formulas : List Formula}
    (more : AreMore levels lexemes formulas) (rest : List Lexeme) :
    ∀ lexeme ∈ (lexemes ++ .symbol .closing :: rest).head?,
      lexeme = .symbol .closing ∨ lexeme = .symbol .comma := by
  intro lexeme first
  cases more with
  | none =>
    cases first
    exact .inl rfl
  | next =>
    cases first
    exact .inr rfl

mutual

/-- Whatever derives from the grammar is read, up to the end of a formula. -/
theorem IsFormula.reads {levels : Nat} {lexemes : List Lexeme} {formula : Formula} :
    IsFormula levels lexemes formula → ∀ rest : List Lexeme,
      (∀ lexeme ∈ rest.head?, lexeme = .symbol .closing ∨ lexeme = .symbol .comma) →
      Reads (within levels) (lexemes ++ rest) formula rest
  | .sum whole, rest, halts => by
    have stops : Stops rest := by
      constructor <;> intro first <;> rcases halts _ first with same | same <;> cases same
    apply whole.reads rest _ _ stops
    · intro lexeme first
      rcases halts lexeme first with rfl | rfl <;> rfl
    · apply GoesOn.stop
      intro lexeme first
      rcases halts lexeme first with rfl | rfl <;> rfl

/-- After a sum more loose operators may follow. -/
theorem IsSum.reads {levels : Nat} {lexemes : List Lexeme} {formula : Formula} :
    IsSum levels lexemes formula → ∀ (rest : List Lexeme) (value : Formula) (after : List Lexeme),
      Stops rest → (∀ lexeme ∈ rest.head?, productOperator? lexeme = none) →
      GoesOn .binary sumOperator? (chain .binary productOperator? (signed levels)) formula rest value
        after →
      Reads (sum .binary (signed levels)) (lexemes ++ rest) value after
  | .product single, rest, value, after, stops, ended, more =>
    (single.reads rest _ _ stops (.stop ended)).chain more
  | .operation loose first second, rest, value, after, stops, ended, more => by
    obtain ⟨known, other⟩ := sumOperator?_of_rank loose
    have right := second.reads rest _ _ stops (.stop ended)
    rw [List.append_assoc]
    apply first.reads _ _ _ (stops_operator _ _)
    · intro lexeme here
      cases here
      exact other
    · exact .step known right more

/-- After a product more tight operators may follow. -/
theorem IsProduct.reads {levels : Nat} {lexemes : List Lexeme} {formula : Formula} :
    IsProduct levels lexemes formula →
      ∀ (rest : List Lexeme) (value : Formula) (after : List Lexeme), Stops rest →
      GoesOn .binary productOperator? (signed levels) formula rest value after →
      Reads (chain .binary productOperator? (signed levels)) (lexemes ++ rest) value after
  | .signed single, rest, value, after, stops, more => (single.reads rest stops).chain more
  | .operation tight first second, rest, value, after, stops, more => by
    have right := second.reads rest stops
    rw [List.append_assoc]
    apply first.reads _ _ _ (stops_operator _ _)
    exact .step (productOperator?_of_rank tight) right more

theorem IsSigned.reads {levels : Nat} {lexemes : List Lexeme} {formula : Formula} :
    IsSigned levels lexemes formula → ∀ rest : List Lexeme, Stops rest →
      Reads (signed levels) (lexemes ++ rest) formula rest
  | .minus inner, rest, stops => reads_minus (inner.reads rest stops)
  | .plus inner, rest, stops => reads_plus (inner.reads rest stops)
  | .operand unsigned, rest, stops => by
    have read := unsigned.reads rest _ _ stops.2 (.stop _ stops.1)
    rw [within_eq] at read
    rw [signed_eq]
    exact reads_unsigned read

/-- After an operand more component selections may follow. -/
theorem IsOperand.reads {levels : Nat} {lexemes : List Lexeme} {formula : Formula} :
    IsOperand levels lexemes formula →
      ∀ (rest : List Lexeme) (value : Formula) (after : List Lexeme),
      rest.head? ≠ some (.symbol .opening) → Selects formula rest value after →
      Reads (operand (within levels)) (lexemes ++ rest) value after
  | .primary plain, rest, value, after, free, more => (plain.reads rest free).operand more
  | .swizzle components vector, rest, value, after, free, more => by
    rw [List.append_assoc]
    exact vector.reads _ _ _ nofun (.step more)

theorem IsPrimary.reads {levels : Nat} {lexemes : List Lexeme} {formula : Formula} :
    IsPrimary levels lexemes formula → ∀ rest : List Lexeme,
      rest.head? ≠ some (.symbol .opening) →
      Reads (primary (within levels)) (lexemes ++ rest) formula rest
  | .number digits, rest, _ => reads_number _ digits rest
  | .name known, rest, free => reads_name known free
  | .call given arity, rest, _ => by
    have arguments := given.reads rest
    simpa using reads_call arguments arity
  | .paren inner, rest, _ => by
    have inside := inner.reads (.symbol .closing :: rest) (by intro _ first; cases first; exact .inl rfl)
    simpa using reads_paren inside.enclosed

theorem AreArguments.reads {levels : Nat} {lexemes : List Lexeme} {formulas : List Formula} :
    AreArguments levels lexemes formulas → ∀ rest : List Lexeme,
      Reads (arguments (within levels)) (lexemes ++ .symbol .closing :: rest) formulas rest
  | .none, rest => .no_arguments _ rest
  | .some first others, rest => by
    have read := first.reads _ (others.halts rest)
    rw [List.append_assoc]
    exact .some_arguments read (others.reads rest) (not_closing read)

theorem AreMore.reads {levels : Nat} {lexemes : List Lexeme} {formulas : List Formula} :
    AreMore levels lexemes formulas → ∀ rest : List Lexeme,
      ReadsMore (within levels) (lexemes ++ .symbol .closing :: rest) formulas rest
  | .none, rest => .closed _ rest
  | .next first others, rest => by
    have read := first.reads _ (others.halts rest)
    simpa using ReadsMore.comma read (others.reads rest)

end

/-! ### Levels do not change what is derived -/

mutual

theorem IsFormula.mono {levels more : Nat} {lexemes : List Lexeme} {formula : Formula} :
    IsFormula levels lexemes formula → levels ≤ more → IsFormula more lexemes formula
  | .sum whole, fewer => by
    obtain ⟨lower, rfl⟩ := Nat.exists_eq_add_of_lt fewer
    exact .sum (whole.mono (Nat.le_add_right _ _))

theorem IsSum.mono {levels more : Nat} {lexemes : List Lexeme} {formula : Formula} :
    IsSum levels lexemes formula → levels ≤ more → IsSum more lexemes formula
  | .product single, fewer => .product (single.mono fewer)
  | .operation loose first second, fewer =>
    .operation loose (first.mono fewer) (second.mono fewer)

theorem IsProduct.mono {levels more : Nat} {lexemes : List Lexeme} {formula : Formula} :
    IsProduct levels lexemes formula → levels ≤ more → IsProduct more lexemes formula
  | .signed single, fewer => .signed (single.mono fewer)
  | .operation tight first second, fewer =>
    .operation tight (first.mono fewer) (second.mono fewer)

theorem IsSigned.mono {levels more : Nat} {lexemes : List Lexeme} {formula : Formula} :
    IsSigned levels lexemes formula → levels ≤ more → IsSigned more lexemes formula
  | .minus inner, fewer => by
    obtain ⟨lower, rfl⟩ := Nat.exists_eq_add_of_lt fewer
    exact .minus (inner.mono (Nat.le_add_right _ _))
  | .plus inner, fewer => by
    obtain ⟨lower, rfl⟩ := Nat.exists_eq_add_of_lt fewer
    exact .plus (inner.mono (Nat.le_add_right _ _))
  | .operand unsigned, fewer => .operand (unsigned.mono fewer)

theorem IsOperand.mono {levels more : Nat} {lexemes : List Lexeme} {formula : Formula} :
    IsOperand levels lexemes formula → levels ≤ more → IsOperand more lexemes formula
  | .primary plain, fewer => .primary (plain.mono fewer)
  | .swizzle components vector, fewer => .swizzle components (vector.mono fewer)

theorem IsPrimary.mono {levels more : Nat} {lexemes : List Lexeme} {formula : Formula} :
    IsPrimary levels lexemes formula → levels ≤ more → IsPrimary more lexemes formula
  | .number digits, _ => .number digits
  | .name known, _ => .name known
  | .call given arity, fewer => .call (given.mono fewer) arity
  | .paren inner, fewer => .paren (inner.mono fewer)

theorem AreArguments.mono {levels more : Nat} {lexemes : List Lexeme} {formulas : List Formula} :
    AreArguments levels lexemes formulas → levels ≤ more → AreArguments more lexemes formulas
  | .none, _ => .none
  | .some first rest, fewer => .some (first.mono fewer) (rest.mono fewer)

theorem AreMore.mono {levels more : Nat} {lexemes : List Lexeme} {formulas : List Formula} :
    AreMore levels lexemes formulas → levels ≤ more → AreMore more lexemes formulas
  | .none, _ => .none
  | .next first rest, fewer => .next (first.mono fewer) (rest.mono fewer)

end

/-! ### The formulas that are read -/

theorem IsFormula.reads_all {lexemes : List Lexeme} (derived : IsFormula levels lexemes formula) :
    Reads (within levels) lexemes formula [] := by
  have read := derived.reads [] nofun
  rwa [List.append_nil] at read

theorem ofLexemes_eq_ok {lexemes : List Lexeme} (read : Reads (within maxLevels) lexemes formula []) :
    ofLexemes lexemes = .ok formula := by
  obtain ⟨shorter, read⟩ := read
  have some_lexeme : lexemes.isEmpty = false := by
    cases lexemes with
    | nil => cases shorter
    | cons => rfl
  simp only [ofLexemes, some_lexeme, read, bind, Except.bind]
  rfl

/-- However many levels they may open, lexemes derive one formula at most. -/
theorem IsFormula.unique {levels' : Nat} {lexemes : List Lexeme} {other : Formula}
    (derived : IsFormula levels lexemes formula) (derived' : IsFormula levels' lexemes other) :
    formula = other := by
  obtain ⟨_, read⟩ := (derived.mono (Nat.le_max_left levels levels')).reads_all
  obtain ⟨_, read'⟩ := (derived'.mono (Nat.le_max_right levels levels')).reads_all
  rw [read] at read'
  cases read'
  rfl

/-- Formulas are read from exactly the lexemes that derive them with no more levels open than there
may be, and lexemes derive one formula at most. -/
theorem ofLexemes_iff_isFormula (lexemes : List Lexeme) :
    (∀ formula, ofLexemes lexemes = .ok formula ↔ IsFormula maxLevels lexemes formula) ∧
      ∀ levels levels' formula other, IsFormula levels lexemes formula →
        IsFormula levels' lexemes other → formula = other := by
  refine ⟨fun formula => ⟨.of_ofLexemes, fun derived => ofLexemes_eq_ok derived.reads_all⟩, ?_⟩
  intro levels levels' formula other derived derived'
  exact derived.unique derived'

/-- The negated first component of the position, written with a sign and a plus before it. -/
theorem ofLexemes_signed_component :
    ofLexemes [.symbol .minus, .symbol .plus, .word "uv".toList, .symbol .dot, .word "x".toList] =
        .ok (.negate (.swizzle (.slot .uv) (.one .x))) ∧
      ¬ IsFormula maxLevels
        [.symbol .minus, .symbol .plus, .word "uv".toList, .symbol .dot, .word "x".toList]
        (.swizzle (.slot .uv) (.one .x)) := by
  have component : IsFormula maxLevels
      [.symbol .minus, .symbol .plus, .word "uv".toList, .symbol .dot, .word "x".toList]
      (.negate (.swizzle (.slot .uv) (.one .x))) :=
    .sum (.product (.signed (.minus (.plus (.operand
      (.swizzle (.one .x) (.primary (.name .uv))))))))
  refine ⟨((ofLexemes_iff_isFormula _).1 _).2 component, fun other => ?_⟩
  cases (ofLexemes_iff_isFormula _).2 _ _ _ _ component other

end Formula

end NodeShader
