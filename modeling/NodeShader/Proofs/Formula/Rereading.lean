import NodeShader.Proofs.Floating.Order
import NodeShader.Proofs.Formula.Derivation
import NodeShader.Proofs.Formula.Fitting
import NodeShader.Proofs.Formula.Substitution
import NodeShader.Proofs.Formula.Typing

/-!
The code of a formula is itself a formula. Where each slot stands for its own name and the arguments
of each call have one type, the text of the code is read as a formula again, and its code has the
same text.
-/

namespace NodeShader

/-- Each slot stands for its own name. -/
def Environment.named : Environment where
  a := ⟨.name "a", .f32⟩
  b := ⟨.name "b", .f32⟩
  time := ⟨.name "u_time", .f32⟩
  uv := ⟨.name "uv", .vec2f⟩

theorem Code.renderAll_eq (codes : List Code) : renderAll codes = codes.map render := by
  induction codes with
  | nil => rfl
  | cons code codes ih => rw [renderAll, List.map_cons, ih]

/-- The text of a code is made of the texts of its parts. -/
theorem Code.parallel_render : Parallel render render where
  literal _ := rfl
  paren same := by rw [render, render, same]
  negate same := by rw [render, render, same]
  binary operator _ _ _ _ same same' := by rw [render, render, same, same']
  call function _ _ same := by rw [render, render, renderAll_eq, renderAll_eq, same]
  select components code code' same := by
    unfold select
    rw [same]
    split <;> simp only [render, same]

/-- Codes of one text and type; either is a literal if the other is. -/
abbrev Typed.LooksLike : Typed → Typed → Prop := Typed.Stands Code.render Code.render

namespace Formula

open Typed

mutual

/-- Whether the arguments of each call have one type. -/
def uniform (environment : Environment) : Formula → Bool
  | .number _ | .pi | .slot _ => true
  | .negate operand => uniform environment operand
  | .binary _ left right => uniform environment left && uniform environment right
  | .call _ arguments => uniformAll environment arguments &&
    match lowerAll environment arguments with
    | .ok lowered => lowered.all fun x => lowered.all fun y => x.type == y.type
    | .error _ => true
  | .swizzle vector _ => uniform environment vector

def uniformAll (environment : Environment) : List Formula → Bool
  | [] => true
  | argument :: rest => uniform environment argument && uniformAll environment rest

end

/-- A formula that the lexemes of a code derive, and whose own code has the same text. -/
structure Rereads (levels : Nat) (x : Typed) (formula : Formula) : Prop where
  signed : IsSigned levels x.code.lexemes formula
  operand : x.literal? = none → IsOperand levels x.code.lexemes formula
  same : ∃ y, lower .named formula = .ok y ∧ x.LooksLike y

/-- Code whose lexemes derive a formula of the same code. -/
def IsReread (x : Typed) : Prop := ∃ levels formula, Rereads levels x formula

variable {levels : Nat} {x y : Typed} {xs : List Typed} {formula : Formula}

theorem isReread_operand (operand : IsOperand levels x.code.lexemes formula)
    (lowered : lower .named formula = .ok y) (same : x.LooksLike y) : IsReread x :=
  ⟨levels, formula, .operand operand, fun _ => operand, y, lowered, same⟩

theorem isReread_paren {code : Code} {type : ValueType} (whole : IsSum levels code.lexemes formula)
    (lowered : lower .named formula = .ok y) (same : (Typed.mk (.paren code) type).LooksLike y) :
    IsReread ⟨.paren code, type⟩ :=
  isReread_operand (.primary (.paren (.sum whole))) lowered same

theorem looksLike_orZero (value : F32) : (literal value).LooksLike (literal value.orZero) := by
  have finite : value.orZero.orZero = value.orZero :=
    F32.orZero_of_isFinite value.isFinite_orZero
  refine ⟨rfl, ?_, ?_⟩
  · rw [literal?_literal, literal?_literal, finite]
  · change value.orZero.fractional = value.orZero.orZero.fractional
    rw [finite]

theorem isReread_literal (value : F32) : IsReread (literal value) := by
  have finite := F32.orZero_of_isFinite value.isFinite_numberValue
  have number := value.numeral_value.2
  have same := looksLike_orZero value
  rw [← number] at same
  have lexemes : (literal value).code.lexemes = if value.numeral.1 then
      [.symbol .minus, .number value.numeral.2] else [.number value.numeral.2] := rfl
  split at same
  · next negative =>
    rw [if_pos negative] at lexemes
    refine ⟨1, .negate (.number (Lexeme.numberValue value.numeral.2)), ?_, nofun, _, rfl, ?_⟩
    · rw [lexemes]
      exact .minus (.operand (.primary (.number _)))
    · rw [lowerNegate, literal?_literal, finite]
      exact same
  · next positive =>
    rw [if_neg positive] at lexemes
    have operand : IsOperand 0 (literal value).code.lexemes
        (.number (Lexeme.numberValue value.numeral.2)) := by
      rw [lexemes]
      exact .primary (.number _)
    exact isReread_operand operand rfl same

theorem isReread_slot (slot : Slot) : IsReread (Environment.named.get slot) := by
  have name {text : String} {type : ValueType} (known : IsName text (.slot slot))
      (own : Environment.named.get slot = ⟨.name text, type⟩) :
      IsReread (Environment.named.get slot) := by
    have operand : IsOperand 0 (Environment.named.get slot).code.lexemes (.slot slot) := by
      rw [own]
      exact .primary (.name known)
    exact isReread_operand operand rfl ⟨rfl, rfl, rfl⟩
  cases slot with
  | a => exact name .a rfl
  | b => exact name .b rfl
  | time => exact name .uTime rfl
  | uv => exact name .uv rfl

theorem isReread_lowerNegate (reread : IsReread x) : IsReread (lowerNegate x) := by
  obtain ⟨levels, formula, signed, -, y, lowered, same⟩ := reread
  have same' := stands_lowerNegate Code.parallel_render same
  have lowered' : lower .named (.negate formula) = .ok (lowerNegate y) :=
    except_bind_eq_ok.2 ⟨y, lowered, rfl⟩
  unfold lowerNegate at same' ⊢
  cases known : x.literal? with
  | some value => exact isReread_literal _
  | none =>
    rw [known] at same'
    exact isReread_paren (.product (.signed (.minus signed))) lowered' same'

theorem isReread_operation (operator : Operator) (reread : IsReread x) (reread' : IsReread y)
    (unknown : x.literal? = none ∨ y.literal? = none) :
    IsReread ⟨.paren (.binary operator x.code y.code), ValueType.widest [x.type, y.type]⟩ := by
  obtain ⟨levels, formula, signed, -, z, lowered, same⟩ := reread
  obtain ⟨levels', formula', signed', -, z', lowered', same'⟩ := reread'
  have first := signed.mono (Nat.le_max_left levels levels')
  have second := signed'.mono (Nat.le_max_right levels levels')
  have whole : lower .named (.binary operator formula formula') = .ok (lowerBinary operator z z') :=
    except_bind_eq_ok.2 ⟨z, lowered, except_bind_eq_ok.2 ⟨z', lowered', rfl⟩⟩
  have alike := stands_lowerBinary Code.parallel_render operator same same'
  have operation : lowerBinary operator x y =
      ⟨.paren (.binary operator x.code y.code), ValueType.widest [x.type, y.type]⟩ := by
    unfold lowerBinary
    rcases unknown with none_left | none_right
    · rw [none_left]
    · rw [none_right]
      cases x.literal? <;> rfl
  rw [operation] at alike
  rcases operator.rank_cases with tight | loose
  · exact isReread_paren (.product (.operation tight (.signed first) second)) whole alike
  · exact isReread_paren (.operation loose (.product (.signed first)) (.signed second)) whole alike

theorem isReread_lowerBinary (operator : Operator) (reread : IsReread x) (reread' : IsReread y) :
    IsReread (lowerBinary operator x y) := by
  have operation := isReread_operation operator reread reread'
  unfold lowerBinary
  cases known : x.literal? with
  | none => exact operation (.inl known)
  | some value =>
    cases known' : y.literal? with
    | none => exact operation (.inr known')
    | some value' => exact isReread_literal _

/-! ### Calls -/

theorem rereads_more (reread : ∀ x ∈ xs, IsReread x) : ∃ levels formulas ys,
    AreMore levels (Code.lexemesMore (xs.map (·.code))) formulas ∧ formulas.length = xs.length ∧
      lowerAll .named formulas = .ok ys ∧ List.Forall₂ LooksLike xs ys := by
  induction xs with
  | nil => exact ⟨0, [], [], .none, rfl, rfl, .nil⟩
  | cons x xs ih =>
    rw [List.forall_mem_cons] at reread
    obtain ⟨levels, formula, signed, -, y, lowered, same⟩ := reread.1
    obtain ⟨levels', formulas, ys, more, length, lowered', related⟩ := ih reread.2
    have first : IsFormula (levels + 1) x.code.lexemes formula := .sum (.product (.signed signed))
    refine ⟨max (levels + 1) levels', formula :: formulas, y :: ys, ?_, congrArg Nat.succ length, ?_,
      .cons same related⟩
    · exact .next (first.mono (Nat.le_max_left _ _)) (more.mono (Nat.le_max_right _ _))
    · exact except_bind_eq_ok.2 ⟨y, lowered, except_bind_eq_ok.2 ⟨ys, lowered', rfl⟩⟩

theorem AreMore.arguments {lexemes : List Lexeme} {formulas : List Formula}
    (more : AreMore levels (.symbol .comma :: lexemes) formulas) :
    AreArguments levels lexemes formulas := by
  cases more with
  | next first rest => exact .some first rest

theorem rereads_arguments (reread : ∀ x ∈ xs, IsReread x) : ∃ levels formulas ys,
    AreArguments levels (Code.lexemesAll (xs.map (·.code))) formulas ∧
      formulas.length = xs.length ∧ lowerAll .named formulas = .ok ys ∧
      List.Forall₂ LooksLike xs ys := by
  obtain ⟨levels, formulas, ys, more, length, lowered, related⟩ := rereads_more reread
  refine ⟨levels, formulas, ys, ?_, length, lowered, related⟩
  cases xs with
  | nil =>
    cases more
    exact .none
  | cons x xs => exact AreMore.arguments more

theorem widest_alike {types : List ValueType} {type : ValueType} (some_type : types ≠ [])
    (alike : ∀ other ∈ types, other = type) : ValueType.widest types = type := by
  have same : types = List.replicate types.length type := List.eq_replicate_iff.2 ⟨rfl, alike⟩
  obtain ⟨count, length⟩ := Nat.exists_eq_succ_of_ne_zero (List.length_pos_iff.2 some_type).ne'
  have fold (count : Nat) : (List.replicate count type).foldl ValueType.wider type = type := by
    induction count with
    | zero => rfl
    | succ count ih =>
      rw [List.replicate_succ, List.foldl_cons]
      have self : type.wider type = type := if_pos (Nat.le_refl _)
      rw [self, ih]
  rw [same, length, List.replicate_succ, ValueType.widest, List.foldl_cons]
  have first : ValueType.f32.wider type = type := by cases type <;> rfl
  rw [first, fold]

/-- The code of a call whose arguments have one type already. -/
theorem lowerPlainCall_alike (function : Builtin) {type : ValueType} (some_argument : xs ≠ [])
    (alike : ∀ x ∈ xs, x.type = type) :
    (∃ x y, xs = [x, y] ∧ type = .f32 ∧
      lowerPlainCall function xs = ⟨.paren (.binary .mul x.code y.code), .f32⟩) ∨
      lowerPlainCall function xs = ⟨.call function.name (xs.map (·.code)),
        if function.yieldsScalar then .f32 else type⟩ := by
  have widest : ValueType.widest (xs.map (·.type)) = type := by
    apply widest_alike (by simpa using some_argument)
    simpa using alike
  have own (x : Typed) (member : x ∈ xs) : (x.convert type).code = x.code := by
    rw [← alike x member, convert_self]
  rcases lowerPlainCall_cases function xs widest with ⟨x, y, -, rfl, scalar, same⟩ | ⟨-, same⟩
  · subst scalar
    rw [own x (by simp), own y (by simp)] at same
    exact .inl ⟨x, y, rfl, rfl, same⟩
  · rw [List.map_congr_left own] at same
    exact .inr same

theorem isReread_lowerPlainCall (function : Builtin) (type : ValueType)
    (arity : xs.length = function.arity) (reread : ∀ x ∈ xs, IsReread x)
    (alike : ∀ x ∈ xs, x.type = type) (unknown : xs.mapM literal? = none)
    (ordered : lowerMisordered? function xs = none) :
    IsReread (lowerPlainCall function xs) := by
  have some_argument : xs ≠ [] := by
    intro nothing
    rw [nothing] at unknown
    cases unknown
  obtain ⟨levels, formulas, ys, derived, length, lowered, related⟩ := rereads_arguments reread
  have whole : lower .named (.call function formulas) = .ok (lowerCall function ys) :=
    except_bind_eq_ok.2 ⟨ys, lowered, rfl⟩
  have same := stands_lowerCall Code.parallel_render function related
  have plain : lowerCall function xs = lowerPlainCall function xs := by
    rw [lowerCall, unknown, ordered]
    rfl
  rw [plain] at same
  rcases lowerPlainCall_alike function some_argument alike with ⟨x, y, rfl, scalar, product⟩ | call
  · rw [product]
    have types : ValueType.widest [x.type, y.type] = .f32 := by
      rw [alike x (by simp), alike y (by simp), scalar]
      rfl
    have operation := isReread_operation .mul (reread x (by simp)) (reread y (by simp))
    rw [types] at operation
    apply operation
    cases known : x.literal? with
    | none => exact .inl rfl
    | some value =>
      cases known' : y.literal? with
      | none => exact .inr rfl
      | some value' => simp [known, known'] at unknown
  · rw [call] at same ⊢
    exact isReread_operand (.primary (.call derived (length.trans arity))) whole same

/-- Bounds in the wrong order: what stands for the call then is read again too. -/
theorem isReread_lowerMisordered? {function : Builtin} {type : ValueType}
    (reread : ∀ x ∈ xs, IsReread x) (alike : ∀ x ∈ xs, x.type = type)
    (unknown : xs.mapM literal? = none) (recast : lowerMisordered? function xs = some y) :
    IsReread y := by
  have scalar {x low : Typed} {value : F32} (member : x ∈ xs) (member' : low ∈ xs)
      (known : low.literal? = some value) : x.type = .f32 := by
    rw [alike x member, ← alike low member', type_of_literal? known]
  cases recast_of_lowerMisordered? recast with
  | @clamp x low high lowValue highValue known known' less =>
    rw [scalar (by simp) (by simp) known]
    exact isReread_literal highValue
  | @step low high x lowValue highValue known known' same =>
    have operand := reread x (by simp)
    have runtime := literal?_bounded known known' unknown
    have scalar := scalar (x := x) (by simp) (by simp) known
    obtain ⟨code, source⟩ := x
    dsimp only at scalar
    subst scalar
    have bounded : ∀ y ∈ [literal lowValue, ⟨code, .f32⟩], IsReread y := by
      simp [isReread_literal, operand]
    exact isReread_lowerPlainCall .step .f32 rfl bounded (by simp [literal]) (by simp [runtime]) rfl
  | @falling low high x lowValue highValue known known' less =>
    have operand := reread x (by simp)
    have runtime := literal?_bounded known known' unknown
    have scalar := scalar (x := x) (by simp) (by simp) known
    obtain ⟨code, source⟩ := x
    dsimp only at scalar
    subst scalar
    have bounded : ∀ y ∈ [literal highValue, literal lowValue, ⟨code, .f32⟩], IsReread y := by
      simp [isReread_literal, operand]
    have low_finite := F32.orZero_of_isFinite (isFinite_of_literal? known)
    have high_finite := F32.orZero_of_isFinite (isFinite_of_literal? known')
    have ordered : lowerMisordered? .smoothstep
        [literal highValue, literal lowValue, ⟨code, .f32⟩] = none := by
      simp [lowerMisordered?, low_finite, high_finite, Floating.not_lt_of_lt less,
        Floating.not_same_of_lt less]
    have rising := isReread_lowerPlainCall .smoothstep .f32 rfl bounded (by simp [literal])
      (by simp [runtime]) ordered
    exact isReread_operation .sub (isReread_literal .one) rising (.inr rfl)

theorem isReread_lowerCall (function : Builtin) {type : ValueType}
    (arity : xs.length = function.arity) (reread : ∀ x ∈ xs, IsReread x)
    (alike : ∀ x ∈ xs, x.type = type) : IsReread (lowerCall function xs) := by
  unfold lowerCall
  cases unknown : xs.mapM literal? with
  | some values => exact isReread_literal _
  | none =>
    cases recast : lowerMisordered? function xs with
    | none => exact isReread_lowerPlainCall function type arity reread alike unknown recast
    | some y => exact isReread_lowerMisordered? reread alike unknown recast

theorem isReread_lowerSwizzle (components : Swizzle) (reread : IsReread x)
    (selected : lowerSwizzle x components = .ok y) : IsReread y := by
  obtain ⟨levels, formula, signed, operand, z, lowered, same⟩ := reread
  obtain ⟨z', selected', same'⟩ := stands_lowerSwizzle Code.parallel_render components same selected
  have whole : lower .named (.swizzle formula components) = .ok z' :=
    except_bind_eq_ok.2 ⟨z, lowered, selected'⟩
  unfold lowerSwizzle at selected
  split at selected
  · cases selected
  · next vector =>
    cases selected
    have runtime : x.literal? = none := by
      cases known : x.literal? with
      | none => rfl
      | some value => exact absurd (type_of_literal? known) vector
    by_cases word : Code.isWord x.code.render = true
    · have lexemes : (x.code.select components.text).lexemes =
          x.code.lexemes ++ [.symbol .dot, .word components.text.toList] := by
        rw [Code.select, if_pos word]
        rfl
      have picked := (operand runtime).swizzle components
      rw [← lexemes] at picked
      exact isReread_operand picked whole same'
    · have lexemes : (x.code.select components.text).lexemes =
          (.symbol .opening :: (x.code.lexemes ++ [.symbol .closing])) ++
            [.symbol .dot, .word components.text.toList] := by
        rw [Code.select, if_neg word]
        rfl
      have paren : IsOperand (levels + 1)
          (.symbol .opening :: (x.code.lexemes ++ [.symbol .closing])) formula :=
        .primary (.paren (.sum (.product (.signed signed))))
      have picked := paren.swizzle components
      rw [← lexemes] at picked
      exact isReread_operand picked whole same'

theorem one_type {function : Builtin} {arguments : List Formula}
    (plain : uniform .named (.call function arguments) = true)
    (lowered : lowerAll .named arguments = .ok xs) : ∃ type, ∀ x ∈ xs, x.type = type := by
  rw [uniform, lowered, Bool.and_eq_true] at plain
  cases xs with
  | nil => exact ⟨.f32, nofun⟩
  | cons x xs =>
    refine ⟨x.type, fun y member => ?_⟩
    have alike := List.all_eq_true.1 (List.all_eq_true.1 plain.2 y member) x List.mem_cons_self
    exact beq_iff_eq.1 alike

mutual

/-- The code of a formula in which the arguments of each call have one type is read again. -/
theorem isReread_lower : (formula : Formula) → formula.Saturated →
    formula.uniform .named = true → ∀ {x}, lower .named formula = .ok x → IsReread x
  | .number value, _, _, _, lowered => by
    cases lowered
    exact isReread_literal value
  | .pi, _, _, _, lowered => by
    cases lowered
    exact isReread_literal .pi
  | .slot name, _, _, _, lowered => by
    cases lowered
    exact isReread_slot name
  | .negate operand, saturated, plain, _, lowered => by
    obtain ⟨x, inner, same⟩ := except_bind_eq_ok.1 lowered
    cases same
    exact isReread_lowerNegate (isReread_lower operand saturated plain inner)
  | .binary operator left right, ⟨saturated, saturated'⟩, plain, _, lowered => by
    rw [uniform, Bool.and_eq_true] at plain
    obtain ⟨x, first, rest⟩ := except_bind_eq_ok.1 lowered
    obtain ⟨y, second, same⟩ := except_bind_eq_ok.1 rest
    cases same
    exact isReread_lowerBinary operator (isReread_lower left saturated plain.1 first)
      (isReread_lower right saturated' plain.2 second)
  | .call function arguments, ⟨arity, saturated⟩, plain, _, lowered => by
    obtain ⟨xs, inner, same⟩ := except_bind_eq_ok.1 lowered
    obtain ⟨type, alike⟩ := one_type plain inner
    rw [uniform, Bool.and_eq_true] at plain
    obtain ⟨reread, length⟩ := isReread_lowerAll arguments saturated plain.1 inner
    cases same
    exact isReread_lowerCall function (length.trans arity) reread alike
  | .swizzle vector components, saturated, plain, _, lowered => by
    obtain ⟨x, inner, selected⟩ := except_bind_eq_ok.1 lowered
    exact isReread_lowerSwizzle components (isReread_lower vector saturated plain inner) selected

theorem isReread_lowerAll : (formulas : List Formula) → AllSaturated formulas →
    uniformAll .named formulas = true → ∀ {xs}, lowerAll .named formulas = .ok xs →
      (∀ x ∈ xs, IsReread x) ∧ xs.length = formulas.length
  | [], _, _, _, lowered => by
    cases lowered
    exact ⟨nofun, rfl⟩
  | formula :: rest, ⟨saturated, saturated'⟩, plain, _, lowered => by
    rw [uniformAll, Bool.and_eq_true] at plain
    obtain ⟨x, first, others⟩ := except_bind_eq_ok.1 lowered
    obtain ⟨xs, second, same⟩ := except_bind_eq_ok.1 others
    have reread := isReread_lower formula saturated plain.1 first
    obtain ⟨rereads, length⟩ := isReread_lowerAll rest saturated' plain.2 second
    cases same
    exact ⟨List.forall_mem_cons.2 ⟨reread, rereads⟩, congrArg Nat.succ length⟩

end

/-! ### Texts -/

theorem named_fits (slot : Slot) : (Environment.named.get slot).Fits := by
  cases slot <;> exact fits_name (by decide) _

/-- A text whose lexemes derive a formula is read, unless it is nested too deeply. -/
theorem parse_of_isFormula {text : String} {lexemes : List Lexeme}
    (lexed : Lexeme.all text.toList = .ok lexemes) (derived : IsFormula levels lexemes formula)
    (shallow : parse text ≠ .error .tooDeep) : parse text = .ok formula := by
  unfold parse at shallow ⊢
  rw [lexed] at shallow ⊢
  have read := (derived.mono (Nat.le_max_left levels maxLevels)).reads_all
  apply ofLexemes_eq_ok
  apply (within_shallower (Nat.le_max_right levels maxLevels)).reads read
  intro deep
  apply shallow
  cases lexemes with
  | nil =>
    obtain ⟨shorter, -⟩ := read
    cases shorter
  | cons first lexemes => simp [ofLexemes, deep, bind, Except.bind]

/-- The text of a formula's code is read as a formula whose code has that text and type, unless it is
nested too deeply. -/
theorem parse_lower_text {text : String} {formula : Formula} {x : Typed}
    (parsed : parse text = .ok formula) (plain : formula.uniform .named = true)
    (lowered : lower .named formula = .ok x) (shallow : parse x.text ≠ .error .tooDeep) :
    ∃ formula' y, parse x.text = .ok formula' ∧ lower .named formula' = .ok y ∧
      y.text = x.text ∧ y.type = x.type := by
  have saturated := parse_saturated parsed
  have fits := kept_fits.holds named_fits saturated lowered
  obtain ⟨levels, formula', signed, -, y, lowered', same⟩ :=
    isReread_lower formula saturated plain lowered
  have lexed := Lexeme.all_whole fits.1
  have whole : IsFormula (levels + 1) x.code.lexemes formula' := .sum (.product (.signed signed))
  exact ⟨formula', y, parse_of_isFormula lexed whole shallow, lowered', same.value.symm,
    same.type.symm⟩

/-- A negative literal, edges in the wrong order and a dot product of scalars. -/
def mixture : String := "-1.5 * a + smoothstep(1, 0.5, uv.x) - dot(b, 2)"

theorem mixture_reread : ∃ formula x formula' y, parse mixture = .ok formula ∧
    lower .named formula = .ok x ∧ parse x.text = .ok formula' ∧ lower .named formula' = .ok y ∧
      y.text = x.text ∧ y.type = x.type := by
  obtain ⟨formula, x, parsed, lowered⟩ : ∃ formula x, parse mixture = .ok formula ∧
      lower .named formula = .ok x := exists_lowered (by decide +kernel)
  have plain : (parse mixture).toOption.map (uniform .named) = some true := by decide +kernel
  have rereads : ((parse mixture).toOption.bind fun formula =>
      (lower .named formula).toOption).map (fun x => (parse x.text).toOption.isSome) = some true := by
    decide +kernel
  rw [parsed] at plain rereads
  change ((lower .named formula).toOption.map fun x => (parse x.text).toOption.isSome) = _ at rereads
  rw [lowered] at rereads
  have shallow : parse x.text ≠ .error .tooDeep := by
    intro deep
    change some (parse x.text).toOption.isSome = some true at rereads
    rw [deep] at rereads
    cases rereads
  obtain ⟨formula', y, read, lowered', text, type⟩ :=
    parse_lower_text parsed (Option.some.inj plain) lowered shallow
  exact ⟨formula, x, formula', y, parsed, lowered, read, lowered', text, type⟩

end Formula

end NodeShader
