import NodeShader.Formula.Lexeme
import NodeShader.Proofs.Floating.ReadBack

/-!
Numbers as formulas may spell them. Every such text denotes a number, and what is split from the
start of a text is the longest of them that the text starts with.
-/

namespace NodeShader

namespace Lexeme

/-- Nothing, or a letter `e` of either case and an integer. -/
inductive IsPower : List Char → Prop where
  | absent : IsPower []
  | present {letter : Char} {sign digits : List Char} (raised : letter = 'e' ∨ letter = 'E')
      (signed : sign = [] ∨ sign = ['+'] ∨ sign = ['-']) (some_digits : digits ≠ [])
      (all_digits : ∀ c ∈ digits, c.isDigit) : IsPower (letter :: (sign ++ digits))

/-- Digits, with a point in front of them, between them or behind them or without one, and a power
of ten. -/
inductive IsNumber : List Char → Prop where
  | whole {digits power : List Char} (some_digits : digits ≠ []) (all_digits : ∀ c ∈ digits, c.isDigit)
      (raised : IsPower power) : IsNumber (digits ++ power)
  | point {digits places power : List Char} (some_digits : digits ≠ [] ∨ places ≠ [])
      (all_digits : ∀ c ∈ digits, c.isDigit) (all_places : ∀ c ∈ places, c.isDigit)
      (raised : IsPower power) : IsNumber (digits ++ '.' :: (places ++ power))

variable {text rest number digits power : List Char}

/-! ### Numbers can be read -/

theorem IsPower.head (raised : IsPower power) : ∀ c ∈ power.head?, c = 'e' ∨ c = 'E' := by
  intro c first
  cases raised with
  | absent => cases first
  | present letter =>
    cases first
    exact letter

/-- The digits in front of a power end where it starts. -/
theorem IsPower.ends (raised : IsPower power) : Decimal.EndsDigits power := by
  intro c first
  rcases raised.head c first with rfl | rfl <;> rfl

theorem IsPower.no_point (raised : IsPower power) : power.head? ≠ some '.' := by
  intro point
  rcases raised.head '.' point with same | same <;> cases same

theorem isInteger_digits (some_digits : digits ≠ []) (all_digits : ∀ c ∈ digits, c.isDigit) :
    signedInteger?.isInteger digits = true := by
  rw [signedInteger?.isInteger, Bool.and_eq_true, List.all_eq_true]
  exact ⟨by simp [some_digits], all_digits⟩

theorem signedInteger?_signed {sign : List Char} (signed : sign = [] ∨ sign = ['+'] ∨ sign = ['-'])
    (some_digits : digits ≠ []) (all_digits : ∀ c ∈ digits, c.isDigit) :
    ∃ value, signedInteger? (sign ++ digits) = some value := by
  have integer := isInteger_digits some_digits all_digits
  rcases signed with rfl | rfl | rfl
  · rw [List.nil_append]
    unfold signedInteger?
    split
    · exact absurd (all_digits '-' List.mem_cons_self) (by decide)
    · exact absurd (all_digits '+' List.mem_cons_self) (by decide)
    · exact ⟨_, if_pos integer⟩
  · exact ⟨_, if_pos integer⟩
  · exact ⟨_, if_pos integer⟩

theorem IsPower.exponent? (raised : IsPower power) :
    ∃ value, Decimal.exponent? power = some value := by
  cases raised with
  | absent => exact ⟨0, rfl⟩
  | present letter signed some_digits all_digits =>
    rcases letter with rfl | rfl <;> exact signedInteger?_signed signed some_digits all_digits

theorem IsNumber.decimal (is_number : IsNumber number) :
    ∃ value, Decimal.read? number = some value := by
  cases is_number with
  | whole some_digits all_digits raised =>
    obtain ⟨exponent, same⟩ := raised.exponent?
    rw [Decimal.read?_whole some_digits all_digits raised.ends raised.no_point, same]
    exact ⟨_, rfl⟩
  | point some_digits all_digits all_places raised =>
    obtain ⟨exponent, same⟩ := raised.exponent?
    rw [Decimal.read?_point _ _ _ some_digits all_digits all_places raised.ends, same]
    exact ⟨_, rfl⟩

theorem startsNumber_dot (rest : List Char) :
    startsNumber ('.' :: rest) = rest.head?.any Char.isDigit := by
  cases rest <;> rfl

theorem startsNumber_of_ne_dot {c : Char} (other : c ≠ '.') (rest : List Char) :
    startsNumber (c :: rest) = c.isDigit := by
  unfold startsNumber
  split
  · next same => exact absurd (List.cons.inj same).1 other
  · next same => rw [(List.cons.inj same).1]
  · next same => cases same

theorem startsNumber_digit {c : Char} (digit : c.isDigit = true) (rest : List Char) :
    startsNumber (c :: rest) = true := by
  have other : c ≠ '.' := by
    intro same
    subst same
    cases digit
  rw [startsNumber_of_ne_dot other, digit]

/-- A number starts with a digit, or with a point and a digit. -/
theorem IsNumber.starts (is_number : IsNumber number) (rest : List Char) :
    startsNumber (number ++ rest) = true := by
  have first {digits : List Char} (some_digits : digits ≠ []) (all_digits : ∀ c ∈ digits, c.isDigit)
      (rest : List Char) : startsNumber (digits ++ rest) = true := by
    obtain ⟨c, others, rfl⟩ := List.exists_cons_of_ne_nil some_digits
    exact startsNumber_digit (all_digits c List.mem_cons_self) _
  cases is_number with
  | whole some_digits all_digits =>
    rw [List.append_assoc]
    exact first some_digits all_digits _
  | @point digits places power some_digits all_digits all_places =>
    rw [List.append_assoc]
    by_cases empty : digits = []
    · obtain ⟨c, others, rfl⟩ := List.exists_cons_of_ne_nil (some_digits.resolve_left (· empty))
      rw [empty]
      exact all_places c List.mem_cons_self
    · exact first empty all_digits _

theorem readMagnitude?_of_decimal {f : Format} {value : Decimal} (negative : Bool)
    (read : Decimal.read? text = some value) :
    ∃ value, (Floating.readMagnitude? negative text : Option (Floating f)) = some value := by
  unfold Floating.readMagnitude?
  split
  · exact ⟨_, rfl⟩
  · exact ⟨_, rfl⟩
  · exact ⟨_, rfl⟩
  · rw [read]
    exact ⟨_, rfl⟩

/-- A number denotes one. -/
theorem IsNumber.read? {f : Format} (is_number : IsNumber number) :
    ∃ value, (Floating.read? number : Option (Floating f)) = some value := by
  obtain ⟨decimal, read⟩ := is_number.decimal
  have starts := is_number.starts []
  rw [List.append_nil] at starts
  unfold Floating.read?
  split
  · cases starts
  · cases starts
  · exact readMagnitude?_of_decimal false read

/-! ### The number at the start of a text is one -/

theorem splitSign_signed (text : List Char) :
    (splitSign text).1 = [] ∨ (splitSign text).1 = ['+'] ∨ (splitSign text).1 = ['-'] := by
  unfold splitSign
  split <;> simp

theorem all_digits_takeWhile (text : List Char) : ∀ c ∈ text.takeWhile Char.isDigit, c.isDigit :=
  List.all_eq_true.1 List.all_takeWhile

theorem takeWhile_digits_ne_nil {c : Char} (first : text.head? = some c) (digit : c.isDigit = true) :
    text.takeWhile Char.isDigit ≠ [] := by
  obtain ⟨rest, rfl⟩ := List.head?_eq_some_iff.1 first
  simp [digit]

theorem isPower_splitExponent (text : List Char) : IsPower (splitExponent text).1 := by
  cases text with
  | nil => exact .absent
  | cons letter rest =>
    simp only [splitExponent]
    split
    · next raised =>
      split
      · next digit =>
        cases first : (splitSign rest).2.head? with
        | none => simp [first] at digit
        | some c =>
          rw [first] at digit
          exact .present raised (splitSign_signed rest) (takeWhile_digits_ne_nil first digit)
            (all_digits_takeWhile _)
      · exact .absent
    · exact .absent

/-- Where no digits come first, a number starts with a point. -/
theorem starts_point (starts : startsNumber text = true)
    (no_digits : text.takeWhile Char.isDigit = []) :
    ∃ rest, text = '.' :: rest ∧ rest.takeWhile Char.isDigit ≠ [] := by
  cases text with
  | nil => cases starts
  | cons c rest =>
    by_cases point : c = '.'
    · subst point
      rw [startsNumber_dot, Option.any_eq_true] at starts
      obtain ⟨digit, first, is_digit⟩ := starts
      exact ⟨rest, rfl, takeWhile_digits_ne_nil first is_digit⟩
    · rw [startsNumber_of_ne_dot point] at starts
      exact absurd no_digits (takeWhile_digits_ne_nil rfl starts)

theorem isNumber_splitNumber (starts : startsNumber text = true) :
    IsNumber (splitNumber text).1 := by
  have all_digits := all_digits_takeWhile text
  have whole := List.takeWhile_append_dropWhile (p := Char.isDigit) (l := text)
  simp only [splitNumber]
  unfold splitFraction
  split
  · next rest after =>
    -- Digits may be missing on one side of the point only.
    rw [List.append_assoc, List.cons_append]
    refine .point ?_ all_digits (all_digits_takeWhile rest) (isPower_splitExponent _)
    refine or_iff_not_imp_left.2 fun empty => ?_
    have no_digits := Decidable.not_not.1 empty
    obtain ⟨rest', same, some_places⟩ := starts_point starts no_digits
    rw [no_digits, after, same] at whole
    cases whole
    exact some_places
  · next after =>
    rw [List.append_nil]
    refine .whole (fun no_digits => ?_) all_digits (isPower_splitExponent _)
    obtain ⟨rest, same, -⟩ := starts_point starts no_digits
    rw [no_digits, List.nil_append] at whole
    exact after rest (whole.trans same)

/-! ### It is the longest one -/

theorem splitSign_append_digits {sign : List Char} (signed : sign = [] ∨ sign = ['+'] ∨ sign = ['-'])
    (some_digits : digits ≠ []) (all_digits : ∀ c ∈ digits, c.isDigit) (rest : List Char) :
    splitSign (sign ++ (digits ++ rest)) = (sign, digits ++ rest) := by
  obtain ⟨digit, others, rfl⟩ := List.exists_cons_of_ne_nil some_digits
  have first : digit.isDigit = true := all_digits digit List.mem_cons_self
  rcases signed with rfl | rfl | rfl
  · unfold splitSign
    split
    · next same =>
      cases same
      cases first
    · next same =>
      cases same
      cases first
    · rfl
  · rfl
  · rfl

theorem splitExponent_longest (raised : IsPower power) (rest : List Char) :
    power.length ≤ (splitExponent (power ++ rest)).1.length := by
  cases raised with
  | absent => exact Nat.zero_le _
  | @present letter sign digits letter_e signed some_digits all_digits =>
    have sign_split := splitSign_append_digits signed some_digits all_digits rest
    obtain ⟨digit, others, rfl⟩ := List.exists_cons_of_ne_nil some_digits
    have first : digit.isDigit = true := all_digits digit List.mem_cons_self
    have taken : (digit :: others ++ rest).takeWhile Char.isDigit =
        digit :: others ++ rest.takeWhile Char.isDigit := List.takeWhile_append_of_pos all_digits
    simp only [List.cons_append, List.append_assoc] at sign_split taken ⊢
    simp [splitExponent, sign_split, letter_e, first, taken]

theorem length_splitNumber (text : List Char) : (splitNumber text).1.length =
    (text.takeWhile Char.isDigit).length + (splitFraction (text.dropWhile Char.isDigit)).1.length +
      (splitExponent (splitFraction (text.dropWhile Char.isDigit)).2).1.length := by
  simp only [splitNumber, List.length_append]

theorem le_takeWhile_digits (all_digits : ∀ c ∈ digits, c.isDigit) (rest : List Char) :
    digits.length ≤ ((digits ++ rest).takeWhile Char.isDigit).length := by
  rw [List.takeWhile_append_of_pos all_digits, List.length_append]
  exact Nat.le_add_right _ _

/-- A power is missing, or ends the digits in front of it. -/
theorem IsPower.span (raised : IsPower power) (all_digits : ∀ c ∈ digits, c.isDigit)
    (rest : List Char) :
    power = [] ∨ (digits ++ (power ++ rest)).takeWhile Char.isDigit = digits ∧
      (digits ++ (power ++ rest)).dropWhile Char.isDigit = power ++ rest := by
  cases raised with
  | absent => exact .inl rfl
  | present letter_e =>
    refine .inr (span_stop all_digits fun c first => ?_)
    cases first
    rcases letter_e with rfl | rfl <;> rfl

theorem splitFraction_power (raised : IsPower power) (present : power ≠ []) (rest : List Char) :
    splitFraction (power ++ rest) = ([], power ++ rest) := by
  cases raised with
  | absent => exact absurd rfl present
  | present letter_e => rcases letter_e with rfl | rfl <;> rfl

/-- No number at the start of a text is longer than the one that is split from it. -/
theorem splitNumber_longest (is_number : IsNumber number) (rest : List Char) :
    number.length ≤ (splitNumber (number ++ rest)).1.length := by
  rw [length_splitNumber]
  -- Without a power, digits of the rest may still belong to the number.
  cases is_number with
  | @whole digits power some_digits all_digits raised =>
    rw [List.append_assoc, List.length_append]
    by_cases absent : power = []
    · have taken := le_takeWhile_digits all_digits (power ++ rest)
      have no_power := congrArg List.length absent
      rw [List.length_nil] at no_power
      omega
    · obtain ⟨taken, dropped⟩ := (raised.span all_digits rest).resolve_left absent
      rw [taken, dropped, splitFraction_power raised absent]
      exact Nat.add_le_add_left (splitExponent_longest raised rest) digits.length
  | @point digits places power some_digits all_digits all_places raised =>
    have point : ∀ c ∈ ('.' :: (places ++ (power ++ rest))).head?, c.isDigit = false := by
      intro c first
      cases first
      rfl
    obtain ⟨taken, dropped⟩ := span_stop all_digits point
    rw [List.append_assoc, List.cons_append, List.append_assoc, taken, dropped, splitFraction,
      List.length_append, List.length_cons, List.length_append, List.length_cons]
    by_cases absent : power = []
    · have taken' := le_takeWhile_digits all_places (power ++ rest)
      have no_power := congrArg List.length absent
      rw [List.length_nil] at no_power
      omega
    · obtain ⟨taken', dropped'⟩ := (raised.span all_places rest).resolve_left absent
      have longest := splitExponent_longest raised rest
      rw [taken', dropped']
      dsimp only
      omega

end Lexeme

end NodeShader
