import NodeShader.Formula.Lexeme
import NodeShader.Proofs.Formula.Numbers

/-!
What lexing does with the start of a text: one lemma for each kind of lexeme.
-/

namespace NodeShader

namespace Lexeme

theorem isBlank_of_isDigit {c : Char} (digit : c.isDigit = true) : isBlank c = false := by
  simp only [Char.isDigit, Bool.and_eq_true, decide_eq_true_eq, UInt32.le_iff_toNat_le] at digit
  have low : 48 ≤ c.toNat := digit.1
  have high : c.toNat ≤ 57 := digit.2
  simp only [isBlank, Bool.or_eq_false_iff, Bool.and_eq_false_iff, decide_eq_false_iff_not,
    beq_eq_false_iff_ne]
  omega

theorem range_of_startsWord {c : Char} (starts : startsWord c = true) :
    65 ≤ c.toNat ∧ c.toNat ≤ 122 := by
  change ((c.isUpper || c.isLower) || c == '_') = true at starts
  rw [Bool.or_eq_true, Bool.or_eq_true] at starts
  rcases starts with (upper | lower) | score
  · have bounds : 65 ≤ c.toNat ∧ c.toNat ≤ 90 := of_decide_eq_true upper
    omega
  · have bounds : 97 ≤ c.toNat ∧ c.toNat ≤ 122 := by
      have both : decide (97 ≤ c.toNat) && decide (c.toNat ≤ 122) := lower
      simpa using both
    omega
  · rw [beq_iff_eq.1 score]
    decide

theorem isBlank_of_startsWord {c : Char} (starts : startsWord c = true) : isBlank c = false := by
  have range := range_of_startsWord starts
  simp only [isBlank, Bool.or_eq_false_iff, Bool.and_eq_false_iff, decide_eq_false_iff_not,
    beq_eq_false_iff_ne]
  omega

theorem not_isDigit_of_startsWord {c : Char} (starts : startsWord c = true) :
    c.isDigit = false := by
  have range := range_of_startsWord starts
  rw [Char.isDigit, Bool.and_eq_false_iff]
  refine .inr (decide_eq_false fun high => ?_)
  have high : c.toNat ≤ 57 := high
  omega

theorem all_blank {c : Char} (blank : isBlank c = true) (rest : List Char) :
    all (c :: rest) = all rest := by
  rw [all, if_pos blank]

theorem all_number {c : Char} {rest : List Char} (visible : isBlank c = false)
    (starts : startsNumber (c :: rest) = true) :
    all (c :: rest) = (all (splitNumber (c :: rest)).2).map
      (.number (splitNumber (c :: rest)).1 :: ·) := by
  obtain ⟨value, read⟩ := (isNumber_splitNumber starts).read? (f := .binary32)
  have readable : ¬ (Floating.read? (splitNumber (c :: rest)).1 : Option F32).isNone := by
    simp [read]
  rw [all, if_neg (by simp [visible]), dif_pos starts]
  dsimp only
  rw [if_neg readable]
  cases all (splitNumber (c :: rest)).2 <;> rfl

theorem all_word {c : Char} {rest : List Char} (starts : startsWord c = true) :
    all (c :: rest) = (all ((c :: rest).dropWhile Code.isWordChar)).map
      (.word ((c :: rest).takeWhile Code.isWordChar) :: ·) := by
  have other : c ≠ '.' := by
    intro same
    subst same
    cases starts
  have number : startsNumber (c :: rest) = false := by
    rw [startsNumber_of_ne_dot other, not_isDigit_of_startsWord starts]
  rw [all, if_neg (by simp [isBlank_of_startsWord starts]), dif_neg (by simp [number]),
    dif_pos starts]
  cases all ((c :: rest).dropWhile Code.isWordChar) <;> rfl

theorem all_symbol (mark : Symbol) {rest : List Char}
    (single : mark = .dot → ∀ c ∈ rest.head?, c.isDigit = false) :
    all (mark.char :: rest) = (all rest).map (.symbol mark :: ·) := by
  have number : startsNumber (mark.char :: rest) = false := by
    by_cases dot : mark = .dot
    · subst dot
      rw [Symbol.char, startsNumber_dot, Option.any_eq_false]
      exact fun c first => by simp [single rfl c first]
    · have other : mark.char ≠ '.' := by
        intro same
        cases mark <;> cases same
        exact dot rfl
      rw [startsNumber_of_ne_dot other]
      cases mark <;> rfl
  have visible : isBlank mark.char = false := by cases mark <;> decide
  have word : startsWord mark.char = false := by cases mark <;> decide
  have symbol : Symbol.ofChar? mark.char = some mark := by cases mark <;> rfl
  rw [all, if_neg (by simp [visible]), dif_neg (by simp [number]), dif_neg (by simp [word]), symbol]
  cases all rest <;> rfl

/-- What may follow a numeral: nothing that would go on with it. -/
def EndsNumeral (rest : List Char) : Prop := ∀ c ∈ rest.head?, Code.isWordChar c = false ∧ c ≠ '.'

theorem isWordChar_of_isDigit {c : Char} (digit : c.isDigit = true) : Code.isWordChar c = true := by
  simp [Code.isWordChar, Char.isAlphanum, digit]

theorem EndsNumeral.not_digit {rest : List Char} (ends : EndsNumeral rest) :
    ∀ c ∈ rest.head?, c.isDigit = false := by
  intro c first
  rw [Bool.eq_false_iff]
  intro digit
  have := (ends c first).1
  rw [isWordChar_of_isDigit digit] at this
  cases this

theorem splitExponent_ends {rest : List Char} (ends : EndsNumeral rest) :
    splitExponent rest = ([], rest) := by
  cases rest with
  | nil => rfl
  | cons letter rest =>
    have word := (ends letter (by simp)).1
    rw [splitExponent, if_neg]
    intro given
    rcases given with rfl | rfl <;> exact absurd word (by decide)

theorem splitExponent_exponent {exponent rest : List Char} (raised : IsExponent exponent)
    (ends : EndsNumeral rest) : splitExponent (exponent ++ rest) = (exponent, rest) := by
  rcases raised with ⟨sign, digits, rfl, signed, some_digits, all_digits⟩
  rcases span_stop all_digits ends.not_digit with ⟨taken, dropped⟩
  rcases List.exists_cons_of_ne_nil some_digits with ⟨digit, others, rfl⟩
  have first : digit.isDigit = true := all_digits digit (by simp)
  have sign_split : splitSign (sign ++ (digit :: others ++ rest)) =
      (sign, digit :: others ++ rest) := by
    rcases signed with rfl | rfl
    · unfold splitSign
      split
      · next same =>
        cases same
        cases first
      · next same =>
        cases same
        cases first
      · rfl
    · rfl
  simp only [List.cons_append, List.append_assoc] at sign_split taken dropped ⊢
  simp [splitExponent, sign_split, first, taken, dropped]

theorem IsExponent.not_digit {exponent : List Char} (rest : List Char) (raised : IsExponent exponent) :
    ∀ c ∈ (exponent ++ rest).head?, c.isDigit = false := by
  rcases raised with ⟨sign, digits, rfl, -⟩
  intro c given
  cases given
  rfl

theorem splitFraction_exponent {exponent rest : List Char} (raised : IsExponent exponent) :
    splitFraction (exponent ++ rest) = ([], exponent ++ rest) := by
  rcases raised with ⟨sign, digits, rfl, -⟩
  rfl

/-- A numeral is taken up whole. -/
theorem splitNumber_numeral {digits rest : List Char} (numeral : FloatNumeral digits)
    (ends : EndsNumeral rest) : splitNumber (digits ++ rest) = (digits, rest) := by
  have dot : ∀ tail : List Char, ∀ c ∈ ('.' :: tail).head?, c.isDigit = false := by
    intro tail c given
    cases given
    rfl
  cases numeral with
  | point whole places some_whole whole_digits places_digits =>
    rcases span_stop whole_digits (dot (places ++ rest)) with ⟨taken, dropped⟩
    rcases span_stop places_digits ends.not_digit with ⟨taken', dropped'⟩
    simp only [List.append_assoc, List.cons_append] at taken dropped ⊢
    simp [splitNumber, taken, dropped, splitFraction, taken', dropped', splitExponent_ends ends]
  | exponent whole exponent some_whole whole_digits raised =>
    rcases span_stop whole_digits (IsExponent.not_digit rest raised) with ⟨taken, dropped⟩
    rw [List.append_assoc]
    simp [splitNumber, taken, dropped, splitFraction_exponent raised,
      splitExponent_exponent raised ends]
  | both whole places exponent some_whole whole_digits places_digits raised =>
    rcases span_stop whole_digits (dot (places ++ exponent ++ rest)) with ⟨taken, dropped⟩
    rcases span_stop places_digits (IsExponent.not_digit rest raised) with ⟨taken', dropped'⟩
    simp only [List.append_assoc, List.cons_append] at taken dropped ⊢
    simp [splitNumber, taken, dropped, splitFraction, taken', dropped',
      splitExponent_exponent raised ends]

theorem all_numeral {digits rest : List Char} (numeral : FloatNumeral digits)
    (ends : EndsNumeral rest) :
    all (digits ++ rest) = (all rest).map (.number digits :: ·) := by
  have split := splitNumber_numeral numeral ends
  rcases numeral.head with ⟨c, others, rfl, digit⟩
  have other : c ≠ '.' := by
    intro same
    subst same
    cases digit
  have starts (tail : List Char) : startsNumber (c :: tail) = true := by
    rw [startsNumber_of_ne_dot other, digit]
  rw [List.cons_append] at split ⊢
  rw [all_number (isBlank_of_isDigit digit) (starts _), split]

/-- Whether a text is a word that starts with a letter or an underscore. -/
def isName (text : String) : Bool :=
  match text.toList with
  | [] => false
  | c :: others => startsWord c && others.all Code.isWordChar

theorem isName_iff {text : String} : isName text = true ↔
    ∃ c others, text.toList = c :: others ∧ startsWord c = true ∧
      ∀ other ∈ c :: others, Code.isWordChar other = true := by
  unfold isName
  cases text.toList with
  | nil => simp
  | cons c others =>
    simp only [Bool.and_eq_true, List.all_eq_true]
    constructor
    · intro given
      rcases given with ⟨starts, word⟩
      refine ⟨c, others, rfl, starts, fun other member => ?_⟩
      rcases List.mem_cons.1 member with rfl | member
      · exact startsWord_isWordChar starts
      · exact word other member
    · intro given
      rcases given with ⟨_, _, same, starts, word⟩
      cases same
      exact ⟨starts, fun other member => word other (List.mem_cons_of_mem _ member)⟩

theorem all_name {text : String} {rest : List Char} (name : isName text = true)
    (ends : ∀ c ∈ rest.head?, Code.isWordChar c = false) :
    all (text.toList ++ rest) = (all rest).map (.word text.toList :: ·) := by
  rcases isName_iff.1 name with ⟨c, others, same, starts, inside⟩
  rcases span_stop inside ends with ⟨taken, dropped⟩
  calc
    _ = all (c :: (others ++ rest)) := by rw [same, List.cons_append]
    _ = (all ((c :: others ++ rest).dropWhile Code.isWordChar)).map
        (.word ((c :: others ++ rest).takeWhile Code.isWordChar) :: ·) := all_word starts
    _ = _ := by rw [taken, dropped, same]

end Lexeme

end NodeShader
