import NodeShader.Proofs.Floating.ReadBack
import NodeShader.Proofs.Formula.Lexing

/-!
Bit patterns and literals. A pattern stands for a finite number exactly if the bits of its exponent
are not all ones, such a number has no other pattern, and so its literal leads back to the pattern.
-/

namespace NodeShader

namespace Format

variable (f : Format)

/-- The bits between the sign and the fraction of a pattern. -/
def exponentField (bits : Nat) : Nat := bits / f.binade % 2 ^ f.exponentBits

theorem signBit_eq : f.signBit = f.binade * 2 ^ f.exponentBits :=
  Nat.pow_add 2 f.fractionBits f.exponentBits

/-- The ranks of finite magnitudes are the patterns with a zero among the bits of the exponent. -/
theorem mod_signBit_lt_ranks {bits : Nat} :
    bits % f.signBit < f.ranks ↔ f.exponentField bits ≠ 2 ^ f.exponentBits - 1 := by
  have some_exponent : 0 < 2 ^ f.exponentBits := Nat.two_pow_pos _
  have field_lt : f.exponentField bits < 2 ^ f.exponentBits := Nat.mod_lt _ some_exponent
  calc
    _ ↔ bits % (f.binade * 2 ^ f.exponentBits) / f.binade < 2 ^ f.exponentBits - 1 := by
      rw [signBit_eq]
      exact (Nat.div_lt_iff_lt_mul (Nat.two_pow_pos f.fractionBits)).symm
    _ ↔ f.exponentField bits < 2 ^ f.exponentBits - 1 := by
      rw [Nat.mod_mul_right_div_self, exponentField]
    _ ↔ _ := by omega

end Format

namespace Floating

variable {f : Format} {bits : Nat}

theorem ofBits_finite (field : f.exponentField bits ≠ 2 ^ f.exponentBits - 1) :
    (ofBits bits : Floating f) =
      .finite (bits.testBit f.rankBits) ⟨bits % f.signBit, f.mod_signBit_lt_ranks.2 field⟩ := by
  have below := f.mod_signBit_lt_ranks.2 field
  simp only [ofBits, ofRank, if_pos (Nat.le_of_lt below), dif_pos below]

theorem isFinite_ofBits : (ofBits bits : Floating f).isFinite = true ↔
    f.exponentField bits ≠ 2 ^ f.exponentBits - 1 := by
  constructor
  · intro finite
    refine f.mod_signBit_lt_ranks.1 (Decidable.byContradiction fun above => ?_)
    simp only [ofBits, ofRank, dif_neg above] at finite
    split at finite <;> cases finite
  · intro field
    rw [ofBits_finite field]
    rfl

/-- A pattern of the format's width is its sign before its rank. -/
theorem sign_rank (narrow : bits < 2 * f.signBit) :
    (bits.testBit f.rankBits).toNat * f.signBit + bits % f.signBit = bits := by
  have sign : (bits.testBit f.rankBits).toNat = bits / f.signBit := by
    have one_bit : bits / f.signBit < 2 := Nat.div_lt_of_lt_mul (by rwa [Nat.mul_comm])
    rw [Nat.toNat_testBit]
    exact Nat.mod_eq_of_lt one_bit
  rw [sign]
  exact Nat.div_add_mod' bits f.signBit

/-- A finite number has no pattern but the one it was read from. -/
theorem bits?_ofBits (narrow : bits < 2 * f.signBit)
    (field : f.exponentField bits ≠ 2 ^ f.exponentBits - 1) :
    (ofBits bits : Floating f).bits? = some bits := by
  rw [ofBits_finite field]
  exact congrArg some (sign_rank narrow)

end Floating

/-! ### Numerals are neither integers nor words -/

theorem FloatNumeral.marked {digits : List Char} (numeral : FloatNumeral digits) :
    ∃ c ∈ digits, c = '.' ∨ c = 'e' := by
  cases numeral with
  | point => exact ⟨'.', by simp, .inl rfl⟩
  | exponent _ exponent _ _ raised =>
    obtain ⟨sign, digits, rfl, -⟩ := raised
    exact ⟨'e', by simp, .inr rfl⟩
  | both => exact ⟨'.', by simp, .inl rfl⟩

theorem signedInteger?.isInteger_eq_false {digits : List Char} {c : Char} (member : c ∈ digits)
    (no_digit : c.isDigit = false) : signedInteger?.isInteger digits = false := by
  rw [isInteger, Bool.and_eq_false_iff]
  exact .inr (List.all_eq_false.2 ⟨c, member, by simp [no_digit]⟩)

/-- What has a point or an exponent is no integer. -/
theorem signedInteger?_marked {text : List Char} {c : Char} (member : c ∈ text)
    (mark : c = '.' ∨ c = 'e') : signedInteger? text = none := by
  have no_digit : c.isDigit = false := by rcases mark with rfl | rfl <;> decide
  have behind {sign : Char} {digits : List Char} (no_mark : sign ≠ '.' ∧ sign ≠ 'e')
      (member : c ∈ sign :: digits) : c ∈ digits := by
    rcases List.mem_cons.1 member with rfl | member
    · exact absurd mark (not_or.2 no_mark)
    · exact member
  unfold signedInteger?
  split
  · rw [signedInteger?.isInteger_eq_false (behind (by decide) member) no_digit]
    rfl
  · rw [signedInteger?.isInteger_eq_false (behind (by decide) member) no_digit]
    rfl
  · rw [signedInteger?.isInteger_eq_false member no_digit]
    rfl

/-- What starts with a digit or with a minus is no word. -/
theorem Lexeme.isName_numeral {text : String} {digits : List Char} (numeral : FloatNumeral digits)
    (same : text.toList = digits ∨ text.toList = '-' :: digits) : isName text = false := by
  rw [Bool.eq_false_iff]
  intro name
  obtain ⟨first, others, text_eq, starts, -⟩ := isName_iff.1 name
  rcases same with same | same
  · obtain ⟨c, rest, rfl, digit⟩ := numeral.head
    cases text_eq.symm.trans same
    exact absurd digit (by simp [not_isDigit_of_startsWord starts])
  · cases text_eq.symm.trans same
    exact absurd starts (by decide)

/-! ### Literals -/

namespace F32

/-- The pattern that a pattern's literal denotes: what is not finite is written as zero. -/
def literalBits (bits : Nat) : Nat :=
  if Format.binary32.exponentField bits = 255 then 0 else bits

theorem bits?_orZero {bits : Nat} (narrow : bits < 2 ^ 32) :
    (orZero (.ofBits bits)).bits? = some (literalBits bits) := by
  unfold literalBits orZero
  split
  · next finite =>
    have field : Format.binary32.exponentField bits ≠ 255 := Floating.isFinite_ofBits.1 finite
    rw [if_neg field]
    exact Floating.bits?_ofBits narrow field
  · next infinite =>
    have field : Format.binary32.exponentField bits = 255 :=
      Decidable.not_not.1 (mt Floating.isFinite_ofBits.2 infinite)
    rw [if_pos field]
    rfl

/-- The literal of any pattern is a float literal, with a minus or without, and no integer and no
word. It is read back, whether it is still known as a literal or only as a text, as exactly that
pattern, or as positive zero if the pattern stands for no finite number. -/
theorem literalText_pattern (pattern : BitVec 32) :
    let x : F32 := .ofBits pattern.toNat
    (∃ value, Typed.literal? ⟨.name x.literalText, .f32⟩ = some value ∧
      (Typed.literal x).literal? = some value ∧ (Typed.literal x).text = x.literalText ∧
      value.bits? = some (literalBits pattern.toNat)) ∧
    (∃ numeral, FloatNumeral numeral ∧
      (x.literalText.toList = numeral ∨ x.literalText.toList = '-' :: numeral)) ∧
    signedInteger? x.literalText.toList = none ∧ Lexeme.isName x.literalText = false := by
  intro x
  have finite := isFinite_orZero x
  obtain ⟨numeral, is_numeral, text⟩ := Floating.fractional_numeral finite
  refine ⟨⟨x.orZero, ?_, rfl, rfl, bits?_orZero pattern.isLt⟩, ⟨numeral, is_numeral, text⟩, ?_, ?_⟩
  · have read : Floating.read? x.literalText.toList = some x.orZero :=
      Floating.read?_fractional finite
    simp [Typed.literal?, read, finite]
  · obtain ⟨c, member, mark⟩ := is_numeral.marked
    refine signedInteger?_marked (c := c) ?_ mark
    rcases text with text | text
    · exact text ▸ member
    · exact text ▸ List.mem_cons_of_mem _ member
  · exact Lexeme.isName_numeral is_numeral text

-- The least number and the negative number that is furthest from zero.
example : literalText (.ofBits 1) = "1e-45" ∧ literalText (.ofBits 0xff7fffff) = "-3.4028235e38" := by
  decide +kernel

end F32

end NodeShader
