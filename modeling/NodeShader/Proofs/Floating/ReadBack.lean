import NodeShader.Floating.Arithmetic
import NodeShader.Proofs.Floating.Magnitude
import NodeShader.Proofs.Floating.Numeral

/-!
Reading back what was written: the text of a finite number denotes that number, sign of zero
included.
-/

namespace NodeShader

/-! ### Digits and integers -/

theorem digitsValue_eq (digits : List Char) : digitsValue digits = Nat.ofDigitChars 10 digits 0 := rfl

theorem digitsValue_toDigits (n : Nat) : digitsValue (Nat.toDigits 10 n) = n :=
  Nat.ofDigitChars_toDigits (by decide) (by decide)

theorem digitsValue_zeros (zeros : Nat) (digits : List Char) :
    digitsValue (List.replicate zeros '0' ++ digits) = digitsValue digits := by
  rw [digitsValue_eq, Nat.ofDigitChars_append, Nat.ofDigitChars_replicate_zero, Nat.mul_zero]
  rfl

theorem digitsValue_append_zeros (digits : List Char) (zeros : Nat) :
    digitsValue (digits ++ List.replicate zeros '0') = digitsValue digits * 10 ^ zeros := by
  rw [digitsValue_eq, Nat.ofDigitChars_append, Nat.ofDigitChars_replicate_zero, Nat.mul_comm]
  rfl

theorem isInteger_toDigits (n : Nat) : signedInteger?.isInteger (Nat.toDigits 10 n) = true := by
  rw [signedInteger?.isInteger, Bool.and_eq_true, List.all_eq_true]
  refine ⟨?_, toDigits_digits n⟩
  simp [Nat.toDigits_ne_nil]

theorem signedInteger?_toDigits (n : Nat) : signedInteger? (Nat.toDigits 10 n) = some (n : Int) := by
  have digits := toDigits_digits n
  unfold signedInteger?
  split
  · next same =>
    rw [same] at digits
    exact absurd (digits '-' List.mem_cons_self) (by decide)
  · next same =>
    rw [same] at digits
    exact absurd (digits '+' List.mem_cons_self) (by decide)
  · rw [if_pos (isInteger_toDigits n), digitsValue_toDigits]

/-- A whole number is read from its notation. -/
theorem signedInteger?_toString (n : Int) : signedInteger? (toString n).toList = some n := by
  cases n with
  | ofNat n =>
    have text : (toString (Int.ofNat n)).toList = Nat.toDigits 10 n := Nat.toList_repr
    rw [text, signedInteger?_toDigits]
    rfl
  | negSucc n =>
    have text : (toString (Int.negSucc n)).toList = '-' :: Nat.toDigits 10 (n + 1) := by
      change ("-" ++ Nat.repr (n + 1)).toList = _
      rw [String.toList_append, Nat.toList_repr]
      rfl
    rw [text, signedInteger?, if_pos (isInteger_toDigits _), digitsValue_toDigits]
    rfl

namespace Decimal

/-! ### Numerals -/

/-- The end of a numeral: nothing that goes on with its digits. -/
def EndsDigits (rest : List Char) : Prop := ∀ c ∈ rest.head?, c.isDigit = false

theorem read?_whole {whole rest : List Char} (some_whole : whole ≠ [])
    (digits : ∀ c ∈ whole, c.isDigit) (ends : EndsDigits rest) (no_point : rest.head? ≠ some '.') :
    read? (whole ++ rest) = (exponent? rest).map fun exponent =>
      ⟨digitsValue whole, exponent⟩ := by
  obtain ⟨taken, dropped⟩ := span_stop digits ends
  unfold read?
  rw [taken, dropped]
  cases rest with
  | nil => simp [some_whole]
  | cons c rest =>
    have other : c ≠ '.' := fun same => no_point (congrArg some same)
    split
    simp_all

theorem read?_point (whole places rest : List Char) (some_digits : whole ≠ [] ∨ places ≠ [])
    (digits : ∀ c ∈ whole, c.isDigit) (digits' : ∀ c ∈ places, c.isDigit) (ends : EndsDigits rest) :
    read? (whole ++ '.' :: (places ++ rest)) = (exponent? rest).map fun exponent =>
      ⟨digitsValue (whole ++ places), exponent - places.length⟩ := by
  have point : EndsDigits ('.' :: (places ++ rest)) := by
    intro c first
    cases first
    rfl
  obtain ⟨taken, dropped⟩ := span_stop digits point
  obtain ⟨taken', dropped'⟩ := span_stop digits' ends
  unfold read?
  rcases some_digits with some_whole | some_places
  · simp [taken, dropped, taken', dropped', some_whole]
  · simp [taken, dropped, taken', dropped', some_places]

/-- What starts neither with a digit nor with a point is no numeral. -/
theorem read?_other {c : Char} (no_digit : c.isDigit = false) (no_point : c ≠ '.')
    (rest : List Char) : read? (c :: rest) = none := by
  unfold read?
  simp only [List.takeWhile_cons, List.dropWhile_cons, no_digit, Bool.false_eq_true, if_false]
  split
  · next same => exact absurd (List.cons.inj same).1 no_point
  · rfl

variable {d : Decimal}

theorem digits_ne_nil (d : Decimal) : Nat.toDigits 10 d.digits ≠ [] := Nat.toDigits_ne_nil

/-- Positional notation of a fractional number. -/
theorem read?_positional (fraction : d.exponent < 0) : read? d.positional.toList = some d := by
  have digits := toDigits_digits d.digits
  have value := digitsValue_toDigits d.digits
  unfold positional
  split
  · next before point =>
    have whole : (Nat.toDigits 10 d.digits).length + d.exponent = before := point
    rw [if_neg (by omega), String.toList_ofList]
    have read := read?_point
      ((Nat.toDigits 10 d.digits).take before ++ if before = 0 then ['0'] else [])
      ((Nat.toDigits 10 d.digits).drop before) [] (.inl ?_) ?_ (fun c member => digits c (List.mem_of_mem_drop member)) nofun
    · rw [List.append_nil] at read
      rw [read]
      change some (Decimal.mk _ _) = _
      congr
      · split
        · next none_before =>
          rw [none_before]
          exact (digitsValue_zeros 1 _).trans value
        · rw [List.append_nil, List.take_append_drop, value]
      · rw [List.length_drop]
        omega
    · cases before with
      | zero => simp
      | succ before => simp [Nat.toDigits_ne_nil]
    · intro c member
      rcases List.mem_append.1 member with member | member
      · exact digits c (List.mem_of_mem_take member)
      · split at member
        · rw [List.mem_singleton.1 member]
          rfl
        · cases member
  · next zeros point =>
    have whole : (Nat.toDigits 10 d.digits).length + d.exponent = Int.negSucc zeros := point
    rw [String.toList_ofList]
    have read := read?_point ['0'] (List.replicate (zeros + 1) '0' ++ Nat.toDigits 10 d.digits) []
      (by simp) (by simp) ?_ nofun
    · rw [List.append_nil] at read
      refine read.trans ?_
      change some (Decimal.mk _ _) = _
      congr
      · exact (digitsValue_zeros (zeros + 2) _).trans value
      · rw [List.length_append, List.length_replicate]
        omega
    · intro c member
      rcases List.mem_append.1 member with member | member
      · rw [List.eq_of_mem_replicate member]
        rfl
      · exact digits c member

/-- Positional notation of a whole number with a place after the point. -/
theorem read?_positional_whole (whole : 0 ≤ d.exponent) :
    ∃ d', read? (d.positional ++ ".0").toList = some d' ∧ d'.magnitude = d.magnitude := by
  obtain ⟨before, point, long⟩ := point_ofNat_of_exponent whole
  obtain ⟨raised, exponent⟩ := Int.eq_ofNat_of_zero_le whole
  have zeros : before - (Nat.toDigits 10 d.digits).length = raised := by
    have same : (Nat.toDigits 10 d.digits).length + d.exponent = before := point
    omega
  obtain ⟨some_digit, digits⟩ := positional_whole whole
  have text : d.positional.toList = Nat.toDigits 10 d.digits ++ List.replicate raised '0' := by
    rw [positional, point]
    simp only [if_pos long, zeros, String.toList_ofList]
  have read := read?_point _ ['0'] [] (.inl some_digit) digits (by simp) (by simp [EndsDigits])
  refine ⟨⟨digitsValue (d.positional.toList ++ ['0']), -1⟩, ?_, ?_⟩
  · rw [String.toList_append]
    exact read
  · rw [text]
    have value : digitsValue (Nat.toDigits 10 d.digits ++ List.replicate raised '0' ++ ['0']) =
        d.digits * 10 ^ raised * 10 := by
      have more := digitsValue_append_zeros (Nat.toDigits 10 d.digits) (raised + 1)
      rw [digitsValue_toDigits, List.replicate_succ', ← List.append_assoc] at more
      rw [more, Nat.pow_succ, Nat.mul_assoc]
    rw [value, magnitude_shift]
    have same : d = ⟨d.digits, .ofNat raised⟩ := by
      rw [Int.ofNat_eq_natCast, ← exponent]
    rw [same]
    exact (magnitude_ofNat _ 0).trans (by rw [magnitude_ofNat, Nat.pow_zero, Nat.mul_one])

/-- Scientific notation. -/
theorem read?_scientific (d : Decimal) : read? d.scientific.toList = some d := by
  have digits := toDigits_digits d.digits
  have value := digitsValue_toDigits d.digits
  have raised : exponent? ('e' :: (toString (d.point - 1)).toList) = some (d.point - 1) :=
    signedInteger?_toString _
  have ends : EndsDigits ('e' :: (toString (d.point - 1)).toList) := by
    intro c first
    cases first
    rfl
  have text : ("e" ++ toString (d.point - 1)).toList = 'e' :: (toString (d.point - 1)).toList := by
    rw [String.toList_append]
    rfl
  unfold scientific
  split
  · next first second rest same =>
    rw [String.toList_append, String.toList_ofList, text]
    have read := read?_point [first] (second :: rest) _ (by simp)
      (by rw [same] at digits; simpa using digits first List.mem_cons_self)
      (by rw [same] at digits; exact fun c member => digits c (List.mem_cons_of_mem _ member)) ends
    refine read.trans ?_
    rw [raised]
    change some (Decimal.mk _ _) = _
    congr
    · rw [← value, same]
      rfl
    · unfold point
      rw [same]
      simp only [List.length_cons]
      omega
  · next single =>
    rw [String.toList_append, String.toList_ofList, text,
      read?_whole d.digits_ne_nil digits ends nofun, raised]
    change some (Decimal.mk _ _) = _
    congr
    unfold point
    obtain ⟨digit, others, same⟩ := List.exists_cons_of_ne_nil d.digits_ne_nil
    cases others with
    | nil =>
      rw [same, List.length_singleton]
      omega
    | cons second rest => exact (single _ _ _ same).elim

/-- The notation of a decimal denotes the same number. -/
theorem read?_notation (d : Decimal) :
    ∃ d', read? (if -3 ≤ d.point ∧ d.point ≤ 16 then
        if d.exponent < 0 then d.positional else d.positional ++ ".0"
      else d.scientific).toList = some d' ∧ d'.magnitude = d.magnitude := by
  split
  · split
    · next fraction => exact ⟨d, read?_positional fraction, rfl⟩
    · next whole => exact read?_positional_whole (Int.not_lt.1 whole)
  · exact ⟨d, d.read?_scientific, rfl⟩

end Decimal

namespace Floating

variable {f : Format}

/-- What starts with a digit is read as a numeral. -/
theorem readMagnitude?_digit {c : Char} (digit : c.isDigit = true) (rest : List Char)
    (negative : Bool) : (readMagnitude? negative (c :: rest) : Option (Floating f)) =
      (Decimal.read? (c :: rest)).map (Decimal.toFloating negative) := by
  have lower : c.toLower.isDigit = true := by
    unfold Char.toLower
    rw [dif_neg]
    · exact digit
    · intro upper
      simp only [Char.isDigit, Bool.and_eq_true, decide_eq_true_eq, UInt32.le_iff_toNat_le] at digit
      have high : c.toNat ≤ 57 := digit.2
      have low : 65 ≤ c.toNat := upper.1
      omega
  have other {letter : Char} {letters : List Char} (word : letter.isDigit = false) :
      String.ofList ((c :: rest).map Char.toLower) ≠ String.ofList (letter :: letters) := by
    intro same
    have first := (List.cons.inj (String.ofList_injective same)).1
    rw [first, word] at lower
    cases lower
  unfold readMagnitude?
  split
  · next same => exact absurd same (other (by decide))
  · next same => exact absurd same (other (by decide))
  · next same => exact absurd same (other (by decide))
  · rfl

/-- The notation of a magnitude is read back, with the sign that is asked for. -/
theorem readMagnitude?_notation (negative : Bool) (rank : Fin f.ranks) :
    let d := Decimal.shortest f rank
    readMagnitude? negative (if -3 ≤ d.point ∧ d.point ≤ 16 then
        if d.exponent < 0 then d.positional else d.positional ++ ".0"
      else d.scientific).toList = some (.finite negative rank) := by
  intro d
  obtain ⟨d', read, same⟩ := d.read?_notation
  obtain ⟨c, others, text, digit⟩ := d.notation_numeral.head
  rw [text] at read ⊢
  rw [readMagnitude?_digit digit, read, Option.map_some, Decimal.toFloating_congr same,
    Decimal.toFloating_shortest]

theorem read?_unsigned {c : Char} (no_minus : c ≠ '-') (no_plus : c ≠ '+') (rest : List Char) :
    (read? (c :: rest) : Option (Floating f)) = readMagnitude? false (c :: rest) := by
  unfold read?
  split
  · next same => exact absurd (List.cons.inj same).1 no_minus
  · next same => exact absurd (List.cons.inj same).1 no_plus
  · rfl

theorem read?_digit {c : Char} (digit : c.isDigit = true) (rest : List Char) :
    (read? (c :: rest) : Option (Floating f)) = readMagnitude? false (c :: rest) := by
  have other {sign : Char} (no_digit : sign.isDigit = false) : c ≠ sign := by
    intro same
    rw [same, no_digit] at digit
    cases digit
  exact read?_unsigned (other (by decide)) (other (by decide)) rest

/-- The text of a finite number is read back as that number. -/
theorem read?_fractional {x : Floating f} (finite : x.isFinite = true) :
    read? x.fractional.toList = some x := by
  cases x with
  | nan => cases finite
  | infinite => cases finite
  | finite negative rank =>
    have back := readMagnitude?_notation negative rank
    obtain ⟨c, others, text, digit⟩ := (Decimal.shortest f rank).notation_numeral.head
    unfold fractional
    rw [String.toList_append]
    cases negative with
    | true => exact back
    | false =>
      dsimp only at back
      rw [text] at back ⊢
      exact (read?_digit digit others).trans back

theorem neg_ofRank (negative : Bool) (rank : Nat) :
    -(ofRank negative rank : Floating f) = ofRank (!negative) rank := by
  unfold ofRank
  split <;> rfl

end Floating

end NodeShader
