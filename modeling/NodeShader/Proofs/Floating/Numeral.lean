import NodeShader.Floating.Text

/-!
Numerals of float literals: digits with a point or an exponent after them. A finite number is
written as one, after a minus if it is negative.
-/

namespace NodeShader

/-- A letter and an integer. -/
def IsExponent (text : List Char) : Prop :=
  ∃ sign digits, text = 'e' :: (sign ++ digits) ∧ (sign = [] ∨ sign = ['-']) ∧ digits ≠ [] ∧
    ∀ c ∈ digits, c.isDigit

/-- Digits with a point, an exponent, or both after them. -/
inductive FloatNumeral : List Char → Prop where
  | point (whole places : List Char) (some_whole : whole ≠ []) (whole_digits : ∀ c ∈ whole, c.isDigit)
      (places_digits : ∀ c ∈ places, c.isDigit) : FloatNumeral (whole ++ '.' :: places)
  | exponent (whole exponent : List Char) (some_whole : whole ≠ [])
      (whole_digits : ∀ c ∈ whole, c.isDigit) (raised : IsExponent exponent) :
      FloatNumeral (whole ++ exponent)
  | both (whole places exponent : List Char) (some_whole : whole ≠ [])
      (whole_digits : ∀ c ∈ whole, c.isDigit) (places_digits : ∀ c ∈ places, c.isDigit)
      (raised : IsExponent exponent) : FloatNumeral (whole ++ '.' :: (places ++ exponent))

/-- A run of characters with a property, before one without it. -/
theorem span_stop {p : Char → Bool} {text rest : List Char} (inside : ∀ c ∈ text, p c)
    (stop : ∀ c ∈ rest.head?, p c = false) :
    (text ++ rest).takeWhile p = text ∧ (text ++ rest).dropWhile p = rest := by
  rw [List.takeWhile_append_of_pos inside, List.dropWhile_append_of_pos inside]
  cases rest with
  | nil => simp
  | cons c rest => simp [stop c (by simp)]

theorem FloatNumeral.head {digits : List Char} (numeral : FloatNumeral digits) :
    ∃ c others, digits = c :: others ∧ c.isDigit = true := by
  cases numeral with
  | point whole places some_whole whole_digits
  | exponent whole exponent some_whole whole_digits
  | both whole places exponent some_whole whole_digits =>
    rcases List.exists_cons_of_ne_nil some_whole with ⟨c, others, rfl⟩
    exact ⟨c, _, rfl, whole_digits c (by simp)⟩

theorem FloatNumeral.characters {digits : List Char} (numeral : FloatNumeral digits) :
    ∀ c ∈ digits, c.isDigit = true ∨ c ∈ ['.', 'e', '-'] := by
  have exponent_characters {exponent : List Char} (raised : IsExponent exponent) :
      ∀ c ∈ exponent, c.isDigit = true ∨ c ∈ ['.', 'e', '-'] := by
    rcases raised with ⟨sign, digits, rfl, rfl | rfl, -, all_digits⟩ <;>
      simp +contextual [or_imp, all_digits]
  cases numeral with
  | point whole places _ whole_digits places_digits =>
    simp +contextual [or_imp, whole_digits, places_digits]
  | exponent whole exponent _ whole_digits raised =>
    simp +contextual only [List.mem_append, or_imp, whole_digits, true_or, implies_true, true_and]
    exact exponent_characters raised
  | both whole places exponent _ whole_digits places_digits raised =>
    intro c member
    rcases List.mem_append.1 member with member | member
    · exact .inl (whole_digits c member)
    · rcases List.mem_cons.1 member with rfl | member
      · exact .inr (by decide)
      · rcases List.mem_append.1 member with member | member
        · exact .inl (places_digits c member)
        · exact exponent_characters raised c member

theorem toDigits_digits (n : Nat) : ∀ c ∈ Nat.toDigits 10 n, c.isDigit :=
  fun _ member => Nat.isDigit_of_mem_toDigits (by decide) (by decide) member

namespace Decimal

theorem point_ofNat_of_exponent {d : Decimal} (whole : 0 ≤ d.exponent) :
    ∃ before, d.point = .ofNat before ∧ (Nat.toDigits 10 d.digits).length ≤ before := by
  refine ⟨d.point.toNat, ?_, ?_⟩
  · change d.point = (d.point.toNat : Int)
    rw [Int.toNat_of_nonneg]
    unfold point
    omega
  · unfold point
    omega

/-- Positional notation of a whole number is made of digits alone. -/
theorem positional_whole {d : Decimal} (whole : 0 ≤ d.exponent) :
    d.positional.toList ≠ [] ∧ ∀ c ∈ d.positional.toList, c.isDigit := by
  rcases point_ofNat_of_exponent whole with ⟨before, point, long⟩
  simp only [positional, point, long, if_true, String.toList_ofList]
  refine ⟨by simp [Nat.toDigits_ne_nil], fun c member => ?_⟩
  rcases List.mem_append.1 member with member | member
  · exact toDigits_digits _ c member
  · rw [List.eq_of_mem_replicate member]
    rfl

/-- Positional notation of a fractional number has a point. -/
theorem positional_fraction {d : Decimal} (fraction : d.exponent < 0) :
    FloatNumeral d.positional.toList := by
  have digits := toDigits_digits d.digits
  unfold positional
  split
  · next before point =>
    have short : ¬ (Nat.toDigits 10 d.digits).length ≤ before := by
      have : d.point = (before : Int) := point
      unfold Decimal.point at this
      omega
    rw [if_neg short, String.toList_ofList]
    refine .point _ _ ?_ ?_ fun c member => digits c (List.mem_of_mem_drop member)
    · cases before with
      | zero => simp
      | succ before => simp [Nat.toDigits_ne_nil]
    · intro c member
      rcases List.mem_append.1 member with member | member
      · exact digits c (List.mem_of_mem_take member)
      · split at member
        · rw [List.mem_singleton.1 member]
          rfl
        · cases member
  · next zeros point =>
    rw [String.toList_ofList]
    apply FloatNumeral.point ['0'] _ (by simp) (by simp)
    intro c member
    rcases List.mem_append.1 member with member | member
    · rw [List.eq_of_mem_replicate member]
      rfl
    · exact digits c member

theorem isExponent_int (n : Int) : IsExponent ('e' :: (toString n).toList) := by
  cases n with
  | ofNat n =>
    refine ⟨[], Nat.toDigits 10 n, ?_, .inl rfl, Nat.toDigits_ne_nil, toDigits_digits n⟩
    exact congrArg (List.cons 'e') Nat.toList_repr
  | negSucc n =>
    refine ⟨['-'], Nat.toDigits 10 (n + 1), ?_, .inr rfl, Nat.toDigits_ne_nil, toDigits_digits _⟩
    change 'e' :: ("-" ++ Nat.repr (n + 1)).toList = _
    rw [String.toList_append, Nat.toList_repr]
    rfl

/-- Scientific notation has an exponent. -/
theorem scientific_numeral (d : Decimal) : FloatNumeral d.scientific.toList := by
  have digits := toDigits_digits d.digits
  have raised := isExponent_int (d.point - 1)
  unfold scientific
  split
  · next first second rest same =>
    rw [same] at digits
    simp only [String.toList_append, String.toList_ofList]
    exact .both [first] (second :: rest) _ (by simp) (by simp [digits])
      (fun c member => digits c (List.mem_cons_of_mem _ member)) raised
  · simp only [String.toList_append, String.toList_ofList]
    exact .exponent _ _ Nat.toDigits_ne_nil digits raised

theorem notation_numeral (d : Decimal) :
    FloatNumeral (if -3 ≤ d.point ∧ d.point ≤ 16 then
      if d.exponent < 0 then d.positional else d.positional ++ ".0"
    else d.scientific).toList := by
  split
  · split
    · next fraction => exact positional_fraction fraction
    · next whole =>
      rcases positional_whole (Int.not_lt.1 whole) with ⟨some_whole, digits⟩
      rw [String.toList_append]
      exact .point _ ['0'] some_whole digits (by simp)
  · exact d.scientific_numeral

end Decimal

/-- A finite number is written as a numeral, after a minus if it is negative. -/
theorem Floating.fractional_numeral {f : Format} {x : Floating f} (finite : x.isFinite = true) :
    ∃ digits, FloatNumeral digits ∧
      (x.fractional.toList = digits ∨ x.fractional.toList = '-' :: digits) := by
  cases x with
  | nan => cases finite
  | infinite => cases finite
  | finite negative rank =>
    have numeral := (Decimal.shortest f rank).notation_numeral
    unfold fractional
    rw [String.toList_append]
    cases negative
    · exact ⟨_, numeral, .inl rfl⟩
    · exact ⟨_, numeral, .inr rfl⟩

end NodeShader
