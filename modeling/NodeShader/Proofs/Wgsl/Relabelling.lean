import NodeShader.Proofs.Compile.Rewording

/-!
Other names in a text. Whole words are exchanged; components, which stand after a dot, functions and
what is part of a numeral stay. The text of a code with other names comes about in this way.
-/

namespace NodeShader

/-- The runs of a text with other names; a run after a dot selects components and is no name. -/
def relabelRuns (image : String → String) : (selects : Bool) → List (List Char) → List Char
  | _, [] => []
  | selects, run :: rest =>
    (if selects then run else (image (String.ofList run)).toList) ++
      relabelRuns image (run == ['.']) rest

@[simp]
theorem relabelRuns_nil (image : String → String) (selects : Bool) :
    relabelRuns image selects (wordRuns []) = [] := rfl

/-- The text with each word replaced that is a word of its own and selects no components. -/
def relabel (image : String → String) (text : String) : String :=
  String.ofList (relabelRuns image false (wordRuns text.toList))

/-- Maps that exchange names for others, and leave functions and what is no name as they are. -/
structure Relabels (image : String → String) : Prop where
  name : ∀ word, Lexeme.isName word = true → Lexeme.isName (image word) = true
  fixes : ∀ word, Lexeme.isName word = false → image word = word
  function : ∀ function : Builtin, image function.name = function.name
  pair : image "vec2f" = "vec2f"

theorem Lexeme.isWord_of_isName {word : String} (name : isName word = true) :
    Code.isWord word = true := by
  obtain ⟨c, others, same, -, words⟩ := isName_iff.1 name
  rw [Code.isWord, Bool.and_eq_true, same]
  refine ⟨?_, List.all_eq_true.2 words⟩
  rw [Bool.not_eq_true', String.isEmpty_eq_false_iff]
  intro empty
  rw [empty] at same
  cases same

theorem relabelRuns_selected {image : String → String} {text : List Char}
    (words : ∀ c ∈ text, Code.isWordChar c = true) :
    relabelRuns image true (wordRuns text) = text := by
  by_cases empty : text = []
  · rw [empty]
    rfl
  · rw [wordRuns_word empty words]
    simp [relabelRuns]

namespace Relabels

variable {image : String → String} {text front back digits : List Char} {mark : Char}
  {selects : Bool} (relabels : Relabels image)

include relabels

theorem isWord (word : String) : Code.isWord (image word) = Code.isWord word := by
  cases name : Lexeme.isName word with
  | true =>
    rw [Lexeme.isWord_of_isName name, Lexeme.isWord_of_isName (relabels.name word name)]
  | false => rw [relabels.fixes word name]

theorem fixes_mark (other : Code.isWordChar mark = false) :
    (image (String.ofList [mark])).toList = [mark] := by
  rw [relabels.fixes, String.toList_ofList]
  rw [Bool.eq_false_iff]
  intro name
  obtain ⟨c, others, same, -, words⟩ := Lexeme.isName_iff.1 name
  rw [String.toList_ofList] at same
  cases same
  exact absurd (words mark List.mem_cons_self) (by simp [other])

/-- A mark parts a text, and the part after it starts afresh. -/
theorem runs_mark (other : Code.isWordChar mark = false) :
    relabelRuns image selects (wordRuns (front ++ mark :: back)) =
      relabelRuns image selects (wordRuns front) ++
        mark :: relabelRuns image (mark == '.') (wordRuns back) := by
  rw [wordRuns_mark front back other]
  generalize wordRuns front = runs
  induction runs generalizing selects with
  | nil =>
    have dot : (([mark] : List Char) == ['.']) = (mark == '.') := by simp
    rw [List.nil_append, relabelRuns, relabelRuns, dot, relabels.fixes_mark other, ite_self]
    rfl
  | cons run runs ih => rw [List.cons_append, relabelRuns, relabelRuns, ih, List.append_assoc]

theorem runs_cons (other : Code.isWordChar mark = false) :
    relabelRuns image selects (wordRuns (mark :: back)) =
      mark :: relabelRuns image (mark == '.') (wordRuns back) := by
  have parted : relabelRuns image selects (wordRuns ([] ++ mark :: back)) = _ :=
    relabels.runs_mark other
  exact parted

theorem runs_word (words : ∀ c ∈ text, Code.isWordChar c = true) :
    relabelRuns image false (wordRuns text) = (image (String.ofList text)).toList := by
  by_cases empty : text = []
  · rw [empty, relabels.fixes _ (by decide)]
    rfl
  · rw [wordRuns_word empty words]
    simp [relabelRuns]

/-- A word that starts with a digit is no name. -/
theorem runs_digits (some_digit : digits ≠ []) (all_digits : ∀ c ∈ digits, c.isDigit)
    (words : ∀ c ∈ text, Code.isWordChar c = true) :
    relabelRuns image false (wordRuns (digits ++ text)) = digits ++ text := by
  have whole : ∀ c ∈ digits ++ text, Code.isWordChar c = true := by
    intro c member
    rcases List.mem_append.1 member with member | member
    · exact Lexeme.isWordChar_of_isDigit (all_digits c member)
    · exact words c member
  rw [relabels.runs_word whole, relabels.fixes, String.toList_ofList]
  rw [Bool.eq_false_iff]
  intro name
  obtain ⟨c, others, same, starts, -⟩ := Lexeme.isName_iff.1 name
  obtain ⟨digit, rest, rfl⟩ := List.exists_cons_of_ne_nil some_digit
  rw [String.toList_ofList] at same
  cases same
  have digit := all_digits c List.mem_cons_self
  rw [Lexeme.not_isDigit_of_startsWord starts] at digit
  cases digit

theorem runs_whole (some_digit : digits ≠ []) (all_digits : ∀ c ∈ digits, c.isDigit) :
    relabelRuns image false (wordRuns digits) = digits := by
  have whole : relabelRuns image false (wordRuns (digits ++ [])) = digits ++ [] :=
    relabels.runs_digits some_digit all_digits nofun
  rwa [List.append_nil] at whole

/-- An exponent stays where any word would stay; its digits are a word of their own after a minus. -/
theorem runs_exponent (raised : IsExponent back)
    (kept : ∀ text, (∀ c ∈ text, Code.isWordChar c = true) →
      relabelRuns image selects (wordRuns (front ++ text)) = front ++ text) :
    relabelRuns image selects (wordRuns (front ++ back)) = front ++ back := by
  obtain ⟨sign, digits, rfl, signed, some_digit, all_digits⟩ := raised
  have words : ∀ c ∈ digits, Code.isWordChar c = true :=
    fun c member => Lexeme.isWordChar_of_isDigit (all_digits c member)
  have letter : Code.isWordChar 'e' = true := by decide
  rcases signed with rfl | rfl
  · exact kept _ (by simpa [letter] using words)
  · have apart : front ++ 'e' :: (['-'] ++ digits) = (front ++ ['e']) ++ '-' :: digits := by simp
    rw [apart, relabels.runs_mark (by decide), kept _ (by simp [letter])]
    exact congrArg (front ++ ['e'] ++ '-' :: ·) (relabels.runs_whole some_digit all_digits)

theorem runs_numeral (numeral : FloatNumeral digits) :
    relabelRuns image false (wordRuns digits) = digits := by
  cases numeral with
  | point whole places some_whole whole_digits places_digits =>
    rw [relabels.runs_mark (by decide), relabels.runs_whole some_whole whole_digits]
    exact congrArg (whole ++ '.' :: ·) (relabelRuns_selected fun c member =>
      Lexeme.isWordChar_of_isDigit (places_digits c member))
  | exponent whole exponent some_whole whole_digits raised =>
    exact relabels.runs_exponent raised fun text => relabels.runs_digits some_whole whole_digits
  | both whole places exponent some_whole whole_digits places_digits raised =>
    rw [relabels.runs_mark (by decide), relabels.runs_whole some_whole whole_digits]
    refine congrArg (whole ++ '.' :: ·) (relabels.runs_exponent raised fun text words => ?_)
    refine relabelRuns_selected fun c member => ?_
    rcases List.mem_append.1 member with member | member
    · exact Lexeme.isWordChar_of_isDigit (places_digits c member)
    · exact words c member

theorem runs_literal (value : F32) :
    relabelRuns image false (wordRuns value.literalText.toList) = value.literalText.toList := by
  obtain ⟨numeral, text⟩ := value.literalText_toList
  have digits := relabels.runs_numeral numeral
  rw [text]
  split
  · rw [relabels.runs_cons (by decide)]
    exact congrArg ('-' :: ·) digits
  · exact digits

end Relabels

/-! ### Functions in code -/

/-- The functions that the code of formulas calls. -/
def IsCalled (function : String) : Prop :=
  function = "vec2f" ∨ ∃ builtin : Builtin, function = builtin.name

theorem Relabels.called {image : String → String} (relabels : Relabels image) {function : String}
    (called : IsCalled function) : image function = function := by
  rcases called with rfl | ⟨builtin, rfl⟩
  · exact relabels.pair
  · exact relabels.function builtin

namespace Code

mutual

/-- Code that calls nothing but what formulas call. -/
def CallsKnown : Code → Prop
  | .literal _ | .name _ => True
  | .paren inner | .negate inner | .member inner _ => CallsKnown inner
  | .binary _ left right => CallsKnown left ∧ CallsKnown right
  | .call function arguments => IsCalled function ∧ AllCallKnown arguments

def AllCallKnown : List Code → Prop
  | [] => True
  | code :: rest => CallsKnown code ∧ AllCallKnown rest

end

theorem allCallKnown_iff {codes : List Code} :
    AllCallKnown codes ↔ ∀ code ∈ codes, code.CallsKnown := by
  induction codes with
  | nil => simp [AllCallKnown]
  | cons code rest ih => rw [AllCallKnown, ih, List.forall_mem_cons]

theorem callsKnown_select {code : Code} (known : code.CallsKnown) (components : String) :
    (code.select components).CallsKnown := by
  unfold select
  split <;> exact known

variable {image : String → String}

mutual

/-- The text of a code with other names is its text relabelled. -/
theorem render_relabel (relabels : Relabels image) : (code : Code) → code.Fits →
    code.CallsKnown →
      (code.rename image).render.toList = relabelRuns image false (wordRuns code.render.toList)
  | .literal value, _, _ => (relabels.runs_literal value).symm
  | .name text, fits, _ => by
    rcases Lexeme.isName_iff.1 fits with ⟨c, others, same, -, words⟩
    rw [rename, render, render, relabels.runs_word (same ▸ words), String.ofList_toList]
  | .paren inner, fits, called => by
    have inside := render_relabel relabels inner fits called
    simp (disch := decide) [rename, render, inside, relabels.runs_cons, relabels.runs_mark]
  | .negate inner, fits, called => by
    have inside := render_relabel relabels inner fits.1 called
    simp (disch := decide) [rename, render, inside, relabels.runs_cons]
  | .binary operator left right, fits, called => by
    have first := render_relabel relabels left fits.1 called.1
    have second := render_relabel relabels right fits.2.1 called.2
    have symbol : isWordChar operator.symbol = false := by cases operator <;> decide
    have no_dot : (operator.symbol == '.') = false := by cases operator <;> decide
    simp (disch := first | exact symbol | decide) [rename, render, first, second, no_dot,
      relabels.runs_cons, relabels.runs_mark]
  | .call function arguments, fits, called => by
    rcases Lexeme.isName_iff.1 fits.1 with ⟨c, others, same, -, words⟩
    have name := relabels.runs_word (same ▸ words)
    rw [String.ofList_toList, relabels.called called.1] at name
    have inside := renderAll_relabel relabels arguments fits.2 called.2
    simp (disch := decide) [rename, render, inside, name, relabels.runs_mark]
  | .member inner components, fits, called => by
    have inside := render_relabel relabels inner fits.1 called
    rcases Lexeme.isName_iff.1 fits.2.2 with ⟨c, others, same, -, words⟩
    have selected : relabelRuns image true (wordRuns components.toList) = components.toList :=
      relabelRuns_selected (same ▸ words)
    simp (disch := decide) [rename, render, inside, selected, relabels.runs_mark]

theorem renderAll_relabel (relabels : Relabels image) : (codes : List Code) → FitsAll codes →
    AllCallKnown codes →
      (", ".intercalate (renderAll (renameAll image codes))).toList =
        relabelRuns image false (wordRuns (", ".intercalate (renderAll codes)).toList)
  | [], _, _ => rfl
  | [code], fits, called => by
    simpa [renameAll, renderAll] using render_relabel relabels code fits.1 called.1
  | code :: next :: codes, fits, called => by
    have here := render_relabel relabels code fits.1 called.1
    have rest := renderAll_relabel relabels (next :: codes) fits.2 called.2
    simp only [renderAll, renameAll, String.intercalate_cons_cons, String.toList_append] at rest ⊢
    rw [here, rest]
    simp (disch := decide) [relabels.runs_mark, relabels.runs_cons]

end

end Code

end NodeShader
