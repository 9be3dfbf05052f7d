import Mathlib.Data.List.Chain
import NodeShader.Proofs.Formula.Grammar
import NodeShader.Proofs.Wgsl.Scope

/-!
What the text of a statement is made of: a few characters, among which no comment starts, and words of
the shading language or names that were declared.
-/

namespace NodeShader

/-- Whether a character may stand in a statement, the semicolon at its end left out. -/
def isTextChar (c : Char) : Bool := Code.isWordChar c || " .,()+-*/%:=".toList.contains c

/-- Whether all characters may stand in a statement, and none of them may start a comment. -/
def isSlashless (text : List Char) : Bool := text.all fun c => isTextChar c && c != '/'

/-- Texts in which a blank follows each slash that something follows. -/
def IsSpaced (text : List Char) : Prop := text.IsChain fun c next => c = '/' → next = ' '

/-- Pieces of statements; no comment starts in a piece, nor where two of them meet. -/
structure IsPlain (text : List Char) : Prop where
  characters : ∀ c ∈ text, isTextChar c = true
  spaced : IsSpaced text
  last : text.getLast? ≠ some '/'

theorem IsSpaced.append {text more : List Char} (spaced : IsSpaced text) (spaced' : IsSpaced more)
    (last : text.getLast? ≠ some '/') : IsSpaced (text ++ more) := by
  refine List.IsChain.append spaced spaced' fun c ends _ _ slash => ?_
  subst slash
  exact absurd ends last

/-- A slash is not followed by what would make it the start of a comment. -/
theorem IsSpaced.no_comment {text : List Char} (spaced : IsSpaced text) {c : Char}
    (visible : c ≠ ' ') : ¬ ['/', c] <:+: text := by
  intro comment
  have pair := List.IsChain.infix spaced comment
  exact visible (List.isChain_pair.1 pair rfl)

namespace IsPlain

variable {text more : List Char}

theorem append (plain : IsPlain text) (plain' : IsPlain more) : IsPlain (text ++ more) where
  characters := List.forall_mem_append.2 ⟨plain.characters, plain'.characters⟩
  spaced := plain.spaced.append plain'.spaced plain.last
  last := by
    rw [List.getLast?_append]
    cases ends : more.getLast? with
    | none => exact plain.last
    | some c =>
      rw [Option.some_or, ← ends]
      exact plain'.last

theorem of_slashless (slashless : isSlashless text = true) : IsPlain text := by
  have each : ∀ c ∈ text, isTextChar c = true ∧ c ≠ '/' := by simpa [isSlashless] using slashless
  exact {
    characters := fun c member => (each c member).1
    spaced := List.isChain_iff_forall_rel_of_append_cons_cons.2 fun c _ _ _ same slash =>
      absurd slash (each c (by simp [same])).2
    last := fun ends => (each '/' (List.mem_of_getLast? ends)).2 rfl }

theorem of_words (words : ∀ c ∈ text, Code.isWordChar c = true) : IsPlain text := by
  apply of_slashless
  rw [isSlashless, List.all_eq_true]
  intro c member
  have other : c ≠ '/' := by
    intro slash
    subst slash
    exact absurd (words _ member) (by decide)
  simp [isTextChar, words c member, other]

theorem no_semicolon (plain : IsPlain text) : ';' ∉ text := by
  intro member
  exact absurd (plain.characters _ member) (by decide)

theorem name {text : String} (name : Lexeme.isName text = true) : IsPlain text.toList := by
  rcases Lexeme.isName_iff.1 name with ⟨c, others, same, -, words⟩
  rw [same]
  exact of_words words

theorem literal (value : F32) : IsPlain value.literalText.toList := by
  obtain ⟨numeral, same⟩ := value.literalText_toList
  have digits : IsPlain value.numeral.2 := by
    apply of_slashless
    rw [isSlashless, List.all_eq_true]
    intro c member
    rcases numeral.characters c member with digit | mark
    · have other : c ≠ '/' := by
        intro slash
        subst slash
        cases digit
      simp [isTextChar, Lexeme.isWordChar_of_isDigit digit, other]
    · have marks : isSlashless ['.', 'e', '-'] = true := by decide
      exact List.all_eq_true.1 marks c mark
  rw [same]
  split
  · have minus : IsPlain ['-'] := of_slashless (by decide)
    exact minus.append digits
  · exact digits

theorem symbol (operator : Operator) :
    IsPlain (operator.symbol.toString.toList ++ " ".toList) := by
  cases operator with
  | div => exact ⟨List.all_eq_true.1 (by decide), List.isChain_pair.2 fun _ => rfl, by decide⟩
  | add | sub | mul | rem => exact of_slashless (by decide)

mutual

/-- The text of a code that fits the grammar. -/
theorem render : (code : Code) → code.Fits → IsPlain code.render.toList
  | .literal value, _ => literal value
  | .name _, fits => name fits
  | .paren inner, fits => by
    simp only [Code.render, String.toList_append]
    exact (append (of_slashless (by decide)) (render inner fits)).append (of_slashless (by decide))
  | .negate inner, fits => by
    simp only [Code.render, String.toList_append]
    exact append (of_slashless (by decide)) (render inner fits.1)
  | .binary operator left right, fits => by
    have blank : IsPlain " ".toList := of_slashless (by decide)
    have spaced := symbol operator
    have whole := (render left fits.1).append (blank.append (spaced.append (render right fits.2.1)))
    simpa [Code.render] using whole
  | .call function arguments, fits => by
    simp only [Code.render, String.toList_append]
    exact (((name fits.1).append (of_slashless (by decide))).append
      (renderAll arguments fits.2)).append (of_slashless (by decide))
  | .member inner components, fits => by
    simp only [Code.render, String.toList_append]
    exact ((render inner fits.1).append (of_slashless (by decide))).append (name fits.2.2)

theorem renderAll : (codes : List Code) → Code.FitsAll codes →
    IsPlain (", ".intercalate (Code.renderAll codes)).toList
  | [], _ => of_slashless rfl
  | [code], fits => by simpa [Code.renderAll] using render code fits.1
  | code :: next :: codes, fits => by
    have rest := renderAll (next :: codes) fits.2
    simp only [Code.renderAll, String.intercalate_cons_cons, String.toList_append] at rest ⊢
    exact ((render code fits.1).append (of_slashless (by decide))).append rest

end

end IsPlain

/-- The words of expressions, given the names that were declared. -/
inductive IsWord (names : List String) : String → Prop
  | uv : IsWord names "uv"
  | time : IsWord names "u_time"
  | declared {name : String} (member : name ∈ names) : IsWord names name
  | constructor (type : ValueType) : IsWord names type.name
  | function (function : Builtin) : IsWord names function.name
  | components {letters : List Char} (some_letters : letters ≠ []) (few : letters.length ≤ 4)
      (axes : ∀ c ∈ letters, c ∈ ['x', 'y', 'z', 'w']) : IsWord names (String.ofList letters)

/-- Lexemes that the shading language or a declaration gives a meaning; numbers are float literals
of finite numbers. -/
def Lexeme.IsKnown (names : List String) : Lexeme → Prop
  | .symbol _ => True
  | .number digits => FloatNumeral digits ∧
    ∃ value : F32, Floating.read? digits = some value ∧ value.isFinite = true
  | .word letters => IsWord names (String.ofList letters)

/-- Neighbours of which one is a symbol, so that no word or number goes on with the next one. -/
def Lexeme.Apart : Lexeme → Lexeme → Prop
  | .symbol _, _ => True
  | _, .symbol _ => True
  | _, _ => False

theorem Lexeme.apart_append {lexemes more : List Lexeme} (mark : Symbol)
    (apart : lexemes.IsChain Apart) (apart' : more.IsChain Apart) :
    (lexemes ++ .symbol mark :: more).IsChain Apart := by
  have rest : (Lexeme.symbol mark :: more).IsChain Apart :=
    List.isChain_cons.2 ⟨fun _ _ => trivial, apart'⟩
  refine apart.append rest fun lexeme _ next first => ?_
  cases first
  cases lexeme <;> trivial

namespace IsWord

variable {names : List String}

theorem of_call {function : String} {arguments : List ValueType} {type : ValueType}
    (typed : Domain.types.call function arguments = some type) : IsWord names function := by
  dsimp only [Domain.types] at typed
  split at typed
  · next builtin known =>
    rw [← Formula.name_of_ofName? known]
    exact .function builtin
  · unfold ValueType.constructed? at typed
    split at typed
    · exact .constructor .vec2f
    · exact .constructor .vec2f
    · exact .constructor .vec3f
    · exact .constructor .vec3f
    · exact .constructor .vec3f
    · cases typed

theorem of_select {components : String} {vector type : ValueType}
    (typed : Domain.types.select vector components = some type) : IsWord names components := by
  change ValueType.selected? vector components = some type at typed
  unfold ValueType.selected? at typed
  dsimp only at typed
  split at typed
  · cases typed
  · next present =>
    have axes : ∀ c ∈ components.toList, c ∈ ['x', 'y', 'z', 'w'] := by
      intro c member
      have present := Bool.eq_false_iff.2 present
      simp only [Bool.or_eq_false_iff, Bool.not_eq_eq_eq_not, Bool.not_false, List.all_eq_true,
        List.contains_iff_mem] at present
      exact List.mem_of_mem_take (present.2 c member)
    have few : components.toList ≠ [] ∧ components.toList.length ≤ 4 := by
      split at typed
      case h_5 => cases typed
      all_goals next count => exact ⟨List.ne_nil_of_length_pos (by omega), by omega⟩
    rw [← String.ofList_toList (s := components)]
    exact .components few.1 few.2 axes

end IsWord

namespace Code

mutual

/-- Between the words and numbers of a code stand symbols. -/
theorem apart_lexemes : (code : Code) → code.lexemes.IsChain Lexeme.Apart
  | .literal value => by
    have number : [Lexeme.number value.numeral.2].IsChain Lexeme.Apart := .singleton _
    rw [lexemes]
    split
    · exact Lexeme.apart_append .minus .nil number
    · exact number
  | .name _ => .singleton _
  | .paren inner =>
    Lexeme.apart_append .opening .nil (Lexeme.apart_append .closing (apart_lexemes inner) .nil)
  | .negate inner => Lexeme.apart_append .minus .nil (apart_lexemes inner)
  | .binary operator left right =>
    Lexeme.apart_append operator.mark (apart_lexemes left) (apart_lexemes right)
  | .call function arguments => by
    have given := Lexeme.apart_append .closing (apart_lexemesAll arguments) .nil
    rw [lexemes]
    exact Lexeme.apart_append .opening (List.IsChain.singleton (Lexeme.word function.toList)) given
  | .member inner components =>
    Lexeme.apart_append .dot (apart_lexemes inner)
      (List.IsChain.singleton (Lexeme.word components.toList))

theorem apart_lexemesAll : (codes : List Code) → (lexemesAll codes).IsChain Lexeme.Apart
  | [] => .nil
  | [code] => by simpa [lexemesAll, lexemesMore] using apart_lexemes code
  | code :: next :: rest =>
    Lexeme.apart_append .comma (apart_lexemes code) (apart_lexemesAll (next :: rest))

end

variable {names : List String} {scope : String → Option ValueType}

mutual

/-- Every lexeme of a code that has a type is known, if all names that have types are words. -/
theorem known_lexemes (words : ∀ {name type}, scope name = some type → IsWord names name) :
    (code : Code) → ∀ {type}, code.eval .types scope = some type →
      ∀ lexeme ∈ code.lexemes, lexeme.IsKnown names
  | .literal value, _, _ => by
    have known : (Lexeme.number value.numeral.2).IsKnown names :=
      ⟨value.literalText_toList.1, _, value.numeral_value.1, value.isFinite_numberValue⟩
    rw [lexemes]
    split
    · exact List.forall_mem_cons.2 ⟨trivial, List.forall_mem_singleton.2 known⟩
    · exact List.forall_mem_singleton.2 known
  | .name text, _, typed => by
    rw [lexemes, List.forall_mem_singleton, Lexeme.IsKnown, String.ofList_toList]
    exact words typed
  | .paren inner, _, typed => by
    have inside := known_lexemes words inner typed
    rw [lexemes, List.forall_mem_cons, List.forall_mem_append, List.forall_mem_singleton]
    exact ⟨trivial, inside, trivial⟩
  | .negate inner, _, typed => by
    obtain ⟨_, typed, -⟩ := Option.bind_eq_some_iff.1 typed
    exact List.forall_mem_cons.2 ⟨trivial, known_lexemes words inner typed⟩
  | .binary operator left right, _, typed => by
    obtain ⟨_, typed, rest⟩ := Option.bind_eq_some_iff.1 typed
    obtain ⟨_, typed', -⟩ := Option.bind_eq_some_iff.1 rest
    rw [lexemes, List.forall_mem_append, List.forall_mem_cons]
    exact ⟨known_lexemes words left typed, trivial, known_lexemes words right typed'⟩
  | .call function arguments, _, typed => by
    obtain ⟨_, given, typed⟩ := Option.bind_eq_some_iff.1 typed
    have called : (Lexeme.word function.toList).IsKnown names := by
      rw [Lexeme.IsKnown, String.ofList_toList]
      exact .of_call typed
    rw [lexemes, List.forall_mem_cons, List.forall_mem_cons, List.forall_mem_append,
      List.forall_mem_singleton]
    exact ⟨called, trivial, known_lexemesAll words arguments given, trivial⟩
  | .member inner components, _, typed => by
    obtain ⟨_, vector, typed⟩ := Option.bind_eq_some_iff.1 typed
    have selected : (Lexeme.word components.toList).IsKnown names := by
      rw [Lexeme.IsKnown, String.ofList_toList]
      exact .of_select typed
    rw [lexemes, List.forall_mem_append, List.forall_mem_cons, List.forall_mem_singleton]
    exact ⟨known_lexemes words inner vector, trivial, selected⟩

theorem known_lexemesAll (words : ∀ {name type}, scope name = some type → IsWord names name) :
    (codes : List Code) → ∀ {types}, Expression.evalAll .types scope (expressions codes) = some types →
      ∀ lexeme ∈ lexemesAll codes, lexeme.IsKnown names
  | [], _, _ => nofun
  | code :: rest, _, typed => by
    obtain ⟨_, first, others⟩ := Option.bind_eq_some_iff.1 typed
    obtain ⟨_, others, -⟩ := Option.bind_eq_some_iff.1 others
    rw [lexemesAll, List.forall_mem_append]
    exact ⟨known_lexemes words code first, known_lexemesMore words rest others⟩

theorem known_lexemesMore (words : ∀ {name type}, scope name = some type → IsWord names name) :
    (codes : List Code) → ∀ {types}, Expression.evalAll .types scope (expressions codes) = some types →
      ∀ lexeme ∈ lexemesMore codes, lexeme.IsKnown names
  | [], _, _ => nofun
  | code :: rest, _, typed => by
    obtain ⟨_, first, others⟩ := Option.bind_eq_some_iff.1 typed
    obtain ⟨_, others, -⟩ := Option.bind_eq_some_iff.1 others
    rw [lexemesMore, List.forall_mem_cons, List.forall_mem_append]
    exact ⟨trivial, known_lexemes words code first, known_lexemesMore words rest others⟩

end

end Code

end NodeShader
