import Mathlib.Data.List.SplitBy
import NodeShader.Proofs.Compile.Fitting
import NodeShader.Proofs.Formula.Substitution
import NodeShader.Proofs.Wgsl.Vocabulary

/-!
Other identifiers for the same values: in a code, and in its text. A text is taken apart into its
words and the characters between them, and whole words are replaced.
-/

namespace NodeShader

/-- The words of a text as far as they go; every character that is not in a word stands alone. -/
def wordRuns (text : List Char) : List (List Char) :=
  text.splitBy fun c next => Code.isWordChar c && Code.isWordChar next

theorem wordRuns_mark (front back : List Char) {mark : Char} (other : Code.isWordChar mark = false) :
    wordRuns (front ++ mark :: back) = wordRuns front ++ [mark] :: wordRuns back := by
  have ends : wordRuns (mark :: back) = [mark] :: wordRuns back := by
    have parted := List.splitBy_append (l := [mark]) (m := back)
      (r := fun c next => Code.isWordChar c && Code.isWordChar next) (by simp [other])
    exact parted
  rw [← ends]
  exact List.splitBy_append_cons back (by simp [other])

theorem wordRuns_word {text : List Char} (some_text : text ≠ [])
    (words : ∀ c ∈ text, Code.isWordChar c = true) : wordRuns text = [text] := by
  have joined : text.IsChain fun c next => (Code.isWordChar c && Code.isWordChar next) = true := by
    refine List.Pairwise.isChain (List.pairwise_of_forall_mem_list ?_)
    intro c member next member'
    rw [words c member, words next member']
    rfl
  exact List.splitBy_of_isChain some_text joined

def mapRuns (image : String → String) (text : List Char) : List Char :=
  (wordRuns text).flatMap fun run => (image (String.ofList run)).toList

@[simp]
theorem mapRuns_nil (image : String → String) : mapRuns image [] = [] := rfl

/-- The text with each word replaced as a whole. -/
def mapWords (image : String → String) (text : String) : String :=
  String.ofList (mapRuns image text.toList)

/-- Maps that exchange identifiers of values for others, and leave other words as they are. -/
structure Rewords (image : String → String) : Prop where
  proper : ∀ word, Identifiers.IsProper word → Identifiers.IsProper (image word)
  fixes : ∀ word, ¬ Identifiers.IsProper word → image word = word

theorem Identifiers.IsProper.start {word : String} (proper : IsProper word) :
    word.toList.take 2 = ['n', '_'] := by
  rcases proper with ⟨others, text, -⟩
  rw [text]
  rfl

theorem Identifiers.IsProper.isWord {word : String} (proper : IsProper word) :
    Code.isWord word = true := by
  rcases proper with ⟨others, text, words⟩
  have some_word : word ≠ "" := by
    intro empty
    subst empty
    cases text
  simpa [Code.isWord, text, some_word, Code.isWordChar] using words

namespace Rewords

variable {image : String → String} (rewords : Rewords image)

include rewords

theorem fixes_of_start (word : String) (start : word.toList.take 2 ≠ ['n', '_']) :
    image word = word :=
  rewords.fixes word fun proper => start proper.start

theorem isWord (word : String) : Code.isWord (image word) = Code.isWord word := by
  by_cases proper : Identifiers.IsProper word
  · rw [proper.isWord, (rewords.proper word proper).isWord]
  · rw [rewords.fixes word proper]

end Rewords

namespace Rewords

variable {image : String → String} {text front back : List Char} {mark : Char}
  (rewords : Rewords image)

include rewords

/-- What is on one side of a mark is replaced apart from what is on the other side. -/
theorem mapRuns_mark (front back : List Char) (other : Code.isWordChar mark = false) :
    mapRuns image (front ++ mark :: back) = mapRuns image front ++ mark :: mapRuns image back := by
  have alone : (image (String.ofList [mark])).toList = [mark] := by
    rw [rewords.fixes_of_start _ (by simp), String.toList_ofList]
  rw [mapRuns, wordRuns_mark front back other, List.flatMap_append, List.flatMap_cons, alone]
  rfl

theorem mapRuns_cons (back : List Char) (other : Code.isWordChar mark = false) :
    mapRuns image (mark :: back) = mark :: mapRuns image back :=
  rewords.mapRuns_mark [] back other

/-- A word is replaced as a whole. -/
theorem mapRuns_word (words : ∀ c ∈ text, Code.isWordChar c = true) :
    mapRuns image text = (image (String.ofList text)).toList := by
  by_cases empty : text = []
  · subst empty
    rw [mapRuns_nil, rewords.fixes_of_start _ (by simp)]
    rfl
  · rw [mapRuns, wordRuns_word empty words, List.flatMap_singleton]

/-- A word that is no identifier stays as it is. -/
theorem mapRuns_keyword (words : text.all Code.isWordChar = true)
    (start : text.take 2 ≠ ['n', '_']) : mapRuns image text = text := by
  rw [rewords.mapRuns_word (List.all_eq_true.1 words), rewords.fixes_of_start _ (by rwa [String.toList_ofList]),
    String.toList_ofList]

/-- Texts without an identifier stay as they are. -/
theorem mapRuns_unnamed (unnamed : 'n' ∉ text) : mapRuns image text = text := by
  have same : ∀ run ∈ wordRuns text, (image (String.ofList run)).toList = run := by
    intro run member
    have fixed : image (String.ofList run) = String.ofList run := by
      refine rewords.fixes _ fun proper => unnamed ?_
      rcases proper with ⟨others, start, -⟩
      rw [String.toList_ofList] at start
      have inside : 'n' ∈ (wordRuns text).flatten :=
        List.mem_flatten.2 ⟨run, member, by simp [start]⟩
      rwa [wordRuns, List.flatten_splitBy] at inside
    rw [fixed, String.toList_ofList]
  rw [mapRuns, List.flatMap_def, List.map_congr_left same, List.map_id', wordRuns,
    List.flatten_splitBy]

end Rewords

example : mapWords (fun word => if word = "n_y" then "n_x_2" else word) "let n_y2: f32 = n_y.x;" =
    "let n_y2: f32 = n_x_2.x;" := by
  decide +kernel

namespace Code

mutual

/-- The code with other names. -/
def rename (image : String → String) : Code → Code
  | .literal value => .literal value
  | .name text => .name (image text)
  | .paren inner => .paren (rename image inner)
  | .negate inner => .negate (rename image inner)
  | .binary operator left right => .binary operator (rename image left) (rename image right)
  | .call function arguments => .call function (renameAll image arguments)
  | .member inner components => .member (rename image inner) components

def renameAll (image : String → String) : List Code → List Code
  | [] => []
  | code :: rest => rename image code :: renameAll image rest

end

theorem renameAll_eq (image : String → String) (codes : List Code) :
    renameAll image codes = codes.map (rename image) := by
  induction codes with
  | nil => rfl
  | cons code rest ih => rw [renameAll, ih, List.map_cons]

variable {image : String → String}

theorem isWord_of_mark {text : String} (mark : Char) (member : mark ∈ text.toList)
    (other : isWordChar mark = false) : isWord text = false := by
  rw [isWord, Bool.and_eq_false_iff]
  refine .inr (Bool.eq_false_iff.2 fun words => ?_)
  rw [List.all_eq_true.1 words mark member] at other
  cases other

/-- Renaming makes no word of what is none. -/
theorem isWord_render_rename (words : ∀ word, isWord (image word) = isWord word) (code : Code) :
    isWord (code.rename image).render = isWord code.render := by
  cases code with
  | literal value => rfl
  | name text => exact words text
  | paren inner =>
    rw [isWord_of_mark '(' (by simp [rename, render]) (by decide),
      isWord_of_mark '(' (by simp [render]) (by decide)]
  | negate inner =>
    rw [isWord_of_mark '-' (by simp [rename, render]) (by decide),
      isWord_of_mark '-' (by simp [render]) (by decide)]
  | binary operator left right =>
    rw [isWord_of_mark ' ' (by simp [rename, render]) (by decide),
      isWord_of_mark ' ' (by simp [render]) (by decide)]
  | call function arguments =>
    rw [isWord_of_mark '(' (by simp [rename, render]) (by decide),
      isWord_of_mark '(' (by simp [render]) (by decide)]
  | member inner components =>
    rw [isWord_of_mark '.' (by simp [rename, render]) (by decide),
      isWord_of_mark '.' (by simp [render]) (by decide)]

theorem rename_select (words : ∀ word, isWord (image word) = isWord word) (code : Code)
    (components : String) :
    (code.select components).rename image = (code.rename image).select components := by
  unfold select
  rw [isWord_render_rename words]
  split <;> rfl

/-- Codes and the same codes with other names are made of codes in the same way. -/
theorem parallel_rename (words : ∀ word, isWord (image word) = isWord word) :
    Parallel (rename image) fun code => code where
  literal _ := rfl
  paren same := congrArg paren same
  negate same := congrArg negate same
  binary operator _ _ _ _ same same' := congrArg₂ (binary operator) same same'
  call function _ _ same := by
    rw [rename, renameAll_eq, same, List.map_id']
  select components _ _ same := by rw [rename_select words, same]

end Code

theorem IsWord.start {word : String} (known : IsWord [] word) :
    word.toList.take 2 ≠ ['n', '_'] := by
  cases known with
  | uv | time => decide
  | declared member => cases member
  | constructor type => cases type <;> decide
  | function function => cases function <;> decide
  | @components letters _ _ axes =>
    intro start
    have member : 'n' ∈ letters := by
      rw [String.toList_ofList] at start
      exact List.mem_of_mem_take (start ▸ List.mem_cons_self)
    exact absurd (axes 'n' member) (by decide)

namespace Code

variable {image : String → String} {scope : String → Option ValueType}

theorem mapRuns_known (rewords : Rewords image) {word : String} (name : Lexeme.isName word = true)
    (known : IsWord [] word) : mapRuns image word.toList = word.toList := by
  rcases Lexeme.isName_iff.1 name with ⟨c, others, same, -, words⟩
  exact rewords.mapRuns_keyword (List.all_eq_true.2 (same ▸ words)) known.start

theorem mapRuns_literal (rewords : Rewords image) (value : F32) :
    mapRuns image value.literalText.toList = value.literalText.toList := by
  apply rewords.mapRuns_unnamed
  intro member
  obtain ⟨numeral, same⟩ := value.literalText_toList
  have digits : 'n' ∉ value.numeral.2 := by
    intro member
    rcases numeral.characters 'n' member with digit | mark
    · cases digit
    · exact absurd mark (by decide)
  rw [same] at member
  split at member
  · rcases List.mem_cons.1 member with minus | member
    · exact absurd minus (by decide)
    · exact digits member
  · exact digits member

mutual

/-- The text of a code with other names is its text with other words. -/
theorem render_rename (rewords : Rewords image) : (code : Code) → code.Fits → ∀ {type},
    code.eval .types scope = some type →
      (code.rename image).render.toList = mapRuns image code.render.toList
  | .literal value, _, _, _ => (mapRuns_literal rewords value).symm
  | .name text, fits, _, _ => by
    rcases Lexeme.isName_iff.1 fits with ⟨c, others, same, -, words⟩
    rw [rename, render, render, rewords.mapRuns_word (same ▸ words), String.ofList_toList]
  | .paren inner, fits, _, typed => by
    have inside := render_rename rewords inner fits typed
    simp (disch := decide) [rename, render, inside, rewords.mapRuns_cons, rewords.mapRuns_mark]
  | .negate inner, fits, _, typed => by
    obtain ⟨_, typed, -⟩ := Option.bind_eq_some_iff.1 typed
    have inside := render_rename rewords inner fits.1 typed
    simp (disch := decide) [rename, render, inside, rewords.mapRuns_cons]
  | .binary operator left right, fits, _, typed => by
    obtain ⟨_, typed, rest⟩ := Option.bind_eq_some_iff.1 typed
    obtain ⟨_, typed', -⟩ := Option.bind_eq_some_iff.1 rest
    have first := render_rename rewords left fits.1 typed
    have second := render_rename rewords right fits.2.1 typed'
    have symbol : isWordChar operator.symbol = false := by cases operator <;> decide
    simp (disch := first | exact symbol | decide) [rename, render, first, second,
      rewords.mapRuns_cons, rewords.mapRuns_mark]
  | .call function arguments, fits, _, typed => by
    obtain ⟨_, given, typed⟩ := Option.bind_eq_some_iff.1 typed
    have called := mapRuns_known rewords fits.1 (.of_call typed)
    have inside := renderAll_rename rewords arguments fits.2 given
    simp (disch := decide) [rename, render, inside, called, rewords.mapRuns_mark]
  | .member inner components, fits, _, typed => by
    obtain ⟨_, vector, typed⟩ := Option.bind_eq_some_iff.1 typed
    have selected := mapRuns_known rewords fits.2.2 (.of_select typed)
    have inside := render_rename rewords inner fits.1 vector
    simp (disch := decide) [rename, render, inside, selected, rewords.mapRuns_mark]

theorem renderAll_rename (rewords : Rewords image) : (codes : List Code) → FitsAll codes → ∀ {types},
    Expression.evalAll .types scope (expressions codes) = some types →
      (", ".intercalate (renderAll (renameAll image codes))).toList =
        mapRuns image (", ".intercalate (renderAll codes)).toList
  | [], _, _, _ => rfl
  | [code], fits, _, typed => by
    obtain ⟨_, first, -⟩ := Option.bind_eq_some_iff.1 typed
    simpa [renameAll, renderAll] using render_rename rewords code fits.1 first
  | code :: next :: codes, fits, _, typed => by
    obtain ⟨_, first, others⟩ := Option.bind_eq_some_iff.1 typed
    obtain ⟨_, others, -⟩ := Option.bind_eq_some_iff.1 others
    have here := render_rename rewords code fits.1 first
    have rest := renderAll_rename rewords (next :: codes) fits.2 others
    simp only [renderAll, renameAll, String.intercalate_cons_cons, String.toList_append] at rest ⊢
    rw [here, rest]
    simp (disch := decide) [rewords.mapRuns_mark, rewords.mapRuns_cons]

end

end Code

end NodeShader
