import NodeShader.Proofs.Compile.Constants
import NodeShader.Proofs.Compile.WellTyped
import NodeShader.Proofs.Wgsl.Vocabulary

/-!
No text of a graph gets into a program: ids, kinds and formulas are arbitrary, but every statement
is a declaration or the color of the fragment, and made of known words.
-/

namespace NodeShader

/-- Texts of expressions, given the names that were declared: they are lexed to the end, with a
symbol between any two words, and all that is found is known. -/
def IsSource (names : List String) (text : String) : Prop :=
  ∃ lexemes, Lexeme.all text.toList = .ok lexemes ∧ lexemes.IsChain Lexeme.Apart ∧
    ∀ lexeme ∈ lexemes, lexeme.IsKnown names

/-- Texts of statements, given the names that were declared. -/
inductive IsStatement (names : List String) : String → Prop
  | declare {identifier source : String} (proper : Identifiers.IsProper identifier)
      (type : ValueType) (known : IsSource names source) :
      IsStatement names ("let " ++ identifier ++ ": " ++ type.name ++ " = " ++ source ++ ";")
  | output {source : String} (known : IsSource names source) :
      IsStatement names ("final_color = " ++ source ++ ";")

/-- Texts of few characters with one semicolon, at the end, and without comments. -/
structure IsSingle (text : String) : Prop where
  ends : ∃ front, text.toList = front ++ [';'] ∧ ';' ∉ front ∧ ∀ c ∈ front, isTextChar c = true
  uncommented : ∀ c, c ≠ ' ' → ¬ ['/', c] <:+: text.toList

namespace Statement

/-- Statements that declare proper identifiers, with codes that fit the grammar. -/
def Fits : Statement → Prop
  | .declare identifier value => Identifiers.IsProper identifier ∧ value.code.Fits
  | .output color => color.Fits

variable {statement : Statement} {before : List Statement}

theorem Fits.source (fits : statement.Fits) : statement.source.Fits := by
  cases statement with
  | declare => exact fits.2
  | output => exact fits

theorem proper_of_fits {statements : List Statement}
    (fits : ∀ statement ∈ statements, statement.Fits) :
    ∀ name ∈ (declarations statements).map (·.1), Identifiers.IsProper name := by
  intro name listed
  obtain ⟨declaration, declared, rfl⟩ := List.mem_map.1 listed
  obtain ⟨statement, member, same⟩ := List.mem_filterMap.1 declared
  have fit := fits statement member
  cases statement with
  | output => cases same
  | declare identifier value =>
    cases same
    exact fit.1

/-- The expression of a well typed statement is made of known lexemes. -/
theorem isSource_of_typed (fits : statement.Fits) (typed : IsTyped before statement) :
    IsSource ((declarations before).map (·.1)) statement.source.render := by
  obtain ⟨expression, read, -, known⟩ := typed
  rw [Expression.read?_render fits.source] at read
  cases read
  refine ⟨_, Lexeme.all_whole fits.source, statement.source.apart_lexemes,
    Code.known_lexemes ?_ statement.source known⟩
  intro name type known
  rcases typesAfter_declared known with rfl | rfl | declared
  · exact .uv
  · exact .time
  · exact .declared declared

theorem isStatement_of_typed (fits : statement.Fits) (typed : IsTyped before statement) :
    IsStatement ((declarations before).map (·.1)) statement.text := by
  have known := isSource_of_typed fits typed
  cases statement with
  | declare identifier value => exact .declare fits.1 value.type known
  | output color => exact .output known

theorem isSingle_of_plain {front : List Char} (plain : IsPlain front) {text : String}
    (same : text.toList = front ++ [';']) : IsSingle text where
  ends := ⟨front, same, plain.no_semicolon, plain.characters⟩
  uncommented c visible := by
    rw [same]
    exact (plain.spaced.append (.singleton _) plain.last).no_comment visible

theorem isSingle_of_fits (fits : statement.Fits) : IsSingle statement.text := by
  cases statement with
  | output color =>
    have target : IsPlain "final_color = ".toList := .of_slashless (by decide)
    have front := target.append (IsPlain.render color fits)
    exact isSingle_of_plain front (by simp [text])
  | declare identifier value =>
    have keyword : IsPlain "let ".toList := .of_slashless (by decide)
    have name := keyword.append (IsPlain.name fits.1.isName)
    have colon : IsPlain ": ".toList := .of_slashless (by decide)
    have type : IsPlain value.type.name.toList :=
      .of_slashless (by cases value.type <;> decide)
    have equals : IsPlain " = ".toList := .of_slashless (by decide)
    have source := IsPlain.render value.code fits.2
    have front := (((name.append colon).append type).append equals).append source
    exact isSingle_of_plain front (by simp [text, Typed.text])

end Statement

namespace Graph

variable {graph : Graph} {options : Options} {statements : List Statement}

theorem compile_fits (compiled : (graph.compile options).result = .ok (.body statements)) :
    ∀ statement ∈ statements, statement.Fits := by
  rcases compile_body compiled with ⟨output, draft, -, drafted, rfl⟩
  have knows := drafts_knows drafted
  have binds := drafts_bind drafted
  have emitted := drafts_emit drafted
  have each (node : Node) (statement : Statement)
      (emits : draft.Emits options (graph.orderFor output) node statement) : statement.Fits := by
    have fit := (binds.declared (graph.orderFor output) node).fit
    cases emits with
    | declare compiled given => exact ⟨binds.proper knows given, Node.fits_compile fit compiled⟩
    | output compiled => exact Node.fits_compile fit compiled
  have fitting := emitted.flip.imp fun statement node emits =>
    And.intro (each node statement emits) emits
  exact ((List.forall₂_and_left _ _).1 fitting).1

/-- A program is the fixed text with one line for each statement. Every statement is a declaration
of a proper identifier with a type, or the color; its semicolon is at its end, it has no comment, and
its expression is made of symbols, of finite float literals, and of words that the language or an
earlier statement knows. -/
theorem compile_uninjected
    (compiled : (graph.compile options).result = .ok (.body statements)) :
    (Shader.body statements).text = Program.header ++
        String.join (statements.map fun statement => "    " ++ statement.text ++ "\n") ++
        Program.footer ∧
      (∀ name ∈ (Statement.declarations statements).map (·.1), Identifiers.IsProper name) ∧
      ∀ before statement after, statements = before ++ statement :: after →
        IsStatement ((Statement.declarations before).map (·.1)) statement.text ∧
          IsSingle statement.text := by
  have fits := compile_fits compiled
  refine ⟨?_, Statement.proper_of_fits fits, ?_⟩
  · simp [Shader.text, Program.text, Program.joinLines, Function.comp_def]
  · intro before statement after split
    have fit := fits statement (by simp [split])
    obtain ⟨_, _, -, ran, -⟩ := compile_runs_typed compiled
    have typed := (Statement.areTyped_of_runAll ran).typed before statement after split
    exact ⟨Statement.isStatement_of_typed fit typed, Statement.isSingle_of_fits fit⟩

/-- Ids, a number and a formula that would be more than words if they were copied. -/
def hostile : Graph where
  nodes := [
    ⟨"out", "OutputFinal", [some "x = 1;\n// \u00e9"], []⟩,
    ⟨"x = 1;\n// \u00e9", "Expr", [some "n_x"], [("expr", .string "1 / 0 - a * uv.x")]⟩,
    ⟨"n_x", "ConstFloat", [], [("value", .string "*/ inf")]⟩]
  wires := []

theorem hostile_body : ∃ statements,
    (hostile.compile .lenient).result = .ok (.body statements) ∧
      statements.map Statement.text = [
        "let n_n_x: f32 = 0.0;",
        "let n_x___1______: f32 = (0.0 - (n_n_x * uv.x));",
        "final_color = vec3f(n_x___1______);"] :=
  exists_body (by decide +kernel)

theorem hostile_uninjected : ∃ statements,
    (hostile.compile .lenient).result = .ok (.body statements) ∧
      ∀ before statement after, statements = before ++ statement :: after →
        IsStatement ((Statement.declarations before).map (·.1)) statement.text ∧
          IsSingle statement.text := by
  rcases hostile_body with ⟨statements, compiled, -⟩
  rcases compile_uninjected compiled with ⟨-, -, each⟩
  exact ⟨statements, compiled, each⟩

end Graph

end NodeShader
