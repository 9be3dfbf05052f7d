import Mathlib.Logic.Equiv.Basic
import NodeShader.Proofs.Compile.Injection
import NodeShader.Proofs.Compile.LastStatement
import NodeShader.Proofs.Compile.Rewording
import NodeShader.Proofs.Compile.Variant

/-!
Ids are names and nothing else. A graph under other ids compiles to the same statements with other
identifiers, although identifiers are made from ids, and numbered when two ids give the same one.
-/

namespace NodeShader

namespace Typed

/-- The expression with other names. -/
def rename (image : String → String) (x : Typed) : Typed := ⟨x.code.rename image, x.type⟩

end Typed

namespace Statement

variable {image : String → String} {before : List Statement} {statement : Statement}

/-- The statement with other identifiers. -/
def rename (image : String → String) : Statement → Statement
  | .declare identifier value => .declare (image identifier) (value.rename image)
  | .output color => .output (color.rename image)

theorem declarations_rename (image : String → String) (statements : List Statement) :
    (declarations (statements.map (rename image))).map (·.1) =
      ((declarations statements).map (·.1)).map image := by
  induction statements with
  | nil => rfl
  | cons statement rest ih =>
    cases statement with
    | declare identifier value => exact congrArg (image identifier :: ·) ih
    | output color => exact ih

/-- The text of a statement with other identifiers is its text with other words. -/
theorem text_rename (rewords : Rewords image) (fits : statement.Fits)
    (typed : IsTyped before statement) :
    (statement.rename image).text = mapWords image statement.text := by
  obtain ⟨expression, read, -, known⟩ := typed
  rw [Expression.read?_render fits.source] at read
  cases read
  have source := Code.render_rename rewords statement.source fits.source known
  apply String.toList_injective
  rw [mapWords, String.toList_ofList]
  cases statement with
  | output color =>
    have shape (color : Code) : (Statement.output color).text.toList =
        "final_color".toList ++ ' ' :: '=' :: ' ' :: (color.render.toList ++ [';']) := by
      simp [text]
    have target : mapRuns image "final_color".toList = "final_color".toList :=
      rewords.mapRuns_keyword (by decide) (by decide)
    have color_source : (color.rename image).render.toList = mapRuns image color.render.toList :=
      source
    rw [rename, shape, shape, color_source]
    simp (disch := decide) only [rewords.mapRuns_mark, rewords.mapRuns_cons, mapRuns_nil, target]
  | declare identifier value =>
    have shape (identifier : String) (value : Typed) :
        (Statement.declare identifier value).text.toList =
          "let".toList ++ ' ' :: (identifier.toList ++ ':' :: ' ' :: (value.type.name.toList ++
            ' ' :: '=' :: ' ' :: (value.code.render.toList ++ [';']))) := by
      simp [text, Typed.text]
    have keyword : mapRuns image "let".toList = "let".toList :=
      rewords.mapRuns_keyword (by decide) (by decide)
    have type : mapRuns image value.type.name.toList = value.type.name.toList := by
      apply rewords.mapRuns_keyword <;> cases value.type <;> decide
    have name : mapRuns image identifier.toList = (image identifier).toList := by
      rcases Lexeme.isName_iff.1 fits.1.isName with ⟨c, others, same, -, words⟩
      rw [rewords.mapRuns_word (same ▸ words), String.ofList_toList]
    have value_source : (value.rename image).code.render.toList =
        mapRuns image value.code.render.toList := source
    rw [rename, shape, shape, value_source]
    simp (disch := decide) only [rewords.mapRuns_mark, rewords.mapRuns_cons, mapRuns_nil, keyword,
      type, name]
    rfl

end Statement

/-- The contribution with other names. -/
def Emission.rename (image : String → String) : Emission → Emission
  | .value x => .value (x.rename image)
  | .color code => .color (code.rename image)

namespace Node

variable {name : String → String}

/-- The node under another id, reading from the ids that go for those it read from. -/
def renamed (name : String → String) (node : Node) : Node :=
  { node with id := name node.id, inputs := node.inputs.map (·.map name) }

theorem kind_renamed (name : String → String) (node : Node) :
    (node.renamed name).kind = node.kind := rfl

theorem input?_renamed (injective : Function.Injective name) (blank : name "" = "") (node : Node)
    (slot : Nat) : (node.renamed name).input? slot = (node.input? slot).map name := by
  have empty (id : String) : (name id).isEmpty = id.isEmpty := by
    rw [Bool.eq_iff_iff, String.isEmpty_iff, String.isEmpty_iff, ← blank, injective.eq_iff, blank]
  have own (id : String) : (name id == name node.id) = (id == node.id) := by
    rw [Bool.eq_iff_iff, beq_iff_eq, beq_iff_eq, injective.eq_iff]
  simp only [input?, renamed, List.getElem?_map]
  rcases node.inputs[slot]? with _ | _ | id
  · rfl
  · rfl
  · simp only [Option.map_some, empty, own]
    split <;> rfl

/-- Other names in the slots of a node give it the same code with other names. -/
theorem compile_rename {image : String → String} (rewords : Rewords image) {inputs others : Inputs}
    (declared : inputs.AreDeclared)
    (found : ∀ slot, others.find? slot = (inputs.find? slot).map (Typed.rename image)) {node : Node}
    {emission : Emission} (compiled : (node.compile inputs .lenient).result = .ok emission) :
    (node.compile others .lenient).result = .ok (emission.rename image) := by
  have parallel := Code.parallel_rename rewords.isWord
  have related (slot : Nat) : Option.Rel (Typed.Stands (Code.rename image) fun code => code)
      (inputs.find? slot) (others.find? slot) := by
    rw [found]
    cases here : inputs.find? slot with
    | none => exact .none
    | some x =>
      rcases declared slot x here with ⟨identifier, type, rfl, proper⟩
      have literal := Typed.literal?_name proper.isName type
      have literal' := Typed.literal?_name (rewords.proper identifier proper).isName type
      exact .some ⟨rfl, literal.trans literal'.symm, rfl⟩
  have stand : inputs.Stand (Code.rename image) (fun code => code) others := {
    uv := congrArg Code.name (rewords.fixes_of_start "uv" (by decide))
    time := congrArg Code.name (rewords.fixes_of_start "u_time" (by decide))
    scalar := fun slot _ default =>
      Inputs.stands_getOr parallel related slot .f32 (Typed.stands_literal parallel default) }
  have colors (slot : Nat) :=
    (Inputs.stands_getOr parallel related slot .vec3f (Typed.stands_zero parallel .vec3f)).value
  obtain ⟨emission', compiled', stands⟩ := compile_parallel parallel stand colors compiled
  rw [compiled']
  cases stands with
  | @value x y type code =>
    rcases y with ⟨code', type'⟩
    cases type
    cases code
    rfl
  | color same =>
    cases same
    rfl

/-- An id is in no code. -/
theorem compile_renamed (name : String → String) (node : Node) (inputs : Inputs) :
    ((node.renamed name).compile inputs .lenient).result = (node.compile inputs .lenient).result := by
  have formula : ((node.renamed name).formula inputs .lenient).result =
      (node.formula inputs .lenient).result := by
    have text : (node.renamed name).formulaText = node.formulaText := rfl
    unfold Node.formula
    rw [text]
    split <;> rfl
  unfold compile
  rw [kind_renamed]
  cases node.kind with
  | expr => rw [Outcome.result_bind, Outcome.result_bind, formula]
  | _ => rfl

end Node

namespace Graph

variable {name : String → String} {graph : Graph} {output node : Node}

/-- The graph under other ids. -/
def renamed (name : String → String) (graph : Graph) : Graph :=
  { graph with nodes := graph.nodes.map (Node.renamed name) }

theorem find?_renamed (injective : Function.Injective name) (graph : Graph) (id : String) :
    (graph.renamed name).find? (name id) = (graph.find? id).map (Node.renamed name) := by
  have named (node : Node) : ((node.renamed name).id == name id) = (node.id == id) := by
    rw [Bool.eq_iff_iff, beq_iff_eq, beq_iff_eq, Node.renamed, injective.eq_iff]
  simp only [find?, renamed, List.find?_map, Function.comp_def, named]

theorem renamed_isImage (injective : Function.Injective name) (blank : name "" = "")
    (graph : Graph) : (graph.renamed name).IsImage graph name (Node.renamed name) where
  nodes := rfl
  id _ := rfl
  injective := injective
  feeds node slot := by
    rw [feeder?, feeder?, Node.input?_renamed injective blank]
    cases node.input? slot with
    | none => rfl
    | some id => exact find?_renamed injective graph id
  slots node := by simp [Node.renamed]

theorem output?_renamed (injective : Function.Injective name) (blank : name "" = "")
    (graph : Graph) : (graph.renamed name).output? = graph.output?.map (Node.renamed name) := by
  have outputs : (graph.renamed name).nodes.filter (·.kind.isOutput) =
      (graph.nodes.filter (·.kind.isOutput)).map (Node.renamed name) := List.filter_map
  rw [output?_eq, output?_eq, outputs]
  apply lastOutput?_map
  intro node
  rw [Node.input?_renamed injective blank, Option.isSome_map]

end Graph

namespace Identifiers

variable {name : String → String} {identifiers others : Identifiers} {id word : String}

/-- What goes for an identifier when ids are renamed: the identifier of the id that goes for its
owner. -/
def translate (identifiers : Identifiers) (name : String → String) (others : Identifiers)
    (word : String) : String :=
  ((identifiers.owner? word).bind fun id => others.given? (name id)).getD word

theorem translate_unowned (unowned : identifiers.owner? word = none) :
    identifiers.translate name others word = word := by
  rw [translate, unowned]
  rfl

/-- Identifiers of the same values under two sets of ids. -/
structure Corresponds (name : String → String) (identifiers others : Identifiers) : Prop where
  exclusive : identifiers.Exclusive
  exclusive' : others.Exclusive
  given : ∀ id, (identifiers.given? id).isSome = (others.given? (name id)).isSome
  proper : ∀ id word, identifiers.given? id = some word → IsProper word
  proper' : ∀ id word, others.given? id = some word → IsProper word

namespace Corresponds

variable (same : identifiers.Corresponds name others)

include same

theorem given_translate (given : identifiers.given? id = some word) :
    others.given? (name id) = some (identifiers.translate name others word) := by
  have owner := (same.exclusive id word).1 given
  have known := same.given id
  rw [given] at known
  rcases Option.isSome_iff_exists.1 known.symm with ⟨word', given'⟩
  rw [translate, owner, Option.bind_some, given', Option.getD_some]

/-- Under its new name an id has the translation of its identifier, if it has one. -/
theorem given?_eq (id : String) : others.given? (name id) =
    (identifiers.given? id).map (identifiers.translate name others) := by
  cases given : identifiers.given? id with
  | none =>
    have known := same.given id
    rw [given] at known
    exact Option.not_isSome_iff_eq_none.1 (by simp [← known])
  | some word => exact same.given_translate given

theorem rewords : Rewords (identifiers.translate name others) where
  proper word proper := by
    cases owner : identifiers.owner? word with
    | none => rwa [translate_unowned owner]
    | some id => exact same.proper' _ _ (same.given_translate ((same.exclusive id word).2 owner))
  fixes word other := by
    cases owner : identifiers.owner? word with
    | none => exact translate_unowned owner
    | some id => exact absurd (same.proper id word ((same.exclusive id word).2 owner)) other

/-- No two identifiers of values have the same translation. -/
theorem injOn (injective : Function.Injective name) :
    Set.InjOn (identifiers.translate name others)
      {word | ∃ id, identifiers.given? id = some word} := by
  intro word given word' given' alike
  rcases given with ⟨id, given⟩
  rcases given' with ⟨id', given'⟩
  have first := (same.exclusive' _ _).1 (same.given_translate given)
  have second := (same.exclusive' _ _).1 (same.given_translate given')
  rw [alike, second] at first
  have same_id := injective (Option.some.inj first)
  rw [same_id, given] at given'
  exact Option.some.inj given'

end Corresponds

end Identifiers

namespace Draft

variable {graph : Graph} {options : Options} {output : Node} {draft : Draft}

/-- What goes for the identifiers of a draft in the draft under other ids. -/
def translation (name : String → String) (draft draft' : Draft) : String → String :=
  draft.identifiers.translate name draft'.identifiers

theorem run_exclusive (drafted : graph.drafts options output = .ok draft) :
    draft.identifiers.Exclusive := by
  refine Graph.drafts_invariant (fun _ draft => draft.identifiers.Exclusive) ?_
    Identifiers.exclusive_empty drafted
  intro before node after draft next _ exclusive added
  cases added with
  | skip => exact exclusive
  | color => exact exclusive
  | value _ _ _ allocated => exact exclusive.allocate allocated

theorem run_proper (drafted : graph.drafts options output = .ok draft) {id identifier : String}
    (given : draft.identifiers.given? id = some identifier) : Identifiers.IsProper identifier :=
  (Graph.drafts_bind drafted).proper (Graph.drafts_knows drafted) given

/-- What was given is what was declared. -/
theorem mem_declared_iff (drafted : graph.drafts options output = .ok draft) {identifier : String} :
    identifier ∈ (Statement.declarations draft.statements).map (·.1) ↔
      ∃ id, draft.identifiers.given? id = some identifier := by
  have written := Graph.drafts_emit drafted
  constructor
  · intro declared
    obtain ⟨declaration, listed, rfl⟩ := List.mem_map.1 declared
    obtain ⟨statement, member, declares⟩ := List.mem_filterMap.1 listed
    obtain ⟨node, -, emits⟩ := exists_left written member
    cases emits with
    | declare compiled given =>
      cases declares
      exact ⟨node.id, given⟩
    | output => cases declares
  · intro owned
    rcases owned with ⟨id, given⟩
    obtain ⟨node, listed, proper, rfl⟩ :=
      ((Graph.drafts_knows drafted).given id).1 (by rw [given]; rfl)
    have emitting : node ∈ (graph.orderFor output).emitting output :=
      List.mem_filter.2 ⟨listed, by simp [Node.emits, proper]⟩
    obtain ⟨statement, member, emits⟩ := exists_left written.flip emitting
    cases emits with
    | @declare identifier' value compiled given' =>
      rw [given] at given'
      cases given'
      exact List.mem_map.2 ⟨_, List.mem_filterMap.2 ⟨_, member, rfl⟩, rfl⟩
    | output compiled =>
      rw [Node.isOutput_of_color compiled] at proper
      cases proper

end Draft

namespace Graph

variable {name : String → String} {graph : Graph} {output node : Node} {draft draft' : Draft}

/-- The drafts of a graph and of the graph under other ids. -/
structure Drafted (name : String → String) (graph : Graph) (output : Node) (draft draft' : Draft) :
    Prop where
  injective : Function.Injective name
  blank : name "" = ""
  drafted : graph.drafts .lenient output = .ok draft
  drafted' : (graph.renamed name).drafts .lenient (output.renamed name) = .ok draft'

namespace Drafted

variable (both : Drafted name graph output draft draft')

include both

theorem orderFor : (graph.renamed name).orderFor (output.renamed name) =
    (graph.orderFor output).map name (Node.renamed name) :=
  (renamed_isImage both.injective both.blank graph).orderFor output

theorem corresponds : draft.identifiers.Corresponds name draft'.identifiers where
  exclusive := Draft.run_exclusive both.drafted
  exclusive' := Draft.run_exclusive both.drafted'
  given id := by
    rw [Bool.eq_iff_iff, (drafts_knows both.drafted).given, (drafts_knows both.drafted').given,
      both.orderFor]
    simp only [Order.map, List.mem_map, exists_exists_and_eq_and, Node.kind_renamed]
    refine exists_congr fun node => and_congr_right fun _ => and_congr_right fun _ => ?_
    exact both.injective.eq_iff.symm
  proper _ _ := Draft.run_proper both.drafted
  proper' _ _ := Draft.run_proper both.drafted'

theorem reference? (target : Node) : draft'.reference? (target.renamed name) =
    (draft.reference? target).map (Typed.rename (draft.translation name draft')) := by
  have id : (target.renamed name).id = name target.id := rfl
  simp only [Draft.reference?, id, Node.kind_renamed, both.corresponds.given?_eq]
  cases draft.identifiers.given? target.id with
  | none => rfl
  | some identifier => cases target.kind.outputType? <;> rfl

/-- What a slot reads under other ids is what it reads, under another identifier. -/
theorem find? (member : node ∈ (graph.orderFor output).nodes) (slot : Nat) :
    (draft'.inputs ((graph.renamed name).orderFor (output.renamed name)) (node.renamed name)).find?
        slot =
      ((draft.inputs (graph.orderFor output) node).find? slot).map
        (Typed.rename (draft.translation name draft')) := by
  have member' : node.renamed name ∈ ((graph.renamed name).orderFor (output.renamed name)).nodes := by
    rw [both.orderFor]
    exact List.mem_map_of_mem member
  have image := renamed_isImage both.injective both.blank graph
  rw [drafts_find? both.drafted member, drafts_find? both.drafted' member', both.orderFor,
    image.source? (Node.kind_renamed name), Option.bind_map, Option.map_bind]
  apply Option.bind_congr
  intro target _
  exact both.reference? target

/-- A node has the same statement under other ids, with other identifiers. -/
theorem emits (member : node ∈ (graph.orderFor output).nodes) {statement : Statement}
    (emits : draft.Emits .lenient (graph.orderFor output) node statement) :
    draft'.Emits .lenient ((graph.renamed name).orderFor (output.renamed name)) (node.renamed name)
      (statement.rename (draft.translation name draft')) := by
  have rewords : Rewords (draft.translation name draft') := both.corresponds.rewords
  have declared := (drafts_bind both.drafted).declared (graph.orderFor output) node
  cases emits with
  | declare compiled given =>
    have compiled' := Node.compile_rename rewords declared (both.find? member) compiled
    rw [← Node.compile_renamed name] at compiled'
    exact .declare compiled' (both.corresponds.given_translate given)
  | output compiled =>
    have compiled' := Node.compile_rename rewords declared (both.find? member) compiled
    rw [← Node.compile_renamed name] at compiled'
    exact .output compiled'

theorem emitting : ((graph.renamed name).orderFor (output.renamed name)).emitting
    (output.renamed name) = ((graph.orderFor output).emitting output).map (Node.renamed name) := by
  have emits (node : Node) : (node.renamed name).emits (output.renamed name) = node.emits output := by
    have other : ((node.renamed name).id != (output.renamed name).id) = (node.id != output.id) := by
      rw [Bool.eq_iff_iff, bne_iff_ne, bne_iff_ne]
      exact both.injective.ne_iff
    rw [Node.emits, Node.emits, Node.kind_renamed, other]
  rw [Order.emitting, Order.emitting, both.orderFor, Order.map, List.filter_map]
  simp only [Function.comp_def, emits]

/-- Under other ids the statements are the same with other identifiers. -/
theorem statements : draft'.statements =
    draft.statements.map (Statement.rename (draft.translation name draft')) := by
  have written := drafts_emit both.drafted
  have written' := drafts_emit both.drafted'
  rw [both.emitting] at written'
  have carried : List.Forall₂
      (draft'.Emits .lenient ((graph.renamed name).orderFor (output.renamed name)))
      (((graph.orderFor output).emitting output).map (Node.renamed name))
      (draft.statements.map (Statement.rename (draft.translation name draft'))) := by
    rw [List.forall₂_map_left_iff, List.forall₂_map_right_iff]
    apply ((List.forall₂_and_left _ _).2 ⟨fun _ member => member, written⟩).imp
    intro node statement here
    rcases here with ⟨inside, emits⟩
    exact both.emits (List.mem_filter.1 inside).1 emits
  exact Draft.Emits.all_unique written' carried

end Drafted

theorem fallback_renamed (name : String → String) (graph : Graph) :
    (graph.renamed name).shader = .fallback ↔ graph.shader = .fallback := by
  rw [shader_eq_fallback_iff, shader_eq_fallback_iff, renamed, List.forall_mem_map]
  exact Iff.rfl

/-- With other words, the texts of the statements are those under other ids. -/
theorem Drafted.texts (both : Drafted name graph output draft draft')
    (body : graph.shader = .body draft.statements) : draft'.statements.map Statement.text =
      draft.statements.map fun statement =>
        mapWords (draft.translation name draft') statement.text := by
  have compiled := compile_shader graph
  rw [body] at compiled
  have fits := compile_fits compiled
  obtain ⟨_, _, -, ran, -⟩ := compile_runs_typed compiled
  rw [both.statements, List.map_map]
  refine List.map_congr_left fun statement member => ?_
  rcases List.append_of_mem member with ⟨before, after, split⟩
  have typed := (Statement.areTyped_of_runAll ran).typed before statement after split
  exact Statement.text_rename both.corresponds.rewords (fits statement member) typed

/-- Under other ids a graph has the fallback if it had it, and otherwise as many statements. There is
a map that takes the identifiers one to one to those under the other ids, and no other word to
another one, and each statement is the one before with every word replaced by its image. -/
theorem shader_renamed (graph : Graph) (name : String → String) (injective : Function.Injective name)
    (blank : name "" = "") :
    ((graph.renamed name).shader.text = Program.fallback ↔ graph.shader.text = Program.fallback) ∧
      ∀ statements, graph.shader = .body statements → ∃ statements' image,
        (graph.renamed name).shader = .body statements' ∧
        (Statement.declarations statements').map (·.1) =
          ((Statement.declarations statements).map (·.1)).map image ∧
        Set.InjOn image {word | word ∈ (Statement.declarations statements).map (·.1)} ∧
        (∀ word, word ∉ (Statement.declarations statements).map (·.1) → image word = word) ∧
        statements'.map Statement.text =
          statements.map fun statement => mapWords image statement.text := by
  refine ⟨?_, fun statements body => ?_⟩
  · rw [Shader.text_eq_fallback_iff, Shader.text_eq_fallback_iff, fallback_renamed]
  have compiled := compile_shader graph
  rw [body] at compiled
  obtain ⟨output, draft, selected, drafted, rfl⟩ := compile_body compiled
  have selected' : (graph.renamed name).output? = some (output.renamed name) := by
    rw [output?_renamed injective blank, selected]
    rfl
  obtain ⟨first, found⟩ := exists_first (output?_mem selected').1
  obtain ⟨draft', drafted', body'⟩ := shader_drafted selected' found
  have both : Drafted name graph output draft draft' := ⟨injective, blank, drafted, drafted'⟩
  refine ⟨draft'.statements, draft.translation name draft', body', ?_, ?_, fun word undeclared => ?_,
    both.texts body⟩
  · rw [both.statements, Statement.declarations_rename]
  · exact (both.corresponds.injOn injective).mono fun word => (Draft.mem_declared_iff drafted).1
  · rw [Draft.mem_declared_iff drafted] at undeclared
    apply Identifiers.translate_unowned
    by_contra owned
    obtain ⟨id, owner⟩ := Option.ne_none_iff_exists'.1 owned
    exact undeclared ⟨id, (both.corresponds.exclusive id word).2 owner⟩

/-- Two values of the loop under ids that give the same identifier. -/
def exclaimed : String → String := Equiv.swap "y" "x!" ∘ Equiv.swap "e" "x?"

theorem loop_renamed : Function.Injective exclaimed ∧ exclaimed "" = "" ∧
    ∃ statements statements' image, loop.shader = .body statements ∧
      (loop.renamed exclaimed).shader = .body statements' ∧
      statements'.map Statement.text = [
        "let n_x_: vec3f = clamp(vec3f(0.0, 0.0, 0.0), vec3f(0.0), vec3f(1.0));",
        "let n_x__2: f32 = (sin(((n_x_.x + n_x_.y + n_x_.z) / 3.0)) + 0.0);",
        "let n_x: vec3f = n_x_ + vec3f(n_x__2);",
        "final_color = n_x;"] ∧
      statements'.map Statement.text =
        statements.map fun statement => mapWords image statement.text := by
  have injective : Function.Injective exclaimed := (Equiv.injective _).comp (Equiv.injective _)
  have blank : exclaimed "" = "" := by decide
  rcases loop_body with ⟨statements, compiled, -⟩
  have body : loop.shader = .body statements := by
    rw [compile_shader] at compiled
    exact Except.ok.inj compiled
  obtain ⟨statements', image, body', -, -, -, texts⟩ :=
    (shader_renamed loop exclaimed injective blank).2 statements body
  have written : ((loop.renamed exclaimed).compile .lenient).result.toOption.bind Shader.texts? =
      some (statements'.map Statement.text) := by
    rw [compile_shader, body']
    rfl
  refine ⟨injective, blank, statements, statements', image, body, body', ?_, texts⟩
  refine Option.some.inj (written.symm.trans ?_)
  decide +kernel

end Graph

end NodeShader
