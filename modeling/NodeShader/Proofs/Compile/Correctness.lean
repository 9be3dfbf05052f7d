import NodeShader.Proofs.Compile.WellTyped

/-!
Compilation keeps the meaning of a graph: whatever the parts of the language mean, running the
fragment body computes the values of the nodes.
-/

namespace NodeShader

/-- A meaning of the parts of expressions: every operation has a result on all values. -/
structure Interpretation (V : Type) where
  uv : V
  time : V
  literal : List Char → V
  negate : V → V
  operate : Operator → V → V → V
  call : String → List V → V
  select : V → String → V

namespace Interpretation

variable {V : Type} (interpretation : Interpretation V)

def domain : Domain V where
  uv := interpretation.uv
  time := interpretation.time
  literal digits := some (interpretation.literal digits)
  negate x := some (interpretation.negate x)
  operate operator x y := some (interpretation.operate operator x y)
  call function arguments := some (interpretation.call function arguments)
  select vector components := some (interpretation.select vector components)
  suits _ _ := true

/-- The meaning that leaves expressions as they are. -/
def free : Interpretation Expression where
  uv := .name "uv"
  time := .name "u_time"
  literal := .literal
  negate := .negate
  operate := .binary
  call := .call
  select := .member

theorem number_total (x : F32) : ∃ value, interpretation.domain.number x = some value := by
  unfold Domain.number
  split <;> exact ⟨_, rfl⟩

theorem zero_total (type : ValueType) : ∃ value, interpretation.domain.zero type = some value := by
  rcases interpretation.number_total (.zero false) with ⟨zero, number⟩
  cases type with
  | f32 => exact ⟨zero, number⟩
  | vec2f | vec3f | vec4f =>
    unfold Domain.zero
    rw [number]
    exact ⟨_, rfl⟩

theorem mean_total (vector : V) (first : String) (rest : List String) :
    ∃ value, interpretation.domain.mean vector first rest = some value := by
  have sum (start : V) : ∃ sum, rest.foldlM (fun sum component => do
      interpretation.domain.operate .add sum (← interpretation.domain.select vector component))
      start = some sum := by
    induction rest generalizing start with
    | nil => exact ⟨start, rfl⟩
    | cons component rest ih => exact ih _
  rcases sum (interpretation.select vector first) with ⟨total, sum⟩
  rcases interpretation.number_total (.ofDecimal (rest.length + 1) 0) with ⟨count, number⟩
  have start : interpretation.domain.select vector first =
      some (interpretation.select vector first) := rfl
  refine ⟨interpretation.operate .div total count, ?_⟩
  rw [Domain.mean, number, start]
  simp only [Option.bind_eq_bind, Option.bind_some] at sum ⊢
  rw [sum]
  rfl

theorem convert_total (source target : ValueType) (value : V) :
    ∃ result, interpretation.domain.convert source target value = some result := by
  rcases interpretation.number_total (.ofDecimal 0 0) with ⟨zero, zero_number⟩
  rcases interpretation.number_total (.ofDecimal 1 0) with ⟨one, one_number⟩
  cases source with
  | f32 =>
    cases target with
    | f32 | vec2f | vec3f => exact ⟨_, rfl⟩
    | vec4f =>
      unfold Domain.convert
      rw [one_number]
      exact ⟨_, rfl⟩
  | vec2f =>
    cases target with
    | f32 => exact interpretation.mean_total value "x" ["y"]
    | vec2f => exact ⟨_, rfl⟩
    | vec3f =>
      unfold Domain.convert
      rw [zero_number]
      exact ⟨_, rfl⟩
    | vec4f =>
      unfold Domain.convert
      rw [zero_number, one_number]
      exact ⟨_, rfl⟩
  | vec3f =>
    cases target with
    | f32 => exact interpretation.mean_total value "x" ["y", "z"]
    | vec2f | vec3f => exact ⟨_, rfl⟩
    | vec4f =>
      unfold Domain.convert
      rw [one_number]
      exact ⟨_, rfl⟩
  | vec4f =>
    cases target with
    | f32 => exact interpretation.mean_total value "x" ["y", "z"]
    | vec2f | vec3f | vec4f => exact ⟨_, rfl⟩

mutual

/-- An expression whose names are known has a value. -/
theorem eval_total (scope : String → Option V) : (expression : Expression) →
    (∀ name ∈ expression.names, (scope name).isSome) →
    ∃ value, expression.eval interpretation.domain scope = some value
  | .literal digits, _ => ⟨interpretation.literal digits, rfl⟩
  | .name text, known => Option.isSome_iff_exists.1 (known text (List.mem_singleton_self text))
  | .negate operand, known => by
    rcases eval_total scope operand known with ⟨x, inner⟩
    exact ⟨_, Option.bind_eq_some_iff.2 ⟨x, inner, rfl⟩⟩
  | .binary operator left right, known => by
    obtain ⟨x, first⟩ := eval_total scope left fun name used => known name (List.mem_append_left _ used)
    obtain ⟨y, second⟩ :=
      eval_total scope right fun name used => known name (List.mem_append_right _ used)
    refine ⟨interpretation.operate operator x y, Option.bind_eq_some_iff.2 ⟨x, first, ?_⟩⟩
    exact Option.bind_eq_some_iff.2 ⟨y, second, rfl⟩
  | .call function arguments, known => by
    rcases evalAll_total scope arguments known with ⟨values, inner⟩
    exact ⟨interpretation.call function values, Option.bind_eq_some_iff.2 ⟨values, inner, rfl⟩⟩
  | .member vector components, known => by
    rcases eval_total scope vector known with ⟨x, inner⟩
    exact ⟨interpretation.select x components, Option.bind_eq_some_iff.2 ⟨x, inner, rfl⟩⟩

theorem evalAll_total (scope : String → Option V) : (expressions : List Expression) →
    (∀ name ∈ Expression.namesAll expressions, (scope name).isSome) →
    ∃ values, Expression.evalAll interpretation.domain scope expressions = some values
  | [], _ => ⟨[], rfl⟩
  | expression :: rest, known => by
    obtain ⟨x, first⟩ :=
      eval_total scope expression fun name used => known name (List.mem_append_left _ used)
    obtain ⟨others, second⟩ :=
      evalAll_total scope rest fun name used => known name (List.mem_append_right _ used)
    refine ⟨x :: others, Option.bind_eq_some_iff.2 ⟨x, first, ?_⟩⟩
    exact Option.bind_eq_some_iff.2 ⟨others, second, rfl⟩

end

variable {slots : SlotValues V}

/-- Slots whose sources have values, of types that have constructors here. -/
def SlotsKnown (slots : SlotValues V) : Prop := ∀ slot type value,
  slots slot = some (type, value) → (∃ result, value = some result) ∧ type ≠ .vec4f

theorem input_total (known : SlotsKnown slots) (slot : Nat) (type : ValueType) :
    ∃ value, interpretation.domain.input slots slot type = some value := by
  unfold Domain.input
  split
  · next source value here =>
    rcases known slot source value here with ⟨⟨result, rfl⟩, -⟩
    exact interpretation.convert_total source type result
  · exact interpretation.zero_total type

/-- The types in slots, as values. -/
def slotTypes (slots : SlotValues V) : SlotValues ValueType := fun slot =>
  (slots slot).map fun source => (source.1, some source.1)

theorem slotTypes_typed (known : SlotsKnown slots) : SlotsTyped (slotTypes slots) := by
  intro slot type value here
  rcases Option.map_eq_some_iff.1 here with ⟨source, reads, same⟩
  cases same
  exact ⟨rfl, (known slot source.1 source.2 reads).2⟩

theorem named_slotTypes (slots : SlotValues V) :
    Inputs.named (slotTypes slots) = Inputs.named slots := by
  simp [Inputs.named, slotTypes, Function.comp_def]

/-- Code that is typed for the names of a node's inputs has a value for them. -/
theorem eval_slotScope_total (known : SlotsKnown slots) {code : Code} {type : ValueType}
    (typed : code.eval .types (Domain.types.slotScope (slotTypes slots)) = some type) :
    ∃ value, code.eval interpretation.domain (interpretation.domain.slotScope slots) =
      some value := by
  apply interpretation.eval_total _ code.expression
  intro name used
  have present := code.expression.names_known typed name used
  unfold Domain.slotScope at present ⊢
  split
  · exact Option.isSome_iff_exists.2 (interpretation.input_total known 0 .f32)
  · next a =>
    split
    · exact Option.isSome_iff_exists.2 (interpretation.input_total known 1 .f32)
    · next b =>
      rw [if_neg a, if_neg b] at present
      simp only [Store.start] at present ⊢
      split
      · rfl
      · next uv =>
        rw [if_neg uv] at present
        split
        · rfl
        · next time =>
          rw [if_neg time] at present
          cases present

/-- Every node has a value if its sources have. -/
theorem meaning?_total (known : SlotsKnown slots) (node : Node) :
    ∃ value, node.meaning? interpretation.domain slots = some value := by
  rcases interpretation.input_total known 0 .vec3f with ⟨color, input⟩
  rcases interpretation.input_total known 1 .vec3f with ⟨color', input'⟩
  rcases Node.exists_compile_lenient node (.named slots) with ⟨emission, compiled⟩
  have written (written : node.IsWritten) :
      ∃ value, node.meaning? interpretation.domain slots = some value := by
    have compiled' := compiled
    rw [← named_slotTypes] at compiled'
    have typed := Node.types_written (slotTypes_typed known) written compiled'
    rw [Node.meaning?_written written compiled]
    exact interpretation.eval_slotScope_total known typed
  cases kind : node.kind
  case expr => exact written (.inl kind)
  case circleField => exact written (.inr kind)
  all_goals
    unfold Node.meaning?
    rw [kind]
  case uv | time => exact ⟨_, rfl⟩
  case constFloat => exact interpretation.number_total _
  case multiply | add =>
    dsimp only
    rw [input, input']
    exact ⟨_, rfl⟩
  case saturate =>
    rcases interpretation.number_total (.ofDecimal 0 0) with ⟨zero, low⟩
    rcases interpretation.number_total (.ofDecimal 1 0) with ⟨one, high⟩
    dsimp only
    rw [input, low, high]
    exact ⟨_, rfl⟩
  case outputFinal => exact ⟨color, input⟩
  case unknown => exact interpretation.zero_total .vec3f

end Interpretation

namespace Graph

variable {V : Type}

theorem values?_total (interpretation : Interpretation V) (graph : Graph) (output : Node) :
    ∃ values, graph.values? interpretation.domain (graph.orderFor output) = some values := by
  obtain ⟨values, evaluated, -⟩ := values?_of_each (graph.orderFor_sound output)
    (fun _ (_ : V) => True) fun node slots sources => by
      have known : Interpretation.SlotsKnown slots := by
        intro slot type value here
        rcases sources slot type value here with ⟨source, result, kind, known, -⟩
        exact ⟨⟨result, known⟩, NodeKind.outputType?_narrow kind⟩
      rcases interpretation.meaning?_total known node with ⟨value, meaning⟩
      exact ⟨value, meaning, trivial⟩
  exact ⟨values, evaluated⟩

/-- Running the fragment body of a graph gives each node's name the value of the node, and the
color that of the selected output. -/
theorem shader_computes_values (interpretation : Interpretation V) {graph : Graph}
    {statements : List Statement} (written : graph.shader = .body statements) :
    ∃ output values store, graph.output? = some output ∧
      graph.values? interpretation.domain (graph.orderFor output) = some values ∧
      (∀ node ∈ (graph.orderFor output).nodes,
        (∃ value, values node.id = some value ∧ node.meaning? interpretation.domain
          (graph.slotValues (graph.orderFor output) values node) = some value) ∧
        ∀ slot, graph.slotValues (graph.orderFor output) values node slot = none ↔
          graph.Absent (graph.orderFor output) node slot) ∧
      (Store.start interpretation.domain).runAll interpretation.domain statements = some store ∧
      List.Forall₂
        (fun node statement => statement.BelongsTo node ∧ statement.left store = values node.id)
        ((graph.orderFor output).emitting output) statements ∧
      ((∀ node ∈ (graph.orderFor output).emitting output, node.kind.isOutput = false) →
        store.color = interpretation.domain.zero .vec3f) := by
  have compiled := compile_shader graph
  rw [written] at compiled
  rcases compile_body compiled with ⟨output, draft, selected, drafted, rfl⟩
  rcases values?_total interpretation graph output with ⟨values, evaluated⟩
  obtain ⟨store, ran, left, black⟩ := runAll_of_drafts drafted evaluated fun _ _ _ _ => rfl
  refine ⟨output, values, store, selected, evaluated, fun node member => ?_, ran, left, black⟩
  refine ⟨meaning?_of_values? (graph.orderFor_sound output) evaluated member, fun slot => ?_⟩
  rw [slotValues_eq_none_iff, source?_eq_none_iff]

theorem loop_computes_values : ∃ statements store, loop.shader = .body statements ∧
    (Store.start Interpretation.free.domain).runAll Interpretation.free.domain statements =
      some store := by
  rcases loop_body with ⟨statements, compiled, -⟩
  rw [compile_shader] at compiled
  have written := Except.ok.inj compiled
  rcases shader_computes_values .free written with ⟨_, _, store, -, -, -, ran, -⟩
  exact ⟨statements, store, written, ran⟩

end Graph

end NodeShader
