import NodeShader.Proofs.Compile.Values
import NodeShader.Proofs.Compile.Wiring

/-!
Running a fragment body: each statement gives its node's value to the name it declares, and the
selected output sets the color to its own.
-/

namespace NodeShader

variable {V : Type} {domain : Domain V}

namespace Statement

variable {store : Store V} {result : V}

theorem run_declare {identifier : String} {value : Typed} (fits : value.code.Fits)
    (known : value.code.eval domain store.names = some result)
    (suits : domain.suits value.type result = true) (fresh : store.names identifier = none) :
    (Statement.declare identifier value).run domain store = some (store.declare identifier result) :=
  run_declare_iff.2 ⟨_, Expression.read?_render fits, result, known, suits, fresh, rfl⟩

theorem run_output {color : Code} (fits : color.Fits)
    (known : color.eval domain store.names = some result)
    (suits : domain.suits .vec3f result = true) :
    (Statement.output color).run domain store = some { store with color := some result } :=
  run_output_iff.2 ⟨_, Expression.read?_render fits, result, known, suits, rfl⟩

end Statement

namespace Identifiers

/-- What is given is owned, and a proper identifier. -/
def Sound (identifiers : Identifiers) : Prop := ∀ id identifier,
  identifiers.given? id = some identifier →
    (identifiers.owner? identifier).isSome ∧ IsProper identifier

theorem Sound.give {identifiers : Identifiers} (sound : identifiers.Sound) {id identifier : String}
    (proper : IsProper identifier) : (identifiers.give id identifier).Sound := by
  intro other given here
  rw [given?_give] at here
  rw [owner?_give]
  split at here
  · cases here
    exact ⟨by rw [if_pos rfl]; rfl, proper⟩
  · rcases sound other given here with ⟨owned, proper⟩
    refine ⟨?_, proper⟩
    split
    · rfl
    · exact owned

end Identifiers

namespace Draft

variable {graph : Graph} {options : Options} {output node : Node} {order : Order}
  {draft next final : Draft} {before after : List Node} {values : String → Option V}

/-- Whether a node is the one that sets the color. -/
def Sets (output node : Node) : Prop := node.kind.isOutput = true ∧ node.id = output.id

/-- The statements of a draft run, and the store that they leave has the values of the nodes. -/
structure Follows (domain : Domain V) (values : String → Option V) (output : Node)
    (before : List Node) (draft : Draft) (store : Store V) : Prop where
  knows : Knows before draft
  sound : draft.identifiers.Sound
  ran : (Store.start domain).runAll domain draft.statements = some store
  uv : store.names "uv" = some domain.uv
  time : store.names "u_time" = some domain.time
  known : ∀ id identifier, draft.identifiers.given? id = some identifier →
    store.names identifier = values id
  owned : ∀ name, (store.names name).isSome →
    name = "uv" ∨ name = "u_time" ∨ (draft.identifiers.owner? name).isSome
  shown : ∀ node ∈ before, Sets output node → store.color = values node.id
  black : (∀ node ∈ before, ¬ Sets output node) → store.color = domain.zero .vec3f

theorem Follows.start : Follows domain values output [] .empty (.start domain) where
  knows := .empty
  sound _ _ given := by cases given
  ran := rfl
  uv := rfl
  time := rfl
  known _ _ given := by cases given
  owned name known := by
    simp only [Store.start] at known
    split at known
    · next uv => exact .inl uv
    · split at known
      · next time => exact .inr (.inl time)
      · cases known
  shown := by simp
  black _ := rfl

/-- At its turn a node's inputs have their values in the store. -/
theorem Follows.hold {store : Store V} (sound : order.Sound graph)
    (split : order.nodes = before ++ node :: after)
    (follows : Follows domain values output before draft store) :
    (draft.inputs order node).Hold domain store.names (graph.slotValues order values node) where
  uv := follows.uv
  time := follows.time
  empty slot nothing := find?_of_source?_none sound follows.knows (by simp [split])
    (Graph.slotValues_eq_none_iff.1 nothing)
  wired slot type value here := by
    rcases Graph.slotValues_eq_some_iff.1 here with ⟨source, reads, kind, rfl⟩
    obtain ⟨identifier, type', given, kind', found⟩ :=
      find?_of_source? follows.knows (source?_before sound split reads) reads
    rw [kind] at kind'
    cases kind'
    exact ⟨identifier, found, (follows.sound _ _ given).2, follows.known _ _ given⟩

/-- An identifier that nobody owns is not known in the store. -/
theorem Follows.fresh {store : Store V} (follows : Follows domain values output before draft store)
    {identifier : String} (proper : Identifiers.IsProper identifier)
    (unowned : draft.identifiers.owner? identifier = none) : store.names identifier = none := by
  by_contra known
  rcases follows.owned identifier (Option.isSome_iff_ne_none.2 known) with rfl | rfl | owned
  · exact proper.ne_uv rfl
  · exact proper.ne_time rfl
  · rw [unowned] at owned
    cases owned

/-- The value that a node has in the end suits its type. -/
def Suit (domain : Domain V) (values : String → Option V) (node : Node) : Prop :=
  ∀ value, values node.id = some value →
    domain.suits (node.kind.outputType?.getD .vec3f) value = true

theorem Follows.skip {store : Store V} (follows : Follows domain values output before draft store)
    (knows : Knows (before ++ [node]) draft) (other : ¬ Sets output node) :
    Follows domain values output (before ++ [node]) draft store where
  knows := knows
  sound := follows.sound
  ran := follows.ran
  uv := follows.uv
  time := follows.time
  known := follows.known
  owned := follows.owned
  shown node member sets := by
    rcases List.mem_append.1 member with member | member
    · exact follows.shown node member sets
    · rw [List.mem_singleton.1 member] at sets
      exact absurd sets other
  black none_sets := follows.black fun node member => none_sets node (List.mem_append_left _ member)

theorem Follows.color {store : Store V} (follows : Follows domain values output before draft store)
    (knows : Knows (before ++ [node]) next) (new : ∀ other ∈ before, other.id ≠ node.id)
    (sets : Sets output node) {color : Code} (same : next = draft.append (.output color))
    {result : V} (value : values node.id = some result)
    (runs : (Statement.output color).run domain store = some { store with color := some result }) :
    Follows domain values output (before ++ [node]) next { store with color := some result } where
  knows := knows
  sound := by
    rw [same]
    exact follows.sound
  ran := by
    rw [same]
    exact Store.runAll_concat_iff.2 ⟨store, follows.ran, runs⟩
  uv := follows.uv
  time := follows.time
  known := by
    rw [same]
    exact follows.known
  owned := by
    rw [same]
    exact follows.owned
  shown other member sets' := by
    rcases List.mem_append.1 member with member | member
    · exact absurd (sets'.2.trans sets.2.symm) (new other member)
    · rw [List.mem_singleton.1 member]
      exact value.symm
  black none_sets := absurd sets (none_sets node (by simp))

theorem Follows.declare {store : Store V}
    (follows : Follows domain values output before draft store) {identifier : String}
    {value : Typed}
    (knows : Knows (before ++ [node])
      (draft.declared (draft.identifiers.give node.id identifier) node.id identifier value))
    (proper : Identifiers.IsProper identifier)
    (unowned : draft.identifiers.owner? identifier = none) (other : ¬ Sets output node)
    {result : V} (known : values node.id = some result)
    (runs : (Statement.declare identifier value).run domain store =
      some (store.declare identifier result)) :
    Follows domain values output (before ++ [node])
      (draft.declared (draft.identifiers.give node.id identifier) node.id identifier value)
      (store.declare identifier result) where
  knows := knows
  sound := follows.sound.give proper
  ran := Store.runAll_concat_iff.2 ⟨store, follows.ran, runs⟩
  uv := (if_neg proper.ne_uv.symm).trans follows.uv
  time := (if_neg proper.ne_time.symm).trans follows.time
  known id given here := by
    simp only [declared, Identifiers.given?_give] at here
    split at here
    · next same =>
      cases here
      rw [same, known]
      exact if_pos rfl
    · have different : given ≠ identifier := by
        intro equal
        subst equal
        rcases follows.sound id given here with ⟨owned, -⟩
        rw [unowned] at owned
        cases owned
      exact (if_neg different).trans (follows.known id given here)
  owned name here := by
    simp only [declared, Identifiers.owner?_give]
    by_cases same : name = identifier
    · rw [if_pos same]
      exact .inr (.inr rfl)
    · rw [if_neg same]
      exact follows.owned name (by simpa [Store.declare, same] using here)
  shown other' member sets := by
    rcases List.mem_append.1 member with member | member
    · exact follows.shown other' member sets
    · rw [List.mem_singleton.1 member] at sets
      exact absurd sets other
  black none_sets := follows.black fun node member => none_sets node (List.mem_append_left _ member)

/-- Adding a node keeps up with the values: its statement runs and gives the node's value. -/
theorem Follows.add {store : Store V} (sound : order.Sound graph)
    (split : order.nodes = before ++ node :: after)
    (follows : Follows domain values output before draft store)
    (evaluated : graph.values? domain order = some values) (suit : Suit domain values node)
    (added : Adds options output order draft node next) :
    ∃ store', Follows domain values output (before ++ [node]) next store' := by
  have new := new_id sound split
  have knows := follows.knows.add new added
  have hold := follows.hold sound split
  have member : node ∈ order.nodes := by simp [split]
  rcases Graph.meaning?_of_values? sound evaluated member with ⟨result, value, meaning⟩
  have suits := suit result value
  cases added with
  | skip sink other => exact ⟨store, follows.skip knows fun sets => other sets.2⟩
  | color sink selected =>
    have compiled := Node.compile_output sink (draft.inputs order node) options
    have fits := Node.fits_compile hold.fit compiled
    have known := Node.eval_compile hold compiled
    rw [meaning] at known
    have kind : node.kind.outputType? = none := by
      have : node.kind = .outputFinal := by simpa [NodeKind.isOutput] using sink
      rw [this]
      rfl
    rw [kind] at suits
    have runs := Statement.run_output fits known suits
    exact ⟨_, follows.color knows new ⟨sink, selected⟩ rfl value runs⟩
  | @value proper typed identifier identifiers compiled type allocated =>
    rcases Identifiers.allocate_new (follows.knows.new new) allocated with ⟨unowned, rfl, form, -⟩
    have fits := Node.fits_compile hold.fit compiled
    have known := Node.eval_compile hold compiled
    rw [meaning] at known
    rw [type] at suits
    have runs := Statement.run_declare fits known suits (follows.fresh form.isProper unowned)
    have other : ¬ Sets output node := fun sets => by
      rw [sets.1] at proper
      cases proper
    exact ⟨_, follows.declare knows form.isProper unowned other value runs⟩

theorem run_follows (sound : order.Sound graph)
    (evaluated : graph.values? domain order = some values)
    (suit : ∀ node ∈ order.nodes, Suit domain values node)
    (ran : (order.nodes.foldlM (Draft.add options output order) .empty).result = .ok final) :
    ∃ store, Follows domain values output order.nodes final store := by
  have whole : order.nodes = [] ++ order.nodes ++ [] := by simp
  refine run_invariant (fun before draft => ∃ store, Follows domain values output before draft store)
    ?_ whole ⟨_, .start⟩ ran
  intro before node after draft next split given added
  rcases given with ⟨store, follows⟩
  exact follows.add sound split evaluated (suit node (by simp [split])) added

end Draft

/-- What a statement must be to stand for a node: a declaration with the type of the node's kind,
or the color that an output sets. -/
def Statement.BelongsTo (node : Node) : Statement → Prop
  | .declare _ value => node.kind.outputType? = some value.type
  | .output _ => node.kind.isOutput = true

/-- What a statement has left in the store. -/
def Statement.left (store : Store V) : Statement → Option V
  | .declare identifier _ => store.names identifier
  | .output _ => store.color

theorem Order.mem_emitting {order : Order} {output node : Node} :
    node ∈ order.emitting output ↔
      node ∈ order.nodes ∧ (node.kind.isOutput = true → Draft.Sets output node) := by
  rw [emitting, List.mem_filter, Node.emits, Draft.Sets]
  cases node.kind.isOutput <;> simp

/-- The statements of a body run, and leave behind the values of their nodes; without a statement
for the selected output the color stays black. -/
theorem Graph.runAll_of_drafts {graph : Graph} {options : Options} {output : Node} {draft : Draft}
    {values : String → Option V} (drafted : graph.drafts options output = .ok draft)
    (evaluated : graph.values? domain (graph.orderFor output) = some values)
    (suit : ∀ node ∈ (graph.orderFor output).nodes, Draft.Suit domain values node) :
    ∃ store, (Store.start domain).runAll domain draft.statements = some store ∧
      List.Forall₂
        (fun node statement => statement.BelongsTo node ∧ statement.left store = values node.id)
        ((graph.orderFor output).emitting output) draft.statements ∧
      ((∀ node ∈ (graph.orderFor output).emitting output, node.kind.isOutput = false) →
        store.color = domain.zero .vec3f) := by
  have sound := graph.orderFor_sound output
  rcases Draft.run_follows sound evaluated suit drafted with ⟨store, follows⟩
  rcases Draft.run_written sound drafted with ⟨-, emits⟩
  refine ⟨store, follows.ran, ?_, fun values_only => follows.black fun node member sets => ?_⟩
  · apply ((List.forall₂_and_left _ _).2 ⟨fun _ member => member, emits⟩).imp
    intro node statement both
    rcases both with ⟨member, emits⟩
    rcases Order.mem_emitting.1 member with ⟨member, sets⟩
    cases emits with
    | declare compiled given =>
      exact ⟨Node.outputType?_of_value compiled, follows.known node.id _ given⟩
    | output compiled =>
      have sink := Node.isOutput_of_color compiled
      exact ⟨sink, follows.shown node member (sets sink)⟩
  · have proper := values_only node (Order.mem_emitting.2 ⟨member, fun _ => sets⟩)
    rw [sets.1] at proper
    cases proper

end NodeShader
