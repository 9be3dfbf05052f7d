import NodeShader.Proofs.Formula.Fitting
import NodeShader.Proofs.Formula.Typing
import NodeShader.Proofs.Wgsl.Reading

/-!
Constants in the code of formulas. An operation in the code of a formula has a value among its
operands that is only known when the shader runs, unless a vector was clamped between literals in
the wrong order: that leaves a constant vector, which is no literal and is not folded any further.
-/

namespace NodeShader

namespace Expression

/-- Names of values that are only known when the shader runs: the position, the time, and what is
declared for nodes. -/
def isRuntimeName (name : String) : Bool :=
  name == "uv" || name == "u_time" || name.toList.take 2 == ['n', '_']

mutual

/-- Whether the name of a runtime value occurs in an expression. -/
def isRuntime : Expression → Bool
  | .literal _ => false
  | .name text => isRuntimeName text
  | .negate operand => isRuntime operand
  | .binary _ left right => isRuntime left || isRuntime right
  | .call _ arguments => anyRuntime arguments
  | .member vector _ => isRuntime vector

def anyRuntime : List Expression → Bool
  | [] => false
  | argument :: rest => isRuntime argument || anyRuntime rest

end

mutual

/-- Whether each operation of an expression has a runtime value among its operands; the signs of
literals and the constructor of pairs may do without. -/
def isFolded : Expression → Bool
  | .literal _ | .name _ | .negate (.literal _) => true
  | .negate operand => isRuntime operand && isFolded operand
  | .binary _ left right => (isRuntime left || isRuntime right) && isFolded left && isFolded right
  | .call function arguments =>
    (function == "vec2f" || anyRuntime arguments) && allFolded arguments
  | .member vector _ => isFolded vector

def allFolded : List Expression → Bool
  | [] => true
  | argument :: rest => isFolded argument && allFolded rest

end

theorem isFolded_negate {operand : Expression} (runtime : operand.isRuntime = true)
    (folded : operand.isFolded = true) : (Expression.negate operand).isFolded = true := by
  cases operand with
  | literal => rfl
  | _ =>
    rw [isFolded, runtime, folded]
    · rfl
    · exact nofun

end Expression

namespace Code

/-- Code with a runtime value in it, and in each of its operations. -/
def Live (code : Code) : Prop :=
  code.expression.isRuntime = true ∧ code.expression.isFolded = true

variable {code : Code}

theorem expression_select (code : Code) (components : String) :
    (code.select components).expression = .member code.expression components := by
  unfold select
  split <;> rfl

theorem Live.select (live : code.Live) (components : String) : (code.select components).Live := by
  rw [Live, expression_select]
  exact live

theorem isFolded_literal (value : F32) : (literal value).expression.isFolded = true := by
  rw [expression]
  split <;> rfl

/-- An operation is live when one of its operands is. -/
theorem live_binary (operator : Operator) {left right : Code}
    (runtime : left.expression.isRuntime = true ∨ right.expression.isRuntime = true)
    (folded : left.expression.isFolded = true) (folded' : right.expression.isFolded = true) :
    (binary operator left right).Live := by
  have either : (left.expression.isRuntime || right.expression.isRuntime) = true := by
    simpa using runtime
  refine ⟨either, ?_⟩
  rw [expression, Expression.isFolded, either, folded, folded']
  rfl

theorem live_call (function : String) {arguments : List Code}
    (runtime : ∃ argument ∈ arguments, argument.expression.isRuntime = true)
    (folded : ∀ argument ∈ arguments, argument.expression.isFolded = true) :
    (call function arguments).Live := by
  have any : Expression.anyRuntime (expressions arguments) = true := by
    clear folded
    induction arguments with
    | nil => simp at runtime
    | cons argument arguments ih =>
      rw [expressions, Expression.anyRuntime, Bool.or_eq_true]
      rcases runtime with ⟨other, member, runtime⟩
      rcases List.mem_cons.1 member with rfl | member
      · exact .inl runtime
      · exact .inr (ih ⟨other, member, runtime⟩)
  have all : Expression.allFolded (expressions arguments) = true := by
    clear runtime any
    induction arguments with
    | nil => rfl
    | cons argument arguments ih =>
      rw [List.forall_mem_cons] at folded
      rw [expressions, Expression.allFolded, folded.1, ih folded.2]
      rfl
  refine ⟨any, ?_⟩
  rw [expression, Expression.isFolded, any, all, Bool.or_true]
  rfl

theorem Live.mean (live : code.Live) (first : String) (rest : List String) :
    (Typed.mean code first rest).Live := by
  have sum_live (sum : Code) (live_sum : sum.Live) :
      ((rest.map code.select).foldl (binary .add) sum).Live := by
    induction rest generalizing sum with
    | nil => exact live_sum
    | cons component rest ih =>
      exact ih _ (live_binary .add (.inl live_sum.1) live_sum.2 (live.select component).2)
  have whole := sum_live _ (live.select first)
  change (binary .div (.paren _) (.literal _)).Live
  exact live_binary .div (.inl whole.1) whole.2 (isFolded_literal _)

/-- A live value stays live as a scalar or a pair. -/
theorem Live.convert {x : Typed} (live : x.code.Live) {target : ValueType}
    (narrow : target = .f32 ∨ target = .vec2f) : (x.convert target).code.Live := by
  have pair : (call "vec2f" [x.code]).Live :=
    live_call "vec2f" ⟨_, List.mem_cons_self, live.1⟩ (by simpa using live.2)
  rcases x with ⟨code, type⟩
  rcases narrow with rfl | rfl <;> cases type
  case inl.f32 | inr.vec2f => exact live
  case inr.f32 => exact pair
  case inl.vec2f | inl.vec3f | inl.vec4f => exact live.mean _ _
  case inr.vec3f | inr.vec4f => exact live.select _

end Code

namespace Typed

/-- Code of a formula with no operation left on constants: it is live or a literal. -/
structure Folded (x : Typed) : Prop where
  known : x.code.Live ∨ ∃ value, x = .literal value
  narrow : x.type = .f32 ∨ x.type = .vec2f

variable {x : Typed}

theorem folded_literal (value : F32) : (literal value).Folded :=
  ⟨.inr ⟨value, rfl⟩, .inl rfl⟩

theorem Folded.live (folded : x.Folded) (unknown : x.literal? = none) : x.code.Live := by
  rcases folded.known with live | ⟨value, rfl⟩
  · exact live
  · cases unknown

theorem Folded.isFolded (folded : x.Folded) : x.code.expression.isFolded = true := by
  rcases folded.known with live | ⟨value, rfl⟩
  · exact live.2
  · exact Code.isFolded_literal value

theorem Folded.isFolded_convert (folded : x.Folded) {target : ValueType}
    (narrow : target = .f32 ∨ target = .vec2f) :
    (x.convert target).code.expression.isFolded = true := by
  rcases folded.known with live | ⟨value, rfl⟩
  · exact (live.convert narrow).2
  · rcases narrow with rfl | rfl
    · exact Code.isFolded_literal value
    · change (true && ((Code.literal value).expression.isFolded && true)) = true
      rw [Code.isFolded_literal]
      rfl

end Typed

namespace Formula

/-- A clamp of a vector between literals in the wrong order. -/
def isCollapse (function : Builtin) (arguments : List Typed) : Bool :=
  match function, arguments with
  | .clamp, [x, low, high] => x.type != .f32 &&
    match low.literal?, high.literal? with
    | some lowValue, some highValue => highValue.lt lowValue
    | _, _ => false
  | _, _ => false

mutual

/-- Whether there is a clamp of a vector between literals in the wrong order in a formula. -/
def collapses (environment : Environment) : Formula → Bool
  | .number _ | .pi | .slot _ => false
  | .negate operand => collapses environment operand
  | .binary _ left right => collapses environment left || collapses environment right
  | .call function arguments => collapsesAny environment arguments ||
    match lowerAll environment arguments with
    | .ok lowered => isCollapse function lowered
    | .error _ => false
  | .swizzle vector _ => collapses environment vector

def collapsesAny (environment : Environment) : List Formula → Bool
  | [] => false
  | argument :: rest => collapses environment argument || collapsesAny environment rest

end

theorem folded_lowerNegate {x : Typed} (folded : x.Folded) : (lowerNegate x).Folded := by
  unfold lowerNegate
  split
  · exact Typed.folded_literal _
  · next unknown =>
    have live := folded.live unknown
    exact ⟨.inl ⟨live.1, Expression.isFolded_negate live.1 live.2⟩, folded.narrow⟩

theorem folded_lowerBinary (operator : Operator) {x y : Typed} (folded : x.Folded)
    (folded' : y.Folded) : (lowerBinary operator x y).Folded := by
  have narrow : ValueType.widest [x.type, y.type] = .f32 ∨
      ValueType.widest [x.type, y.type] = .vec2f :=
    widest_narrow (by simp [folded.narrow, folded'.narrow])
  rw [← lowerBinary_type operator] at narrow
  refine ⟨?_, narrow⟩
  unfold lowerBinary
  cases known : x.literal? with
  | none =>
    have runtime := (folded.live known).1
    exact .inl (Code.live_binary operator (.inl runtime) folded.isFolded folded'.isFolded)
  | some value =>
    cases known' : y.literal? with
    | none =>
      have runtime := (folded'.live known').1
      exact .inl (Code.live_binary operator (.inr runtime) folded.isFolded folded'.isFolded)
    | some value' => exact .inr ⟨_, rfl⟩

theorem isFolded_splat (value : F32) {type : ValueType} (narrow : type = .f32 ∨ type = .vec2f) :
    (splat value type).expression.isFolded = true :=
  (Typed.folded_literal value).isFolded_convert narrow

theorem folded_lowerMisordered? {function : Builtin} {xs : List Typed} {x : Typed}
    (folded : ∀ x ∈ xs, x.Folded) (plain : isCollapse function xs = false)
    (unknown : xs.mapM Typed.literal? = none) (recast : lowerMisordered? function xs = some x) :
    x.Folded := by
  cases recast_of_lowerMisordered? recast with
  | @clamp y low high lowValue highValue known known' less =>
    have scalar : y.type = .f32 := by simpa [isCollapse, known, known', less] using plain
    rw [scalar]
    exact Typed.folded_literal highValue
  | @step low high y lowValue highValue known known' =>
    have operand := folded y (by simp)
    have live := operand.live (literal?_bounded known known' unknown)
    refine ⟨.inl (Code.live_call "step" ⟨y.code, by simp, live.1⟩ ?_), operand.narrow⟩
    simp [isFolded_splat _ operand.narrow, live.2]
  | @falling low high y lowValue highValue known known' =>
    have operand := folded y (by simp)
    have live := operand.live (literal?_bounded known known' unknown)
    have splats (value : F32) := isFolded_splat value operand.narrow
    have rising : (Code.call "smoothstep" [splat highValue y.type, splat lowValue y.type,
        y.code]).Live :=
      Code.live_call "smoothstep" ⟨y.code, by simp, live.1⟩ (by simp [splats, live.2])
    exact ⟨.inl (Code.live_binary .sub (.inr rising.1) (splats .one) rising.2), operand.narrow⟩

/-- Arguments that are not all literals have a live one among them. -/
theorem exists_live {xs : List Typed} (folded : ∀ x ∈ xs, x.Folded)
    (unknown : xs.mapM Typed.literal? = none) : ∃ x ∈ xs, x.code.Live := by
  induction xs with
  | nil => cases unknown
  | cons x xs ih =>
    rw [List.forall_mem_cons] at folded
    cases known : x.literal? with
    | none => exact ⟨x, List.mem_cons_self, folded.1.live known⟩
    | some value =>
      cases others : xs.mapM Typed.literal? with
      | none =>
        rcases ih folded.2 others with ⟨y, member, live⟩
        exact ⟨y, List.mem_cons_of_mem _ member, live⟩
      | some values => simp [known, others] at unknown

theorem folded_lowerPlainCall (function : Builtin) {xs : List Typed}
    (folded : ∀ x ∈ xs, x.Folded) (unknown : xs.mapM Typed.literal? = none) :
    (lowerPlainCall function xs).code.Live := by
  have narrow : ValueType.widest (xs.map (·.type)) = .f32 ∨
      ValueType.widest (xs.map (·.type)) = .vec2f :=
    widest_narrow (by simpa using fun x member => (folded x member).narrow)
  rcases exists_live folded unknown with ⟨x, member, live⟩
  rcases lowerPlainCall_cases function xs rfl with ⟨y, z, rfl, rfl, -, same⟩ | ⟨-, same⟩
  · rw [same]
    have scalar : ValueType.f32 = .f32 ∨ ValueType.f32 = .vec2f := .inl rfl
    have runtime : (y.convert .f32).code.expression.isRuntime = true ∨
        (z.convert .f32).code.expression.isRuntime = true := by
      rcases List.mem_pair.1 member with rfl | rfl
      · exact .inl (live.convert scalar).1
      · exact .inr (live.convert scalar).1
    exact Code.live_binary .mul runtime ((folded y (by simp)).isFolded_convert scalar)
      ((folded z (by simp)).isFolded_convert scalar)
  · rw [same]
    refine Code.live_call function.name ?_ ?_
    · exact ⟨_, List.mem_map_of_mem member, (live.convert narrow).1⟩
    · intro code given
      rcases List.mem_map.1 given with ⟨y, member, rfl⟩
      exact (folded y member).isFolded_convert narrow

theorem folded_lowerCall (function : Builtin) {xs : List Typed} (folded : ∀ x ∈ xs, x.Folded)
    (plain : isCollapse function xs = false) : (lowerCall function xs).Folded := by
  have narrow : (lowerCall function xs).type = .f32 ∨ (lowerCall function xs).type = .vec2f := by
    rw [lowerCall_type]
    split
    · exact .inl rfl
    · exact widest_narrow (by simpa using fun x member => (folded x member).narrow)
  refine ⟨?_, narrow⟩
  unfold lowerCall
  split
  · exact .inr ⟨_, rfl⟩
  · next unknown =>
    cases recast : lowerMisordered? function xs with
    | none => exact .inl (folded_lowerPlainCall function folded unknown)
    | some x => exact (folded_lowerMisordered? folded plain unknown recast).known

theorem folded_lowerSwizzle {x y : Typed} {components : Swizzle} (folded : x.Folded)
    (selected : lowerSwizzle x components = .ok y) : y.Folded := by
  unfold lowerSwizzle at selected
  split at selected
  · cases selected
  · next vector =>
    cases selected
    have live : x.code.Live := folded.known.resolve_right fun literal => by
      rcases literal with ⟨value, rfl⟩
      exact vector rfl
    refine ⟨.inl (live.select components.text), ?_⟩
    cases components
    · exact .inl rfl
    · exact .inr rfl

mutual

/-- Without a clamp that leaves a constant vector, all operations of a formula's code are folded. -/
theorem folded_lower {environment : Environment} (slots : ∀ slot, (environment.get slot).Folded) :
    (formula : Formula) → formula.collapses environment = false → ∀ {x},
      lower environment formula = .ok x → x.Folded
  | .number _, _, _, lowered => by
    cases lowered
    exact Typed.folded_literal _
  | .pi, _, _, lowered => by
    cases lowered
    exact Typed.folded_literal _
  | .slot name, _, _, lowered => by
    cases lowered
    exact slots name
  | .negate operand, plain, _, lowered => by
    rcases except_bind_eq_ok.1 lowered with ⟨x, inner, same⟩
    cases same
    exact folded_lowerNegate (folded_lower slots operand plain inner)
  | .binary operator left right, plain, _, lowered => by
    rw [collapses, Bool.or_eq_false_iff] at plain
    rcases except_bind_eq_ok.1 lowered with ⟨x, first, rest⟩
    rcases except_bind_eq_ok.1 rest with ⟨y, second, same⟩
    cases same
    exact folded_lowerBinary operator (folded_lower slots left plain.1 first)
      (folded_lower slots right plain.2 second)
  | .call function arguments, plain, _, lowered => by
    rw [collapses, Bool.or_eq_false_iff] at plain
    rcases except_bind_eq_ok.1 lowered with ⟨xs, inner, same⟩
    rw [inner] at plain
    cases same
    exact folded_lowerCall function (folded_lowerAll slots arguments plain.1 inner) plain.2
  | .swizzle vector components, plain, _, lowered => by
    rcases except_bind_eq_ok.1 lowered with ⟨x, inner, selected⟩
    exact folded_lowerSwizzle (folded_lower slots vector plain inner) selected

theorem folded_lowerAll {environment : Environment}
    (slots : ∀ slot, (environment.get slot).Folded) :
    (formulas : List Formula) → collapsesAny environment formulas = false → ∀ {xs},
      lowerAll environment formulas = .ok xs → ∀ x ∈ xs, x.Folded
  | [], _, _, lowered => by
    cases lowered
    simp
  | formula :: rest, plain, _, lowered => by
    rw [collapsesAny, Bool.or_eq_false_iff] at plain
    rcases except_bind_eq_ok.1 lowered with ⟨x, first, others⟩
    rcases except_bind_eq_ok.1 others with ⟨xs, second, same⟩
    cases same
    exact List.forall_mem_cons.2 ⟨folded_lower slots formula plain.1 first,
      folded_lowerAll slots rest plain.2 second⟩

end

/-- What is read from the text of a formula's code is folded. -/
theorem isFolded_compileScalar {environment : Environment} {text : String} {formula : Formula}
    {x : Typed} (slots : ∀ slot, (environment.get slot).Folded)
    (fits : ∀ slot, (environment.get slot).Fits) (parsed : parse text = .ok formula)
    (plain : formula.collapses environment = false)
    (compiled : compileScalar environment text = .ok x) :
    ∃ expression, Expression.read? x.text = some expression ∧ expression.isFolded = true := by
  have whole := (fits_compileScalar fits compiled).1
  rcases except_bind_eq_ok.1 compiled with ⟨_, parsed', compiled⟩
  rw [parsed] at parsed'
  cases parsed'
  rcases except_bind_eq_ok.1 compiled with ⟨y, lowered, same⟩
  cases same
  exact ⟨_, Expression.read?_render whole,
    (folded_lower slots formula plain lowered).isFolded_convert (.inl rfl)⟩

end Formula

end NodeShader
