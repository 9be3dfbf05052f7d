import NodeShader.Proofs.Formula.Lowered
import NodeShader.Proofs.Wgsl.Evaluation

/-!
The codes in the slots of a formula can be exchanged. What is made of codes, be it their values or
their texts, is the same for codes in whose slots it is the same.
-/

namespace NodeShader

/-- Two maps of codes that agree on codes whose parts they agree on. -/
structure Code.Parallel {A : Type} (f g : Code → A) : Prop where
  literal : ∀ value, f (.literal value) = g (.literal value)
  paren : ∀ {code code'}, f code = g code' → f (.paren code) = g (.paren code')
  negate : ∀ {code code'}, f code = g code' → f (.negate code) = g (.negate code')
  binary : ∀ operator {left left' right right'}, f left = g left' → f right = g right' →
    f (.binary operator left right) = g (.binary operator left' right')
  call : ∀ function {codes codes'}, codes.map f = codes'.map g →
    f (.call function codes) = g (.call function codes')
  select : ∀ components {code code'}, f code = g code' →
    f (code.select components) = g (code'.select components)

theorem Code.parallel_eval {V : Type} (domain : Domain V) (scope scope' : String → Option V) :
    Parallel (Code.eval domain scope) (Code.eval domain scope') where
  literal value := by rw [eval_literal, eval_literal]
  paren same := same
  negate same := by rw [eval_negate, eval_negate, same]
  binary operator _ _ _ _ same same' := by rw [eval_binary, eval_binary, same, same']
  call function codes codes' same := by
    have values : codes.mapM (Code.eval domain scope) = codes'.mapM (Code.eval domain scope') := by
      have through (scope : String → Option V) (codes : List Code) :
          codes.mapM (Code.eval domain scope) = (codes.map (Code.eval domain scope)).mapM id := by
        rw [List.mapM_map]
        rfl
      rw [through, through, same]
    rw [eval_call, eval_call, values]
  select components _ _ same := by rw [eval_select, eval_select, same]

variable {A : Type} {f g : Code → A}

namespace Typed

/-- Codes of one type that two maps agree on; either is a literal if the other is. -/
structure Stands (f g : Code → A) (x y : Typed) : Prop where
  type : x.type = y.type
  literal : x.literal? = y.literal?
  value : f x.code = g y.code

/-- Codes of one type and value, each in a scope of its own; either is a literal if the other is. -/
abbrev StandsFor {V : Type} (domain : Domain V) (scope scope' : String → Option V) :
    Typed → Typed → Prop :=
  Stands (Code.eval domain scope) (Code.eval domain scope')

theorem mean_parallel (parallel : Code.Parallel f g) {code code' : Code} (same : f code = g code')
    (first : String) (rest : List String) :
    f (mean code first rest) = g (mean code' first rest) := by
  have sum (start start' : Code) (same_start : f start = g start') :
      f ((rest.map code.select).foldl (.binary .add) start) =
        g ((rest.map code'.select).foldl (.binary .add) start') := by
    induction rest generalizing start start' with
    | nil => exact same_start
    | cons component rest ih =>
      exact ih _ _ (parallel.binary .add same_start (parallel.select component same))
  have total := sum _ _ (parallel.select first same)
  exact parallel.paren (parallel.binary .div (parallel.paren total) (parallel.literal _))

theorem Stands.convert (parallel : Code.Parallel f g) {x y : Typed} (stands : x.Stands f g y)
    (target : ValueType) : f (x.convert target).code = g (y.convert target).code := by
  have same := stands.value
  have type := stands.type
  obtain ⟨code, source⟩ := x
  obtain ⟨code', source'⟩ := y
  dsimp only at same type
  subst type
  have number (digits : Nat) : f (.number digits 0) = g (.number digits 0) := parallel.literal _
  have fill (function : String) : f (.call function [code]) = g (.call function [code']) :=
    parallel.call function (by simp [same])
  cases source <;> cases target
  case f32.f32 | vec2f.vec2f | vec3f.vec3f | vec4f.vec4f => exact same
  case f32.vec2f | f32.vec3f => exact fill _
  case f32.vec4f => exact parallel.call "vec4f" (by simp [fill "vec3f", number])
  case vec2f.f32 | vec3f.f32 | vec4f.f32 => exact mean_parallel parallel same _ _
  case vec2f.vec3f => exact parallel.call "vec3f" (by simp [same, number])
  case vec2f.vec4f => exact parallel.call "vec4f" (by simp [same, number])
  case vec3f.vec2f | vec4f.vec2f | vec4f.vec3f => exact parallel.select _ same
  case vec3f.vec4f => exact parallel.call "vec4f" (by simp [same, number])

theorem stands_literal (parallel : Code.Parallel f g) (value : F32) :
    (literal value).Stands f g (literal value) where
  type := rfl
  literal := rfl
  value := parallel.literal value

theorem standsFor_literal {V : Type} {domain : Domain V} {scope scope' : String → Option V}
    (value : F32) : (literal value).StandsFor domain scope scope' (literal value) :=
  stands_literal (Code.parallel_eval domain scope scope') value

/-- No name is read as a finite number. -/
theorem literal?_name {text : String} (name : Lexeme.isName text = true) (type : ValueType) :
    (Typed.mk (.name text) type).literal? = none := by
  obtain ⟨c, others, letters, starts, -⟩ := Lexeme.isName_iff.1 name
  have other {sign : Char} (no_word : Lexeme.startsWord sign = false) : c ≠ sign := by
    intro same
    rw [same, no_word] at starts
    cases starts
  have unread := Decimal.read?_other (Lexeme.not_isDigit_of_startsWord starts) (other (by decide))
    others
  have unsigned : (Floating.read? (c :: others) : Option F32) =
      Floating.readMagnitude? false (c :: others) :=
    Floating.read?_unsigned (other (by decide)) (other (by decide)) others
  unfold literal?
  split
  · rfl
  · change (Floating.read? text.toList : Option F32).filter _ = none
    rw [letters, unsigned]
    unfold Floating.readMagnitude?
    split
    · rfl
    · rfl
    · rfl
    · rw [unread]
      rfl

/-- Only a number or a name can be a literal. -/
theorem literal?_paren (code : Code) (type : ValueType) :
    (Typed.mk (.paren code) type).literal? = none := by
  unfold literal?
  split <;> rfl

theorem literal?_call (function : String) (arguments : List Code) (type : ValueType) :
    (Typed.mk (.call function arguments) type).literal? = none := by
  unfold literal?
  split <;> rfl

theorem literal?_select (code : Code) (components : String) (type : ValueType) :
    (Typed.mk (code.select components) type).literal? = none := by
  unfold Code.select
  split <;> (unfold literal?; split <;> rfl)

end Typed

namespace Formula

open Typed

theorem stands_paren {code code' : Code} {type type' : ValueType} (parallel : Code.Parallel f g)
    (same : type = type') (value : f code = g code') :
    (Typed.mk (.paren code) type).Stands f g ⟨.paren code', type'⟩ where
  type := same
  literal := by rw [literal?_paren, literal?_paren]
  value := parallel.paren value

theorem stands_call {function : String} {codes codes' : List Code} {type type' : ValueType}
    (parallel : Code.Parallel f g) (same : type = type') (values : codes.map f = codes'.map g) :
    (Typed.mk (.call function codes) type).Stands f g ⟨.call function codes', type'⟩ where
  type := same
  literal := by rw [literal?_call, literal?_call]
  value := parallel.call function values

theorem splat_parallel (parallel : Code.Parallel f g) (value : F32) (type : ValueType) :
    f (splat value type) = g (splat value type) :=
  (stands_literal parallel value).convert parallel type

variable {xs ys : List Typed}

theorem stands_lowerNegate (parallel : Code.Parallel f g) {x y : Typed} (stands : x.Stands f g y) :
    (lowerNegate x).Stands f g (lowerNegate y) := by
  unfold lowerNegate
  rw [stands.literal]
  cases y.literal? with
  | some value => exact stands_literal parallel _
  | none => exact stands_paren parallel stands.type (parallel.negate stands.value)

theorem stands_lowerBinary (parallel : Code.Parallel f g) (operator : Operator) {x y x' y' : Typed}
    (stands : x.Stands f g y) (stands' : x'.Stands f g y') :
    (lowerBinary operator x x').Stands f g (lowerBinary operator y y') := by
  have operation : (Typed.mk (.paren (.binary operator x.code x'.code))
      (ValueType.widest [x.type, x'.type])).Stands f g
      ⟨.paren (.binary operator y.code y'.code), ValueType.widest [y.type, y'.type]⟩ :=
    stands_paren parallel (by rw [stands.type, stands'.type])
      (parallel.binary operator stands.value stands'.value)
  unfold lowerBinary
  rw [stands.literal, stands'.literal]
  cases y.literal? with
  | none => exact operation
  | some value =>
    cases y'.literal? with
    | none => exact operation
    | some value' => exact stands_literal parallel _

theorem literals_eq (related : List.Forall₂ (Stands f g) xs ys) :
    xs.mapM literal? = ys.mapM literal? := by
  induction related with
  | nil => rfl
  | cons first _ ih => rw [List.mapM_cons, List.mapM_cons, first.literal, ih]

theorem types_eq (related : List.Forall₂ (Stands f g) xs ys) :
    xs.map (·.type) = ys.map (·.type) := by
  induction related with
  | nil => rfl
  | cons first _ ih => rw [List.map_cons, List.map_cons, first.type, ih]

theorem values_eq (parallel : Code.Parallel f g) (related : List.Forall₂ (Stands f g) xs ys)
    (type : ValueType) :
    (xs.map fun x => (x.convert type).code).map f = (ys.map fun y => (y.convert type).code).map g := by
  induction related with
  | nil => rfl
  | cons first _ ih =>
    rw [List.map_cons, List.map_cons, List.map_cons, List.map_cons, first.convert parallel, ih]

theorem stands_smoothstep (parallel : Code.Parallel f g) {x y : Typed} (stands : x.Stands f g y)
    (low high : F32) :
    (Typed.mk (.paren (.binary .sub (splat .one x.type) (.call "smoothstep"
      [splat high x.type, splat low x.type, x.code]))) x.type).Stands f g
      ⟨.paren (.binary .sub (splat .one y.type) (.call "smoothstep"
        [splat high y.type, splat low y.type, y.code])), y.type⟩ := by
  rw [stands.type]
  refine stands_paren parallel rfl (parallel.binary .sub (splat_parallel parallel _ _) ?_)
  exact parallel.call "smoothstep" (by simp [stands.value, splat_parallel parallel])

theorem stands_step (parallel : Code.Parallel f g) {x y : Typed} (stands : x.Stands f g y)
    (edge : F32) :
    (Typed.mk (.call "step" [splat edge x.type, x.code]) x.type).Stands f g
      ⟨.call "step" [splat edge y.type, y.code], y.type⟩ := by
  rw [stands.type]
  exact stands_call parallel rfl (by simp [stands.value, splat_parallel parallel])

theorem stands_splat (parallel : Code.Parallel f g) {x y : Typed} (stands : x.Stands f g y)
    (value : F32) : (Typed.mk (splat value x.type) x.type).Stands f g
      ⟨splat value y.type, y.type⟩ := by
  rw [stands.type]
  exact ⟨rfl, rfl, splat_parallel parallel value y.type⟩

theorem forall₂_three {α β : Type} {R : α → β → Prop} {x y z : α} {others : List β}
    (related : List.Forall₂ R [x, y, z] others) :
    ∃ x' y' z', others = [x', y', z'] ∧ R x x' ∧ R y y' ∧ R z z' := by
  rcases List.forall₂_cons_left_iff.1 related with ⟨x', rest, first, two, rfl⟩
  rcases List.forall₂_cons_left_iff.1 two with ⟨y', rest, second, one, rfl⟩
  rcases List.forall₂_cons_left_iff.1 one with ⟨z', rest, third, done, rfl⟩
  cases done
  exact ⟨x', y', z', rfl, first, second, third⟩

/-- Misordered bounds are literals, so they are misordered in both lists or in neither. -/
theorem stands_lowerMisordered? (parallel : Code.Parallel f g) (function : Builtin)
    (related : List.Forall₂ (Stands f g) xs ys) :
    lowerMisordered? function xs = none ∧ lowerMisordered? function ys = none ∨
      ∃ x y, lowerMisordered? function xs = some x ∧ lowerMisordered? function ys = some y ∧
        x.Stands f g y := by
  unfold lowerMisordered?
  split
  · next x low high =>
    rcases forall₂_three related with ⟨y, low', high', rfl, first, second, third⟩
    dsimp only
    rw [second.literal, third.literal]
    cases low'.literal? with
    | none => exact .inl ⟨rfl, rfl⟩
    | some lowValue => cases high'.literal? with
      | none => exact .inl ⟨rfl, rfl⟩
      | some highValue =>
        by_cases less : highValue.lt lowValue = true
        · exact .inr ⟨_, _, if_pos less, if_pos less, stands_splat parallel first highValue⟩
        · exact .inl ⟨if_neg less, if_neg less⟩
  · next low high x =>
    rcases forall₂_three related with ⟨low', high', y, rfl, first, second, third⟩
    dsimp only
    rw [first.literal, second.literal]
    cases low'.literal? with
    | none => exact .inl ⟨rfl, rfl⟩
    | some lowValue => cases high'.literal? with
      | none => exact .inl ⟨rfl, rfl⟩
      | some highValue =>
        by_cases same : lowValue.same highValue = true
        · exact .inr ⟨_, _, if_pos same, if_pos same, stands_step parallel third lowValue⟩
        · by_cases less : highValue.lt lowValue = true
          · refine .inr ⟨_, _, (if_neg same).trans (if_pos less),
              (if_neg same).trans (if_pos less), ?_⟩
            exact stands_smoothstep parallel third lowValue highValue
          · exact .inl ⟨(if_neg same).trans (if_neg less), (if_neg same).trans (if_neg less)⟩
  · next no_clamp no_smoothstep =>
    refine .inl ⟨rfl, ?_⟩
    split
    · rcases forall₂_three related.flip with ⟨x, low, high, rfl, -⟩
      exact (no_clamp x low high rfl rfl).elim
    · rcases forall₂_three related.flip with ⟨low, high, x, rfl, -⟩
      exact (no_smoothstep low high x rfl rfl).elim
    · rfl

theorem stands_lowerPlainCall (parallel : Code.Parallel f g) (function : Builtin)
    (related : List.Forall₂ (Stands f g) xs ys) :
    (lowerPlainCall function xs).Stands f g (lowerPlainCall function ys) := by
  have types := congrArg ValueType.widest (types_eq related)
  have length := related.length_eq
  rcases lowerPlainCall_cases function xs types with
    ⟨x, x', rfl, rfl, scalar, same⟩ | ⟨proper, same⟩
  · rcases lowerPlainCall_cases .dot ys rfl with ⟨y, y', -, rfl, -, same'⟩ | ⟨proper', -⟩
    · cases related with
      | cons first rest =>
        cases rest with
        | cons second _ =>
          rw [same, same']
          exact stands_paren parallel rfl
            (parallel.binary .mul (first.convert parallel .f32) (second.convert parallel .f32))
    · exact absurd ⟨rfl, scalar, length.symm⟩ proper'
  · rcases lowerPlainCall_cases function ys rfl with ⟨y, y', dot, rfl, scalar, -⟩ | ⟨-, same'⟩
    · exact absurd ⟨dot, scalar, length⟩ proper
    · rw [same, same']
      exact stands_call parallel rfl (values_eq parallel related _)

theorem stands_lowerCall (parallel : Code.Parallel f g) (function : Builtin)
    (related : List.Forall₂ (Stands f g) xs ys) :
    (lowerCall function xs).Stands f g (lowerCall function ys) := by
  unfold lowerCall
  rw [literals_eq related]
  cases ys.mapM literal? with
  | some values => exact stands_literal parallel _
  | none =>
    rcases stands_lowerMisordered? parallel function related with
      ⟨recast, recast'⟩ | ⟨x, y, recast, recast', stands⟩
    · rw [recast, recast']
      exact stands_lowerPlainCall parallel function related
    · rw [recast, recast']
      exact stands

theorem stands_lowerSwizzle (parallel : Code.Parallel f g) (components : Swizzle) {x y x' : Typed}
    (stands : x.Stands f g y) (selected : lowerSwizzle x components = .ok x') :
    ∃ y', lowerSwizzle y components = .ok y' ∧ x'.Stands f g y' := by
  unfold lowerSwizzle at selected ⊢
  rw [← stands.type]
  split at selected
  · cases selected
  · next vector =>
    cases selected
    refine ⟨_, if_neg vector, rfl, ?_, ?_⟩
    · rw [literal?_select, literal?_select]
    · exact parallel.select components.text stands.value

/-- Lowering keeps what codes stand for. -/
theorem kept_stands (parallel : Code.Parallel f g) : Kept (Stands f g) where
  literal := stands_literal parallel
  negate := stands_lowerNegate parallel
  binary operator _ _ _ _ := stands_lowerBinary parallel operator
  call function _ _ _ := stands_lowerCall parallel function
  swizzle components _ _ _ := stands_lowerSwizzle parallel components

end Formula

end NodeShader
