import NodeShader.Compile.Node
import NodeShader.Proofs.Compile.Inputs
import NodeShader.Proofs.Floating.Order
import NodeShader.Proofs.Formula.Typing

/-!
The edges of a circle whose radius and softness are constants. They are rounded apart from each
other, so they are in order unless both are rounded to the radius or one of them is too large to be
written.
-/

namespace NodeShader

namespace F32

open Floating

/-- The rank of the least softness. -/
def softRank : Nat := 953267991

/-- The rank of 2048. -/
def farRank : Nat := 1157627904

theorem place_orZero {x : F32} {place : Int} (known : x.place = some place) :
    x.orZero.place = some (if x.isFinite then place else 0) := by
  unfold orZero
  split
  · exact known
  · exact place_zero false

section

variable {s t : Bool} {a b : Fin Format.binary32.ranks} (positive : 0 < signedUnits t b)

include positive

theorem isFinite_sub (above : 0 ≤ signedUnits s a) :
    ((finite s a : F32) - finite t b).isFinite = true := by
  have between : signedUnits (!t) b ≤ signedUnits s a - signedUnits t b := by
    rw [signedUnits_not]
    omega
  rw [sub_finite]
  exact isFinite_ofUnits between (show _ ≤ signedUnits s a by omega) _

theorem isFinite_add (below : signedUnits s a ≤ 0) :
    ((finite s a : F32) + finite t b).isFinite = true :=
  isFinite_ofUnits (show signedUnits s a ≤ signedUnits s a + signedUnits t b by omega)
    (show _ ≤ signedUnits t b by omega) _

end

variable {radius edge : F32}

/-- Edges around a radius are in order if one of them differs from it; if one has become zero for
being too large, if the radius is within the softness. -/
theorem edges_lt_iff (finite_radius : radius.isFinite = true) (finite_edge : edge.isFinite = true)
    (soft : (zero false : F32).lt edge = true) :
    (radius - edge).orZero.lt (radius + edge).orZero = true ↔
      if ((radius - edge).isFinite && (radius + edge).isFinite) = true then
        (radius - edge).lt radius = true ∨ radius.lt (radius + edge) = true
      else radius.abs.lt edge = true := by
  obtain ⟨s, a, rfl⟩ := eq_finite finite_radius
  obtain ⟨t, b, rfl⟩ := eq_finite finite_edge
  have positive : 0 < signedUnits t b := lt_iff_units.1 soft
  have least := Format.nearestPlace_mono .binary32
    (show signedUnits s a - signedUnits t b ≤ signedUnits s a by omega)
  have most := Format.nearestPlace_mono .binary32
    (show signedUnits s a ≤ signedUnits s a + signedUnits t b by omega)
  have low_sign := Format.nearestPlace_lt_zero .binary32 (signedUnits s a - signedUnits t b)
  have high_sign := Format.nearestPlace_pos .binary32 (signedUnits s a + signedUnits t b)
  have magnitude : (finite s a : F32).abs.lt (finite t b) = true ↔
      ((signedUnits s a).natAbs : Int) < signedUnits t b := by
    rw [← signedUnits_natAbs]
    exact lt_iff_units
  rw [lt_iff_places (place_orZero place_sub) (place_orZero place_add), magnitude,
    lt_iff_places place_sub (place_finite s a), lt_iff_places (place_finite s a) place_add]
  cases lower : ((finite s a : F32) - finite t b).isFinite with
  | false =>
    have negative : signedUnits s a < 0 := by
      by_contra above
      rw [isFinite_sub positive (by omega)] at lower
      cases lower
    rw [isFinite_add positive (by omega), if_neg nofun, if_pos rfl, if_neg nofun]
    omega
  | true =>
    cases upper : ((finite s a : F32) + finite t b).isFinite with
    | false =>
      have above : 0 < signedUnits s a := by
        by_contra below
        rw [isFinite_add positive (by omega)] at upper
        cases upper
      rw [if_pos rfl, if_neg nofun, if_neg nofun]
      omega
    | true =>
      rw [if_pos rfl, if_pos rfl, Bool.and_self, if_pos rfl]
      omega

/-- Around a magnitude of at most 2048 the least softness is more than half of the distance to the
magnitude below. -/
theorem wide_of_le {rank width : Nat} (small : rank ≤ farRank)
    (soft : Format.units .binary32 softRank ≤ width) :
    2 ^ ((rank - 1) / Format.binade .binary32 - 1) < 2 * width := by
  calc
    2 ^ ((rank - 1) / Format.binade .binary32 - 1)
        ≤ 2 ^ ((farRank - 1) / Format.binade .binary32 - 1) :=
      Nat.pow_le_pow_right (by decide)
        (Nat.sub_le_sub_right (Nat.div_le_div_right (Nat.sub_le_sub_right small 1)) 1)
    _ < 2 * Format.units .binary32 softRank := by decide +kernel
    _ ≤ 2 * width := Nat.mul_le_mul_left 2 soft

/-- The largest finite number is not left by so little. -/
theorem isFinite_near {units : Int} {negativeZero : Bool} (near : units.natAbs ≤
      Format.units .binary32 farRank + Format.units .binary32 (Format.ranks .binary32 - 1)) :
    (ofUnits negativeZero units : F32).isFinite = true := by
  have most := Format.nearestRank_mono .binary32 near
  have below : Format.nearestRank .binary32 (Format.units .binary32 farRank +
      Format.units .binary32 (Format.ranks .binary32 - 1)) < Format.ranks .binary32 := by
    decide +kernel
  apply isFinite_iff.2 ⟨_, place_ofUnits _ _, _⟩
  unfold Format.nearestPlace
  split <;> omega

theorem minimalEdge_eq : Node.minimalEdge = .finite false ⟨softRank, by decide +kernel⟩ := by
  decide +kernel

theorem pos_of_soft (finite_edge : edge.isFinite = true) (soft : Node.minimalEdge.le edge = true) :
    (zero false : F32).lt edge = true := by
  obtain ⟨t, b, rfl⟩ := eq_finite finite_edge
  have some_unit : 0 < Format.units .binary32 softRank := by decide +kernel
  rw [minimalEdge_eq, le_iff_units] at soft
  change (Format.units .binary32 softRank : Int) ≤ signedUnits t b at soft
  exact lt_iff_units.2 (show 0 < signedUnits t b by omega)

section

variable {s : Bool} {a b : Fin Format.binary32.ranks} (small : a.val ≤ farRank)
  (soft : Format.units .binary32 softRank ≤ Format.units .binary32 b)

include small

theorem edges_finite : ((finite s a : F32) - finite false b).isFinite = true ∧
    ((finite s a : F32) + finite false b).isFinite = true := by
  have magnitude : (Format.units .binary32 a : Int) = (signedUnits s a).natAbs :=
    signedUnits_natAbs s a
  have radius : Format.units .binary32 a ≤ Format.units .binary32 farRank :=
    (Format.units_strictMono .binary32).monotone small
  have edge : Format.units .binary32 b ≤ Format.units .binary32 (Format.ranks .binary32 - 1) :=
    (Format.units_strictMono .binary32).monotone (by omega)
  rw [sub_finite, add_finite]
  constructor
  · apply isFinite_near
    change (signedUnits s a - Format.units .binary32 b).natAbs ≤ _
    omega
  · apply isFinite_near
    change (signedUnits s a + Format.units .binary32 b).natAbs ≤ _
    omega

include soft

/-- The edge on the side of zero differs from the radius. -/
theorem edges_apart : ((finite s a : F32) - finite false b).lt (finite s a) = true ∨
    (finite s a).lt ((finite s a : F32) + finite false b) = true := by
  have below := Format.nearestPlace_sub_lt .binary32 a.isLt (wide_of_le small soft)
  have opposite := Format.nearestPlace_neg .binary32
    (Format.units .binary32 a - Format.units .binary32 b)
  rw [lt_iff_places place_sub (place_finite s a), lt_iff_places (place_finite s a) place_add,
    nearestPlace_signedUnits]
  cases s with
  | false => exact .inl below
  | true =>
    have upper : -(Format.units .binary32 a - Format.units .binary32 b : Int) =
        signedUnits true a + signedUnits false b := by
      simp only [signedUnits, Bool.false_eq_true, if_true, if_false]
      omega
    rw [upper] at opposite
    right
    rw [if_pos rfl, opposite]
    omega

end

/-- Edges that are soft enough are in order around a radius that is not too large. -/
theorem edges_lt_of_le (finite_radius : radius.isFinite = true) (finite_edge : edge.isFinite = true)
    (soft : Node.minimalEdge.le edge = true) (small : radius.abs.le (F32.ofDecimal 2048 0) = true) :
    (radius - edge).orZero.lt (radius + edge).orZero = true := by
  obtain ⟨s, a, rfl⟩ := eq_finite finite_radius
  obtain ⟨t, b, rfl⟩ := eq_finite finite_edge
  have positive := pos_of_soft rfl soft
  have most : F32.ofDecimal 2048 0 = .finite false ⟨farRank, by decide +kernel⟩ := by
    decide +kernel
  rw [minimalEdge_eq, le_iff_units] at soft
  change (Format.units .binary32 softRank : Int) ≤ signedUnits t b at soft
  rw [most] at small
  have small_units : (Format.units .binary32 a : Int) ≤ Format.units .binary32 farRank :=
    le_iff_units.1 small
  have small_rank : a.val ≤ farRank :=
    (Format.units_strictMono .binary32).le_iff_le.1 (Int.ofNat_le.1 small_units)
  cases t with
  | false =>
    obtain ⟨low_finite, high_finite⟩ := edges_finite (s := s) (b := b) small_rank
    rw [edges_lt_iff rfl rfl positive, low_finite, high_finite, Bool.and_self, if_pos rfl]
    exact edges_apart small_rank (Int.ofNat_le.1 soft)
  | true =>
    have above : 0 < -(Format.units .binary32 b : Int) := lt_iff_units.1 positive
    omega

/-- The greater one of finite numbers is finite and at least the second. -/
theorem max_finite {x least : F32} (finite_x : x.isFinite = true)
    (finite_least : least.isFinite = true) :
    (x.max least).isFinite = true ∧ least.le (x.max least) = true := by
  obtain ⟨s, a, rfl⟩ := eq_finite finite_x
  obtain ⟨t, b, rfl⟩ := eq_finite finite_least
  have greater : (finite s a : F32).max (finite t b) =
      if (finite s a).lt (finite t b) = true then finite t b else finite s a := rfl
  rw [greater]
  split
  · exact ⟨rfl, le_iff_units.2 (Int.le_refl _)⟩
  · next above =>
    rw [lt_iff_units] at above
    exact ⟨rfl, le_iff_units.2 (by omega)⟩

end F32

namespace Node

/-- A circle with an edge that begins and ends at given distances. -/
def circleBetween (low high : Code) : Typed :=
  ⟨.binary .sub (.number 1 0) (.call "smoothstep" [low, high,
    .call "distance" [uvCode.code, .call "vec2f" [.number 5 (-1), .number 5 (-1)]]]), .f32⟩

variable (node : Node) (inputs : Inputs)

/-- A node that contributes a circle whose edge begins and ends at the numbers of literals. -/
def HasEdges (low high : F32) : Prop :=
  ∃ lower upper : Typed, lower.literal? = some low ∧ upper.literal? = some high ∧
    ∀ options, node.compile inputs options = pure (.value (circleBetween lower.code upper.code))

/-- The radius that the parameters give. -/
def radius : F32 := node.finiteParam "radius" (.ofDecimal 25 (-2))

/-- The softness that the parameters give, if it is enough. -/
def softness : F32 := (node.finiteParam "edge" (.ofDecimal 2 (-2))).max minimalEdge

/-- Where the edge begins; zero if that is too large to be written. -/
def innerEdge : F32 := (node.radius - node.softness).orZero

/-- Where the edge ends; zero if that is too large to be written. -/
def outerEdge : F32 := (node.radius + node.softness).orZero

variable {node inputs}

theorem isFinite_finiteParam {key : String} {default : F32} (finite : default.isFinite = true) :
    (node.finiteParam key default).isFinite = true := by
  unfold finiteParam
  cases known : (node.scalarParam? key).filter (·.isFinite) with
  | none => exact finite
  | some value => exact (Option.filter_eq_some_iff.1 known).2

theorem isFinite_radius (node : Node) : node.radius.isFinite = true :=
  isFinite_finiteParam (by decide +kernel)

theorem softness_spec (node : Node) :
    node.softness.isFinite = true ∧ minimalEdge.le node.softness = true :=
  F32.max_finite (isFinite_finiteParam (by decide +kernel)) (by decide +kernel)

/-- In an empty slot stands the parameter. -/
theorem scalar_bare {slot : Nat} (bare : inputs.find? slot = none) (default : F32) :
    scalar inputs slot default = .literal default.orZero := by
  have value : inputs.getOr slot .f32 (.literal default) = .literal default := by
    change ((inputs.find? slot).getD (.literal default)).convert .f32 = _
    rw [bare]
    rfl
  rw [scalar, value, Typed.literal?_literal]

theorem hasEdges (kind : node.kind = .circleField) (bare : inputs.find? 0 = none)
    (bare' : inputs.find? 1 = none) : node.HasEdges inputs node.innerEdge node.outerEdge := by
  have finite_edge : (node.finiteParam "edge" (.ofDecimal 2 (-2))).isFinite = true :=
    isFinite_finiteParam (by decide +kernel)
  have radius : scalar inputs 0 (node.finiteParam "radius" (.ofDecimal 25 (-2))) =
      .literal node.radius := by
    rw [scalar_bare bare]
    exact congrArg Typed.literal (F32.orZero_of_isFinite node.isFinite_radius)
  have edge : atLeastMinimal (scalar inputs 1 (node.finiteParam "edge" (.ofDecimal 2 (-2)))) =
      .literal node.softness := by
    rw [scalar_bare bare', F32.orZero_of_isFinite finite_edge, atLeastMinimal,
      Typed.literal?_literal, F32.orZero_of_isFinite finite_edge]
    rfl
  have operation (operator : Operator) :
      folded operator (.literal node.radius) (.literal node.softness) =
        .literal (operator.apply node.radius node.softness) := by
    rw [folded, Typed.literal?_literal, Typed.literal?_literal,
      F32.orZero_of_isFinite node.isFinite_radius, F32.orZero_of_isFinite node.softness_spec.1]
  refine ⟨.literal (node.radius - node.softness), .literal (node.radius + node.softness), rfl, rfl,
    ?_⟩
  intro options
  have circle : node.circle inputs = circleBetween (.literal (node.radius - node.softness))
      (.literal (node.radius + node.softness)) := by
    unfold Node.circle
    rw [radius, edge]
    dsimp only
    rw [operation, operation]
    rfl
  rw [compile, kind]
  exact congrArg (fun value => pure (Emission.value value)) circle

/-- The edges of a circle whose slots are empty are finite. They are in order up to a radius of
2048, and beyond it unless both are rounded to the radius; where one of them is too large to be
written, if the radius is within the softness. -/
theorem circle_edges (kind : node.kind = .circleField) (bare : inputs.find? 0 = none)
    (bare' : inputs.find? 1 = none) :
    node.HasEdges inputs node.innerEdge node.outerEdge ∧
      node.innerEdge.isFinite = true ∧ node.outerEdge.isFinite = true ∧
      (node.innerEdge.lt node.outerEdge = true ↔
        if ((node.radius - node.softness).isFinite && (node.radius + node.softness).isFinite) = true
        then (node.radius - node.softness).lt node.radius = true ∨
          node.radius.lt (node.radius + node.softness) = true
        else node.radius.abs.lt node.softness = true) ∧
      (node.radius.abs.le (F32.ofDecimal 2048 0) = true →
        node.innerEdge.lt node.outerEdge = true) := by
  obtain ⟨finite_softness, soft⟩ := node.softness_spec
  have positive := F32.pos_of_soft finite_softness soft
  exact ⟨hasEdges kind bare bare', F32.isFinite_orZero _, F32.isFinite_orZero _,
    F32.edges_lt_iff node.isFinite_radius finite_softness positive,
    F32.edges_lt_of_le node.isFinite_radius finite_softness soft⟩

/-- A circle with parameters for its radius and its softness. -/
def disc (radius edge : String) : Node :=
  ⟨"c", "CircleField", [], [("radius", .string radius), ("edge", .string edge)]⟩

def slotless : Inputs := ⟨[], .empty⟩

theorem kind_disc (radius edge : String) : (disc radius edge).kind = .circleField :=
  NodeKind.ofName_name .circleField

/-- The least softness at the largest radius for which it is enough. -/
theorem disc_edges : (disc "2048" "0").HasEdges slotless (disc "2048" "0").innerEdge
      (disc "2048" "0").outerEdge ∧
    (disc "2048" "0").innerEdge.lt (disc "2048" "0").outerEdge = true := by
  have bare (slot : Nat) : slotless.find? slot = none := rfl
  obtain ⟨edges, -, -, -, order⟩ := circle_edges (kind_disc "2048" "0") (bare 0) (bare 1)
  exact ⟨edges, order (by decide +kernel)⟩

/-- The next radius is one for which it is not. -/
example : (disc "2048.0002" "0").innerEdge = (disc "2048.0002" "0").outerEdge := by decide +kernel

/-- At twice that radius both edges are rounded to it, and an outer edge that is too large becomes a
zero. -/
theorem disc_edges_misordered :
    (disc "4096" "0").HasEdges slotless (.ofDecimal 4096 0) (.ofDecimal 4096 0) ∧
      ∃ low : F32, (disc "3.4e38" "3e38").HasEdges slotless low (.zero false) ∧
        (Floating.zero false : F32).lt low = true := by
  have bare (slot : Nat) : slotless.find? slot = none := rfl
  have edges := hasEdges (kind_disc "4096" "0") (bare 0) (bare 1)
  have inner : (disc "4096" "0").innerEdge = .ofDecimal 4096 0 := by decide +kernel
  have outer : (disc "4096" "0").outerEdge = .ofDecimal 4096 0 := by decide +kernel
  rw [inner, outer] at edges
  have edges' := hasEdges (kind_disc "3.4e38" "3e38") (bare 0) (bare 1)
  have outer' : (disc "3.4e38" "3e38").outerEdge = .zero false := by decide +kernel
  rw [outer'] at edges'
  exact ⟨edges, _, edges', by decide +kernel⟩

end Node

end NodeShader
