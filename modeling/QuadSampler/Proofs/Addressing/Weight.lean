import QuadSampler.Proofs.Addressing.Range
import QuadSampler.Proofs.Single.UnitInterval

/-!
# Weights of linear filters

A linear filter weighs its second texel by what is left of the coordinate above a floor, in texels
and half a texel back. Every wrap mode brings a coordinate to texels in one of three ways
(`WrapMode.texels`) and then may hold it in a range (`WrapMode.heldTexels`), and the weight depends
on nothing else (`WrapMode.weight_eq_of_linear`).

A weight is a number from zero to one as long as what is held is finite. `WrapMode.Scales` says what
a mode needs of a coordinate for that: most modes hold it between finite bounds, and for them any
finite coordinate will do.

Past its edges `clampToBorder` takes the floor of a whole number, so there the weight is zero
(`WrapMode.linear_clampToBorder_of_le`, `WrapMode.linear_clampToBorder_of_ge`). The two edges differ
in one thing: before the first texel its two indices are `-1` and `0`, of which the second is that
of a texel, and behind the last texel both lie beside the texture.

## Weights below one

The weight of a linear filter is meant to be a proper fraction: a place that has reached the middle
of the second of two texels has that texel as its first, and the weight starts again at zero. Every
coordinate but one has such a weight. The exception, in texels, is the greatest number below one
half (`Single.belowHalf`). Half a texel back that is `-2⁻²⁵`, which is lost beside one when the
floor is taken off, so the weight is one. The first index is that before the first texel then, and
the first texel has the whole share.

No range in which a mode holds coordinates ends at that number, so every mode is concerned that lets
coordinates come down to it (`WrapMode.heldTexels_eq_belowHalf_iff`). Only `mirrorClampToEdge` does
not, since its range starts at one half.
-/

namespace QuadSampler

namespace Single

theorem isFinite_zero : (0 : Single).IsFinite := ⟨_, isAt_ofNat (n := 0) (by decide)⟩

private theorem isFinite_length_add_half (i : Int32) :
    (ofInt32 i + half).IsFinite ∧ (ofInt32 i - half).IsFinite := by
  obtain ⟨z, hz, hle, -, -⟩ := exists_isAt_length i
  have hrep := representable_two_pow_grid (e := 32) (by decide)
  have hhalf : ((2 : Int) ^ 148).natAbs ≤ gridPerOne := by decide
  have hadd := Int.natAbs_add_le z (2 ^ 148)
  have hsub := Int.natAbs_sub_le z (2 ^ 148)
  constructor
  · obtain ⟨v, hv, -⟩ := exists_isAt_of_position_place (hz.position_add isAt_half) Nat.one_pos hrep
      (by omega)
    exact hv.isFinite
  · obtain ⟨v, hv, -⟩ := exists_isAt_of_position_place (hz.position_sub isAt_half) Nat.one_pos hrep
      (by omega)
    exact hv.isFinite

end Single

/-! ## Coordinates in texels -/

namespace WrapMode

variable {mode : WrapMode} {axis : WrapAxis} {c : Single}

/-- The coordinate in texels, folded as the mode folds it. -/
def texels (mode : WrapMode) (axis : WrapAxis) (c : Single) : Single :=
  match mode with
  | .repeating | .clamp | .clampToEdge | .clampToBorder => axis.toTexels c
  | .mirrorRepeat => axis.mirrorTexels c
  | .mirrorClamp | .mirrorClampToEdge | .mirrorClampToBorder => axis.foldTexels c

/-- The coordinate in texels, moved into the range in which the mode holds it for a linear
filter. -/
def heldTexels (mode : WrapMode) (axis : WrapAxis) (c : Single) : Single :=
  let x := mode.texels axis c
  match mode with
  | .repeating | .mirrorRepeat => x
  | .clamp | .clampToEdge => x.clamp 0 axis.extent
  | .clampToBorder | .mirrorClampToBorder => x.clamp (-Single.half) (axis.extent + Single.half)
  | .mirrorClamp => x.minimum axis.extent
  | .mirrorClampToEdge => x.clamp Single.half (axis.extent - Single.half)

/-- The weight is what is left of the coordinate half a texel back, wherever the mode moves the
indices afterwards. -/
theorem weight_eq_of_linear {w : Straddle Single} (hw : mode.linear axis c = .ok w) :
    w.weight = (mode.heldTexels axis c - Single.half).fract := by
  cases mode with
  | repeating =>
    obtain ⟨first, -, hw⟩ := bind_eq_ok.1 hw
    obtain ⟨second, -, hw⟩ := bind_eq_ok.1 hw
    obtain rfl := Except.ok.inj hw
    rfl
  | clamp | clampToEdge | clampToBorder | mirrorRepeat | mirrorClamp | mirrorClampToEdge
  | mirrorClampToBorder =>
    obtain rfl := Except.ok.inj hw
    rfl

end WrapMode

/-! ## Weights between zero and one -/

/-- Whether a coordinate makes finite weights: it is finite, and in texels too wherever the mode
does not hold it between finite bounds. `mirrorClamp` lacks the lower one, which only shows on axes
so long that their index word is negative. -/
structure WrapMode.Scales (mode : WrapMode) (axis : WrapAxis) (c : Single) : Prop where
  finite : c.IsFinite
  repeating : mode = .repeating → (axis.toTexels c).IsFinite
  mirrorClamp : mode = .mirrorClamp → axis.length.toInt < 0 → (axis.foldTexels c).IsFinite

namespace WrapAxis

variable {axis : WrapAxis} {c : Single}

private theorem isFinite_extent (axis : WrapAxis) : axis.extent.IsFinite := by
  obtain ⟨z, hz, -⟩ := Single.exists_isAt_length axis.length
  exact hz.isFinite

private theorem isFinite_toFraction (hlength : axis.length ≠ 0) (hc : c.IsFinite) :
    (axis.toFraction c).IsFinite := by
  obtain ⟨z, hz, -, hone, -⟩ := Single.exists_isAt_length axis.length
  rw [toFraction]
  split
  · exact hc
  · exact hc.div hz (hone hlength)

private theorem isFinite_mirrorTexels (hlength : axis.length ≠ 0) (hc : c.IsFinite) :
    (axis.mirrorTexels c).IsFinite := by
  obtain ⟨z, hz, hz_le, -⟩ := Single.exists_isAt_length axis.length
  obtain ⟨v, hv, hv_le⟩ := (isFinite_toFraction hlength hc).exists_mirror
  have hrep := Single.representable_two_pow_grid (e := 63) (by decide)
  obtain ⟨v', hv', -⟩ := Single.exists_isAt_of_position_place (hv.position_mul hz)
    Single.gridPerOne_pos hrep (by
      rw [Int.natAbs_mul]
      calc v.natAbs * z.natAbs
          ≤ (2 ^ 32 * Single.gridPerOne) * (2 ^ 31 * Single.gridPerOne) :=
            Nat.mul_le_mul hv_le hz_le
        _ = 2 ^ 63 * Single.gridPerOne * Single.gridPerOne := by ring)
  exact hv'.isFinite

private theorem foldTexels_ne (hc : c.IsFinite)
    (h : axis.length.toInt < 0 → (axis.foldTexels c).IsFinite) :
    axis.foldTexels c ≠ .infinite true := by
  rcases lt_or_ge axis.length.toInt 0 with hneg | hnonneg
  · obtain ⟨z, s, m, hm, heq, -⟩ := h hneg
    rw [heq]
    intro hfinite
    cases hfinite
  · obtain ⟨e, he, -, -, hnn⟩ := Single.exists_isAt_length axis.length
    obtain ⟨_, s, m, hm, rfl, -⟩ := hc
    have hmagnitude : (Single.finite s m hm).abs.IsAt m := ⟨false, m, hm, rfl, rfl⟩
    rw [foldTexels, toTexels]
    split
    · have hproduct := hmagnitude.position_mul he
      have hplace := Single.place_nonneg (Int.mul_nonneg (Int.natCast_nonneg m) (hnn hnonneg))
        Single.gridPerOne
      intro heq
      rw [← extent, heq] at hproduct
      have hend : -(Single.overflow : Int) = Single.place (m * e) Single.gridPerOne :=
        Option.some.inj hproduct
      have hpos : 0 < Single.overflow := by decide
      omega
    · intro hfinite
      cases hfinite

end WrapAxis

namespace WrapMode.Scales

variable {mode : WrapMode} {axis : WrapAxis} {c : Single} {w : Straddle Single}
  (h : mode.Scales axis c) (hlength : axis.length ≠ 0)
include h hlength

theorem isFinite_heldTexels : (mode.heldTexels axis c).IsFinite := by
  have hextent := axis.isFinite_extent
  obtain ⟨hfar, hnear⟩ := Single.isFinite_length_add_half axis.length
  have hhalf : Single.half.IsFinite := Single.isAt_half.isFinite
  have hneg : (-Single.half).IsFinite := Single.isAt_half.neg.isFinite
  cases mode with
  | repeating => exact h.repeating rfl
  | clamp | clampToEdge => exact .clamp _ Single.isFinite_zero hextent
  | clampToBorder | mirrorClampToBorder => exact .clamp _ hneg hfar
  | mirrorRepeat => exact WrapAxis.isFinite_mirrorTexels hlength h.finite
  | mirrorClamp =>
    exact .minimum (WrapAxis.foldTexels_ne h.finite (h.mirrorClamp rfl)) hextent
  | mirrorClampToEdge => exact .clamp _ hhalf hnear

variable (hw : mode.linear axis c = .ok w)
include hw

/-- It has a weight between zero and one. -/
theorem inUnit_weight : w.weight.InUnit := by
  rw [weight_eq_of_linear hw]
  exact (h.isFinite_heldTexels hlength).sub_half.inUnit_fract

theorem isFinite_weight : w.weight.IsFinite := (h.inUnit_weight hlength hw).isFinite

end WrapMode.Scales

/-! ## Past the edges of an axis with a border -/

namespace Straddle

theorem atTexels_of_isAt {x : Single} {i : Int} (hx : x.IsAt (i * Single.gridPerOne + 2 ^ 148))
    (hi : i.natAbs ≤ 2 ^ 24) :
    (atTexels x).first.toInt = i ∧ (atTexels x).second.toInt = i + 1 ∧
      (atTexels x).weight.IsAt 0 := by
  have hrep : Single.Representable (i * Single.gridPerOne).natAbs := by
    rw [Int.natAbs_mul, Int.natAbs_natCast]
    exact Single.representable_grid hi
  have hmiddle : (x - Single.half).IsAt (i * Single.gridPerOne) := by
    have hposition := hx.position_sub Single.isAt_half
    rw [Int.add_sub_cancel, Single.place_one hrep] at hposition
    exact Single.isAt_of_position hposition hrep.1
  have hfirst : (atTexels x).first.toInt = i := by
    rw [first_atTexels, hmiddle.toInt_floorInt32 (by omega)]
  refine ⟨hfirst, ?_, ?_⟩
  · rw [second_atTexels, toInt_add_one (by omega), hfirst]
  · rw [weight_atTexels]
    exact hmiddle.fract_of_whole

end Straddle

section Border

variable {axis : WrapAxis} {c : Single} {length : Nat} {z : Int}
  (hlength : axis.length = Int32.ofNat length) (hle : length ≤ 2 ^ 22)
  (hc : (axis.toTexels c).IsAt z)
include hlength hle

private theorem WrapAxis.isAt_extent_add_half :
    (axis.extent + Single.half).IsAt (length * Single.gridPerOne + 2 ^ 148) := by
  have hrep : Single.Representable (length * Single.gridPerOne + 2 ^ 148 : Int).natAbs := by
    have hhalves : (length * Single.gridPerOne + 2 ^ 148 : Int)
        = (2 * length + 1 : Nat) * 2 ^ 148 := by
      rw [Single.gridPerOne_eq]
      push_cast
      ring
    rw [hhalves, Int.natAbs_mul, Int.natAbs_natCast]
    exact Single.representable_half_grid (by omega)
  have hposition := (isAt_extent hlength (by omega)).position_add Single.isAt_half
  rw [Single.place_one hrep] at hposition
  exact Single.isAt_of_position hposition hrep.1

include hc

theorem WrapMode.nearest_clampToBorder_of_outside
    (hout : Single.lt (axis.toTexels c) 0 = true ∨
      Single.le (Single.ofNat length) (axis.toTexels c) = true) {i : Int32}
    (hi : WrapMode.clampToBorder.nearest axis c = .ok i) :
    ¬ (0 ≤ i.toInt ∧ i.toInt < length) := by
  obtain rfl := Except.ok.inj hi
  have hgrid := Single.natCast_gridPerOne_pos
  have hint : axis.length.toInt = length := by
    rw [hlength]
    exact Int32.toInt_ofNat_of_lt (by omega)
  have hindex := toInt_clampIndex (axis.toTexels c).floorInt32 (-1) axis.length
  rw [hc.floorInt32, Single.toInt_saturate, hint] at hindex
  rw [hc.floorInt32]
  have hminus : (-1 : Int32).toInt = -1 := rfl
  rw [hminus] at hindex
  rcases hout with hbefore | hbehind
  · have hz := (Single.lt_iff_of_position hc.position Single.position_zero).1 hbefore
    have hdiv : z / Single.gridPerOne < 0 := Int.ediv_neg_of_neg_of_pos hz hgrid
    omega
  · have hz := (Single.le_iff_of_position (Single.isAt_ofNat (by omega)).position hc.position).1
      hbehind
    have hdiv : (length : Int) ≤ z / Single.gridPerOne := Int.le_ediv_of_mul_le hgrid hz
    omega

/-- Half a texel before the first texel, and anywhere before that, the first of two indices lies
beside the texture, and the weight is zero. -/
theorem WrapMode.linear_clampToBorder_of_le
    (hbefore : Single.le (axis.toTexels c) (-Single.half) = true) :
    ∃ w, WrapMode.clampToBorder.linear axis c = .ok w ∧ w.first.toInt = -1 ∧ w.weight.IsAt 0 := by
  have hlow := Single.isAt_half.neg
  have hhigh := WrapAxis.isAt_extent_add_half hlength hle
  have hz := (Single.le_iff_of_position hc.position hlow.position).1 hbefore
  have hclamp : ((axis.toTexels c).clamp (-Single.half) (axis.extent + Single.half)).IsAt
      (-1 * Single.gridPerOne + 2 ^ 148) := by
    have hposition := Single.position_minimum (Single.position_maximum hc.position hlow.position)
      hhigh.position
    have hnonneg : 0 ≤ (length : Int) * Single.gridPerOne + 2 ^ 148 := by positivity
    have hend : (-1 : Int) * Single.gridPerOne + 2 ^ 148 = -2 ^ 148 := by decide
    have hneg : (-2 ^ 148 : Int) ≤ 0 := by decide
    rw [max_eq_right hz, min_eq_left (hneg.trans hnonneg), ← hend] at hposition
    exact Single.isAt_of_position hposition (by decide)
  obtain ⟨hfirst, -, hweight⟩ := Straddle.atTexels_of_isAt hclamp (by decide)
  exact ⟨_, rfl, hfirst, hweight⟩

/-- Half a texel behind the last texel, and anywhere behind that, both indices lie beside the
texture, and the weight is zero. -/
theorem WrapMode.linear_clampToBorder_of_ge
    (hbehind : Single.le (Single.ofNat length + Single.half) (axis.toTexels c) = true) :
    ∃ w, WrapMode.clampToBorder.linear axis c = .ok w ∧ w.first.toInt = length ∧
      w.second.toInt = length + 1 ∧ w.weight.IsAt 0 := by
  have hlow := Single.isAt_half.neg
  have hhigh := WrapAxis.isAt_extent_add_half hlength hle
  have hend : (Single.ofNat length + Single.half).position
      = some ((length : Int) * Single.gridPerOne + 2 ^ 148) := by
    rw [(Single.isAt_ofNat (by omega)).position_add Single.isAt_half,
      Single.place_one hhigh.representable]
  have hz := (Single.le_iff_of_position hend hc.position).1 hbehind
  have hclamp : ((axis.toTexels c).clamp (-Single.half) (axis.extent + Single.half)).IsAt
      (length * Single.gridPerOne + 2 ^ 148) := by
    have hposition := Single.position_minimum (Single.position_maximum hc.position hlow.position)
      hhigh.position
    rw [min_eq_right (hz.trans (le_max_left _ _))] at hposition
    exact Single.isAt_of_position hposition hhigh.representable.1
  obtain ⟨hfirst, hsecond, hweight⟩ := Straddle.atTexels_of_isAt hclamp (by omega)
  exact ⟨_, rfl, hfirst, hsecond, hweight⟩

end Border

/-! ## Weights below one -/

private theorem WrapAxis.exists_isAt_extent_of_pos {axis : WrapAxis}
    (hpos : 0 < axis.length.toInt) :
    ∃ z, axis.extent.IsAt z ∧ (Single.gridPerOne : Int) ≤ z := by
  obtain ⟨z, hz, -, hone, hnonneg⟩ := Single.exists_isAt_length axis.length
  have hle := hone (ne_zero_of_toInt_pos hpos)
  have hz0 := hnonneg hpos.le
  exact ⟨z, hz, by omega⟩

namespace WrapMode

/-! ### Coordinates held just below one half -/

section Held

variable {axis : WrapAxis} (hpos : 0 < axis.length.toInt) (c : Single)
include hpos

/-- Where a coordinate is held just below one half, it has not been moved there. -/
theorem heldTexels_eq_belowHalf_iff {mode : WrapMode} (hmode : mode ≠ .mirrorClampToEdge) :
    mode.heldTexels axis c = Single.belowHalf ↔ mode.texels axis c = Single.belowHalf := by
  obtain ⟨z, hextent, hone⟩ := WrapAxis.exists_isAt_extent_of_pos hpos
  have hgrid := Single.gridPerOne_eq
  have hhalf := Single.isAt_half
  have hbelow := Single.isAt_belowHalf.position
  have hfar : 2 ^ 149 ≤ Single.place (z + 2 ^ 148) 1 :=
    Single.le_place_of_le Single.isAt_one.representable (by omega)
  cases mode with
  | repeating | mirrorRepeat => rfl
  | clamp | clampToEdge =>
    exact Single.clamp_eq_iff Single.position_zero hextent.position hbelow (by decide) (by omega)
  | clampToBorder | mirrorClampToBorder =>
    exact Single.clamp_eq_iff hhalf.neg.position (hextent.position_add hhalf) hbelow (by decide)
      (by omega)
  | mirrorClamp => exact Single.minimum_eq_iff hextent.position hbelow (by omega)
  | mirrorClampToEdge => exact absurd rfl hmode

private theorem heldTexels_mirrorClampToEdge_ne :
    mirrorClampToEdge.heldTexels axis c ≠ Single.belowHalf := by
  obtain ⟨z, hextent, hone⟩ := WrapAxis.exists_isAt_extent_of_pos hpos
  have hgrid := Single.gridPerOne_eq
  have hhalf := Single.isAt_half
  have hfar : 2 ^ 148 ≤ Single.place (z - 2 ^ 148) 1 :=
    Single.le_place_of_le hhalf.representable (by omega)
  obtain ⟨p, hp, hlow, -⟩ := Single.position_clamp_mem (mirrorClampToEdge.texels axis c)
    hhalf.position (hextent.position_sub hhalf) hfar
  intro hheld
  have hposition : Single.belowHalf.position = some p := hheld ▸ hp
  have hplace := Option.some.inj (hposition.symm.trans Single.isAt_belowHalf.position)
  omega

end Held

/-! ### Weights of one -/

private theorem exists_linear (mode : WrapMode) {axis : WrapAxis}
    (hlength : SoundLength axis.length axis.powerOfTwo) (c : Single) :
    ∃ w, mode.linear axis c = .ok w := by
  by_cases hmode : mode = .mirrorClampToEdge
  · subst hmode
    exact ⟨_, rfl⟩
  · obtain ⟨w, hw, -⟩ := mode.exists_linear_eq_ok axis hlength (fun h ↦ absurd h hmode) c
    exact ⟨w, hw⟩

end WrapMode

/-- **Linear weights are proper fractions, but for one coordinate.** Under every mode and along
every axis with texels, a finite coordinate that stays finite in texels has a weight from zero to
one. It is below one unless the coordinate, in texels and folded as the mode folds it, is the
greatest number below one half; then it is one under every mode but `mirrorClampToEdge`. -/
theorem linear_weights_below_one (mode : WrapMode) {axis : WrapAxis}
    (hlength : SoundLength axis.length axis.powerOfTwo) {c : Single} (hc : c.IsFinite)
    (hscaled : mode = .repeating → (axis.toTexels c).IsFinite) :
    ∃ w, mode.linear axis c = .ok w ∧ Single.le 0 w.weight = true ∧ w.weight.le 1 = true ∧
      (w.weight.lt 1 = true ↔
        mode = .mirrorClampToEdge ∨ mode.texels axis c ≠ Single.belowHalf) := by
  have hpos := hlength.pos
  have hne := ne_zero_of_toInt_pos hpos
  have hscales : mode.Scales axis c := ⟨hc, hscaled, fun _ hneg ↦ absurd hneg hpos.not_gt⟩
  obtain ⟨w, hw⟩ := mode.exists_linear hlength c
  have hunit := hscales.inUnit_weight hne hw
  refine ⟨w, hw, hunit.zero_le, hunit.le_one, ?_⟩
  rw [WrapMode.weight_eq_of_linear hw,
    Single.fract_sub_half_lt_one_iff (hscales.isFinite_heldTexels hne)]
  by_cases hmode : mode = .mirrorClampToEdge
  · subst hmode
    exact iff_of_true (WrapMode.heldTexels_mirrorClampToEdge_ne hpos c) (.inl rfl)
  · rw [or_iff_right hmode, ne_eq, WrapMode.heldTexels_eq_belowHalf_iff hpos c hmode]

/-- Four repeated texels, and four that are clamped, at `0.125 - 2⁻²⁷` of the axis. -/
theorem linear_weights_below_one_four :
    (∃ w, WrapMode.repeating.linear ⟨4, true, true⟩ (Single.ofBits 0x3dffffff) = .ok w ∧
      w.weight.le 1 = true ∧ ¬ w.weight.lt 1 = true) ∧
    ∃ w, WrapMode.mirrorClampToEdge.linear ⟨4, true, true⟩ (Single.ofBits 0x3dffffff) = .ok w ∧
      w.weight.lt 1 = true := by
  have hsound : SoundLength 4 true := ⟨by decide, fun _ ↦ ⟨2, by decide⟩⟩
  have hfinite : (Single.ofBits 0x3dffffff).IsFinite := by decide +kernel
  have htexels : (WrapAxis.mk 4 true true).toTexels (Single.ofBits 0x3dffffff)
      = Single.belowHalf := by decide +kernel
  obtain ⟨w, hw, -, hle, hlt⟩ := @linear_weights_below_one .repeating ⟨4, true, true⟩ hsound _
    hfinite fun _ ↦ htexels ▸ Single.isAt_belowHalf.isFinite
  obtain ⟨w', hw', -, -, hlt'⟩ := @linear_weights_below_one .mirrorClampToEdge ⟨4, true, true⟩
    hsound _ hfinite fun h ↦ absurd h (by decide)
  refine ⟨⟨w, hw, hle, fun h ↦ ?_⟩, w', hw', hlt'.2 (.inl rfl)⟩
  exact (hlt.1 h).elim (by decide) fun hne ↦ hne htexels

end QuadSampler
