import QuadSampler.Proofs.Addressing.Index
import QuadSampler.Proofs.Outcome
import QuadSampler.Proofs.Single.Position

/-!
# Where wrapped coordinates land

Whatever a coordinate is, not-a-number and the infinities included, every wrap mode makes an index
that can be fetched: that of a texel, or one beside the texture if the mode has a border for it
(`WrapMode.Serves`).

All modes but one see to this on the index, after the coordinate became an integer.
`mirrorClampToEdge` under a linear filter clamps the first of its two indices as a coordinate only,
between the middles of the first and the last texel, and takes off half a texel afterwards. Up to a
length of `2 ^ 23` both middles are representable, so the two steps keep the range exactly
(`isTexel_floorInt32_clamp`); beyond it they would not.
-/

namespace QuadSampler

/-- Whether an index along an axis is that of a texel, or the border stands for it. -/
def WrapMode.Serves (mode : WrapMode) (length i : Int32) : Prop :=
  IsTexel length i ∨ mode.usesBorder = true

/-! ## One texel -/

theorem WrapMode.exists_nearest_eq_ok (mode : WrapMode) (axis : WrapAxis)
    (h : SoundLength axis.length axis.powerOfTwo) (c : Single) :
    ∃ i, mode.nearest axis c = .ok i ∧ mode.Serves axis.length i := by
  cases mode with
  | repeating =>
    obtain ⟨i, hi, htexel⟩ := h.repeatIndex_eq_ok (axis.toTexels c).floorInt32
    exact ⟨i, hi, .inl htexel⟩
  | clamp | clampToEdge => exact ⟨_, rfl, .inl (isTexel_clampIndex h.pos _)⟩
  | mirrorRepeat => exact ⟨_, rfl, .inl (isTexel_clampIndex h.pos _)⟩
  | mirrorClamp | mirrorClampToEdge => exact ⟨_, rfl, .inl (isTexel_clampIndex h.pos _)⟩
  | clampToBorder | mirrorClampToBorder => exact ⟨_, rfl, .inr rfl⟩

/-! ## The middles of the first and the last texel -/

namespace Single

theorem gridPerOne_eq : gridPerOne = 2 * 2 ^ 148 := by
  rw [gridPerOne, ← Nat.pow_add_one']

theorem isAt_ofInt32_sub_half {length : Int32} (hpos : 0 < length.toInt)
    (hlength : length.toInt ≤ 2 ^ 23) :
    (ofInt32 length - half).IsAt ((2 * length.toInt - 1) * 2 ^ 148) := by
  have hrep : Representable ((2 * length.toInt - 1) * 2 ^ 148).natAbs := by
    have habs : ((2 * length.toInt - 1) * 2 ^ 148).natAbs
        = (2 * length.toInt - 1).natAbs * 2 ^ 148 := by
      rw [Int.natAbs_mul]
      rfl
    rw [habs]
    exact representable_half_grid (by omega)
  have hexact : length.toInt * gridPerOne - 2 ^ 148 = (2 * length.toInt - 1) * 2 ^ 148 := by
    rw [gridPerOne_eq]
    push_cast
    ring
  have hposition := (isAt_ofInt32 (i := length) (by omega)).position_sub isAt_half
  rw [hexact, place_one hrep] at hposition
  exact isAt_of_position hposition hrep.1

theorem floorInt32_clamp_mem {far : Single} {z : Int} (hfar : far.IsAt z) (hlow : 2 ^ 148 ≤ z)
    (hhigh : z < 2 ^ 31 * gridPerOne) (x : Single) :
    0 ≤ (x.clamp half far - half).floorInt32.toInt ∧
      (x.clamp half far - half).floorInt32.toInt ≤ z / gridPerOne := by
  have hstep : (0 : Int) < 2 ^ 148 := by positivity
  have hend := hfar.representable.1
  obtain ⟨p, hp, hlo, hhi⟩ := position_clamp_mem x isAt_half.position hfar.position hlow
  have hclamp : (x.clamp half far).IsAt p := isAt_of_position hp (by omega)
  have hzero : Representable (0 : Int).natAbs := representable_grid (n := 0) (by decide)
  obtain ⟨hlo', hhi'⟩ := place_mem (z := p - 2 ^ 148) (b := 1) Nat.one_pos hzero hfar.representable
    (by omega) (by omega)
  have hdiff : (x.clamp half far - half).IsAt (place (p - 2 ^ 148) 1) :=
    isAt_of_position (hclamp.position_sub isAt_half) (by omega)
  have hdiv := Int.ediv_le_ediv natCast_gridPerOne_pos hhi'
  have hdiv0 := Int.ediv_nonneg hlo' natCast_gridPerOne_pos.le
  have hlt : z / gridPerOne < 2 ^ 31 := Int.ediv_lt_of_lt_mul natCast_gridPerOne_pos hhigh
  rw [hdiff.floorInt32, toInt_saturate]
  omega

/-- A coordinate held between the middles of the first and the last texel stays on the axis when
half a texel is taken off. -/
theorem isTexel_floorInt32_clamp {length : Int32} (hpos : 0 < length.toInt)
    (hlength : length.toInt ≤ 2 ^ 23) (x : Single) :
    IsTexel length (x.clamp half (ofInt32 length - half) - half).floorInt32 := by
  have hgrid := gridPerOne_eq
  have hstep : (0 : Int) < 2 ^ 148 := by positivity
  obtain ⟨hlow, hhigh⟩ := floorInt32_clamp_mem (isAt_ofInt32_sub_half hpos hlength)
    (by nlinarith) (by rw [hgrid]; push_cast; nlinarith) x
  have hdiv : (2 * length.toInt - 1) * 2 ^ 148 / gridPerOne < length.toInt :=
    Int.ediv_lt_of_lt_mul natCast_gridPerOne_pos (by rw [hgrid]; push_cast; nlinarith)
  exact ⟨hlow, by omega⟩

end Single

theorem WrapAxis.isAt_extent {axis : WrapAxis} {length : Nat}
    (hlength : axis.length = Int32.ofNat length) (hle : length ≤ 2 ^ 24) :
    axis.extent.IsAt (length * Single.gridPerOne) := by
  have hint : (Int32.ofNat length).toInt = length := Int32.toInt_ofNat_of_lt (by omega)
  have h := Single.isAt_ofInt32 (i := Int32.ofNat length) (by omega)
  rwa [hint, ← hlength] at h

/-! ## Two texels -/

theorem isTexel_min_succ {length i : Int32} (hpos : 0 < length.toInt) (h0 : 0 ≤ i.toInt)
    (hlt : i.toInt < 2 ^ 31 - 1) : IsTexel length (min (i + 1) (length - 1)) := by
  have hnext : (i + 1).toInt = i.toInt + 1 := toInt_add_one (by omega)
  have hlast : (length - 1).toInt = length.toInt - 1 := toInt_sub_one (by omega)
  rw [IsTexel, toInt_min, hnext, hlast]
  omega

/-- Both texels of a linear filter can be fetched. Only `mirrorClampToEdge` limits the length. -/
theorem WrapMode.exists_linear_eq_ok (mode : WrapMode) (axis : WrapAxis)
    (h : SoundLength axis.length axis.powerOfTwo)
    (hlength : mode = .mirrorClampToEdge → axis.length.toInt ≤ 2 ^ 23) (c : Single) :
    ∃ w, mode.linear axis c = .ok w ∧ mode.Serves axis.length w.first ∧
      mode.Serves axis.length w.second := by
  cases mode with
  | repeating =>
    let w := Straddle.atTexels (axis.toTexels c)
    obtain ⟨first, hfirst, hfirst'⟩ := h.repeatIndex_eq_ok w.first
    obtain ⟨second, hsecond, hsecond'⟩ := h.repeatIndex_eq_ok w.second
    refine ⟨{ w with first, second }, ?_, .inl hfirst', .inl hsecond'⟩
    exact bind_eq_ok.2 ⟨first, hfirst, bind_eq_ok.2 ⟨second, hsecond, rfl⟩⟩
  | clampToEdge | mirrorRepeat =>
    exact ⟨_, rfl, .inl (isTexel_clampIndex h.pos _), .inl (isTexel_clampIndex h.pos _)⟩
  | mirrorClampToEdge =>
    have hfirst : IsTexel axis.length ((axis.foldTexels c).clamp Single.half
        (axis.extent - Single.half) - Single.half).floorInt32 :=
      Single.isTexel_floorInt32_clamp h.pos (hlength rfl) (axis.foldTexels c)
    have hlt := axis.length.toInt_lt
    have hlast := hfirst.2
    exact ⟨_, rfl, .inl hfirst, .inl (isTexel_min_succ h.pos hfirst.1 (by omega))⟩
  | clamp | clampToBorder | mirrorClamp | mirrorClampToBorder =>
    exact ⟨_, rfl, .inr rfl, .inr rfl⟩

end QuadSampler
