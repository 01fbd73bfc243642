import QuadSampler.Proofs.Addressing.Weight
import QuadSampler.Proofs.Single.Order

/-!
# Axes that fold to a border

`mirrorClamp` and `mirrorClampToBorder` take coordinates without their sign, which shows an axis
twice, on either side of zero, and they have the border behind the far edge. A linear filter meets
the border at the fold as well: half a texel is taken off after folding, so closer to zero than that
the first index is `-1`, which lies beside the texture.

From half a texel on, up to the middle of the last texel, a coordinate has texels on both sides
(`WrapAxis.FoldsInside`). At that middle the second index is the length, and has no share
(`WrapAxis.AtLastMiddle`).
-/

namespace QuadSampler

/-- Whether a mode folds coordinates at zero and has the border behind the far edge. -/
def WrapMode.foldsToBorder : WrapMode → Bool
  | .mirrorClamp | .mirrorClampToBorder => true
  | _ => false

namespace WrapAxis

/-- Whether a coordinate is at least half a texel away from the fold of the axis, and from its far
edge. -/
def FoldsInside (axis : WrapAxis) (c : Single) : Prop :=
  Single.le Single.half (axis.toTexels c).abs = true ∧
    Single.le (axis.toTexels c).abs (axis.extent - Single.half) = true

/-- Whether a coordinate is at the middle of the last texel, on either side of the fold. -/
def AtLastMiddle (axis : WrapAxis) (c : Single) : Prop :=
  Single.same (axis.toTexels c).abs (axis.extent - Single.half) = true

instance (axis : WrapAxis) (c : Single) : Decidable (axis.FoldsInside c) :=
  inferInstanceAs (Decidable (_ ∧ _))

instance (axis : WrapAxis) (c : Single) : Decidable (axis.AtLastMiddle c) :=
  inferInstanceAs (Decidable (_ = true))

end WrapAxis

/-! ## Numbers without their sign -/

namespace Single

private theorem abs_round (s : Bool) (a b : Nat) : (round s a b).abs = round false a b := by
  rw [round, round]
  split <;> rfl

private theorem abs_mul (x y : Single) : (x * y).abs = x.abs * y.abs := by
  cases x with
  | nan => rfl
  | infinite s =>
    cases y with
    | nan | infinite t => rfl
    | finite t n hn =>
      rw [infinite_mul_finite, abs_infinite, abs_finite, infinite_mul_finite]
      split <;> rfl
  | finite s m hm =>
    cases y with
    | nan => rfl
    | infinite t =>
      rw [finite_mul_infinite, abs_infinite, abs_finite, finite_mul_infinite]
      split <;> rfl
    | finite t n hn => exact abs_round (s ^^ t) (m * n) gridPerOne

private theorem IsAt.abs_eq {x : Single} {z : Int} (h : x.IsAt z) (hz : 0 < z) : x.abs = x := by
  obtain ⟨s, m, hm, rfl, rfl⟩ := h
  cases s with
  | false => rfl
  | true =>
    rw [signed_true] at hz
    omega

end Single

/-! ## Straddles between the middles of the first and the last texel -/

private theorem Straddle.atTexels_of_mem {x : Single} {a : Int} {length : Nat} (hx : x.IsAt a)
    (hle : length ≤ 2 ^ 22) (hlow : 2 ^ 148 ≤ a)
    (hhigh : a ≤ (2 * length - 1) * 2 ^ 148) :
    (0 ≤ (atTexels x).first.toInt ∧ (atTexels x).first.toInt < length) ∧
      (a < (2 * length - 1) * 2 ^ 148 →
        0 ≤ (atTexels x).second.toInt ∧ (atTexels x).second.toInt < length) ∧
      (a = (2 * length - 1) * 2 ^ 148 → (atTexels x).weight.IsAt 0) := by
  have hgrid : (Single.gridPerOne : Int) = 2 * 2 ^ 148 := by exact_mod_cast Single.gridPerOne_eq
  have hstep : (0 : Int) < 2 ^ 148 := by positivity
  have hlt : a < 2 ^ (148 + 24) := by
    have hlength : (length : Int) ≤ 2 ^ 22 := by exact_mod_cast hle
    calc a ≤ (2 * length - 1) * 2 ^ 148 := hhigh
      _ < 2 ^ 24 * 2 ^ 148 := Int.mul_lt_mul_of_pos_right (by omega) hstep
      _ = 2 ^ (148 + 24) := by rw [← Int.pow_add]
  have hmiddle : (x - Single.half).IsAt (a - 2 ^ 148) :=
    hx.sub_of_dvd Single.isAt_half hlt dvd_rfl hstep.le hlow
  have hfloor : 0 ≤ (a - 2 ^ 148) / Single.gridPerOne :=
    Int.ediv_nonneg (by omega) (by omega)
  have hfirst_lt : (a - 2 ^ 148) / Single.gridPerOne < length :=
    Int.ediv_lt_of_lt_mul (by omega) (by rw [hgrid]; linarith)
  have hfirst : (atTexels x).first.toInt = (a - 2 ^ 148) / Single.gridPerOne := by
    rw [first_atTexels, hmiddle.floorInt32, Single.toInt_saturate]
    omega
  have hsecond : (atTexels x).second.toInt = (a - 2 ^ 148) / Single.gridPerOne + 1 := by
    rw [second_atTexels, toInt_add_one (by omega), hfirst]
  refine ⟨by omega, fun hbefore ↦ ?_, fun hlast ↦ ?_⟩
  · have hfirst_lt' : (a - 2 ^ 148) / Single.gridPerOne < length - 1 :=
      Int.ediv_lt_of_lt_mul (by omega) (by rw [hgrid]; linarith)
    omega
  · have hwhole : a - 2 ^ 148 = (length - 1 : Int) * Single.gridPerOne := by
      rw [hgrid, hlast]
      ring
    rw [hwhole] at hmiddle
    rw [weight_atTexels]
    exact hmiddle.fract_of_whole

/-! ## Folded axes -/

section Fold

variable {axis : WrapAxis} {c : Single} {length : Nat}
  (hlength : axis.length = Int32.ofNat length) (hpos : 0 < length) (hle : length ≤ 2 ^ 22)
include hlength hpos hle

/-- A coordinate may as well be folded in texels. -/
theorem WrapAxis.foldTexels_eq (c : Single) : axis.foldTexels c = (axis.toTexels c).abs := by
  have hextent := isAt_extent hlength (by omega)
  rw [foldTexels, toTexels, toTexels]
  split
  · rw [Single.abs_mul, hextent.abs_eq]
    exact Int.mul_pos (by omega) Single.natCast_gridPerOne_pos
  · rfl

private theorem WrapAxis.isAt_extent_sub_middle :
    (axis.extent - Single.half).IsAt ((2 * length - 1) * 2 ^ 148) := by
  have hint : axis.length.toInt = length := by
    rw [hlength]
    exact Int32.toInt_ofNat_of_lt (by omega)
  have hpos' : 0 < axis.length.toInt := by omega
  have h := Single.isAt_ofInt32_sub_half hpos' (by omega)
  rwa [hint] at h

/-- Along an axis that folds to the border, a coordinate inside has texels on both sides, but for
the second at the middle of the last texel, and there it has no share. -/
theorem WrapMode.exists_linear_of_foldsInside {mode : WrapMode} (hmode : mode.foldsToBorder = true)
    (h : axis.FoldsInside c) :
    ∃ w, mode.linear axis c = .ok w ∧
      (0 ≤ w.first.toInt ∧ w.first.toInt < length) ∧
      (¬ axis.AtLastMiddle c → 0 ≤ w.second.toInt ∧ w.second.toInt < length) ∧
      (axis.AtLastMiddle c → w.weight.IsAt 0) := by
  have hextent := WrapAxis.isAt_extent hlength (by omega)
  have hfar := WrapAxis.isAt_extent_sub_middle hlength hpos hle
  obtain ⟨hnear, hhigh⟩ := h
  obtain ⟨b, a, hb, ha, hlow⟩ := Single.exists_position_of_le hnear
  obtain rfl := Option.some.inj (Single.isAt_half.position.symm.trans hb)
  have hhigh := (Single.le_iff_of_position ha hfar.position).1 hhigh
  have hstep : (0 : Int) < 2 ^ 148 := by positivity
  have hlt := hfar.representable.1
  have hat : (axis.toTexels c).abs.IsAt a := Single.isAt_of_position ha (by omega)
  -- so far inside no limit of the modes is reached
  have hlinear : mode.linear axis c = .ok (Straddle.atTexels (axis.toTexels c).abs) := by
    have hgrid : (Single.gridPerOne : Int) = 2 * 2 ^ 148 := by exact_mod_cast Single.gridPerOne_eq
    have hend : a ≤ length * Single.gridPerOne := by
      rw [hgrid]
      linarith
    cases mode with
    | mirrorClamp =>
      rw [linear, WrapAxis.foldTexels_eq hlength hpos hle,
        Single.minimum_eq_left ha hextent.position hend]
    | mirrorClampToBorder =>
      have hbeyond : a ≤ Single.place (length * Single.gridPerOne + 2 ^ 148) 1 :=
        hend.trans (Single.le_place_of_le hextent.representable (by omega))
      rw [linear, WrapAxis.foldTexels_eq hlength hpos hle, Single.clamp,
        Single.maximum_eq_left ha Single.isAt_half.neg.position (by omega),
        Single.minimum_eq_left ha (hextent.position_add Single.isAt_half) hbeyond]
    | repeating | clamp | clampToEdge | clampToBorder | mirrorRepeat | mirrorClampToEdge =>
      exact absurd hmode Bool.false_ne_true
  obtain ⟨hfirst, hsecond, hweight⟩ := Straddle.atTexels_of_mem hat hle hlow hhigh
  have hmiddle : axis.AtLastMiddle c ↔ a = (2 * length - 1) * 2 ^ 148 :=
    Single.same_iff_of_position ha hfar.position
  refine ⟨_, hlinear, hfirst, fun hnot ↦ hsecond ?_, fun hlast ↦ hweight (hmiddle.1 hlast)⟩
  exact lt_of_le_of_ne hhigh (mt hmiddle.2 hnot)

end Fold

end QuadSampler
