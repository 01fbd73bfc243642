import QuadSampler.Proofs.Addressing.Weight

/-!
# Indices at the far edge

A mode without a border has to end on the axis, whatever the coordinate. Three of the four modes
clamp or repeat the index, which is exact. `mirrorClampToEdge` under a linear filter clamps the
coordinate to the middles of the first and the last texel instead, and takes off half a texel
afterwards. Its second index is held at the last texel, its first is not.

Beyond `2 ^ 23` numbers have no halves left, so the middle of the last texel is rounded. Half a step
below an odd length is a tie that goes down, to where the last texel begins. Half a step below an
even length goes up to the length itself, and the half that is taken off afterwards is lost the same
way: the first index is the length. Beyond `2 ^ 24` the length is rounded as well, always to an even
number, and only where that goes down does the index stay on the axis.
`WrapAxis.LosesLastMiddle` says which lengths are concerned. On each of them an infinite coordinate
ends behind the axis, and on no other axis any coordinate does.
-/

namespace QuadSampler

namespace Single

/-! ## Halves that are lost in rounding -/

private theorem nearestEven_mul_add {k b h : Nat} (hpos : 0 < h) (htie : 2 * h = b)
    (heven : k % 2 = 0) :
    nearestEven (k * b + h) b = k := by
  have hdiv : (k * b + h) / b = k := by
    rw [Nat.add_comm, Nat.add_mul_div_right _ _ (by omega), Nat.div_eq_of_lt (by omega),
      Nat.zero_add]
  have hmod : (k * b + h) % b = h := by
    rw [Nat.add_comm, Nat.add_mul_mod_self_right, Nat.mod_eq_of_lt (by omega)]
  rw [nearestEven, hdiv, hmod, if_pos (.inr ⟨htie, heven⟩)]

private theorem nearestEven_mul_sub {k b h : Nat} (hpos : 0 < h) (hk : 0 < k) (hhalf : 2 * h ≤ b)
    (htie : 2 * h = b → k % 2 = 0) : nearestEven (k * b - h) b = k := by
  have hsplit : k * b - h = (b - h) + (k - 1) * b := by
    have hmul : (k - 1) * b + b = k * b := by
      rw [← Nat.succ_mul, Nat.succ_eq_add_one, Nat.sub_add_cancel hk]
    omega
  have hdiv : (k * b - h) / b = k - 1 := by
    rw [hsplit, Nat.add_mul_div_right _ _ (by omega), Nat.div_eq_of_lt (by omega), Nat.zero_add]
  have hmod : (k * b - h) % b = b - h := by
    rw [hsplit, Nat.add_mul_mod_self_right, Nat.mod_eq_of_lt (by omega)]
  have hup : ¬ (2 * (b - h) < b ∨ 2 * (b - h) = b ∧ (k - 1) % 2 = 0) := by omega
  rw [nearestEven, hdiv, hmod, if_neg hup, Nat.sub_add_cancel hk]

private theorem spacing_eq_of_mem {a j : Nat} (hlow : 2 ^ (j + 23) ≤ a) (hhigh : a < 2 ^ (j + 24)) :
    spacing a = 2 ^ j := by
  have hpos : 0 < 2 ^ (j + 23) := Nat.two_pow_pos _
  have hle : j + 23 ≤ a.log2 := (Nat.le_log2 (by omega)).2 hlow
  have hlt : a.log2 < j + 24 := (Nat.log2_lt (by omega)).2 hhigh
  rw [spacing]
  congr 1
  omega

private theorem roundMagnitude_add_half {k : Nat} (hlow : 2 ^ 23 ≤ k) (hhigh : k < 2 ^ 24)
    (heven : k % 2 = 0) : roundMagnitude (k * gridPerOne + 2 ^ 148) 1 = k * gridPerOne := by
  have hgrid := gridPerOne_eq
  have hspacing : spacing (k * gridPerOne + 2 ^ 148) = gridPerOne := by
    refine spacing_eq_of_mem ?_ ?_
    · calc 2 ^ (149 + 23) = 2 ^ 23 * gridPerOne := by rw [gridPerOne, ← Nat.pow_add, Nat.add_comm]
        _ ≤ k * gridPerOne := Nat.mul_le_mul_right _ hlow
        _ ≤ k * gridPerOne + 2 ^ 148 := Nat.le_add_right _ _
    · calc k * gridPerOne + 2 ^ 148 < k * gridPerOne + gridPerOne := by omega
        _ = (k + 1) * gridPerOne := (Nat.succ_mul ..).symm
        _ ≤ 2 ^ 24 * gridPerOne := Nat.mul_le_mul_right _ hhigh
        _ = 2 ^ (149 + 24) := by rw [gridPerOne, ← Nat.pow_add, Nat.add_comm]
  rw [roundMagnitude, Nat.div_one, Nat.one_mul, hspacing,
    nearestEven_mul_add (Nat.two_pow_pos 148) hgrid.symm heven]

private theorem roundMagnitude_sub_half {f : Nat} (hrep : Representable (f * gridPerOne))
    (hlarge : 2 ^ 23 < f) (heven : f % 2 = 0) :
    roundMagnitude (f * gridPerOne - 2 ^ 148) 1 = f * gridPerOne := by
  have hgrid := gridPerOne_eq
  rw [roundMagnitude, Nat.div_one, Nat.one_mul]
  -- the integer is a multiple of the spacing below it, and that is one or more
  obtain ⟨q, hq⟩ : spacing (f * gridPerOne - 2 ^ 148) ∣ f * gridPerOne := by
    obtain ⟨-, m, e, hm, heq⟩ := hrep
    exact (spacing_dvd_spacing (Nat.sub_le _ _)).trans (heq ▸ spacing_dvd_mul_pow hm)
  obtain ⟨t, ht⟩ : gridPerOne ∣ spacing (f * gridPerOne - 2 ^ 148) := by
    refine two_pow_dvd_spacing ?_
    have hle : (2 ^ 23 + 1) * gridPerOne ≤ f * gridPerOne := Nat.mul_le_mul_right _ hlarge
    have hend : 2 ^ (149 + 23) + 2 ^ 148 ≤ (2 ^ 23 + 1) * gridPerOne := by decide
    omega
  generalize spacing (f * gridPerOne - 2 ^ 148) = step at hq ht ⊢
  have hpos : 0 < gridPerOne * t * q := ht ▸ hq ▸ Nat.mul_pos (by omega) gridPerOne_pos
  have hq0 : 0 < q := Nat.pos_of_mul_pos_left hpos
  have ht0 : 0 < t := Nat.pos_of_mul_pos_left (Nat.pos_of_mul_pos_right hpos)
  have hstep : gridPerOne ≤ step := ht ▸ Nat.le_mul_of_pos_right _ ht0
  rw [hq, Nat.mul_comm step q, nearestEven_mul_sub (Nat.two_pow_pos 148) hq0 (by omega)]
  -- where the half is a tie, the spacing is one
  intro htie
  have hqf : f = q := by
    rw [← hgrid.trans htie, Nat.mul_comm] at hq
    exact Nat.eq_of_mul_eq_mul_left gridPerOne_pos hq
  rwa [← hqf]

/-! ## Lengths as numbers -/

private theorem exists_roundMagnitude_eq {n : Nat} (h : 2 ^ 24 ≤ n) :
    ∃ k, roundMagnitude (n * gridPerOne) 1 = 2 * k * gridPerOne := by
  obtain ⟨t, ht⟩ : 2 ^ 150 ∣ spacing (n * gridPerOne) := by
    refine two_pow_dvd_spacing ?_
    calc 2 ^ (150 + 23) = 2 ^ 24 * gridPerOne := by rw [gridPerOne, ← Nat.pow_add]
      _ ≤ n * gridPerOne := Nat.mul_le_mul_right _ h
  have htwo : 2 ^ 150 = 2 * gridPerOne := by rw [gridPerOne, ← Nat.pow_succ']
  refine ⟨nearestEven (n * gridPerOne) (spacing (n * gridPerOne)) * t, ?_⟩
  rw [roundMagnitude, Nat.div_one, Nat.one_mul]
  nth_rewrite 2 [ht]
  rw [htwo]
  ring

private theorem exists_isAt_ofInt32 {i : Int32} (hpos : 1 ≤ i.toInt) (hle : i.toInt ≤ 2 ^ 30) :
    ∃ f : Nat, (ofInt32 i).IsAt (f * gridPerOne) ∧ 1 ≤ f ∧ f ≤ 2 ^ 30 ∧
      (i.toInt ≤ 2 ^ 24 → f = i.toInt) ∧ (2 ^ 24 < i.toInt → f % 2 = 0) := by
  obtain ⟨n, hn⟩ := Int.eq_ofNat_of_zero_le (show 0 ≤ i.toInt by omega)
  rcases le_or_gt i.toInt (2 ^ 24) with hexact | hrounded
  · have hat := isAt_ofInt32 (i := i) (by omega)
    rw [hn] at hat
    exact ⟨n, hat, by omega, by omega, fun _ ↦ hn.symm, fun h ↦ absurd h (by omega)⟩
  · have hposition := position_ofInt32 i
    rw [hn, ← Int.natCast_mul] at hposition
    obtain ⟨hlow, hhigh⟩ : ((1 * gridPerOne : Nat) : Int) ≤ place (n * gridPerOne : Nat) 1 ∧
        place (n * gridPerOne : Nat) 1 ≤ (2 ^ 30 * gridPerOne : Nat) := by
      refine place_mem Nat.one_pos (representable_grid (by decide))
        (representable_two_pow_grid (by decide)) ?_ ?_
      · exact_mod_cast Nat.mul_le_mul_right gridPerOne (by omega : 1 ≤ n)
      · exact_mod_cast Nat.mul_le_mul_right gridPerOne (by omega : n ≤ 2 ^ 30)
    have hend : 2 ^ 30 * gridPerOne < overflow := by decide
    obtain ⟨k, hk⟩ := exists_roundMagnitude_eq (n := n) (by omega)
    have hround := place_natCast (n * gridPerOne) 1
    have hplace : place (n * gridPerOne : Nat) 1 = (2 * k * gridPerOne : Nat) := by omega
    rw [hplace] at hlow hhigh hposition
    refine ⟨2 * k, isAt_of_position (by exact_mod_cast hposition) (by omega), ?_, ?_,
      fun h ↦ absurd h (by omega), fun _ ↦ Nat.mul_mod_right 2 k⟩
    · exact Nat.le_of_mul_le_mul_right (by exact_mod_cast hlow) gridPerOne_pos
    · exact Nat.le_of_mul_le_mul_right (by exact_mod_cast hhigh) gridPerOne_pos

private theorem place_sub_half_of_even {f : Nat} (hrep : Representable (f * gridPerOne))
    (hlarge : 2 ^ 23 < f) (heven : f % 2 = 0) :
    place (f * gridPerOne - 2 ^ 148) 1 = f * gridPerOne := by
  have hround := place_natCast (f * gridPerOne - 2 ^ 148) 1
  have hlt := hrep.1
  have hgrid := gridPerOne_eq
  have hle : 1 * gridPerOne ≤ f * gridPerOne := Nat.mul_le_mul_right _ (by omega)
  have hstep : (f : Int) * gridPerOne - 2 ^ 148 = (f * gridPerOne - 2 ^ 148 : Nat) := by omega
  rw [hstep, hround, roundMagnitude_sub_half hrep hlarge heven]
  omega

private theorem place_sub_half_of_odd {f : Nat} (hlarge : 2 ^ 23 < f) (hle : f ≤ 2 ^ 24)
    (hodd : f % 2 = 1) : place (f * gridPerOne - 2 ^ 148) 1 = (f - 1) * gridPerOne := by
  obtain ⟨k, rfl⟩ : ∃ k, f = k + 1 := ⟨f - 1, by omega⟩
  have hround := place_natCast (k * gridPerOne + 2 ^ 148) 1
  have hlt := (representable_grid (n := k) (by omega)).1
  have hstep : ((k + 1 : Nat) : Int) * gridPerOne - 2 ^ 148 = (k * gridPerOne + 2 ^ 148 : Nat) := by
    have hgrid := gridPerOne_eq
    push_cast
    rw [Int.add_mul]
    omega
  rw [roundMagnitude_add_half (by omega) (by omega) (by omega)] at hround
  rw [hstep, hround]
  push_cast
  rw [Int.add_sub_cancel]
  omega

private theorem clamp_infinite {lo hi : Single} (hlo : lo.IsFinite) (hhi : hi.IsFinite) :
    (infinite false).clamp lo hi = hi := by
  obtain ⟨a, ha⟩ := hlo
  obtain ⟨b, hb⟩ := hhi
  have hend : (infinite false).position = some (overflow : Int) := rfl
  have hmax : (infinite false).maximum lo = infinite false := by
    rw [maximum, if_neg]
    rintro (h | h)
    · exact absurd h (by decide)
    · have hlt := (lt_iff_of_position hend ha.position).1 h
      have := ha.representable.1
      omega
  have hlt := (lt_iff_of_position hb.position hend).2 (by have := hb.representable.1; omega)
  rw [clamp, hmax, minimum, if_pos (.inr hlt)]

end Single

/-! ## The far edge -/

namespace WrapAxis

variable {axis : WrapAxis}

/-- Whether the number for a length loses the middle of the last texel: the length is beyond
`2 ^ 23`, and its number is even and not below the length. -/
def LosesLastMiddle (axis : WrapAxis) : Prop :=
  2 ^ 23 < axis.length.toInt ∧ axis.length.toInt ≤ axis.extent.floorInt32.toInt ∧
    axis.extent.floorInt32.toInt % 2 = 0

/-- The extent of an axis of up to `2 ^ 30` texels is a whole number. It is the length itself up to
`2 ^ 24`, and even beyond. -/
theorem exists_isAt_extent (hpos : 1 ≤ axis.length.toInt) (hle : axis.length.toInt ≤ 2 ^ 30) :
    ∃ f : Nat, axis.extent.IsAt (f * Single.gridPerOne) ∧ axis.extent.floorInt32.toInt = f ∧
      1 ≤ f ∧ f ≤ 2 ^ 30 ∧ (axis.length.toInt ≤ 2 ^ 24 → f = axis.length.toInt) ∧
      (2 ^ 24 < axis.length.toInt → f % 2 = 0) := by
  obtain ⟨f, hf, hf1, hf30, hexact, heven⟩ := Single.exists_isAt_ofInt32 hpos hle
  exact ⟨f, hf, hf.toInt_floorInt32 (by omega), hf1, hf30, hexact, heven⟩

section Extent

variable {f : Nat} (hf : axis.extent.IsAt (f * Single.gridPerOne)) (hpos : 1 ≤ f)
include hf hpos

/-- Where the middle of the last texel is rounded to. -/
theorem isAt_extent_sub_half :
    (axis.extent - Single.half).IsAt (Single.place (f * Single.gridPerOne - 2 ^ 148) 1) ∧
      2 ^ 148 ≤ Single.place (f * Single.gridPerOne - 2 ^ 148) 1 ∧
      Single.place (f * Single.gridPerOne - 2 ^ 148) 1 ≤ f * Single.gridPerOne := by
  have hgrid := Single.gridPerOne_eq
  have hone : 1 * (Single.gridPerOne : Int) ≤ f * Single.gridPerOne :=
    Int.mul_le_mul_of_nonneg_right (by omega) Single.natCast_gridPerOne_pos.le
  have hend := hf.representable.1
  obtain ⟨hlow, hhigh⟩ : 2 ^ 148 ≤ Single.place (f * Single.gridPerOne - 2 ^ 148) 1 ∧
      Single.place (f * Single.gridPerOne - 2 ^ 148) 1 ≤ f * Single.gridPerOne :=
    Single.place_mem Nat.one_pos Single.isAt_half.representable hf.representable (by omega)
      (by omega)
  exact ⟨Single.isAt_of_position (hf.position_sub Single.isAt_half) (by omega), hlow, hhigh⟩

private theorem foldTexels_infinite : axis.foldTexels (.infinite false) = .infinite false := by
  have hgrid := Single.natCast_gridPerOne_pos
  have hpositive : 0 < (f : Int) * Single.gridPerOne := Int.mul_pos (by omega) hgrid
  obtain ⟨s, m, hm, heq, hsigned⟩ := hf
  rw [foldTexels, toTexels, heq]
  split
  · cases s with
    | true =>
      rw [Single.signed_true] at hsigned
      omega
    | false =>
      rw [Single.signed_false] at hsigned
      have hne : m ≠ 0 := by omega
      exact if_neg hne
  · rfl

private theorem floorInt32_clamp_middle_mem (hle : f ≤ 2 ^ 30) (x : Single) :
    let first := (x.clamp Single.half (axis.extent - Single.half) - Single.half).floorInt32.toInt
    0 ≤ first ∧
      first ≤ Single.place (f * Single.gridPerOne - 2 ^ 148) 1 / Single.gridPerOne ∧ first ≤ f := by
  have hgrid := Single.natCast_gridPerOne_pos
  obtain ⟨hmiddle, hlow, hhigh⟩ := isAt_extent_sub_half hf hpos
  have hfit : (f : Int) * Single.gridPerOne < 2 ^ 31 * Single.gridPerOne :=
    Int.mul_lt_mul_of_pos_right (by omega) hgrid
  obtain ⟨hfirst, hlast⟩ := Single.floorInt32_clamp_mem hmiddle hlow (by omega) x
  exact ⟨hfirst, hlast, hlast.trans (Int.ediv_le_of_le_mul hgrid hhigh)⟩

end Extent

private theorem isTexel_of_not_losesLastMiddle (hpos : 1 ≤ axis.length.toInt)
    (hle : axis.length.toInt ≤ 2 ^ 30) (h : ¬ axis.LosesLastMiddle) (x : Single) :
    IsTexel axis.length
      (x.clamp Single.half (axis.extent - Single.half) - Single.half).floorInt32 := by
  rcases le_or_gt axis.length.toInt (2 ^ 23) with hshort | hlong
  · exact Single.isTexel_floorInt32_clamp (by omega) hshort x
  · obtain ⟨f, hf, hfloor, hf1, hf30, hexact, heven⟩ := exists_isAt_extent hpos hle
    obtain ⟨hfirst, hmiddle, hlast⟩ := floorInt32_clamp_middle_mem hf hf1 hf30 x
    rw [LosesLastMiddle, hfloor] at h
    by_cases hbelow : (f : Int) < axis.length.toInt
    · exact ⟨hfirst, hlast.trans_lt hbelow⟩
    · -- the number is odd, so it is the length itself, and half a texel less is rounded down
      have hodd : f % 2 = 1 := by omega
      have hfl := hexact (by omega)
      rw [Single.place_sub_half_of_odd (by omega) (by omega) hodd,
        Int.mul_ediv_cancel _ Single.natCast_gridPerOne_pos.ne'] at hmiddle
      exact ⟨hfirst, by omega⟩

private theorem LosesLastMiddle.le_floorInt32 (h : axis.LosesLastMiddle)
    (hpos : 1 ≤ axis.length.toInt) (hle : axis.length.toInt ≤ 2 ^ 30) :
    axis.length.toInt ≤ ((axis.foldTexels (.infinite false)).clamp Single.half
      (axis.extent - Single.half) - Single.half).floorInt32.toInt := by
  obtain ⟨f, hf, hfloor, hf1, hf30, -, -⟩ := exists_isAt_extent hpos hle
  obtain ⟨hlong, hnotBelow, heven⟩ := h
  rw [hfloor] at hnotBelow heven
  have hrep : Single.Representable (f * Single.gridPerOne) := by
    have hrep := hf.representable
    rwa [Int.natAbs_mul, Int.natAbs_natCast, Int.natAbs_natCast] at hrep
  have hlost := Single.place_sub_half_of_even hrep (by omega) (by omega)
  obtain ⟨hmiddle, -, -⟩ := isAt_extent_sub_half hf hf1
  rw [hlost] at hmiddle
  have hfirst := hmiddle.position_sub Single.isAt_half
  rw [hlost] at hfirst
  have hat := Single.isAt_of_position hfirst hmiddle.representable.1
  rw [foldTexels_infinite hf hf1, Single.clamp_infinite Single.isAt_half.isFinite hmiddle.isFinite,
    hat.toInt_floorInt32 (by omega)]
  exact hnotBelow

/-- Up to `2 ^ 24` the middle of the last texel is lost on axes of even length beyond `2 ^ 23`. -/
theorem losesLastMiddle_iff (hpos : 1 ≤ axis.length.toInt) (hle : axis.length.toInt ≤ 2 ^ 24) :
    axis.LosesLastMiddle ↔ 2 ^ 23 < axis.length.toInt ∧ axis.length.toInt % 2 = 0 := by
  obtain ⟨f, -, hfloor, -, -, hexact, -⟩ := exists_isAt_extent hpos (by omega)
  rw [LosesLastMiddle, hfloor, hexact hle]
  exact ⟨fun h ↦ ⟨h.1, h.2.2⟩, fun h ↦ ⟨h.1, le_rfl, h.2⟩⟩

end WrapAxis

/-- **Wrapped indices lie on the axis.** Under every mode without a border, on every axis of up to
`2 ^ 30` texels, all coordinates have indices of the axis, one under a nearest filter and two under
a linear one. The exception is the first of two under `mirrorClampToEdge` on axes that lose the
middle of their last texel, where it is behind the axis for some coordinate; up to `2 ^ 24` texels
these are the axes of even length beyond `2 ^ 23`. -/
theorem wrapped_indices_in_range {mode : WrapMode} (hmode : mode.usesBorder = false)
    {axis : WrapAxis} (hpos : 1 ≤ axis.length.toInt) (hle : axis.length.toInt ≤ 2 ^ 30)
    (hflag : axis.powerOfTwo = isPowerOfTwo axis.length.toInt.toNat) :
    (∀ c, (∃ i, mode.nearest axis c = .ok i ∧ IsTexel axis.length i) ∧
      ∃ w, mode.linear axis c = .ok w ∧ 0 ≤ w.first.toInt ∧ IsTexel axis.length w.second ∧
        (¬ (mode = .mirrorClampToEdge ∧ axis.LosesLastMiddle) → IsTexel axis.length w.first)) ∧
    (mode = .mirrorClampToEdge → axis.LosesLastMiddle →
      ∃ w, mode.linear axis (.infinite false) = .ok w ∧ axis.length.toInt ≤ w.first.toInt) ∧
    (axis.length.toInt ≤ 2 ^ 24 → (axis.LosesLastMiddle ↔
      2 ^ 23 < axis.length.toInt ∧ axis.length.toInt % 2 = 0)) := by
  have hsound : SoundLength axis.length axis.powerOfTwo := by
    refine ⟨by omega, fun hpot ↦ ?_⟩
    obtain ⟨j, hj⟩ := exists_two_pow_of_isPowerOfTwo (hflag ▸ hpot)
    exact ⟨j, by omega⟩
  have hserves : ∀ {i}, mode.Serves axis.length i → IsTexel axis.length i := fun h ↦
    h.resolve_right (by rw [hmode]; exact Bool.false_ne_true)
  refine ⟨fun c ↦ ⟨?_, ?_⟩, fun hmirror hloses ↦ ?_, WrapAxis.losesLastMiddle_iff hpos⟩
  · obtain ⟨i, hi, htexel⟩ := mode.exists_nearest_eq_ok axis hsound c
    exact ⟨i, hi, hserves htexel⟩
  · by_cases hmirror : mode = .mirrorClampToEdge
    · subst hmirror
      obtain ⟨f, hf, -, hf1, hf30, -, -⟩ := WrapAxis.exists_isAt_extent hpos hle
      obtain ⟨hfirst, -, hlast⟩ :=
        WrapAxis.floorInt32_clamp_middle_mem hf hf1 hf30 (axis.foldTexels c)
      refine ⟨_, rfl, hfirst, isTexel_min_succ hsound.pos hfirst (by omega), fun h ↦ ?_⟩
      exact WrapAxis.isTexel_of_not_losesLastMiddle hpos hle (fun hloses ↦ h ⟨rfl, hloses⟩) _
    · obtain ⟨w, hw, hfirst, hsecond⟩ :=
        mode.exists_linear_eq_ok axis hsound (fun h ↦ absurd h hmirror) c
      exact ⟨w, hw, (hserves hfirst).1, hserves hsecond, fun _ ↦ hserves hfirst⟩
  · subst hmirror
    exact ⟨_, rfl, hloses.le_floorInt32 hpos hle⟩

/-- The shortest axis that loses the middle of its last texel, and the one before it. -/
theorem wrapped_indices_in_range_long :
    (∃ w, WrapMode.mirrorClampToEdge.linear ⟨8388610, false, true⟩ (.infinite false) = .ok w ∧
      8388610 ≤ w.first.toInt) ∧
    ∀ c, ∃ w, WrapMode.mirrorClampToEdge.linear ⟨8388609, false, true⟩ c = .ok w ∧
      IsTexel 8388609 w.first ∧ IsTexel 8388609 w.second := by
  obtain ⟨-, hbehind, hiff⟩ := @wrapped_indices_in_range .mirrorClampToEdge rfl
    ⟨8388610, false, true⟩ (by decide) (by decide) (by decide +kernel)
  obtain ⟨hinside, -, hiff'⟩ := @wrapped_indices_in_range .mirrorClampToEdge rfl
    ⟨8388609, false, true⟩ (by decide) (by decide) (by decide +kernel)
  refine ⟨hbehind rfl ((hiff (by decide)).2 (by decide)), fun c ↦ ?_⟩
  obtain ⟨-, w, hw, -, hsecond, hfirst⟩ := hinside c
  exact ⟨w, hw, hfirst fun h ↦ absurd ((hiff' (by decide)).1 h.2) (by decide), hsecond⟩

end QuadSampler
