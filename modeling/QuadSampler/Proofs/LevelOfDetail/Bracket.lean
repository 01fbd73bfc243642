import QuadSampler.Filtering.Levels
import QuadSampler.Proofs.Addressing.Index
import QuadSampler.Proofs.LevelView.Packed
import QuadSampler.Proofs.Single.Order

/-!
# Levels around a level of detail

A level of detail is computed from whatever a caller passes, so it may come from not-a-number or an
infinity. The last step moves it between the limits of the surface, and that alone puts it in range
(`Lod.select`). Levels are then clamped as words, where every number has its place too.

Two levels and a weight name one place on the line of levels, the first level and the weight added
up (`Lod.Blend.IsAt`). `Lod.blend_spec` computes that place: it is the level of detail, moved into
the range of levels. In the range nothing is lost, although the weight is a rounded difference. A
level of detail below `2 ^ 24` is a multiple of steps that divide one, and so is what is left of it
when a whole number is taken off.
-/

namespace QuadSampler

namespace Lod

open Single (gridPerOne overflow)

/-- The first level and the weight add up to `z` grid steps. -/
def Blend.IsAt (b : Blend) (z : Int) : Prop :=
  ∃ w, b.weight.IsAt w ∧ b.first.toInt * gridPerOne + w = z

/-- Both levels are among those up to the last, the second is the next of the first if there is one,
and the weight is a share. -/
structure Blend.IsWithin (b : Blend) (last : Nat) : Prop where
  first_nonneg : 0 ≤ b.first.toInt
  first_le_second : b.first.toInt ≤ b.second.toInt
  second_le_last : b.second.toInt ≤ last
  second_eq : b.second.toInt = min (b.first.toInt + 1) last
  weight_ne_nan : b.weight ≠ .nan
  zero_le_weight : (0 : Single).le b.weight = true
  weight_le_one : b.weight.le 1 = true

/-! ## Words -/

section Words

variable {last : Nat} (hlast : last < 2 ^ 24)
include hlast

theorem toInt_nearestLevel (lod : Single) :
    (nearestLevel lod last).toInt = min (max (lod.roundAway.rank / gridPerOne) 0) last := by
  have hword := Single.max_zero_toInt32 lod.roundAway
  rw [nearestLevel, toInt_clampIndex_zero, Int32.toInt_ofNat_of_lt (by omega)]
  omega

theorem toInt_first_blend (lod : Single) :
    (blend lod last).first.toInt = min (max (lod.rank / gridPerOne) 0) (max last 1 - 1) := by
  have hword := Single.max_zero_toInt_floorInt32 lod
  have hlastInt := Int32.toInt_ofNat_of_lt (n := last) (by omega)
  have hclamp := toInt_clampIndex_zero lod.floorInt32 (max (Int32.ofNat last - 1) 0)
  rw [toInt_max, toInt_sub_one (by omega), hlastInt, Int32.toInt_zero] at hclamp
  simp only [blend]
  omega

theorem toInt_second_blend (lod : Single) :
    (blend lod last).second.toInt = min ((blend lod last).first.toInt + 1) last := by
  have hfirst := toInt_first_blend hlast lod
  have hmin : (blend lod last).second.toInt
      = min ((blend lod last).first + 1).toInt (Int32.ofNat last).toInt := toInt_min _ _
  rwa [toInt_add_one (by omega), Int32.toInt_ofNat_of_lt (by omega)] at hmin

end Words

/-! ## The place of a blend -/

theorem position_blend_weight (lod : Single) (last : Nat) :
    (blend lod last).weight.position
      = some (min (max (lod - Single.ofInt32 (blend lod last).first).rank 0) gridPerOne) :=
  Single.position_clamp _ Single.position_zero Single.isAt_one.position

/-- What is above a whole number, moved between zero and one. Up to the next whole number the
difference is exact, and beyond either end rounding keeps it there. -/
private theorem rank_sub_whole (lod : Single) {i : Int32} (h0 : 0 ≤ i.toInt)
    (hlt : i.toInt < 2 ^ 24) :
    min (max (lod - Single.ofInt32 i).rank 0) gridPerOne
      = min (max (lod.rank - i.toInt * gridPerOne) 0) gridPerOne := by
  have hgrid := Single.natCast_gridPerOne_pos
  have hi := Single.isAt_ofInt32 (i := i) (by omega)
  have hbase : 0 ≤ i.toInt * gridPerOne := Int.mul_nonneg h0 hgrid.le
  rcases le_or_gt lod.rank (i.toInt * gridPerOne) with hbelow | habove
  · have hmono := Single.rank_add_mono (x := lod) hi.neg (hbelow.trans_eq hi.rank.symm)
    have hzero : (Single.ofInt32 i - Single.ofInt32 i).IsAt 0 :=
      Single.isAt_zero_of_position Nat.one_pos (by rw [hi.position_sub hi, Int.sub_self])
    have hle : (lod - Single.ofInt32 i).rank ≤ 0 := hmono.trans_eq hzero.rank
    omega
  · have hnext := Single.isAt_ofNat (n := i.toInt.toNat + 1) (by omega)
    have hcast : ((i.toInt.toNat + 1 : Nat) : Int) = i.toInt + 1 := by omega
    rw [hcast, Int.add_mul, Int.one_mul] at hnext
    rcases lt_or_ge lod.rank (i.toInt * gridPerOne + gridPerOne) with hbetween | hbeyond
    · have hlod : lod.IsAt lod.rank :=
        Single.isAt_of_rank (by omega) (hbetween.trans hnext.rank_lt.2)
      have hend : i.toInt * gridPerOne + gridPerOne ≤ 2 ^ (149 + 24) := by
        calc i.toInt * gridPerOne + gridPerOne = (i.toInt + 1) * gridPerOne := by ring
          _ ≤ 2 ^ 24 * gridPerOne := Int.mul_le_mul_of_nonneg_right (by omega) hgrid.le
          _ = 2 ^ (149 + 24) := by decide
      have hexact := hlod.sub_of_dvd (j := 149) hi (by omega)
        ⟨i.toInt, Int.mul_comm i.toInt gridPerOne⟩ hbase habove.le
      rw [hexact.rank]
    · have hmono := Single.rank_add_mono (y := lod) hi.neg (hnext.rank.trans_le hbeyond)
      have hone : (Single.ofNat (i.toInt.toNat + 1) - Single.ofInt32 i).rank = gridPerOne := by
        rw [Single.rank_of_position (hnext.position_sub hi), add_sub_cancel_left]
        exact Single.place_one (Single.representable_two_pow (by decide))
      have hge : gridPerOne ≤ (lod - Single.ofInt32 i).rank := hone.symm.trans_le hmono
      omega

private theorem clamp_ediv_add {p g n : Int} (hg : 0 < g) (hn : 1 ≤ n) :
    let q := min (max (p / g) 0) (n - 1)
    q * g + min (max (p - q * g) 0) g = min (max p 0) (n * g) := by
  intro q
  have hsplit := Int.ediv_mul_add_emod p g
  have hrem := Int.emod_nonneg p hg.ne'
  have hrem_lt := Int.emod_lt_of_pos p hg
  rcases lt_or_ge (p / g) 0 with hneg | hnonneg
  · obtain hq : q = 0 := by omega
    have : p / g * g ≤ -1 * g := Int.mul_le_mul_of_nonneg_right (by omega) hg.le
    have : 0 ≤ n * g := Int.mul_nonneg (by omega) hg.le
    rw [hq, Int.zero_mul]
    omega
  · rcases lt_or_ge (p / g) n with hlt | hge
    · obtain hq : q = p / g := by omega
      have hnext : (p / g + 1) * g ≤ n * g := Int.mul_le_mul_of_nonneg_right (by omega) hg.le
      have : 0 ≤ p / g * g := Int.mul_nonneg hnonneg hg.le
      rw [Int.add_mul] at hnext
      rw [hq]
      omega
    · obtain hq : q = n - 1 := by omega
      have : n * g ≤ p / g * g := Int.mul_le_mul_of_nonneg_right hge hg.le
      have : 0 ≤ (n - 1) * g := Int.mul_nonneg (by omega) hg.le
      rw [hq, Int.sub_mul, Int.one_mul] at *
      omega

/-- The first level and the weight add up to the level of detail, moved between zero and the last
level. Of one level both are that level, and the weight still goes up to one. -/
theorem blend_spec (lod : Single) {last : Nat} (hlast : last < 2 ^ 24) :
    ∃ w, (blend lod last).weight.IsAt w ∧ 0 ≤ w ∧ w ≤ gridPerOne ∧
      (blend lod last).first.toInt * gridPerOne + w
        = min (max lod.rank 0) ((max last 1 : Nat) * gridPerOne) := by
  have hgrid := Single.natCast_gridPerOne_pos
  have hend : (gridPerOne : Int) < overflow := by decide
  have hfirst := toInt_first_blend hlast lod
  have hweight := position_blend_weight lod last
  rw [rank_sub_whole lod (by omega) (by omega)] at hweight
  have hplace := clamp_ediv_add (p := lod.rank) (n := (max last 1 : Nat)) hgrid (by omega)
  dsimp only at hplace
  rw [← hfirst] at hplace
  exact ⟨_, Single.isAt_of_position hweight (by omega), by omega, by omega, hplace⟩

/-! ## Everything in range -/

/-- What is selected stands between the limits of the surface. Where the limits are one and the
computation is left out, so does the lower limit. -/
theorem exists_position_select (log2 : Single → Single) (state : StaticState) {surface : Surface}
    {a b : Int} (hmin : surface.minLod.position = some a) (hmax : surface.maxLod.position = some b)
    (hab : a ≤ b) (g : Gradient) (bias explicit : Option Single) :
    ∃ p, (select log2 state surface g bias explicit).position = some p ∧ a ≤ p ∧ p ≤ b := by
  unfold select
  split
  · exact ⟨a, hmin, le_refl a, hab⟩
  · exact Single.position_clamp_mem _ hmin hmax hab

theorem isWithin_blend {last : Nat} (hlast : last < 2 ^ 24) (lod : Single) :
    (blend lod last).IsWithin last := by
  have hfirst := toInt_first_blend hlast lod
  have hsecond := toInt_second_blend hlast lod
  obtain ⟨w, hw, hw0, hw1, -⟩ := blend_spec lod hlast
  refine ⟨by omega, by omega, by omega, hsecond, ?_, ?_, ?_⟩
  · rintro hnan
    exact nomatch hnan ▸ hw.position
  · exact (Single.le_iff_of_position Single.position_zero hw.position).2 hw0
  · exact (Single.le_iff_of_position hw.position Single.isAt_one.position).2 hw1

private theorem isAt_blend_of_mem {lod : Single} {last : Nat} (hlast : last < 2 ^ 24)
    (h0 : (0 : Single).le lod = true) (h1 : lod.le (Single.ofNat last) = true) :
    ∃ z, lod.IsAt z ∧ (blend lod last).IsAt z := by
  have hgrid := Single.natCast_gridPerOne_pos
  have hoverflow : (0 : Int) < overflow := by decide
  have hend := Single.isAt_ofNat hlast.le
  have hlow := Single.rank_le_of_le h0
  have hhigh := Single.rank_le_of_le h1
  rw [Single.rank_of_position Single.position_zero] at hlow
  rw [hend.rank] at hhigh
  have hlod : lod.IsAt lod.rank :=
    Single.isAt_of_rank ((neg_neg_of_pos hoverflow).trans_le hlow)
      (hhigh.trans_lt hend.rank_lt.2)
  obtain ⟨w, hw, -, -, hsum⟩ := blend_spec lod hlast
  have hlevels : (last : Int) * gridPerOne ≤ (max last 1 : Nat) * gridPerOne :=
    Int.mul_le_mul_of_nonneg_right (by omega) hgrid.le
  rw [max_eq_left hlow, min_eq_left (hhigh.trans hlevels)] at hsum
  exact ⟨lod.rank, hlod, w, hw, hsum⟩

/-- **Levels of detail and levels stay in range.** Whatever the gradient, the bias and the explicit
level are, what is selected is a number between the limits of the surface. Whatever number levels
are chosen by, they are levels up to the last, the second is the next of the first, and the weight
is a share; and in the range of levels the first level and the weight add up to the level of detail,
exactly. -/
theorem levels_of_detail_in_range (log2 : Single → Single) (state : StaticState)
    {surface : Surface} (hlimits : surface.minLod.le surface.maxLod = true) {last : Nat}
    (hlast : last < 2 ^ 24) :
    (∀ g bias explicit, let lod := select log2 state surface g bias explicit
      lod ≠ .nan ∧ surface.minLod.le lod = true ∧ lod.le surface.maxLod = true) ∧
    ∀ lod : Single,
      (0 ≤ (nearestLevel lod last).toInt ∧ (nearestLevel lod last).toInt ≤ last) ∧
      (blend lod last).IsWithin last ∧
      ((0 : Single).le lod = true → lod.le (Single.ofNat last) = true →
        ∃ z, lod.IsAt z ∧ (blend lod last).IsAt z) := by
  refine ⟨fun g bias explicit ↦ ?_, fun lod ↦ ⟨?_, isWithin_blend hlast lod,
    isAt_blend_of_mem hlast⟩⟩
  · obtain ⟨a, b, hmin, hmax, hab⟩ := Single.exists_position_of_le hlimits
    obtain ⟨p, hp, hap, hpb⟩ := exists_position_select log2 state hmin hmax hab g bias explicit
    refine ⟨fun hnan ↦ ?_, (Single.le_iff_of_position hmin hp).2 hap,
      (Single.le_iff_of_position hp hmax).2 hpb⟩
    rw [hnan] at hp
    exact nomatch hp
  · have hlevel := toInt_nearestLevel hlast lod
    omega

/-- On the checkered texture with its two levels, for derivatives that are no numbers and halfway
between the levels. -/
theorem levels_of_detail_in_range_checker :
    let settings := { Settings.plain with maxLod := 1 }
    let state := Binding.checker.staticState settings
    let surface := (Binding.ofSettings .checker settings).surface
    let lod := select Single.log2 state surface ⟨.splat .nan, .splat (.infinite false)⟩ none none
    (lod ≠ .nan ∧ surface.minLod.le lod = true ∧ lod.le surface.maxLod = true) ∧
      (blend Single.half surface.lastLevel).IsWithin surface.lastLevel ∧
      ∃ z, Single.half.IsAt z ∧ (blend Single.half surface.lastLevel).IsAt z := by
  intro settings state surface lod
  have hlimits : surface.minLod.le surface.maxLod = true := by decide
  have hlast : surface.lastLevel < 2 ^ 24 := by decide
  obtain ⟨hselect, hlevels⟩ := levels_of_detail_in_range Single.log2 state hlimits hlast
  obtain ⟨-, hwithin, hexact⟩ := hlevels Single.half
  exact ⟨hselect _ none none, hwithin, hexact (by decide) (by decide)⟩

end Lod

end QuadSampler
