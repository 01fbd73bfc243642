import QuadSampler.Proofs.Single.Position
import QuadSampler.Addressing

/-!
# Finite numbers

Which operations stay finite. A coordinate may be anything; wrapping brings it between finite bounds
or takes what is left above its floor, and what it does in between does not overflow.

Most results lie in a range whose ends are representable, and rounding does not leave such a range
(`exists_isAt_of_position_place`). Taking half a texel off is the exception, since a coordinate may
be the greatest number there is; there the half is lost in rounding (`IsFinite.sub_half`).
-/

namespace QuadSampler

namespace Single

/-- Neither an infinity nor not-a-number. -/
def IsFinite (x : Single) : Prop := ∃ z, x.IsAt z

instance decidableIsFinite (x : Single) : Decidable x.IsFinite :=
  match x with
  | nan => isFalse fun ⟨_, _, _, _, heq, _⟩ ↦ nomatch heq
  | infinite _ => isFalse fun ⟨_, _, _, _, heq, _⟩ ↦ nomatch heq
  | finite s m h => isTrue ⟨signed s m, s, m, h, rfl, rfl⟩

theorem IsAt.isFinite {x : Single} {z : Int} (h : x.IsAt z) : x.IsFinite := ⟨z, h⟩

/-- A rounded quotient is finite if it lies in a range with representable ends. -/
theorem exists_isAt_of_position_place {x : Single} {z : Int} {b n : Nat}
    (h : x.position = some (place z b)) (hb : 0 < b) (hn : Representable n)
    (hz : z.natAbs ≤ n * b) : ∃ v, x.IsAt v ∧ v.natAbs ≤ n := by
  have hz' : (z.natAbs : Int) ≤ n * b := by exact_mod_cast hz
  have hneg : -(n : Int) * b = -(n * b) := Int.neg_mul ..
  have hlo : Representable (-(n : Int)).natAbs := by rwa [Int.natAbs_neg, Int.natAbs_natCast]
  have hhi : Representable (n : Int).natAbs := by rwa [Int.natAbs_natCast]
  obtain ⟨hlow, hhigh⟩ := place_mem (z := z) hb hlo hhi (by omega) (by omega)
  have hlt := hn.1
  exact ⟨_, isAt_of_position h (by omega), by omega⟩

theorem representable_two_pow {e : Nat} (h : e ≤ 253) : Representable (2 ^ e) := by
  have h := representable_mul_pow (m := 1) (by decide) h
  rwa [Nat.one_mul] at h

theorem representable_two_pow_grid {e : Nat} (h : e ≤ 104) :
    Representable (2 ^ e * gridPerOne) := by
  rw [gridPerOne, ← Nat.pow_add]
  exact representable_two_pow (by omega)

theorem isAt_zero_of_position {x : Single} {b : Nat} (hb : 0 < b)
    (h : x.position = some (place 0 b)) : x.IsAt 0 := by
  have hzero : Representable (0 : Int).natAbs := representable_grid (n := 0) (by decide)
  have hplace := place_mul_self hzero hb
  rw [Int.zero_mul] at hplace
  rw [hplace] at h
  exact isAt_of_position h hzero.1

/-! ## Products with zero -/

theorem IsAt.mul_of_isAt_zero {w x : Single} (hw : w.IsAt 0) (hx : x.IsFinite) :
    (w * x).IsAt 0 := by
  obtain ⟨z, hz⟩ := hx
  have hposition := hw.position_mul hz
  rw [Int.zero_mul] at hposition
  exact isAt_zero_of_position gridPerOne_pos hposition

theorem IsFinite.mul_isAt_zero {w x : Single} (hw : w.IsFinite) (hx : x.IsAt 0) :
    (w * x).IsAt 0 := by
  obtain ⟨z, hz⟩ := hw
  have hposition := hz.position_mul hx
  rw [Int.mul_zero] at hposition
  exact isAt_zero_of_position gridPerOne_pos hposition

theorem IsAt.zero_mul_eq_nan {w x : Single} (hw : w.IsAt 0) (hx : ¬ x.IsFinite) : w * x = nan := by
  obtain ⟨s, m, hm, rfl, hm0⟩ := hw
  obtain rfl : m = 0 := by rw [← natAbs_signed s m, hm0, Int.natAbs_zero]
  cases x with
  | nan => rfl
  | infinite t => rfl
  | finite t n hn => exact absurd ⟨_, t, n, hn, rfl, rfl⟩ hx

/-! ## Not-a-number -/

theorem add_nan (x : Single) : x + nan = nan := by
  cases x <;> rfl

theorem mul_nan (x : Single) : x * nan = nan := by
  cases x <;> rfl

/-! ## What is left above the floor -/

/-- What is left of a number above its floor stands at the rounding of the exact remainder. -/
theorem IsAt.position_fract {x : Single} {z : Int} (h : x.IsAt z) :
    x.fract.position = some (place (z % gridPerOne) 1) := by
  have hposition := h.position_sub h.floor
  have hmod := Int.emod_add_mul_ediv z gridPerOne
  rw [Int.mul_comm] at hmod
  have hrest : z - z / gridPerOne * gridPerOne = z % gridPerOne := by omega
  rwa [hrest] at hposition

private theorem IsAt.exists_fract {x : Single} {z : Int} (h : x.IsAt z) :
    ∃ v, x.fract.IsAt v ∧ v.natAbs ≤ gridPerOne := by
  have hlow := Int.emod_nonneg z (b := gridPerOne) natCast_gridPerOne_pos.ne'
  have hhigh := Int.emod_lt_of_pos z natCast_gridPerOne_pos
  have hgrid : Representable gridPerOne := representable_two_pow (by decide)
  exact exists_isAt_of_position_place h.position_fract Nat.one_pos hgrid (by omega)

theorem IsAt.fract_of_whole {x : Single} {i : Int} (h : x.IsAt (i * gridPerOne)) :
    x.fract.IsAt 0 := by
  have hposition := h.position_fract
  rw [Int.mul_emod_left] at hposition
  exact isAt_zero_of_position Nat.one_pos hposition

/-! ## Half a texel less -/

private theorem Representable.le_greatest {n : Nat} (h : Representable n) :
    n ≤ (2 ^ 24 - 1) * 2 ^ 253 := by
  obtain ⟨hlt, m, e, hm, rfl⟩ := h
  have hend : overflow = 2 ^ 24 * 2 ^ 253 := by decide
  rcases Nat.lt_or_ge e 253 with he | he
  · calc m * 2 ^ e ≤ 2 ^ 24 * 2 ^ 252 :=
          Nat.mul_le_mul hm.le (Nat.pow_le_pow_right (by decide) (by omega))
      _ ≤ (2 ^ 24 - 1) * 2 ^ 253 := by decide
  · have hsplit : m * 2 ^ e = m * 2 ^ (e - 253) * 2 ^ 253 := by
      rw [Nat.mul_assoc, ← Nat.pow_add, Nat.sub_add_cancel he]
    rw [hsplit, hend] at hlt
    rw [hsplit]
    have := Nat.lt_of_mul_lt_mul_right hlt
    exact Nat.mul_le_mul_right _ (by omega)

private theorem roundMagnitude_greatest_add_half :
    roundMagnitude ((2 ^ 24 - 1) * 2 ^ 253 + 2 ^ 148) 1 < overflow := by
  decide +kernel

theorem IsFinite.sub_half {x : Single} (h : x.IsFinite) : (x - half).IsFinite := by
  obtain ⟨z, hz⟩ := h
  have hle := hz.representable.le_greatest
  have hposition := hz.position_sub isAt_half
  have hround : roundMagnitude (z - 2 ^ 148).natAbs 1 < overflow := by
    refine lt_of_le_of_lt (roundMagnitude_mono Nat.one_pos Nat.one_pos ?_)
      roundMagnitude_greatest_add_half
    have hsum := Int.natAbs_sub_le z (2 ^ 148)
    have hhalf : ((2 : Int) ^ 148).natAbs = 2 ^ 148 := by decide
    omega
  refine ⟨_, isAt_of_position hposition ?_⟩
  have hsigned : (roundSigned (z - 2 ^ 148) 1).natAbs < overflow := by
    rwa [roundSigned, natAbs_signed]
  rw [place]
  omega

/-! ## Ranges -/

theorem IsFinite.minimum {x y : Single} (hx : x ≠ infinite true) (hy : y.IsFinite) :
    (x.minimum y).IsFinite := by
  rw [Single.minimum]
  split
  case isTrue => exact hy
  case isFalse hnot =>
    rw [not_or] at hnot
    obtain ⟨hnan, hlt⟩ := hnot
    cases x with
    | nan => exact absurd rfl hnan
    | finite s m hm => exact ⟨_, s, m, hm, rfl, rfl⟩
    | infinite s =>
      cases s with
      | true => exact absurd rfl hx
      | false =>
        obtain ⟨z, hz⟩ := hy
        have hend := hz.representable.1
        exact absurd ((lt_iff_of_position hz.position (b := overflow) rfl).2 (by omega)) hlt

/-- A number moved between finite bounds is finite, wherever it was. -/
theorem IsFinite.clamp (x : Single) {lo hi : Single} (hlo : lo.IsFinite) (hhi : hi.IsFinite) :
    (x.clamp lo hi).IsFinite := by
  refine IsFinite.minimum ?_ hhi
  obtain ⟨z, hz⟩ := hlo
  have hend := hz.representable.1
  have hne : lo ≠ infinite true := by
    rintro rfl
    obtain ⟨_, _, _, heq, _⟩ := hz
    exact nomatch heq
  rw [Single.maximum]
  split
  case isTrue => exact hne
  case isFalse hnot =>
    rintro rfl
    -- minus infinity is below every finite bound
    refine hnot (.inr ((lt_iff_of_position (a := -(overflow : Int)) rfl hz.position).2 ?_))
    omega

/-! ## Lengths -/

theorem place_grid_mono {a b : Int} (h : a ≤ b) :
    place (a * gridPerOne) 1 ≤ place (b * gridPerOne) 1 := by
  refine place_mono Nat.one_pos Nat.one_pos ?_
  rw [Nat.cast_one, Int.mul_one, Int.mul_one]
  exact Int.mul_le_mul_of_nonneg_right h natCast_gridPerOne_pos.le

private theorem place_grid {a : Int} (h : a.natAbs ≤ 2 ^ 24) :
    place (a * gridPerOne) 1 = a * gridPerOne := by
  refine place_one ?_
  rw [Int.natAbs_mul, Int.natAbs_natCast]
  exact representable_grid h

theorem exists_isAt_length (i : Int32) : ∃ z, (ofInt32 i).IsAt z ∧
    z.natAbs ≤ 2 ^ 31 * gridPerOne ∧ (i ≠ 0 → gridPerOne ≤ z.natAbs) ∧ (0 ≤ i.toInt → 0 ≤ z) := by
  have hposition := position_ofInt32 i
  obtain ⟨z, hz, hle⟩ : ∃ z, (ofInt32 i).IsAt z ∧ z.natAbs ≤ 2 ^ 31 * gridPerOne := by
    refine exists_isAt_of_position_place hposition Nat.one_pos
      (representable_two_pow_grid (by decide)) ?_
    have hlow := i.le_toInt
    have hhigh := i.toInt_lt
    rw [Int.natAbs_mul, Int.natAbs_natCast, Nat.mul_one]
    exact Nat.mul_le_mul_right _ (by omega)
  have hplace : z = place (i.toInt * gridPerOne) 1 :=
    Option.some.inj (hz.position.symm.trans hposition)
  refine ⟨z, hz, hle, fun hne ↦ ?_, fun hnonneg ↦ ?_⟩
  · have hne' : i.toInt ≠ 0 := fun h ↦ hne (Int32.toInt_inj.1 (h.trans Int32.toInt_zero.symm))
    rcases Int.lt_or_gt_of_ne hne' with hneg | hpos
    · have h := place_grid_mono (a := i.toInt) (b := -1) (by omega)
      rw [place_grid (a := -1) (by decide)] at h
      omega
    · have h := place_grid_mono (a := 1) (b := i.toInt) (by omega)
      rw [place_grid (a := 1) (by decide)] at h
      omega
  · have h := place_grid_mono hnonneg
    rw [place_grid (a := 0) (by decide)] at h
    omega

theorem IsFinite.div {x y : Single} {z : Int} (hx : x.IsFinite) (hy : y.IsAt z)
    (hz : gridPerOne ≤ z.natAbs) : (x / y).IsFinite := by
  obtain ⟨_, s, m, hm, rfl, -⟩ := hx
  obtain ⟨t, n, hn, rfl, rfl⟩ := hy
  rw [natAbs_signed] at hz
  have hgrid := gridPerOne_pos
  have hlt : roundMagnitude (m * gridPerOne) n < overflow := by
    have hself := roundMagnitude_of_representable hm Nat.one_pos
    rw [Nat.mul_one] at hself
    calc roundMagnitude (m * gridPerOne) n ≤ roundMagnitude m 1 :=
          roundMagnitude_mono (by omega) Nat.one_pos
            (by rw [Nat.mul_one]; exact Nat.mul_le_mul_left _ hz)
      _ = m := hself
      _ < overflow := hm.1
  rw [finite_div_finite, if_neg (by omega), round, dif_pos hlt]
  exact ⟨_, _, _, _, rfl, rfl⟩

/-- Folding back and forth makes a small number of a finite one. -/
theorem IsFinite.exists_mirror {x : Single} (h : x.IsFinite) :
    ∃ v, (mirror x).IsAt v ∧ v.natAbs ≤ 2 ^ 32 * gridPerOne := by
  obtain ⟨z, hz⟩ := h
  obtain ⟨v, hv, hle⟩ := hz.exists_fract
  obtain ⟨odd, hodd, hodd_le, -, -⟩ := exists_isAt_length (x.floorInt32 &&& 1)
  have hfold : ∃ v', (if x.floorInt32 &&& 1 = 0 then x.fract else -x.fract).IsAt v' ∧
      v'.natAbs ≤ gridPerOne := by
    split
    · exact ⟨v, hv, hle⟩
    · exact ⟨-v, hv.neg, by rwa [Int.natAbs_neg]⟩
  obtain ⟨v', hv', hle'⟩ := hfold
  have hsum := Int.natAbs_add_le v' odd
  exact exists_isAt_of_position_place (hv'.position_add hodd) Nat.one_pos
    (representable_two_pow_grid (by decide)) (by omega)

end Single

end QuadSampler
