import QuadSampler.Filtering.Numbers
import QuadSampler.Proofs.Single.Order

/-!
# Numbers between zero and one

Weights, shares and most channels are numbers between zero and one (`Single.InUnit`). What is left
of a finite number above its floor is one of them (`Single.IsFinite.inUnit_fract`).

A blend of two such numbers with such a weight is one again (`Single.InUnit.lerp`), although three
operations round. Downwards that is a matter of order alone. Upwards the difference to the second
number may be rounded up, and what is then too much is less than half of the distance to the next
number above one, so the sum is rounded down to one again.

## Fractions that round to one

What is left of a number above its floor is less than one, but it is computed as a difference, which
is rounded. Far from zero nothing is lost: numbers of magnitude one half or more stand at multiples
of the last step below one, and so does what is left of them. From zero to one there is nothing to
take off. That leaves the numbers just below zero, which are added to one. Up to a magnitude of
`2⁻²⁵`, half of the last step, they are lost there and the sum is one
(`Single.IsAt.fract_lt_one_iff`).

Linear filters take half a texel off before they take the fraction. Just below one half numbers are
`2⁻²⁵` apart and the difference is exact, so only the greatest of them, `Single.belowHalf`, comes
that close to zero from below (`Single.fract_sub_half_lt_one_iff`).
-/

namespace QuadSampler

namespace Single

/-- The number is finite and between zero and one. -/
def InUnit (x : Single) : Prop := ∃ z : Int, x.IsAt z ∧ 0 ≤ z ∧ z ≤ gridPerOne

theorem InUnit.isFinite {x : Single} (h : x.InUnit) : x.IsFinite := by
  obtain ⟨z, hz, -⟩ := h
  exact hz.isFinite

theorem inUnit_zero : (0 : Single).InUnit := ⟨0, isAt_zero, le_refl _, Int.natCast_nonneg _⟩

theorem inUnit_one : (1 : Single).InUnit :=
  ⟨gridPerOne, isAt_one, Int.natCast_nonneg _, le_refl _⟩

theorem InUnit.zero_le {x : Single} (h : x.InUnit) : Single.le 0 x = true := by
  obtain ⟨z, hz, hlow, -⟩ := h
  exact (le_iff_of_position position_zero hz.position).2 hlow

theorem InUnit.le_one {x : Single} (h : x.InUnit) : x.le 1 = true := by
  obtain ⟨z, hz, -, hhigh⟩ := h
  exact (le_iff_of_position hz.position isAt_one.position).2 hhigh

private theorem inUnit_of_position {x : Single} {z : Int} (h : x.position = some z) (hlow : 0 ≤ z)
    (hhigh : z ≤ gridPerOne) : x.InUnit := by
  have hend : gridPerOne < overflow := by decide
  exact ⟨z, isAt_of_position h (by omega), hlow, hhigh⟩

theorem IsFinite.inUnit_fract {x : Single} (h : x.IsFinite) : x.fract.InUnit := by
  obtain ⟨z, hz⟩ := h
  have hgrid := natCast_gridPerOne_pos
  have hlow := Int.emod_nonneg z hgrid.ne'
  have hhigh := Int.emod_lt_of_pos z hgrid
  obtain ⟨hnonneg, hle⟩ := place_mem (z := z % gridPerOne) Nat.one_pos
    isAt_zero.representable isAt_one.representable (by omega) (by omega)
  exact inUnit_of_position hz.position_fract hnonneg hle

/-! ## Blends -/

/-- A difference from one is rounded up by at most one part in `2 ^ 24` of one. -/
private theorem place_one_sub_le {a : Int} (h0 : 0 ≤ a) (h1 : a ≤ gridPerOne) :
    place (gridPerOne - a) 1 ≤ gridPerOne - a + 2 ^ 125 := by
  have hpart : (2 ^ 24 * 2 ^ 125 : Int) = gridPerOne := by decide
  obtain ⟨n, hn⟩ : ∃ n : Nat, (gridPerOne - a : Int) = n :=
    ⟨_, (Int.toNat_of_nonneg (by omega)).symm⟩
  rw [hn]
  rcases lt_or_ge n (2 ^ 23) with hsmall | hlarge
  · have hrep : Representable (n : Int).natAbs := representable_of_lt (by omega)
    rw [place_one hrep]
    omega
  · have hle := (place_mem (z := (n : Int)) Nat.one_pos isAt_zero.representable
      isAt_one.representable (by omega) (by omega)).2
    have hend : gridPerOne < overflow := by decide
    obtain ⟨herror, -⟩ := place_error Nat.one_pos (by omega) (by omega : place n 1 < overflow)
    omega

private theorem place_one_add_le {z : Int} (h : z ≤ gridPerOne + 2 ^ 125) :
    place z 1 ≤ gridPerOne := by
  calc place z 1 ≤ place (gridPerOne + 2 ^ 125) 1 :=
        place_mono Nat.one_pos Nat.one_pos (by omega)
    _ = gridPerOne := by decide

/-- Between zero and one, a blend with a share between zero and one stays there. -/
theorem InUnit.lerp {w a b : Single} (hw : w.InUnit) (ha : a.InUnit) (hb : b.InUnit) :
    (lerp w a b).InUnit := by
  obtain ⟨p, hp, hp0, hp1⟩ := hw
  obtain ⟨x, hx, hx0, hx1⟩ := ha
  obtain ⟨y, hy, hy0, hy1⟩ := hb
  have hend : gridPerOne < overflow := by decide
  obtain ⟨hd_low, hd_one⟩ := place_mem (z := y - x) Nat.one_pos hx.neg.representable
    isAt_one.representable (by omega) (by omega)
  have hd := isAt_of_position (hy.position_sub hx) (by omega)
  -- above, the difference is at most what is missing to one, rounded
  have hd_high : x + place (y - x) 1 ≤ gridPerOne + 2 ^ 125 := by
    have hmono : place (y - x) 1 ≤ place (gridPerOne - x) 1 :=
      place_mono Nat.one_pos Nat.one_pos (by omega)
    have hmissing := place_one_sub_le hx0 hx1
    omega
  generalize place (y - x) 1 = d at hd hd_low hd_one hd_high
  obtain ⟨hr_low, hr_high⟩ : min 0 d ≤ place (p * d) gridPerOne ∧
      place (p * d) gridPerOne ≤ max 0 d := by
    rcases le_total 0 d with hpos | hneg
    · rw [min_eq_left hpos, max_eq_right hpos]
      exact place_mem gridPerOne_pos isAt_zero.representable hd.representable (by nlinarith)
        (by nlinarith)
    · rw [min_eq_right hneg, max_eq_left hneg]
      exact place_mem gridPerOne_pos hd.representable isAt_zero.representable (by nlinarith)
        (by nlinarith)
  have hr := isAt_of_position (hp.position_mul hd) (by omega)
  exact inUnit_of_position (hx.position_add hr) (place_nonneg (by omega) 1)
    (place_one_add_le (by omega))

/-! ## What is left of a number -/

/-- From half a step below one on, places round to one. The tie is among them, as one is even. -/
theorem place_lt_one_iff (z : Int) : place z 1 < gridPerOne ↔ z < gridPerOne - 2 ^ 124 := by
  have htie : place (gridPerOne - 2 ^ 124) 1 = gridPerOne := by decide
  have hbelow : place (gridPerOne - 2 ^ 124 - 1) 1 < gridPerOne := by decide
  constructor
  · intro h
    by_contra hge
    have hmono : place (gridPerOne - 2 ^ 124) 1 ≤ place z 1 :=
      place_mono Nat.one_pos Nat.one_pos (by omega)
    omega
  · intro h
    have hmono : place z 1 ≤ place (gridPerOne - 2 ^ 124 - 1) 1 :=
      place_mono Nat.one_pos Nat.one_pos (by omega)
    omega

/-- What is left of a number above its floor is below one, unless the number is below zero by no
more than `2⁻²⁵`. -/
theorem IsAt.fract_lt_one_iff {x : Single} {z : Int} (h : x.IsAt z) :
    x.fract.lt 1 = true ↔ ¬ (-2 ^ 124 ≤ z ∧ z < 0) := by
  have hgrid : (gridPerOne : Int) = 2 ^ 149 := by decide
  rw [lt_iff_of_position h.position_fract isAt_one.position, place_lt_one_iff, hgrid]
  rcases lt_or_ge z.natAbs (2 ^ 148) with hnear | hfar
  · omega
  · have hdvd : (2 ^ 125 : Int) ∣ z := h.two_pow_dvd hfar
    omega

/-! ## Half a texel less -/

/-- The greatest number below one half. -/
def belowHalf : Single := round false (2 ^ 148 - 2 ^ 124) 1

theorem isAt_belowHalf : belowHalf.IsAt (2 ^ 148 - 2 ^ 124) := by
  have hrep : Representable (2 ^ 148 - 2 ^ 124) := by
    have h := representable_mul_pow (m := 2 ^ 24 - 1) (e := 124) (by decide) (by decide)
    rwa [Nat.sub_mul, ← Nat.pow_add, Nat.one_mul] at h
  exact ⟨false, _, hrep, round_one_of_representable false hrep, by decide⟩

section Half

variable {x : Single} {z : Int} (h : x.IsAt z)
include h

private theorem IsAt.eq_belowHalf_iff : x = belowHalf ↔ z = 2 ^ 148 - 2 ^ 124 := by
  constructor
  · rintro rfl
    exact Option.some.inj (h.position.symm.trans isAt_belowHalf.position)
  · rintro rfl
    exact h.eq isAt_belowHalf (by decide)

private theorem IsAt.dvd_of_quarter_le (hle : 2 ^ 147 ≤ z) : (2 ^ 124 : Int) ∣ z :=
  h.two_pow_dvd (by omega)

private theorem IsAt.le_of_lt_half (hlt : z < 2 ^ 148) : z ≤ 2 ^ 148 - 2 ^ 124 := by
  have hdvd := h.dvd_of_quarter_le
  omega

end Half

/-- Half a texel less than a finite number leaves less than one above its floor, unless the number
is the greatest below one half. -/
theorem fract_sub_half_lt_one_iff {x : Single} (hx : x.IsFinite) :
    (x - half).fract.lt 1 = true ↔ x ≠ belowHalf := by
  obtain ⟨y, hy⟩ := hx.sub_half
  obtain ⟨z, hz⟩ := hx
  obtain rfl : y = place (z - 2 ^ 148) 1 :=
    Option.some.inj (hy.position.symm.trans (hz.position_sub isAt_half))
  rw [hy.fract_lt_one_iff, ne_eq, not_iff_not, hz.eq_belowHalf_iff]
  rcases lt_trichotomy z (2 ^ 148 - 2 ^ 124) with hbefore | rfl | hbehind
  · -- the number is at least one more step away from one half
    have hdvd := hz.dvd_of_quarter_le
    have hstep : z ≤ 2 ^ 148 - 2 ^ 125 := by omega
    have hplace : place (z - 2 ^ 148) 1 ≤ -2 ^ 125 :=
      place_le_of_le (representable_two_pow (e := 125) (by decide)) (by omega)
    omega
  · have hplace : place (2 ^ 148 - 2 ^ 124 - 2 ^ 148) 1 = -2 ^ 124 := by decide
    omega
  · have hhalf : 2 ^ 148 ≤ z := not_lt.1 fun hlt ↦ (hz.le_of_lt_half hlt).not_gt hbehind
    have hplace := place_nonneg (z := z - 2 ^ 148) (by omega) 1
    omega

end Single

end QuadSampler
