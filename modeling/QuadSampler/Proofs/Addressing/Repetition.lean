import QuadSampler.Proofs.Addressing.Index

/-!
# Repetition is a remainder

An index on a repeated axis is the remainder of the index by the length. Two forms compute it. The
mask of a power of two does so for every index. The biased remainder works on words read without
sign, so it is right as long as the index with its bias neither is negative nor leaves the word
(`InRepeatWindow`). The bias alone may well wrap around; that does not matter, since words keep sums
modulo `2 ^ 32`.

For the same reason the lemmas speak of the word of an integer, in or out of the range of words: the
index after the greatest word wraps around as a word, and still has the remainder of the integer.

The form is chosen by the flag of the first level. A power of two is halved to powers of two, so the
mask is right on all levels. The other way round a level may be a power of two where the first one
is not; there the biased remainder is taken, which agrees with the mask.
-/

namespace QuadSampler

/-- The window of the biased remainder: an index that with its bias fits a word read without
sign. -/
def InRepeatWindow (length : Int32) (z : Int) : Prop :=
  0 ≤ z + 1024 * length.toInt ∧ z + 1024 * length.toInt < 2 ^ 32

instance decidableInRepeatWindow (length : Int32) (z : Int) : Decidable (InRepeatWindow length z) :=
  inferInstanceAs (Decidable (_ ∧ _))

variable {length : Int32} {powerOfTwo : Bool} {z : Int}

/-! ## The two forms -/

theorem toNat_toUInt32 (i : Int32) : (i.toUInt32.toNat : Int) = i.toInt % 2 ^ 32 := by
  have h := toInt_emod_two_pow (a := i) (j := 32) (le_refl 32)
  rw [Nat.mod_eq_of_lt i.toBitVec.isLt] at h
  exact h.symm

/-- In the window the biased index is exact, whatever the bias did on the way. -/
theorem InRepeatWindow.toNat_biased (h : InRepeatWindow length z) :
    ((Int32.ofInt z + length * repeatBias).toUInt32.toNat : Int) = z + 1024 * length.toInt := by
  have hbias : repeatBias.toInt = 1024 := rfl
  rw [toNat_toUInt32, Int32.toInt_add, Int32.toInt_ofInt, Int32.toInt_mul, hbias,
    Int.mul_comm length.toInt]
  calc (z.bmod (2 ^ 32) + (1024 * length.toInt).bmod (2 ^ 32)).bmod (2 ^ 32) % 2 ^ 32
      = (z + 1024 * length.toInt) % 2 ^ 32 := by
        rw [Int.add_bmod_bmod, Int.bmod_add_bmod]
        exact Int.bmod_emod
    _ = z + 1024 * length.toInt := Int.emod_eq_of_lt h.1 h.2

theorem InRepeatWindow.exists_repeatIndex_eq_ok (h : InRepeatWindow length z)
    (hpos : 0 < length.toInt) :
    ∃ r, repeatIndex (.ofInt z) length false = .ok r ∧ r.toInt = z % length.toInt := by
  have hne := ne_zero_of_toInt_pos hpos
  refine ⟨_, by rw [repeatIndex, if_neg Bool.false_ne_true, if_neg hne], ?_⟩
  have hlength : (length.toInt.toNat : Int) = length.toInt := Int.toNat_of_nonneg hpos.le
  rw [toInt_mod_toUInt32 hpos, Int.natCast_emod, h.toNat_biased, hlength,
    Int.add_mul_emod_self_right]

private theorem exists_repeatIndex_eq_ok_of_two_pow {j : Nat} (hj : length.toInt = (2 ^ j : Nat))
    (z : Int) :
    ∃ r, repeatIndex (.ofInt z) length true = .ok r ∧ r.toInt = z % length.toInt := by
  refine ⟨_, by rw [repeatIndex, if_pos rfl], ?_⟩
  have hj32 : j ≤ 32 := by
    have := length.toInt_lt
    rw [hj] at this
    exact ((Nat.pow_lt_pow_iff_right (a := 2) (n := j) (m := 31) (by decide)).1
      (by exact_mod_cast this)).le.trans (by decide)
  have hdvd : length.toInt ∣ ((2 ^ 32 : Nat) : Int) :=
    hj ▸ Int.natCast_dvd_natCast.2 (Nat.pow_dvd_pow 2 hj32)
  rw [toInt_and_sub_one hj, Int32.toInt_ofInt]
  calc z.bmod (2 ^ 32) % length.toInt
      = z.bmod (2 ^ 32) % (2 ^ 32 : Nat) % length.toInt := (Int.emod_emod_of_dvd _ hdvd).symm
    _ = z % (2 ^ 32 : Nat) % length.toInt := by rw [Int.bmod_emod]
    _ = z % length.toInt := Int.emod_emod_of_dvd _ hdvd

/-- Whichever form the flag of a sound length chooses, it is the remainder. -/
theorem SoundLength.exists_repeatIndex_eq_ok (h : SoundLength length powerOfTwo)
    (hz : powerOfTwo = true ∨ InRepeatWindow length z) :
    ∃ r, repeatIndex (.ofInt z) length powerOfTwo = .ok r ∧ r.toInt = z % length.toInt := by
  cases hflag : powerOfTwo with
  | true =>
    obtain ⟨j, hj⟩ := h.exists_two_pow hflag
    exact exists_repeatIndex_eq_ok_of_two_pow hj z
  | false => exact (hz.resolve_left (by rw [hflag]; decide)).exists_repeatIndex_eq_ok h.pos

theorem InRepeatWindow.repeatIndex_eq (h : InRepeatWindow length z) {j : Nat}
    (hj : length.toInt = (2 ^ j : Nat)) :
    repeatIndex (.ofInt z) length true = repeatIndex (.ofInt z) length false := by
  have hpos : 0 < length.toInt := hj ▸ Int.natCast_pos.2 (Nat.two_pow_pos j)
  obtain ⟨r, hr, hmask⟩ := exists_repeatIndex_eq_ok_of_two_pow hj z
  obtain ⟨r', hr', hbiased⟩ := h.exists_repeatIndex_eq_ok hpos
  rw [hr, hr', Int32.toInt_inj.1 (hmask.trans hbiased.symm)]

theorem SoundLength.repeatIndex_add_mul (h : SoundLength length powerOfTwo) {m : Int}
    (hz : powerOfTwo = true ∨
      InRepeatWindow length z ∧ InRepeatWindow length (z + m * length.toInt)) :
    repeatIndex (.ofInt (z + m * length.toInt)) length powerOfTwo
      = repeatIndex (.ofInt z) length powerOfTwo := by
  obtain ⟨r, hr, hrem⟩ := h.exists_repeatIndex_eq_ok (hz.imp_right And.left)
  obtain ⟨r', hr', hrem'⟩ := h.exists_repeatIndex_eq_ok (hz.imp_right And.right)
  rw [Int.add_mul_emod_self_right] at hrem'
  rw [hr, hr', Int32.toInt_inj.1 (hrem'.trans hrem.symm)]

/-! ## All levels -/

/-- **Repetition serves every level.** With the flag of the first level, an index on a repeated axis
of any level becomes its remainder by the length: every index under a power-of-two flag, and every
index in the window of the biased remainder otherwise. Whatever the index, it ends on the axis. On
levels whose length is a power of two both forms agree in that window. So indices that are whole
lengths apart are the same there. -/
theorem levels_repeat_by_base_flag {base : Nat} (hpos : 1 ≤ base) (hle : base ≤ 2 ^ 30)
    (level : Nat) :
    let extent := levelExtent base level
    let length := Int32.ofNat extent
    let flag := isPowerOfTwo base
    (∀ i : Int32, flag = true ∨ InRepeatWindow length i.toInt →
      ∃ r, repeatIndex i length flag = .ok r ∧ r.toInt = i.toInt % extent) ∧
    (∀ i, ∃ r, repeatIndex i length flag = .ok r ∧ 0 ≤ r.toInt ∧ r.toInt ≤ extent - 1) ∧
    (isPowerOfTwo extent = true → ∀ i : Int32, InRepeatWindow length i.toInt →
      repeatIndex i length true = repeatIndex i length false) ∧
    (∀ (i i' : Int32) (m : Int), i'.toInt = i.toInt + m * extent →
      flag = true ∨ InRepeatWindow length i.toInt ∧ InRepeatWindow length i'.toInt →
        repeatIndex i' length flag = repeatIndex i length flag) := by
  intro extent length flag
  have hextent : extent ≤ base := levelExtent_le hpos level
  have hlength : length.toInt = extent := Int32.toInt_ofNat_of_lt (by omega)
  have hsound : SoundLength length flag := soundLength_levelExtent hpos (by omega) level
  refine ⟨fun i hi ↦ ?_, fun i ↦ ?_, fun hpot i hi ↦ ?_, fun i i' m hm hi ↦ ?_⟩
  · obtain ⟨r, hr, hrem⟩ := hsound.exists_repeatIndex_eq_ok hi
    rw [Int32.ofInt_toInt] at hr
    exact ⟨r, hr, hlength ▸ hrem⟩
  · obtain ⟨r, hr, htexel⟩ := hsound.repeatIndex_eq_ok i
    rw [IsTexel, hlength] at htexel
    exact ⟨r, hr, htexel.1, by omega⟩
  · obtain ⟨j, hj⟩ := exists_two_pow_of_isPowerOfTwo hpot
    have heq := hi.repeatIndex_eq (j := j) (by rw [hlength, hj])
    rwa [Int32.ofInt_toInt] at heq
  · rw [← hlength] at hm
    rw [hm] at hi
    have heq := hsound.repeatIndex_add_mul hi
    rwa [← hm, Int32.ofInt_toInt, Int32.ofInt_toInt] at heq

/-- An axis of twelve texels has three at its second level. -/
theorem levels_repeat_by_base_flag_twelve :
    (∃ r, repeatIndex (-7) 3 false = .ok r ∧ r.toInt = 2) ∧
      repeatIndex 3065 3 false = repeatIndex (-7) 3 false := by
  obtain ⟨hrem, -, -, hshift⟩ := @levels_repeat_by_base_flag 12 (by decide) (by decide) 2
  exact ⟨hrem (-7) (.inr (by decide)),
    hshift (-7) 3065 1024 (by decide) (.inr ⟨by decide, by decide⟩)⟩

end QuadSampler
