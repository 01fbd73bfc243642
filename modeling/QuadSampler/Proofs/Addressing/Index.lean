import Mathlib.Tactic.Linarith
import QuadSampler.Addressing
import QuadSampler.Filtering.FixedPoint
import QuadSampler.StaticState

/-!
# Index words

Texel indices and byte offsets are words of 32 bits whose arithmetic wraps around. Here words are
read as integers: sums and products are exact as long as the integer result fits, clamping is
clamping, and repetition takes a remainder. From that, an index that was clamped to an axis or
repeated along it is the index of a texel of the axis (`IsTexel`), whatever it was before.

The power-of-two flag of a state is computed from the first level only. `SoundLength` is what
repetition needs of the flag, and `soundLength_levelExtent` says that the flag of the first level
serves every level.
-/

namespace QuadSampler

/-! ## Words as integers -/

theorem toInt_add_of_fits {a b : Int32} (h : -2 ^ 31 ≤ a.toInt + b.toInt)
    (h' : a.toInt + b.toInt < 2 ^ 31) : (a + b).toInt = a.toInt + b.toInt := by
  rw [Int32.toInt_add, Int.bmod_eq_of_le] <;> omega

theorem toInt_mul_of_fits {a b : Int32} (h : -2 ^ 31 ≤ a.toInt * b.toInt)
    (h' : a.toInt * b.toInt < 2 ^ 31) : (a * b).toInt = a.toInt * b.toInt := by
  rw [Int32.toInt_mul, Int.bmod_eq_of_le] <;> omega

theorem toInt_sub_one {a : Int32} (h : 0 ≤ a.toInt) : (a - 1).toInt = a.toInt - 1 := by
  have := a.toInt_lt
  rw [Int32.toInt_sub, Int.bmod_eq_of_le] <;> rw [Int32.toInt_one] <;> omega

theorem toInt_add_one {a : Int32} (h : a.toInt < 2 ^ 31 - 1) : (a + 1).toInt = a.toInt + 1 := by
  have := a.le_toInt
  rw [toInt_add_of_fits] <;> rw [Int32.toInt_one] <;> omega

theorem ne_zero_of_toInt_pos {a : Int32} (h : 0 < a.toInt) : a ≠ 0 := by
  rintro rfl
  exact absurd h (by decide)

@[simp]
theorem toInt_max (a b : Int32) : (max a b).toInt = max a.toInt b.toInt := by
  have hmax : max a b = if a ≤ b then b else a := rfl
  have hle := Int32.le_iff_toInt_le (x := a) (y := b)
  rw [hmax]
  by_cases h : a ≤ b
  · rw [if_pos h, Int.max_eq_right (hle.1 h)]
  · rw [if_neg h, Int.max_eq_left (not_le.1 fun hab ↦ h (hle.2 hab)).le]

@[simp]
theorem toInt_min (a b : Int32) : (min a b).toInt = min a.toInt b.toInt := by
  have hmin : min a b = if a ≤ b then a else b := rfl
  have hle := Int32.le_iff_toInt_le (x := a) (y := b)
  rw [hmin]
  by_cases h : a ≤ b
  · rw [if_pos h, Int.min_eq_left (hle.1 h)]
  · rw [if_neg h, Int.min_eq_right (not_le.1 fun hab ↦ h (hle.2 hab)).le]

theorem toInt_clampIndex (i lo hi : Int32) :
    (clampIndex i lo hi).toInt = min (max i.toInt lo.toInt) hi.toInt := by
  rw [clampIndex, toInt_min, toInt_max]

theorem toInt_clampIndex_zero (i hi : Int32) :
    (clampIndex i 0 hi).toInt = min (max i.toInt 0) hi.toInt := by
  rw [toInt_clampIndex, Int32.toInt_zero]

/-- The whole texels of a fixed-point coordinate are its floor quotient, below zero too. -/
theorem toInt_whole (c : Int32) : (FixedPoint.whole c).toInt = c.toInt / 256 := by
  have hshift : (FixedPoint.whole c).toBitVec = c.toBitVec.sshiftRight 8 := by
    rw [FixedPoint.whole, Int32.toBitVec_shiftRight]
    rfl
  rw [← Int32.toInt_toBitVec, hshift, BitVec.toInt_sshiftRight, Int.shiftRight_eq_div_pow]
  rfl

/-! ## Bits of words -/

theorem toInt_emod_two_pow {a : Int32} {j : Nat} (hj : j ≤ 32) :
    a.toInt % (2 ^ j : Nat) = (a.toBitVec.toNat % 2 ^ j : Nat) := by
  have hdvd : ((2 ^ j : Nat) : Int) ∣ ((2 ^ 32 : Nat) : Int) :=
    Int.natCast_dvd_natCast.2 (Nat.pow_dvd_pow 2 hj)
  rw [← Int32.toInt_toBitVec, BitVec.toInt_eq_toNat_bmod, ← Int.emod_emod_of_dvd _ hdvd,
    Int.bmod_emod, Int.emod_emod_of_dvd _ hdvd, Int.natCast_emod]

private theorem toNat_toBitVec_of_toInt {a : Int32} {n : Nat} (h : a.toInt = n) :
    a.toBitVec.toNat = n := by
  have := a.toBitVec.isLt
  rw [← Int32.toInt_toBitVec, BitVec.toInt_eq_toNat_cond] at h
  split at h <;> omega

theorem toInt_of_toNat_toBitVec {a : Int32} (h : a.toBitVec.toNat < 2 ^ 31) :
    a.toInt = a.toBitVec.toNat := by
  rw [← Int32.toInt_toBitVec]
  exact BitVec.toInt_eq_toNat_of_lt (by omega)

/-- The low bits of an index are its remainder by a length that is a power of two. -/
theorem toInt_and_sub_one {i length : Int32} {j : Nat} (hj : length.toInt = (2 ^ j : Nat)) :
    (i &&& (length - 1)).toInt = i.toInt % length.toInt := by
  have hj31 : j < 31 := by
    have := length.toInt_lt
    rw [hj] at this
    exact (Nat.pow_lt_pow_iff_right (a := 2) (by decide)).1 (by exact_mod_cast this)
  have hpow : 2 ^ j ≤ 2 ^ 30 := Nat.pow_le_pow_right (by decide) (by omega)
  have hpos : 0 < 2 ^ j := Nat.two_pow_pos j
  -- one less than a power of two is a mask of the bits below it
  have hmask : (length - 1).toBitVec.toNat = 2 ^ j - 1 := by
    apply toNat_toBitVec_of_toInt
    rw [toInt_sub_one] <;> omega
  have hbits : (i &&& (length - 1)).toBitVec.toNat = i.toBitVec.toNat % 2 ^ j := by
    rw [Int32.toBitVec_and, BitVec.toNat_and, hmask, Nat.and_two_pow_sub_one_eq_mod]
  have hlt := Nat.mod_lt i.toBitVec.toNat hpos
  rw [toInt_of_toNat_toBitVec (by omega), hbits, hj, toInt_emod_two_pow (by omega)]

theorem toInt_mod_toUInt32 {i length : Int32} (h : 0 < length.toInt) :
    (i.toUInt32 % length.toUInt32).toInt32.toInt
      = (i.toUInt32.toNat % length.toInt.toNat : Nat) := by
  have hlength : length.toUInt32.toNat = length.toInt.toNat :=
    toNat_toBitVec_of_toInt (by omega)
  have hlt := length.toInt_lt
  have hmod := Nat.mod_lt i.toUInt32.toNat (show 0 < length.toInt.toNat by omega)
  have hbits : (i.toUInt32 % length.toUInt32).toInt32.toBitVec.toNat
      = i.toUInt32.toNat % length.toInt.toNat := by
    rw [UInt32.toBitVec_toInt32, UInt32.toNat_toBitVec, UInt32.toNat_mod, hlength]
  rw [toInt_of_toNat_toBitVec (by omega), hbits]

/-! ## Texels of an axis -/

/-- The index of a texel on an axis of the given length. -/
def IsTexel (length i : Int32) : Prop := 0 ≤ i.toInt ∧ i.toInt < length.toInt

/-- A length with a power-of-two flag that repetition can rely on. -/
structure SoundLength (length : Int32) (powerOfTwo : Bool) : Prop where
  pos : 0 < length.toInt
  exists_two_pow : powerOfTwo = true → ∃ j : Nat, length.toInt = (2 ^ j : Nat)

theorem isTexel_clampIndex {length : Int32} (h : 0 < length.toInt) (i : Int32) :
    IsTexel length (clampIndex i 0 (length - 1)) := by
  have hclamp := toInt_clampIndex_zero i (length - 1)
  rw [toInt_sub_one h.le] at hclamp
  constructor <;> omega

/-- Repetition along a sound length never fails and ends on the axis. -/
theorem SoundLength.repeatIndex_eq_ok {length : Int32} {powerOfTwo : Bool}
    (h : SoundLength length powerOfTwo) (i : Int32) :
    ∃ r, repeatIndex i length powerOfTwo = .ok r ∧ IsTexel length r := by
  have hpos := h.pos
  by_cases hpot : powerOfTwo = true
  · obtain ⟨j, hj⟩ := h.exists_two_pow hpot
    refine ⟨i &&& (length - 1), by rw [repeatIndex, if_pos hpot], ?_⟩
    rw [IsTexel, toInt_and_sub_one hj]
    exact ⟨Int.emod_nonneg _ (by omega), Int.emod_lt_of_pos _ hpos⟩
  · have hne := ne_zero_of_toInt_pos hpos
    refine ⟨_, by rw [repeatIndex, if_neg hpot, if_neg hne], ?_⟩
    rw [IsTexel, toInt_mod_toUInt32 hpos]
    have := Nat.mod_lt (i + length * repeatBias).toUInt32.toNat
      (show 0 < length.toInt.toNat by omega)
    omega

/-! ## Lengths of levels -/

theorem levelExtent_pos (base level : Nat) : 0 < levelExtent base level := by
  rw [levelExtent]
  omega

theorem levelExtent_le {base : Nat} (h : 0 < base) (level : Nat) :
    levelExtent base level ≤ base := by
  have := Nat.div_le_self base (2 ^ min level 31)
  rw [levelExtent]
  omega

theorem levelExtent_one (level : Nat) : levelExtent 1 level = 1 :=
  Nat.le_antisymm (levelExtent_le Nat.one_pos level) (levelExtent_pos 1 level)

theorem levelExtent_zero {base : Nat} (h : 0 < base) : levelExtent base 0 = base := by
  rw [levelExtent, Nat.zero_min, Nat.pow_zero, Nat.div_one]
  omega

theorem exists_two_pow_of_isPowerOfTwo {n : Nat} (h : isPowerOfTwo n = true) :
    ∃ j, n = 2 ^ j := by
  rw [isPowerOfTwo, Bool.and_eq_true, beq_iff_eq] at h
  exact ⟨n.log2, h.2.symm⟩

theorem levelExtent_two_pow (j level : Nat) :
    levelExtent (2 ^ j) level = 2 ^ (j - min level 31) := by
  rw [levelExtent]
  -- past `j` halvings the quotient is zero or one, and the extent stays at one
  rcases Nat.le_total (min level 31) j with h | h
  · rw [Nat.pow_div h (by decide), Nat.max_eq_left (Nat.two_pow_pos _)]
  · have hle : 2 ^ j / 2 ^ min level 31 ≤ 1 := by
      rw [Nat.div_le_iff_le_mul_add_pred (Nat.two_pow_pos _)]
      have := Nat.pow_le_pow_right (n := 2) (by decide) h
      omega
    rw [Nat.sub_eq_zero_of_le h, Nat.pow_zero, Nat.max_eq_right hle]

/-- The flag of the first level serves every level. -/
theorem soundLength_levelExtent {base : Nat} (hpos : 0 < base) (hlt : base < 2 ^ 31)
    (level : Nat) :
    SoundLength (Int32.ofNat (levelExtent base level)) (isPowerOfTwo base) := by
  have hle := levelExtent_le hpos level
  have hlength := Int32.toInt_ofNat_of_lt (n := levelExtent base level) (by omega)
  refine ⟨?_, fun hpot ↦ ?_⟩
  · have := levelExtent_pos base level
    omega
  · obtain ⟨j, hj⟩ := exists_two_pow_of_isPowerOfTwo hpot
    exact ⟨j - min level 31, by rw [hlength, hj, levelExtent_two_pow]⟩

end QuadSampler
