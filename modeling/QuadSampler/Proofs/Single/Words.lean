import QuadSampler.Single.Basic

/-!
# Numbers and their words

A word of 32 bits is read as a number and the number is written as a word: the two are one word,
unless it is a pattern of not-a-number (`Single.toBits_ofBits`). So a number that is read from
storage has exactly the bits that are stored.

What has to be found again is the exponent. A significand with its leading bit in place has 24 bits,
so the logarithm of the magnitude names the exponent (`Single.magnitudeBits_normal`).
-/

namespace QuadSampler

namespace Single

private theorem magnitudeBits_subnormal {m : Nat} (h : m < 2 ^ 23) : magnitudeBits m = m := by
  have he : m.log2 - 23 = 0 := by
    rcases Nat.eq_zero_or_pos m with rfl | hpos
    · rfl
    · have := (Nat.log2_lt (Nat.ne_of_gt hpos)).2 h
      omega
  simp only [magnitudeBits, he, Nat.zero_mul, Nat.zero_add, Nat.pow_zero, Nat.div_one]

/-- A significand of 24 bits at exponent `e` is written as `e`, and the leading bit adds one. -/
theorem magnitudeBits_normal {fraction : Nat} (h : fraction < 2 ^ 23) (e : Nat) :
    magnitudeBits ((2 ^ 23 + fraction) * 2 ^ e) = (e + 1) * 2 ^ 23 + fraction := by
  have hpos := Nat.two_pow_pos e
  have hlog : ((2 ^ 23 + fraction) * 2 ^ e).log2 = 23 + e := by
    rw [Nat.log2_eq_iff (Nat.mul_ne_zero (by omega) (Nat.ne_of_gt hpos))]
    constructor
    · rw [Nat.pow_add]
      exact Nat.mul_le_mul_right _ (by omega)
    · rw [show 23 + e + 1 = 24 + e by omega, Nat.pow_add]
      exact Nat.mul_lt_mul_of_pos_right (by omega) hpos
  simp only [magnitudeBits, hlog, Nat.add_sub_cancel_left, Nat.mul_div_cancel _ hpos]
  omega

/-- Whether a word is one of the patterns of not-a-number: the greatest exponent with a fraction. -/
def IsNanWord (word : UInt32) : Prop := word.toNat / 2 ^ 23 % 256 = 255 ∧ word.toNat % 2 ^ 23 ≠ 0

instance (word : UInt32) : Decidable (IsNanWord word) := inferInstanceAs (Decidable (_ ∧ _))

theorem ofBits_eq_nan_iff (word : UInt32) : ofBits word = nan ↔ IsNanWord word := by
  simp only [ofBits, IsNanWord]
  split
  case isTrue hexponent =>
    split
    case isTrue hfraction =>
      refine iff_of_false ?_ fun h ↦ h.2 hfraction
      rintro ⟨⟩
    case isFalse hfraction => exact iff_of_true rfl ⟨hexponent, hfraction⟩
  case isFalse hexponent =>
    refine iff_of_false ?_ fun h ↦ hexponent h.1
    split
    · rintro ⟨⟩
    · rintro ⟨⟩

private theorem sign_add_ofNat (word : UInt32) (bits : Nat) (h : bits = word.toNat % 2 ^ 31) :
    (if decide (2 ^ 31 ≤ word.toNat) = true then (0x80000000 : UInt32) else 0) + UInt32.ofNat bits
      = word := by
  have hlt := word.toNat_lt
  rw [← UInt32.toNat_inj, UInt32.toNat_add, UInt32.toNat_ofNat']
  by_cases hsign : 2 ^ 31 ≤ word.toNat
  · rw [if_pos (decide_eq_true hsign)]
    have hbit : (0x80000000 : UInt32).toNat = 2 ^ 31 := rfl
    omega
  · rw [if_neg (by simpa using hsign)]
    have hbit : (0 : UInt32).toNat = 0 := rfl
    omega

/-- A word that stands for a number is the word of that number. -/
theorem toBits_ofBits {word : UInt32} (h : ¬ IsNanWord word) : (ofBits word).toBits = word := by
  have hlt := word.toNat_lt
  simp only [ofBits]
  split
  case isTrue hexponent =>
    split
    case isTrue => exact sign_add_ofNat word 0x7f800000 (by omega)
    case isFalse hfraction => exact absurd ⟨hexponent, hfraction⟩ h
  case isFalse =>
    split
    case isTrue =>
      refine sign_add_ofNat word _ ?_
      rw [magnitudeBits_subnormal (by omega)]
      omega
    case isFalse =>
      refine sign_add_ofNat word _ ?_
      rw [magnitudeBits_normal (by omega)]
      omega

end Single

end QuadSampler
