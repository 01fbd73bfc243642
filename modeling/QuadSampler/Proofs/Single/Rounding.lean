import Mathlib.Tactic.Linarith
import Mathlib.Tactic.Ring
import QuadSampler.Single.Basic

/-!
# Rounding keeps order and representable magnitudes

Two facts about the one rounding function carry every later argument about coordinates. Rounding
is monotone in the exact quotient, across changes of the spacing too (`roundMagnitude_mono`), and a
magnitude that has a significand of 24 bits is left as it is (`roundMagnitude_mul_self`). Together
they say that a quotient between two representable magnitudes is rounded to one between them, so
hardly any proof needs the size of a rounding error. Where one does, because nothing representable
is near enough, the error is at most one part in `2 ^ 24` (`roundMagnitude_error`).
-/

namespace QuadSampler

namespace Single

/-! ## Nearest integers -/

private theorem div_le_div_of_cross {a b a' b' : Nat} (hb : 0 < b) (hb' : 0 < b')
    (h : a * b' ≤ a' * b) : a / b ≤ a' / b' := by
  rw [Nat.le_div_iff_mul_le hb']
  have hmul : a / b * b' * b ≤ a' * b := by
    calc a / b * b' * b = a / b * b * b' := by ring
      _ ≤ a * b' := Nat.mul_le_mul_right b' (Nat.div_mul_le_self a b)
      _ ≤ a' * b := h
  exact Nat.le_of_mul_le_mul_right hmul hb

private theorem nearestEven_mono {a b a' b' : Nat} (hb : 0 < b) (hb' : 0 < b')
    (h : a * b' ≤ a' * b) :
    nearestEven a b ≤ nearestEven a' b' := by
  have hq : a / b ≤ a' / b' := div_le_div_of_cross hb hb' h
  rcases Nat.lt_or_eq_of_le hq with hlt | heq
  · calc nearestEven a b ≤ a / b + 1 := nearestEven_le a b
      _ ≤ a' / b' := hlt
      _ ≤ nearestEven a' b' := le_nearestEven a' b'
  · -- of equal whole parts, the remainders decide
    have hr : a % b * b' ≤ a' % b' * b := by
      have ha := Nat.div_add_mod a b
      have ha' := Nat.div_add_mod a' b'
      rw [← heq] at ha'
      nlinarith
    simp only [nearestEven, ← heq]
    by_cases hup : 2 * (a' % b') < b' ∨ (2 * (a' % b') = b' ∧ a / b % 2 = 0)
    · have hdown : 2 * (a % b) < b ∨ (2 * (a % b) = b ∧ a / b % 2 = 0) := by
        rcases hup with hlt | ⟨htie, heven⟩
        · left
          by_contra hge
          have : b * b' ≤ 2 * (a % b) * b' := Nat.mul_le_mul_right b' (by omega)
          have : 2 * (a' % b') * b < b' * b := Nat.mul_lt_mul_of_pos_right hlt hb
          nlinarith
        · have hle : 2 * (a % b) * b' ≤ b * b' := by nlinarith
          have := Nat.le_of_mul_le_mul_right hle hb'
          omega
      rw [if_pos hup, if_pos hdown]
    · rw [if_neg hup]
      split <;> omega

private theorem nearestEven_mul_self (k : Nat) {b : Nat} (hb : 0 < b) :
    nearestEven (k * b) b = k := by
  simp only [nearestEven, Nat.mul_div_cancel k hb, Nat.mul_mod_left]
  rw [if_pos (by omega)]

/-! ## Magnitudes -/

private theorem spacing_pos (n : Nat) : 0 < spacing n := Nat.two_pow_pos _

private theorem log2_le_log2 {m n : Nat} (h : m ≤ n) : m.log2 ≤ n.log2 := by
  by_cases hm : m = 0
  · rw [hm]
    exact Nat.zero_le _
  · exact (Nat.le_log2 (by omega)).2 ((Nat.log2_self_le hm).trans h)

private theorem roundMagnitude_le_top (a b : Nat) :
    roundMagnitude a b ≤ 2 ^ ((a / b).log2 - 23 + 24) := by
  have hlt : a / (b * spacing (a / b)) < 2 ^ 24 := by
    rw [← Nat.div_div_eq_div_mul]
    exact div_spacing_lt (a / b)
  have hle := nearestEven_le a (b * spacing (a / b))
  calc roundMagnitude a b ≤ 2 ^ 24 * spacing (a / b) := Nat.mul_le_mul_right _ (by omega)
    _ = 2 ^ ((a / b).log2 - 23 + 24) := by rw [spacing, ← Nat.pow_add, Nat.add_comm]

private theorem bottom_le_roundMagnitude {a b : Nat} (hlog : 23 ≤ (a / b).log2) :
    2 ^ (a / b).log2 ≤ roundMagnitude a b := by
  have hne : a / b ≠ 0 := by
    intro h
    rw [h] at hlog
    exact absurd hlog (by decide)
  have hsplit : 2 ^ (a / b).log2 = 2 ^ 23 * spacing (a / b) := by
    rw [spacing, ← Nat.pow_add, Nat.add_sub_cancel' hlog]
  have hquot : 2 ^ 23 ≤ a / (b * spacing (a / b)) := by
    rw [← Nat.div_div_eq_div_mul, Nat.le_div_iff_mul_le (spacing_pos _), ← hsplit]
    exact Nat.log2_self_le hne
  rw [hsplit]
  exact Nat.mul_le_mul_right _ (hquot.trans (le_nearestEven a _))

/-- Rounding of magnitudes is monotone in the quotient. Where the two quotients have different
spacings, a power of two lies between their roundings. -/
theorem roundMagnitude_mono {a b a' b' : Nat} (hb : 0 < b) (hb' : 0 < b')
    (h : a * b' ≤ a' * b) : roundMagnitude a b ≤ roundMagnitude a' b' := by
  have hq : a / b ≤ a' / b' := div_le_div_of_cross hb hb' h
  have hlog : (a / b).log2 ≤ (a' / b').log2 := log2_le_log2 hq
  by_cases heq : (a / b).log2 - 23 = (a' / b').log2 - 23
  · have hs : spacing (a / b) = spacing (a' / b') := by rw [spacing, heq, spacing]
    have hpos := spacing_pos (a' / b')
    simp only [roundMagnitude, hs]
    refine Nat.mul_le_mul_right _ (nearestEven_mono (by positivity) (by positivity) ?_)
    calc a * (b' * spacing (a' / b')) = a * b' * spacing (a' / b') := by ring
      _ ≤ a' * b * spacing (a' / b') := Nat.mul_le_mul_right _ h
      _ = a' * (b * spacing (a' / b')) := by ring
  · -- the coarser spacing begins at a power of two that the finer one does not pass
    calc roundMagnitude a b ≤ 2 ^ ((a / b).log2 - 23 + 24) := roundMagnitude_le_top a b
      _ ≤ 2 ^ (a' / b').log2 := Nat.pow_le_pow_right (by decide) (by omega)
      _ ≤ roundMagnitude a' b' := bottom_le_roundMagnitude (by omega)

theorem roundMagnitude_congr {a b a' b' : Nat} (hb : 0 < b) (hb' : 0 < b')
    (h : a * b' = a' * b) : roundMagnitude a b = roundMagnitude a' b' :=
  le_antisymm (roundMagnitude_mono hb hb' h.le) (roundMagnitude_mono hb' hb h.ge)

theorem spacing_dvd_spacing {m n : Nat} (h : m ≤ n) : spacing m ∣ spacing n :=
  Nat.pow_dvd_pow 2 (Nat.sub_le_sub_right (log2_le_log2 h) 23)

theorem spacing_dvd_mul_pow {m e : Nat} (hm : m < 2 ^ 24) : spacing (m * 2 ^ e) ∣ m * 2 ^ e := by
  by_cases h0 : m = 0
  · rw [h0, Nat.zero_mul]
    exact Nat.dvd_zero _
  · have hlog : (m * 2 ^ e).log2 < 24 + e := by
      rw [Nat.log2_lt (by positivity), Nat.pow_add]
      exact Nat.mul_lt_mul_of_pos_right hm (Nat.two_pow_pos e)
    exact (Nat.pow_dvd_pow 2 (by omega)).trans (Nat.dvd_mul_left _ _)

/-- A significand of 24 bits at any scale is its own rounding. -/
theorem roundMagnitude_mul_self {m e b : Nat} (hm : m < 2 ^ 24) (hb : 0 < b) :
    roundMagnitude (m * 2 ^ e * b) b = m * 2 ^ e := by
  obtain ⟨k, hk⟩ := spacing_dvd_mul_pow (e := e) hm
  have hpos := spacing_pos (m * 2 ^ e)
  simp only [roundMagnitude, Nat.mul_div_cancel _ hb]
  have hnum : m * 2 ^ e * b = k * (b * spacing (m * 2 ^ e)) := by
    calc m * 2 ^ e * b = spacing (m * 2 ^ e) * k * b := by rw [← hk]
      _ = k * (b * spacing (m * 2 ^ e)) := by ring
  rw [hnum, nearestEven_mul_self k (by positivity), Nat.mul_comm, ← hk]

theorem roundMagnitude_of_representable {n b : Nat} (hn : Representable n) (hb : 0 < b) :
    roundMagnitude (n * b) b = n := by
  obtain ⟨-, m, e, hm, rfl⟩ := hn
  exact roundMagnitude_mul_self hm hb

/-! ## Rounding errors -/

private theorem nearestEven_error (a : Nat) {b : Nat} (hb : 0 < b) :
    2 * (nearestEven a b * b) ≤ 2 * a + b ∧ 2 * a ≤ 2 * (nearestEven a b * b) + b := by
  have hsplit := Nat.div_add_mod a b
  have hlt := Nat.mod_lt a hb
  have hcomm := Nat.mul_comm (a / b) b
  have hup : (a / b + 1) * b = a / b * b + b := Nat.succ_mul ..
  simp only [nearestEven]
  split <;> omega

private theorem roundMagnitude_mul_right (a b : Nat) :
    roundMagnitude a b * b = nearestEven a (b * spacing (a / b)) * (b * spacing (a / b)) := by
  rw [roundMagnitude]
  ring

theorem spacing_dvd_two_pow {n j : Nat} (h : n < 2 ^ (j + 24)) : spacing n ∣ 2 ^ j := by
  refine Nat.pow_dvd_pow 2 ?_
  by_cases hn : n = 0
  · rw [hn, Nat.log2_zero]
    omega
  · have := (Nat.log2_lt hn).2 h
    omega

/-- Up to `2 ^ (j + 24)` steps, rounding moves a quotient by at most half of `2 ^ j` steps. -/
theorem roundMagnitude_error_le {a b j : Nat} (hb : 0 < b) (h : a ≤ 2 ^ (j + 24) * b) :
    2 * (roundMagnitude a b * b) ≤ 2 * a + 2 ^ j * b ∧
      2 * a ≤ 2 * (roundMagnitude a b * b) + 2 ^ j * b := by
  rcases Nat.lt_or_eq_of_le h with hlt | rfl
  · have hstep : b * spacing (a / b) ≤ 2 ^ j * b := by
      rw [Nat.mul_comm]
      refine Nat.mul_le_mul_right b (Nat.le_of_dvd (Nat.two_pow_pos j) (spacing_dvd_two_pow ?_))
      exact (Nat.div_lt_iff_lt_mul hb).2 hlt
    obtain ⟨hup, hdown⟩ := nearestEven_error a (Nat.mul_pos hb (spacing_pos (a / b)))
    rw [roundMagnitude_mul_right]
    omega
  · -- a power of two is its own rounding
    have hself := roundMagnitude_mul_self (m := 1) (e := j + 24) (by decide) hb
    rw [Nat.one_mul] at hself
    rw [hself]
    omega

/-- From `2 ^ 23` steps on, rounding moves a quotient by at most one part in `2 ^ 24`. -/
theorem roundMagnitude_error {a b : Nat} (hb : 0 < b) (h : 2 ^ 23 ≤ a / b) :
    2 ^ 24 * (roundMagnitude a b * b) ≤ 2 ^ 24 * a + a ∧
      2 ^ 24 * a ≤ 2 ^ 24 * (roundMagnitude a b * b) + a := by
  -- the spacing is at most one part in `2 ^ 23`, and rounding errs by half of it
  have hspacing : 2 ^ 23 * (b * spacing (a / b)) ≤ a := by
    have hlog : 23 ≤ (a / b).log2 := (Nat.le_log2 (by omega)).2 h
    calc 2 ^ 23 * (b * spacing (a / b)) = 2 ^ 23 * spacing (a / b) * b := by ring
      _ = 2 ^ (a / b).log2 * b := by rw [spacing, ← Nat.pow_add, Nat.add_sub_cancel' hlog]
      _ ≤ a / b * b := Nat.mul_le_mul_right b (Nat.log2_self_le (by omega))
      _ ≤ a := Nat.div_mul_le_self a b
  obtain ⟨hle, hge⟩ :=
    nearestEven_error a (Nat.mul_pos hb (spacing_pos (a / b)))
  rw [roundMagnitude_mul_right]
  constructor <;> linarith

end Single

end QuadSampler
