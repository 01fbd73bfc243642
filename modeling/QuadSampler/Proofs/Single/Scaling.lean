import QuadSampler.Proofs.Single.Finite

/-!
# Numbers scaled by powers of two

A product with a power of two has the significand of its other factor, so it is exact as long as
the significand has its place on the grid: not above every finite number, and not cut at the lower
end (`scales_mul_two_pow`).

Exactly scaled numbers compare as before, and their quotients are the same numbers, since rounding
depends on nothing but the exact quotient (`Scales.div_eq`).
-/

namespace QuadSampler

namespace Single

/-- Whether a product of finite numbers underflows: exactly, it is below the least number with a
full significand, and no number stands there. -/
def Underflows (x y : Single) : Prop :=
  ∃ a b : Int, x.IsAt a ∧ y.IsAt b ∧ (a * b).natAbs < 2 ^ 23 * gridPerOne ∧
    ¬ (gridPerOne : Int) ∣ a * b

theorem not_underflows_of_le {x y : Single} {a b : Int} (hx : x.IsAt a) (hy : y.IsAt b)
    (h : 2 ^ 23 * gridPerOne ≤ (a * b).natAbs) : ¬ x.Underflows y := by
  rintro ⟨a', b', ha', hb', hlt, -⟩
  obtain rfl : a' = a := Option.some.inj (ha'.position.symm.trans hx.position)
  obtain rfl : b' = b := Option.some.inj (hb'.position.symm.trans hy.position)
  omega

/-- Finite numbers of one sign, `k` times the magnitude of the first being `k'` times that of the
second. -/
def Scales (k k' : Nat) (x x' : Single) : Prop :=
  ∃ s m h m' h', x = finite s m h ∧ x' = finite s m' h' ∧ m * k = m' * k'

/-! ## Rounding of equal quotients -/

private theorem round_congr (s : Bool) {a b a' b' : Nat} (hb : 0 < b) (hb' : 0 < b')
    (h : a * b' = a' * b) : round s a b = round s a' b' := by
  simp only [round, roundMagnitude_congr hb hb' h]

/-! ## Exact products -/

private theorem exists_significand {c e j : Nat} (hc : c < 2 ^ 24)
    (h : 2 ^ 23 * gridPerOne ≤ c * 2 ^ e * 2 ^ j ∨ gridPerOne ∣ c * 2 ^ e * 2 ^ j) :
    ∃ c' e', c' < 2 ^ 24 ∧ c * 2 ^ e * 2 ^ j = c' * 2 ^ e' * gridPerOne := by
  rw [Nat.mul_assoc, ← Nat.pow_add] at h ⊢
  rw [gridPerOne] at h ⊢
  rcases le_or_gt 149 (e + j) with hle | hlt
  · refine ⟨c, e + j - 149, hc, ?_⟩
    rw [Nat.mul_assoc, ← Nat.pow_add, Nat.sub_add_cancel hle]
  · rcases h with hlong | hdvd
    · have hshort : c * 2 ^ (e + j) < 2 ^ 24 * 2 ^ 148 :=
        Nat.mul_lt_mul_of_lt_of_le hc (Nat.pow_le_pow_right (by decide) (by omega)) (by positivity)
      omega
    · have hsplit : 2 ^ 149 = 2 ^ (149 - (e + j)) * 2 ^ (e + j) := by
        rw [← Nat.pow_add, Nat.sub_add_cancel hlt.le]
      rw [hsplit] at hdvd
      obtain ⟨c', rfl⟩ := Nat.dvd_of_mul_dvd_mul_right (Nat.two_pow_pos _) hdvd
      have hle : c' ≤ 2 ^ (149 - (e + j)) * c' := Nat.le_mul_of_pos_left c' (Nat.two_pow_pos _)
      refine ⟨c', 0, by omega, ?_⟩
      rw [hsplit]
      ring

/-- A product with a power of two that neither overflows nor underflows is exact. -/
theorem scales_mul_two_pow {x scale : Single} {j : Nat} (hscale : scale.IsAt (2 ^ j : Nat))
    (hx : x.IsFinite) (hfinite : (x * scale).IsFinite) (hunder : ¬ x.Underflows scale) :
    Scales (2 ^ j) gridPerOne x (x * scale) := by
  obtain ⟨z, s, m, hm, rfl, rfl⟩ := hx
  obtain ⟨t, n, hn, rfl, hsigned⟩ := hscale
  obtain ⟨rfl, rfl⟩ : t = false ∧ n = 2 ^ j := by
    have hpos := Nat.two_pow_pos j
    cases t with
    | false => exact ⟨rfl, by rw [signed_false] at hsigned; omega⟩
    | true => rw [signed_true] at hsigned; omega
  obtain ⟨-, c, e, hc, rfl⟩ := id hm
  obtain ⟨c', e', hc', hproduct⟩ : ∃ c' e', c' < 2 ^ 24 ∧
      c * 2 ^ e * 2 ^ j = c' * 2 ^ e' * gridPerOne := by
    refine exists_significand hc ?_
    by_contra hlost
    rw [not_or, not_le] at hlost
    refine hunder ⟨_, _, ⟨s, _, hm, rfl, rfl⟩, ⟨false, _, hn, rfl, rfl⟩, ?_, ?_⟩
    · rw [Int.natAbs_mul, natAbs_signed, natAbs_signed]
      exact hlost.1
    · rw [← Int.natAbs_dvd_natAbs, Int.natAbs_mul, natAbs_signed, natAbs_signed,
        Int.natAbs_natCast]
      exact hlost.2
  have hround : roundMagnitude (c * 2 ^ e * 2 ^ j) gridPerOne = c' * 2 ^ e' := by
    rw [hproduct, roundMagnitude_mul_self hc' gridPerOne_pos]
  have hmul : finite s (c * 2 ^ e) hm * finite false (2 ^ j) hn
      = round s (c * 2 ^ e * 2 ^ j) gridPerOne := by
    rw [finite_mul_finite, Bool.xor_false]
  rw [hmul, round] at hfinite ⊢
  split at hfinite
  case isTrue hlt =>
    rw [dif_pos hlt]
    exact ⟨s, _, hm, _, _, rfl, rfl, by rw [hround, hproduct]⟩
  case isFalse =>
    obtain ⟨z, t, k, hk, heq, -⟩ := hfinite
    cases heq

/-! ## Comparisons and quotients -/

section Scales

variable {k k' : Nat} (hk : 0 < k) (hk' : 0 < k') {x x' y y' : Single}

theorem Scales.neg (h : Scales k k' x x') : Scales k k' (-x) (-x') := by
  obtain ⟨s, m, hm, m', hm', rfl, rfl, hmul⟩ := h
  exact ⟨!s, m, hm, m', hm', rfl, rfl, hmul⟩

theorem Scales.abs (h : Scales k k' x x') : Scales k k' x.abs x'.abs := by
  obtain ⟨s, m, hm, m', hm', rfl, rfl, hmul⟩ := h
  exact ⟨false, m, hm, m', hm', rfl, rfl, hmul⟩

theorem scales_zero (k k' : Nat) : Scales k k' 0 0 := by
  have hzero : (0 : Single) = finite false 0 (representable_of_lt (by decide)) := by decide
  exact ⟨false, 0, _, 0, _, hzero, hzero, by rw [Nat.zero_mul, Nat.zero_mul]⟩

include hk hk'

/-- What relation two numbers are in is not changed by scaling both. -/
theorem Scales.related_eq {r : Int → Int → Bool}
    (hr : ∀ a b c : Int, 0 < c → r (a * c) (b * c) = r a b) (hx : Scales k k' x x')
    (hy : Scales k k' y y') : related r x y = related r x' y' := by
  obtain ⟨s, m, hm, m', hm', rfl, rfl, hmul⟩ := hx
  obtain ⟨t, n, hn, n', hn', rfl, rfl, hmul'⟩ := hy
  have hsigned : ∀ u {a a' : Nat}, a * k = a' * k' → signed u a * k = signed u a' * k' := by
    intro u a a' h
    rw [← signed_mul, ← signed_mul, h]
  rw [related_finite, related_finite, ← hr _ _ k (by exact_mod_cast hk), hsigned s hmul,
    hsigned t hmul', hr _ _ k' (by exact_mod_cast hk')]

theorem Scales.le_eq (hx : Scales k k' x x') (hy : Scales k k' y y') : x.le y = x'.le y' :=
  hx.related_eq hk hk' (fun _ _ _ hc ↦ decide_eq_decide.2 (Int.mul_le_mul_right hc)) hy

theorem Scales.same_eq (hx : Scales k k' x x') (hy : Scales k k' y y') : x.same y = x'.same y' :=
  hx.related_eq hk hk' (fun _ _ _ hc ↦ decide_eq_decide.2 (mul_left_inj' hc.ne')) hy

/-- Quotients of numbers that are scaled alike are one number. -/
theorem Scales.div_eq (hx : Scales k k' x x') (hy : Scales k k' y y') : x / y = x' / y' := by
  obtain ⟨s, m, hm, m', hm', rfl, rfl, hmul⟩ := hx
  obtain ⟨t, n, hn, n', hn', rfl, rfl, hmul'⟩ := hy
  have hzero : ∀ {a a' : Nat}, a * k = a' * k' → (a = 0 ↔ a' = 0) := by
    intro a a' h
    have hk0 : k ≠ 0 := hk.ne'
    have hk0' : k' ≠ 0 := hk'.ne'
    have hiff : a * k = 0 ↔ a' * k' = 0 := by rw [h]
    simpa only [Nat.mul_eq_zero, hk0, hk0', or_false] using hiff
  have hcross : m * gridPerOne * n' = m' * gridPerOne * n := by
    refine Nat.eq_of_mul_eq_mul_right (Nat.mul_pos hk hk') ?_
    calc m * gridPerOne * n' * (k * k') = m * k * (n' * k') * gridPerOne := by ring
      _ = m' * k' * (n * k) * gridPerOne := by rw [hmul, hmul']
      _ = m' * gridPerOne * n * (k * k') := by ring
  rw [finite_div_finite, finite_div_finite]
  by_cases hn0 : n = 0
  · simp only [if_pos hn0, if_pos ((hzero hmul').1 hn0), hzero hmul]
  · have hn0' : n' ≠ 0 := fun h ↦ hn0 ((hzero hmul').2 h)
    rw [if_neg hn0, if_neg hn0']
    exact round_congr _ (Nat.pos_of_ne_zero hn0) (Nat.pos_of_ne_zero hn0') hcross

omit hk in
theorem Scales.eq_of_isAt_zero (hx : Scales k k' x x') (hzero : x.IsAt 0) : x = x' := by
  obtain ⟨s, m, hm, m', hm', rfl, rfl, hmul⟩ := hx
  obtain ⟨t, n, hn, heq, hsigned⟩ := hzero
  obtain ⟨rfl, rfl⟩ := finite.inj heq
  obtain rfl : m = 0 := by rw [← natAbs_signed s m, hsigned, Int.natAbs_zero]
  obtain rfl : m' = 0 := by
    rw [Nat.zero_mul, eq_comm, Nat.mul_eq_zero] at hmul
    exact hmul.resolve_right hk'.ne'
  rfl

end Scales

end Single

end QuadSampler
