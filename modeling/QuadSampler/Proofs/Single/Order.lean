import QuadSampler.Proofs.Single.Finite

/-!
# Order of numbers

What the operations do to the order of numbers. An operation that is monotone on integers is
monotone on numbers, because rounding is; what needs care are the infinities, whose sums and
products are not rounded, and not-a-number, which has no place.

Maximum, minimum and clamping pass over not-a-number, and so do conversions of it that are clamped
at zero. There it acts like minus infinity, and `Single.rank` gives it that place, so that clamping
is `min` and `max` of integers for every number (`Single.position_clamp`).
-/

namespace QuadSampler

namespace Single

/-! ## Places and ranks -/

theorem position_mem {x : Single} {p : Int} (h : x.position = some p) :
    -(overflow : Int) ≤ p ∧ p ≤ overflow := by
  cases x with
  | nan => exact nomatch h
  | infinite s =>
    obtain rfl := Option.some.inj h
    cases s <;> simp
  | finite s m hm =>
    obtain rfl := Option.some.inj h
    have := hm.1
    cases s <;> simp <;> omega

theorem eq_nan_of_position {x : Single} (h : x.position = none) : x = nan := by
  cases x with
  | nan => rfl
  | infinite s | finite s m hm => exact nomatch h

private theorem ne_nan_of_position {x : Single} {p : Int} (h : x.position = some p) : x ≠ nan := by
  rintro rfl
  exact nomatch h

theorem le_place_of_le {z n : Int} (hn : Representable n.natAbs) (h : n ≤ z) : n ≤ place z 1 := by
  calc n = place n 1 := (place_one hn).symm
    _ ≤ place z 1 := place_mono Nat.one_pos Nat.one_pos (by omega)

theorem place_le_of_le {z n : Int} (hn : Representable n.natAbs) (h : z ≤ n) : place z 1 ≤ n := by
  calc place z 1 ≤ place n 1 := place_mono Nat.one_pos Nat.one_pos (by omega)
    _ = n := place_one hn

theorem nonneg_of_position_abs {x : Single} {p : Int} (h : x.abs.position = some p) : 0 ≤ p := by
  cases x with
  | nan => exact nomatch h
  | infinite s | finite s m hm =>
    obtain rfl := Option.some.inj h
    exact Int.natCast_nonneg _

/-- Place of a number, where not-a-number stands with minus infinity. -/
def rank (x : Single) : Int := x.position.getD (-overflow)

theorem rank_of_position {x : Single} {p : Int} (h : x.position = some p) : x.rank = p := by
  rw [rank, h, Option.getD_some]

private theorem rank_nan : nan.rank = -overflow := rfl

private theorem rank_infinite (s : Bool) : (infinite s).rank = signed s overflow := rfl

theorem IsAt.rank {x : Single} {z : Int} (h : x.IsAt z) : x.rank = z :=
  rank_of_position h.position

theorem rank_mem (x : Single) : -(overflow : Int) ≤ x.rank ∧ x.rank ≤ overflow := by
  rw [rank]
  cases h : x.position with
  | none => simp
  | some p => exact position_mem h

theorem rank_cases (x : Single) :
    x = nan ∨ x = infinite true ∨ x = infinite false ∨ x.IsAt x.rank := by
  cases x with
  | nan => exact .inl rfl
  | infinite s => cases s <;> simp
  | finite s m hm => exact .inr (.inr (.inr ⟨s, m, hm, rfl, rfl⟩))

theorem IsAt.rank_lt {x : Single} {z : Int} (h : x.IsAt z) :
    -(overflow : Int) < z ∧ z < overflow := by
  have := h.representable.1
  omega

theorem isAt_of_rank {x : Single} (hlow : -(overflow : Int) < x.rank) (hhigh : x.rank < overflow) :
    x.IsAt x.rank := by
  obtain rfl | rfl | rfl | hx := rank_cases x
  · exact absurd hlow (lt_irrefl _)
  · exact absurd hlow (lt_irrefl _)
  · exact absurd hhigh (lt_irrefl _)
  · exact hx

theorem position_of_rank {x : Single} (h : -(overflow : Int) < x.rank) :
    x.position = some x.rank := by
  cases hx : x.position with
  | none =>
    rw [rank, hx] at h
    exact absurd h (lt_irrefl _)
  | some p => rw [rank_of_position hx]

theorem exists_position_of_le {x y : Single} (h : x.le y = true) :
    ∃ a b, x.position = some a ∧ y.position = some b ∧ a ≤ b := by
  cases hx : x.position with
  | none => simp [le, related, hx] at h
  | some a =>
    cases hy : y.position with
    | none => simp [le, related, hx, hy] at h
    | some b => exact ⟨a, b, rfl, rfl, (le_iff_of_position hx hy).1 h⟩

theorem rank_le_of_le {x y : Single} (h : x.le y = true) : x.rank ≤ y.rank := by
  obtain ⟨a, b, ha, hb, hab⟩ := exists_position_of_le h
  rwa [rank_of_position ha, rank_of_position hb]

theorem same_iff_of_position {x y : Single} {a b : Int} (hx : x.position = some a)
    (hy : y.position = some b) : x.same y = true ↔ a = b := by
  simp only [same, related, hx, hy, beq_iff_eq]

theorem exists_position_of_same {x y : Single} (h : x.same y = true) :
    ∃ p, x.position = some p ∧ y.position = some p := by
  cases hx : x.position with
  | none => simp [same, related, hx] at h
  | some a =>
    cases hy : y.position with
    | none => simp [same, related, hx, hy] at h
    | some b =>
      obtain rfl := (same_iff_of_position hx hy).1 h
      exact ⟨a, rfl, rfl⟩

/-! ## Maximum and clamping -/

theorem maximum_eq_left {x y : Single} {a b : Int} (hx : x.position = some a)
    (hy : y.position = some b) (h : b ≤ a) : x.maximum y = x := by
  have hlt : ¬ x.lt y = true := fun hlt ↦ h.not_gt ((lt_iff_of_position hx hy).1 hlt)
  rw [maximum, if_neg (not_or.2 ⟨ne_nan_of_position hx, hlt⟩)]

theorem minimum_eq_left {x y : Single} {a b : Int} (hx : x.position = some a)
    (hy : y.position = some b) (h : a ≤ b) : x.minimum y = x := by
  have hlt : ¬ y.lt x = true := fun hlt ↦ h.not_gt ((lt_iff_of_position hy hx).1 hlt)
  rw [minimum, if_neg (not_or.2 ⟨ne_nan_of_position hx, hlt⟩)]

theorem maximum_eq_iff {x y lo : Single} {a b : Int} (hlo : lo.position = some a)
    (hy : y.position = some b) (h : a < b) : x.maximum lo = y ↔ x = y := by
  rw [maximum]
  split
  case isTrue hbound =>
    refine iff_of_false ?_ ?_
    · rintro rfl
      obtain rfl := Option.some.inj (hlo.symm.trans hy)
      exact lt_irrefl _ h
    · rintro rfl
      rcases hbound with hnan | hlt
      · exact ne_nan_of_position hy hnan
      · exact h.not_gt ((lt_iff_of_position hy hlo).1 hlt)
  case isFalse => rfl

theorem minimum_eq_iff {x y hi : Single} {a b : Int} (hhi : hi.position = some b)
    (hy : y.position = some a) (h : a < b) : x.minimum hi = y ↔ x = y := by
  rw [minimum]
  split
  case isTrue hbound =>
    refine iff_of_false ?_ ?_
    · rintro rfl
      obtain rfl := Option.some.inj (hhi.symm.trans hy)
      exact lt_irrefl _ h
    · rintro rfl
      rcases hbound with hnan | hlt
      · exact ne_nan_of_position hy hnan
      · exact h.not_gt ((lt_iff_of_position hhi hy).1 hlt)
  case isFalse => rfl

theorem clamp_eq_iff {x y lo hi : Single} {a b p : Int} (hlo : lo.position = some a)
    (hhi : hi.position = some b) (hy : y.position = some p) (hap : a < p) (hpb : p < b) :
    x.clamp lo hi = y ↔ x = y := by
  rw [clamp, minimum_eq_iff hhi hy hpb, maximum_eq_iff hlo hy hap]

theorem rank_maximum (x y : Single) : (x.maximum y).rank = max x.rank y.rank := by
  have hy := rank_mem y
  cases hx : x.position with
  | none =>
    obtain rfl := eq_nan_of_position hx
    rw [maximum_nan_left, rank_nan, max_eq_right hy.1]
  | some a =>
    cases hb : y.position with
    | none =>
      have hlt : ¬ x.lt y = true := by simp [lt, related, hb]
      have hkeep : x.maximum y = x := by
        rw [maximum, if_neg (not_or.2 ⟨ne_nan_of_position hx, hlt⟩)]
      have hyrank : y.rank = -overflow := by rw [rank, hb, Option.getD_none]
      rw [hkeep, hyrank, max_eq_left (rank_mem x).1]
    | some b =>
      rw [rank_of_position (position_maximum hx hb), rank_of_position hx, rank_of_position hb]

/-- A number moved between two places stands where the integers say, not-a-number at the lower of
the two. -/
theorem position_clamp (x : Single) {lo hi : Single} {a b : Int} (hlo : lo.position = some a)
    (hhi : hi.position = some b) :
    (x.clamp lo hi).position = some (min (max x.rank a) b) := by
  have hmax : (x.maximum lo).position = some (max x.rank a) := by
    cases hx : x.position with
    | none =>
      obtain rfl := eq_nan_of_position hx
      rw [maximum_nan_left, hlo, rank_nan, max_eq_right (position_mem hlo).1]
    | some p => rw [position_maximum hx hlo, rank_of_position hx]
  exact position_minimum hmax hhi

/-! ## Sums and products -/

/-- An operation that leaves not-a-number and the infinities as they are keeps the order of all
numbers if it does so for the finite ones. -/
theorem rank_mono_of_isAt {f : Single → Single} (hnan : f nan = nan)
    (hinfinite : ∀ s, f (infinite s) = infinite s)
    (hfinite : ∀ x y : Single, ∀ a b : Int, x.IsAt a → y.IsAt b → a ≤ b →
      (f x).rank ≤ (f y).rank)
    {x y : Single} (h : x.rank ≤ y.rank) : (f x).rank ≤ (f y).rank := by
  have hlow := (rank_mem (f y)).1
  have hhigh := (rank_mem (f x)).2
  obtain rfl | rfl | rfl | hx := rank_cases x
  · rwa [hnan]
  · rwa [hinfinite]
  · obtain rfl | rfl | rfl | hy := rank_cases y
    · exact absurd h (by decide)
    · exact absurd h (by decide)
    · exact le_refl _
    · exact absurd h hy.rank_lt.2.not_ge
  · obtain rfl | rfl | rfl | hy := rank_cases y
    · exact absurd h hx.rank_lt.1.not_ge
    · exact absurd h hx.rank_lt.1.not_ge
    · rwa [hinfinite]
    · exact hfinite x y _ _ hx hy h

theorem rank_add_mono {x y b : Single} {z : Int} (hb : b.IsAt z) (h : x.rank ≤ y.rank) :
    (x + b).rank ≤ (y + b).rank := by
  obtain ⟨t, n, hn, rfl, -⟩ := id hb
  refine rank_mono_of_isAt (f := (· + finite t n hn)) rfl (fun _ ↦ rfl)
    (fun x y p q hx hy hle ↦ ?_) h
  rw [rank_of_position (hx.position_add hb), rank_of_position (hy.position_add hb)]
  exact place_mono Nat.one_pos Nat.one_pos (by omega)

theorem eq_infinite_or_isAt {x : Single} {p : Int} (h : x.position = some p) (hp : 0 ≤ p) :
    x = infinite false ∨ x.IsAt p := by
  obtain rfl | rfl | rfl | hx := rank_cases x
  · exact nomatch h
  · obtain rfl := Option.some.inj h
    exact absurd hp (by decide)
  · exact .inl rfl
  · rw [rank_of_position h] at hx
    exact .inr hx

private theorem IsAt.infinite_mul {x : Single} {z : Int} (hx : x.IsAt z) (hz : 0 < z) :
    infinite false * x = infinite false := by
  obtain ⟨s, m, hm, rfl, rfl⟩ := hx
  cases s with
  | true =>
    rw [signed_true] at hz
    omega
  | false =>
    rw [signed_false] at hz
    exact if_neg (by omega)

private theorem IsAt.infinite_mul_of_zero {x : Single} (hx : x.IsAt 0) :
    infinite false * x = nan := by
  obtain ⟨s, m, hm, rfl, hzero⟩ := hx
  obtain rfl : m = 0 := by rw [← natAbs_signed s m, hzero, Int.natAbs_zero]
  rfl

private theorem IsAt.mul_infinite {x : Single} {z : Int} (hx : x.IsAt z) (hz : 0 < z) :
    x * infinite false = infinite false := by
  obtain ⟨s, m, hm, rfl, rfl⟩ := hx
  cases s with
  | true =>
    rw [signed_true] at hz
    omega
  | false =>
    rw [signed_false] at hz
    exact if_neg (by omega)

/-- Products of numbers at or above zero keep the order. Zero times infinity has no result, and
counts as zero here. -/
theorem rank_mul_mono {x y e : Single} {a b c : Int} (hx : x.position = some a)
    (hy : y.position = some b) (he : e.position = some c) (ha : 0 ≤ a) (hc : 0 ≤ c) (h : a ≤ b) :
    max 0 (x * e).rank ≤ max 0 (y * e).rank := by
  have hhigh := (rank_mem (x * e)).2
  obtain rfl | hx := eq_infinite_or_isAt hx ha
  · -- then both are infinite
    obtain rfl : y = infinite false := by
      obtain rfl | hy := eq_infinite_or_isAt hy (ha.trans h)
      · rfl
      · have := hy.rank_lt
        have : a = overflow := (Option.some.inj hx).symm
        omega
    exact le_refl _
  · rcases ha.eq_or_lt with rfl | hapos
    · -- zero times anything counts as zero
      have hzero : (x * e).rank ≤ 0 := by
        by_cases hfinite : e.IsFinite
        · rw [(hx.mul_of_isAt_zero hfinite).rank]
        · rw [hx.zero_mul_eq_nan hfinite, rank_nan]
          exact neg_nonpos.2 (Int.natCast_nonneg _)
      omega
    · obtain rfl | hefinite := eq_infinite_or_isAt he hc
      · have hye : y * infinite false = infinite false := by
          obtain rfl | hy := eq_infinite_or_isAt hy (ha.trans h)
          · rfl
          · exact hy.mul_infinite (hapos.trans_le h)
        rw [hx.mul_infinite hapos, hye]
      · obtain rfl | hy := eq_infinite_or_isAt hy (ha.trans h)
        · rcases hc.eq_or_lt with rfl | hcpos
          · have hzero := (hx.isFinite.mul_isAt_zero hefinite).rank
            omega
          · rw [hefinite.infinite_mul hcpos]
            rw [rank_infinite, signed_false]
            omega
        · rw [rank_of_position (hx.position_mul hefinite),
            rank_of_position (hy.position_mul hefinite)]
          refine max_le_max_left 0 (place_mono gridPerOne_pos gridPerOne_pos ?_)
          exact Int.mul_le_mul_of_nonneg_right (Int.mul_le_mul_of_nonneg_right h hc)
            natCast_gridPerOne_pos.le

theorem mul_eq_nan_or_rank_nonneg {x e : Single} {a c : Int} (hx : x.position = some a)
    (he : e.position = some c) (ha : 0 ≤ a) (hc : 0 ≤ c) : x * e = nan ∨ 0 ≤ (x * e).rank := by
  have hends : (0 : Int) ≤ overflow := Int.natCast_nonneg _
  obtain rfl | hx := eq_infinite_or_isAt hx ha
  · obtain rfl | he := eq_infinite_or_isAt he hc
    · exact .inr hends
    · rcases hc.eq_or_lt with rfl | hcpos
      · exact .inl (he.infinite_mul_of_zero)
      · rw [he.infinite_mul hcpos]
        exact .inr hends
  · obtain rfl | he := eq_infinite_or_isAt he hc
    · rcases ha.eq_or_lt with rfl | hapos
      · exact .inl (hx.zero_mul_eq_nan (by decide))
      · rw [hx.mul_infinite hapos]
        exact .inr hends
    · rw [rank_of_position (hx.position_mul he)]
      exact .inr (place_nonneg (Int.mul_nonneg ha hc) _)

/-! ## Whole numbers -/

/-- The floor as a word, by rank. Not-a-number gives zero instead of the least word, which a limit
at zero does not see. -/
theorem max_zero_toInt_floorInt32 (x : Single) :
    max x.floorInt32.toInt 0 = max (min (2 ^ 31 - 1) (x.rank / gridPerOne)) 0 := by
  obtain rfl | rfl | rfl | hx := rank_cases x
  · decide
  · decide
  · decide
  · rw [hx.floorInt32, toInt_saturate]
    omega

theorem max_zero_toInt32 (x : Single) :
    max x.toInt32.toInt 0 = max (min (2 ^ 31 - 1) (x.rank / gridPerOne)) 0 := by
  cases x with
  | nan => decide
  | infinite s => cases s <;> decide
  | finite s m hm =>
    have hrank : (finite s m hm).rank = signed s m := rfl
    rw [toInt32_finite, toInt_saturate, hrank]
    have hquotient := Int.natCast_nonneg (m / gridPerOne)
    cases s with
    | false =>
      rw [signed_false, signed_false, Int.natCast_ediv]
      omega
    | true =>
      rw [signed_true, signed_true]
      have hneg : -(m : Int) / gridPerOne ≤ 0 :=
        Int.ediv_le_of_le_mul natCast_gridPerOne_pos (by omega)
      omega

/-- The integer nearest to `z` grid steps, a half going away from zero. -/
def nearestAway (z : Int) : Int :=
  signed (decide (z < 0)) ((2 * z.natAbs + gridPerOne) / (2 * gridPerOne))

private theorem nearestAway_of_nonneg {z : Int} (hz : 0 ≤ z) :
    nearestAway z = ((2 * z.natAbs + gridPerOne) / (2 * gridPerOne) : Nat) := by
  rw [nearestAway, decide_eq_false (by omega), signed_false]

private theorem nearestAway_of_neg {z : Int} (hz : z < 0) :
    nearestAway z = -((2 * z.natAbs + gridPerOne) / (2 * gridPerOne) : Nat) := by
  rw [nearestAway, decide_eq_true hz, signed_true]

private theorem nearestAway_mono {a b : Int} (h : a ≤ b) : nearestAway a ≤ nearestAway b := by
  rcases lt_or_ge a 0 with ha | ha
  · rw [nearestAway_of_neg ha]
    rcases lt_or_ge b 0 with hb | hb
    · rw [nearestAway_of_neg hb]
      have hdiv := Nat.div_le_div_right (c := 2 * gridPerOne)
        (show 2 * b.natAbs + gridPerOne ≤ 2 * a.natAbs + gridPerOne by omega)
      exact neg_le_neg (by exact_mod_cast hdiv)
    · rw [nearestAway_of_nonneg hb]
      exact (neg_nonpos.2 (Int.natCast_nonneg _)).trans (Int.natCast_nonneg _)
  · rw [nearestAway_of_nonneg ha, nearestAway_of_nonneg (ha.trans h)]
    exact_mod_cast Nat.div_le_div_right (by omega)

private theorem nearestAway_grid (i : Int) : nearestAway (i * gridPerOne) = i := by
  have hgrid := natCast_gridPerOne_pos
  have hquotient : (2 * (i * gridPerOne).natAbs + gridPerOne) / (2 * gridPerOne) = i.natAbs := by
    rw [Int.natAbs_mul, Int.natAbs_natCast,
      show 2 * (i.natAbs * gridPerOne) = i.natAbs * (2 * gridPerOne) by ring, Nat.add_comm,
      Nat.add_mul_div_right _ _ (by have := gridPerOne_pos; omega),
      Nat.div_eq_of_lt (by have := gridPerOne_pos; omega), Nat.zero_add]
  rcases lt_or_ge i 0 with hi | hi
  · rw [nearestAway_of_neg (by nlinarith), hquotient]
    omega
  · rw [nearestAway_of_nonneg (by nlinarith), hquotient]
    omega

private theorem nearestAway_signed (s : Bool) (m : Nat) :
    nearestAway (signed s m) = signed s ((2 * m + gridPerOne) / (2 * gridPerOne)) := by
  have hpos := gridPerOne_pos
  cases s with
  | false =>
    rw [signed_false, nearestAway_of_nonneg (Int.natCast_nonneg m), Int.natAbs_natCast,
      signed_false]
  | true =>
    rcases Nat.eq_zero_or_pos m with rfl | hm
    · rw [Nat.mul_zero, Nat.zero_add, Nat.div_eq_of_lt (by omega)]
      decide
    · rw [signed_true, nearestAway_of_neg (by omega), signed_true, Int.natAbs_neg,
        Int.natAbs_natCast]

theorem position_round_signed (s : Bool) (n : Nat) :
    (round s n 1).position = some (place (signed s n) 1) := by
  have hround := position_round (s := s) (z := signed s n) Nat.one_pos
  rw [natAbs_signed] at hround
  refine hround fun hne ↦ ?_
  cases s with
  | false =>
    rw [signed_false]
    exact (decide_eq_false (by omega)).symm
  | true =>
    rw [signed_true] at hne ⊢
    exact (decide_eq_true (by omega)).symm

theorem IsAt.position_roundAway {x : Single} {z : Int} (h : x.IsAt z) :
    x.roundAway.position = some (place (nearestAway z * gridPerOne) 1) := by
  obtain ⟨s, m, hm, rfl, rfl⟩ := h
  rw [nearestAway_signed, roundAway, position_round_signed, signed_mul]

theorem IsAt.roundAway_of_whole {x : Single} {i : Int} (h : x.IsAt (i * gridPerOne)) :
    x.roundAway.IsAt (i * gridPerOne) := by
  have hposition := h.position_roundAway
  rw [nearestAway_grid, place_one h.representable] at hposition
  exact isAt_of_position hposition h.representable.1

theorem rank_roundAway_mono {x y : Single} (h : x.rank ≤ y.rank) :
    x.roundAway.rank ≤ y.roundAway.rank := by
  refine rank_mono_of_isAt rfl (fun _ ↦ rfl) (fun x y p q hx hy hle ↦ ?_) h
  rw [rank_of_position hx.position_roundAway, rank_of_position hy.position_roundAway]
  exact place_grid_mono (nearestAway_mono hle)

end Single

end QuadSampler
