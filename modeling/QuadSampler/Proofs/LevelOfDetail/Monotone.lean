import QuadSampler.Proofs.LevelOfDetail.Bracket

/-!
# Coarser levels for greater derivatives

Greater derivatives never select a finer level. Every step of the computation keeps the order: the
maximum over axes and screen directions, the product with an extent, the logarithm, two rounded sums
with finite biases, the limits, and the conversion to levels and a weight. Of the logarithm it is
assumed that it is monotone, and that it is minus infinity at zero (`Lod.IsLogarithm`).

One step needs care. An infinite derivative along an axis without texels has no product, and a
maximum passes over not-a-number. So footprints are compared with not-a-number in the place of zero
(`Lod.GrowsTo`), which is right because the logarithms of both count as minus infinity.
-/

namespace QuadSampler

/-- No component is not-a-number, and none has a greater magnitude than its counterpart. -/
structure Axes.IsDominatedBy (a b : Axes Single) : Prop where
  s : a.s.abs.le b.s.abs = true
  t : a.t.abs.le b.t.abs = true
  r : a.r.abs.le b.r.abs = true

/-- No derivative is not-a-number, and none has a greater magnitude than its counterpart. -/
structure Gradient.IsDominatedBy (g g' : Gradient) : Prop where
  across : g.across.IsDominatedBy g'.across
  down : g.down.IsDominatedBy g'.down

namespace Lod

open Single (gridPerOne overflow)

/-- A binary logarithm, whatever its rounding: monotone from zero on, minus infinity at zero, and
not-a-number for not-a-number. -/
structure IsLogarithm (log2 : Single → Single) : Prop where
  mono : ∀ x y : Single, (0 : Single).le x = true → x.le y = true → (log2 x).le (log2 y) = true
  zero : ∀ x : Single, x.IsAt 0 → log2 x = .infinite true
  nan : log2 .nan = .nan

/-! ## Footprints -/

/-- From `x`, which is a magnitude or not-a-number, to `y` there is no way down, not-a-number
standing at zero. -/
structure GrowsTo (x y : Single) : Prop where
  nonneg : x = .nan ∨ 0 ≤ x.rank
  le : max 0 x.rank ≤ max 0 y.rank

theorem GrowsTo.maximum {x y x' y' : Single} (h : GrowsTo x y) (h' : GrowsTo x' y') :
    GrowsTo (x.maximum x') (y.maximum y') where
  nonneg := by
    rw [Single.maximum]
    split
    · exact h'.nonneg
    · exact h.nonneg
  le := by
    have := h.le
    have := h'.le
    rw [Single.rank_maximum, Single.rank_maximum]
    omega

private theorem growsTo_maximum_mul {d e d' e' scale : Single} (h : d.abs.le d'.abs = true)
    (h' : e.abs.le e'.abs = true) {c : Int} (hscale : scale.position = some c) (hc : 0 ≤ c) :
    GrowsTo (d.abs.maximum e.abs * scale) (d'.abs.maximum e'.abs * scale) := by
  obtain ⟨a, a', ha, ha', hle⟩ := Single.exists_position_of_le h
  obtain ⟨b, b', hb, hb', hle'⟩ := Single.exists_position_of_le h'
  have hnonneg := Single.nonneg_of_position_abs ha
  have hx := Single.position_maximum ha hb
  have hy := Single.position_maximum ha' hb'
  exact ⟨Single.mul_eq_nan_or_rank_nonneg hx hscale (by omega) hc,
    Single.rank_mul_mono hx hy hscale (by omega) hc (by omega)⟩

private theorem position_ofNat (n : Nat) :
    (Single.ofNat n).position = some (Single.place (n * gridPerOne) 1) := by
  have hround := Single.position_round_signed false (n * gridPerOne)
  rwa [Single.signed_false, Int.natCast_mul] at hround

private theorem growsTo_footprint (state : StaticState) (extent : Axes Nat) {g g' : Gradient}
    (h : g.IsDominatedBy g') :
    GrowsTo (footprint state extent g) (footprint state extent g') := by
  have hscale : ∀ length : Nat, ∃ c,
      (if state.normalized then Single.ofNat length else 1).position = some c ∧ 0 ≤ c := by
    intro length
    split
    · exact ⟨_, position_ofNat length,
        Single.place_nonneg (Int.mul_nonneg (Int.natCast_nonneg _) (Int.natCast_nonneg _)) 1⟩
    · exact ⟨_, Single.isAt_one.position, Int.natCast_nonneg _⟩
  obtain ⟨cs, hcs, hs⟩ := hscale extent.s
  obtain ⟨ct, hct, ht⟩ := hscale extent.t
  obtain ⟨cr, hcr, hr⟩ := hscale extent.r
  have hgrows_s := growsTo_maximum_mul h.across.s h.down.s hcs hs
  have hgrows_t := growsTo_maximum_mul h.across.t h.down.t hct ht
  have hgrows_r := growsTo_maximum_mul h.across.r h.down.r hcr hr
  have hplane := hgrows_s.maximum hgrows_t
  simp only [footprint]
  by_cases h2 : 2 ≤ state.dims <;> by_cases h3 : 3 ≤ state.dims <;>
    simp only [h2, h3, if_true, if_false]
  · exact hplane.maximum hgrows_r
  · exact hplane
  · exact hgrows_s.maximum hgrows_r
  · exact hgrows_s

/-! ## Levels of detail -/

section Selection

variable {log2 : Single → Single} (hlog : IsLogarithm log2)
include hlog

theorem IsLogarithm.rank_mono {x y : Single} (h : GrowsTo x y) :
    (log2 x).rank ≤ (log2 y).rank := by
  have hends : -(overflow : Int) < 0 := by decide
  have hlow := (Single.rank_mem (log2 y)).1
  have hgrow := h.le
  obtain rfl | hx := h.nonneg
  · rwa [hlog.nan]
  · rcases hx.eq_or_lt with hzero | hpos
    · have hx0 : x.IsAt x.rank :=
        Single.isAt_of_rank (by omega) (by rw [← hzero]; decide)
      rw [← hzero] at hx0
      rwa [hlog.zero x hx0]
    · have hxpos := Single.position_of_rank (x := x) (by omega)
      have hypos := Single.position_of_rank (x := y) (by omega)
      exact Single.rank_le_of_le (hlog.mono x y
        ((Single.le_iff_of_position Single.position_zero hxpos).2 hx)
        ((Single.le_iff_of_position hxpos hypos).2 (by omega)))

private theorem exists_position_select_mono (state : StaticState) {surface : Surface}
    (hlimits : surface.minLod.le surface.maxLod = true) (hbias : surface.lodBias.IsFinite)
    {bias : Option Single} (hrequest : ∀ b ∈ bias, b.IsFinite) {g g' : Gradient}
    (h : g.IsDominatedBy g') :
    ∃ p p', (select log2 state surface g bias none).position = some p ∧
      (select log2 state surface g' bias none).position = some p' ∧ p ≤ p' := by
  obtain ⟨a, b, hmin, hmax, hab⟩ := Single.exists_position_of_le hlimits
  obtain ⟨z, hz⟩ := hbias
  have hlogs := hlog.rank_mono (growsTo_footprint state surface.extent h)
  unfold select
  split
  · exact ⟨a, a, hmin, hmin, le_refl a⟩
  · refine ⟨_, _, Single.position_clamp _ hmin hmax, Single.position_clamp _ hmin hmax,
      min_le_min_right _ (max_le_max_right _ (Single.rank_add_mono hz ?_))⟩
    cases bias with
    | none => exact hlogs
    | some b =>
      obtain ⟨y, hy⟩ := hrequest b rfl
      exact Single.rank_add_mono hy hlogs

omit hlog in
/-- A greater level of detail selects no finer level, whichever way levels are chosen. -/
theorem levels_mono {lod lod' : Single} (h : lod.rank ≤ lod'.rank) {last : Nat}
    (hlast : last < 2 ^ 24) :
    (nearestLevel lod last).toInt ≤ (nearestLevel lod' last).toInt ∧
      (blend lod last).first.toInt ≤ (blend lod' last).first.toInt ∧
      (blend lod last).second.toInt ≤ (blend lod' last).second.toInt ∧
      ∃ z z', (blend lod last).IsAt z ∧ (blend lod' last).IsAt z' ∧ z ≤ z' := by
  have hgrid := Single.natCast_gridPerOne_pos
  have hround := Int.ediv_le_ediv hgrid (Single.rank_roundAway_mono h)
  have hfloor := Int.ediv_le_ediv hgrid h
  have hfirst := toInt_first_blend hlast lod
  have hfirst' := toInt_first_blend hlast lod'
  obtain ⟨w, hw, -, -, hsum⟩ := blend_spec lod hlast
  obtain ⟨w', hw', -, -, hsum'⟩ := blend_spec lod' hlast
  refine ⟨?_, by omega, ?_, _, _, ⟨w, hw, hsum⟩, ⟨w', hw', hsum'⟩,
    min_le_min_right _ (max_le_max_right _ h)⟩
  · rw [toInt_nearestLevel hlast, toInt_nearestLevel hlast]
    omega
  · rw [toInt_second_blend hlast, toInt_second_blend hlast]
    omega

/-- **Greater derivatives select no finer level.** If every derivative of a lane is at least as
great as before, infinities included, the level of detail is, and so are the nearest level, both
levels to blend, and the first of them together with the weight of the second. -/
theorem level_selection_monotone (state : StaticState) {surface : Surface}
    (hlimits : surface.minLod.le surface.maxLod = true) (hbias : surface.lodBias.IsFinite)
    {bias : Option Single} (hrequest : ∀ b ∈ bias, b.IsFinite) {g g' : Gradient}
    (h : g.IsDominatedBy g') {last : Nat} (hlast : last < 2 ^ 24) :
    let lod := select log2 state surface g bias none
    let lod' := select log2 state surface g' bias none
    lod.le lod' = true ∧
      (nearestLevel lod last).toInt ≤ (nearestLevel lod' last).toInt ∧
      (blend lod last).first.toInt ≤ (blend lod' last).first.toInt ∧
      (blend lod last).second.toInt ≤ (blend lod' last).second.toInt ∧
      ∃ z z', (blend lod last).IsAt z ∧ (blend lod' last).IsAt z' ∧ z ≤ z' := by
  intro lod lod'
  obtain ⟨p, p', hp, hp', hle⟩ := exists_position_select_mono hlog state hlimits hbias hrequest h
  refine ⟨(Single.le_iff_of_position hp hp').2 hle, levels_mono ?_ hlast⟩
  rwa [Single.rank_of_position hp, Single.rank_of_position hp']

end Selection

/-! ## A logarithm -/

/-- The whole part of the binary logarithm, which is the logarithm of powers of two. -/
def wholeLogarithm : Single → Single
  | .nan => .nan
  | .infinite s => if s then .nan else .infinite false
  | .finite s m _ =>
    if m = 0 then .infinite true
    else if s then .nan
    else Single.ofInt32 (Int32.ofInt (m.log2 - 149))

private theorem wholeLogarithm_of_isAt_zero {x : Single} (hx : x.IsAt 0) :
    wholeLogarithm x = .infinite true := by
  obtain ⟨s, m, hm, rfl, hzero⟩ := hx
  obtain rfl : m = 0 := by rw [← Single.natAbs_signed s m, hzero, Int.natAbs_zero]
  rfl

private theorem position_wholeLogarithm {x : Single} {m : Nat} (hx : x.IsAt m) (hm : 0 < m) :
    (wholeLogarithm x).position = some (((m.log2 : Int) - 149) * gridPerOne) := by
  have hlog : m.log2 < 128 + 149 := by
    have hlt := hx.representable.1
    rw [Int.natAbs_natCast, overflow, gridPerOne, ← Nat.pow_add] at hlt
    exact (Nat.log2_lt (by omega)).2 hlt
  have hword : (Int32.ofInt ((m.log2 : Int) - 149)).toInt = m.log2 - 149 :=
    Int32.toInt_ofInt_of_le (by omega) (by omega)
  have hat := Single.isAt_ofInt32 (i := Int32.ofInt ((m.log2 : Int) - 149)) (by omega)
  rw [hword] at hat
  obtain ⟨s, n, hn, rfl, hsigned⟩ := hx
  cases s with
  | true =>
    rw [Single.signed_true] at hsigned
    omega
  | false =>
    rw [Single.signed_false] at hsigned
    obtain rfl : n = m := by omega
    rw [wholeLogarithm, if_neg (by omega), if_neg (by decide)]
    exact hat.position

private theorem wholeLogarithm_mono {x y : Single} {a b p q : Int} (ha : x.position = some a)
    (hb : y.position = some b) (h0 : 0 ≤ a) (hab : a ≤ b)
    (hp : (wholeLogarithm x).position = some p) (hq : (wholeLogarithm y).position = some q) :
    p ≤ q := by
  obtain rfl | hy := Single.eq_infinite_or_isAt hb (h0.trans hab)
  · obtain rfl : (overflow : Int) = q := Option.some.inj hq
    exact (Single.position_mem hp).2
  · obtain rfl | hx := Single.eq_infinite_or_isAt ha h0
    · obtain rfl : (overflow : Int) = a := Option.some.inj ha
      exact absurd hy.rank_lt.2 (by omega)
    · lift a to Nat using h0
      lift b to Nat using by omega
      rcases Nat.eq_zero_or_pos a with rfl | hpos
      · rw [wholeLogarithm_of_isAt_zero hx] at hp
        obtain rfl : -(overflow : Int) = p := Option.some.inj hp
        exact (Single.position_mem hq).1
      · have hlog : a.log2 ≤ b.log2 :=
          (Nat.le_log2 (by omega)).2 ((Nat.log2_self_le (by omega)).trans (by omega))
        obtain rfl := Option.some.inj ((position_wholeLogarithm hx hpos).symm.trans hp)
        obtain rfl := Option.some.inj ((position_wholeLogarithm hy (by omega)).symm.trans hq)
        exact Int.mul_le_mul_of_nonneg_right (by omega) Single.natCast_gridPerOne_pos.le

private theorem exists_position_wholeLogarithm {x : Single} {a : Int} (ha : x.position = some a)
    (h0 : 0 ≤ a) : ∃ p, (wholeLogarithm x).position = some p := by
  obtain rfl | hx := Single.eq_infinite_or_isAt ha h0
  · exact ⟨_, rfl⟩
  · lift a to Nat using h0
    rcases Nat.eq_zero_or_pos a with rfl | hpos
    · exact ⟨_, by rw [wholeLogarithm_of_isAt_zero hx]; rfl⟩
    · exact ⟨_, position_wholeLogarithm hx hpos⟩

theorem isLogarithm_wholeLogarithm : IsLogarithm wholeLogarithm where
  mono x y h0 h := by
    obtain ⟨a, b, ha, hb, hab⟩ := Single.exists_position_of_le h
    have ha0 : 0 ≤ a := (Single.le_iff_of_position Single.position_zero ha).1 h0
    obtain ⟨p, hp⟩ := exists_position_wholeLogarithm ha ha0
    obtain ⟨q, hq⟩ := exists_position_wholeLogarithm hb (ha0.trans hab)
    exact (Single.le_iff_of_position hp hq).2 (wholeLogarithm_mono ha hb ha0 hab hp hq)
  zero x := wholeLogarithm_of_isAt_zero
  nan := rfl

/-- On the checkered texture with its two levels, without any derivative and with one of the whole
texture, under which two texels lie between neighbours. -/
theorem level_selection_monotone_checker :
    let settings := { Settings.plain with maxLod := 1 }
    let state := Binding.checker.staticState settings
    let surface := (Binding.ofSettings .checker settings).surface
    let lod := select wholeLogarithm state surface ⟨.splat 0, .splat 0⟩ none none
    let lod' := select wholeLogarithm state surface ⟨.splat (-1), .splat 0⟩ none none
    lod = 0 ∧ lod' = 1 ∧ lod.le lod' = true := by
  intro settings state surface lod lod'
  have hlimits : surface.minLod.le surface.maxLod = true := by decide
  have hrequest : ∀ b ∈ (none : Option Single), b.IsFinite := fun b hb ↦ nomatch hb
  have hlast : surface.lastLevel < 2 ^ 24 := by decide
  refine ⟨by decide +kernel, by decide +kernel, ?_⟩
  exact (level_selection_monotone isLogarithm_wholeLogarithm state hlimits (by decide) hrequest
    ⟨⟨by decide, by decide, by decide⟩, ⟨by decide, by decide, by decide⟩⟩ hlast).1

end Lod

end QuadSampler
