import Mathlib.Algebra.BigOperators.Field
import Mathlib.Algebra.BigOperators.Intervals
import Mathlib.Algebra.Order.BigOperators.Expect
import Mathlib.Tactic.FieldSimp
import Mathlib.Tactic.Linarith
import QuadSampler.Proofs.Texture.Averages

/-!
# Averaged levels do not drift

A level is averaged from the rounded level above, so its bytes are not the rounded means of the
first level. Two bounds say how far they can be off.

Whatever the extents, a byte stays between two bytes of the first level, because a rounded mean lies
between two of its numbers. Faces of a cube do not mix, so those two lie in the same face.

Where all extents that shrink are powers of two, texel `p` of a level covers a box of equally many
texels of the first level, its footprint, and the exact mean over the footprint is the mean of the
exact means that it is averaged from (`Texture.exactMean_succ`). On an axis that has reached extent
one both of these are the same, which leaves the mean as it is. So each level only adds what its own
rounding loses, at most one half, and the bound grows by one half from level to level.
-/

open scoped BigOperators

namespace QuadSampler

/-! ## Rounding a mean -/

namespace LevelLayout

variable {values : List Nat}

theorem exists_le_roundedMean (hne : values ≠ []) : ∃ v ∈ values, v ≤ roundedMean values := by
  by_contra! h
  have hsum : values.length * (roundedMean values + 1) ≤ values.sum := by
    simpa using List.card_nsmul_le_sum values _ fun v hv ↦ Nat.succ_le_of_lt (h v hv)
  have hle : roundedMean values + 1 ≤ (values.sum + values.length / 2) / values.length := by
    rw [Nat.le_div_iff_mul_le (List.length_pos_iff.2 hne), Nat.mul_comm]
    exact Nat.le_add_right_of_le hsum
  exact Nat.not_succ_le_self _ hle

theorem exists_roundedMean_le (hne : values ≠ []) : ∃ v ∈ values, roundedMean values ≤ v := by
  by_contra! h
  obtain ⟨v, hv⟩ := List.exists_mem_of_ne_nil values hne
  obtain ⟨n, hn⟩ := Nat.exists_eq_succ_of_ne_zero (Nat.ne_of_gt (Nat.zero_lt_of_lt (h v hv)))
  have hpos := List.length_pos_iff.2 hne
  have hsum := sum_le_of_lt fun v hv ↦ hn ▸ h v hv
  have hlt : (values.sum + values.length / 2) / values.length < n + 1 := by
    rw [Nat.div_lt_iff_lt_mul hpos, Nat.succ_mul, Nat.mul_comm]
    omega
  exact Nat.ne_of_lt hlt hn

theorem abs_roundedMean_sub_le (hne : values ≠ []) :
    |(roundedMean values : ℚ) - values.sum / values.length| ≤ 1 / 2 := by
  have hpos := List.length_pos_iff.2 hne
  have hmod := Nat.mod_lt (values.sum + values.length / 2) hpos
  have hdiv := Nat.div_add_mod (values.sum + values.length / 2) values.length
  rw [← roundedMean] at hdiv
  have hbelow : 2 * (values.length * roundedMean values) ≤ 2 * values.sum + values.length := by
    omega
  have habove : 2 * values.sum ≤ 2 * (values.length * roundedMean values) + values.length := by
    omega
  have hpos' : (0 : ℚ) < values.length := Nat.cast_pos.2 hpos
  have hbelow' : 2 * (values.length * (roundedMean values : ℚ))
      ≤ 2 * values.sum + values.length := mod_cast hbelow
  have habove' : 2 * (values.sum : ℚ)
      ≤ 2 * (values.length * roundedMean values) + values.length := mod_cast habove
  rw [abs_sub_le_iff]
  constructor
  · rw [sub_le_iff_le_add, ← sub_le_iff_le_add', le_div_iff₀ hpos']
    linarith
  · rw [sub_le_iff_le_add, div_le_iff₀ hpos']
    linarith

end LevelLayout

private theorem abs_expect_sub_le {α : Type} {s : Finset α} (hs : s.Nonempty) {f g : α → ℚ} {e : ℚ}
    (h : ∀ a ∈ s, |f a - g a| ≤ e) : |𝔼 a ∈ s, f a - 𝔼 a ∈ s, g a| ≤ e := by
  rw [← Finset.expect_sub_distrib]
  exact (Finset.abs_expect_le s _).trans (Finset.expect_le hs h)

theorem LevelLayout.expect_coveredTexels (parent : LevelLayout) (slices : Bool) (p : Axes Nat)
    (f : Axes Nat → Nat) :
    (((parent.coveredTexels slices p).map f).sum : ℚ)
        / ((parent.coveredTexels slices p).map f).length
      = 𝔼 dz ∈ Finset.range (if slices then 2 else 1), 𝔼 dy ∈ Finset.range 2,
          𝔼 dx ∈ Finset.range 2, (f (parent.coveredTexel slices p dx dy dz) : ℚ) := by
  have hcount : ((if slices then 8 else 4 : ℕ) : ℚ)
      = 2 * 2 * ((if slices then 2 else 1 : ℕ) : ℚ) := by
    cases slices
    · norm_num
    · norm_num
  simp only [sum_coveredTexels, List.length_map, length_coveredTexels, hcount,
    Finset.expect_eq_sum_div_card, Finset.card_range, ← Finset.sum_div, div_div, Nat.cast_sum,
    Nat.cast_ofNat]

/-! ## Shares of an axis -/

/-- The indices of the first level in the share of index `i` of a level, where the first level is
cut in as many equal stretches as there are indices. -/
def share (base length i : Nat) : Finset Nat :=
  Finset.Ico (i * (base / length)) ((i + 1) * (base / length))

private theorem share_self {base : Nat} (hpos : 0 < base) (i : Nat) : share base base i = {i} := by
  rw [share, Nat.div_self hpos, Nat.mul_one, Nat.mul_one]
  exact Nat.Ico_succ_singleton i

private theorem share_nonempty {base length : Nat} (hpos : 0 < base) (hdvd : length ∣ base)
    (i : Nat) :
    (share base length i).Nonempty := by
  have hquot := Nat.div_pos (Nat.le_of_dvd hpos hdvd) (Nat.pos_of_dvd_of_pos hdvd hpos)
  rw [share, Finset.nonempty_Ico, Nat.succ_mul]
  omega

private theorem expect_share_half {base half i : Nat} (hdvd : half + half ∣ base) (hpos : 0 < base)
    (f : Nat → ℚ) :
    𝔼 x ∈ share base half i, f x
      = 𝔼 d ∈ Finset.range 2, 𝔼 x ∈ share base (half + half) (2 * i + d), f x := by
  obtain ⟨r, rfl⟩ := hdvd
  have hhalf : 0 < half := by
    by_contra h
    obtain rfl : half = 0 := by omega
    simp at hpos
  have hr : 0 < r := Nat.pos_of_mul_pos_left hpos
  have hquot : (half + half) * r / half = 2 * r := by
    rw [← Nat.two_mul, Nat.mul_comm 2, Nat.mul_assoc, Nat.mul_div_cancel_left _ hhalf]
  have hquot' : (half + half) * r / (half + half) = r := Nat.mul_div_cancel_left _ (by omega)
  have hsplit : ∑ x ∈ Finset.Ico (i * (2 * r)) ((i + 1) * (2 * r)), f x
      = ∑ x ∈ Finset.Ico ((2 * i + 0) * r) ((2 * i + 0 + 1) * r), f x
        + ∑ x ∈ Finset.Ico ((2 * i + 1) * r) ((2 * i + 1 + 1) * r), f x := by
    rw [Nat.add_zero, Finset.sum_Ico_consecutive f (Nat.mul_le_mul_right r (by omega))
      (Nat.mul_le_mul_right r (by omega))]
    congr 2 <;> ring
  have hcard : ∀ j, ((j + 1) * r - j * r) = r := fun j ↦ by
    rw [Nat.succ_mul, Nat.add_sub_cancel_left]
  have hcard' : (i + 1) * (2 * r) - i * (2 * r) = 2 * r := by
    rw [Nat.succ_mul, Nat.add_sub_cancel_left]
  have hr' : (r : ℚ) ≠ 0 := Nat.cast_ne_zero.2 (Nat.ne_of_gt hr)
  simp only [share, hquot, hquot', Finset.expect_eq_sum_div_card, Finset.sum_range_succ,
    Finset.sum_range_zero, Nat.card_Ico, hcard, hcard', hsplit, Finset.card_range, Nat.cast_mul,
    Nat.cast_ofNat, zero_add]
  field_simp

private theorem levelExtent_dvd {base : Nat} (hpow : ∃ a, base = 2 ^ a) (k : Nat) :
    levelExtent base k ∣ base := by
  obtain ⟨a, rfl⟩ := hpow
  rw [levelExtent_two_pow]
  exact Nat.pow_dvd_pow 2 (Nat.sub_le a _)

private theorem mem_share_iff {base k i x : Nat} (hpow : ∃ a, base = 2 ^ a) (hk : k ≤ 31)
    (hi : i < levelExtent base k) :
    x ∈ share base (levelExtent base k) i ↔ x < base ∧ x >>> k = i := by
  obtain ⟨a, rfl⟩ := hpow
  rw [levelExtent_two_pow, Nat.min_eq_left hk] at hi ⊢
  rw [Nat.shiftRight_eq_div_pow, share, Finset.mem_Ico]
  rcases Nat.le_total k a with hle | hle
  · have hratio : 2 ^ a / 2 ^ (a - k) = 2 ^ k := by
      rw [Nat.pow_div (Nat.sub_le a k) Nat.two_pos, Nat.sub_sub_self hle]
    have hend : (i + 1) * 2 ^ k ≤ 2 ^ a := by
      rw [← Nat.sub_add_cancel hle, Nat.pow_add]
      exact Nat.mul_le_mul_right _ hi
    rw [hratio, Nat.div_eq_iff (Nat.two_pow_pos k)]
    have := Nat.two_pow_pos k
    rw [Nat.succ_mul] at hend ⊢
    omega
  · -- the axis has reached extent one, and its only index has all of the first level
    have hpow := Nat.pow_le_pow_right Nat.two_pos hle
    rw [Nat.sub_eq_zero_of_le hle, Nat.pow_zero] at hi ⊢
    obtain rfl : i = 0 := by omega
    rw [Nat.div_one, Nat.zero_mul, Nat.zero_add, Nat.one_mul, Nat.div_eq_zero_iff]
    omega

/-- The share of an index is made of the shares of the indices that it covers. -/
theorem expect_share_succ {base k i : Nat} (hpow : ∃ a, base = 2 ^ a) (hk : k < 31)
    (hi : i < levelExtent base (k + 1)) (f : Nat → ℚ) :
    𝔼 x ∈ share base (levelExtent base (k + 1)) i, f x
      = 𝔼 d ∈ Finset.range 2,
          𝔼 x ∈ share base (levelExtent base k) (min (2 * i + d) (levelExtent base k - 1)),
            f x := by
  have hdvd := levelExtent_dvd hpow k
  obtain ⟨a, rfl⟩ := hpow
  have htwo := levelExtent_two_pow a k
  rw [Source.levelExtent_succ hk] at hi ⊢
  generalize levelExtent (2 ^ a) k = length at hi hdvd htwo ⊢
  cases hexponent : a - min k 31 with
  | zero =>
    -- the axis has reached extent one
    rw [hexponent, Nat.pow_zero] at htwo
    subst htwo
    obtain rfl : i = 0 := by omega
    simp only [Nat.sub_self, Nat.min_zero]
    rw [Finset.expect_const (Finset.nonempty_range_iff.2 (by decide))]
    rfl
  | succ n =>
    have hhalf : length = 2 ^ n + 2 ^ n := by rw [htwo, hexponent, Nat.pow_succ, Nat.mul_two]
    have hpos := Nat.two_pow_pos n
    subst hhalf
    rw [show max ((2 ^ n + 2 ^ n) / 2) 1 = 2 ^ n by omega] at hi ⊢
    rw [expect_share_half hdvd (Nat.two_pow_pos a)]
    refine Finset.expect_congr rfl fun d hd ↦ ?_
    have hd := Finset.mem_range.1 hd
    rw [Nat.min_eq_left (by omega)]

/-! ## Footprints -/

namespace Texture

variable {texture : Texture} {source : Source} {k : Nat} {p : Axes Nat} {c : Nat}

/-- The texels of the first level that texel `p` of a level covers. -/
def footprint (texture : Texture) (k : Nat) (p : Axes Nat) : Finset (Axes Nat) :=
  let base := (texture.layout 0).extent
  let extent := (texture.layout k).extent
  (share base.r extent.r p.r ×ˢ share base.t extent.t p.t ×ˢ share base.s extent.s p.s).image
    fun q ↦ ⟨q.2.2, q.2.1, q.1⟩

/-- The exact mean of byte `c` over the footprint of texel `p`. -/
def exactMean (texture : Texture) (k : Nat) (p : Axes Nat) (c : Nat) : ℚ :=
  𝔼 q ∈ texture.footprint k p, (texture.texelByte 0 q c : ℚ)

private theorem mem_footprint {q : Axes Nat} :
    q ∈ texture.footprint k p ↔
      q.s ∈ share (texture.layout 0).extent.s (texture.layout k).extent.s p.s ∧
        q.t ∈ share (texture.layout 0).extent.t (texture.layout k).extent.t p.t ∧
          q.r ∈ share (texture.layout 0).extent.r (texture.layout k).extent.r p.r := by
  simp only [footprint, Finset.mem_image, Finset.mem_product, Prod.exists]
  constructor
  · rintro ⟨z, y, x, ⟨hz, hy, hx⟩, rfl⟩
    exact ⟨hx, hy, hz⟩
  · rintro ⟨hx, hy, hz⟩
    exact ⟨q.r, q.t, q.s, ⟨hz, hy, hx⟩, rfl⟩

theorem exactMean_eq (texture : Texture) (k : Nat) (p : Axes Nat) (c : Nat) :
    texture.exactMean k p c
      = 𝔼 z ∈ share (texture.layout 0).extent.r (texture.layout k).extent.r p.r,
          𝔼 y ∈ share (texture.layout 0).extent.t (texture.layout k).extent.t p.t,
            𝔼 x ∈ share (texture.layout 0).extent.s (texture.layout k).extent.s p.s,
              (texture.texelByte 0 ⟨x, y, z⟩ c : ℚ) := by
  rw [exactMean, footprint, Finset.expect_image, Finset.expect_product]
  · exact Finset.expect_congr rfl fun z _ ↦ Finset.expect_product _ _ _
  · rintro ⟨z, y, x⟩ - ⟨z', y', x'⟩ - heq
    obtain ⟨rfl, rfl, rfl⟩ := Axes.mk.inj heq
    rfl

theorem BuiltFrom.extent_eq (h : texture.BuiltFrom source) (hk : k < texture.levelCount) :
    (texture.layout k).extent = source.extentAt k := by
  rw [h.layout_eq k (h.levelCount_eq ▸ hk), Source.layoutAt_extent]

theorem BuiltFrom.extent_zero (h : texture.BuiltFrom source) :
    (texture.layout 0).extent = source.extent := by
  rw [h.extent_eq texture.levelCount_pos, Source.extentAt, levelExtent_zero h.pos_s,
    levelExtent_zero h.pos_t, levelExtent_zero h.pos_r, ite_self]

private theorem BuiltFrom.level_lt (h : texture.BuiltFrom source) (hk : k < texture.levelCount) :
    k < 31 := by
  have hcount := h.levelCount_eq ▸ h.levelCount_le
  have hmax : maxLevels = 16 := rfl
  omega

section Footprint

variable (h : texture.BuiltFrom source)
  (hpow : ∀ e ∈ source.reducedExtents source.extent, ∃ a, e = 2 ^ a)

include h hpow

theorem footprint_nonempty (hk : k < texture.levelCount) (p : Axes Nat) :
    (texture.footprint k p).Nonempty := by
  have hs : (source.extentAt k).s ∣ source.extent.s :=
    levelExtent_dvd (hpow _ source.s_mem_reducedExtents) k
  have ht : (source.extentAt k).t ∣ source.extent.t :=
    levelExtent_dvd (hpow _ source.t_mem_reducedExtents) k
  have hr : (source.extentAt k).r ∣ source.extent.r := by
    by_cases hvolume : source.target = .texture3D
    · simp only [Source.extentAt, if_pos hvolume]
      exact levelExtent_dvd (hpow _ (Source.r_mem_reducedExtents hvolume)) k
    · simp only [Source.extentAt, if_neg hvolume]
      exact Nat.dvd_refl _
  rw [← h.extent_eq hk, ← h.extent_zero] at hs ht hr
  obtain ⟨x, hx⟩ := share_nonempty (h.extent_zero ▸ h.pos_s) hs p.s
  obtain ⟨y, hy⟩ := share_nonempty (h.extent_zero ▸ h.pos_t) ht p.t
  obtain ⟨z, hz⟩ := share_nonempty (h.extent_zero ▸ h.pos_r) hr p.r
  exact ⟨⟨x, y, z⟩, mem_footprint.2 ⟨hx, hy, hz⟩⟩

/-- The exact mean over a footprint is the mean of the exact means that it is averaged from. -/
theorem exactMean_succ (hk : k + 1 < texture.levelCount) (hp : texture.HasByte (k + 1) p c) :
    texture.exactMean (k + 1) p c
      = 𝔼 dz ∈ Finset.range (if source.target = .texture3D then 2 else 1),
          𝔼 dy ∈ Finset.range 2, 𝔼 dx ∈ Finset.range 2, texture.exactMean k
            ((texture.layout k).coveredTexel (source.target = .texture3D) p dx dy dz) c := by
  have hk31 := h.level_lt (Nat.lt_of_succ_lt hk)
  obtain ⟨hps, hpt, hpr, -⟩ := hp
  rw [h.extent_eq hk] at hps hpt hpr
  simp only [exactMean_eq, h.extent_eq hk, h.extent_eq (Nat.lt_of_succ_lt hk), h.extent_zero,
    LevelLayout.coveredTexel, Source.extentAt_s, Source.extentAt_t]
  have hs := fun f ↦ expect_share_succ (hpow _ source.s_mem_reducedExtents) hk31 hps f
  have ht := fun f ↦ expect_share_succ (hpow _ source.t_mem_reducedExtents) hk31 hpt f
  have hr : ∀ f : Nat → ℚ, 𝔼 z ∈ share source.extent.r (source.extentAt (k + 1)).r p.r, f z
      = 𝔼 dz ∈ Finset.range (if source.target = .texture3D then 2 else 1),
          𝔼 z ∈ share source.extent.r (source.extentAt k).r
            (if source.target = .texture3D then min (2 * p.r + dz) ((source.extentAt k).r - 1)
              else p.r), f z := by
    intro f
    by_cases hvolume : source.target = .texture3D
    · simp only [Source.extentAt, if_pos hvolume] at hpr ⊢
      exact expect_share_succ (hpow _ (Source.r_mem_reducedExtents hvolume)) hk31 hpr f
    · simp only [Source.extentAt, if_neg hvolume, Finset.range_one, Finset.expect_singleton]
  simp only [hr, ht, hs, decide_eq_true_eq]
  -- the sums over covered texels go before the sums over shares
  refine Finset.expect_congr rfl fun dz _ ↦ ?_
  rw [Finset.expect_comm]
  refine Finset.expect_congr rfl fun dy _ ↦ ?_
  rw [Finset.expect_comm (Finset.range 2)]
  exact Finset.expect_congr rfl fun z _ ↦ Finset.expect_comm _ _ _

/-- The footprint of a texel has the texels whose indices are halved to its own. -/
theorem mem_footprint_iff (hk : k < texture.levelCount) (hp : texture.HasByte k p c)
    {q : Axes Nat} :
    q ∈ texture.footprint k p ↔ texture.HasByte 0 q c ∧ q.s >>> k = p.s ∧ q.t >>> k = p.t ∧
      (if source.target = .texture3D then q.r >>> k else q.r) = p.r := by
  have hk31 := Nat.le_of_lt (h.level_lt hk)
  obtain ⟨hps, hpt, hpr, hpc⟩ := hp
  rw [h.extent_eq hk] at hps hpt hpr
  have hs := mem_share_iff (x := q.s) (hpow _ source.s_mem_reducedExtents) hk31 hps
  have ht := mem_share_iff (x := q.t) (hpow _ source.t_mem_reducedExtents) hk31 hpt
  have hr : q.r ∈ share source.extent.r (source.extentAt k).r p.r ↔ q.r < source.extent.r ∧
      (if source.target = .texture3D then q.r >>> k else q.r) = p.r := by
    by_cases hvolume : source.target = .texture3D
    · simp only [Source.extentAt, if_pos hvolume] at hpr ⊢
      exact mem_share_iff (hpow _ (Source.r_mem_reducedExtents hvolume)) hk31 hpr
    · simp only [Source.extentAt, if_neg hvolume] at hpr ⊢
      rw [share_self h.pos_r, Finset.mem_singleton]
      exact ⟨fun hq ↦ ⟨hq ▸ hpr, hq⟩, And.right⟩
  have hbyte : texture.HasByte 0 q c ↔
      q.s < source.extent.s ∧ q.t < source.extent.t ∧ q.r < source.extent.r := by
    rw [← h.extent_zero]
    exact ⟨fun hq ↦ ⟨hq.lt_s, hq.lt_t, hq.lt_r⟩, fun hq ↦ ⟨hq.1, hq.2.1, hq.2.2, hpc⟩⟩
  rw [mem_footprint, h.extent_eq hk, h.extent_zero, hbyte, hr]
  constructor
  · rintro ⟨hqs, hqt, hqr, hpr⟩
    exact ⟨⟨(hs.1 hqs).1, (ht.1 hqt).1, hqr⟩, (hs.1 hqs).2, (ht.1 hqt).2, hpr⟩
  · rintro ⟨⟨hqs, hqt, hqr⟩, hps, hpt, hpr⟩
    exact ⟨hs.2 ⟨hqs, hps⟩, ht.2 ⟨hqt, hpt⟩, hqr, hpr⟩

end Footprint

theorem BuiltFrom.exactMean_zero (h : texture.BuiltFrom source) (p : Axes Nat) (c : Nat) :
    texture.exactMean 0 p c = texture.texelByte 0 p c := by
  rw [exactMean_eq, h.extent_zero, share_self h.pos_s, share_self h.pos_t, share_self h.pos_r,
    Finset.expect_singleton, Finset.expect_singleton, Finset.expect_singleton]

/-! ## Following the chain -/

section Chain

variable (hbuild : build source = .ok texture) (hgenerated : source.further = .generated)

include hbuild hgenerated

/-- What relates one of some numbers to their rounded mean relates a byte of the first level to each
byte of a level. -/
theorem exists_texelByte_zero {R : Nat → Nat → Prop} (hrefl : ∀ v, R v v)
    (htrans : ∀ {u v w}, R u v → R v w → R u w)
    (hmean : ∀ {values}, values ≠ [] → ∃ v ∈ values, R v (LevelLayout.roundedMean values))
    (hk : k < texture.levelCount) (hp : texture.HasByte k p c) :
    ∃ q, texture.HasByte 0 q c ∧ (source.target ≠ .texture3D → q.r = p.r) ∧
      R (texture.texelByte 0 q c) (texture.texelByte k p c) := by
  induction k generalizing p with
  | zero => exact ⟨p, hp, fun _ ↦ rfl, hrefl _⟩
  | succ k ih =>
    obtain ⟨hparent, -⟩ := reduce_of_build hbuild hgenerated hk
    obtain ⟨v, hv, hR⟩ := hmean ((texture.layout k).map_coveredTexels_ne_nil
      (texture.target = .texture3D) p fun q ↦ texture.texelByte k q c)
    obtain ⟨q, hq, rfl⟩ := List.mem_map.1 hv
    obtain ⟨q₀, hq₀, hslice, hR₀⟩ := ih (Nat.lt_of_succ_lt hk) (hparent.isByte_of_mem hp hq)
    rw [texelByte_succ hbuild hgenerated hk hp]
    refine ⟨q₀, hq₀, fun htarget ↦ ?_, htrans hR₀ hR⟩
    rw [(builtFrom_of_build hbuild).target_eq, decide_eq_false htarget] at hq
    rw [hslice htarget, LevelLayout.r_eq_of_mem_coveredTexels hq]

/-- Each level adds at most one half to the distance from the exact means. -/
theorem abs_texelByte_sub_exactMean_le
    (hpow : ∀ e ∈ source.reducedExtents source.extent, ∃ a, e = 2 ^ a)
    (hk : k < texture.levelCount) (hp : texture.HasByte k p c) :
    |(texture.texelByte k p c : ℚ) - texture.exactMean k p c| ≤ k / 2 := by
  have hbuilt := builtFrom_of_build hbuild
  induction k generalizing p with
  | zero =>
    rw [hbuilt.exactMean_zero, sub_self, abs_zero, Nat.cast_zero, zero_div]
  | succ k ih =>
    obtain ⟨hparent, -⟩ := reduce_of_build hbuild hgenerated hk
    have hround := LevelLayout.abs_roundedMean_sub_le ((texture.layout k).map_coveredTexels_ne_nil
      (texture.target = .texture3D) p fun q ↦ texture.texelByte k q c)
    rw [← texelByte_succ hbuild hgenerated hk hp, LevelLayout.expect_coveredTexels] at hround
    rw [hbuilt.target_eq] at hround hparent
    have hclose : |𝔼 dz ∈ Finset.range (if source.target = .texture3D then 2 else 1),
        𝔼 dy ∈ Finset.range 2, 𝔼 dx ∈ Finset.range 2, (texture.texelByte k
          ((texture.layout k).coveredTexel (source.target = .texture3D) p dx dy dz) c : ℚ)
        - texture.exactMean (k + 1) p c| ≤ k / 2 := by
      rw [exactMean_succ hbuilt hpow hk hp]
      refine abs_expect_sub_le ?_ fun dz hz ↦ abs_expect_sub_le ?_ fun dy hy ↦
        abs_expect_sub_le ?_ fun dx hx ↦ ?_
      · split <;> decide
      · decide
      · decide
      · have hz : dz < 2 := Nat.lt_of_lt_of_le (Finset.mem_range.1 hz) (by split <;> decide)
        have hmem := (texture.layout k).coveredTexel_mem (source.target = .texture3D) p
          (Finset.mem_range.1 hx) (Finset.mem_range.1 hy) hz
        exact ih (Nat.lt_of_succ_lt hk) (hparent.isByte_of_mem hp hmem)
    simp only [decide_eq_true_eq] at hround
    refine (abs_sub_le _ _ _).trans ((add_le_add hround hclose).trans (le_of_eq ?_))
    rw [Nat.cast_succ]
    ring

end Chain

end Texture

/-- **No drift.** A byte of an averaged level lies between two bytes of the first level, and unless
slices are averaged those lie in the same slice. Where all extents that shrink are powers of two, it
differs by at most `k / 2` from the exact mean over its footprint, the texels of the first level
whose indices are halved `k` times to its own. -/
theorem averaged_levels_do_not_drift {source : Source} {texture : Texture}
    (hgenerated : source.further = .generated) (hbuild : Texture.build source = .ok texture)
    {k : Nat} (hk : k < texture.levelCount) {p : Axes Nat} {c : Nat} (hp : texture.HasByte k p c) :
    (∃ q, texture.HasByte 0 q c ∧ (source.target ≠ .texture3D → q.r = p.r) ∧
      texture.texelByte 0 q c ≤ texture.texelByte k p c) ∧
    (∃ q, texture.HasByte 0 q c ∧ (source.target ≠ .texture3D → q.r = p.r) ∧
      texture.texelByte k p c ≤ texture.texelByte 0 q c) ∧
    ((∀ e ∈ source.reducedExtents source.extent, ∃ a, e = 2 ^ a) →
      |(texture.texelByte k p c : ℚ) - 𝔼 q ∈ texture.footprint k p, (texture.texelByte 0 q c : ℚ)|
          ≤ k / 2 ∧
        (texture.footprint k p).Nonempty ∧
        ∀ q, q ∈ texture.footprint k p ↔ texture.HasByte 0 q c ∧ q.s >>> k = p.s ∧
          q.t >>> k = p.t ∧ (if source.target = .texture3D then q.r >>> k else q.r) = p.r) := by
  have hbuilt := Texture.builtFrom_of_build hbuild
  refine ⟨?_, ?_, fun hpow ↦ ⟨?_, ?_, fun q ↦ ?_⟩⟩
  · exact Texture.exists_texelByte_zero (R := (· ≤ ·)) hbuild hgenerated Nat.le_refl Nat.le_trans
      LevelLayout.exists_le_roundedMean hk hp
  · exact Texture.exists_texelByte_zero (R := (· ≥ ·)) hbuild hgenerated Nat.le_refl
      (fun huv hvw ↦ Nat.le_trans hvw huv) LevelLayout.exists_roundedMean_le hk hp
  · exact Texture.abs_texelByte_sub_exactMean_le hbuild hgenerated hpow hk hp
  · exact Texture.footprint_nonempty hbuilt hpow hk p
  · exact Texture.mem_footprint_iff hbuilt hpow hk hp

/-- The last texel of the volume covers all of it. Its mean is half way between two bytes. -/
theorem averaged_levels_do_not_drift_volume :
    (∃ q, Texture.volume.HasByte 0 q 0 ∧ Texture.volume.texelByte 0 q 0 ≤ 128) ∧
      |(128 : ℚ) - 𝔼 q ∈ Texture.volume.footprint 2 ⟨0, 0, 0⟩, (Texture.volume.texelByte 0 q 0 : ℚ)|
        ≤ 1 ∧
      ⟨3, 1, 1⟩ ∈ Texture.volume.footprint 2 ⟨0, 0, 0⟩ := by
  obtain ⟨⟨q, hq, -, hle⟩, -, hpow⟩ := averaged_levels_do_not_drift rfl build_volume
    (show 2 < _ by decide) (p := ⟨0, 0, 0⟩) (c := 0) ⟨by decide, by decide, by decide, by decide⟩
  have hextents : Source.volume.reducedExtents Source.volume.extent = [4, 2, 2] := rfl
  obtain ⟨hdrift, -, hmem⟩ := hpow (by
    simp only [hextents, List.forall_mem_cons, List.not_mem_nil, false_implies, implies_true,
      and_true]
    exact ⟨⟨2, rfl⟩, ⟨1, rfl⟩, ⟨1, rfl⟩⟩)
  have hbyte : Texture.volume.texelByte 2 ⟨0, 0, 0⟩ 0 = 128 := rfl
  rw [hbyte] at hle hdrift
  refine ⟨⟨q, hq, hle⟩, hdrift.trans (by norm_num), (hmem _).2 ?_⟩
  exact ⟨⟨by decide, by decide, by decide, by decide⟩, rfl, rfl, rfl⟩

example : Texture.volume.exactMean 2 ⟨0, 0, 0⟩ 0 = 255 / 2 := by decide +kernel

end QuadSampler
