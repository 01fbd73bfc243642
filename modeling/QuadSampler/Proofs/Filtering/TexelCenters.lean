import QuadSampler.Proofs.Filtering.NearestPaths
import QuadSampler.Proofs.LevelView.SourceTexels

/-!
# Texels come back from their centres

A texel sampled at its centre is that texel: whatever the format, and in whichever path, a nearest
filter that clamps to the edge gives the colour that the bytes of the source decode to.

The one thing in the way is rounding. The centre `i + 1/2` is exact, but as a fraction of a length
it is rounded, and the product with the length is rounded again. The quotient is off by at most one
part in `2 ^ 24` (`Single.place_error`), so times the length it still lies between `i` and
`i + 3/4`; both are representable, so rounding cannot take the product past them
(`Single.exists_isAt_center_div_mul`). Its floor is `i`, and from there on the two paths meet at the
fetch of one texel, as they do for all nearest filters.
-/

namespace QuadSampler

/-! ## Centres on an axis -/

namespace Single

/-- The middle of a texel, counted in texels. -/
def center (i : Nat) : Single := ofNat i + half

private theorem isAt_center {i : Nat} (hi : i < 2 ^ 20) :
    (center i).IsAt ((2 * i + 1) * 2 ^ 148) := by
  have hrep : Representable ((2 * i + 1) * 2 ^ 148 : Int).natAbs := by
    have h := representable_half_grid (n := 2 * i + 1) (by omega)
    exact_mod_cast h
  have hsum : (i : Int) * gridPerOne + 2 ^ 148 = (2 * i + 1) * 2 ^ 148 := by
    rw [gridPerOne_eq]
    push_cast
    ring
  have hposition := (isAt_ofNat (n := i) (by omega)).position_add isAt_half
  rw [hsum, place_one hrep] at hposition
  exact isAt_of_position hposition hrep.1

/-- The centre of a texel as a fraction of a length is at most one part in `2 ^ 24` off. -/
theorem exists_isAt_center_div {i n : Nat} (hi : i < n) (hn : n ≤ 2 ^ 20) :
    ∃ q : Int, (center i / ofNat n).IsAt q ∧
      2 ^ 24 * (q * n) ≤ (2 ^ 24 + 1) * ((2 * i + 1) * 2 ^ 148) ∧
        (2 ^ 24 - 1) * ((2 * i + 1) * 2 ^ 148) ≤ 2 ^ 24 * (q * n) := by
  have hgrid := natCast_gridPerOne_pos
  have hpos : 0 < n * gridPerOne := Nat.mul_pos (by omega) gridPerOne_pos
  obtain ⟨middle, hmiddle⟩ : ∃ middle : Nat, middle = (2 * i + 1) * 2 ^ 148 := ⟨_, rfl⟩
  have hinside : middle ≤ n * gridPerOne := by
    rw [hmiddle, gridPerOne_eq, ← Nat.mul_assoc]
    exact Nat.mul_le_mul_right _ (by omega)
  have hlarge : 2 ^ 23 * (n * gridPerOne) ≤ middle * gridPerOne := by
    rw [← Nat.mul_assoc]
    refine Nat.mul_le_mul_right gridPerOne ?_
    calc 2 ^ 23 * n ≤ 2 ^ 23 * 2 ^ 20 := Nat.mul_le_mul_left _ hn
      _ ≤ 1 * 2 ^ 148 := by decide
      _ ≤ (2 * i + 1) * 2 ^ 148 := Nat.mul_le_mul_right _ (by omega)
      _ = middle := hmiddle.symm
  have hexact : ((2 * i + 1) * 2 ^ 148 : Int) = middle := by
    rw [hmiddle]
    push_cast
    rfl
  have hcenter : (center i).IsAt (middle : Int) := hexact ▸ isAt_center (by omega)
  have hlength : (ofNat n).IsAt ((n * gridPerOne : Nat) : Int) := by
    rw [Int.natCast_mul]
    exact isAt_ofNat (by omega)
  have hposition := hcenter.position_div hlength hpos
  rw [← Int.natCast_mul] at hposition
  -- a fraction is at most one, and so is its rounding
  obtain ⟨hq0, hq1⟩ : 0 ≤ place (middle * gridPerOne : Nat) (n * gridPerOne) ∧
      place (middle * gridPerOne : Nat) (n * gridPerOne) ≤ gridPerOne := by
    refine place_mem hpos (representable_grid (n := 0) (by decide)) ?_ ?_ ?_
    · rw [Int.natAbs_natCast, ← Nat.one_mul gridPerOne]
      exact representable_grid (by decide)
    · rw [Int.zero_mul]
      exact Int.natCast_nonneg _
    · rw [← Int.natCast_mul, Nat.mul_comm gridPerOne]
      exact_mod_cast Nat.mul_le_mul_right gridPerOne hinside
  have hlt : gridPerOne < overflow := by decide
  obtain ⟨hle, hge⟩ := place_error hpos hlarge (by omega)
  generalize place (middle * gridPerOne : Nat) (n * gridPerOne) = q at *
  rw [hexact]
  push_cast at hle hge
  refine ⟨q, isAt_of_position hposition (by omega), ?_, ?_⟩
  · refine Int.le_of_mul_le_mul_right (a := gridPerOne) ?_ hgrid
    linarith
  · refine Int.le_of_mul_le_mul_right (a := gridPerOne) ?_ hgrid
    linarith

private theorem quarters : (gridPerOne : Int) = 4 * 2 ^ 147 ∧ (2 : Int) ^ 148 = 2 * 2 ^ 147 := by
  rw [gridPerOne_eq]
  norm_num

theorem exists_isAt_center_div_mul {i n : Nat} (hi : i < n) (hn : n ≤ 2 ^ 20)
    {extent : Single} (hextent : extent.IsAt (n * gridPerOne)) :
    ∃ z, (center i / ofNat n * extent).IsAt z ∧ i * gridPerOne ≤ z ∧ z ≤ (4 * i + 3) * 2 ^ 147 := by
  obtain ⟨q, hq, hle, hge⟩ := exists_isAt_center_div hi hn
  have hlo : Representable ((i : Int) * gridPerOne).natAbs := by
    rw [← Int.natCast_mul, Int.natAbs_natCast]
    exact representable_grid (by omega)
  have hhi : Representable ((4 * i + 3) * 2 ^ 147 : Int).natAbs := by
    have h := representable_mul_pow (m := 4 * i + 3) (e := 147) (by omega) (by decide)
    exact_mod_cast h
  -- between the two bounds, both in quarters of a texel, there is room for the error
  obtain ⟨hlow, hhigh⟩ : i * gridPerOne ≤ q * n ∧ q * n ≤ (4 * i + 3) * 2 ^ 147 := by
    have hquarter : (0 : Int) < 2 ^ 147 := by positivity
    have hsmall : (i : Int) * 2 ^ 147 ≤ 2 ^ 20 * 2 ^ 147 :=
      Int.mul_le_mul_of_nonneg_right (by omega) hquarter.le
    rw [quarters.2] at hle hge
    rw [quarters.1]
    generalize (2 : Int) ^ 147 = quarter at *
    constructor <;> linarith
  have hposition := hq.position_mul hextent
  rw [← Int.mul_assoc] at hposition
  obtain ⟨hlow, hhigh⟩ := place_mem gridPerOne_pos hlo hhi
    (Int.mul_le_mul_of_nonneg_right hlow natCast_gridPerOne_pos.le)
    (Int.mul_le_mul_of_nonneg_right hhigh natCast_gridPerOne_pos.le)
  refine ⟨_, isAt_of_position hposition ?_, hlow, hhigh⟩
  have hend := hhi.1
  have hnonneg : 0 ≤ (i : Int) * gridPerOne :=
    Int.mul_nonneg (Int.natCast_nonneg i) natCast_gridPerOne_pos.le
  omega

private theorem IsAt.floorInt32_eq_ofNat {x : Single} {z : Int} {i : Nat} (h : x.IsAt z)
    (hi : i < 2 ^ 31) (hlow : i * gridPerOne ≤ z) (hhigh : z < (i + 1) * gridPerOne) :
    x.floorInt32 = Int32.ofNat i := by
  have hfloor : z / gridPerOne = i := by
    have hle := Int.le_ediv_of_mul_le natCast_gridPerOne_pos hlow
    have hlt := Int.ediv_lt_of_lt_mul natCast_gridPerOne_pos hhigh
    omega
  rw [h.floorInt32, hfloor, ← Int32.toInt_inj, toInt_saturate, Int32.toInt_ofNat_of_lt hi]
  omega

private theorem IsAt.isSmall {x : Single} {z : Int} (h : x.IsAt z)
    (hz : z.natAbs < 2 ^ 23 * gridPerOne) : x.IsSmall := by
  obtain ⟨s, m, hm, rfl, rfl⟩ := h
  rw [natAbs_signed] at hz
  have hplace : (finite s m hm).abs.position = some m := rfl
  refine .inr ((lt_iff_of_position hplace (isAt_ofNat (n := 2 ^ 23) (by decide)).position).2 ?_)
  exact_mod_cast hz

end Single

/-- The coordinate of the centre of a texel on an axis of the given length. -/
def texelCenter (normalized : Bool) (length i : Nat) : Single :=
  if normalized then Single.center i / Single.ofNat length else Single.center i

section Axis

variable {axis : WrapAxis} {length i : Nat} (hlength : axis.length = Int32.ofNat length)
  (hi : i < length) (hle : length ≤ 2 ^ 20)
include hlength hi hle

theorem WrapAxis.exists_isAt_toTexels_center :
    ∃ z, (axis.toTexels (texelCenter axis.normalized length i)).IsAt z ∧
      i * Single.gridPerOne ≤ z ∧ z ≤ (4 * i + 3) * 2 ^ 147 := by
  rw [toTexels, texelCenter]
  cases axis.normalized with
  | true =>
    rw [if_pos rfl, if_pos rfl]
    exact Single.exists_isAt_center_div_mul hi hle (isAt_extent hlength (by omega))
  | false =>
    have hquarter : (0 : Int) < 2 ^ 147 := by positivity
    rw [if_neg Bool.false_ne_true, if_neg Bool.false_ne_true]
    refine ⟨_, Single.isAt_center (by omega), ?_, ?_⟩
    · rw [Single.quarters.1, Single.quarters.2]
      generalize (2 : Int) ^ 147 = quarter at *
      linarith
    · rw [Single.quarters.2]
      generalize (2 : Int) ^ 147 = quarter at *
      linarith

private theorem WrapAxis.isSmall_toTexels_center :
    (axis.toTexels (texelCenter axis.normalized length i)).IsSmall := by
  obtain ⟨z, hz, hlow, hhigh⟩ := exists_isAt_toTexels_center hlength hi hle
  refine hz.isSmall ?_
  have hnonneg : 0 ≤ (i : Int) * Single.gridPerOne :=
    Int.mul_nonneg (Int.natCast_nonneg i) Single.natCast_gridPerOne_pos.le
  have hbound : (4 * i + 3) * 2 ^ 147 < 2 ^ 23 * Single.gridPerOne := by
    calc (4 * i + 3) * 2 ^ 147 ≤ 2 ^ 22 * 2 ^ 147 := Nat.mul_le_mul_right _ (by omega)
      _ < 2 ^ 23 * Single.gridPerOne := by decide
  zify at hbound ⊢
  rw [abs_of_nonneg (hnonneg.trans hlow)]
  exact lt_of_le_of_lt hhigh hbound

/-- The nearest texel to the centre of a texel is the texel. -/
theorem WrapMode.nearest_center :
    WrapMode.clampToEdge.nearest axis (texelCenter axis.normalized length i)
      = .ok (Int32.ofNat i) := by
  obtain ⟨z, hz, hlow, hhigh⟩ := WrapAxis.exists_isAt_toTexels_center hlength hi hle
  have hnext : z < (i + 1) * Single.gridPerOne := by
    have hquarter : (0 : Int) < 2 ^ 147 := by positivity
    refine lt_of_le_of_lt hhigh ?_
    rw [Single.quarters.1]
    generalize (2 : Int) ^ 147 = quarter at *
    linarith
  have hfloor := hz.floorInt32_eq_ofNat (by omega) hlow hnext
  have hclamp : axis.clampInside (Int32.ofNat i) = Int32.ofNat i := by
    have hlast := toInt_sub_one (a := Int32.ofNat length)
      (by rw [Int32.toInt_ofNat_of_lt (by omega)]; omega)
    rw [WrapAxis.clampInside, WrapAxis.last, hlength, ← Int32.toInt_inj, toInt_clampIndex_zero,
      hlast, Int32.toInt_ofNat_of_lt (by omega), Int32.toInt_ofNat_of_lt (by omega)]
    omega
  rw [nearest, hfloor, hclamp]

end Axis

/-! ## Centres on a level -/

/-- Whether coordinates are those of the centre of a texel along the addressed axes. -/
structure StaticState.IsCenter (state : StaticState) (extent texel : Axes Nat)
    (coords : Axes Single) : Prop where
  s : coords.s = texelCenter state.normalized extent.s texel.s
  t : 2 ≤ state.dims → coords.t = texelCenter state.normalized extent.t texel.t
  r : 3 ≤ state.dims → coords.r = texelCenter state.normalized extent.r texel.r

/-- Whether coordinates are clamped to the edge along all addressed axes. -/
structure StaticState.ClampsToEdge (state : StaticState) : Prop where
  s : state.wrap.s = .clampToEdge
  t : 2 ≤ state.dims → state.wrap.t = .clampToEdge
  r : 3 ≤ state.dims → state.wrap.r = .clampToEdge

private theorem StaticState.clampsToEdge_of_activeWraps {state : StaticState}
    (h : ∀ mode ∈ state.activeWraps, mode = .clampToEdge) : state.ClampsToEdge := by
  rw [activeWraps, Axes.active, Axes.toList] at h
  refine ⟨h _ ?_, fun hdims ↦ h _ ?_, fun hdims ↦ h _ ?_⟩
  · obtain ⟨k, hk⟩ := Nat.exists_eq_add_of_le' (show 1 ≤ state.dims from state.target.dims_pos)
    rw [hk]
    exact List.mem_cons_self
  · obtain ⟨k, hk⟩ := Nat.exists_eq_add_of_le' hdims
    rw [hk]
    exact List.mem_cons_of_mem _ List.mem_cons_self
  · obtain ⟨k, hk⟩ := Nat.exists_eq_add_of_le' hdims
    rw [hk]
    exact List.mem_cons_of_mem _ (List.mem_cons_of_mem _ List.mem_cons_self)

theorem StaticState.ClampsToEdge.not_beside {state : StaticState} (h : state.ClampsToEdge)
    (extent : Axes Int) (p : Axes Int32) : ¬ state.Beside extent p := by
  rintro (⟨hborder, -⟩ | ⟨hdims, hborder, -⟩ | ⟨hdims, hborder, -⟩)
  · exact absurd hborder (by rw [h.s]; decide)
  · exact absurd hborder (by rw [h.t hdims]; decide)
  · exact absurd hborder (by rw [h.r hdims]; decide)

private theorem Source.extent_eq_one {source : Source} (h : source.hasValidExtent = true)
    (hflat : source.target ≠ .cube) :
    (¬ 2 ≤ source.target.dims → source.extent.t = 1) ∧
      (¬ 3 ≤ source.target.dims → source.extent.r = 1) := by
  rw [hasValidExtent] at h
  cases htarget : source.target with
  | texture1D =>
    simp only [htarget, Bool.and_eq_true, beq_iff_eq] at h
    exact ⟨fun _ ↦ h.1, fun _ ↦ h.2⟩
  | texture2D | rect =>
    simp only [htarget, beq_iff_eq] at h
    exact ⟨fun hdims ↦ absurd (le_refl 2) hdims, fun _ ↦ h⟩
  | texture3D =>
    exact ⟨fun hdims ↦ absurd (show 2 ≤ 3 by decide) hdims, fun hdims ↦ absurd (le_refl 3) hdims⟩
  | cube => exact absurd htarget hflat

namespace LevelView

variable {binding : Binding} {source : Source} {settings : Settings} {texel : Axes Nat}
  {place : Place}

private theorem extent_first (h : binding.texture.BuiltFrom source) (settings : Settings) :
    (ofSurface (binding.staticState settings) binding.surface 0).extent
      = source.extent.map Int32.ofNat := by
  have hextent := extent_ofSurface h (show (binding.staticState settings).target = source.target
    from h.target_eq) source.levelCount_pos
  rwa [Source.extentAt_zero h.pos_s h.pos_t h.pos_r] at hextent

section Center

variable (h : binding.texture.BuiltFrom source) (hflat : source.target ≠ .cube)
  (hle : source.extent.s ≤ 2 ^ 20 ∧ source.extent.t ≤ 2 ^ 20 ∧ source.extent.r ≤ 2 ^ 20)
  (htexel : texel.s < source.extent.s ∧ texel.t < source.extent.t ∧ texel.r < source.extent.r)
  (hcenter : (binding.staticState settings).IsCenter source.extent texel place.coords)
include h hflat hle htexel hcenter

private theorem nearestNumbers_center (hclamp : (binding.staticState settings).ClampsToEdge)
    (border : Color Single) :
    let state := binding.staticState settings
    let view := ofSurface state binding.surface 0
    view.nearestNumbers state border place
      = view.fetchNumbers state border (texel.map Int32.ofNat) := by
  intro state view
  obtain ⟨hle_s, hle_t, hle_r⟩ := hle
  obtain ⟨hs, ht, hr⟩ := htexel
  have htarget : state.target = source.target := h.target_eq
  have hextent : view.extent = source.extent.map Int32.ofNat := extent_first h settings
  obtain ⟨hone_t, hone_r⟩ := Source.extent_eq_one h.hasValidExtent hflat
  have hx : state.wrap.s.nearest (view.wrapAxes state).s place.coords.s
      = .ok (Int32.ofNat texel.s) := by
    rw [hclamp.s, hcenter.s]
    exact WrapMode.nearest_center (congrArg Axes.s hextent) hs hle_s
  -- an axis without a coordinate has one texel, which has the index zero
  have hy : (if 2 ≤ state.dims then state.wrap.t.nearest (view.wrapAxes state).t place.coords.t
      else .ok 0) = .ok (Int32.ofNat texel.t) := by
    by_cases hdims : 2 ≤ state.dims
    · rw [if_pos hdims, hclamp.t hdims, hcenter.t hdims]
      exact WrapMode.nearest_center (congrArg Axes.t hextent) ht hle_t
    · rw [hone_t (by rwa [← htarget]), Nat.lt_one_iff] at ht
      rw [if_neg hdims, ht]
      rfl
  have hz : (if 3 ≤ state.dims then state.wrap.r.nearest (view.wrapAxes state).r place.coords.r
      else .ok (sliceOf state place)) = .ok (Int32.ofNat texel.r) := by
    by_cases hdims : 3 ≤ state.dims
    · rw [if_pos hdims, hclamp.r hdims, hcenter.r hdims]
      exact WrapMode.nearest_center (congrArg Axes.r hextent) hr hle_r
    · rw [hone_r (by rwa [← htarget]), Nat.lt_one_iff] at hr
      rw [if_neg hdims, hr, sliceOf, if_neg (by rwa [htarget])]
      rfl
  rw [nearestNumbers_eq, hx, hy, hz]
  rfl

omit hflat in
private theorem isSmallAt_center :
    let state := binding.staticState settings
    IsSmallAt state (ofSurface state binding.surface 0) place := by
  intro state
  obtain ⟨hle_s, hle_t, hle_r⟩ := hle
  obtain ⟨hs, ht, hr⟩ := htexel
  have hextent := extent_first h settings
  refine ⟨?_, fun hdims ↦ ?_, fun hdims ↦ ?_⟩
  · rw [hcenter.s]
    exact WrapAxis.isSmall_toTexels_center (congrArg Axes.s hextent) hs hle_s
  · rw [hcenter.t hdims]
    exact WrapAxis.isSmall_toTexels_center (congrArg Axes.t hextent) ht hle_t
  · rw [hcenter.r hdims]
    exact WrapAxis.isSmall_toTexels_center (congrArg Axes.r hextent) hr hle_r

/-- At the centre of a texel of the first level the filter in numbers gives what the bytes of the
source decode to. -/
private theorem exists_imageNumbers_center (hclamp : (binding.staticState settings).ClampsToEdge) :
    let state := binding.staticState settings
    ∃ color, source.decodeTexel FormatInfo.decodeNumbers 0 texel.s texel.t texel.r = .ok color ∧
      ∀ border, (ofSurface state binding.surface 0).imageNumbers state border .nearest place
        = .ok color := by
  intro state
  have hzero : source.extentAt 0 = source.extent := Source.extentAt_zero h.pos_s h.pos_t h.pos_r
  have hat : source.IsTexelAt 0 (texel.map Int32.ofNat) texel.s texel.t texel.r := by
    obtain ⟨hs, ht, hr⟩ := htexel
    refine ⟨by rwa [hzero], by rwa [hzero], by rwa [hzero], ?_, ?_, ?_⟩ <;>
      exact Int32.toInt_ofNat_of_lt (by omega)
  obtain ⟨color, hcolor, hfetch⟩ := exists_decodeTexel_eq_fetchNumbers h settings (by omega)
    source.levelCount_pos rfl (hclamp.not_beside _ _) hat
  refine ⟨color, hcolor, fun border ↦ ?_⟩
  rw [imageNumbers, nearestNumbers_center h hflat hle htexel hcenter hclamp border]
  exact hfetch border

private theorem exists_imageBytes_center (hclamp : (binding.staticState settings).ClampsToEdge)
    {wraps : Axes SimpleWrap}
    (hwraps : SimpleWrap.ofState? (binding.staticState settings) = some wraps)
    (hsize : (binding.texture.levelBytes 0).size < 2 ^ 31)
    (hplace : place.IsOnFace (binding.staticState settings)) :
    let state := binding.staticState settings
    ∃ color, FixedPoint.imageBytes wraps state .nearest (ofSurface state binding.surface 0) place
        = .ok color ∧
      source.decodeTexel FormatInfo.decodeNumbers 0 texel.s texel.t texel.r
        = .ok color.toUnit := by
  intro state
  have hlt := h.extent_lt hsize
  have hformat : state.format = source.format := h.format_eq
  have haddressed : (ofSurface state binding.surface 0).ByteAddressed state.format
      (source.extentAt 0) := by
    rw [hformat]
    refine byteAddressed_ofSurface h state h.target_eq hlt ?_ source.levelCount_pos hsize
    rw [← hformat]
    exact SimpleWrap.fitsBytes_of_ofState? hwraps
  obtain ⟨color, hbytes, hnumbers⟩ := exists_nearest_eq_ok hwraps haddressed
    (readable_ofSurface h settings hlt source.levelCount_pos) hplace
    (isSmallAt_center h hle htexel hcenter)
  obtain ⟨color', hdecode, hcolor'⟩ :=
    exists_imageNumbers_center h hflat hle htexel hcenter hclamp
  -- both paths read one texel, and the one in numbers is known
  have heq := (hcolor' (.splat 0)).symm.trans (hnumbers (.splat 0))
  exact ⟨color, hbytes, hdecode.trans heq⟩

end Center

end LevelView

/-! ## Sampling -/

theorem Sampler.finish_of_identity {state : StaticState} (hswizzle : state.swizzle = .identity)
    (hcompare : state.compareMode = .off) (reference : Single) (color : Color Single) :
    finish state reference color = color := by
  rw [finish, hswizzle, Swizzle.apply_identity, StaticState.compare, hcompare]

/-- **Texels come back from their centres.** On a unit with a texture, cubes apart, whose extents
are at most `2 ^ 20` and whose levels have fewer than `2 ^ 31` bytes, under nearest filters of the
first level that clamp to the edge and do not compare, each lane asks for a texel of its own by the
coordinates of its centre. Every path that serves the state answers, and each lane gets the colour
that the bytes of the source decode to. -/
theorem sample_texel_centers {source : Source} {binding : Binding} {settings : Settings}
    {units : TextureUnits} {request : Request}
    (hbuild : Texture.build source = .ok binding.texture) (hflat : source.target ≠ .cube)
    (hle : source.extent.s ≤ 2 ^ 20 ∧ source.extent.t ≤ 2 ^ 20 ∧ source.extent.r ≤ 2 ^ 20)
    (hsize : ∀ k < binding.texture.levelCount, (binding.texture.levelBytes k).size < 2 ^ 31)
    (hunit : units.get? request.unit = some binding)
    (hmin : settings.minFilter = .nearest) (hmag : settings.magFilter = .nearest)
    (hmip : settings.mipFilter = .base) (hcompare : settings.compareMode = .off)
    (hclamp : ∀ mode ∈ (binding.staticState settings).activeWraps, mode = .clampToEdge)
    {texels : Quad (Axes Nat)}
    (htexels : ∀ lane, (texels.get lane).s < source.extent.s ∧
      (texels.get lane).t < source.extent.t ∧ (texels.get lane).r < source.extent.r)
    (hcenters : ∀ lane, (binding.staticState settings).IsCenter source.extent (texels.get lane)
      (request.direction lane))
    {path : Path} (hpath : path.Serves (binding.staticState settings)) :
    ∃ colors, Sampler.sample ⟨binding.staticState settings, path⟩ (units.surface request.unit)
        request = .ok colors ∧
      ∀ lane, source.decodeTexel FormatInfo.decodeNumbers 0 (texels.get lane).s
        (texels.get lane).t (texels.get lane).r = .ok (colors.get lane) := by
  rw [TextureUnits.surface_of_get?_eq_some hunit]
  have h := Texture.builtFrom_of_build hbuild
  let state := binding.staticState settings
  let places := request.places state
  let levels := Levels.ofLods state binding.surface (request.lods state binding.surface places)
  have hclamp := StaticState.clampsToEdge_of_activeWraps hclamp
  have htarget : state.target ≠ .cube := by rwa [show state.target = _ from h.target_eq]
  have hsame : state.minFilter = state.magFilter := hmin.trans hmag.symm
  have hbase : ∀ lane, levels.base.get lane = .ofSurface state binding.surface 0 :=
    fun lane ↦ Levels.base_ofLods hmip _ _ lane
  have hcenter : ∀ lane,
      state.IsCenter source.extent (texels.get lane) (places.get lane).coords := by
    intro lane
    rw [request.coords_places htarget lane]
    exact hcenters lane
  have hfinish : ∀ lane color,
      Sampler.finish state ((request.coord 2).get lane) color = color :=
    fun lane color ↦ Sampler.finish_of_identity rfl hcompare _ color
  cases path with
  | white => exact hpath.elim
  | numbers =>
    refine exists_sample_numbers_of_lanes hsame (.inl hmip) (P := fun lane color ↦
      source.decodeTexel FormatInfo.decodeNumbers 0 (texels.get lane).s (texels.get lane).t
        (texels.get lane).r = .ok color) fun lane ↦ ?_
    obtain ⟨color, hdecode, hcolor⟩ :=
      LevelView.exists_imageNumbers_center h hflat hle (htexels lane) (hcenter lane) hclamp
    refine ⟨color, ?_, ?_⟩
    · rw [show levels.base.get lane = _ from hbase lane, show state.minFilter = _ from hmin]
      exact hcolor binding.surface.border
    · rw [hfinish lane]
      exact hdecode
  | fixedPoint wraps =>
    have hlane : ∀ lane, ∃ color,
        FixedPoint.imageBytes wraps state .nearest (levels.base.get lane) (places.get lane)
          = .ok color ∧
        source.decodeTexel FormatInfo.decodeNumbers 0 (texels.get lane).s (texels.get lane).t
          (texels.get lane).r = .ok color.toUnit := by
      intro lane
      rw [hbase lane]
      exact LevelView.exists_imageBytes_center h hflat hle (htexels lane) (hcenter lane) hclamp
        hpath (hsize 0 binding.texture.levelCount_pos) (request.isOnFace_places state lane)
    obtain ⟨colors, hcolors, hdecode⟩ := Quad.exists_ofFnM_eq_ok_and hlane
    rw [Sampler.sample]
    refine exists_bind_eq_ok_and (a := colors) ?_ ⟨_, rfl, fun lane ↦ ?_⟩
    · rw [Levels.filterBytes, filterByLod_of_eq hsame, show state.minFilter = _ from hmin,
        Levels.filter_of_next_eq_none (Levels.next_ofLods (.inl hmip) _ _)]
      exact hcolors
    · rw [Quad.get_zipWith, hfinish lane, Quad.get_map]
      exact hdecode lane

/-- Each lane at one of the four texels of the checkered texture, by fractions of it. -/
theorem sample_texel_centers_checker :
    let settings := { Settings.plain with wrap := .splat .clampToEdge }
    let state := Binding.checker.staticState settings
    let texels : Quad (Axes Nat) := ⟨⟨0, 0, 0⟩, ⟨1, 0, 0⟩, ⟨0, 1, 0⟩, ⟨1, 1, 0⟩⟩
    let along (index : Axes Nat → Nat) : Quad Single :=
      texels.map fun texel ↦ texelCenter true 2 (index texel)
    let request := Request.ofCoords 0 [along Axes.s, along Axes.t]
    ∃ colors, (Sampler.specialize state .normal).sample (TextureUnits.checker.surface 0) request
        = .ok colors ∧
      ∀ lane, Source.checker.decodeTexel FormatInfo.decodeNumbers 0 (texels.get lane).s
        (texels.get lane).t (texels.get lane).r = .ok (colors.get lane) := by
  intro settings state texels along request
  have hunit : TextureUnits.checker.get? request.unit = some .checker := rfl
  have hs : ∀ lane, (request.direction lane).s = texelCenter true 2 (texels.get lane).s := by
    decide +kernel
  have ht : ∀ lane, (request.direction lane).t = texelCenter true 2 (texels.get lane).t := by
    decide +kernel
  have hcenters : ∀ lane, state.IsCenter Source.checker.extent (texels.get lane)
      (request.direction lane) :=
    fun lane ↦ ⟨hs lane, fun _ ↦ ht lane, fun hdims ↦ absurd hdims (by decide)⟩
  exact sample_texel_centers build_checker (by decide) (by decide) (by decide) hunit rfl rfl rfl rfl
    (by decide) (by decide) hcenters (Sampler.serves_specialize state)

end QuadSampler
