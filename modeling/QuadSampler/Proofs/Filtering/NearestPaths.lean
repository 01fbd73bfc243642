import QuadSampler.Proofs.Filtering.NumbersTotal
import QuadSampler.Proofs.Filtering.Offsets

/-!
# The two paths agree on nearest texels

A state that is served in fixed point could be served in numbers as well. Under nearest filters, and
with no blend of levels, the answers are the same bit for bit, as long as coordinates counted in
texels are not too far out (`Single.IsSmall`).

The two paths have little in common, so the proof follows them in three steps.

* *Indices.* One path takes the floor of a coordinate, the other the floor of 256 times the
  coordinate and then a floor quotient. A factor that is a power of two is exact, so both get the
  same index (`FixedPoint.whole_ofCoord`), and wrap it alike.
* *Addresses.* Simple wraps never leave the level, so neither path sees a border, and the byte
  offset of a texel is the offset of its block.
* *Colours.* One path divides every channel by 255 as it decodes, the other keeps bytes and divides
  at the end (`FormatInfo.decodeNumbers_of_decodeBytes`).

Beyond `2 ^ 23` texels the agreement ends. A word does not hold 256 times such a coordinate, and
fixed point sees the end of the range of words in its place.
-/

namespace QuadSampler

/-! ## Indices -/

namespace Single

/-- Not a number, or of a magnitude below `2 ^ 23`. -/
def IsSmall (x : Single) : Prop := x = nan ∨ x.abs.lt (ofNat (2 ^ 23)) = true

private theorem IsSmall.exists_isAt {x : Single} (h : x.IsSmall) (hnan : x ≠ nan) :
    ∃ z, x.IsAt z ∧ z.natAbs < 2 ^ 23 * gridPerOne := by
  have hlt : x.abs.lt (ofNat (2 ^ 23)) = true := h.resolve_left hnan
  have hbound : (ofNat (2 ^ 23)).position = some ((2 ^ 23 : Nat) * gridPerOne) :=
    (isAt_ofNat (n := 2 ^ 23) (by decide)).position
  cases x with
  | nan => exact absurd rfl hnan
  | infinite s =>
    have hend : (infinite s).abs.position = some overflow := rfl
    rw [lt_iff_of_position hend hbound] at hlt
    exact absurd hlt (by decide)
  | finite s m hm =>
    have hplace : (finite s m hm).abs.position = some m := rfl
    rw [lt_iff_of_position hplace hbound] at hlt
    refine ⟨signed s m, ⟨s, m, hm, rfl, rfl⟩, ?_⟩
    rw [natAbs_signed]
    exact_mod_cast hlt

private theorem IsAt.mul_256 {x : Single} {z : Int} (h : x.IsAt z)
    (hz : z.natAbs < 2 ^ 23 * gridPerOne) :
    (x * 256).IsAt (z * 256) := by
  have hrep : Representable (z * 256).natAbs := by
    rw [Int.natAbs_mul]
    refine h.representable.mul_two_pow (k := 8) ?_
    calc z.natAbs * 2 ^ 8 < 2 ^ 23 * gridPerOne * 2 ^ 8 :=
          Nat.mul_lt_mul_of_pos_right hz (by decide)
      _ ≤ overflow := by decide
  have h256 : (256 : Single).IsAt (256 * gridPerOne) := isAt_ofNat (n := 256) (by decide)
  have hposition := h.position_mul h256
  rw [← Int.mul_assoc, place_mul_self hrep gridPerOne_pos] at hposition
  exact isAt_of_position hposition hrep.1

private theorem IsSmall.whole_floorInt32 {x : Single} (h : x.IsSmall) :
    FixedPoint.whole (x * 256).floorInt32 = x.floorInt32 := by
  by_cases hnan : x = nan
  · subst hnan
    rfl
  · obtain ⟨z, hx, hz⟩ := h.exists_isAt hnan
    have hz : -(2 ^ 23 * gridPerOne) < z ∧ z < 2 ^ 23 * gridPerOne := by
      zify at hz
      exact abs_lt.1 hz
    have hquotient : z * 256 / gridPerOne / 256 = z / gridPerOne := by
      rw [Int.ediv_ediv_of_nonneg natCast_gridPerOne_pos.le,
        Int.mul_ediv_mul_of_pos_left _ _ (by decide)]
    -- within the bound, 256ths are in the range of words and stay where they are
    have hlow : -2 ^ 31 ≤ z * 256 / gridPerOne := by
      rw [Int.le_ediv_iff_mul_le natCast_gridPerOne_pos]
      linarith
    have hhigh : z * 256 / gridPerOne < 2 ^ 31 := by
      rw [Int.ediv_lt_iff_lt_mul natCast_gridPerOne_pos]
      linarith
    rw [← Int32.toInt_inj, toInt_whole, (hx.mul_256 (by omega)).floorInt32, hx.floorInt32,
      toInt_saturate, toInt_saturate]
    omega

end Single

/-- Small coordinates have the same index in both paths. -/
theorem FixedPoint.whole_ofCoord {axis : WrapAxis} {c : Single} (h : (axis.toTexels c).IsSmall) :
    whole (ofCoord c axis.length axis.normalized false) = (axis.toTexels c).floorInt32 :=
  h.whole_floorInt32

private theorem exists_nearest_eq_ok_of_ofMode? {mode : WrapMode} {wrap : SimpleWrap}
    (axis : WrapAxis) {c : Single} (hmode : SimpleWrap.ofMode? mode = some wrap)
    (hsound : SoundLength axis.length axis.powerOfTwo) (hsmall : (axis.toTexels c).IsSmall)
    (stride : Int32) :
    ∃ i, IsTexel axis.length i ∧ mode.nearest axis c = .ok i ∧
      FixedPoint.OffsetAxis.nearest ⟨wrap, axis.length, stride, axis.powerOfTwo⟩
        (FixedPoint.whole (FixedPoint.ofCoord c axis.length axis.normalized false))
          = .ok (i * stride) := by
  rw [FixedPoint.whole_ofCoord hsmall]
  cases mode with
  | repeating =>
    obtain rfl : SimpleWrap.repeating = wrap := Option.some.inj hmode
    obtain ⟨i, hi, htexel⟩ := hsound.repeatIndex_eq_ok (axis.toTexels c).floorInt32
    exact ⟨i, htexel, hi, bind_eq_ok.2 ⟨i, hi, rfl⟩⟩
  | clampToEdge =>
    obtain rfl : SimpleWrap.clampToEdge = wrap := Option.some.inj hmode
    exact ⟨_, isTexel_clampIndex hsound.pos _, rfl, rfl⟩
  | clamp | clampToBorder | mirrorRepeat | mirrorClamp | mirrorClampToEdge | mirrorClampToBorder =>
    exact nomatch hmode

/-! ## Simple wraps -/

private theorem SimpleWrap.usesBorder_of_ofMode? {mode : WrapMode} {wrap : SimpleWrap}
    (h : ofMode? mode = some wrap) : mode.usesBorder = false := by
  cases mode with
  | repeating | clampToEdge => rfl
  | clamp | clampToBorder | mirrorRepeat | mirrorClamp | mirrorClampToEdge | mirrorClampToBorder =>
    exact nomatch h

private theorem SimpleWrap.ofMode?_of_ofState? {state : StaticState} {wraps : Axes SimpleWrap}
    (h : ofState? state = some wraps) :
    ofMode? state.wrap.s = some wraps.s ∧
      (2 ≤ state.dims → ofMode? state.wrap.t = some wraps.t) ∧
        (3 ≤ state.dims → ofMode? state.wrap.r = some wraps.r) := by
  simp only [ofState?, fitsBytes_of_ofState? h, if_true, Option.bind_eq_bind,
    Option.bind_eq_some_iff, Option.pure_def, Option.some.injEq] at h
  obtain ⟨s, hs, t, ht, r, hr, rfl⟩ := h
  refine ⟨?_, fun hdims ↦ ?_, fun hdims ↦ ?_⟩
  · rwa [if_pos (show 0 < state.dims from state.target.dims_pos)] at hs
  · rwa [if_pos (show 1 < state.dims from hdims)] at ht
  · rwa [if_pos (show 2 < state.dims from hdims)] at hr

private theorem SimpleWrap.not_beside_of_ofState? {state : StaticState} {wraps : Axes SimpleWrap}
    (h : ofState? state = some wraps) (extent : Axes Int) (p : Axes Int32) :
    ¬ state.Beside extent p := by
  obtain ⟨hs, ht, hr⟩ := ofMode?_of_ofState? h
  rintro (⟨hborder, -⟩ | ⟨hdims, hborder, -⟩ | ⟨hdims, hborder, -⟩)
  · exact absurd hborder (by rw [usesBorder_of_ofMode? hs]; decide)
  · exact absurd hborder (by rw [usesBorder_of_ofMode? (ht hdims)]; decide)
  · exact absurd hborder (by rw [usesBorder_of_ofMode? (hr hdims)]; decide)

/-! ## Colours -/

theorem byteToUnit_zero : byteToUnit 0 = 0 := by decide +kernel

theorem byteToUnit_255 : byteToUnit 255 = 1 := by decide +kernel

private theorem Channel.number_eq_byteToUnit {c : Channel} (h : c.isByte = true) (word : Nat) :
    c.number word = byteToUnit (c.byte word) := by
  obtain ⟨kind, size, shift⟩ := c
  cases kind with
  | void => exact byteToUnit_zero.symm
  | unorm =>
    obtain rfl : size = 8 := eq_of_beq h
    have hlt : word / 2 ^ shift % 2 ^ 8 < 2 ^ 8 := Nat.mod_lt _ (by decide)
    rw [byteToUnit, byte, bitsOf, widenToByte, if_pos rfl, UInt8.toNat_ofNat', Nat.mod_eq_of_lt hlt]
    rfl
  | float => exact nomatch h

/-- In formats that fit bytes the colour in numbers is the colour in bytes divided by 255. -/
theorem FormatInfo.decodeNumbers_of_decodeBytes {f : FormatInfo} (hfits : f.fitsBytes = true)
    {bytes : ByteArray} {offset i j : Nat} {color : Color UInt8}
    (h : f.decodeBytes bytes offset i j = .ok color) :
    f.decodeNumbers bytes offset i j = .ok color.toUnit := by
  obtain ⟨word, hword, hcolor⟩ := bind_eq_ok.1 h
  obtain rfl := Except.ok.inj hcolor
  have hplain := plain_of_fitsBytes hfits
  have hchannels : ∀ c ∈ f.channels.toList, c.number word = byteToUnit (c.byte word) := by
    simp only [fitsBytes, Bool.and_eq_true, List.all_eq_true] at hfits
    exact fun c hc ↦ Channel.number_eq_byteToUnit (hfits.2 c hc) word
  have hnumbers : f.numbersOf word i j = (f.bytesOf word i j).toUnit := by
    simp only [Color.toList, List.forall_mem_cons] at hchannels
    obtain ⟨hred, hgreen, hblue, halpha, -⟩ := hchannels
    simp only [numbersOf_of_plain hplain, bytesOf_of_plain hplain, Color.map, Color.toUnit, hred,
      hgreen, hblue, halpha]
  refine bind_eq_ok.2 ⟨word, hword, ?_⟩
  -- the two constants of a swizzle are bytes too
  rw [hnumbers, ← byteToUnit_zero, ← byteToUnit_255]
  exact congrArg Except.ok (Swizzle.apply_map byteToUnit f.swizzle 0 255 (f.bytesOf word i j))

/-! ## One level -/

namespace LevelView

/-- Whether the coordinates of a place, counted in texels of a level, are small along all addressed
axes. -/
structure IsSmallAt (state : StaticState) (view : LevelView) (place : Place) : Prop where
  s : ((view.wrapAxes state).s.toTexels place.coords.s).IsSmall
  t : 2 ≤ state.dims → ((view.wrapAxes state).t.toTexels place.coords.t).IsSmall
  r : 3 ≤ state.dims → ((view.wrapAxes state).r.toTexels place.coords.r).IsSmall

variable {wraps : Axes SimpleWrap} {state : StaticState} {view : LevelView} {place : Place}
  {e : Axes Nat}

private theorem exists_fetch_eq_ok (hwraps : SimpleWrap.ofState? state = some wraps)
    (h : view.ByteAddressed state.format e) {p : Axes Int32} (hp : view.Inside p) :
    ∃ color, view.fetchBytes state (view.byteOffset state.format.info.bytesPerBlock p) = .ok color ∧
      ∀ border, view.fetchNumbers state border p = .ok color.toUnit := by
  obtain ⟨color, hcolor⟩ :=
    FormatInfo.exists_decodeBytes_eq_ok (h.toPacked.blockOffset_add_le hp) 0 0
  refine ⟨color, ?_, fun border ↦ ?_⟩
  · rw [fetchBytes, h.toNatClampNeg_byteOffset hp]
    exact hcolor
  · rw [fetchNumbers_of_not_beside (SimpleWrap.not_beside_of_ofState? hwraps _ _),
      h.width_eq_one, h.height_eq_one, Nat.mod_one, Nat.mod_one]
    exact FormatInfo.decodeNumbers_of_decodeBytes (SimpleWrap.fitsBytes_of_ofState? hwraps) hcolor

private theorem sliceOffset_eq (state : StaticState) (view : LevelView) (place : Place) :
    FixedPoint.sliceOffset state view place = sliceOf state place * view.sliceStride := by
  rw [FixedPoint.sliceOffset, sliceOf]
  split
  · rfl
  · rw [Int32.zero_mul]

/-- The nearest texel is one texel in both paths. -/
theorem exists_nearest_eq_ok (hwraps : SimpleWrap.ofState? state = some wraps)
    (h : view.ByteAddressed state.format e) (hread : Readable state view)
    (hplace : place.IsOnFace state) (hsmall : IsSmallAt state view place) :
    ∃ color, FixedPoint.imageBytes wraps state .nearest view place = .ok color ∧
      ∀ border, view.imageNumbers state border .nearest place = .ok color.toUnit := by
  let axes := FixedPoint.offsetAxes wraps state view
  let along (axis : FixedPoint.OffsetAxis) (c : Single) : Except Fault Int32 :=
    axis.nearest (FixedPoint.whole (FixedPoint.ofCoord c axis.length state.normalized false))
  obtain ⟨hmode_s, hmode_t, hmode_r⟩ := SimpleWrap.ofMode?_of_ofState? hwraps
  obtain ⟨x, hx, hindex_x, hoffset_x⟩ := exists_nearest_eq_ok_of_ofMode?
    (view.wrapAxes state).s hmode_s hread.sound_s hsmall.s axes.s.stride
  -- an axis without a coordinate is at its first texel, or on the face that the place names
  obtain ⟨y, hy, hindex_y, hoffset_y⟩ : ∃ y, IsTexel view.extent.t y ∧
      (if 2 ≤ state.dims then state.wrap.t.nearest (view.wrapAxes state).t place.coords.t
        else .ok 0) = .ok y ∧
      (if 2 ≤ state.dims then along axes.t place.coords.t else .ok 0)
        = .ok (y * axes.t.stride) := by
    by_cases hdims : 2 ≤ state.dims
    · simp only [if_pos hdims]
      exact exists_nearest_eq_ok_of_ofMode? (view.wrapAxes state).t (hmode_t hdims)
        (hread.sound_t hdims) (hsmall.t hdims) axes.t.stride
    · simp only [if_neg hdims]
      exact ⟨0, ⟨le_refl _, hread.pos_t⟩, rfl, by rw [Int32.zero_mul]⟩
  obtain ⟨z, hz, hindex_z, hoffset_z⟩ : ∃ z, IsTexel view.extent.r z ∧
      (if 3 ≤ state.dims then state.wrap.r.nearest (view.wrapAxes state).r place.coords.r
        else .ok (sliceOf state place)) = .ok z ∧
      (if 3 ≤ state.dims then along axes.r place.coords.r
        else .ok (FixedPoint.sliceOffset state view place)) = .ok (z * axes.r.stride) := by
    by_cases hdims : 3 ≤ state.dims
    · simp only [if_pos hdims]
      exact exists_nearest_eq_ok_of_ofMode? (view.wrapAxes state).r (hmode_r hdims)
        (hread.sound_r hdims) (hsmall.r hdims) axes.r.stride
    · simp only [if_neg hdims]
      exact ⟨_, hread.isTexel_sliceOf hplace, rfl, by rw [sliceOffset_eq]; rfl⟩
  obtain ⟨color, hbytes, hnumbers⟩ := exists_fetch_eq_ok hwraps h (p := ⟨x, y, z⟩) ⟨hx, hy, hz⟩
  refine ⟨color, ?_, fun border ↦ ?_⟩
  · rw [FixedPoint.imageBytes_eq_imageWith]
    exact bind_eq_ok.2 ⟨_, hoffset_x, bind_eq_ok.2 ⟨_, hoffset_y, bind_eq_ok.2 ⟨_, hoffset_z,
      hbytes⟩⟩⟩
  · rw [imageNumbers, nearestNumbers_eq]
    exact bind_eq_ok.2 ⟨_, hindex_x, bind_eq_ok.2 ⟨_, hindex_y, bind_eq_ok.2 ⟨_, hindex_z,
      hnumbers border⟩⟩⟩

end LevelView

/-! ## Filtering a quad -/

namespace Levels

private theorem exists_filter_eq_ok_of_nearest {wraps : Axes SimpleWrap} {state : StaticState}
    {levels : Levels} {places : Quad Place} (hmin : state.minFilter = .nearest)
    (hmag : state.magFilter = .nearest) (hnext : levels.next = none)
    (hlane : ∀ lane, ∃ color,
      FixedPoint.imageBytes wraps state .nearest (levels.base.get lane) (places.get lane)
          = .ok color ∧
        ∀ border, (levels.base.get lane).imageNumbers state border .nearest (places.get lane)
          = .ok color.toUnit) (lods : Option (Quad Single)) :
    ∃ colors, levels.filterBytes wraps state places lods = .ok colors ∧
      ∀ border, levels.filterNumbers state border places lods = .ok (colors.map Color.toUnit) := by
  obtain ⟨colors, hbytes, hnumbers⟩ := Quad.exists_ofFnM_eq_ok_and hlane
  have hsame : state.minFilter = state.magFilter := hmin.trans hmag.symm
  refine ⟨colors, ?_, fun border ↦ ?_⟩
  · rw [filterBytes, filterByLod_of_eq hsame, hmin, filter_of_next_eq_none hnext]
    exact hbytes
  · rw [filterNumbers, filterByLod_of_eq hsame, hmin, filterNumbersBy,
      filter_of_next_eq_none hnext]
    refine Quad.ofFnM_eq_ok_iff.2 fun lane ↦ ?_
    rw [hnumbers lane border, Quad.get_map]

end Levels

/-! ## Sampling -/

/-- **The two paths agree on nearest texels.** On a unit with a texture of levels below `2 ^ 31`
bytes, under any state for which its binding is served in fixed point, with nearest filters and no
blend of levels, a request whose coordinates are small on the level that each lane reads is answered
in both paths, and in all lanes the colours in numbers are the colours in bytes divided by 255,
whatever the border. -/
theorem nearest_paths_agree {source : Source} {binding : Binding} {settings : Settings}
    {units : TextureUnits} {request : Request} {wraps : Axes SimpleWrap}
    (hbuild : Texture.build source = .ok binding.texture)
    (hsize : ∀ k < binding.texture.levelCount, (binding.texture.levelBytes k).size < 2 ^ 31)
    (hunit : units.get? request.unit = some binding)
    (hpath : (Sampler.specialize (binding.staticState settings) .normal).path = .fixedPoint wraps)
    (hmin : settings.minFilter = .nearest) (hmag : settings.magFilter = .nearest)
    (hmip : settings.mipFilter = .base ∨ settings.mipFilter = .nearest) :
    let state := binding.staticState settings
    let surface := units.surface request.unit
    let places := request.places state
    let lods := request.lods state surface places
    let levels := Levels.ofLods state surface lods
    (∀ lane, LevelView.IsSmallAt state (levels.base.get lane) (places.get lane)) →
    ∃ colors, levels.filterBytes wraps state places lods = .ok colors ∧
      ∀ border, levels.filterNumbers state border places lods = .ok (colors.map Color.toUnit) := by
  rw [TextureUnits.surface_of_get?_eq_some hunit]
  obtain ⟨hwraps, -⟩ := Sampler.specialize_of_path hpath
  intro state surface places lods levels hsmall
  have h := Texture.builtFrom_of_build hbuild
  have hlt := h.extent_lt (hsize 0 binding.texture.levelCount_pos)
  refine Levels.exists_filter_eq_ok_of_nearest hmin hmag (Levels.next_ofLods hmip _ _)
    (fun lane ↦ ?_) lods
  have hreads : levels.Reads lane (levels.base.get lane) := .inl rfl
  obtain ⟨k, hk, hview, haddressed⟩ := exists_byteAddressed_of_reads h hsize hwraps hreads
  have hread : LevelView.Readable state (levels.base.get lane) :=
    hview ▸ LevelView.readable_ofSurface h settings hlt hk
  exact LevelView.exists_nearest_eq_ok hwraps haddressed hread (request.isOnFace_places state lane)
    (hsmall lane)

/-- The checkered texture, half a texture to the left of it. -/
theorem nearest_paths_agree_checker :
    let request := Request.ofCoords 0 [.splat (-Single.half), .splat .nan]
    let state := Binding.checker.staticState .plain
    let surface := TextureUnits.checker.surface 0
    let places := request.places state
    let lods := request.lods state surface places
    let levels := Levels.ofLods state surface lods
    ∃ colors, levels.filterBytes ⟨.repeating, .repeating, .clampToEdge⟩ state places lods
        = .ok colors ∧
      ∀ border, levels.filterNumbers state border places lods = .ok (colors.map Color.toUnit) := by
  intro request state surface places lods levels
  have hunit : TextureUnits.checker.get? request.unit = some .checker := rfl
  have hpath : (Sampler.specialize (Binding.checker.staticState .plain) .normal).path
      = .fixedPoint ⟨.repeating, .repeating, .clampToEdge⟩ := rfl
  let axes (lane : Fin 4) : Axes WrapAxis := (levels.base.get lane).wrapAxes state
  have hs : ∀ lane, ((axes lane).s.toTexels (places.get lane).coords.s).abs.lt
      (Single.ofNat (2 ^ 23)) = true := by decide +kernel
  have ht : ∀ lane, (axes lane).t.toTexels (places.get lane).coords.t = .nan := by decide +kernel
  have hsmall : ∀ lane, LevelView.IsSmallAt state (levels.base.get lane) (places.get lane) :=
    fun lane ↦ ⟨.inr (hs lane), fun _ ↦ .inl (ht lane), fun hdims ↦ absurd hdims (by decide)⟩
  exact nearest_paths_agree build_checker (by decide) hunit hpath rfl rfl (.inl rfl) hsmall

end QuadSampler
