import QuadSampler.Proofs.Addressing.CubeFace
import QuadSampler.Proofs.Filtering.BlendTree
import QuadSampler.Proofs.Filtering.NearestPaths
import QuadSampler.Proofs.Filtering.TexelCenters
import QuadSampler.Proofs.Sampler.BlendAccuracy
import QuadSampler.Proofs.Sampler.FixedLod
import QuadSampler.Proofs.Sampler.MirroredBorder

/-!
# Units with nothing bound

Where nothing is bound, one texel of zeros serves every format. What it looks like is for the format
to say. Red, green and blue are zero in all of them. Alpha is zero where it is stored, but most
formats store none and have it one, and in the compressed ones index zero stands for an opaque
colour (`PixelFormat.storesAlpha`). So units with nothing bound read as black, and as transparent
black only in the formats that store alpha (`StaticState.IsUnboundColor`).

The rest is that nothing else gets in. Limits of the level of detail are zero, so no second level
has a share. In fixed point every offset is zero, and blends of equal bytes are those bytes. In
numbers, blends with finite weights keep the three zeros. The border is transparent black, so where
it is blended in alpha is between zero and one.
-/

namespace QuadSampler

/-! ## Texels of zeros -/

namespace Storage

private theorem littleEndian_eq_zero {bytes : List UInt8} (h : ∀ b ∈ bytes, b = 0) :
    littleEndian bytes = 0 := by
  induction bytes with
  | nil => rfl
  | cons b bytes ih =>
    obtain rfl := h b List.mem_cons_self
    rw [littleEndian, ih fun c hc ↦ h c (List.mem_cons_of_mem _ hc)]
    rfl

private theorem eq_zero_of_wordAt {bytes : ByteArray} {offset count word : Nat}
    (hzero : ∀ b ∈ bytes.data.toList, b = 0) (h : wordAt bytes offset count = .ok word) :
    word = 0 := by
  rw [wordAt, bytesAt] at h
  split at h
  · obtain rfl := Except.ok.inj h
    refine littleEndian_eq_zero fun b hb ↦ hzero b ?_
    rw [ByteArray.data_extract, Array.toList_extract] at hb
    exact List.mem_of_mem_drop (List.mem_of_mem_take hb)
  · cases h

end Storage

private theorem Bc1Block.texel_zero (i j : Nat) : (ofWord 0).texel i j = ⟨0, 0, 0, 255⟩ := by
  have hindices : (ofWord 0).indices = 0 := rfl
  have hindex : (ofWord 0).index i j = 0 := by rw [index, hindices, Nat.zero_div]
  rw [texel, hindex]
  decide

namespace PixelFormat

/-- Whether alpha is a channel of each texel. In the other formats a texel of zeros is opaque: alpha
is the constant one, or that of the first end of a compressed block. -/
def storesAlpha (f : PixelFormat) : Bool := f.info.packing == .plain && f.info.swizzle.alpha != .one

def zeroAlpha (f : PixelFormat) : Single := if f.storesAlpha then 0 else 1

/-- A texel of zeros is black. -/
theorem apply_numbersOf_zero (f : PixelFormat) (i j : Nat) :
    f.info.swizzle.apply 0 1 (f.info.numbersOf 0 i j) = ⟨0, 0, 0, f.zeroAlpha⟩ := by
  cases f with
  | dxt1Rgb | dxt1Rgba =>
    rw [FormatInfo.numbersOf_of_s3tc rfl, Bc1Block.texel_zero]
    decide +kernel
  | rgba8Unorm | bgra8Unorm | rgb8Unorm | l8Unorm | a8Unorm | l8a8Unorm | r5g6b5Unorm | r32Float
  | rgba32Float | z16Unorm | z32Float =>
    rw [FormatInfo.numbersOf_of_plain rfl]
    decide +kernel

end PixelFormat

/-! ## Colours of units with nothing bound -/

namespace Single

theorem lerp_self {w a : Single} (hw : w.IsFinite) (ha : a.IsFinite) (hne : a ≠ -0) :
    lerp w a a = a := by
  obtain ⟨z, hz⟩ := ha
  have hposition := hz.position_sub hz
  rw [Int.sub_self] at hposition
  exact add_of_isAt_zero hne (hw.mul_isAt_zero (isAt_zero_of_position Nat.one_pos hposition))

private theorem lerp_zero {w : Single} (hw : w.IsFinite) : lerp w 0 0 = 0 :=
  lerp_self hw isAt_zero.isFinite (by decide)

private theorem lerp_one {w : Single} (hw : w.IsFinite) : lerp w 1 1 = 1 :=
  lerp_self hw isAt_one.isFinite (by decide)

theorem IsAt.mul_one {x : Single} {z : Int} (h : x.IsAt z) : (x * 1).IsAt z := by
  have hposition := h.position_mul isAt_one
  rw [place_mul_self h.representable gridPerOne_pos] at hposition
  exact isAt_of_position hposition h.representable.1

end Single

namespace StaticState

/-- Whether some addressed axis can show the border. -/
def showsBorder (state : StaticState) : Bool := state.activeWraps.any WrapMode.usesBorder

/-- The colours that units with nothing bound read as. They are black, and transparent in formats
that store alpha. In the others the texel is opaque, and only the border makes it less so. -/
structure IsUnboundColor (state : StaticState) (c : Color Single) : Prop where
  red : c.red = 0
  green : c.green = 0
  blue : c.blue = 0
  alpha : c.alpha.InUnit
  alpha_zero : state.format.storesAlpha = true → c.alpha = 0
  alpha_one : state.format.storesAlpha = false → state.showsBorder = false → c.alpha = 1

private theorem isUnboundColor_texel (state : StaticState) :
    state.IsUnboundColor ⟨0, 0, 0, state.format.zeroAlpha⟩ := by
  rw [PixelFormat.zeroAlpha]
  cases halpha : state.format.storesAlpha with
  | true =>
    exact ⟨rfl, rfl, rfl, Single.inUnit_zero, fun _ ↦ rfl, fun h ↦ nomatch halpha.symm.trans h⟩
  | false =>
    exact ⟨rfl, rfl, rfl, Single.inUnit_one, fun h ↦ (nomatch halpha.symm.trans h), fun _ _ ↦ rfl⟩

private theorem isUnboundColor_border {state : StaticState} (h : state.showsBorder = true) :
    state.IsUnboundColor (.splat 0) :=
  ⟨rfl, rfl, rfl, Single.inUnit_zero, fun _ ↦ rfl, fun _ hnone ↦ nomatch h.symm.trans hnone⟩

/-- Blends of such colours are such colours. -/
theorem IsUnboundColor.lerpColor {state : StaticState} {w : Single} (hw : w.InUnit)
    {a b : Color Single} (ha : state.IsUnboundColor a) (hb : state.IsUnboundColor b) :
    state.IsUnboundColor (lerpColor w a b) where
  red := by
    rw [red_lerpColor, ha.red, hb.red, Single.lerp_zero hw.isFinite]
  green := by
    rw [green_lerpColor, ha.green, hb.green, Single.lerp_zero hw.isFinite]
  blue := by
    rw [blue_lerpColor, ha.blue, hb.blue, Single.lerp_zero hw.isFinite]
  alpha := hw.lerp ha.alpha hb.alpha
  alpha_zero hstores := by
    rw [alpha_lerpColor, ha.alpha_zero hstores, hb.alpha_zero hstores,
      Single.lerp_zero hw.isFinite]
  alpha_one hstores hnone := by
    rw [alpha_lerpColor, ha.alpha_one hstores hnone, hb.alpha_one hstores hnone,
      Single.lerp_one hw.isFinite]

private theorem showsBorder_of_beside {state : StaticState} {extent : Axes Int} {p : Axes Int32}
    (h : state.Beside extent p) : state.showsBorder = true := by
  obtain ⟨axis, hactive, hborder, -⟩ := exists_misses_of_beside h
  refine List.any_eq_true.2 ⟨state.wrap.get axis,
    List.mem_take_iff_getElem.2 ⟨axis, ?_, ?_⟩, hborder⟩
  · exact Nat.lt_min.2 ⟨mem_activeAxes.1 hactive, axis.isLt⟩
  · match axis with
    | 0 | 1 | 2 => rfl

end StaticState

/-! ## The texel that stands in -/

private theorem IsTexel.eq_zero {i : Int32} (h : IsTexel 1 i) : i = 0 := by
  obtain ⟨hlow, hhigh⟩ := h
  rw [Int32.toInt_one] at hhigh
  rw [← Int32.toInt_inj, Int32.toInt_zero]
  omega

private theorem clampIndex_zero_zero (i : Int32) : clampIndex i 0 0 = 0 := by
  have htexel : IsTexel 1 (clampIndex i 0 0) := isTexel_clampIndex (by decide) i
  exact htexel.eq_zero

namespace LevelView

variable (state : StaticState) (level : Int32)

theorem eq_black_of_decodeNumbers_unbound {f : PixelFormat} {offset i j : Nat}
    {color : Color Single}
    (h : f.info.decodeNumbers (ofSurface state .unbound level).storage.bytes offset i j
      = .ok color) :
    color = ⟨0, 0, 0, f.zeroAlpha⟩ := by
  have hzero : ∀ b ∈ (ofSurface state .unbound level).storage.bytes.data.toList, b = 0 := by
    intro b hb
    rw [storage_ofSurface, Surface.bytes_level_unbound, List.data_toByteArray] at hb
    exact List.eq_of_mem_replicate hb
  obtain ⟨word, hword, h⟩ := bind_eq_ok.1 h
  obtain rfl := Storage.eq_zero_of_wordAt hzero hword
  obtain rfl := Except.ok.inj h
  exact f.apply_numbersOf_zero i j

private theorem extent_get_unbound {axis : Fin 3} (h : axis ∈ state.activeAxes) :
    (ofSurface state .unbound level).extent.get axis = 1 := by
  rw [extent_unbound]
  match axis with
  | 0 | 1 => rfl
  | 2 =>
    have hflat : state.target ≠ .cube := by
      intro hcube
      rw [StaticState.mem_activeAxes, StaticState.dims, hcube] at h
      exact absurd h (by decide)
    exact if_neg hflat

/-! ### In numbers -/

theorem isUnboundColor_of_fetchNumbers {p : Axes Int32} {color : Color Single}
    (h : (ofSurface state .unbound level).fetchNumbers state (.splat 0) p = .ok color) :
    state.IsUnboundColor color := by
  by_cases hbeside : state.Beside ((ofSurface state .unbound level).extent.map Int32.toInt) p
  · rw [(readable_unbound state level).fetchNumbers_of_beside hbeside] at h
    obtain rfl := Except.ok.inj h
    exact StaticState.isUnboundColor_border (StaticState.showsBorder_of_beside hbeside)
  · rw [fetchNumbers_of_not_beside hbeside] at h
    obtain rfl := eq_black_of_decodeNumbers_unbound state level h
    exact state.isUnboundColor_texel

private theorem inUnit_weight_unbound {place : Place}
    (hfinite : ∀ axis, (place.coords.get axis).IsFinite)
    {axis : Fin 3} (hactive : axis ∈ state.activeAxes) {w : Straddle Single}
    (hw : (ofSurface state .unbound level).straddle state place axis = .ok w) :
    w.weight.InUnit := by
  have hlength : (((ofSurface state .unbound level).wrapAxes state).get axis).length = 1 := by
    rw [length_wrapAxes, extent_get_unbound state level hactive]
  refine WrapMode.Scales.inUnit_weight ⟨hfinite axis, fun _ ↦ ?_, fun _ hneg ↦ ?_⟩ ?_ hw
  · have hone : Single.ofInt32 1 = 1 := by decide
    obtain ⟨z, hz⟩ := hfinite axis
    rw [WrapAxis.toTexels, WrapAxis.extent, hlength, hone]
    split
    · exact hz.mul_one.isFinite
    · exact hz.isFinite
  · rw [hlength] at hneg
    exact absurd hneg (by decide)
  · rw [hlength]
    decide

theorem exists_imageNumbers_unbound {place : Place} (hface : place.IsOnFace state)
    (hfinite : ∀ axis, (place.coords.get axis).IsFinite) (filter : ImageFilter) :
    ∃ color, (ofSurface state .unbound level).imageNumbers state (.splat 0) filter place
      = .ok color ∧ state.IsUnboundColor color := by
  obtain ⟨color, hcolor⟩ := (readable_unbound state level).exists_imageNumbers_eq_ok hface
    (fun _ : filter = .linear ↦ clampsExactly_unbound state level) (.splat 0)
  refine ⟨color, hcolor, of_imageNumbers (fun p texel ↦ ?_) (fun axis hactive w hw a b ↦ ?_) hcolor⟩
  · exact isUnboundColor_of_fetchNumbers state level
  · exact StaticState.IsUnboundColor.lerpColor
      (inUnit_weight_unbound state level hfinite hactive hw)

/-! ### In bytes -/

theorem exists_fetchBytes_unbound (hfits : state.format.info.fitsBytes = true) :
    ∃ color, (ofSurface state .unbound level).fetchBytes state 0 = .ok color ∧
      color.toUnit = ⟨0, 0, 0, state.format.zeroAlpha⟩ := by
  have hsize : (ofSurface state .unbound level).storage.bytes.size = 16 := rfl
  have hblock : 0 + state.format.info.bytesPerBlock
      ≤ (ofSurface state .unbound level).storage.bytes.size := by
    have := state.format.bytesPerBlock_le
    omega
  obtain ⟨color, hcolor⟩ := FormatInfo.exists_decodeBytes_eq_ok hblock 0 0
  exact ⟨color, hcolor, eq_black_of_decodeNumbers_unbound state level
    (FormatInfo.decodeNumbers_of_decodeBytes hfits hcolor)⟩

end LevelView

namespace FixedPoint

namespace OffsetAxis

variable {axis : OffsetAxis} (h : axis.length = 1)
include h

private theorem nearest_of_one (i : Int32) : axis.nearest i = .ok 0 := by
  have hlast : (1 - 1 : Int32) = 0 := by decide
  rw [nearest, h]
  cases axis.wrap with
  | repeating =>
    obtain ⟨j, hj, htexel⟩ := (LevelView.soundLength_one axis.powerOfTwo).repeatIndex_eq_ok i
    obtain rfl := htexel.eq_zero
    exact bind_eq_ok.2 ⟨0, hj, congrArg Except.ok Int32.zero_mul⟩
  | clampToEdge =>
    refine congrArg Except.ok ?_
    rw [hlast, clampIndex_zero_zero, Int32.zero_mul]

private theorem linear_of_one (i : Int32) : axis.linear i = .ok (0, 0) := by
  have hlast : (1 - 1 : Int32) = 0 := by decide
  rw [linear, h, hlast]
  cases axis.wrap with
  | repeating =>
    obtain ⟨j, hj, htexel⟩ := (LevelView.soundLength_one axis.powerOfTwo).repeatIndex_eq_ok i
    obtain rfl := htexel.eq_zero
    refine bind_eq_ok.2 ⟨0, hj, ?_⟩
    simp only [Int32.zero_mul, if_true]
    rfl
  | clampToEdge =>
    have hclamp : (if i < 0 then if 0 ≤ i then i else 0 else 0) = 0 :=
      (ite_eq_clampIndex (le_refl _)).trans (clampIndex_zero_zero i)
    have hnone : ¬ (0 ≤ i ∧ i < 0) := by
      rw [Int32.le_iff_toInt_le, Int32.lt_iff_toInt_lt]
      omega
    simp only [hclamp, if_neg hnone, Int32.zero_mul, Int32.add_zero]

private theorem straddle_of_one (normalized : Bool) (c : Single) :
    axis.straddle normalized c = .ok ⟨0, 0, fraction (ofCoord c axis.length normalized true)⟩ := by
  rw [straddle, linear_of_one h]
  rfl

end OffsetAxis

private theorem blendOver_mix_const {weight : Fin 3 → Int32}
    (hweight : ∀ axis, IsWeight (weight axis)) (axes : List (Fin 3)) (color : Color UInt8) :
    blendOver mix weight axes (fun _ ↦ color) = color := by
  induction axes with
  | nil => rfl
  | cons axis inner ih => rw [blendOver, ih, mix_self (hweight axis)]

section Unbound

variable {wraps : Axes SimpleWrap} {state : StaticState} {level : Int32} {color : Color UInt8}
  (hcolor : (LevelView.ofSurface state .unbound level).fetchBytes state 0 = .ok color)

private theorem length_offsetAxes_unbound {axis : Fin 3} (hactive : axis ∈ state.activeAxes) :
    ((offsetAxes wraps state (.ofSurface state .unbound level)).get axis).length = 1 := by
  have hextent := LevelView.extent_get_unbound state level hactive
  match axis with
  | 0 | 1 | 2 => exact hextent

private theorem sliceOffset_unbound (place : Place) :
    sliceOffset state (.ofSurface state .unbound level) place = 0 := by
  rw [sliceOffset]
  split
  · exact Int32.mul_zero
  · rfl

include hcolor

/-- The cells of a single texel have it at every corner. -/
theorem readsCell_unbound (place : Place) :
    ReadsCell wraps state (.ofSurface state .unbound level) place fun _ ↦ color := by
  refine ⟨fun axis ↦ ⟨0, 0, cellWeight state (.ofSurface state .unbound level) place axis⟩,
    fun axis hactive ↦ ?_, fun corner _ ↦ ?_⟩
  · simp only [straddle, OffsetAxis.straddle_of_one (length_offsetAxes_unbound hactive),
      cellWeight_eq_fraction]
    match axis with
    | 0 | 1 | 2 => rfl
  · rw [cornerOffset, sliceOffset_unbound, List.foldl_fixed' fun axis ↦ ?_, hcolor]
    rw [cornerSide, ite_self, Int32.add_zero]

theorem imageBytes_unbound (place : Place) (filter : ImageFilter) :
    imageBytes wraps state filter (.ofSurface state .unbound level) place = .ok color := by
  cases filter with
  | linear =>
    rw [(readsCell_unbound hcolor place).imageBytes_eq_ok,
      blendOver_mix_const (isWeight_cellWeight _ _ _)]
  | nearest =>
    have haxis : ∀ {axis : Fin 3}, axis ∈ state.activeAxes → ∀ i,
        ((offsetAxes wraps state (.ofSurface state .unbound level)).get axis).nearest i = .ok 0 :=
      fun hactive ↦ OffsetAxis.nearest_of_one (length_offsetAxes_unbound hactive)
    have hfirst : 0 ∈ state.activeAxes := StaticState.mem_activeAxes.2 state.target.dims_pos
    rw [imageBytes_eq_imageWith]
    refine bind_eq_ok.2 ⟨0, haxis hfirst _, bind_eq_ok.2 ⟨0, ?_, bind_eq_ok.2 ⟨0, ?_, hcolor⟩⟩⟩
    · split
      case isTrue hdims =>
        have hactive : 1 ∈ state.activeAxes := StaticState.mem_activeAxes.2 hdims
        exact haxis hactive _
      case isFalse => rfl
    · split
      case isTrue hdims =>
        have hactive : 2 ∈ state.activeAxes := StaticState.mem_activeAxes.2 hdims
        exact haxis hactive _
      case isFalse => rw [sliceOffset_unbound]

end Unbound

end FixedPoint

/-! ## Sampling -/

namespace Request

variable {request : Request} (h : ∀ coord ∈ request.coords, ∀ lane, (coord.get lane).IsFinite)
include h

private theorem isFinite_coord (i : Nat) (lane : Fin 4) :
    ((request.coord i).get lane).IsFinite := by
  rw [coord, List.getD_eq_getElem?_getD]
  cases hcoord : request.coords[i]? with
  | none =>
    rw [Option.getD_none, Quad.get_splat]
    exact Single.isFinite_zero
  | some coord => exact h coord (List.mem_of_getElem? hcoord) lane

private theorem isFinite_direction (lane : Fin 4) (axis : Fin 3) :
    ((request.direction lane).get axis).IsFinite := by
  match axis with
  | 0 => exact isFinite_coord h 0 lane
  | 1 => exact isFinite_coord h 1 lane
  | 2 => exact isFinite_coord h 2 lane

private theorem isFinite_coords_places (state : StaticState) (lane : Fin 4) (axis : Fin 3) :
    (((request.places state).get lane).coords.get axis).IsFinite := by
  by_cases hcube : state.target = .cube
  · choose p hp using isFinite_direction h lane
    have hdirection : (request.direction lane).IsAt ⟨p 0, p 1, p 2⟩ := fun axis ↦ by
      match axis with
      | 0 => exact hp 0
      | 1 => exact hp 1
      | 2 => exact hp 2
    obtain ⟨-, hs, ht⟩ := CubePoint.exists_ofDirection hdirection
    rw [places, Quad.get_ofFn, if_pos hcube]
    match axis with
    | 0 => exact hs.isFinite
    | 1 => exact ht.isFinite
    | 2 => exact Single.isFinite_zero
  · rw [coords_places request hcube]
    exact isFinite_direction h lane axis

end Request

private theorem exists_filterByLod_eq_ok_and {C : Type} {P : Fin 4 → C → Prop} {state : StaticState}
    (lods : Option (Quad Single)) {run : ImageFilter → Except Fault (Quad C)}
    (h : ∀ filter, ∃ colors, run filter = .ok colors ∧ ∀ lane, P lane (colors.get lane)) :
    ∃ colors, filterByLod state lods run = .ok colors ∧ ∀ lane, P lane (colors.get lane) := by
  obtain ⟨minified, hmin, hPmin⟩ := h state.minFilter
  obtain ⟨magnified, hmag, hPmag⟩ := h state.magFilter
  rw [filterByLod]
  split
  · exact ⟨minified, hmin, hPmin⟩
  · refine exists_bind_eq_ok_and hmin (exists_bind_eq_ok_and hmag ⟨_, rfl, fun lane ↦ ?_⟩)
    rw [Quad.get_ofFn]
    split
    · exact hPmin lane
    · exact hPmag lane

/-- Where nothing is bound a quad is one image for each lane, under one filter or the other. -/
theorem Request.exists_filterByLod_unbound {C : Type} {P : C → Prop} (request : Request)
    (state : StaticState) {image : ImageFilter → LevelView → Place → Except Fault C}
    (himage : ∀ filter level lane, ∃ color, image filter (.ofSurface state .unbound level)
      ((request.places state).get lane) = .ok color ∧ P color)
    (mix : Single → C → C → C) :
    let places := request.places state
    let lods := request.lods state .unbound places
    ∃ colors, (filterByLod state lods fun filter ↦
        (Levels.ofLods state .unbound lods).filter (image filter) mix places) = .ok colors ∧
      ∀ lane, P (colors.get lane) := by
  intro places lods
  have hblends : (Levels.ofLods state .unbound lods).blends = false := by
    cases hlods : lods with
    | none =>
      have hzero : ∀ lane, ((Quad.splat (0 : Single)).get lane).IsAt 0 := fun lane ↦ by
        rw [Quad.get_splat]
        exact Single.isAt_zero
      exact Levels.blends_ofLods_of_isAt_zero hzero
    | some q =>
      have hmin : Surface.unbound.minLod.position = some 0 := Single.position_zero
      have hmax : Surface.unbound.maxLod.position = some 0 := Single.position_zero
      refine Levels.blends_ofLods_of_isAt_zero fun lane ↦ ?_
      have hplace := request.position_lods_of_limits state hmin hmax hlods lane
      exact Single.isAt_of_position hplace (by decide)
  refine exists_filterByLod_eq_ok_and lods fun filter ↦ ?_
  rw [Levels.filter_of_blends_eq_false hblends]
  refine Quad.exists_ofFnM_eq_ok_and fun lane ↦ ?_
  obtain ⟨level, hlevel⟩ := Levels.exists_base_ofLods state .unbound lods lane
  rw [hlevel]
  exact himage filter level lane

/-- **Units with nothing bound read as black.** On a unit where no texture is bound, or that does
not exist, every state with the identity swizzle and no comparison answers every request with
finite coordinates. In all lanes red, green and blue are zero. Alpha is zero in formats that store
it; in the others it is between zero and one, and it is one unless an addressed axis shows the
border. -/
theorem unbound_units_read_black {units : TextureUnits} {request : Request} {state : StaticState}
    (hunit : units.get? request.unit = none) (hswizzle : state.swizzle = .identity)
    (hcompare : state.compareMode = .off)
    (hfinite : ∀ coord ∈ request.coords, ∀ lane, (coord.get lane).IsFinite) :
    ∃ colors, (Sampler.specialize state .normal).sample (units.surface request.unit) request
      = .ok colors ∧ ∀ lane, state.IsUnboundColor (colors.get lane) := by
  rw [TextureUnits.surface_of_get?_eq_none hunit, Sampler.specialize]
  cases hwraps : SimpleWrap.ofState? state with
  | some wraps =>
    have himage : ∀ filter level lane, ∃ color,
        FixedPoint.imageBytes wraps state filter (.ofSurface state .unbound level)
            ((request.places state).get lane) = .ok color ∧
          color.toUnit = ⟨0, 0, 0, state.format.zeroAlpha⟩ := fun filter level lane ↦ by
      obtain ⟨color, hcolor, hblack⟩ := LevelView.exists_fetchBytes_unbound state level
        (SimpleWrap.fitsBytes_of_ofState? hwraps)
      exact ⟨color, FixedPoint.imageBytes_unbound hcolor _ filter, hblack⟩
    obtain ⟨colors, hcolors, hblack⟩ :=
      request.exists_filterByLod_unbound state himage FixedPoint.mixLevels
    refine exists_bind_eq_ok_and hcolors ⟨_, rfl, fun lane ↦ ?_⟩
    rw [Quad.get_zipWith, Sampler.finish_of_identity hswizzle hcompare, Quad.get_map, hblack]
    exact state.isUnboundColor_texel
  | none =>
    obtain ⟨colors, hcolors, hblack⟩ := request.exists_filterByLod_unbound state
      (fun filter level lane ↦ LevelView.exists_imageNumbers_unbound state level
        (request.isOnFace_places state lane) (Request.isFinite_coords_places hfinite state lane)
        filter) lerpColor
    refine exists_bind_eq_ok_and hcolors ⟨_, rfl, fun lane ↦ ?_⟩
    rw [Quad.get_zipWith, Sampler.finish_of_identity hswizzle hcompare]
    exact hblack lane

/-- A luminance texel has no alpha of its own, so the unit reads as opaque black. -/
theorem unbound_units_read_black_luminance :
    let state := { Binding.checker.staticState .plain with format := .l8Unorm }
    let request := Request.ofCoords 5 [.splat .half, .splat 1]
    ∃ colors, (Sampler.specialize state .normal).sample (TextureUnits.empty.surface 5) request
      = .ok colors ∧ ∀ lane, colors.get lane = ⟨0, 0, 0, 1⟩ := by
  intro state request
  have hfinite : ∀ coord ∈ request.coords, ∀ lane, (coord.get lane).IsFinite := by
    intro coord hcoord lane
    obtain rfl | rfl : coord = .splat .half ∨ coord = .splat 1 := by
      simpa [request, Request.ofCoords, maxCoords] using hcoord
    · rw [Quad.get_splat]
      exact Single.isAt_half.isFinite
    · rw [Quad.get_splat]
      exact Single.isAt_one.isFinite
  obtain ⟨colors, hcolors, hblack⟩ : ∃ colors, (Sampler.specialize state .normal).sample
      (TextureUnits.empty.surface request.unit) request = .ok colors ∧
        ∀ lane, state.IsUnboundColor (colors.get lane) :=
    unbound_units_read_black rfl rfl rfl hfinite
  refine ⟨colors, hcolors, fun lane ↦ ?_⟩
  have hlane := hblack lane
  calc colors.get lane
      = ⟨(colors.get lane).red, (colors.get lane).green, (colors.get lane).blue,
          (colors.get lane).alpha⟩ := rfl
    _ = ⟨0, 0, 0, 1⟩ := by
      rw [hlane.red, hlane.green, hlane.blue, hlane.alpha_one rfl rfl]

end QuadSampler
