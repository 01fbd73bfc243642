import QuadSampler.Proofs.Filtering.Progress
import QuadSampler.Proofs.LevelView.ByteOffset
import QuadSampler.Proofs.LevelView.Fetch

/-!
# Byte offsets of the fixed-point path

The fixed-point path never looks at where a texel is fetched from: it adds three offsets and reads.
Nothing between the wrapped index and the read stops an offset from leaving the level, so the
offsets themselves have to be right.

## How offsets are observed

`FixedPoint.imageWith` is the path with its fetch and its blend left open. With the fetch by byte
offset and the blend of bytes it is the path itself (`imageBytes_eq_imageWith`). With a fetch that
only notes the three offsets it is asked for, and a blend that joins the notes, it is the list of
all offsets that an image is made from (`FixedPoint.imageTerms`). One walk through the path serves
both readings (`exists_imageWith_eq_ok`): whatever holds of a fetch at the offsets of texels, and is
kept by the blend, holds of the image.

Coordinates play no part. Any index, however it came out of a coordinate, is wrapped to an index of
the axis before it meets a stride.
-/

namespace QuadSampler

namespace FixedPoint

/-! ## Offsets along an axis -/

namespace OffsetAxis

/-- No product of a texel index and the stride wraps around, and neither does the step behind it. -/
def Exact (axis : OffsetAxis) : Prop :=
  ∀ i, IsTexel axis.length i →
    (i * axis.stride).toInt = i.toInt * axis.stride.toInt ∧
      (i * axis.stride + axis.stride).toInt = i.toInt * axis.stride.toInt + axis.stride.toInt

/-- An axis whose whole extent in bytes fits a word. -/
structure Fits (axis : OffsetAxis) : Prop where
  sound : SoundLength axis.length axis.powerOfTwo
  stride_nonneg : 0 ≤ axis.stride.toInt
  mul_lt : axis.length.toInt * axis.stride.toInt < 2 ^ 31

theorem Fits.exact {axis : OffsetAxis} (h : axis.Fits) : axis.Exact :=
  fun _ hi ↦ LevelView.toInt_mul_stride h.stride_nonneg h.mul_lt hi

/-- The offset of some texel of the axis. -/
def IsOffset (axis : OffsetAxis) (o : Int32) : Prop :=
  ∃ i : Int, (0 ≤ i ∧ i < axis.length.toInt) ∧ o.toInt = i * axis.stride.toInt

variable {axis : OffsetAxis}

private theorem Fits.isOffset_mul (h : axis.Fits) {i : Int32} (hi : IsTexel axis.length i) :
    axis.IsOffset (i * axis.stride) := ⟨i.toInt, hi, (h.exact i hi).1⟩

/-- The offset behind that of a texel is the offset of the next texel, if there is one. -/
private theorem Fits.isOffset_add (h : axis.Fits) {i : Int32} (hi : IsTexel axis.length i)
    (hnext : i.toInt + 1 < axis.length.toInt) :
    axis.IsOffset (i * axis.stride + axis.stride) := by
  refine ⟨i.toInt + 1, ⟨?_, hnext⟩, ?_⟩
  · have := hi.1
    omega
  · rw [(h.exact i hi).2]
    ring

private theorem Fits.isOffset_zero (h : axis.Fits) : axis.IsOffset 0 :=
  ⟨0, ⟨le_refl _, h.sound.pos⟩, (Int.zero_mul _).symm⟩

theorem Fits.exists_nearest_eq_ok (h : axis.Fits) (i : Int32) :
    ∃ o, axis.nearest i = .ok o ∧ axis.IsOffset o := by
  rw [nearest]
  cases axis.wrap with
  | repeating =>
    obtain ⟨j, hj, htexel⟩ := h.sound.repeatIndex_eq_ok i
    exact ⟨_, bind_eq_ok.2 ⟨j, hj, rfl⟩, h.isOffset_mul htexel⟩
  | clampToEdge => exact ⟨_, rfl, h.isOffset_mul (isTexel_clampIndex h.sound.pos i)⟩

theorem ite_eq_clampIndex {i last : Int32} (h : 0 ≤ last.toInt) :
    (if i < last then if 0 ≤ i then i else 0 else last) = clampIndex i 0 last := by
  rw [← Int32.toInt_inj, toInt_clampIndex_zero]
  simp only [Int32.lt_iff_toInt_lt, Int32.le_iff_toInt_le, Int32.toInt_zero]
  split
  · split
    · omega
    · rw [Int32.toInt_zero]
      omega
  · omega

theorem Fits.exists_linear_eq_ok (h : axis.Fits) (i : Int32) :
    ∃ o₁ o₂, axis.linear i = .ok (o₁, o₂) ∧ axis.IsOffset o₁ ∧ axis.IsOffset o₂ := by
  have hpos := h.sound.pos
  have hlast : (axis.length - 1).toInt = axis.length.toInt - 1 := toInt_sub_one hpos.le
  cases hwrap : axis.wrap with
  | repeating =>
    obtain ⟨j, hj, htexel⟩ := h.sound.repeatIndex_eq_ok i
    refine ⟨j * axis.stride, if j = axis.length - 1 then 0 else j * axis.stride + axis.stride,
      ?_, h.isOffset_mul htexel, ?_⟩
    · simp only [linear, hwrap]
      exact bind_eq_ok.2 ⟨j, hj, rfl⟩
    · split
      case isTrue => exact h.isOffset_zero
      case isFalse hne =>
        have hne : j.toInt ≠ axis.length.toInt - 1 := by
          rwa [ne_eq, ← hlast, Int32.toInt_inj]
        have := htexel.2
        exact h.isOffset_add htexel (by omega)
  | clampToEdge =>
    have htexel := isTexel_clampIndex hpos i
    have hclamp := toInt_clampIndex_zero i (axis.length - 1)
    refine ⟨clampIndex i 0 (axis.length - 1) * axis.stride,
      clampIndex i 0 (axis.length - 1) * axis.stride
        + (if 0 ≤ i ∧ i < axis.length - 1 then axis.stride else 0), ?_, h.isOffset_mul htexel, ?_⟩
    · simp only [linear, hwrap, ite_eq_clampIndex (show 0 ≤ (axis.length - 1).toInt by omega)]
    · split
      case isTrue hinside =>
        rw [Int32.le_iff_toInt_le, Int32.lt_iff_toInt_lt, hlast, Int32.toInt_zero] at hinside
        exact h.isOffset_add htexel (by omega)
      case isFalse =>
        rw [Int32.add_zero]
        exact h.isOffset_mul htexel

theorem Fits.exists_straddle_eq_ok (h : axis.Fits) (normalized : Bool) (c : Single) :
    ∃ w, axis.straddle normalized c = .ok w ∧ axis.IsOffset w.first ∧ axis.IsOffset w.second := by
  obtain ⟨o₁, o₂, hlinear, h₁, h₂⟩ :=
    h.exists_linear_eq_ok (whole (ofCoord c axis.length normalized true))
  exact ⟨_, bind_eq_ok.2 ⟨(o₁, o₂), hlinear, rfl⟩, h₁, h₂⟩

end OffsetAxis

/-! ## The path with its fetch left open -/

variable {C : Type}

/-- The path under an image filter, given how a texel is fetched from its offsets along the three
axes and how two texels are blended. -/
def imageWith (wraps : Axes SimpleWrap) (state : StaticState) (filter : ImageFilter)
    (view : LevelView) (place : Place) (fetch : Axes Int32 → Except Fault C)
    (blend : Int32 → C → C → C) : Except Fault C :=
  let axes := offsetAxes wraps state view
  match filter with
  | .nearest =>
    let along (axis : OffsetAxis) (c : Single) : Except Fault Int32 :=
      axis.nearest (whole (ofCoord c axis.length state.normalized false))
    along axes.s place.coords.s >>= fun x ↦
      (if 2 ≤ state.dims then along axes.t place.coords.t else .ok 0) >>= fun y ↦
        (if 3 ≤ state.dims then along axes.r place.coords.r
          else .ok (sliceOffset state view place)) >>= fun z ↦ fetch ⟨x, y, z⟩
  | .linear => do
    let along ← axes.s.straddle state.normalized place.coords.s
    if state.dims = 1 then along.blend blend fun x ↦ fetch ⟨x, 0, 0⟩
    else
      let down ← axes.t.straddle state.normalized place.coords.t
      let square (z : Int32) : Except Fault C :=
        down.blend blend fun y ↦ along.blend blend fun x ↦ fetch ⟨x, y, z⟩
      if state.dims = 2 then square (sliceOffset state view place)
      else
        let through ← axes.r.straddle state.normalized place.coords.r
        through.blend blend square

/-- The path fetches at the sum of the three offsets. -/
theorem imageBytes_eq_imageWith (wraps : Axes SimpleWrap) (state : StaticState)
    (filter : ImageFilter) (view : LevelView) (place : Place) :
    imageBytes wraps state filter view place
      = imageWith wraps state filter view place
          (fun p ↦ view.fetchBytes state (p.s + p.t + p.r)) mix := by
  cases filter with
  | nearest =>
    simp only [imageBytes, imageWith, nearestBytes, nearestOffset]
    split <;> split <;> simp only [bind_assoc, pure_bind] <;> rfl
  | linear =>
    simp only [imageBytes, imageWith, linearBytes, Int32.add_zero]

/-- The offsets that an image is made from, three for each texel, in the order of the fetches. -/
def imageTerms (wraps : Axes SimpleWrap) (state : StaticState) (filter : ImageFilter)
    (view : LevelView) (place : Place) : Except Fault (List (Axes Int32)) :=
  imageWith wraps state filter view place (fun p ↦ .ok [p]) fun _ first second ↦ first ++ second

/-! ## The walk through the path -/

/-- The three axes of a level whose offsets fit words. -/
structure AxesFit (axes : Axes OffsetAxis) : Prop where
  s : axes.s.Fits
  t : axes.t.Fits
  r : axes.r.Fits

private theorem exists_blend_eq_ok_and {blend : Int32 → C → C → C} {read : Int32 → Except Fault C}
    {w : Straddle Int32} {P : C → Prop} (hblend : ∀ w a b, P a → P b → P (blend w a b))
    (hfirst : ∃ c, read w.first = .ok c ∧ P c) (hsecond : ∃ c, read w.second = .ok c ∧ P c) :
    ∃ c, w.blend blend read = .ok c ∧ P c := by
  obtain ⟨first, hfirst, hPfirst⟩ := hfirst
  obtain ⟨second, hsecond, hPsecond⟩ := hsecond
  exact exists_bind_eq_ok_and hfirst (exists_bind_eq_ok_and hsecond
    ⟨_, rfl, hblend w.weight first second hPfirst hPsecond⟩)

variable {wraps : Axes SimpleWrap} {state : StaticState} {view : LevelView} {place : Place}

/-- Whatever a fetch gives at the offsets of texels, and a blend keeps, the image has. -/
theorem exists_imageWith_eq_ok {fetch : Axes Int32 → Except Fault C}
    {blend : Int32 → C → C → C} {P : C → Prop} (hfit : AxesFit (offsetAxes wraps state view))
    (hslice : (offsetAxes wraps state view).r.IsOffset (sliceOffset state view place))
    (hfetch : ∀ x y z, (offsetAxes wraps state view).s.IsOffset x →
      (offsetAxes wraps state view).t.IsOffset y → (offsetAxes wraps state view).r.IsOffset z →
        ∃ c, fetch ⟨x, y, z⟩ = .ok c ∧ P c)
    (hblend : ∀ w a b, P a → P b → P (blend w a b)) (filter : ImageFilter) :
    ∃ c, imageWith wraps state filter view place fetch blend = .ok c ∧ P c := by
  let axes := offsetAxes wraps state view
  cases filter with
  | nearest =>
    obtain ⟨x, hx, hxo⟩ := hfit.s.exists_nearest_eq_ok
      (whole (ofCoord place.coords.s axes.s.length state.normalized false))
    obtain ⟨y, hy, hyo⟩ : ∃ y, (if 2 ≤ state.dims
        then axes.t.nearest (whole (ofCoord place.coords.t axes.t.length state.normalized false))
        else .ok 0) = .ok y ∧ axes.t.IsOffset y := by
      split
      · exact hfit.t.exists_nearest_eq_ok _
      · exact ⟨0, rfl, hfit.t.isOffset_zero⟩
    obtain ⟨z, hz, hzo⟩ : ∃ z, (if 3 ≤ state.dims
        then axes.r.nearest (whole (ofCoord place.coords.r axes.r.length state.normalized false))
        else .ok (sliceOffset state view place)) = .ok z ∧ axes.r.IsOffset z := by
      split
      · exact hfit.r.exists_nearest_eq_ok _
      · exact ⟨_, rfl, hslice⟩
    rw [imageWith]
    exact exists_bind_eq_ok_and hx (exists_bind_eq_ok_and hy (exists_bind_eq_ok_and hz
      (hfetch x y z hxo hyo hzo)))
  | linear =>
    obtain ⟨along, halong, hx₁, hx₂⟩ :=
      hfit.s.exists_straddle_eq_ok state.normalized place.coords.s
    rw [imageWith]
    refine exists_bind_eq_ok_and halong ?_
    by_cases hdims : state.dims = 1
    · rw [if_pos hdims]
      exact exists_blend_eq_ok_and hblend
        (hfetch _ _ _ hx₁ hfit.t.isOffset_zero hfit.r.isOffset_zero)
        (hfetch _ _ _ hx₂ hfit.t.isOffset_zero hfit.r.isOffset_zero)
    · obtain ⟨down, hdown, hy₁, hy₂⟩ :=
        hfit.t.exists_straddle_eq_ok state.normalized place.coords.t
      -- a square of texels lies in one slice; a third coordinate blends two squares
      have hsquare : ∀ z, axes.r.IsOffset z →
          ∃ c, (down.blend blend fun y ↦ along.blend blend fun x ↦ fetch ⟨x, y, z⟩) = .ok c ∧ P c :=
        fun z hz ↦ exists_blend_eq_ok_and hblend
          (exists_blend_eq_ok_and hblend (hfetch _ _ _ hx₁ hy₁ hz) (hfetch _ _ _ hx₂ hy₁ hz))
          (exists_blend_eq_ok_and hblend (hfetch _ _ _ hx₁ hy₂ hz) (hfetch _ _ _ hx₂ hy₂ hz))
      rw [if_neg hdims]
      refine exists_bind_eq_ok_and hdown ?_
      by_cases hflat : state.dims = 2
      · rw [if_pos hflat]
        exact hsquare _ hslice
      · obtain ⟨through, hthrough, hz₁, hz₂⟩ :=
          hfit.r.exists_straddle_eq_ok state.normalized place.coords.r
        rw [if_neg hflat]
        exact exists_bind_eq_ok_and hthrough
          (exists_blend_eq_ok_and hblend (hsquare _ hz₁) (hsquare _ hz₂))

/-! ## Levels with byte offsets -/

private theorem OffsetAxis.IsOffset.exists_nat {axis : OffsetAxis} {o : Int32} {length stride : Nat}
    (h : axis.IsOffset o) (hlength : axis.length.toInt = length)
    (hstride : axis.stride.toInt = stride) : ∃ i < length, o.toInt = (i * stride : Nat) := by
  obtain ⟨i, ⟨h0, hlt⟩, ho⟩ := h
  refine ⟨i.toNat, by omega, ?_⟩
  rw [ho, hstride, Int.natCast_mul, Int.toNat_of_nonneg h0]

private theorem exists_fetchBytes_eq_ok {terms : Axes Int32}
    (hterms : view.SumsInside state.format.info.bytesPerBlock terms) :
    ∃ color, view.fetchBytes state (terms.s + terms.t + terms.r) = .ok color := by
  have hle := hterms.add_le
  have hnonneg := hterms.nonneg
  refine FormatInfo.exists_decodeBytes_eq_ok ?_ 0 0
  rw [Int32.toNatClampNeg]
  omega

section Addressed

variable {e : Axes Nat} (h : view.ByteAddressed state.format e)
include h

theorem axesFit_of_byteAddressed (hs : SoundLength view.extent.s state.powerOfTwo.s)
    (ht : SoundLength view.extent.t state.powerOfTwo.t)
    (hr : SoundLength view.extent.r state.powerOfTwo.r) :
    AxesFit (offsetAxes wraps state view) := by
  obtain ⟨hlt_s, hlt_t, hlt_r⟩ := h.toInt_mul_lt
  have hextent := h.extent_eq
  refine ⟨⟨hs, ?_, ?_⟩, ⟨ht, ?_, ?_⟩, ⟨hr, ?_, ?_⟩⟩
  · exact h.toInt_bytesPerBlock ▸ Int.natCast_nonneg _
  · simpa only [offsetAxes, hextent, Axes.map] using hlt_s
  · exact h.toInt_rowStride ▸ Int.natCast_nonneg _
  · simpa only [offsetAxes, hextent, Axes.map] using hlt_t
  · exact h.toInt_sliceStride ▸ Int.natCast_nonneg _
  · simpa only [offsetAxes, hextent, Axes.map] using hlt_r

private theorem texelTerms_of_isOffset {x y z : Int32}
    (hx : (offsetAxes wraps state view).s.IsOffset x)
    (hy : (offsetAxes wraps state view).t.IsOffset y)
    (hz : (offsetAxes wraps state view).r.IsOffset z) :
    view.TexelTerms state.format.info.bytesPerBlock e ⟨x, y, z⟩ := by
  have hextent := h.map_toInt_extent
  simp only [Axes.map, Axes.mk.injEq] at hextent
  obtain ⟨hs, ht, hr⟩ := hextent
  exact ⟨hx.exists_nat hs h.toInt_bytesPerBlock, hy.exists_nat ht h.toInt_rowStride,
    hz.exists_nat hr h.toInt_sliceStride⟩

/-- The offsets of an image are those of texels, whatever the place. -/
private theorem exists_imageTerms_eq_ok (hfit : AxesFit (offsetAxes wraps state view))
    (hslice : (offsetAxes wraps state view).r.IsOffset (sliceOffset state view place))
    (filter : ImageFilter) :
    ∃ terms, imageTerms wraps state filter view place = .ok terms ∧ ∀ p ∈ terms,
      ((offsetAxes wraps state view).s.IsOffset p.s ∧ (offsetAxes wraps state view).t.IsOffset p.t ∧
        (offsetAxes wraps state view).r.IsOffset p.r) ∧
          view.SumsInside state.format.info.bytesPerBlock p := by
  -- what holds of every note of two lists holds of every note of the joined list
  refine exists_imageWith_eq_ok hfit hslice (fun x y z hx hy hz ↦ ?_)
    (fun _ first second hfirst hsecond p hp ↦ ?_) filter
  · refine ⟨[⟨x, y, z⟩], rfl, fun p hp ↦ ?_⟩
    rw [List.mem_singleton] at hp
    rw [hp]
    exact ⟨⟨hx, hy, hz⟩, h.sumsInside (texelTerms_of_isOffset h hx hy hz)⟩
  · rcases List.mem_append.1 hp with hp | hp
    · exact hfirst p hp
    · exact hsecond p hp

theorem exists_imageBytes_eq_ok (hfit : AxesFit (offsetAxes wraps state view))
    (hslice : (offsetAxes wraps state view).r.IsOffset (sliceOffset state view place))
    (filter : ImageFilter) :
    ∃ color, imageBytes wraps state filter view place = .ok color := by
  obtain ⟨color, hcolor, -⟩ : ∃ color, imageWith wraps state filter view place
      (fun p ↦ view.fetchBytes state (p.s + p.t + p.r)) mix = .ok color ∧ True := by
    refine exists_imageWith_eq_ok hfit hslice (fun x y z hx hy hz ↦ ?_)
      (fun _ _ _ _ _ ↦ trivial) filter
    obtain ⟨color, hcolor⟩ :=
      exists_fetchBytes_eq_ok (h.sumsInside (texelTerms_of_isOffset h hx hy hz))
    exact ⟨color, hcolor, trivial⟩
  exact ⟨color, imageBytes_eq_imageWith wraps state filter view place ▸ hcolor⟩

end Addressed

theorem isOffset_sliceOffset (hfit : AxesFit (offsetAxes wraps state view))
    (hsix : state.target = .cube → view.extent.r = 6) (hplace : place.IsOnFace state) :
    (offsetAxes wraps state view).r.IsOffset (sliceOffset state view place) := by
  rw [Place.IsOnFace] at hplace
  rw [sliceOffset]
  by_cases hcube : state.target = .cube
  · rw [if_pos hcube] at hplace ⊢
    have htexel : IsTexel view.extent.r place.face := by rwa [hsix hcube]
    exact hfit.r.isOffset_mul htexel
  · rw [if_neg hcube]
    exact hfit.r.isOffset_zero

end FixedPoint

/-! ## Sampling -/

theorem SimpleWrap.fitsBytes_of_ofState? {state : StaticState} {wraps : Axes SimpleWrap}
    (h : ofState? state = some wraps) : state.format.info.fitsBytes = true := by
  simp only [ofState?] at h
  split at h
  · assumption
  · exact nomatch h

theorem Sampler.specialize_of_path {state : StaticState} {wraps : Axes SimpleWrap}
    (h : (specialize state .normal).path = .fixedPoint wraps) :
    SimpleWrap.ofState? state = some wraps ∧
      specialize state .normal = ⟨state, .fixedPoint wraps⟩ := by
  cases hwraps : SimpleWrap.ofState? state with
  | none =>
    simp only [specialize, hwraps] at h
    cases h
  | some wraps' =>
    simp only [specialize, hwraps, Path.fixedPoint.injEq] at h ⊢
    exact ⟨by rw [h], by rw [h]⟩

theorem exists_byteAddressed_of_reads {source : Source} {binding : Binding} {settings : Settings}
    {wraps : Axes SimpleWrap} (h : binding.texture.BuiltFrom source)
    (hsize : ∀ k < binding.texture.levelCount, (binding.texture.levelBytes k).size < 2 ^ 31)
    (hwraps : SimpleWrap.ofState? (binding.staticState settings) = some wraps)
    {lods : Option (Quad Single)} {lane : Fin 4} {view : LevelView}
    (hview : (Levels.ofLods (binding.staticState settings) binding.surface lods).Reads lane view) :
    ∃ k < source.levelCount,
      view = .ofSurface (binding.staticState settings) binding.surface (Int32.ofNat k) ∧
        view.ByteAddressed (binding.staticState settings).format (source.extentAt k) := by
  obtain ⟨k, hlast, rfl⟩ := Levels.exists_of_reads_ofLods h.lastLevel_lt hview
  have hcount : binding.surface.lastLevel + 1 = source.levelCount := h.lastLevel_add_one
  have hk : k < source.levelCount := by omega
  have hformat : (binding.staticState settings).format = source.format := h.format_eq
  have hfits := SimpleWrap.fitsBytes_of_ofState? hwraps
  rw [hformat] at hfits ⊢
  exact ⟨k, hk, rfl, LevelView.byteAddressed_ofSurface h _ h.target_eq
    (h.extent_lt (hsize 0 binding.texture.levelCount_pos)) hfits hk
    (hsize k (h.levelCount_eq.symm ▸ hk))⟩

/-- **Byte offsets stay in their level.** On a unit with a texture of levels below `2 ^ 31` bytes,
under any state for which its binding is served in fixed point, every request is answered. Under
either filter, in every lane and on every level the lane reads, offsets are formed without wrapping
around. An image fetches its texels at sums of three of them, one for each axis; no such sum is
negative, and at each there are the bytes of a texel. -/
theorem sample_fixedPoint_offsets {source : Source} {binding : Binding} {settings : Settings}
    {units : TextureUnits} {request : Request} {wraps : Axes SimpleWrap}
    (hbuild : Texture.build source = .ok binding.texture)
    (hsize : ∀ k < binding.texture.levelCount, (binding.texture.levelBytes k).size < 2 ^ 31)
    (hunit : units.get? request.unit = some binding)
    (hpath : (Sampler.specialize (binding.staticState settings) .normal).path
      = .fixedPoint wraps) :
    let state := binding.staticState settings
    let surface := units.surface request.unit
    let places := request.places state
    let levels := Levels.ofLods state surface (request.lods state surface places)
    (∃ colors, (Sampler.specialize state .normal).sample surface request = .ok colors) ∧
    ∀ (filter : ImageFilter) (lane : Fin 4) (view : LevelView), levels.Reads lane view →
      let axes := FixedPoint.offsetAxes wraps state view
      (∃ k < binding.texture.levelCount, view.storage.bytes = binding.texture.levelBytes k) ∧
      (axes.s.Exact ∧ axes.t.Exact ∧ axes.r.Exact) ∧
      FixedPoint.imageBytes wraps state filter view (places.get lane)
        = FixedPoint.imageWith wraps state filter view (places.get lane)
            (fun p ↦ view.fetchBytes state (p.s + p.t + p.r)) FixedPoint.mix ∧
      ∃ terms, FixedPoint.imageTerms wraps state filter view (places.get lane) = .ok terms ∧
        ∀ p ∈ terms, (axes.s.IsOffset p.s ∧ axes.t.IsOffset p.t ∧ axes.r.IsOffset p.r) ∧
          view.SumsInside state.format.info.bytesPerBlock p := by
  rw [TextureUnits.surface_of_get?_eq_some hunit]
  obtain ⟨hwraps, hsampler⟩ := Sampler.specialize_of_path hpath
  intro state surface places levels
  have h := Texture.builtFrom_of_build hbuild
  have hlt := h.extent_lt (hsize 0 binding.texture.levelCount_pos)
  have hlevel : ∀ lane view, levels.Reads lane view →
      ∃ k < source.levelCount, view = .ofSurface state binding.surface (Int32.ofNat k) ∧
        view.ByteAddressed state.format (source.extentAt k) :=
    fun _ _ hview ↦ exists_byteAddressed_of_reads h hsize hwraps hview
  have hfit : ∀ lane view, levels.Reads lane view →
      FixedPoint.AxesFit (FixedPoint.offsetAxes wraps state view) := by
    intro lane view hview
    obtain ⟨k, hk, rfl, haddressed⟩ := hlevel lane view hview
    obtain ⟨hs, ht, hr⟩ := soundLength_ofSurface h settings hlt hk
    exact FixedPoint.axesFit_of_byteAddressed haddressed hs ht hr
  have hslice : ∀ lane view, levels.Reads lane view →
      (FixedPoint.offsetAxes wraps state view).r.IsOffset
        (FixedPoint.sliceOffset state view (places.get lane)) := by
    intro lane view hview
    refine FixedPoint.isOffset_sliceOffset (hfit lane view hview) (fun hcube ↦ ?_)
      (request.isOnFace_places state lane)
    obtain ⟨k, -, rfl, -⟩ := hlevel lane view hview
    simp only [LevelView.ofSurface, if_pos hcube]
  constructor
  · obtain ⟨colors, hcolors⟩ : ∃ colors, levels.filterBytes wraps state places
        (request.lods state surface places) = .ok colors := by
      refine exists_filterByLod_eq_ok _ fun filter _ ↦ ?_
      refine Levels.exists_filter_eq_ok fun lane view hview ↦ ?_
      obtain ⟨k, -, -, haddressed⟩ := hlevel lane view hview
      exact FixedPoint.exists_imageBytes_eq_ok haddressed (hfit lane view hview)
        (hslice lane view hview) filter
    rw [hsampler, Sampler.sample]
    exact exists_bind_eq_ok hcolors ⟨_, rfl⟩
  · intro filter lane view hview axes
    have hfits := hfit lane view hview
    obtain ⟨k, hk, hofSurface, haddressed⟩ := hlevel lane view hview
    have hbytes : view.storage.bytes = binding.texture.levelBytes k := by
      simp only [hofSurface, LevelView.ofSurface, h.toNatClampNeg_level hk]
      rfl
    exact ⟨⟨k, h.levelCount_eq.symm ▸ hk, hbytes⟩, ⟨hfits.s.exact, hfits.t.exact, hfits.r.exact⟩,
      FixedPoint.imageBytes_eq_imageWith wraps state filter view (places.get lane),
      FixedPoint.exists_imageTerms_eq_ok haddressed hfits (hslice lane view hview) filter⟩

/-- The checkered texture with coordinates that are no numbers. -/
theorem sample_fixedPoint_offsets_checker :
    let request := Request.ofCoords 0 [.splat .nan, .splat (.infinite true)]
    let state := Binding.checker.staticState .plain
    let surface := TextureUnits.checker.surface 0
    (∃ colors, (Sampler.specialize state .normal).sample surface request = .ok colors) ∧
    ∃ terms, FixedPoint.imageTerms ⟨.repeating, .repeating, .clampToEdge⟩ state .linear
        (.ofSurface state surface 0) ((request.places state).get 0) = .ok terms ∧
      ∀ p ∈ terms, (LevelView.ofSurface state surface 0).SumsInside 1 p := by
  intro request state surface
  have hunit : TextureUnits.checker.get? request.unit = some .checker := rfl
  have hpath : (Sampler.specialize (Binding.checker.staticState .plain) .normal).path
      = .fixedPoint ⟨.repeating, .repeating, .clampToEdge⟩ := rfl
  obtain ⟨hsample, hoffsets⟩ := sample_fixedPoint_offsets build_checker (by decide) hunit hpath
  obtain ⟨-, -, -, terms, hterms, hinside⟩ := hoffsets .linear 0 _ (.inl rfl)
  exact ⟨hsample, terms, hterms, fun p hp ↦ (hinside p hp).2⟩

end QuadSampler
