import QuadSampler.Proofs.Filtering.NumbersTotal
import QuadSampler.Proofs.Filtering.Offsets
import QuadSampler.Proofs.Filtering.Progress
import QuadSampler.Proofs.Texture.Faces

/-!
# Cube faces do not bleed

A lane that samples a cube reads one face of it, on every level and under every filter. Two cubes of
one shape that agree in the faces of all lanes give one answer, whatever their other faces hold
(`cube_faces_isolated`).

The two calls are followed side by side. They choose the same levels, since the choice depends on
extents alone, and they find the same indices and offsets, since wrapping does too. What is left are
the fetches, in two kinds.

* A fetch *inside* its level reads a block of its own slice, where the two levels agree. In fixed
  point the slice is a term of a sum of words, so this needs the sum to be exact.
* A fetch *beside* its level reads the first texel of the first face, which may be a face that
  differs. It gives the border all the same, in both calls.
-/

namespace QuadSampler

private theorem StaticState.dims_of_cube {state : StaticState} (h : state.target = .cube) :
    state.dims = 2 := by
  rw [dims, h]
  rfl

/-! ## Levels that agree in a slice -/

/-- Whether two levels have one layout and the same bytes in a slice. -/
structure LevelView.AgreeAt (view₁ view₂ : LevelView) (slice : Nat) : Prop where
  extent_eq : view₂.extent = view₁.extent
  rowStride_eq : view₂.storage.rowStride = view₁.storage.rowStride
  sliceStride_eq : view₂.storage.sliceStride = view₁.storage.sliceStride
  size_eq : view₂.storage.bytes.size = view₁.storage.bytes.size
  bytes : Storage.AgreeOn view₁.storage.bytes view₂.storage.bytes
    (slice * view₁.storage.sliceStride) view₁.storage.sliceStride

namespace LevelView

variable {state : StaticState} {view₁ view₂ : LevelView} {slice : Nat} {place : Place}

theorem AgreeAt.wordAt_eq (h : view₁.AgreeAt view₂ slice) {offset count : Nat}
    (hstart : slice * view₁.storage.sliceStride ≤ offset)
    (hend : offset + count ≤ slice * view₁.storage.sliceStride + view₁.storage.sliceStride)
    (hsize : offset + count ≤ view₁.storage.bytes.size) :
    Storage.wordAt view₁.storage.bytes offset count
      = Storage.wordAt view₂.storage.bytes offset count :=
  (h.bytes.mono hstart hend).wordAt_eq hsize (h.size_eq.symm ▸ hsize)

theorem AgreeAt.blockOffset_eq (h : view₁.AgreeAt view₂ slice) (f : FormatInfo) (p : Axes Int32) :
    view₂.blockOffset f p = view₁.blockOffset f p := by
  rw [blockOffset, blockOffset, h.rowStride_eq, h.sliceStride_eq]

private theorem AgreeAt.wrapAxes_eq (h : view₁.AgreeAt view₂ slice) (state : StaticState) :
    view₂.wrapAxes state = view₁.wrapAxes state := by
  rw [wrapAxes, wrapAxes, h.extent_eq]

/-! ## Fetches -/

private theorem AgreeAt.wordAt_blockOffset_eq {f : PixelFormat} {e : Axes Nat}
    (h : view₁.AgreeAt view₂ slice) (hpacked : view₁.Packed f.info e) {p : Axes Int32}
    (hp : view₁.Inside p) (hslice : p.r.toNatClampNeg = slice) :
    Storage.wordAt view₁.storage.bytes (view₁.blockOffset f.info p) f.info.bytesPerBlock
      = Storage.wordAt view₂.storage.bytes (view₁.blockOffset f.info p) f.info.bytesPerBlock := by
  obtain ⟨hstart, hend⟩ := hpacked.blockOffset_in_slice hp
  rw [hslice] at hstart hend
  exact h.wordAt_eq hstart hend (hpacked.blockOffset_add_le hp)

private theorem AgreeAt.fetchNumbers_eq {e : Axes Nat} (h : view₁.AgreeAt view₂ slice)
    (hpacked : view₁.Packed state.format.info e) (hread₁ : Readable state view₁)
    (hread₂ : Readable state view₂) {p : Axes Int32} (hp : Reaches state view₁ p)
    (hslice : p.r.toNatClampNeg = slice) (border : Color Single) :
    view₁.fetchNumbers state border p = view₂.fetchNumbers state border p := by
  by_cases hbeside : state.Beside (view₁.extent.map Int32.toInt) p
  · rw [hread₁.fetchNumbers_of_beside hbeside,
      hread₂.fetchNumbers_of_beside (h.extent_eq.symm ▸ hbeside)]
  · rw [fetchNumbers_of_not_beside hbeside,
      fetchNumbers_of_not_beside (h.extent_eq.symm ▸ hbeside), h.blockOffset_eq,
      FormatInfo.decodeNumbers, FormatInfo.decodeNumbers,
      h.wordAt_blockOffset_eq hpacked (hp.inside hbeside) hslice]

private theorem AgreeAt.fetchBytes_eq {e : Axes Nat} (h : view₁.AgreeAt view₂ slice)
    (haddressed : view₁.ByteAddressed state.format e) {p : Axes Int32} (hp : view₁.Inside p)
    (hslice : p.r.toNatClampNeg = slice) :
    view₁.fetchBytes state (view₁.byteOffset state.format.info.bytesPerBlock p)
      = view₂.fetchBytes state (view₁.byteOffset state.format.info.bytesPerBlock p) := by
  rw [fetchBytes, fetchBytes, haddressed.toNatClampNeg_byteOffset hp, FormatInfo.decodeBytes,
    FormatInfo.decodeBytes, h.wordAt_blockOffset_eq haddressed.toPacked hp hslice]

/-! ## Images in numbers -/

section Numbers

variable {e : Axes Nat} (h : view₁.AgreeAt view₂ slice)
  (hpacked : view₁.Packed state.format.info e) (hread₁ : Readable state view₁)
  (hread₂ : Readable state view₂) (hcube : state.target = .cube) (hplace : place.IsOnFace state)
  (hface : place.face.toNatClampNeg = slice) (border : Color Single)

include h hpacked hread₁ hread₂ hcube hplace hface

/-- On a cube all texels that an image is made from lie in the face of its place. -/
theorem AgreeAt.fetchNumbers_face_eq {x y : Int32} (hx : state.wrap.s.Serves view₁.extent.s x)
    (hy : state.wrap.t.Serves view₁.extent.t y) :
    view₁.fetchNumbers state border ⟨x, y, sliceOf state place⟩
      = view₂.fetchNumbers state border ⟨x, y, sliceOf state place⟩ := by
  have hdims : 2 ≤ state.dims := (StaticState.dims_of_cube hcube).ge
  have hslice : sliceOf state place = place.face := if_pos hcube
  have hreaches : Reaches state view₁ ⟨x, y, sliceOf state place⟩ :=
    ⟨hx, .inr ⟨hdims, hy⟩, .inl (hread₁.isTexel_sliceOf hplace)⟩
  exact h.fetchNumbers_eq hpacked hread₁ hread₂ hreaches (hslice ▸ hface) border

theorem AgreeAt.nearestNumbers_eq :
    view₁.nearestNumbers state border place = view₂.nearestNumbers state border place := by
  have hdims := StaticState.dims_of_cube hcube
  obtain ⟨x, hx, hxs⟩ : ∃ x, state.wrap.s.nearest (view₁.wrapAxes state).s place.coords.s = .ok x ∧
      state.wrap.s.Serves view₁.extent.s x :=
    state.wrap.s.exists_nearest_eq_ok (view₁.wrapAxes state).s hread₁.sound_s place.coords.s
  obtain ⟨y, hy, hys⟩ : ∃ y, state.wrap.t.nearest (view₁.wrapAxes state).t place.coords.t = .ok y ∧
      state.wrap.t.Serves view₁.extent.t y :=
    state.wrap.t.exists_nearest_eq_ok (view₁.wrapAxes state).t (hread₁.sound_t hdims.ge)
      place.coords.t
  have hfetch := h.fetchNumbers_face_eq hpacked hread₁ hread₂ hcube hplace hface border hxs hys
  rw [LevelView.nearestNumbers_eq, LevelView.nearestNumbers_eq, h.wrapAxes_eq, hx, hdims,
    if_pos (le_refl 2), if_neg (by decide), hy]
  exact hfetch

private theorem AgreeAt.linearNumbers_eq (hclamp : ClampsExactly state view₁) :
    view₁.linearNumbers state border place = view₂.linearNumbers state border place := by
  have hdims := StaticState.dims_of_cube hcube
  obtain ⟨along, halong, hx₁, hx₂⟩ : ∃ w,
      state.wrap.s.linear (view₁.wrapAxes state).s place.coords.s = .ok w ∧
        state.wrap.s.Serves view₁.extent.s w.first ∧ state.wrap.s.Serves view₁.extent.s w.second :=
    state.wrap.s.exists_linear_eq_ok (view₁.wrapAxes state).s hread₁.sound_s hclamp.s place.coords.s
  obtain ⟨down, hdown, hy₁, hy₂⟩ : ∃ w,
      state.wrap.t.linear (view₁.wrapAxes state).t place.coords.t = .ok w ∧
        state.wrap.t.Serves view₁.extent.t w.first ∧ state.wrap.t.Serves view₁.extent.t w.second :=
    state.wrap.t.exists_linear_eq_ok (view₁.wrapAxes state).t (hread₁.sound_t hdims.ge)
      (hclamp.t hdims.ge) place.coords.t
  let row (view : LevelView) (y : Int32) : Except Fault (Color Single) :=
    along.blend lerpColor fun x ↦ view.fetchNumbers state border ⟨x, y, sliceOf state place⟩
  have hrow : ∀ y, state.wrap.t.Serves view₁.extent.t y → row view₁ y = row view₂ y := by
    intro y hy
    refine Straddle.blend_congr ?_ ?_
    · exact h.fetchNumbers_face_eq hpacked hread₁ hread₂ hcube hplace hface border hx₁ hy
    · exact h.fetchNumbers_face_eq hpacked hread₁ hread₂ hcube hplace hface border hx₂ hy
  have hsquare : down.blend lerpColor (row view₁) = down.blend lerpColor (row view₂) :=
    Straddle.blend_congr (hrow _ hy₁) (hrow _ hy₂)
  simp only [linearNumbers, h.wrapAxes_eq, hdims, halong, hdown]
  exact hsquare

theorem AgreeAt.imageNumbers_eq {filter : ImageFilter}
    (hclamp : filter = .linear → ClampsExactly state view₁) :
    view₁.imageNumbers state border filter place
      = view₂.imageNumbers state border filter place := by
  cases filter with
  | nearest => exact h.nearestNumbers_eq hpacked hread₁ hread₂ hcube hplace hface border
  | linear =>
    exact h.linearNumbers_eq hpacked hread₁ hread₂ hcube hplace hface border (hclamp rfl)

end Numbers

end LevelView

/-! ## Images in fixed point -/

namespace FixedPoint

private theorem OffsetAxis.Fits.exists_isTexel {axis : OffsetAxis} (h : axis.Fits) {o : Int32}
    (ho : axis.IsOffset o) : ∃ i, IsTexel axis.length i ∧ o = i * axis.stride := by
  obtain ⟨i, hi, ho⟩ := ho
  have hlt := axis.length.toInt_lt
  have hword : (Int32.ofInt i).toInt = i := Int32.toInt_ofInt_of_le (by omega) (by omega)
  have htexel : IsTexel axis.length (Int32.ofInt i) := by rwa [IsTexel, hword]
  refine ⟨Int32.ofInt i, htexel, ?_⟩
  rw [← Int32.toInt_inj, (h.exact _ htexel).1, hword, ho]

variable {wraps : Axes SimpleWrap} {state : StaticState} {view₁ view₂ : LevelView} {slice : Nat}
  {place : Place} {C : Type}

/-- On a cube an image depends on what is fetched in the face of its place. -/
theorem imageWith_congr_of_cube {view : LevelView} (hcube : state.target = .cube)
    (hfit : AxesFit (offsetAxes wraps state view)) {fetch₁ fetch₂ : Axes Int32 → Except Fault C}
    (hfetch : ∀ x y, (offsetAxes wraps state view).s.IsOffset x →
      (offsetAxes wraps state view).t.IsOffset y →
        fetch₁ ⟨x, y, sliceOffset state view place⟩ = fetch₂ ⟨x, y, sliceOffset state view place⟩)
    (blend : Int32 → C → C → C) (filter : ImageFilter) :
    imageWith wraps state filter view place fetch₁ blend
      = imageWith wraps state filter view place fetch₂ blend := by
  have hdims := StaticState.dims_of_cube hcube
  cases filter with
  | nearest =>
    obtain ⟨x, hx, hxo⟩ := hfit.s.exists_nearest_eq_ok
      (whole (ofCoord place.coords.s (offsetAxes wraps state view).s.length state.normalized false))
    obtain ⟨y, hy, hyo⟩ := hfit.t.exists_nearest_eq_ok
      (whole (ofCoord place.coords.t (offsetAxes wraps state view).t.length state.normalized false))
    simp only [imageWith, hdims, hx, hy]
    exact hfetch x y hxo hyo
  | linear =>
    obtain ⟨along, halong, hx₁, hx₂⟩ :=
      hfit.s.exists_straddle_eq_ok state.normalized place.coords.s
    obtain ⟨down, hdown, hy₁, hy₂⟩ :=
      hfit.t.exists_straddle_eq_ok state.normalized place.coords.t
    let row (fetch : Axes Int32 → Except Fault C) (y : Int32) : Except Fault C :=
      along.blend blend fun x ↦ fetch ⟨x, y, sliceOffset state view place⟩
    have hrow : ∀ y, (offsetAxes wraps state view).t.IsOffset y → row fetch₁ y = row fetch₂ y :=
      fun y hy ↦ Straddle.blend_congr (hfetch _ _ hx₁ hy) (hfetch _ _ hx₂ hy)
    have hsquare : down.blend blend (row fetch₁) = down.blend blend (row fetch₂) :=
      Straddle.blend_congr (hrow _ hy₁) (hrow _ hy₂)
    simp only [imageWith, hdims, halong, hdown]
    exact hsquare

private theorem offsetAxes_eq_of_agreeAt (h : view₁.AgreeAt view₂ slice) :
    offsetAxes wraps state view₂ = offsetAxes wraps state view₁ := by
  simp only [offsetAxes, LevelView.rowStride, LevelView.sliceStride, h.extent_eq, h.rowStride_eq,
    h.sliceStride_eq]

private theorem sliceOffset_eq_of_agreeAt (h : view₁.AgreeAt view₂ slice) :
    sliceOffset state view₂ place = sliceOffset state view₁ place := by
  simp only [sliceOffset, LevelView.sliceStride, h.sliceStride_eq]

theorem imageBytes_eq_of_agreeAt {e : Axes Nat} (h : view₁.AgreeAt view₂ slice)
    (haddressed : view₁.ByteAddressed state.format e)
    (hfit : AxesFit (offsetAxes wraps state view₁)) (hsix : view₁.extent.r = 6)
    (hcube : state.target = .cube) (hplace : place.IsOnFace state)
    (hface : place.face.toNatClampNeg = slice) (filter : ImageFilter) :
    imageBytes wraps state filter view₁ place = imageBytes wraps state filter view₂ place := by
  have htexel : IsTexel view₁.extent.r place.face := by
    rw [Place.IsOnFace, if_pos hcube] at hplace
    rw [hsix]
    exact hplace
  have hslice : sliceOffset state view₁ place = place.face * view₁.sliceStride := if_pos hcube
  have himage : ∀ fetch, imageWith wraps state filter view₂ place fetch mix
      = imageWith wraps state filter view₁ place fetch mix := by
    intro fetch
    simp only [imageWith, offsetAxes_eq_of_agreeAt h, sliceOffset_eq_of_agreeAt h]
  rw [imageBytes_eq_imageWith, imageBytes_eq_imageWith, himage]
  refine imageWith_congr_of_cube hcube hfit (fun x y hx hy ↦ ?_) mix filter
  obtain ⟨i, hi, rfl⟩ := hfit.s.exists_isTexel hx
  obtain ⟨j, hj, rfl⟩ := hfit.t.exists_isTexel hy
  rw [hslice]
  exact h.fetchBytes_eq (p := ⟨i, j, place.face⟩) haddressed ⟨hi, hj, htexel⟩ hface

end FixedPoint

/-! ## Levels of two surfaces -/

theorem Levels.related_ofLods {state : StaticState} {surface₁ surface₂ : Surface}
    (hlast : surface₁.lastLevel < 2 ^ 31 - 1) (heq : surface₂.lastLevel = surface₁.lastLevel)
    (lods : Option (Quad Single)) :
    Related (fun view₁ view₂ ↦ ∃ k ≤ surface₁.lastLevel,
        view₁ = .ofSurface state surface₁ (Int32.ofNat k) ∧
          view₂ = .ofSurface state surface₂ (Int32.ofNat k))
      (ofLods state surface₁ lods) (ofLods state surface₂ lods) := by
  have hlast' : surface₁.lastLevel < 2 ^ 31 := Nat.lt_of_lt_of_le hlast (by decide)
  let lod (lane : Fin 4) : Single := (lods.getD (.splat 0)).get lane
  cases hmip : state.mipFilter with
  | base =>
    simp only [ofLods, hmip]
    refine ⟨fun lane ↦ ?_, .none⟩
    rw [Quad.get_splat, Quad.get_splat]
    exact ⟨0, Nat.zero_le _, rfl, rfl⟩
  | nearest =>
    simp only [ofLods, hmip, heq]
    refine ⟨fun lane ↦ ?_, .none⟩
    obtain ⟨k, hk, hlevel⟩ := Lod.exists_nearestLevel hlast' (lod lane)
    rw [Quad.get_map, Quad.get_map, hlevel]
    exact ⟨k, hk, rfl, rfl⟩
  | linear =>
    simp only [ofLods, hmip, heq]
    refine ⟨fun lane ↦ ?_, .some fun lane ↦ ⟨?_, ?_⟩⟩ <;> simp only [Quad.get_map]
    · obtain ⟨k, hk, hlevel⟩ := Lod.exists_blend_first hlast' (lod lane)
      exact ⟨k, hk, congrArg _ hlevel, congrArg _ hlevel⟩
    · obtain ⟨k, hk, hlevel⟩ := Lod.exists_blend_second hlast (lod lane)
      exact ⟨k, hk, congrArg _ hlevel, congrArg _ hlevel⟩

/-- Two surfaces whose levels have one image in every lane are filtered to one quad. -/
theorem Levels.exists_filterByLod_eq_ok {C : Type} {state : StaticState}
    {surface₁ surface₂ : Surface} {places : Quad Place}
    (image : ImageFilter → LevelView → Place → Except Fault C) (mix : Single → C → C → C)
    (hlast : surface₁.lastLevel < 2 ^ 31 - 1) (heq : surface₂.lastLevel = surface₁.lastLevel)
    (himage : ∀ filter lane, ∀ k ≤ surface₁.lastLevel, ∃ color,
      image filter (.ofSurface state surface₁ (Int32.ofNat k)) (places.get lane) = .ok color ∧
      image filter (.ofSurface state surface₂ (Int32.ofNat k)) (places.get lane) = .ok color)
    (lods : Option (Quad Single)) :
    ∃ colors,
      filterByLod state lods (fun filter ↦
        (ofLods state surface₁ lods).filter (image filter) mix places) = .ok colors ∧
      filterByLod state lods (fun filter ↦
        (ofLods state surface₂ lods).filter (image filter) mix places) = .ok colors := by
  have hfilter : ∀ filter, (ofLods state surface₁ lods).filter (image filter) mix places
      = (ofLods state surface₂ lods).filter (image filter) mix places := by
    refine fun filter ↦ (related_ofLods hlast heq lods).filter_eq fun lane view₁ view₂ hviews ↦ ?_
    obtain ⟨k, hk, rfl, rfl⟩ := hviews
    obtain ⟨color, h₁, h₂⟩ := himage filter lane k hk
    rw [h₁, h₂]
  obtain ⟨colors, hcolors⟩ : ∃ colors, filterByLod state lods (fun filter ↦
      (ofLods state surface₁ lods).filter (image filter) mix places) = .ok colors := by
    refine QuadSampler.exists_filterByLod_eq_ok lods fun filter _ ↦ ?_
    refine exists_filter_eq_ok fun lane view hview ↦ ?_
    obtain ⟨k, hk, rfl⟩ := exists_of_reads_ofLods hlast hview
    obtain ⟨color, hcolor, -⟩ := himage filter lane k hk
    exact ⟨color, hcolor⟩
  exact ⟨colors, hcolors, filterByLod_congr rfl rfl lods hfilter ▸ hcolors⟩

/-! ## Faces of lanes -/

/-- The face of a cube that a lane samples. -/
def Request.faceOf (request : Request) (lane : Fin 4) : Nat :=
  (CubePoint.ofDirection (request.direction lane)).face.toNatClampNeg

theorem Request.faceOf_lt (request : Request) (lane : Fin 4) : request.faceOf lane < 6 := by
  obtain ⟨h0, hlt⟩ := CubePoint.face_major (request.direction lane)
  rw [faceOf, CubePoint.face_ofDirection, Int32.toNatClampNeg]
  omega

private theorem Request.toNatClampNeg_face_places (request : Request) {state : StaticState}
    (hcube : state.target = .cube) (lane : Fin 4) :
    ((request.places state).get lane).face.toNatClampNeg = request.faceOf lane := by
  rw [places, Quad.get_ofFn, if_pos hcube]
  rfl

/-! ## Two cubes -/

def Binding.withTexture (binding : Binding) (texture : Texture) : Binding :=
  { binding with texture }

section Cubes

variable {source₁ source₂ : Source} {texture₁ texture₂ : Texture}
  (hshape : source₁.SameShape source₂) (hcube : source₁.target = .cube)
  (hbuild₁ : Texture.build source₁ = .ok texture₁) (hbuild₂ : Texture.build source₂ = .ok texture₂)
  (binding : Binding) (settings : Settings)

include hshape hbuild₁ hbuild₂

private theorem Texture.layout_eq_of_sameShape {k : Nat} (hk : k < source₁.levelCount) :
    texture₁.layout k = source₁.layoutAt k (source₁.levelOffset k) ∧
      texture₂.layout k = source₁.layoutAt k (source₂.levelOffset k) := by
  have hbuilt₂ := Texture.builtFrom_of_build hbuild₂
  refine ⟨(Texture.builtFrom_of_build hbuild₁).layout_eq k hk, ?_⟩
  rw [hbuilt₂.layout_eq k (hshape.levelCount_eq.symm ▸ hk), hshape.layoutAt_eq]

private theorem Texture.view_eq_of_sameShape : texture₂.view = texture₁.view := by
  have hbuilt₁ := Texture.builtFrom_of_build hbuild₁
  have hbuilt₂ := Texture.builtFrom_of_build hbuild₂
  obtain ⟨hlayout₁, hlayout₂⟩ :=
    layout_eq_of_sameShape hshape hbuild₁ hbuild₂ source₁.levelCount_pos
  simp only [view, hlayout₁, hlayout₂, hbuilt₁.format_eq, hbuilt₂.format_eq, hbuilt₁.target_eq,
    hbuilt₂.target_eq, hshape.format_eq, hshape.target_eq]
  rfl

private theorem Binding.staticState_eq_of_sameShape :
    (binding.withTexture texture₂).staticState settings
      = (binding.withTexture texture₁).staticState settings :=
  congrArg (StaticState.derive · settings) (Texture.view_eq_of_sameShape hshape hbuild₁ hbuild₂)

theorem Binding.surface_eq_of_sameShape :
    (binding.withTexture texture₂).surface
      = { (binding.withTexture texture₁).surface with level := texture₂.levelStorage } := by
  have hextent : (texture₂.layout 0).extent = (texture₁.layout 0).extent :=
    congrArg View.extent (Texture.view_eq_of_sameShape hshape hbuild₁ hbuild₂)
  have hlast : texture₂.lastLevel = texture₁.lastLevel := by
    rw [Texture.lastLevel, Texture.lastLevel, (Texture.builtFrom_of_build hbuild₁).levelCount_eq,
      (Texture.builtFrom_of_build hbuild₂).levelCount_eq, hshape.levelCount_eq]
  simp only [surface, withTexture, hextent, hlast]

include hcube

/-- The levels of two cubes agree in the faces that their sources agree in. -/
theorem LevelView.agreeAt_ofSurface (state : StaticState) {face : Nat}
    (hface : face < source₁.extent.r) (hagree : source₁.AgreeAt source₂ face) {k : Nat}
    (hk : k < source₁.levelCount) :
    (ofSurface state (binding.withTexture texture₁).surface (Int32.ofNat k)).AgreeAt
      (ofSurface state (binding.withTexture texture₂).surface (Int32.ofNat k)) face := by
  have hbuilt₁ := Texture.builtFrom_of_build hbuild₁
  have hbuilt₂ := Texture.builtFrom_of_build hbuild₂
  have hflat : source₁.target ≠ .texture3D := by rw [hcube]; decide
  obtain ⟨hlayout₁, hlayout₂⟩ := Texture.layout_eq_of_sameShape hshape hbuild₁ hbuild₂ hk
  have hstorage₁ : (ofSurface state (binding.withTexture texture₁).surface (Int32.ofNat k)).storage
      = texture₁.levelStorage k := by
    simp only [ofSurface, hbuilt₁.toNatClampNeg_level hk]
    rfl
  have hstorage₂ : (ofSurface state (binding.withTexture texture₂).surface (Int32.ofNat k)).storage
      = texture₂.levelStorage k := by
    simp only [ofSurface, hbuilt₁.toNatClampNeg_level hk]
    rfl
  refine ⟨?_, ?_, ?_, ?_, ?_⟩
  · rw [Binding.surface_eq_of_sameShape hshape hbuild₁ hbuild₂]
    rfl
  · simp only [hstorage₁, hstorage₂, Texture.levelStorage, hlayout₁, hlayout₂]
    rfl
  · simp only [hstorage₁, hstorage₂, Texture.levelStorage, hlayout₁, hlayout₂]
    rfl
  · simp only [hstorage₁, hstorage₂, Texture.levelStorage, hbuilt₁.size_levelBytes k hk,
      hbuilt₂.size_levelBytes k (hshape.levelCount_eq.symm ▸ hk), Source.levelSize,
      hshape.layoutAt_eq]
  · simp only [hstorage₁, hstorage₂, Texture.levelStorage, hlayout₁]
    exact Texture.agreeOn_levelBytes hshape hflat hface hagree hbuild₁ hbuild₂ hk

variable {request : Request}
  (hagree : ∀ lane, source₁.AgreeAt source₂ (request.faceOf lane))
  (hsize : ∀ k < texture₁.levelCount, (texture₁.levelBytes k).size < 2 ^ 31)

include hagree hsize

private theorem LevelView.exists_imageNumbers_of_cubes (lane : Fin 4) {k : Nat}
    (hk : k < source₁.levelCount) (border : Color Single) (filter : ImageFilter) :
    let state := (binding.withTexture texture₁).staticState settings
    let place := (request.places state).get lane
    ∃ color,
      imageNumbers state border filter
        (ofSurface state (binding.withTexture texture₁).surface (Int32.ofNat k)) place = .ok color ∧
      imageNumbers state border filter
        (ofSurface state (binding.withTexture texture₂).surface (Int32.ofNat k)) place
          = .ok color := by
  intro state place
  have hbuilt₁ : (binding.withTexture texture₁).texture.BuiltFrom source₁ :=
    Texture.builtFrom_of_build hbuild₁
  have hbuilt₂ : (binding.withTexture texture₂).texture.BuiltFrom source₂ :=
    Texture.builtFrom_of_build hbuild₂
  have hstate : state.target = .cube := hbuilt₁.target_eq.trans hcube
  have hsize₀ := hsize 0 texture₁.levelCount_pos
  have hlt := hbuilt₁.extent_lt hsize₀
  obtain ⟨hs, ht, hsix⟩ := hbuilt₁.extent_of_cube hcube hsize₀
  have hpacked := packed_ofSurface hbuilt₁ state hbuilt₁.target_eq hlt hk
  have hread₁ : Readable state
      (ofSurface state (binding.withTexture texture₁).surface (Int32.ofNat k)) :=
    readable_ofSurface hbuilt₁ settings hlt hk
  have hread₂ : Readable state
      (ofSurface state (binding.withTexture texture₂).surface (Int32.ofNat k)) := by
    have hread := readable_ofSurface hbuilt₂ settings (hshape.extent_eq.symm ▸ hlt)
      (hshape.levelCount_eq.symm ▸ hk)
    rwa [Binding.staticState_eq_of_sameShape hshape hbuild₁ hbuild₂] at hread
  have hclamp : ClampsExactly state
      (ofSurface state (binding.withTexture texture₁).surface (Int32.ofNat k)) :=
    clampsExactly_ofSurface_of_le hbuilt₁ hlt
      ⟨fun _ ↦ by omega, fun _ ↦ by omega, fun _ ↦ by omega⟩ hk
  have hlevels := agreeAt_ofSurface hshape hcube hbuild₁ hbuild₂ binding state
    (hsix.symm ▸ request.faceOf_lt lane) (hagree lane) hk
  have hformat : state.format.info = source₁.format.info :=
    congrArg PixelFormat.info hbuilt₁.format_eq
  have hplace := request.isOnFace_places state lane
  have hface := request.toNatClampNeg_face_places hstate lane
  obtain ⟨color, hcolor⟩ := hread₁.exists_imageNumbers_eq_ok hplace (fun _ ↦ hclamp) border
  refine ⟨color, hcolor, ?_⟩
  rw [← hlevels.imageNumbers_eq (hformat ▸ hpacked) hread₁ hread₂ hstate hplace hface border
    fun _ ↦ hclamp]
  exact hcolor

private theorem FixedPoint.exists_imageBytes_of_cubes (lane : Fin 4) {k : Nat}
    (hk : k < source₁.levelCount) {wraps : Axes SimpleWrap}
    (hwraps : SimpleWrap.ofState? ((binding.withTexture texture₁).staticState settings)
      = some wraps) (filter : ImageFilter) :
    let state := (binding.withTexture texture₁).staticState settings
    let place := (request.places state).get lane
    ∃ color,
      imageBytes wraps state filter
        (.ofSurface state (binding.withTexture texture₁).surface (Int32.ofNat k)) place
          = .ok color ∧
      imageBytes wraps state filter
        (.ofSurface state (binding.withTexture texture₂).surface (Int32.ofNat k)) place
          = .ok color := by
  intro state place
  have hbuilt₁ : (binding.withTexture texture₁).texture.BuiltFrom source₁ :=
    Texture.builtFrom_of_build hbuild₁
  have hstate : state.target = .cube := hbuilt₁.target_eq.trans hcube
  have hsize₀ := hsize 0 texture₁.levelCount_pos
  have hlt := hbuilt₁.extent_lt hsize₀
  obtain ⟨-, -, hsix⟩ := hbuilt₁.extent_of_cube hcube hsize₀
  have hformat : state.format = source₁.format := hbuilt₁.format_eq
  have hfits := SimpleWrap.fitsBytes_of_ofState? hwraps
  have haddressed : LevelView.ByteAddressed
      (.ofSurface state (binding.withTexture texture₁).surface (Int32.ofNat k)) state.format
      (source₁.extentAt k) := by
    rw [hformat]
    exact LevelView.byteAddressed_ofSurface hbuilt₁ state hbuilt₁.target_eq hlt (hformat ▸ hfits)
      hk (hsize k (hbuilt₁.levelCount_eq.symm ▸ hk))
  obtain ⟨hs, ht, hr⟩ := soundLength_ofSurface hbuilt₁ settings hlt hk
  have hlevels := LevelView.agreeAt_ofSurface hshape hcube hbuild₁ hbuild₂ binding state
    (hsix.symm ▸ request.faceOf_lt lane) (hagree lane) hk
  have hfit : AxesFit (offsetAxes wraps state
      (.ofSurface state (binding.withTexture texture₁).surface (Int32.ofNat k))) :=
    axesFit_of_byteAddressed haddressed hs ht hr
  have hplace := request.isOnFace_places state lane
  have hface := request.toNatClampNeg_face_places hstate lane
  have hslice := isOffset_sliceOffset hfit (fun _ ↦ if_pos hstate) hplace
  obtain ⟨color, hcolor⟩ := exists_imageBytes_eq_ok haddressed hfit hslice filter
  refine ⟨color, hcolor, ?_⟩
  rw [← imageBytes_eq_of_agreeAt hlevels haddressed hfit (if_pos hstate) hstate hplace hface filter]
  exact hcolor

end Cubes

/-- **Cube faces do not bleed.** Two cubes of one shape are built from sources whose bytes agree, in
every level that the sources carry, on each face that some lane of a request samples. Bound alike,
with levels of fewer than `2 ^ 31` bytes, they have one static state under any settings, and on
every path that serves it the request is answered with the same colours on both, whatever the bytes
of the other faces. -/
theorem cube_faces_isolated {source₁ source₂ : Source} {texture₁ texture₂ : Texture}
    {binding : Binding} {units₁ units₂ : TextureUnits} {request : Request} {settings : Settings}
    {path : Path} (hshape : source₁.SameShape source₂) (hcube : source₁.target = .cube)
    (hbuild₁ : Texture.build source₁ = .ok texture₁)
    (hbuild₂ : Texture.build source₂ = .ok texture₂)
    (hsize : ∀ k < texture₁.levelCount, (texture₁.levelBytes k).size < 2 ^ 31)
    (hunit₁ : units₁.get? request.unit = some (binding.withTexture texture₁))
    (hunit₂ : units₂.get? request.unit = some (binding.withTexture texture₂))
    (hpath : path.Serves ((binding.withTexture texture₁).staticState settings))
    (hagree : ∀ lane, source₁.AgreeAt source₂ (request.faceOf lane)) :
    let state := (binding.withTexture texture₁).staticState settings
    (binding.withTexture texture₂).staticState settings = state ∧
    ∃ colors,
      Sampler.sample ⟨state, path⟩ (units₁.surface request.unit) request = .ok colors ∧
      Sampler.sample ⟨state, path⟩ (units₂.surface request.unit) request = .ok colors := by
  intro state
  refine ⟨Binding.staticState_eq_of_sameShape hshape hbuild₁ hbuild₂ binding settings, ?_⟩
  rw [TextureUnits.surface_of_get?_eq_some hunit₁, TextureUnits.surface_of_get?_eq_some hunit₂]
  let surface₁ := (binding.withTexture texture₁).surface
  let surface₂ := (binding.withTexture texture₂).surface
  have hsurface : surface₂ = { surface₁ with level := texture₂.levelStorage } :=
    Binding.surface_eq_of_sameShape hshape hbuild₁ hbuild₂ binding
  have hbuilt := Texture.builtFrom_of_build hbuild₁
  have hlast : surface₁.lastLevel < 2 ^ 31 - 1 := hbuilt.lastLevel_lt
  have hlast₂ : surface₂.lastLevel = surface₁.lastLevel := by rw [hsurface]
  have hborder : surface₂.border = surface₁.border := by rw [hsurface]
  have hcount : surface₁.lastLevel + 1 = source₁.levelCount := hbuilt.lastLevel_add_one
  have hlevel : ∀ k ≤ surface₁.lastLevel, k < source₁.levelCount := fun k hk ↦ by omega
  let places := request.places state
  let lods := request.lods state surface₁ places
  have hlods : request.lods state surface₂ places = lods := by rw [hsurface]; rfl
  cases path with
  | white => exact hpath.elim
  | numbers =>
    obtain ⟨colors, h₁, h₂⟩ := Levels.exists_filterByLod_eq_ok
      (LevelView.imageNumbers state surface₁.border) lerpColor hlast hlast₂
      (fun filter lane k hk ↦ LevelView.exists_imageNumbers_of_cubes hshape hcube hbuild₁ hbuild₂
        binding settings hagree hsize lane (hlevel k hk) surface₁.border filter) lods
    rw [← hborder, ← hlods] at h₂
    exact ⟨_, bind_eq_ok.2 ⟨colors, h₁, rfl⟩, bind_eq_ok.2 ⟨colors, h₂, rfl⟩⟩
  | fixedPoint wraps =>
    obtain ⟨colors, h₁, h₂⟩ := Levels.exists_filterByLod_eq_ok
      (FixedPoint.imageBytes wraps state) FixedPoint.mixLevels hlast hlast₂
      (fun filter lane k hk ↦ FixedPoint.exists_imageBytes_of_cubes hshape hcube hbuild₁ hbuild₂
        binding settings hagree hsize lane (hlevel k hk) hpath filter) lods
    rw [← hlods] at h₂
    exact ⟨_, bind_eq_ok.2 ⟨colors, h₁, rfl⟩, bind_eq_ok.2 ⟨colors, h₂, rfl⟩⟩

/-! ## Two small cubes -/

/-- A cube of faces of two by two bytes. The first face goes from dark to light, and the bytes of
all others are one. -/
def Source.otherFaces (others : UInt8) : Source :=
  ((Source.flat ⟨#[10, 20, 30, 40] ++ Array.replicate 20 others⟩ 2 2 .l8Unorm).withTarget .cube
    6).withFurther .generated

/-- The texture of the cube, whose second level has one byte for each face. -/
def Texture.otherFaces (others : UInt8) : Texture where
  bytes := ⟨#[10, 20, 30, 40] ++ Array.replicate 20 others ++ #[25] ++ Array.replicate 5 others⟩
  layouts := [⟨⟨2, 2, 6⟩, 0, 2, 4⟩, ⟨⟨1, 1, 6⟩, 24, 1, 1⟩]
  format := .l8Unorm
  target := .cube
  layouts_ne_nil := List.cons_ne_nil _ _

theorem build_otherFaces_dark : Texture.build (.otherFaces 0) = .ok (.otherFaces 0) := rfl

theorem build_otherFaces_light : Texture.build (.otherFaces 255) = .ok (.otherFaces 255) := rfl

private theorem Source.sameShape_otherFaces (others₁ others₂ : UInt8) :
    (otherFaces others₁).SameShape (otherFaces others₂) := by
  -- each side is evaluated on its own, so that the bytes are never compared
  have hformat : ∀ others, (otherFaces others).format = .l8Unorm := fun _ ↦ rfl
  have htarget : ∀ others, (otherFaces others).target = .cube := fun _ ↦ rfl
  have hextent : ∀ others, (otherFaces others).extent = ⟨2, 2, 6⟩ := fun _ ↦ rfl
  have hfurther : ∀ others, (otherFaces others).further = .generated := fun _ ↦ rfl
  refine ⟨by rw [hformat, hformat], by rw [htarget, htarget], by rw [hextent, hextent], ?_⟩
  rw [hfurther, hfurther]
  exact .generated

private theorem Source.agreeAt_otherFaces : (otherFaces 0).AgreeAt (otherFaces 255) 0 := by
  have hfirst : ∀ n, n < 4 →
      Storage.byteAt (otherFaces 0).texels n = Storage.byteAt (otherFaces 255).texels n := by
    decide +kernel
  intro level bytes₁ bytes₂ h₁ h₂
  cases level with
  | zero =>
    obtain rfl := Option.some.inj h₁
    obtain rfl := Option.some.inj h₂
    exact fun n _ hn ↦ hfirst n hn
  | succ level => exact nomatch h₁

def Settings.bordered : Settings where
  wrap := .splat .clampToBorder
  minFilter := .linear
  magFilter := .linear
  mipFilter := .linear
  compareMode := .off
  compareFunc := .never
  normalized := true
  minLod := 0
  maxLod := 1
  lodBias := 0
  border := .splat 1

def TextureUnits.otherFaces (others : UInt8) : TextureUnits :=
  ⟨.replicate maxUnits (some ((Binding.ofSettings (.otherFaces 0) .bordered).withTexture
    (.otherFaces others)))⟩

/-- A corner of the first face and the border beside it, of two cubes that differ in all other
faces. -/
theorem cube_faces_isolated_other_faces :
    let state := (Binding.ofSettings (.otherFaces 0) .bordered).staticState .bordered
    let request := Request.ofCoords 0 [.splat 1, .splat 1, .splat 1]
      (.explicit (.splat Single.half))
    ∃ colors,
      Sampler.sample ⟨state, .numbers⟩ ((TextureUnits.otherFaces 0).surface 0) request
        = .ok colors ∧
      Sampler.sample ⟨state, .numbers⟩ ((TextureUnits.otherFaces 255).surface 0) request
        = .ok colors := by
  intro state request
  have hsize : ∀ k < (Texture.otherFaces 0).levelCount,
      ((Texture.otherFaces 0).levelBytes k).size < 2 ^ 31 := by
    decide +kernel
  have hface : ∀ lane, request.faceOf lane = 0 := by decide +kernel
  have hagree : ∀ lane, (Source.otherFaces 0).AgreeAt (.otherFaces 255) (request.faceOf lane) := by
    intro lane
    rw [hface]
    exact Source.agreeAt_otherFaces
  have hunit : ∀ others, (TextureUnits.otherFaces others).get? request.unit
      = some ((Binding.ofSettings (.otherFaces 0) .bordered).withTexture (.otherFaces others)) :=
    fun _ ↦ rfl
  have hpath : Path.numbers.Serves
      (((Binding.ofSettings (.otherFaces 0) .bordered).withTexture (.otherFaces 0)).staticState
        .bordered) := trivial
  exact (cube_faces_isolated (Source.sameShape_otherFaces 0 255) rfl build_otherFaces_dark
    build_otherFaces_light hsize (hunit 0) (hunit 255) hpath hagree).2

end QuadSampler
