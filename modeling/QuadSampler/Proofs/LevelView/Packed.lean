import Mathlib.Tactic.Linarith
import Mathlib.Tactic.Ring
import QuadSampler.LevelView
import QuadSampler.Proofs.Addressing.Index
import QuadSampler.Proofs.Texture.Storage
import QuadSampler.Texture.Units

/-!
# Packed levels

A texture that was built stores each of its levels without gaps: blocks in rows, rows in slices,
slices in the level. `LevelView.Packed` says so of a view, in terms of the extents of the level.
The address that a fetch computes from two strides is then the number of a block times the size of
a block (`Packed.blockOffset_eq`), and blocks of texels of the level lie in its storage.

Extents are natural numbers in a texture and 32-bit words in a view. They agree below `2 ^ 31`;
`Texture.BuiltFrom.extent_lt` shows that a first level of fewer than `2 ^ 31` bytes has such
extents.
-/

namespace QuadSampler

/-! ## Blocks -/

namespace PixelFormat

variable (f : PixelFormat)

private theorem blockWidth_pos : 0 < f.info.block.width := by
  cases f <;> decide

theorem blockHeight_pos : 0 < f.info.block.height := by
  cases f <;> decide

private theorem blockWidth_le : f.info.block.width ≤ f.info.bytesPerBlock := by
  cases f <;> decide

private theorem blockHeight_le : f.info.block.height ≤ f.info.bytesPerBlock := by
  cases f <;> decide

theorem bytesPerBlock_pos : 0 < f.info.bytesPerBlock := by
  cases f <;> decide

theorem bytesPerBlock_le : f.info.bytesPerBlock ≤ 16 := by
  cases f <;> decide

end PixelFormat

namespace FormatInfo

/-- The number of blocks in a row of a level. -/
def blocksAcross (f : FormatInfo) (width : Nat) : Nat := (width + f.block.width - 1) / f.block.width

/-- The number of rows of blocks in a slice of a level. -/
def blocksDown (f : FormatInfo) (height : Nat) : Nat :=
  (height + f.block.height - 1) / f.block.height

/-- The number of the block of a texel: blocks are counted along the rows, then down the rows, then
through the slices. -/
def blockNumber (f : FormatInfo) (extent : Axes Nat) (x y z : Nat) : Nat :=
  (z * f.blocksDown extent.t + y / f.block.height) * f.blocksAcross extent.s + x / f.block.width

end FormatInfo

private theorem div_lt_ceilDiv {i length b : Nat} (hb : 0 < b) (h : i < length) :
    i / b < (length + b - 1) / b := by
  rw [Nat.div_lt_iff_lt_mul hb]
  have := Nat.lt_div_mul_add (a := length + b - 1) hb
  omega

private theorem le_ceilDiv_mul (length : Nat) {b : Nat} (hb : 0 < b) :
    length ≤ (length + b - 1) / b * b := by
  have := Nat.lt_div_mul_add (a := length + b - 1) hb
  omega

theorem row_mul_add_lt {i j w h : Nat} (hi : i < w) (hj : j < h) : j * w + i < h * w := by
  calc j * w + i < j * w + w := Nat.add_lt_add_left hi _
    _ = (j + 1) * w := by rw [Nat.succ_mul]
    _ ≤ h * w := Nat.mul_le_mul_right w hj

private theorem blockNumber_lt (f : PixelFormat) {e : Axes Nat} {x y z : Nat} (hx : x < e.s)
    (hy : y < e.t) (hz : z < e.r) :
    f.info.blockNumber e x y z < e.r * f.info.blocksDown e.t * f.info.blocksAcross e.s :=
  row_mul_add_lt (div_lt_ceilDiv f.blockWidth_pos hx)
    (row_mul_add_lt (div_lt_ceilDiv f.blockHeight_pos hy) hz)

/-! ## Packed views -/

/-- A level of the given extents that lies in its storage without gaps. -/
structure LevelView.Packed (view : LevelView) (f : FormatInfo) (e : Axes Nat) : Prop where
  extent_eq : view.extent = e.map Int32.ofNat
  rowStride_eq : view.storage.rowStride = f.blocksAcross e.s * f.bytesPerBlock
  sliceStride_eq : view.storage.sliceStride = view.storage.rowStride * f.blocksDown e.t
  size_eq : view.storage.bytes.size = view.storage.sliceStride * e.r
  lt_s : e.s < 2 ^ 31
  lt_t : e.t < 2 ^ 31
  lt_r : e.r < 2 ^ 31

/-- Whether indices are those of a texel of the level. -/
structure LevelView.Inside (view : LevelView) (p : Axes Int32) : Prop where
  s : IsTexel view.extent.s p.s
  t : IsTexel view.extent.t p.t
  r : IsTexel view.extent.r p.r

theorem IsTexel.toNatClampNeg_lt {i : Int32} {length : Nat} (hlt : length < 2 ^ 31)
    (h : IsTexel (Int32.ofNat length) i) :
    i.toNatClampNeg < length ∧ i.toInt = i.toNatClampNeg := by
  obtain ⟨h0, h1⟩ := h
  rw [Int32.toInt_ofNat_of_lt hlt] at h1
  rw [Int32.toNatClampNeg]
  omega

namespace LevelView.Packed

variable {view : LevelView} {e : Axes Nat} {p : Axes Int32}

theorem map_toInt_extent {f : FormatInfo} (h : view.Packed f e) :
    view.extent.map Int32.toInt = e.map Nat.cast := by
  simp only [h.extent_eq, Axes.map, Int32.toInt_ofNat_of_lt h.lt_s,
    Int32.toInt_ofNat_of_lt h.lt_t, Int32.toInt_ofNat_of_lt h.lt_r]

theorem lt_of_inside {f : FormatInfo} (h : view.Packed f e) (hp : view.Inside p) :
    p.s.toNatClampNeg < e.s ∧ p.t.toNatClampNeg < e.t ∧ p.r.toNatClampNeg < e.r := by
  have hs := hp.s
  have ht := hp.t
  have hr := hp.r
  rw [h.extent_eq] at hs ht hr
  exact ⟨(hs.toNatClampNeg_lt h.lt_s).1, (ht.toNatClampNeg_lt h.lt_t).1,
    (hr.toNatClampNeg_lt h.lt_r).1⟩

theorem address_eq {f : FormatInfo} (h : view.Packed f e) (x y z : Nat) :
    x / f.block.width * f.bytesPerBlock + y / f.block.height * view.storage.rowStride
        + z * view.storage.sliceStride
      = f.blockNumber e x y z * f.bytesPerBlock := by
  rw [FormatInfo.blockNumber, h.sliceStride_eq, h.rowStride_eq]
  ring

/-- The blocks of all texels lie in the storage. -/
theorem blockNumber_mul_add_le {f : PixelFormat} (h : view.Packed f.info e) {x y z : Nat}
    (hx : x < e.s) (hy : y < e.t) (hz : z < e.r) :
    f.info.blockNumber e x y z * f.info.bytesPerBlock + f.info.bytesPerBlock
      ≤ view.storage.bytes.size := by
  rw [h.size_eq, h.sliceStride_eq, h.rowStride_eq]
  calc f.info.blockNumber e x y z * f.info.bytesPerBlock + f.info.bytesPerBlock
      = (f.info.blockNumber e x y z + 1) * f.info.bytesPerBlock := by rw [Nat.succ_mul]
    _ ≤ e.r * f.info.blocksDown e.t * f.info.blocksAcross e.s * f.info.bytesPerBlock :=
        Nat.mul_le_mul_right _ (blockNumber_lt f hx hy hz)
    _ = f.info.blocksAcross e.s * f.info.bytesPerBlock * f.info.blocksDown e.t * e.r := by ring

theorem blockOffset_eq {f : FormatInfo} (h : view.Packed f e) (p : Axes Int32) :
    view.blockOffset f p
      = f.blockNumber e p.s.toNatClampNeg p.t.toNatClampNeg p.r.toNatClampNeg
          * f.bytesPerBlock := h.address_eq _ _ _

theorem blockOffset_add_le {f : PixelFormat} (h : view.Packed f.info e) (hp : view.Inside p) :
    view.blockOffset f.info p + f.info.bytesPerBlock ≤ view.storage.bytes.size := by
  obtain ⟨hx, hy, hz⟩ := h.lt_of_inside hp
  rw [h.blockOffset_eq]
  exact h.blockNumber_mul_add_le hx hy hz

theorem blockOffset_in_slice {f : PixelFormat} (h : view.Packed f.info e) (hp : view.Inside p) :
    p.r.toNatClampNeg * view.storage.sliceStride ≤ view.blockOffset f.info p ∧
      view.blockOffset f.info p + f.info.bytesPerBlock
        ≤ p.r.toNatClampNeg * view.storage.sliceStride + view.storage.sliceStride := by
  obtain ⟨hx, hy, -⟩ := h.lt_of_inside hp
  have hcolumn : (p.s.toNatClampNeg / f.info.block.width + 1) * f.info.bytesPerBlock
      ≤ view.storage.rowStride := by
    rw [h.rowStride_eq]
    exact Nat.mul_le_mul_right _ (div_lt_ceilDiv f.blockWidth_pos hx)
  have hrow : (p.t.toNatClampNeg / f.info.block.height + 1) * view.storage.rowStride
      ≤ view.storage.sliceStride := by
    rw [h.sliceStride_eq, Nat.mul_comm view.storage.rowStride]
    exact Nat.mul_le_mul_right _ (div_lt_ceilDiv f.blockHeight_pos hy)
  rw [Nat.succ_mul] at hcolumn hrow
  rw [LevelView.blockOffset]
  omega

end LevelView.Packed

/-! ## Views of built textures -/

namespace Source

variable {source : Source}

theorem extentAt_zero (hs : 0 < source.extent.s) (ht : 0 < source.extent.t)
    (hr : 0 < source.extent.r) : source.extentAt 0 = source.extent := by
  rw [extentAt, levelExtent_zero hs, levelExtent_zero ht, levelExtent_zero hr, ite_self]

private theorem levelSize_eq (source : Source) (level : Nat) :
    source.levelSize level
      = source.format.info.blocksAcross (source.extentAt level).s
          * source.format.info.bytesPerBlock
        * source.format.info.blocksDown (source.extentAt level).t
        * (source.extentAt level).r := rfl

end Source

namespace Texture.BuiltFrom

variable {texture : Texture} {source : Source}

/-- A level of fewer than `2 ^ 31` bytes has extents below `2 ^ 31`: blocks have at least as many
bytes as texels along an axis. -/
theorem extent_lt (h : texture.BuiltFrom source) (hsize : (texture.levelBytes 0).size < 2 ^ 31) :
    source.extent.s < 2 ^ 31 ∧ source.extent.t < 2 ^ 31 ∧ source.extent.r < 2 ^ 31 := by
  rw [h.size_levelBytes 0 source.levelCount_pos, Source.levelSize_eq,
    Source.extentAt_zero h.pos_s h.pos_t h.pos_r] at hsize
  have hw := le_ceilDiv_mul source.extent.s source.format.blockWidth_pos
  have hh := le_ceilDiv_mul source.extent.t source.format.blockHeight_pos
  have hwb := source.format.blockWidth_le
  have hhb := source.format.blockHeight_le
  have hb := source.format.bytesPerBlock_pos
  have hs := h.pos_s
  have ht := h.pos_t
  have hr := h.pos_r
  rw [FormatInfo.blocksAcross, FormatInfo.blocksDown] at hsize
  -- of the ceiling quotients only that they cover the extents matters
  generalize (source.extent.s + source.format.info.block.width - 1)
    / source.format.info.block.width = across at hw hsize
  generalize (source.extent.t + source.format.info.block.height - 1)
    / source.format.info.block.height = down at hh hsize
  have hacross : 0 < across := Nat.pos_of_ne_zero fun h0 ↦ by rw [h0] at hw; omega
  have hdown : 0 < down := Nat.pos_of_ne_zero fun h0 ↦ by rw [h0] at hh; omega
  refine ⟨lt_of_le_of_lt ?_ hsize, lt_of_le_of_lt ?_ hsize, lt_of_le_of_lt ?_ hsize⟩
  · calc source.extent.s ≤ across * source.format.info.bytesPerBlock :=
          hw.trans (Nat.mul_le_mul_left _ hwb)
      _ ≤ across * source.format.info.bytesPerBlock * down := Nat.le_mul_of_pos_right _ hdown
      _ ≤ _ := Nat.le_mul_of_pos_right _ hr
  · calc source.extent.t ≤ source.format.info.bytesPerBlock * down := by
          rw [Nat.mul_comm]
          exact hh.trans (Nat.mul_le_mul_left _ hhb)
      _ ≤ across * (source.format.info.bytesPerBlock * down) := Nat.le_mul_of_pos_left _ hacross
      _ = across * source.format.info.bytesPerBlock * down := by rw [Nat.mul_assoc]
      _ ≤ _ := Nat.le_mul_of_pos_right _ hr
  · exact Nat.le_mul_of_pos_left _ (by positivity)

theorem extent_of_cube (h : texture.BuiltFrom source) (hcube : source.target = .cube)
    (hsize : (texture.levelBytes 0).size < 2 ^ 31) :
    source.extent.s ≤ 2 ^ 23 ∧ source.extent.t ≤ 2 ^ 23 ∧ source.extent.r = 6 := by
  have hvalid := h.hasValidExtent
  simp only [Source.hasValidExtent, hcube, Bool.and_eq_true, beq_iff_eq] at hvalid
  obtain ⟨hsquare, hsix⟩ := hvalid
  rw [h.size_levelBytes 0 source.levelCount_pos, Source.levelSize_eq,
    Source.extentAt_zero h.pos_s h.pos_t h.pos_r, ← hsquare, hsix, FormatInfo.blocksAcross,
    FormatInfo.blocksDown] at hsize
  have hw := (le_ceilDiv_mul source.extent.s source.format.blockWidth_pos).trans
    (Nat.mul_le_mul_left _ source.format.blockWidth_le)
  have hh := (le_ceilDiv_mul source.extent.s source.format.blockHeight_pos).trans
    (Nat.mul_le_mul_left _ (source.format.blockHeight_le.trans source.format.bytesPerBlock_le))
  generalize (source.extent.s + source.format.info.block.width - 1)
    / source.format.info.block.width * source.format.info.bytesPerBlock = across at hw hsize
  generalize (source.extent.s + source.format.info.block.height - 1)
    / source.format.info.block.height = down at hh hsize
  have hside : source.extent.s ≤ 2 ^ 23 := by
    by_contra hlong
    have harea : 2 ^ 23 * 2 ^ 19 ≤ across * down := Nat.mul_le_mul (by omega) (by omega)
    omega
  exact ⟨hside, hsquare ▸ hside, hsix⟩

theorem lastLevel_add_one (h : texture.BuiltFrom source) :
    texture.lastLevel + 1 = source.levelCount := by
  rw [← h.levelCount_eq]
  exact Nat.sub_add_cancel texture.levelCount_pos

theorem lastLevel_lt (h : texture.BuiltFrom source) : texture.lastLevel < 2 ^ 31 - 1 := by
  have hmax : maxLevels < 2 ^ 31 - 1 := by decide
  have := h.lastLevel_add_one
  have := h.levelCount_le
  omega

theorem toNatClampNeg_level (h : texture.BuiltFrom source) {k : Nat} (hk : k < source.levelCount) :
    (Int32.ofNat k).toNatClampNeg = k := by
  have := h.lastLevel_add_one
  have := h.lastLevel_lt
  exact Int32.toNatClampNeg_ofNat_of_lt (by omega)

end Texture.BuiltFrom

namespace Source

variable {source : Source}

theorem extentAt_s_le (hs : 0 < source.extent.s) (k : Nat) :
    (source.extentAt k).s ≤ source.extent.s := levelExtent_le hs k

theorem extentAt_t_le (ht : 0 < source.extent.t) (k : Nat) :
    (source.extentAt k).t ≤ source.extent.t := levelExtent_le ht k

theorem extentAt_r_le (hr : 0 < source.extent.r) (k : Nat) :
    (source.extentAt k).r ≤ source.extent.r := by
  rw [extentAt]
  split
  · exact levelExtent_le hr k
  · exact le_refl _

theorem extentAt_lt {n : Nat}
    (hpos : 0 < source.extent.s ∧ 0 < source.extent.t ∧ 0 < source.extent.r)
    (hlt : source.extent.s < n ∧ source.extent.t < n ∧ source.extent.r < n) (k : Nat) :
    (source.extentAt k).s < n ∧ (source.extentAt k).t < n ∧ (source.extentAt k).r < n :=
  ⟨lt_of_le_of_lt (extentAt_s_le hpos.1 k) hlt.1, lt_of_le_of_lt (extentAt_t_le hpos.2.1 k) hlt.2.1,
    lt_of_le_of_lt (extentAt_r_le hpos.2.2 k) hlt.2.2⟩

end Source

theorem TextureUnits.surface_of_get?_eq_some {units : TextureUnits} {unit : Nat} {binding : Binding}
    (h : units.get? unit = some binding) : units.surface unit = binding.surface := by
  rw [surface, h]

theorem TextureUnits.surface_of_get?_eq_none {units : TextureUnits} {unit : Nat}
    (h : units.get? unit = none) : units.surface unit = .unbound := by
  rw [surface, h]

section Bound

variable {binding : Binding} {source : Source} {state : StaticState}

theorem surface_extent_eq (h : binding.texture.BuiltFrom source) :
    binding.surface.extent = source.extent := by
  rw [Binding.surface_extent, h.layout_eq 0 source.levelCount_pos, Source.layoutAt_extent]
  exact Source.extentAt_zero h.pos_s h.pos_t h.pos_r

/-- A view of a bound texture has the extents that the texture was laid out with. Axes that the
target does not address have length one in both, and cubes keep their six faces. -/
theorem extent_ofSurface (h : binding.texture.BuiltFrom source)
    (hstate : state.target = source.target) {k : Nat} (hk : k < source.levelCount) :
    (LevelView.ofSurface state binding.surface (Int32.ofNat k)).extent
      = (source.extentAt k).map Int32.ofNat := by
  have hvalid := h.hasValidExtent
  rw [Source.hasValidExtent] at hvalid
  simp only [LevelView.ofSurface, surface_extent_eq h, h.toNatClampNeg_level hk, StaticState.dims,
    hstate, Source.extentAt, Axes.map]
  cases htarget : source.target with
  | texture1D =>
    simp only [htarget, Bool.and_eq_true, beq_iff_eq] at hvalid
    simp [Target.dims, hvalid.1, hvalid.2, levelExtent_one]
  | texture2D | rect =>
    simp only [htarget, beq_iff_eq] at hvalid
    simp [Target.dims, hvalid]
  | texture3D => simp [Target.dims]
  | cube =>
    simp only [htarget, Bool.and_eq_true, beq_iff_eq] at hvalid
    simp [Target.dims, hvalid.2]

theorem packed_ofSurface (h : binding.texture.BuiltFrom source) (state : StaticState)
    (hstate : state.target = source.target)
    (hlt : source.extent.s < 2 ^ 31 ∧ source.extent.t < 2 ^ 31 ∧ source.extent.r < 2 ^ 31)
    {k : Nat} (hk : k < source.levelCount) :
    (LevelView.ofSurface state binding.surface (Int32.ofNat k)).Packed source.format.info
      (source.extentAt k) := by
  have hstorage : (LevelView.ofSurface state binding.surface (Int32.ofNat k)).storage
      = binding.texture.levelStorage k := by
    simp only [LevelView.ofSurface, h.toNatClampNeg_level hk]
    rfl
  obtain ⟨hs, ht, hr⟩ := Source.extentAt_lt ⟨h.pos_s, h.pos_t, h.pos_r⟩ hlt k
  refine ⟨extent_ofSurface h hstate hk, ?_, ?_, ?_, hs, ht, hr⟩
  · simp only [hstorage, Texture.levelStorage, h.layout_eq k hk]
    rfl
  · simp only [hstorage, Texture.levelStorage, h.layout_eq k hk]
    rfl
  · simp only [hstorage, Texture.levelStorage, h.layout_eq k hk, h.size_levelBytes k hk]
    rfl

/-- Repetition can rely on the flags of a derived state at every level. -/
theorem soundLength_ofSurface (h : binding.texture.BuiltFrom source) (settings : Settings)
    (hlt : source.extent.s < 2 ^ 31 ∧ source.extent.t < 2 ^ 31 ∧ source.extent.r < 2 ^ 31)
    {k : Nat} (hk : k < source.levelCount) :
    let state := binding.staticState settings
    let view := LevelView.ofSurface state binding.surface (Int32.ofNat k)
    SoundLength view.extent.s state.powerOfTwo.s ∧ SoundLength view.extent.t state.powerOfTwo.t ∧
      SoundLength view.extent.r state.powerOfTwo.r := by
  intro state view
  have hextent : view.extent = (source.extentAt k).map Int32.ofNat :=
    extent_ofSurface h h.target_eq hk
  have hflags : state.powerOfTwo = source.extent.map isPowerOfTwo := by
    rw [← surface_extent_eq h]
    rfl
  rw [hextent, hflags]
  refine ⟨soundLength_levelExtent h.pos_s hlt.1 k, soundLength_levelExtent h.pos_t hlt.2.1 k, ?_⟩
  by_cases hvolume : source.target = .texture3D
  · simp only [Source.extentAt, Axes.map, if_pos hvolume]
    exact soundLength_levelExtent h.pos_r hlt.2.2 k
  · have hsound := soundLength_levelExtent h.pos_r hlt.2.2 0
    rw [levelExtent_zero h.pos_r] at hsound
    simpa only [Source.extentAt, Axes.map, if_neg hvolume] using hsound

end Bound

/-! ## A bound texture -/

/-- Plain settings: coordinates repeat, and each lane reads the nearest texel of the first level. -/
def Settings.plain : Settings where
  wrap := .splat .repeating
  minFilter := .nearest
  magFilter := .nearest
  mipFilter := .base
  compareMode := .off
  compareFunc := .never
  normalized := true
  minLod := 0
  maxLod := 0
  lodBias := 0
  border := .splat 0

def Binding.checker : Binding := .ofSettings .checker .plain

def TextureUnits.checker : TextureUnits := ⟨.replicate maxUnits (some .checker)⟩

end QuadSampler
