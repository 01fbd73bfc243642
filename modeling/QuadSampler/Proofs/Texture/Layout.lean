import Mathlib.Algebra.Order.Floor.Div
import QuadSampler.Proofs.Addressing.Index
import QuadSampler.Proofs.Texture.Storage

/-!
# Where the levels of a texture lie

The levels of a texture that was built fill its storage one behind the other, each with the extents,
rows and slices that the first level and the format give it. This module says so in closed form.

## How long a chain of averaged levels is

A level is down to a single texel when its greatest extent is, and after `k` halvings an extent is
one exactly if it began below `2 ^ (k + 1)` (`levelExtent_eq_one_iff`). So the chain ends at the
binary logarithm of the greatest extent and not before, unless it is cut at `maxLevels` levels.
Only axes that shrink count: the faces of a cube are six at every level.
-/

namespace QuadSampler

/-! ## Extents of a level -/

theorem levelExtent_eq_max {k : Nat} (hk : k ≤ 31) (base : Nat) :
    levelExtent base k = max (base >>> k) 1 := by
  rw [levelExtent, Nat.min_eq_left hk, Nat.shiftRight_eq_div_pow]

theorem levelExtent_eq_one_iff {k : Nat} (hk : k ≤ 31) (base : Nat) :
    levelExtent base k = 1 ↔ base < 2 ^ (k + 1) := by
  have hhalf : base / 2 ^ k < 2 ↔ base < 2 * 2 ^ k := Nat.div_lt_iff_lt_mul (Nat.two_pow_pos k)
  rw [levelExtent, Nat.min_eq_left hk, Nat.pow_succ', ← hhalf]
  omega

namespace Source

variable {source : Source} {k : Nat}

/-- The extents that shrink from level to level. -/
def reducedExtents (source : Source) (extent : Axes Nat) : List Nat :=
  if source.target = .texture3D then extent.toList else [extent.s, extent.t]

theorem s_mem_reducedExtents (source : Source) :
    source.extent.s ∈ source.reducedExtents source.extent := by
  rw [reducedExtents]
  split
  · exact List.mem_cons_self
  · exact List.mem_cons_self

theorem t_mem_reducedExtents (source : Source) :
    source.extent.t ∈ source.reducedExtents source.extent := by
  rw [reducedExtents]
  split
  · exact List.mem_cons_of_mem _ List.mem_cons_self
  · exact List.mem_cons_of_mem _ List.mem_cons_self

theorem r_mem_reducedExtents (hvolume : source.target = .texture3D) :
    source.extent.r ∈ source.reducedExtents source.extent := by
  rw [reducedExtents, if_pos hvolume]
  exact List.mem_cons_of_mem _ (List.mem_cons_of_mem _ List.mem_cons_self)

private theorem greatestExtent_lt_iff (source : Source) (n : Nat) :
    source.greatestExtent < n ↔ ∀ e ∈ source.reducedExtents source.extent, e < n := by
  simp only [greatestExtent, reducedExtents, Axes.toList]
  split
  · simp only [List.forall_mem_cons, List.not_mem_nil, false_implies, implies_true, and_true]
    omega
  · simp only [List.forall_mem_cons, List.not_mem_nil, false_implies, implies_true, and_true]
    omega

private theorem reducedExtents_extentAt (source : Source) (k : Nat) :
    source.reducedExtents (source.extentAt k)
      = (source.reducedExtents source.extent).map (levelExtent · k) := by
  simp only [reducedExtents, extentAt, Axes.toList]
  split
  · rfl
  · rfl

/-- A level is down to a single texel from the logarithm of the greatest extent on. -/
theorem reducedExtents_eq_one_iff (hpos : 0 < source.extent.s) (hk : k ≤ 31) :
    (∀ e ∈ source.reducedExtents (source.extentAt k), e = 1) ↔ source.greatestExtent.log2 ≤ k := by
  have hne : source.greatestExtent ≠ 0 := by
    simp only [greatestExtent]
    split <;> omega
  rw [← Nat.lt_succ_iff, Nat.log2_lt hne, greatestExtent_lt_iff, reducedExtents_extentAt,
    List.forall_mem_map]
  exact forall₂_congr fun e _ ↦ levelExtent_eq_one_iff hk e

/-! ## The end of the storage -/

theorem totalSize_eq (source : Source) :
    source.totalSize = source.levelOffset source.levelCount := by
  have hsum : ∀ count, ((List.range' 0 count).map fun k ↦
      (source.layoutAt k (source.levelOffset k)).size).sum = source.levelOffset count := by
    intro count
    induction count with
    | zero => rfl
    | succ count ih =>
      rw [List.range'_concat, List.map_append, List.sum_append, ih, List.map_singleton,
        List.sum_singleton, Nat.one_mul, Nat.zero_add]
      rfl
  rw [totalSize, baseLayout_cons_furtherLayouts, List.map_map]
  exact hsum _

end Source

namespace Texture

variable {texture : Texture} {source : Source}

theorem size_bytes_le (h : build source = .ok texture) :
    texture.bytes.size = source.totalSize ∧ source.totalSize ≤ Storage.maxSize := by
  obtain ⟨⟨-, -, hsize, -⟩, -⟩ := exists_furtherLevels_of_build h
  rw [size_bytes_of_build h, source.totalSize_eq] at *
  exact ⟨rfl, hsize⟩

/-- A chain of averaged levels ends with a single texel, unless it is cut, and not before. -/
theorem reducedExtents_of_generated (h : texture.BuiltFrom source)
    (hgenerated : source.further = .generated) {k : Nat} (hk : k < texture.levelCount)
    (hlog : source.greatestExtent.log2 < maxLevels ∨ k ≠ texture.lastLevel) :
    (∀ e ∈ source.reducedExtents (texture.layout k).extent, e = 1) ↔ k = texture.lastLevel := by
  have hcount : texture.levelCount = min (source.greatestExtent.log2 + 1) maxLevels := by
    rw [h.levelCount_eq, Source.levelCount, hgenerated]
    rfl
  have hmax : maxLevels = 16 := rfl
  rw [h.layout_eq k (h.levelCount_eq ▸ hk), Source.layoutAt_extent,
    Source.reducedExtents_eq_one_iff h.pos_s (by omega), lastLevel]
  rw [lastLevel] at hlog
  omega

end Texture

/-- **The layout of a texture.** Extents halve from level to level and never go below one, rows and
slices are packed, the levels lie one behind the other and fill the storage, and those that the
source carries are found in it as they were given. A chain of averaged levels has at most sixteen
and ends where all extents that shrink are one, unless it is cut at sixteen. -/
theorem layout_of_build {source : Source} {texture : Texture}
    (h : Texture.build source = .ok texture) :
    let block := source.format.info.block
    let level := texture.layout
    texture.levelCount = source.levelCount ∧
    (∀ k < texture.levelCount,
      (level k).extent.s = max (source.extent.s >>> k) 1 ∧
      (level k).extent.t = max (source.extent.t >>> k) 1 ∧
      (level k).extent.r
        = (if source.target = .texture3D then max (source.extent.r >>> k) 1
          else source.extent.r) ∧
      (level k).rowStride
        = ((level k).extent.s ⌈/⌉ block.width) * source.format.info.bytesPerBlock ∧
      (level k).sliceStride = (level k).rowStride * ((level k).extent.t ⌈/⌉ block.height) ∧
      (level k).size = (level k).sliceStride * (level k).extent.r) ∧
    (level 0).offset = 0 ∧
    (∀ k, k + 1 < texture.levelCount → (level (k + 1)).offset = (level k).offset + (level k).size) ∧
    (level texture.lastLevel).offset + (level texture.lastLevel).size = texture.bytes.size ∧
    texture.levelBytes 0 = source.texels ∧
    (∀ levels, source.further = .given levels →
      ∀ k (hk : k < levels.length), texture.levelBytes (k + 1) = levels[k]) ∧
    (source.further = .generated →
      texture.levelCount ≤ 16 ∧
      ((∀ e ∈ source.reducedExtents source.extent, e < 65536) →
        ∀ e ∈ source.reducedExtents (level texture.lastLevel).extent, e = 1) ∧
      ∀ k < texture.lastLevel, ¬ ∀ e ∈ source.reducedExtents (level k).extent, e = 1) := by
  intro block level
  have hbuilt := Texture.builtFrom_of_build h
  have hpos := texture.levelCount_pos
  have hlayout : ∀ k < texture.levelCount, level k = source.layoutAt k (source.levelOffset k) :=
    fun k hk ↦ hbuilt.layout_eq k (hbuilt.levelCount_eq ▸ hk)
  have hmax : texture.levelCount ≤ 16 := hbuilt.levelCount_eq ▸ hbuilt.levelCount_le
  have hlast : texture.lastLevel < texture.levelCount := Nat.sub_one_lt_of_lt hpos
  refine ⟨hbuilt.levelCount_eq, fun k hk ↦ ?_, ?_, fun k hk ↦ ?_, ?_,
    hbuilt.levelBytes_eq 0 _ rfl, fun levels hlevels k hk ↦ ?_, fun hgenerated ↦
      ⟨hmax, fun hshort ↦ ?_, fun k hk ↦ ?_⟩⟩
  · rw [hlayout k hk, ← levelExtent_eq_max (by omega), ← levelExtent_eq_max (by omega),
      ← levelExtent_eq_max (by omega)]
    exact ⟨rfl, rfl, rfl, rfl, rfl, rfl⟩
  · rw [hlayout 0 hpos]
    rfl
  · rw [hlayout (k + 1) hk, hlayout k (Nat.lt_of_succ_lt hk)]
    rfl
  · rw [hlayout _ hlast, Texture.size_bytes_of_build h, ← hbuilt.levelCount_eq,
      ← Nat.sub_add_cancel hpos]
    rfl
  · refine hbuilt.levelBytes_eq (k + 1) _ ?_
    simp only [Source.supplied?, hlevels, List.getElem?_eq_getElem hk]
  · rw [← source.greatestExtent_lt_iff] at hshort
    have hlog : source.greatestExtent.log2 < maxLevels := by
      by_cases hzero : source.greatestExtent = 0
      · rw [hzero]
        decide
      · exact (Nat.log2_lt hzero).2 hshort
    exact (Texture.reducedExtents_of_generated hbuilt hgenerated hlast (.inl hlog)).2 rfl
  · rw [Texture.reducedExtents_of_generated hbuilt hgenerated (by omega) (.inr (by omega))]
    omega

/-! ## A small volume -/

/-- Two slices of four by two bytes, dark on the left and light on the right, each half with one
byte astray. -/
def Source.volume : Source :=
  ((Source.flat ⟨#[0, 0, 255, 255, 0, 0, 255, 255, 0, 1, 255, 255, 0, 0, 255, 254]⟩ 4 2
    .l8Unorm).withTarget .texture3D 2).withFurther .generated

/-- The texture of the volume. Its levels have sixteen, two and one bytes. -/
def Texture.volume : Texture where
  bytes := ⟨#[0, 0, 255, 255, 0, 0, 255, 255, 0, 1, 255, 255, 0, 0, 255, 254, 0, 255, 128]⟩
  layouts := [⟨⟨4, 2, 2⟩, 0, 4, 8⟩, ⟨⟨2, 1, 1⟩, 16, 2, 2⟩, ⟨⟨1, 1, 1⟩, 18, 1, 1⟩]
  format := .l8Unorm
  target := .texture3D
  layouts_ne_nil := List.cons_ne_nil _ _

theorem build_volume : Texture.build .volume = .ok .volume := rfl

/-- The levels of the volume, in closed form. -/
theorem layout_of_build_volume :
    Texture.volume.levelCount = Source.volume.levelCount ∧
      (Texture.volume.layout 2).offset + (Texture.volume.layout 2).size
        = Texture.volume.bytes.size ∧
      Texture.volume.levelBytes 0 = Source.volume.texels ∧
      (∀ e ∈ Source.volume.reducedExtents (Texture.volume.layout 2).extent, e = 1) ∧
      ¬ ∀ e ∈ Source.volume.reducedExtents (Texture.volume.layout 1).extent, e = 1 := by
  obtain ⟨hcount, -, -, -, hend, hbase, -, hchain⟩ := layout_of_build build_volume
  obtain ⟨-, hlast, hearlier⟩ := hchain rfl
  exact ⟨hcount, hend, hbase, hlast (by decide), hearlier 1 (by decide)⟩

end QuadSampler
