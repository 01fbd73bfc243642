import QuadSampler.Proofs.LevelView.ByteOffset
import QuadSampler.Proofs.LevelView.Fetch

/-!
# Fetches give the texels of the source

A caller hands over levels as tight arrays of blocks. `Source.decodeTexel` reads a texel straight
from such an array, by the number of its block and with no strides, offsets or storage in between.
The theorem of this module says that both fetches of a sampler agree with it on the bound texture:
the fetch by indices wherever it does not give the border, and the fetch by byte offset for formats
that fit bytes. Lanes may look at different levels.
-/

namespace QuadSampler

/-- A texel of a level, decoded from the bytes that the source carries for the level. -/
def Source.decodeTexel {C : Type} (source : Source)
    (decode : FormatInfo → ByteArray → Nat → Nat → Nat → Except Fault C) (level x y z : Nat) :
    Except Fault C :=
  let f := source.format.info
  match source.supplied? level with
  | some bytes =>
    decode f bytes (f.blockNumber (source.extentAt level) x y z * f.bytesPerBlock)
      (x % f.block.width) (y % f.block.height)
  | none => .error .outsideStorage

/-- The indices of texel `(x, y, z)` of a level. -/
structure Source.IsTexelAt (source : Source) (level : Nat) (p : Axes Int32) (x y z : Nat) :
    Prop where
  lt_s : x < (source.extentAt level).s
  lt_t : y < (source.extentAt level).t
  lt_r : z < (source.extentAt level).r
  s_eq : p.s.toInt = x
  t_eq : p.t.toInt = y
  r_eq : p.r.toInt = z

namespace LevelView

variable {binding : Binding} {source : Source} {state : StaticState} {k : Nat}

private theorem bytes_ofSurface (h : binding.texture.BuiltFrom source) (state : StaticState)
    {bytes : ByteArray} (hk : k < source.levelCount) (hbytes : source.supplied? k = some bytes) :
    (ofSurface state binding.surface (Int32.ofNat k)).storage.bytes = bytes := by
  rw [← h.levelBytes_eq k bytes hbytes]
  simp only [ofSurface, h.toNatClampNeg_level hk]
  rfl

/-! ## The fetch of a lane -/

private theorem toNatClampNeg_eq {i : Int32} {n : Nat} (h : i.toInt = n) : i.toNatClampNeg = n := by
  rw [Int32.toNatClampNeg, h, Int.toNat_natCast]

private theorem blockOffset_of_isTexelAt {p : Axes Int32} {x y z : Nat} {f : FormatInfo}
    {view : LevelView} (h : view.Packed f (source.extentAt k)) (hp : source.IsTexelAt k p x y z) :
    view.blockOffset f p = f.blockNumber (source.extentAt k) x y z * f.bytesPerBlock := by
  rw [h.blockOffset_eq, toNatClampNeg_eq hp.s_eq, toNatClampNeg_eq hp.t_eq,
    toNatClampNeg_eq hp.r_eq]

private theorem inside_of_isTexelAt {p : Axes Int32} {x y z : Nat} {f : FormatInfo}
    {view : LevelView}
    (h : view.Packed f (source.extentAt k)) (hp : source.IsTexelAt k p x y z) : view.Inside p := by
  obtain ⟨hx, hy, hz, hs, ht, hr⟩ := hp
  have hextent := h.map_toInt_extent
  simp only [Axes.map, Axes.mk.injEq] at hextent
  refine ⟨?_, ?_, ?_⟩ <;> rw [IsTexel] <;> omega

private theorem fetchNumbers_eq_border (h : binding.texture.BuiltFrom source) (settings : Settings)
    (hlt : source.extent.s < 2 ^ 31 ∧ source.extent.t < 2 ^ 31 ∧ source.extent.r < 2 ^ 31)
    (hk : k < source.levelCount) {p : Axes Int32}
    (hbeside : (binding.staticState settings).Beside ((source.extentAt k).map Nat.cast) p)
    (border : Color Single) :
    (ofSurface (binding.staticState settings) binding.surface (Int32.ofNat k)).fetchNumbers
      (binding.staticState settings) border p = .ok border := by
  have hpacked := packed_ofSurface h (binding.staticState settings) h.target_eq hlt hk
  rw [← hpacked.map_toInt_extent] at hbeside
  exact (readable_ofSurface h settings hlt hk).fetchNumbers_of_beside hbeside border

theorem exists_decodeTexel_eq_fetchNumbers (h : binding.texture.BuiltFrom source)
    (settings : Settings)
    (hlt : source.extent.s < 2 ^ 31 ∧ source.extent.t < 2 ^ 31 ∧ source.extent.r < 2 ^ 31)
    (hk : k < source.levelCount) {bytes : ByteArray} (hbytes : source.supplied? k = some bytes)
    {p : Axes Int32}
    (hbeside : ¬ (binding.staticState settings).Beside ((source.extentAt k).map Nat.cast) p)
    {x y z : Nat} (hp : source.IsTexelAt k p x y z) :
    ∃ color, source.decodeTexel FormatInfo.decodeNumbers k x y z = .ok color ∧ ∀ border,
      (ofSurface (binding.staticState settings) binding.surface (Int32.ofNat k)).fetchNumbers
        (binding.staticState settings) border p = .ok color := by
  have hpacked := packed_ofSurface h (binding.staticState settings) h.target_eq hlt hk
  have hformat : (binding.staticState settings).format.info = source.format.info :=
    congrArg PixelFormat.info h.format_eq
  rw [← hpacked.map_toInt_extent] at hbeside
  obtain ⟨color, hcolor⟩ := FormatInfo.exists_decodeNumbers_eq_ok
    (hpacked.blockNumber_mul_add_le hp.lt_s hp.lt_t hp.lt_r) (x % source.format.info.block.width)
    (y % source.format.info.block.height)
  rw [bytes_ofSurface h _ hk hbytes] at hcolor
  refine ⟨color, ?_, fun border ↦ ?_⟩
  · simp only [Source.decodeTexel, hbytes]
    exact hcolor
  · rw [fetchNumbers_of_not_beside hbeside, hformat, blockOffset_of_isTexelAt hpacked hp,
      bytes_ofSurface h _ hk hbytes, toNatClampNeg_eq hp.s_eq, toNatClampNeg_eq hp.t_eq]
    exact hcolor

/-- The byte offset of a texel leads to the texel of the source in bytes. -/
theorem exists_decodeTexel_eq_fetchBytes (h : binding.texture.BuiltFrom source)
    (settings : Settings)
    (hlt : source.extent.s < 2 ^ 31 ∧ source.extent.t < 2 ^ 31 ∧ source.extent.r < 2 ^ 31)
    (hfurther : source.further ≠ .generated) (hk : k < source.levelCount)
    (hsize : (binding.texture.levelBytes k).size < 2 ^ 31)
    (hfits : source.format.info.fitsBytes = true) {p : Axes Int32} {x y z : Nat}
    (hp : source.IsTexelAt k p x y z) :
    let view := ofSurface (binding.staticState settings) binding.surface (Int32.ofNat k)
    ∃ color, source.decodeTexel FormatInfo.decodeBytes k x y z = .ok color ∧
      view.fetchBytes (binding.staticState settings)
        (view.byteOffset source.format.info.bytesPerBlock p) = .ok color := by
  intro view
  have haddressed : view.ByteAddressed source.format (source.extentAt k) :=
    byteAddressed_ofSurface h _ h.target_eq hlt hfits hk hsize
  have hpacked := haddressed.toPacked
  have hformat : (binding.staticState settings).format.info = source.format.info :=
    congrArg PixelFormat.info h.format_eq
  obtain ⟨bytes, hbytes⟩ := Source.exists_supplied hfurther hk
  obtain ⟨color, hcolor⟩ := FormatInfo.exists_decodeBytes_eq_ok
    (hpacked.blockNumber_mul_add_le hp.lt_s hp.lt_t hp.lt_r) 0 0
  rw [bytes_ofSurface h _ hk hbytes] at hcolor
  refine ⟨color, ?_, ?_⟩
  · simp only [Source.decodeTexel, hbytes, haddressed.width_eq_one, haddressed.height_eq_one,
      Nat.mod_one]
    exact hcolor
  · rw [fetchBytes, haddressed.toNatClampNeg_byteOffset (inside_of_isTexelAt hpacked hp), hformat,
      blockOffset_of_isTexelAt hpacked hp, bytes_ofSurface h _ hk hbytes]
    exact hcolor

/-- A lane beside its level or at a texel is answered: with the border, or with the texel. -/
theorem exists_fetchNumbers_of_lane (h : binding.texture.BuiltFrom source) (settings : Settings)
    (hlt : source.extent.s < 2 ^ 31 ∧ source.extent.t < 2 ^ 31 ∧ source.extent.r < 2 ^ 31)
    (hfurther : source.further ≠ .generated) (hk : k < source.levelCount) {p : Axes Int32}
    (border : Color Single)
    (hlane : (binding.staticState settings).Beside ((source.extentAt k).map Nat.cast) p ∨
      ∃ x y z, source.IsTexelAt k p x y z) :
    let state := binding.staticState settings
    let beside := state.Beside ((source.extentAt k).map Nat.cast) p
    ∃ color, (ofSurface state binding.surface (Int32.ofNat k)).fetchNumbers state border p
        = .ok color ∧
      (beside → color = border) ∧
      (¬ beside → ∀ x y z, source.IsTexelAt k p x y z →
        source.decodeTexel FormatInfo.decodeNumbers k x y z = .ok color) := by
  intro state beside
  by_cases hbeside : beside
  · exact ⟨border, fetchNumbers_eq_border h settings hlt hk hbeside border, fun _ ↦ rfl,
      fun hnot ↦ absurd hbeside hnot⟩
  · obtain ⟨x, y, z, hat⟩ := hlane.resolve_left hbeside
    obtain ⟨bytes, hbytes⟩ := Source.exists_supplied hfurther hk
    obtain ⟨color, -, hcolor⟩ :=
      exists_decodeTexel_eq_fetchNumbers h settings hlt hk hbytes hbeside hat
    refine ⟨color, hcolor border, fun hbeside' ↦ absurd hbeside' hbeside,
      fun _ x' y' z' hat' ↦ ?_⟩
    -- indices that name two texels still name one fetch
    obtain ⟨color', hdecode, hcolor'⟩ :=
      exists_decodeTexel_eq_fetchNumbers h settings hlt hk hbytes hbeside hat'
    rw [hdecode, ← hcolor' border]
    exact hcolor border

private theorem exists_fetchBytes_of_lane (h : binding.texture.BuiltFrom source)
    (settings : Settings)
    (hlt : source.extent.s < 2 ^ 31 ∧ source.extent.t < 2 ^ 31 ∧ source.extent.r < 2 ^ 31)
    (hfurther : source.further ≠ .generated) (hk : k < source.levelCount)
    (hsize : (binding.texture.levelBytes k).size < 2 ^ 31)
    (hfits : source.format.info.fitsBytes = true) {p : Axes Int32}
    (hlane : ∃ x y z, source.IsTexelAt k p x y z) :
    let state := binding.staticState settings
    let view := ofSurface state binding.surface (Int32.ofNat k)
    ∃ color, view.fetchBytes state (view.byteOffset source.format.info.bytesPerBlock p)
        = .ok color ∧
      ∀ x y z, source.IsTexelAt k p x y z →
        source.decodeTexel FormatInfo.decodeBytes k x y z = .ok color := by
  intro state view
  obtain ⟨x, y, z, hat⟩ := hlane
  obtain ⟨color, -, hcolor⟩ :=
    exists_decodeTexel_eq_fetchBytes h settings hlt hfurther hk hsize hfits hat
  refine ⟨color, hcolor, fun x' y' z' hat' ↦ ?_⟩
  obtain ⟨color', hdecode, hcolor'⟩ :=
    exists_decodeTexel_eq_fetchBytes h settings hlt hfurther hk hsize hfits hat'
  rw [hdecode, ← hcolor']
  exact hcolor

end LevelView

/-! ## The fetch of a quad -/

/-- **Fetches of a quad.** A bound texture whose levels its source carries is looked at by four
lanes, each at a level and at indices of its own. Beside its level a lane gets the border; nowhere
else has the border an influence. Where all lanes are beside or inside their levels the quad is
answered, and a lane inside gets the texel of the source. In formats that fit bytes the byte offset
of a texel leads to the same texel of the source. -/
theorem fetch_source_texels {source : Source} {binding : Binding} {units : TextureUnits}
    {unit : Nat} (hbuild : Texture.build source = .ok binding.texture)
    (hfurther : source.further ≠ .generated)
    (hsize : ∀ k < binding.texture.levelCount, (binding.texture.levelBytes k).size < 2 ^ 31)
    (hunit : units.get? unit = some binding) (settings : Settings) (levels : Quad Nat)
    (hlevels : ∀ i, levels.get i < binding.texture.levelCount) (coords : Quad (Axes Int32)) :
    let state := binding.staticState settings
    let view (i : Fin 4) : LevelView :=
      .ofSurface state (units.surface unit) (Int32.ofNat (levels.get i))
    let beside (i : Fin 4) : Prop :=
      state.Beside ((source.extentAt (levels.get i)).map Nat.cast) (coords.get i)
    let isAt (i : Fin 4) : Nat → Nat → Nat → Prop :=
      source.IsTexelAt (levels.get i) (coords.get i)
    (∀ i border, beside i → (view i).fetchNumbers state border (coords.get i) = .ok border) ∧
    (∀ i border border', ¬ beside i →
      (view i).fetchNumbers state border (coords.get i)
        = (view i).fetchNumbers state border' (coords.get i)) ∧
    (∀ border, (∀ i, beside i ∨ ∃ x y z, isAt i x y z) →
      ∃ colors, Quad.ofFnM (fun i ↦ (view i).fetchNumbers state border (coords.get i))
          = .ok colors ∧
        ∀ i, (beside i → colors.get i = border) ∧
          (¬ beside i → ∀ x y z, isAt i x y z →
            source.decodeTexel FormatInfo.decodeNumbers (levels.get i) x y z
              = .ok (colors.get i))) ∧
    (source.format.info.fitsBytes = true → (∀ i, ∃ x y z, isAt i x y z) →
      ∃ colors, Quad.ofFnM (fun i ↦ (view i).fetchBytes state
          ((view i).byteOffset source.format.info.bytesPerBlock (coords.get i))) = .ok colors ∧
        ∀ i x y z, isAt i x y z →
          source.decodeTexel FormatInfo.decodeBytes (levels.get i) x y z
            = .ok (colors.get i)) := by
  rw [TextureUnits.surface_of_get?_eq_some hunit]
  intro state view beside isAt
  have h := Texture.builtFrom_of_build hbuild
  have hlt := h.extent_lt (hsize 0 binding.texture.levelCount_pos)
  have hk : ∀ i, levels.get i < source.levelCount := fun i ↦ h.levelCount_eq ▸ hlevels i
  refine ⟨fun i border hbeside ↦ ?_, fun i border border' hbeside ↦ ?_, fun border hlanes ↦ ?_,
    fun hfits hlanes ↦ ?_⟩
  · exact LevelView.fetchNumbers_eq_border h settings hlt (hk i) hbeside border
  · have hextent : (view i).extent.map Int32.toInt
        = (source.extentAt (levels.get i)).map Nat.cast :=
      (packed_ofSurface h state h.target_eq hlt (hk i)).map_toInt_extent
    have hbeside' : ¬ state.Beside ((view i).extent.map Int32.toInt) (coords.get i) := by
      rwa [hextent]
    rw [LevelView.fetchNumbers_of_not_beside hbeside',
      LevelView.fetchNumbers_of_not_beside hbeside']
  · have hlane := fun i ↦
      LevelView.exists_fetchNumbers_of_lane h settings hlt hfurther (hk i) border (hlanes i)
    exact Quad.exists_ofFnM_eq_ok_and hlane
  · have hlane := fun i ↦ LevelView.exists_fetchBytes_of_lane h settings hlt hfurther (hk i)
      (hsize _ (hlevels i)) hfits (hlanes i)
    exact Quad.exists_ofFnM_eq_ok_and hlane

/-- Lanes of the checkered texture: beside the first level, on the second level, and on two texels
of the first. -/
theorem fetch_source_texels_checker :
    let state := Binding.checker.staticState { Settings.plain with wrap := .splat .clampToBorder }
    let levels : Quad Nat := ⟨0, 1, 0, 0⟩
    let coords : Quad (Axes Int32) := ⟨⟨-1, 0, 0⟩, ⟨0, 0, 0⟩, ⟨1, 0, 0⟩, ⟨1, 1, 0⟩⟩
    ∃ colors, Quad.ofFnM (fun i ↦
        (LevelView.ofSurface state (TextureUnits.checker.surface 0)
          (Int32.ofNat (levels.get i))).fetchNumbers state (.splat 1) (coords.get i)) = .ok colors ∧
      colors.get 0 = .splat 1 ∧
      Source.checker.decodeTexel FormatInfo.decodeNumbers 1 0 0 0 = .ok (colors.get 1) ∧
      Source.checker.decodeTexel FormatInfo.decodeNumbers 0 1 1 0 = .ok (colors.get 3) := by
  intro state levels coords
  have hunit : TextureUnits.checker.get? 0 = some .checker := rfl
  have h := fetch_source_texels build_checker (by simp [Source.checker, Source.withFurther])
    (by decide) hunit { Settings.plain with wrap := .splat .clampToBorder } levels (by decide)
    coords
  have hat₁ : Source.checker.IsTexelAt 1 ⟨0, 0, 0⟩ 0 0 0 := by constructor <;> decide
  have hat₂ : Source.checker.IsTexelAt 0 ⟨1, 0, 0⟩ 1 0 0 := by constructor <;> decide
  have hat₃ : Source.checker.IsTexelAt 0 ⟨1, 1, 0⟩ 1 1 0 := by constructor <;> decide
  have hbeside : state.Beside ((Source.checker.extentAt 0).map Nat.cast) ⟨-1, 0, 0⟩ :=
    .inl ⟨rfl, by decide⟩
  obtain ⟨colors, hcolors, hlanes⟩ := h.2.2.1 (.splat 1) fun
    | 0 => .inl hbeside
    | 1 => .inr ⟨0, 0, 0, hat₁⟩
    | 2 => .inr ⟨1, 0, 0, hat₂⟩
    | 3 => .inr ⟨1, 1, 0, hat₃⟩
  refine ⟨colors, hcolors, (hlanes 0).1 hbeside, (hlanes 1).2 ?_ 0 0 0 hat₁,
    (hlanes 3).2 ?_ 1 1 0 hat₃⟩
  · rintro (⟨-, hout⟩ | ⟨-, -, hout⟩ | ⟨hdims, -⟩)
    · exact hout (by decide)
    · exact hout (by decide)
    · exact absurd hdims (by decide)
  · rintro (⟨-, hout⟩ | ⟨-, -, hout⟩ | ⟨hdims, -⟩)
    · exact hout (by decide)
    · exact hout (by decide)
    · exact absurd hdims (by decide)

end QuadSampler
