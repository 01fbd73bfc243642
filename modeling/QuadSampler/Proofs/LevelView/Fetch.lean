import QuadSampler.Proofs.Addressing.Range
import QuadSampler.Proofs.LevelView.Packed

/-!
# Fetching texels

What a fetch by indices does, in two cases. Beside the texture it gives the border colour, and reads
the first texel for nothing (`fetchNumbers_of_beside`); anywhere else it decodes the block at the
offset of the indices, and the border has no part in it (`fetchNumbers_of_not_beside`).

`LevelView.Readable` is what a filter needs of a level to be sure of an answer. Levels of bound
textures are readable, and so is the single texel of an unbound unit, under any state.
-/

namespace QuadSampler

/-! ## Reading words -/

private theorem Storage.exists_wordAt_eq_ok {bytes : ByteArray} {offset count : Nat}
    (h : offset + count ≤ bytes.size) : ∃ word, wordAt bytes offset count = .ok word := by
  rw [wordAt, bytesAt, if_pos h]
  exact ⟨_, rfl⟩

namespace FormatInfo

variable {f : FormatInfo} {bytes : ByteArray} {offset : Nat}

theorem exists_decodeNumbers_eq_ok (h : offset + f.bytesPerBlock ≤ bytes.size) (i j : Nat) :
    ∃ color, f.decodeNumbers bytes offset i j = .ok color := by
  obtain ⟨word, hword⟩ := Storage.exists_wordAt_eq_ok h
  exact ⟨_, bind_eq_ok.2 ⟨word, hword, rfl⟩⟩

theorem exists_decodeBytes_eq_ok (h : offset + f.bytesPerBlock ≤ bytes.size) (i j : Nat) :
    ∃ color, f.decodeBytes bytes offset i j = .ok color := by
  obtain ⟨word, hword⟩ := Storage.exists_wordAt_eq_ok h
  exact ⟨_, bind_eq_ok.2 ⟨word, hword, rfl⟩⟩

end FormatInfo

/-! ## Beside the texture -/

theorem Target.dims_pos (target : Target) : 1 ≤ target.dims := by
  cases target <;> decide

/-- Whether an index lies outside an axis of the given length and the border stands for it. -/
def WrapMode.Misses (mode : WrapMode) (length : Int) (i : Int32) : Prop :=
  mode.usesBorder = true ∧ ¬ (0 ≤ i.toInt ∧ i.toInt < length)

private theorem WrapMode.Serves.isTexel {mode : WrapMode} {length i : Int32}
    (h : mode.Serves length i) (hmiss : ¬ mode.Misses length.toInt i) : IsTexel length i := by
  rcases h with hin | hborder
  · exact hin
  · by_contra hout
    exact hmiss ⟨hborder, hout⟩

/-- Whether some addressed axis with a wrap mode that uses the border misses its index. -/
def StaticState.Beside (state : StaticState) (extent : Axes Int) (p : Axes Int32) : Prop :=
  state.wrap.s.Misses extent.s p.s ∨ (2 ≤ state.dims ∧ state.wrap.t.Misses extent.t p.t) ∨
    (3 ≤ state.dims ∧ state.wrap.r.Misses extent.r p.r)

private theorem outside_iff_misses {mode : WrapMode} {length i : Int32} :
    (mode.usesBorder && (decide (i < 0) || decide (length ≤ i))) = true
      ↔ mode.Misses length.toInt i := by
  rw [Bool.and_eq_true, Bool.or_eq_true, decide_eq_true_eq, decide_eq_true_eq,
    Int32.lt_iff_toInt_lt, Int32.le_iff_toInt_le, Int32.toInt_zero, WrapMode.Misses]
  refine and_congr_right fun _ ↦ ?_
  omega

namespace LevelView

variable {state : StaticState} {view : LevelView} {p : Axes Int32}

theorem isBeside_iff :
    view.isBeside state p = true ↔ state.Beside (view.extent.map Int32.toInt) p := by
  simp only [StaticState.Beside, Axes.map, ← outside_iff_misses, isBeside, Axes.active,
    Axes.toList, StaticState.dims]
  -- how many axes are looked at depends on nothing but the target
  cases state.target with
  | texture1D => simp [Target.dims]
  | texture2D | cube | rect => simp [Target.dims]
  | texture3D => simp [Target.dims]

/-! ## Fetching -/

/-- Anywhere but beside the texture a fetch decodes the texel, whatever the border. -/
theorem fetchNumbers_of_not_beside (h : ¬ state.Beside (view.extent.map Int32.toInt) p)
    (border : Color Single) :
    view.fetchNumbers state border p
      = state.format.info.decodeNumbers view.storage.bytes
          (view.blockOffset state.format.info p)
          (p.s.toNatClampNeg % state.format.info.block.width)
          (p.t.toNatClampNeg % state.format.info.block.height) := by
  have hfalse : view.isBeside state p = false := by
    rwa [← Bool.not_eq_true, isBeside_iff]
  simp only [fetchNumbers, hfalse, Bool.false_eq_true, if_false]
  exact bind_pure _

private theorem inside_zero (hs : 0 < view.extent.s.toInt) (ht : 0 < view.extent.t.toInt)
    (hr : 0 < view.extent.r.toInt) : view.Inside (.splat 0) :=
  ⟨⟨le_refl _, hs⟩, ⟨le_refl _, ht⟩, ⟨le_refl _, hr⟩⟩

/-- What a filter needs of a level: extents that wrapping can rely on, and the blocks of all texels
in the storage. -/
structure Readable (state : StaticState) (view : LevelView) : Prop where
  sound_s : SoundLength view.extent.s state.powerOfTwo.s
  sound_t : 2 ≤ state.dims → SoundLength view.extent.t state.powerOfTwo.t
  sound_r : 3 ≤ state.dims → SoundLength view.extent.r state.powerOfTwo.r
  pos_t : 0 < view.extent.t.toInt
  pos_r : 0 < view.extent.r.toInt
  six_faces : state.target = .cube → view.extent.r = 6
  block_le : ∀ p, view.Inside p → view.blockOffset state.format.info p
    + state.format.info.bytesPerBlock ≤ view.storage.bytes.size

/-- Beside the texture a fetch gives the border, and the texel it reads is there. -/
theorem Readable.fetchNumbers_of_beside (hview : Readable state view)
    (h : state.Beside (view.extent.map Int32.toInt) p) (border : Color Single) :
    view.fetchNumbers state border p = .ok border := by
  have hfirst := hview.block_le _ (inside_zero hview.sound_s.pos hview.pos_t hview.pos_r)
  obtain ⟨color, hcolor⟩ := FormatInfo.exists_decodeNumbers_eq_ok hfirst
    ((Axes.splat (0 : Int32)).s.toNatClampNeg % state.format.info.block.width)
    ((Axes.splat (0 : Int32)).t.toNatClampNeg % state.format.info.block.height)
  simp only [fetchNumbers, isBeside_iff.2 h, if_true]
  exact bind_eq_ok.2 ⟨color, hcolor, rfl⟩

/-- Indices that a fetch answers: those of a texel, and on addressed axes those that the border
stands for. -/
structure Reaches (state : StaticState) (view : LevelView) (p : Axes Int32) : Prop where
  s : state.wrap.s.Serves view.extent.s p.s
  t : IsTexel view.extent.t p.t ∨ 2 ≤ state.dims ∧ state.wrap.t.Serves view.extent.t p.t
  r : IsTexel view.extent.r p.r ∨ 3 ≤ state.dims ∧ state.wrap.r.Serves view.extent.r p.r

theorem Reaches.inside (hp : Reaches state view p)
    (h : ¬ state.Beside (view.extent.map Int32.toInt) p) : view.Inside p := by
  simp only [StaticState.Beside, Axes.map, not_or, not_and] at h
  obtain ⟨hs, ht, hr⟩ := h
  refine ⟨hp.s.isTexel hs, ?_, ?_⟩
  · rcases hp.t with hin | ⟨hdims, hserves⟩
    · exact hin
    · exact hserves.isTexel (ht hdims)
  · rcases hp.r with hin | ⟨hdims, hserves⟩
    · exact hin
    · exact hserves.isTexel (hr hdims)

theorem Readable.exists_fetchNumbers_eq_ok (hview : Readable state view)
    (hp : Reaches state view p) (border : Color Single) :
    ∃ color, view.fetchNumbers state border p = .ok color := by
  by_cases h : state.Beside (view.extent.map Int32.toInt) p
  · exact ⟨border, hview.fetchNumbers_of_beside h border⟩
  · rw [fetchNumbers_of_not_beside h]
    exact FormatInfo.exists_decodeNumbers_eq_ok (hview.block_le p (hp.inside h)) _ _

/-! ## Levels that can be read -/

theorem readable_ofSurface {binding : Binding} {source : Source}
    (h : binding.texture.BuiltFrom source) (settings : Settings)
    (hlt : source.extent.s < 2 ^ 31 ∧ source.extent.t < 2 ^ 31 ∧ source.extent.r < 2 ^ 31)
    {k : Nat} (hk : k < source.levelCount) :
    Readable (binding.staticState settings)
      (.ofSurface (binding.staticState settings) binding.surface (Int32.ofNat k)) := by
  obtain ⟨hs, ht, hr⟩ := soundLength_ofSurface h settings hlt hk
  have hpacked := packed_ofSurface h (binding.staticState settings) h.target_eq hlt hk
  have hformat : (binding.staticState settings).format.info = source.format.info :=
    congrArg PixelFormat.info h.format_eq
  refine ⟨hs, fun _ ↦ ht, fun _ ↦ hr, ht.pos, hr.pos, fun hcube ↦ ?_, fun p hp ↦ ?_⟩
  · simp only [ofSurface, if_pos hcube]
  · rw [hformat]
    exact hpacked.blockOffset_add_le hp

theorem soundLength_one (powerOfTwo : Bool) : SoundLength 1 powerOfTwo :=
  ⟨by decide, fun _ ↦ ⟨0, rfl⟩⟩

theorem extent_unbound (state : StaticState) (level : Int32) :
    (ofSurface state .unbound level).extent
      = ⟨1, 1, if state.target = .cube then 6 else 1⟩ := by
  have hone : Int32.ofNat (levelExtent 1 level.toNatClampNeg) = 1 := by
    rw [levelExtent_one]
    rfl
  simp only [ofSurface, Surface.unbound, Axes.splat, hone, ite_self]

/-- The texel of an unbound unit can be read under any state and at any level. -/
theorem readable_unbound (state : StaticState) (level : Int32) :
    Readable state (.ofSurface state .unbound level) := by
  have hextent := extent_unbound state level
  have hs : (ofSurface state .unbound level).extent.s = 1 := by rw [hextent]
  have ht : (ofSurface state .unbound level).extent.t = 1 := by rw [hextent]
  have hr : (ofSurface state .unbound level).extent.r = if state.target = .cube then 6 else 1 := by
    rw [hextent]
  refine ⟨hs ▸ soundLength_one _, fun _ ↦ ht ▸ soundLength_one _, fun hdims ↦ ?_,
    by rw [ht]; decide, ?_, fun hcube ↦ by rw [hr, if_pos hcube], fun p hp ↦ ?_⟩
  · have hflat : state.target ≠ .cube := by
      intro hcube
      rw [StaticState.dims, hcube] at hdims
      exact absurd hdims (by decide)
    rw [hr, if_neg hflat]
    exact soundLength_one _
  · rw [hr]
    split <;> decide
  · -- both strides are zero, so rows and faces all lie at the one texel
    have hzero : p.s.toNatClampNeg = 0 := by
      have hp := hp.s
      rw [hs, IsTexel, Int32.toInt_one] at hp
      rw [Int32.toNatClampNeg]
      omega
    have hbytes : (ofSurface state .unbound level).storage.bytes.size = 16 := rfl
    have hrows : (ofSurface state .unbound level).storage.rowStride = 0 := rfl
    have hslices : (ofSurface state .unbound level).storage.sliceStride = 0 := rfl
    rw [blockOffset, hzero, hbytes, hrows, hslices, Nat.zero_div, Nat.zero_mul, Nat.mul_zero,
      Nat.mul_zero, Nat.zero_add]
    have := state.format.bytesPerBlock_le
    omega

end LevelView

end QuadSampler
