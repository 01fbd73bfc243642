import QuadSampler.Proofs.LevelView.Packed

/-!
# Byte offsets in index words

Formats that fit bytes store single texels, so a texel has a byte offset that is a sum of one
product for each axis: index times bytes per texel, row stride or slice stride. The sum is formed in
words of 32 bits. A level of fewer than `2 ^ 31` bytes is `ByteAddressed`: there every product and
every sum is exact, and the offset of a texel leaves room for the bytes of the texel.
-/

namespace QuadSampler

theorem FormatInfo.plain_of_fitsBytes {f : FormatInfo} (h : f.fitsBytes = true) :
    f.packing = .plain := by
  simp only [fitsBytes, Bool.and_eq_true, beq_iff_eq] at h
  exact h.1.1

theorem PixelFormat.block_of_fitsBytes {f : PixelFormat} (h : f.info.fitsBytes = true) :
    f.info.block.width = 1 ∧ f.info.block.height = 1 := by
  revert h
  cases f <;> decide

namespace LevelView

/-- A packed level of single texels, small enough for byte offsets in words. -/
structure ByteAddressed (view : LevelView) (f : PixelFormat) (e : Axes Nat) : Prop
    extends view.Packed f.info e where
  width_eq_one : f.info.block.width = 1
  height_eq_one : f.info.block.height = 1
  size_lt : view.storage.bytes.size < 2 ^ 31
  pos_s : 0 < e.s
  pos_t : 0 < e.t
  pos_r : 0 < e.r

namespace ByteAddressed

variable {view : LevelView} {f : PixelFormat} {e : Axes Nat}

private theorem rowStride_eq_mul (h : view.ByteAddressed f e) :
    view.storage.rowStride = e.s * f.info.bytesPerBlock := by
  rw [h.rowStride_eq, FormatInfo.blocksAcross, h.width_eq_one, Nat.add_sub_cancel, Nat.div_one]

private theorem sliceStride_eq_mul (h : view.ByteAddressed f e) :
    view.storage.sliceStride = view.storage.rowStride * e.t := by
  rw [h.sliceStride_eq, FormatInfo.blocksDown, h.height_eq_one, Nat.add_sub_cancel, Nat.div_one]

private theorem mul_le_size (h : view.ByteAddressed f e) :
    e.s * f.info.bytesPerBlock ≤ view.storage.bytes.size ∧
      e.t * view.storage.rowStride ≤ view.storage.bytes.size ∧
        e.r * view.storage.sliceStride ≤ view.storage.bytes.size := by
  have hslice : view.storage.sliceStride ≤ view.storage.bytes.size := by
    rw [h.size_eq]
    exact Nat.le_mul_of_pos_right _ h.pos_r
  refine ⟨?_, ?_, ?_⟩
  · rw [← h.rowStride_eq_mul]
    refine le_trans ?_ hslice
    rw [h.sliceStride_eq_mul]
    exact Nat.le_mul_of_pos_right _ h.pos_t
  · rw [Nat.mul_comm, ← h.sliceStride_eq_mul]
    exact hslice
  · rw [Nat.mul_comm, ← h.size_eq]

private theorem address_add_le (h : view.ByteAddressed f e) {x y z : Nat} (hx : x < e.s)
    (hy : y < e.t) (hz : z < e.r) :
    x * f.info.bytesPerBlock + y * view.storage.rowStride + z * view.storage.sliceStride
      + f.info.bytesPerBlock ≤ view.storage.bytes.size := by
  have heq := h.address_eq x y z
  rw [h.width_eq_one, h.height_eq_one, Nat.div_one, Nat.div_one] at heq
  rw [heq]
  exact h.blockNumber_mul_add_le hx hy hz

/-! ## Strides as words -/

private theorem toInt_ofNat_stride {length stride size : Nat} (hpos : 0 < length)
    (hle : length * stride ≤ size) (hsize : size < 2 ^ 31) :
    (Int32.ofNat stride).toInt = stride :=
  Int32.toInt_ofNat_of_lt
    (lt_of_le_of_lt ((Nat.le_mul_of_pos_left stride hpos).trans hle) hsize)

theorem toInt_bytesPerBlock (h : view.ByteAddressed f e) :
    (Int32.ofNat f.info.bytesPerBlock).toInt = f.info.bytesPerBlock :=
  toInt_ofNat_stride h.pos_s h.mul_le_size.1 h.size_lt

theorem toInt_rowStride (h : view.ByteAddressed f e) :
    view.rowStride.toInt = view.storage.rowStride :=
  toInt_ofNat_stride h.pos_t h.mul_le_size.2.1 h.size_lt

theorem toInt_sliceStride (h : view.ByteAddressed f e) :
    view.sliceStride.toInt = view.storage.sliceStride :=
  toInt_ofNat_stride h.pos_r h.mul_le_size.2.2 h.size_lt

end ByteAddressed

/-- A level of fewer than `2 ^ 31` bytes in a format that fits bytes has byte offsets. -/
theorem byteAddressed_ofSurface {binding : Binding} {source : Source}
    (h : binding.texture.BuiltFrom source) (state : StaticState)
    (hstate : state.target = source.target)
    (hlt : source.extent.s < 2 ^ 31 ∧ source.extent.t < 2 ^ 31 ∧ source.extent.r < 2 ^ 31)
    (hfits : source.format.info.fitsBytes = true) {k : Nat} (hk : k < source.levelCount)
    (hsize : (binding.texture.levelBytes k).size < 2 ^ 31) :
    (ofSurface state binding.surface (Int32.ofNat k)).ByteAddressed source.format
      (source.extentAt k) := by
  obtain ⟨hw, hh⟩ := PixelFormat.block_of_fitsBytes hfits
  refine ⟨packed_ofSurface h state hstate hlt hk, hw, hh, ?_, levelExtent_pos _ _,
    levelExtent_pos _ _, ?_⟩
  · simp only [ofSurface, h.toNatClampNeg_level hk]
    exact hsize
  · rw [Source.extentAt]
    split
    · exact levelExtent_pos _ _
    · exact h.pos_r

/-! ## Products and sums -/

/-- The offset of a texel along one axis, and the offset one step further, are exact as long as the
whole axis fits. -/
theorem toInt_mul_stride {length stride i : Int32} (hstride : 0 ≤ stride.toInt)
    (hfits : length.toInt * stride.toInt < 2 ^ 31) (hi : IsTexel length i) :
    (i * stride).toInt = i.toInt * stride.toInt ∧
      (i * stride + stride).toInt = i.toInt * stride.toInt + stride.toInt := by
  obtain ⟨h0, h1⟩ := hi
  have hnonneg : 0 ≤ i.toInt * stride.toInt := Int.mul_nonneg h0 hstride
  have hstep : i.toInt * stride.toInt + stride.toInt ≤ length.toInt * stride.toInt := by
    nlinarith
  have hmul : (i * stride).toInt = i.toInt * stride.toInt := by
    rw [toInt_mul_of_fits] <;> omega
  refine ⟨hmul, ?_⟩
  rw [toInt_add_of_fits] <;> omega

theorem ByteAddressed.toInt_mul_lt {view : LevelView} {f : PixelFormat} {e : Axes Nat}
    (h : view.ByteAddressed f e) :
    (Int32.ofNat e.s).toInt * (Int32.ofNat f.info.bytesPerBlock).toInt < 2 ^ 31 ∧
      (Int32.ofNat e.t).toInt * view.rowStride.toInt < 2 ^ 31 ∧
        (Int32.ofNat e.r).toInt * view.sliceStride.toInt < 2 ^ 31 := by
  obtain ⟨hs, ht, hr⟩ := h.mul_le_size
  have hlt := h.size_lt
  rw [Int32.toInt_ofNat_of_lt h.lt_s, Int32.toInt_ofNat_of_lt h.lt_t,
    Int32.toInt_ofNat_of_lt h.lt_r, h.toInt_bytesPerBlock, h.toInt_rowStride, h.toInt_sliceStride]
  refine ⟨?_, ?_, ?_⟩
  · exact_mod_cast lt_of_le_of_lt hs hlt
  · exact_mod_cast lt_of_le_of_lt ht hlt
  · exact_mod_cast lt_of_le_of_lt hr hlt

theorem ByteAddressed.toInt_mul {view : LevelView} {f : PixelFormat} {e : Axes Nat}
    {p : Axes Int32} (h : view.ByteAddressed f e) (hp : view.Inside p) :
    (p.s * Int32.ofNat f.info.bytesPerBlock).toInt
        = (p.s.toNatClampNeg * f.info.bytesPerBlock : Nat) ∧
      (p.t * view.rowStride).toInt = (p.t.toNatClampNeg * view.storage.rowStride : Nat) ∧
        (p.r * view.sliceStride).toInt = (p.r.toNatClampNeg * view.storage.sliceStride : Nat) := by
  obtain ⟨hs, ht, hr⟩ := hp
  obtain ⟨hfits_s, hfits_t, hfits_r⟩ := h.toInt_mul_lt
  rw [h.extent_eq] at hs ht hr
  refine ⟨?_, ?_, ?_⟩
  · rw [(toInt_mul_stride (h.toInt_bytesPerBlock ▸ Int.natCast_nonneg _) hfits_s hs).1,
      h.toInt_bytesPerBlock, (hs.toNatClampNeg_lt h.lt_s).2, Int.natCast_mul]
  · rw [(toInt_mul_stride (h.toInt_rowStride ▸ Int.natCast_nonneg _) hfits_t ht).1,
      h.toInt_rowStride, (ht.toNatClampNeg_lt h.lt_t).2, Int.natCast_mul]
  · rw [(toInt_mul_stride (h.toInt_sliceStride ▸ Int.natCast_nonneg _) hfits_r hr).1,
      h.toInt_sliceStride, (hr.toNatClampNeg_lt h.lt_r).2, Int.natCast_mul]

/-- Offsets along the three axes, each that of a texel of the level. -/
structure TexelTerms (view : LevelView) (bytesPerTexel : Nat) (e : Axes Nat) (terms : Axes Int32) :
    Prop where
  s : ∃ x < e.s, terms.s.toInt = (x * bytesPerTexel : Nat)
  t : ∃ y < e.t, terms.t.toInt = (y * view.storage.rowStride : Nat)
  r : ∃ z < e.r, terms.r.toInt = (z * view.storage.sliceStride : Nat)

/-- Offsets along the axes add up without wrapping around, and at their sum there are the bytes of a
texel. -/
structure SumsInside (view : LevelView) (bytesPerTexel : Nat) (terms : Axes Int32) : Prop where
  toInt_two : (terms.s + terms.t).toInt = terms.s.toInt + terms.t.toInt
  toInt_three : (terms.s + terms.t + terms.r).toInt
    = terms.s.toInt + terms.t.toInt + terms.r.toInt
  nonneg : 0 ≤ (terms.s + terms.t + terms.r).toInt
  add_le : (terms.s + terms.t + terms.r).toInt + bytesPerTexel ≤ view.storage.bytes.size

theorem ByteAddressed.sumsInside {view : LevelView} {f : PixelFormat} {e : Axes Nat}
    (h : view.ByteAddressed f e) {terms : Axes Int32}
    (hterms : view.TexelTerms f.info.bytesPerBlock e terms) :
    view.SumsInside f.info.bytesPerBlock terms := by
  obtain ⟨x, hx, hs⟩ := hterms.s
  obtain ⟨y, hy, ht⟩ := hterms.t
  obtain ⟨z, hz, hr⟩ := hterms.r
  have hle := h.address_add_le hx hy hz
  have hlt := h.size_lt
  have hst : (terms.s + terms.t).toInt = terms.s.toInt + terms.t.toInt := by
    rw [toInt_add_of_fits] <;> omega
  have hstr : (terms.s + terms.t + terms.r).toInt
      = terms.s.toInt + terms.t.toInt + terms.r.toInt := by
    rw [toInt_add_of_fits] <;> omega
  exact ⟨hst, hstr, by omega, by omega⟩

/-- The byte offset of the texel with the given indices. -/
def byteOffset (view : LevelView) (bytesPerTexel : Nat) (p : Axes Int32) : Int32 :=
  p.s * Int32.ofNat bytesPerTexel + p.t * view.rowStride + p.r * view.sliceStride

/-- The byte offset of a texel is the offset of its block. -/
theorem ByteAddressed.toNatClampNeg_byteOffset {view : LevelView} {f : PixelFormat} {e : Axes Nat}
    {p : Axes Int32} (h : view.ByteAddressed f e) (hp : view.Inside p) :
    (view.byteOffset f.info.bytesPerBlock p).toNatClampNeg = view.blockOffset f.info p := by
  obtain ⟨hx, hy, hz⟩ := h.lt_of_inside hp
  obtain ⟨hs, ht, hr⟩ := h.toInt_mul hp
  have hterms : view.TexelTerms f.info.bytesPerBlock e
      ⟨p.s * Int32.ofNat f.info.bytesPerBlock, p.t * view.rowStride, p.r * view.sliceStride⟩ :=
    ⟨⟨_, hx, hs⟩, ⟨_, hy, ht⟩, ⟨_, hz, hr⟩⟩
  have hsum := (h.sumsInside hterms).toInt_three
  rw [blockOffset, h.width_eq_one, h.height_eq_one, Nat.div_one, Nat.div_one, byteOffset,
    Int32.toNatClampNeg, hsum, hs, ht, hr]
  omega

end LevelView

end QuadSampler
