import Mathlib.Algebra.BigOperators.Group.Finset.Basic
import Mathlib.Algebra.Order.BigOperators.Group.List
import QuadSampler.Proofs.LevelView.Packed
import QuadSampler.Proofs.Texture.Layout

/-!
# What an averaged level holds

A texture of averaged levels stores single texels, so a level is a tight array of texels, and a byte
of it has a texel and a number within the texel (`LevelLayout.byteOffset`). In these terms the
averages read as they are meant: byte `c` of a texel is the rounded mean of byte `c` of the texels
that it covers in the level above (`LevelLayout.IsParent.texel_reduce`), and those texels are in
that level (`LevelLayout.IsParent.isByte_of_mem`). Sums of eight bytes are far from the limits of
their words, so nothing wraps on the way (`LevelLayout.toNat_meanByte`).

The chain of levels is followed in one place, `LevelLayout.getElem_of_reduceChain`: each level is
the average of the one before it.
-/

namespace QuadSampler

/-! ## Tight levels -/

private theorem PixelFormat.block_of_isBytewise {f : PixelFormat} (h : f.info.isBytewise = true) :
    f.info.block.width = 1 ∧ f.info.block.height = 1 := by
  revert h
  cases f <;> decide

theorem Storage.byteAt_of_lt {bytes : ByteArray} {n : Nat} (h : n < bytes.size) :
    byteAt bytes n = .ok bytes[n] := dif_pos h

namespace LevelLayout

/-- Whether single texels lie in the rows of a level without gaps, and the rows in its slices. -/
structure IsTight (layout : LevelLayout) (bytesPerTexel : Nat) : Prop where
  rowStride_eq : layout.rowStride = layout.extent.s * bytesPerTexel
  sliceStride_eq : layout.sliceStride = layout.rowStride * layout.extent.t
  pos_s : 0 < layout.extent.s
  pos_t : 0 < layout.extent.t

/-- Where byte `c` of texel `p` lies in its level. -/
def byteOffset (layout : LevelLayout) (bytesPerTexel : Nat) (p : Axes Nat) (c : Nat) : Nat :=
  p.r * layout.sliceStride + p.t * layout.rowStride + p.s * bytesPerTexel + c

/-- Whether there is a byte `c` of texel `p` in the level. -/
structure IsByte (layout : LevelLayout) (bytesPerTexel : Nat) (p : Axes Nat) (c : Nat) : Prop where
  lt_s : p.s < layout.extent.s
  lt_t : p.t < layout.extent.t
  lt_r : p.r < layout.extent.r
  lt_c : c < bytesPerTexel

/-- Byte `c` of texel `p`, in a level of the given bytes. -/
def texel (layout : LevelLayout) (bytesPerTexel : Nat) (bytes : ByteArray) (p : Axes Nat)
    (c : Nat) : Nat :=
  ((Storage.byteAt bytes (layout.byteOffset bytesPerTexel p c)).toOption.getD 0).toNat

variable {layout parent child : LevelLayout} {b : Nat} {bytes reduced : ByteArray} {p : Axes Nat}
  {c : Nat}

private theorem mul_add_div_eq {i j w : Nat} (hi : i < w) : (j * w + i) / w = j := by
  rw [Nat.mul_comm, Nat.mul_add_div (Nat.zero_lt_of_lt hi), Nat.div_eq_of_lt hi, Nat.add_zero]

private theorem mul_add_mod_eq {i j w : Nat} (hi : i < w) : (j * w + i) % w = i := by
  rw [Nat.mul_add_mod', Nat.mod_eq_of_lt hi]

private theorem IsByte.inRow_lt (h : layout.IsTight b) (hp : layout.IsByte b p c) :
    p.s * b + c < layout.rowStride := by
  rw [h.rowStride_eq]
  exact row_mul_add_lt hp.lt_c hp.lt_s

theorem IsByte.inSlice_lt (h : layout.IsTight b) (hp : layout.IsByte b p c) :
    p.t * layout.rowStride + (p.s * b + c) < layout.sliceStride := by
  rw [h.sliceStride_eq, Nat.mul_comm layout.rowStride]
  exact row_mul_add_lt (hp.inRow_lt h) hp.lt_t

theorem byteOffset_eq (layout : LevelLayout) (b : Nat) (p : Axes Nat) (c : Nat) :
    layout.byteOffset b p c = p.r * layout.sliceStride + (p.t * layout.rowStride + (p.s * b + c)) :=
    by rw [byteOffset, Nat.add_assoc, Nat.add_assoc]

theorem IsByte.byteOffset_lt (h : layout.IsTight b) (hp : layout.IsByte b p c) :
    layout.byteOffset b p c < layout.size := by
  rw [byteOffset_eq, size, Nat.mul_comm layout.sliceStride]
  exact row_mul_add_lt (hp.inSlice_lt h) hp.lt_r

theorem IsTight.exists_byteOffset_eq (h : layout.IsTight b) (hb : 0 < b) {n : Nat}
    (hn : n < layout.size) : ∃ p c, layout.IsByte b p c ∧ layout.byteOffset b p c = n := by
  have hrow : 0 < layout.rowStride := h.rowStride_eq ▸ Nat.mul_pos h.pos_s hb
  have hslice : 0 < layout.sliceStride := h.sliceStride_eq ▸ Nat.mul_pos hrow h.pos_t
  let inSlice := n % layout.sliceStride
  let inRow := inSlice % layout.rowStride
  refine ⟨⟨inRow / b, inSlice / layout.rowStride, n / layout.sliceStride⟩, inRow % b,
    ⟨?_, ?_, ?_, Nat.mod_lt _ hb⟩, ?_⟩
  · exact Nat.div_lt_of_lt_mul (Nat.mul_comm _ b ▸ h.rowStride_eq ▸ Nat.mod_lt _ hrow)
  · exact Nat.div_lt_of_lt_mul (h.sliceStride_eq ▸ Nat.mod_lt _ hslice)
  · exact Nat.div_lt_of_lt_mul hn
  · rw [byteOffset_eq, Nat.div_add_mod' inRow, Nat.div_add_mod' inSlice, Nat.div_add_mod' n]

theorem IsByte.byteAt_eq (h : layout.IsTight b) (hbytes : bytes.size = layout.size)
    (hp : layout.IsByte b p c) :
    Storage.byteAt bytes (layout.byteOffset b p c)
      = .ok (UInt8.ofNat (layout.texel b bytes p c)) := by
  have hlt : layout.byteOffset b p c < bytes.size := hbytes ▸ hp.byteOffset_lt h
  have hbyte := Storage.byteAt_of_lt hlt
  rw [texel, hbyte]
  exact congrArg Except.ok UInt8.ofNat_toNat.symm

theorem texel_lt (layout : LevelLayout) (b : Nat) (bytes : ByteArray) (p : Axes Nat) (c : Nat) :
    layout.texel b bytes p c < 256 := UInt8.toNat_lt _

theorem lt_of_mem_map_texel {texels : List (Axes Nat)} {v : Nat}
    (hv : v ∈ texels.map fun q ↦ layout.texel b bytes q c) : v < 256 := by
  obtain ⟨q, -, rfl⟩ := List.mem_map.1 hv
  exact layout.texel_lt b bytes q c

/-! ## Rounded means -/

/-- The mean of some numbers, rounded to the nearest, a half going up. -/
def roundedMean (values : List Nat) : Nat :=
  (values.sum + values.length / 2) / values.length

theorem sum_le_of_lt {values : List Nat} {n : Nat} (h : ∀ v ∈ values, v < n + 1) :
    values.sum ≤ values.length * n := by
  simpa using List.sum_le_card_nsmul values n fun v hv ↦ Nat.le_of_lt_succ (h v hv)

theorem roundedMean_lt {values : List Nat} (hne : values ≠ []) (h : ∀ v ∈ values, v < 256) :
    roundedMean values < 256 := by
  have hpos := List.length_pos_iff.2 hne
  have hsum := sum_le_of_lt h
  rw [roundedMean, Nat.div_lt_iff_lt_mul hpos]
  omega

private theorem toNat_foldr_add {samples : List UInt8}
    (h : (samples.map UInt8.toNat).sum < 2 ^ 32) :
    ((samples.map UInt8.toUInt32).foldr (· + ·) 0).toNat = (samples.map UInt8.toNat).sum := by
  induction samples with
  | nil => rfl
  | cons sample samples ih =>
    rw [List.map_cons, List.sum_cons] at h
    rw [List.map_cons, List.foldr_cons, UInt32.toNat_add, UInt8.toNat_toUInt32,
      ih (Nat.lt_of_le_of_lt (Nat.le_add_left _ _) h), List.map_cons, List.sum_cons,
      Nat.mod_eq_of_lt h]

/-- No word wraps in the mean of fewer than `2 ^ 16` bytes. -/
theorem toNat_meanByte {samples : List UInt8} (hne : samples ≠ [])
    (hlength : samples.length < 2 ^ 16) :
    (meanByte samples).toNat = roundedMean (samples.map UInt8.toNat) := by
  have hbytes : ∀ v ∈ samples.map UInt8.toNat, v < 256 := by
    intro v hv
    obtain ⟨sample, -, rfl⟩ := List.mem_map.1 hv
    exact sample.toNat_lt
  have hsum := sum_le_of_lt hbytes
  have hmean := roundedMean_lt (by simpa using hne) hbytes
  rw [List.length_map] at hsum
  rw [roundedMean, List.length_map] at hmean ⊢
  have hcount : (UInt32.ofNat samples.length).toNat = samples.length :=
    UInt32.toNat_ofNat_of_lt' (by rw [UInt32.size]; omega)
  simp only [meanByte, UInt32.toNat_toUInt8, UInt32.toNat_div, UInt32.toNat_add, hcount,
    toNat_foldr_add (show (samples.map UInt8.toNat).sum < 2 ^ 32 by omega)]
  rw [show UInt32.toNat 2 = 2 from rfl, Nat.mod_eq_of_lt
    (show (samples.map UInt8.toNat).sum + samples.length / 2 < 2 ^ 32 by omega),
    Nat.mod_eq_of_lt hmean]

/-! ## Averages of texels -/

/-- Whether a level is averaged from another, as far as its layout goes. -/
structure IsParent (parent child : LevelLayout) (bytesPerTexel : Nat) (reduceSlices : Bool) :
    Prop where
  parent_isTight : parent.IsTight bytesPerTexel
  child_isTight : child.IsTight bytesPerTexel
  pos_bytes : 0 < bytesPerTexel
  pos_r : 0 < parent.extent.r
  child_s : child.extent.s = max (parent.extent.s / 2) 1
  child_t : child.extent.t = max (parent.extent.t / 2) 1
  child_r : child.extent.r
    = if reduceSlices then max (parent.extent.r / 2) 1 else parent.extent.r

variable {slices : Bool}

private theorem lt_of_mem_covered {i j length : Nat} (hpos : 0 < length)
    (h : j ∈ covered i length) :
    j < length := by
  simp only [covered, List.mem_cons, List.not_mem_nil, or_false] at h
  omega

/-- The texels of the parent that texel `p` covers. -/
def coveredTexels (parent : LevelLayout) (reduceSlices : Bool) (p : Axes Nat) : List (Axes Nat) :=
  (if reduceSlices then covered p.r parent.extent.r else [p.r]).flatMap fun z ↦
    (covered p.t parent.extent.t).flatMap fun y ↦
      (covered p.s parent.extent.s).map fun x ↦ ⟨x, y, z⟩

theorem coveredOffsets_eq_map (parent : LevelLayout) (b : Nat) (slices : Bool) (p : Axes Nat)
    (c : Nat) :
    parent.coveredOffsets b slices p c
      = (parent.coveredTexels slices p).map fun q ↦ parent.byteOffset b q c := by
  simp only [coveredOffsets, coveredTexels, List.map_flatMap, List.map_map]
  rfl

theorem length_coveredTexels (parent : LevelLayout) (slices : Bool) (p : Axes Nat) :
    (parent.coveredTexels slices p).length = if slices then 8 else 4 := by
  cases slices <;> rfl

theorem map_coveredTexels_ne_nil {α : Type} (parent : LevelLayout) (slices : Bool) (p : Axes Nat)
    (f : Axes Nat → α) : (parent.coveredTexels slices p).map f ≠ [] := by
  cases slices <;> exact List.cons_ne_nil _ _

/-- The bytes that a byte is averaged from are bytes of the parent. -/
theorem IsParent.isByte_of_mem (h : parent.IsParent child b slices) (hp : child.IsByte b p c)
    {q : Axes Nat} (hq : q ∈ parent.coveredTexels slices p) : parent.IsByte b q c := by
  simp only [coveredTexels, List.mem_flatMap, List.mem_map] at hq
  obtain ⟨z, hz, y, hy, x, hx, rfl⟩ := hq
  refine ⟨lt_of_mem_covered h.parent_isTight.pos_s hx, lt_of_mem_covered h.parent_isTight.pos_t hy,
    ?_, hp.lt_c⟩
  cases slices with
  | true => exact lt_of_mem_covered h.pos_r hz
  | false =>
    obtain rfl : z = p.r := by simpa using hz
    have hr : child.extent.r = parent.extent.r := h.child_r
    exact hr ▸ hp.lt_r

theorem r_eq_of_mem_coveredTexels {q : Axes Nat} (hq : q ∈ parent.coveredTexels false p) :
    q.r = p.r := by
  simp only [coveredTexels, Bool.false_eq_true, if_false, List.flatMap_cons, List.flatMap_nil,
    List.append_nil, List.mem_flatMap, List.mem_map] at hq
  obtain ⟨y, -, x, -, rfl⟩ := hq
  rfl

/-- The texel of the parent that is `dx` columns, `dy` rows and, where slices are averaged, `dz`
slices from the first one that texel `p` covers, held inside the parent. -/
def coveredTexel (parent : LevelLayout) (reduceSlices : Bool) (p : Axes Nat) (dx dy dz : Nat) :
    Axes Nat where
  s := min (2 * p.s + dx) (parent.extent.s - 1)
  t := min (2 * p.t + dy) (parent.extent.t - 1)
  r := if reduceSlices then min (2 * p.r + dz) (parent.extent.r - 1) else p.r

private theorem mem_covered {i d length : Nat} (hd : d < 2) :
    min (2 * i + d) (length - 1) ∈ covered i length := by
  have hcases : d = 0 ∨ d = 1 := by omega
  rcases hcases with rfl | rfl
  · exact List.mem_cons_self
  · exact List.mem_cons_of_mem _ List.mem_cons_self

theorem coveredTexel_mem (parent : LevelLayout) (slices : Bool) (p : Axes Nat) {dx dy dz : Nat}
    (hx : dx < 2) (hy : dy < 2) (hz : dz < 2) :
    parent.coveredTexel slices p dx dy dz ∈ parent.coveredTexels slices p := by
  refine List.mem_flatMap.2 ⟨_, ?_, List.mem_flatMap.2 ⟨_, mem_covered hy,
    List.mem_map.2 ⟨_, mem_covered hx, rfl⟩⟩⟩
  cases slices with
  | true => exact mem_covered hz
  | false => exact List.mem_singleton_self p.r

theorem sum_coveredTexels (parent : LevelLayout) (slices : Bool) (p : Axes Nat)
    (f : Axes Nat → Nat) :
    ((parent.coveredTexels slices p).map f).sum
      = ∑ dz ∈ Finset.range (if slices then 2 else 1), ∑ dy ∈ Finset.range 2,
          ∑ dx ∈ Finset.range 2, f (parent.coveredTexel slices p dx dy dz) := by
  cases slices with
  | true =>
    simp only [coveredTexels, coveredTexel, covered, if_true, Finset.sum_range_succ,
      Finset.sum_range_zero, List.flatMap_cons, List.flatMap_nil, List.map_cons, List.map_nil,
      List.append_nil, List.cons_append, List.nil_append, List.sum_cons, List.sum_nil,
      Nat.add_zero, Nat.zero_add, Nat.add_assoc]
  | false =>
    simp only [coveredTexels, coveredTexel, covered, Bool.false_eq_true, if_false,
      Finset.sum_range_succ, Finset.sum_range_zero, List.flatMap_cons, List.flatMap_nil,
      List.map_cons, List.map_nil, List.append_nil, List.cons_append, List.nil_append,
      List.sum_cons, List.sum_nil, Nat.add_zero, Nat.zero_add, Nat.add_assoc]

theorem IsByte.reducedByte_byteOffset (h : child.IsTight b) (hp : child.IsByte b p c)
    (parent : LevelLayout) (slices : Bool) (bytes : ByteArray) :
    parent.reducedByte child b slices bytes (child.byteOffset b p c)
      = (do
          let samples ← (parent.coveredOffsets b slices p c).mapM (Storage.byteAt bytes)
          return meanByte samples) := by
  simp only [reducedByte, byteOffset_eq, mul_add_div_eq (hp.inSlice_lt h),
    mul_add_mod_eq (hp.inSlice_lt h), mul_add_div_eq (hp.inRow_lt h),
    mul_add_mod_eq (hp.inRow_lt h), mul_add_div_eq hp.lt_c, mul_add_mod_eq hp.lt_c]

/-- The byte of a texel is averaged from the same byte of the texels that it covers. -/
theorem IsParent.reducedByte_eq (h : parent.IsParent child b slices)
    (hbytes : bytes.size = parent.size) (hp : child.IsByte b p c) :
    parent.reducedByte child b slices bytes (child.byteOffset b p c)
      = .ok (UInt8.ofNat (roundedMean
          ((parent.coveredTexels slices p).map fun q ↦ parent.texel b bytes q c))) := by
  have hsamples : (parent.coveredOffsets b slices p c).mapM (Storage.byteAt bytes)
      = .ok ((parent.coveredTexels slices p).map fun q ↦
          UInt8.ofNat (parent.texel b bytes q c)) := by
    rw [coveredOffsets_eq_map, List.mapM_map]
    exact mapM_eq_ok_map fun q hq ↦ (h.isByte_of_mem hp hq).byteAt_eq h.parent_isTight hbytes
  have hvalues : ((parent.coveredTexels slices p).map fun q ↦
      UInt8.ofNat (parent.texel b bytes q c)).map UInt8.toNat
        = (parent.coveredTexels slices p).map fun q ↦ parent.texel b bytes q c := by
    rw [List.map_map]
    exact List.map_congr_left fun q _ ↦ UInt8.toNat_ofNat_of_lt' (parent.texel_lt b bytes q c)
  have hlength := parent.length_coveredTexels slices p
  rw [hp.reducedByte_byteOffset h.child_isTight, hsamples]
  rw [← hvalues, ← toNat_meanByte (parent.map_coveredTexels_ne_nil slices p _)
    (by rw [List.length_map, hlength]; split <;> decide), UInt8.ofNat_toNat]
  rfl

theorem byteAt_reduce (h : parent.reduce child b slices bytes = .ok reduced) {n : Nat}
    (hn : n < child.size) :
    Storage.byteAt reduced n = parent.reducedByte child b slices bytes n := by
  obtain ⟨list, hlist, h⟩ := bind_eq_ok.1 h
  obtain rfl := Except.ok.inj h
  have hlength : list.length = child.size := by
    rw [length_of_mapM_eq_ok hlist, List.length_range]
  have hget := (forall₂_of_mapM_eq_ok hlist).get (i := n) (by rwa [List.length_range])
    (by rwa [hlength])
  rw [List.get_eq_getElem, List.get_eq_getElem, List.getElem_range] at hget
  rw [Storage.byteAt_of_lt (by rwa [List.size_toByteArray, hlength]), List.getElem_toByteArray,
    hget]

/-- **Averages.** A byte of a texel is the rounded mean of the same byte of the texels that it
covers. -/
theorem IsParent.texel_reduce (h : parent.IsParent child b slices)
    (hbytes : bytes.size = parent.size) (hreduce : parent.reduce child b slices bytes = .ok reduced)
    (hp : child.IsByte b p c) :
    child.texel b reduced p c
      = roundedMean ((parent.coveredTexels slices p).map fun q ↦ parent.texel b bytes q c) := by
  have hmean := roundedMean_lt (parent.map_coveredTexels_ne_nil slices p
    fun q ↦ parent.texel b bytes q c) fun v ↦ lt_of_mem_map_texel
  rw [texel, byteAt_reduce hreduce (hp.byteOffset_lt h.child_isTight), h.reducedByte_eq hbytes hp]
  exact UInt8.toNat_ofNat_of_lt' hmean

theorem IsParent.exists_reduce_eq_ok (h : parent.IsParent child b slices)
    (hbytes : bytes.size = parent.size) :
    ∃ reduced, parent.reduce child b slices bytes = .ok reduced := by
  have hall : ∀ n ∈ List.range child.size, ∃ byte,
      parent.reducedByte child b slices bytes n = .ok byte := by
    intro n hn
    obtain ⟨p, c, hp, rfl⟩ :=
      h.child_isTight.exists_byteOffset_eq h.pos_bytes (List.mem_range.1 hn)
    exact ⟨_, h.reducedByte_eq hbytes hp⟩
  choose! byte hbyte using hall
  exact ⟨_, bind_eq_ok.2 ⟨_, mapM_eq_ok_map hbyte, rfl⟩⟩

theorem getElem_of_reduceChain {layouts : List LevelLayout} {levels : List ByteArray}
    (h : reduceChain b slices parent bytes layouts = .ok levels) {k : Nat} (hk : k < layouts.length)
    (hk' : k < levels.length) (hparent : k < (parent :: layouts).length)
    (hbytes : k < (bytes :: levels).length) :
    (parent :: layouts)[k].reduce layouts[k] b slices (bytes :: levels)[k] = .ok levels[k] := by
  induction layouts generalizing parent bytes levels k with
  | nil => exact absurd hk (Nat.not_lt_zero k)
  | cons child rest ih =>
    obtain ⟨reduced, hreduced, h⟩ := bind_eq_ok.1 h
    obtain ⟨below, hbelow, h⟩ := bind_eq_ok.1 h
    obtain rfl := Except.ok.inj h
    cases k with
    | zero => exact hreduced
    | succ k =>
      exact ih hbelow (Nat.lt_of_succ_lt_succ hk) (Nat.lt_of_succ_lt_succ hk')
        (Nat.lt_of_succ_lt_succ hparent) (Nat.lt_of_succ_lt_succ hbytes)

end LevelLayout

/-! ## Levels of a texture -/

namespace Source

variable {source : Source}

theorem isTight_layoutAt (hbytewise : source.format.info.isBytewise = true)
    (level offset : Nat) :
    (source.layoutAt level offset).IsTight source.format.info.bytesPerBlock := by
  obtain ⟨hwidth, hheight⟩ := PixelFormat.block_of_isBytewise hbytewise
  refine ⟨?_, ?_, levelExtent_pos _ _, levelExtent_pos _ _⟩
  · simp only [layoutAt, hwidth, Nat.add_sub_cancel, Nat.div_one]
  · simp only [layoutAt, hheight, Nat.add_sub_cancel, Nat.div_one]

theorem levelExtent_succ {k : Nat} (hk : k < 31) (base : Nat) :
    levelExtent base (k + 1) = max (levelExtent base k / 2) 1 := by
  rw [levelExtent, levelExtent, Nat.min_eq_left hk, Nat.min_eq_left (Nat.le_of_lt hk), Nat.pow_succ,
    ← Nat.div_div_eq_div_mul]
  omega

theorem isParent_layoutAt (hbytewise : source.format.info.isBytewise = true)
    (hr : 0 < source.extent.r) {k : Nat} (hk : k < 31) (offset offset' : Nat) :
    (source.layoutAt k offset).IsParent (source.layoutAt (k + 1) offset')
      source.format.info.bytesPerBlock (source.target = .texture3D) where
  parent_isTight := isTight_layoutAt hbytewise k offset
  child_isTight := isTight_layoutAt hbytewise (k + 1) offset'
  pos_bytes := source.format.bytesPerBlock_pos
  pos_r := by
    simp only [layoutAt, extentAt]
    split
    · exact levelExtent_pos _ _
    · exact hr
  child_s := levelExtent_succ hk _
  child_t := levelExtent_succ hk _
  child_r := by
    simp only [layoutAt, extentAt, decide_eq_true_eq]
    split
    · exact levelExtent_succ hk _
    · rfl

theorem exists_reduceChain_eq_ok (hbytewise : source.format.info.isBytewise = true)
    (hr : 0 < source.extent.r) {k count : Nat} (hcount : k + count ≤ 31) (offset : Nat)
    {bytes : ByteArray} (hbytes : bytes.size = source.levelSize k) :
    ∃ levels, LevelLayout.reduceChain source.format.info.bytesPerBlock
        (source.target = .texture3D) (source.layoutAt k offset) bytes
        (source.layoutsFrom (k + 1) (offset + (source.layoutAt k offset).size) count)
      = .ok levels := by
  induction count generalizing k offset bytes with
  | zero => exact ⟨[], rfl⟩
  | succ count ih =>
    obtain ⟨reduced, hreduced⟩ := (isParent_layoutAt hbytewise hr (by omega) offset
      (offset + (source.layoutAt k offset).size)).exists_reduce_eq_ok hbytes
    obtain ⟨below, hbelow⟩ := ih (by omega) (offset + (source.layoutAt k offset).size)
      (size_of_reduce_eq_ok hreduced)
    exact ⟨_, bind_eq_ok.2 ⟨reduced, hreduced, bind_eq_ok.2 ⟨below, hbelow, rfl⟩⟩⟩

private theorem reduceChain_of_furtherLevels (hfurther : source.further = .generated)
    {levels : List ByteArray} (h : source.furtherLevels = .ok levels) :
    source.format.info.isBytewise = true ∧
      LevelLayout.reduceChain source.format.info.bytesPerBlock (source.target = .texture3D)
        source.baseLayout source.texels source.furtherLayouts = .ok levels := by
  simp only [furtherLevels, hfurther] at h
  split at h
  · exact ⟨by assumption, mapError_eq_ok.1 h⟩
  · cases h

end Source

namespace Texture

variable {texture : Texture} {source : Source}

def texelByte (texture : Texture) (k : Nat) (p : Axes Nat) (c : Nat) : Nat :=
  (texture.layout k).texel texture.format.info.bytesPerBlock (texture.levelBytes k) p c

/-- Whether there is a byte `c` of texel `p` at a level. -/
def HasByte (texture : Texture) (k : Nat) (p : Axes Nat) (c : Nat) : Prop :=
  (texture.layout k).IsByte texture.format.info.bytesPerBlock p c

/-- The parent of an averaged level, and how it is averaged. -/
theorem reduce_of_build (h : build source = .ok texture) (hgenerated : source.further = .generated)
    {k : Nat} (hk : k + 1 < texture.levelCount) :
    (texture.layout k).IsParent (texture.layout (k + 1)) texture.format.info.bytesPerBlock
        (texture.target = .texture3D) ∧
      (texture.levelBytes k).size = (texture.layout k).size ∧
      (texture.layout k).reduce (texture.layout (k + 1)) texture.format.info.bytesPerBlock
        (texture.target = .texture3D) (texture.levelBytes k)
          = .ok (texture.levelBytes (k + 1)) := by
  obtain ⟨hbuilt, levels, hlevels, hbytes⟩ := exists_levels_of_build h
  obtain ⟨hbytewise, hchain⟩ := Source.reduceChain_of_furtherLevels hgenerated hlevels
  have hlength := (Source.fills_of_furtherLevels hlevels).1
  have hmax : maxLevels = 16 := rfl
  have hcount := hbuilt.levelCount_le
  rw [hbuilt.levelCount_eq] at hk
  have hk' : k < levels.length := by omega
  have hbytes₀ := hbytes k (Nat.lt_succ_of_lt hk')
  have hlayouts := source.baseLayout_cons_furtherLayouts
  have hfurther : k < source.furtherLayouts.length := by
    have := congrArg List.length hlayouts
    rw [List.length_cons, List.length_map, List.length_range'] at this
    omega
  have hat : ∀ j (hj : j < (source.baseLayout :: source.furtherLayouts).length),
      (source.baseLayout :: source.furtherLayouts)[j]
        = source.layoutAt j (source.levelOffset j) := by
    intro j hj
    simp only [hlayouts, List.getElem_map, List.getElem_range', Nat.one_mul, Nat.zero_add]
  have hreduce := LevelLayout.getElem_of_reduceChain hchain hfurther hk'
    (Nat.lt_succ_of_lt hfurther) (Nat.lt_succ_of_lt hk')
  have hnext := hat (k + 1) (Nat.succ_lt_succ hfurther)
  rw [List.getElem_cons_succ] at hnext
  rw [hat k (Nat.lt_succ_of_lt hfurther), hnext] at hreduce
  rw [hbuilt.layout_eq k (by omega), hbuilt.layout_eq (k + 1) hk, hbuilt.format_eq,
    hbuilt.target_eq, hbytes₀, hbytes (k + 1) (Nat.succ_lt_succ hk')]
  refine ⟨Source.isParent_layoutAt hbytewise hbuilt.pos_r (by omega) _ _, ?_, hreduce⟩
  rw [← hbytes₀, hbuilt.size_levelBytes k (by omega)]
  rfl

theorem byteAt_texelByte (h : build source = .ok texture) (hgenerated : source.further = .generated)
    {k : Nat} (hk : k < texture.levelCount) {p : Axes Nat} {c : Nat} (hp : texture.HasByte k p c) :
    Storage.byteAt (texture.levelBytes k)
        ((texture.layout k).byteOffset texture.format.info.bytesPerBlock p c)
      = .ok (UInt8.ofNat (texture.texelByte k p c)) := by
  obtain ⟨hbuilt, levels, hlevels, -⟩ := exists_levels_of_build h
  have hbytewise := (Source.reduceChain_of_furtherLevels hgenerated hlevels).1
  rw [hbuilt.levelCount_eq] at hk
  have hlayout := hbuilt.layout_eq k hk
  have htight : (texture.layout k).IsTight texture.format.info.bytesPerBlock := by
    rw [hlayout, hbuilt.format_eq]
    exact Source.isTight_layoutAt hbytewise k _
  refine hp.byteAt_eq htight ?_
  rw [hbuilt.size_levelBytes k hk, hlayout]
  rfl

/-- A byte of an averaged level is the rounded mean of the bytes that it covers. -/
theorem texelByte_succ (h : build source = .ok texture) (hgenerated : source.further = .generated)
    {k : Nat} (hk : k + 1 < texture.levelCount) {p : Axes Nat} {c : Nat}
    (hp : texture.HasByte (k + 1) p c) :
    texture.texelByte (k + 1) p c = LevelLayout.roundedMean
      (((texture.layout k).coveredTexels (texture.target = .texture3D) p).map fun q ↦
        texture.texelByte k q c) := by
  obtain ⟨hparent, hsize, hreduce⟩ := reduce_of_build h hgenerated hk
  exact hparent.texel_reduce hsize hreduce hp

end Texture

end QuadSampler
