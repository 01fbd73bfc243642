import QuadSampler.Proofs.Texture.Averages

/-!
# The faces of a cube

The faces of a cube are the slices of its levels, one behind the other. Two sources of one shape
that have the same bytes in a slice of every level they carry make textures with the same bytes in
that slice of every level (`Texture.agreeOn_levelBytes`), whatever the other slices hold.

For levels that the source carries this is how they are stored. For averaged levels it is how they
are averaged: a byte of a slice is a mean of bytes of the same slice of the parent
(`LevelLayout.IsParent.reducedByte_congr`), so agreement goes down the chain from level to level.
Volumes, which average slices too, have no such property.
-/

namespace QuadSampler

/-! ## Bytes that agree -/

namespace Storage

/-- Whether two storages hold the same bytes over a stretch. -/
def AgreeOn (bytes₁ bytes₂ : ByteArray) (start count : Nat) : Prop :=
  ∀ n, start ≤ n → n < start + count → byteAt bytes₁ n = byteAt bytes₂ n

variable {bytes₁ bytes₂ : ByteArray} {start count : Nat}

theorem AgreeOn.mono (h : AgreeOn bytes₁ bytes₂ start count) {start' count' : Nat}
    (hstart : start ≤ start') (hend : start' + count' ≤ start + count) :
    AgreeOn bytes₁ bytes₂ start' count' :=
  fun n hn hlt ↦ h n (Nat.le_trans hstart hn) (Nat.lt_of_lt_of_le hlt hend)

theorem AgreeOn.wordAt_eq (h : AgreeOn bytes₁ bytes₂ start count)
    (h₁ : start + count ≤ bytes₁.size) (h₂ : start + count ≤ bytes₂.size) :
    wordAt bytes₁ start count = wordAt bytes₂ start count := by
  have hextract : bytes₁.extract start (start + count) = bytes₂.extract start (start + count) := by
    refine ByteArray.ext_getElem ?_ fun i hi hi' ↦ ?_
    · rw [ByteArray.size_extract, ByteArray.size_extract]
      omega
    · rw [ByteArray.size_extract] at hi
      have hbyte := h (start + i) (Nat.le_add_right start i) (by omega)
      rw [byteAt_of_lt (by omega), byteAt_of_lt (by omega)] at hbyte
      rw [ByteArray.getElem_extract, ByteArray.getElem_extract]
      exact Except.ok.inj hbyte
  rw [wordAt, wordAt, bytesAt, bytesAt, if_pos h₁, if_pos h₂, hextract]

end Storage

/-! ## Averages within a slice -/

namespace LevelLayout

variable {parent child : LevelLayout} {b : Nat} {bytes₁ bytes₂ reduced₁ reduced₂ : ByteArray}
  {p : Axes Nat} {c slice : Nat}

theorem IsByte.byteOffset_in_slice (h : parent.IsTight b) (hp : parent.IsByte b p c) :
    p.r * parent.sliceStride ≤ parent.byteOffset b p c ∧
      parent.byteOffset b p c < p.r * parent.sliceStride + parent.sliceStride := by
  rw [byteOffset_eq]
  exact ⟨Nat.le_add_right _ _, Nat.add_lt_add_left (hp.inSlice_lt h) _⟩

theorem IsParent.reducedByte_congr (h : parent.IsParent child b false)
    (hp : child.IsByte b p c) (hagree : ∀ q, parent.IsByte b q c → q.r = p.r →
      Storage.byteAt bytes₁ (parent.byteOffset b q c)
        = Storage.byteAt bytes₂ (parent.byteOffset b q c)) :
    parent.reducedByte child b false bytes₁ (child.byteOffset b p c)
      = parent.reducedByte child b false bytes₂ (child.byteOffset b p c) := by
  rw [hp.reducedByte_byteOffset h.child_isTight, hp.reducedByte_byteOffset h.child_isTight,
    coveredOffsets_eq_map, List.mapM_map, List.mapM_map, mapM_congr fun q hq ↦ ?_]
  exact hagree q (h.isByte_of_mem hp hq) (r_eq_of_mem_coveredTexels hq)

/-- Slices that agree have averages that agree. -/
theorem IsParent.agreeOn_reduce (h : parent.IsParent child b false)
    (hslice : slice < child.extent.r)
    (hagree : Storage.AgreeOn bytes₁ bytes₂ (slice * parent.sliceStride) parent.sliceStride)
    (h₁ : parent.reduce child b false bytes₁ = .ok reduced₁)
    (h₂ : parent.reduce child b false bytes₂ = .ok reduced₂) :
    Storage.AgreeOn reduced₁ reduced₂ (slice * child.sliceStride) child.sliceStride := by
  intro n hn hlt
  have hend : (slice + 1) * child.sliceStride ≤ child.size := by
    rw [size, Nat.mul_comm child.sliceStride]
    exact Nat.mul_le_mul_right _ hslice
  rw [Nat.succ_mul] at hend
  have hsize : n < child.size := Nat.lt_of_lt_of_le hlt hend
  obtain ⟨p, c, hp, rfl⟩ := h.child_isTight.exists_byteOffset_eq h.pos_bytes hsize
  obtain rfl : p.r = slice := by
    obtain ⟨hle, hlt'⟩ := hp.byteOffset_in_slice h.child_isTight
    rw [← Nat.succ_mul] at hlt hlt'
    rw [← Nat.div_eq_of_lt_le hle hlt', Nat.div_eq_of_lt_le hn hlt]
  rw [byteAt_reduce h₁ hsize, byteAt_reduce h₂ hsize, h.reducedByte_congr hp fun q hq hr ↦ ?_]
  obtain ⟨hle, hlt'⟩ := hq.byteOffset_in_slice h.parent_isTight
  rw [hr] at hle hlt'
  exact hagree _ hle hlt'

end LevelLayout

/-! ## Sources of one shape -/

/-- Whether further levels come from the same place, and as many are given. -/
inductive FurtherLevels.SameKind : FurtherLevels → FurtherLevels → Prop
  | absent : SameKind .absent .absent
  | generated : SameKind .generated .generated
  | given {levels₁ levels₂ : List ByteArray} (length_eq : levels₂.length = levels₁.length) :
      SameKind (.given levels₁) (.given levels₂)

private theorem FurtherLevels.SameKind.generated_iff {further₁ further₂ : FurtherLevels}
    (h : further₁.SameKind further₂) : further₂ = .generated ↔ further₁ = .generated := by
  cases h with
  | absent => exact iff_of_false nofun nofun
  | generated => exact Iff.rfl
  | given => exact iff_of_false nofun nofun

namespace Source

/-- Whether two sources differ in nothing but the bytes they carry. -/
structure SameShape (source₁ source₂ : Source) : Prop where
  format_eq : source₂.format = source₁.format
  target_eq : source₂.target = source₁.target
  extent_eq : source₂.extent = source₁.extent
  further : source₁.further.SameKind source₂.further

/-- Whether two sources have the same bytes in a slice of every level that they carry. -/
def AgreeAt (source₁ source₂ : Source) (slice : Nat) : Prop :=
  ∀ level bytes₁ bytes₂, source₁.supplied? level = some bytes₁ →
    source₂.supplied? level = some bytes₂ →
    Storage.AgreeOn bytes₁ bytes₂ (slice * (source₁.layoutAt level 0).sliceStride)
      (source₁.layoutAt level 0).sliceStride

variable {source source₁ source₂ : Source}

private theorem SameShape.extentAt_eq (h : source₁.SameShape source₂) :
    source₂.extentAt = source₁.extentAt := by
  funext level
  simp only [extentAt, h.target_eq, h.extent_eq]

theorem SameShape.layoutAt_eq (h : source₁.SameShape source₂) :
    source₂.layoutAt = source₁.layoutAt := by
  funext level offset
  simp only [layoutAt, h.extentAt_eq, h.format_eq]

theorem SameShape.levelCount_eq (h : source₁.SameShape source₂) :
    source₂.levelCount = source₁.levelCount := by
  have hchain : source₂.fullChain = source₁.fullChain := by
    simp only [fullChain, greatestExtent, h.target_eq, h.extent_eq]
  have hfurther := h.further
  rw [levelCount, levelCount, hchain]
  revert hfurther
  generalize source₁.further = further₁
  generalize source₂.further = further₂
  rintro (_ | _ | hlength)
  · rfl
  · rfl
  · exact congrArg (· + 1) hlength

end Source

/-! ## Textures -/

/-- Textures made from sources of one shape that agree in a slice agree in it at every level. -/
theorem Texture.agreeOn_levelBytes {source₁ source₂ : Source} {texture₁ texture₂ : Texture}
    (hshape : source₁.SameShape source₂) (hflat : source₁.target ≠ .texture3D) {slice : Nat}
    (hslice : slice < source₁.extent.r) (hagree : source₁.AgreeAt source₂ slice)
    (h₁ : build source₁ = .ok texture₁) (h₂ : build source₂ = .ok texture₂) {k : Nat}
    (hk : k < source₁.levelCount) :
    Storage.AgreeOn (texture₁.levelBytes k) (texture₂.levelBytes k)
      (slice * (source₁.layoutAt k 0).sliceStride) (source₁.layoutAt k 0).sliceStride := by
  have hbuilt₁ := builtFrom_of_build h₁
  have hbuilt₂ := builtFrom_of_build h₂
  have hcount := hshape.levelCount_eq
  have hsupplied : ∀ k bytes₁ bytes₂, source₁.supplied? k = some bytes₁ →
      source₂.supplied? k = some bytes₂ →
      Storage.AgreeOn (texture₁.levelBytes k) (texture₂.levelBytes k)
        (slice * (source₁.layoutAt k 0).sliceStride) (source₁.layoutAt k 0).sliceStride := by
    intro k bytes₁ bytes₂ hk₁ hk₂
    rw [hbuilt₁.levelBytes_eq k bytes₁ hk₁, hbuilt₂.levelBytes_eq k bytes₂ hk₂]
    exact hagree k bytes₁ bytes₂ hk₁ hk₂
  by_cases hgenerated : source₁.further = .generated
  · have hgenerated₂ := hshape.further.generated_iff.2 hgenerated
    have hflat₂ : decide (source₁.target = .texture3D) = false := decide_eq_false hflat
    -- agreement goes down the chain of averaged levels
    induction k with
    | zero => exact hsupplied 0 _ _ rfl rfl
    | succ k ih =>
      have hagree := ih (Nat.lt_of_succ_lt hk)
      have hr : (source₁.extentAt (k + 1)).r = source₁.extent.r := if_neg hflat
      obtain ⟨hparent, -, hreduce₁⟩ :=
        reduce_of_build h₁ hgenerated (by rwa [hbuilt₁.levelCount_eq])
      obtain ⟨-, -, hreduce₂⟩ :=
        reduce_of_build h₂ hgenerated₂ (by rwa [hbuilt₂.levelCount_eq, hcount])
      rw [hbuilt₁.layout_eq k (Nat.lt_of_succ_lt hk), hbuilt₁.layout_eq (k + 1) hk,
        hbuilt₁.format_eq, hbuilt₁.target_eq, hflat₂] at hparent hreduce₁
      rw [hbuilt₂.layout_eq k (hcount.symm ▸ Nat.lt_of_succ_lt hk),
        hbuilt₂.layout_eq (k + 1) (hcount.symm ▸ hk), hbuilt₂.format_eq, hbuilt₂.target_eq,
        hshape.layoutAt_eq, hshape.format_eq, hshape.target_eq, hflat₂] at hreduce₂
      exact hparent.agreeOn_reduce (hr ▸ hslice) hagree hreduce₁ hreduce₂
  · obtain ⟨bytes₁, hsome₁⟩ := Source.exists_supplied hgenerated hk
    obtain ⟨bytes₂, hsome₂⟩ := Source.exists_supplied (mt hshape.further.generated_iff.1 hgenerated)
      (hcount.symm ▸ hk)
    exact hsupplied k bytes₁ bytes₂ hsome₁ hsome₂

end QuadSampler
