import QuadSampler.Proofs.Texture.Averages
import QuadSampler.Texture.Assembly

/-!
# Assembly in place makes the same texture

`Texture.assemble` writes the levels of a texture into one storage and checks every step.
`Texture.build` has no storage to write to and nothing to check. Where the levels fit a storage, the
two agree on every source (`Texture.assemble_eq_build`): the same texture, or the same refusal. So
no check of an index, a word or the table ever fails, and nothing is written outside its level.

## Loops as paths

Each loop is followed along a path of states that is known beforehand. The sums over covered texels
go along the list of texels that have been added (`LevelLayout.sumsOver`), byte by byte of each
(`LevelLayout.splicedSums`). The bytes of a level go over from the old ones to the new ones in the
order of their offsets (`Storage.spliced`), which is the order in which the four loops visit them.
-/

namespace QuadSampler

/-! ## Checks that pass -/

theorem fitted_of_lt {bits n : Nat} (h : n < 2 ^ bits) : fitted bits n = .ok n := if_pos h

namespace Storage

theorem stretchAt_of_le {bytes : ByteArray} {start count : Nat} (h : start + count ≤ bytes.size) :
    stretchAt bytes start count = .ok (bytes.extract start (start + count)) := if_pos h

/-! ## Bytes written in order -/

/-- The first `n` bytes of one storage, and then those of another of its size. -/
def spliced (new old : ByteArray) (n : Nat) : ByteArray :=
  ⟨Array.ofFn fun i : Fin old.size ↦ if i < n then new[i]?.getD 0 else old[i]⟩

variable {new old : ByteArray} {n : Nat}

private theorem size_spliced (new old : ByteArray) (n : Nat) :
    (spliced new old n).size = old.size :=
  Array.size_ofFn

private theorem getElem_spliced {i : Nat} (h : i < (spliced new old n).size) (h' : i < old.size) :
    (spliced new old n)[i] = if i < n then new[i]?.getD 0 else old[i] :=
  Array.getElem_ofFn _

private theorem spliced_zero (new old : ByteArray) : spliced new old 0 = old := by
  refine ByteArray.ext_getElem (size_spliced _ _ _) fun i hi hi' ↦ ?_
  rw [getElem_spliced hi hi', if_neg (Nat.not_lt_zero i)]

private theorem spliced_size (h : new.size = old.size) : spliced new old old.size = new := by
  refine ByteArray.ext_getElem (by rw [size_spliced, h]) fun i hi hi' ↦ ?_
  rw [getElem_spliced hi (h ▸ hi'), if_pos (h ▸ hi'), getElem?_pos new i hi']
  rfl

/-- Writing the next byte moves the splice on. -/
private theorem setByte_spliced (h : new.size = old.size) {byte : UInt8}
    (hbyte : byteAt new n = .ok byte) :
    setByte (spliced new old n) n byte = .ok (spliced new old (n + 1)) := by
  have hn : n < new.size := by
    by_contra hn
    rw [byteAt, dif_neg hn] at hbyte
    exact nomatch hbyte
  have hn' : n < (spliced new old n).size := by rwa [size_spliced, ← h]
  rw [byteAt_of_lt hn] at hbyte
  rw [setByte, dif_pos hn']
  refine congrArg Except.ok (ByteArray.ext_getElem ?_ fun i hi hi' ↦ ?_)
  · rw [size_spliced, ← size_spliced new old n]
    exact Array.size_set _
  · have hold : i < old.size := by rwa [size_spliced] at hi'
    have hspliced : i < (spliced new old n).size := by rwa [size_spliced]
    have hset : ((spliced new old n).set n byte hn')[i]
        = if n = i then byte else (spliced new old n)[i] := Array.getElem_set ..
    rw [hset, getElem_spliced hspliced hold, getElem_spliced hi' hold]
    by_cases heq : n = i
    · subst heq
      rw [if_pos rfl, if_pos (Nat.lt_succ_self n), getElem?_pos new n hn]
      exact (Except.ok.inj hbyte).symm
    · rw [if_neg heq]
      by_cases hi : i < n
      · rw [if_pos hi, if_pos (Nat.lt_succ_of_lt hi)]
      · rw [if_neg hi, if_neg (by omega)]

end Storage

namespace LevelLayout

variable {parent child : LevelLayout} {b : Nat} {slices : Bool}
  {parentBytes bytes reduced : ByteArray} {p : Axes Nat} {c : Nat}

/-! ## Sums over covered texels -/

private theorem coveredWords_eq {i length : Nat} (hi : 2 * i + 1 < 2 ^ 32) (hpos : 0 < length) :
    coveredWords i length = .ok (covered i length) := by
  rw [coveredWords, fitted_of_lt (by omega), fitted_of_lt hi]
  exact if_neg (Nat.ne_of_gt hpos)

private theorem coveredWords_of_lt {i length halved : Nat} (hword : length < 2 ^ 32)
    (hpos : 0 < length) (hhalved : halved = max (length / 2) 1) (hi : i < halved) :
    coveredWords i length = .ok (covered i length) :=
  coveredWords_eq (by omega) hpos

def sumsOver (layout : LevelLayout) (b : Nat) (bytes : ByteArray) (texels : List (Axes Nat)) :
    Sums :=
  Vector.ofFn fun c ↦ if c.val < b then (texels.map fun q ↦ layout.texel b bytes q c).sum else 0

private theorem sumsOver_nil (layout : LevelLayout) (b : Nat) (bytes : ByteArray) :
    layout.sumsOver b bytes [] = Vector.replicate 16 0 := by
  ext i hi
  simp [sumsOver]

private theorem getElem_sumsOver {texels : List (Axes Nat)} (hc : c < b) (hc' : c < 16) :
    (parent.sumsOver b bytes texels)[c] = (texels.map fun q ↦ parent.texel b bytes q c).sum := by
  rw [sumsOver, Vector.getElem_ofFn, if_pos hc]

private theorem sum_map_texel_lt {texels : List (Axes Nat)} (hlength : texels.length ≤ 2 ^ 16) :
    (texels.map fun q ↦ parent.texel b bytes q c).sum < 2 ^ 32 := by
  have hbytes : ∀ v ∈ texels.map fun q ↦ parent.texel b bytes q c, v < 255 + 1 :=
    fun v ↦ lt_of_mem_map_texel
  have hle := sum_le_of_lt hbytes
  rw [List.length_map] at hle
  omega

/-- The first `n` of some sums, and then others. -/
def splicedSums (new old : Sums) (n : Nat) : Sums :=
  Vector.ofFn fun c ↦ if c.val < n then new[c] else old[c]

private theorem getElem_splicedSums {new old : Sums} {n i : Nat} (hi : i < 16) :
    (splicedSums new old n)[i] = if i < n then new[i] else old[i] :=
  Vector.getElem_ofFn _

private theorem splicedSums_zero (new old : Sums) : splicedSums new old 0 = old := by
  ext i hi
  rw [getElem_splicedSums hi, if_neg (Nat.not_lt_zero i)]

private theorem set_splicedSums (new old : Sums) {n : Nat} (hn : n < 16) :
    (splicedSums new old n).set n new[n] = splicedSums new old (n + 1) := by
  ext i hi
  rw [Vector.getElem_set, getElem_splicedSums hi, getElem_splicedSums hi]
  by_cases hin : n = i
  · subst hin
    rw [if_pos rfl, if_pos (Nat.lt_succ_self n)]
  · rw [if_neg hin]
    by_cases hlt : i < n
    · rw [if_pos hlt, if_pos (Nat.lt_succ_of_lt hlt)]
    · rw [if_neg hlt, if_neg (by omega)]

/-- Beside the bytes of a texel all sums are zero. -/
private theorem splicedSums_sumsOver (layout : LevelLayout) (b : Nat) (bytes : ByteArray)
    (more texels : List (Axes Nat)) :
    splicedSums (layout.sumsOver b bytes more) (layout.sumsOver b bytes texels) b
      = layout.sumsOver b bytes more := by
  ext i hi
  rw [getElem_splicedSums hi]
  by_cases hlt : i < b
  · rw [if_pos hlt]
  · rw [if_neg hlt, sumsOver, sumsOver, Vector.getElem_ofFn, Vector.getElem_ofFn, if_neg hlt,
      if_neg hlt]

private theorem foldlM_addByte (h : parent.IsTight b) (hb : b ≤ 16)
    (hbytes : bytes.size = parent.size)
    {q : Axes Nat} (hq : ∀ c < b, parent.IsByte b q c) {texels : List (Axes Nat)}
    (hlength : texels.length < 2 ^ 16) :
    (List.range b).foldlM (addByte bytes
        (q.r * parent.sliceStride + q.t * parent.rowStride + q.s * b))
        (parent.sumsOver b bytes texels)
      = .ok (parent.sumsOver b bytes (texels ++ [q])) := by
  let new := parent.sumsOver b bytes (texels ++ [q])
  let old := parent.sumsOver b bytes texels
  have hstep : ∀ i < b, addByte bytes (q.r * parent.sliceStride + q.t * parent.rowStride + q.s * b)
      (splicedSums new old i) i = .ok (splicedSums new old (i + 1)) := by
    intro i hi
    have hi16 : i < 16 := Nat.lt_of_lt_of_le hi hb
    have hbyte := (hq i hi).byteAt_eq h hbytes
    have hsum : (splicedSums new old i)[i] + (UInt8.ofNat (parent.texel b bytes q i)).toNat
        = new[i] := by
      rw [getElem_splicedSums hi16, if_neg (Nat.lt_irrefl i), getElem_sumsOver hi hi16,
        getElem_sumsOver hi hi16, UInt8.toNat_ofNat_of_lt' (parent.texel_lt b bytes q i),
        List.map_append, List.sum_append, List.map_singleton, List.sum_singleton]
    have hbound : new[i] < 2 ^ 32 := by
      rw [getElem_sumsOver hi hi16]
      exact sum_map_texel_lt (by rw [List.length_append, List.length_singleton]; exact hlength)
    rw [byteOffset] at hbyte
    simp only [addByte, hbyte, dif_pos hi16, bind, Except.bind, hsum, fitted_of_lt hbound]
    exact congrArg Except.ok (set_splicedSums new old hi16)
  have hloop := foldlM_range_eq_ok (splicedSums new old) hstep
  rwa [splicedSums_zero, splicedSums_sumsOver] at hloop

section Words

variable (h : parent.IsParent child b slices) (hb : b ≤ 16) (hs : parent.extent.s < 2 ^ 32)
  (ht : parent.extent.t < 2 ^ 32) (hr : parent.extent.r < 2 ^ 32)
  (hparent : parent.size < 2 ^ 64) (hchild : child.size < 2 ^ 64)
  (hbytes : parentBytes.size = parent.size)

include h hb hs ht hparent hbytes

private theorem sumCovered_eq (hp : ∀ c < b, child.IsByte b p c) :
    parent.sumCovered b parentBytes (if slices then covered p.r parent.extent.r else [p.r]) p.s p.t
      = .ok (parent.sumsOver b parentBytes (parent.coveredTexels slices p)) := by
  have hp0 := hp 0 h.pos_bytes
  have hrows := coveredWords_of_lt ht h.parent_isTight.pos_t h.child_t hp0.lt_t
  have hcolumns := coveredWords_of_lt hs h.parent_isTight.pos_s h.child_s hp0.lt_s
  have hmem := fun q (hq : q ∈ parent.coveredTexels slices p) c hc ↦ h.isByte_of_mem (hp c hc) hq
  have hlength := parent.length_coveredTexels slices p
  rw [sumCovered, ← sumsOver_nil, ← List.nil_append (parent.coveredTexels slices p)]
  simp only [hrows, hcolumns]
  refine foldlM_eq_ok_of_append 8 (fun z hz done hdone ↦ ?_) [] ?_
  · refine foldlM_eq_ok_of_append 8 (fun y hy done hdone ↦ ?_) done hdone
    rw [List.map_eq_flatMap] at hdone ⊢
    refine foldlM_eq_ok_of_append 8 (fun x hx done hdone ↦ ?_) done hdone
    have hq := hmem ⟨x, y, z⟩ (List.mem_flatMap.2 ⟨z, hz, List.mem_flatMap.2
      ⟨y, hy, List.mem_map.2 ⟨x, hx, rfl⟩⟩⟩)
    have hlt := (hq 0 h.pos_bytes).byteOffset_lt h.parent_isTight
    rw [byteOffset, Nat.add_zero] at hlt
    rw [List.length_append] at hdone
    simp only [fitted_of_lt (Nat.lt_trans hlt hparent)]
    exact foldlM_addByte h.parent_isTight hb hbytes hq (by omega)
  · rw [List.nil_append]
    exact Nat.le_trans (Nat.le_of_eq hlength) (by split <;> decide)

/-! ## Texels written in order -/

variable (hreduce : parent.reduce child b slices parentBytes = .ok reduced)
  (hsize : bytes.size = child.size)

include hreduce hsize

omit hs ht hparent in
private theorem writeMean_spliced (hp : child.IsByte b p c) :
    writeMean (parent.sumsOver b parentBytes (parent.coveredTexels slices p))
        (parent.coveredTexels slices p).length (child.byteOffset b p 0)
        (Storage.spliced reduced bytes (child.byteOffset b p c)) c
      = .ok (Storage.spliced reduced bytes (child.byteOffset b p (c + 1))) := by
  let values := (parent.coveredTexels slices p).map fun q ↦ parent.texel b parentBytes q c
  have hvalues : ∀ v ∈ values, v < 256 := fun v ↦ lt_of_mem_map_texel
  have hlength : values.length = (parent.coveredTexels slices p).length := List.length_map _
  have hshort : (parent.coveredTexels slices p).length ≤ 8 := by
    rw [length_coveredTexels]
    split <;> decide
  have hsum := sum_le_of_lt hvalues
  have hmean : roundedMean values < 256 :=
    roundedMean_lt (parent.map_coveredTexels_ne_nil slices p _) hvalues
  have hbyte := byteAt_reduce hreduce (hp.byteOffset_lt h.child_isTight)
  rw [h.reducedByte_eq hbytes hp, roundedMean, List.length_map] at hbyte
  have hwhole : reduced.size = bytes.size := by rw [hsize, Source.size_of_reduce_eq_ok hreduce]
  have hc : c < 16 := Nat.lt_of_lt_of_le hp.lt_c hb
  have hrounded : fitted 32 (values.sum + (parent.coveredTexels slices p).length / 2)
      = .ok (values.sum + (parent.coveredTexels slices p).length / 2) :=
    fitted_of_lt (by omega)
  rw [roundedMean, hlength] at hmean
  rw [writeMean, dif_pos hc, getElem_sumsOver hp.lt_c hc, hrounded]
  simp only [bind, Except.bind, fitted_of_lt (show _ < 2 ^ 8 from hmean)]
  exact Storage.setByte_spliced hwhole hbyte

include hchild

private theorem writeTexel_spliced (hp : ∀ c < b, child.IsByte b p c) :
    parent.writeTexel child b parentBytes
        (if slices then covered p.r parent.extent.r else [p.r]) p.r p.t
        (Storage.spliced reduced bytes (child.byteOffset b p 0)) p.s
      = .ok (Storage.spliced reduced bytes (child.byteOffset b p b)) := by
  have hcount : 4 * (if slices then covered p.r parent.extent.r else [p.r]).length
      = (parent.coveredTexels slices p).length := by
    cases slices <;> rfl
  have hshort : (parent.coveredTexels slices p).length < 2 ^ 32 := by
    rw [length_coveredTexels]
    split <;> decide
  have hlt := Nat.lt_trans ((hp 0 h.pos_bytes).byteOffset_lt h.child_isTight) hchild
  have hoffset : fitted 64 (p.r * child.sliceStride + p.t * child.rowStride + p.s * b)
      = .ok (child.byteOffset b p 0) := fitted_of_lt hlt
  rw [writeTexel, sumCovered_eq h hb hs ht hparent hbytes hp, hcount, fitted_of_lt hshort, hoffset]
  exact foldlM_range_eq_ok (fun c ↦ Storage.spliced reduced bytes (child.byteOffset b p c))
    fun c hc ↦ writeMean_spliced h hb hbytes hreduce hsize (hp c hc)

include hr

/-- The loops over slices, rows and columns visit the bytes of a level in order, and leave the
averages. -/
theorem writeTexels_eq :
    parent.writeTexels child b slices parentBytes bytes = .ok reduced := by
  let at' (n : Nat) := Storage.spliced reduced bytes n
  have hfirst : at' (0 * child.sliceStride) = bytes := by
    rw [Nat.zero_mul]
    exact Storage.spliced_zero reduced bytes
  have hlast : at' (child.extent.r * child.sliceStride) = reduced := by
    have hwhole : reduced.size = bytes.size := by rw [hsize, Source.size_of_reduce_eq_ok hreduce]
    rw [← Storage.spliced_size hwhole, hsize, size, Nat.mul_comm]
  have hcolumns : ∀ z < child.extent.r, ∀ y < child.extent.t, ∀ x < child.extent.s,
      parent.writeTexel child b parentBytes (if slices then covered z parent.extent.r else [z]) z y
          (at' (z * child.sliceStride + y * child.rowStride + x * b)) x
        = .ok (at' (z * child.sliceStride + y * child.rowStride + (x + 1) * b)) := by
    intro z hz y hy x hx
    rw [Nat.succ_mul, ← Nat.add_assoc]
    exact writeTexel_spliced h hb hs ht hparent hchild hbytes hreduce hsize (p := ⟨x, y, z⟩)
      fun c hc ↦ ⟨hx, hy, hz, hc⟩
  have hrows : ∀ z < child.extent.r, ∀ y < child.extent.t,
      (List.range child.extent.s).foldlM (parent.writeTexel child b parentBytes
          (if slices then covered z parent.extent.r else [z]) z y)
          (at' (z * child.sliceStride + y * child.rowStride))
        = .ok (at' (z * child.sliceStride + (y + 1) * child.rowStride)) := by
    intro z hz y hy
    have hloop := foldlM_range_eq_ok
      (fun x ↦ at' (z * child.sliceStride + y * child.rowStride + x * b)) (hcolumns z hz y hy)
    rw [Nat.zero_mul, Nat.add_zero, ← h.child_isTight.rowStride_eq] at hloop
    rwa [Nat.succ_mul, ← Nat.add_assoc]
  have hslices : ∀ z < child.extent.r,
      (List.range child.extent.t).foldlM (fun bytes y ↦
        (List.range child.extent.s).foldlM (parent.writeTexel child b parentBytes
          (if slices then covered z parent.extent.r else [z]) z y) bytes)
          (at' (z * child.sliceStride))
        = .ok (at' ((z + 1) * child.sliceStride)) := by
    intro z hz
    have hloop := foldlM_range_eq_ok (f := fun bytes y ↦ (List.range child.extent.s).foldlM
        (parent.writeTexel child b parentBytes
          (if slices then covered z parent.extent.r else [z]) z y) bytes)
      (fun y ↦ at' (z * child.sliceStride + y * child.rowStride)) (hrows z hz)
    rw [Nat.zero_mul, Nat.add_zero, Nat.mul_comm child.extent.t,
      ← h.child_isTight.sliceStride_eq] at hloop
    rwa [Nat.succ_mul]
  rw [← hlast, ← hfirst, writeTexels]
  refine foldlM_range_eq_ok (fun z ↦ at' (z * child.sliceStride)) fun z hz ↦ ?_
  have hcovered : parent.coveredSlices slices z
      = .ok (if slices then covered z parent.extent.r else [z]) := by
    cases slices with
    | false => rfl
    | true => exact coveredWords_of_lt hr h.pos_r h.child_r hz
  rw [hcovered]
  exact hslices z hz

end Words

end LevelLayout

/-! ## Stretches written -/

namespace Storage

variable {bytes part front middle back : ByteArray} {start : Nat}

private theorem size_overwrite (h : start + part.size ≤ bytes.size) :
    (overwrite bytes start part).size = bytes.size := by
  simp only [overwrite, ByteArray.size_append, ByteArray.size_extract]
  omega

private theorem extract_middle (front middle back : ByteArray) :
    (front ++ (middle ++ back)).extract front.size (front.size + middle.size) = middle := by
  have hskip := ByteArray.extract_append_size_add (a := front) (b := middle ++ back) (i := 0)
    (j := middle.size)
  rw [Nat.add_zero] at hskip
  rw [hskip]
  exact ByteArray.extract_append_eq_left rfl

theorem extract_overwrite (h : start + part.size ≤ bytes.size) :
    (overwrite bytes start part).extract start (start + part.size) = part := by
  have hfront : (bytes.extract 0 start).size = start := by
    rw [ByteArray.size_extract]
    omega
  have hpart := extract_middle (bytes.extract 0 start) part
    (bytes.extract (start + part.size) bytes.size)
  rwa [hfront, ← ByteArray.append_assoc] at hpart

theorem byteAt_overwrite (h : start + part.size ≤ bytes.size) {n : Nat}
    (hn : n < start ∨ start + part.size ≤ n) :
    byteAt (overwrite bytes start part) n = byteAt bytes n := by
  by_cases hlt : n < bytes.size
  · have hlt' : n < (overwrite bytes start part).size := by rwa [size_overwrite h]
    have hfront : (bytes.extract 0 start).size = start := by
      rw [ByteArray.size_extract]
      omega
    have hmiddle : (bytes.extract 0 start ++ part).size = start + part.size := by
      rw [ByteArray.size_append, hfront]
    rw [byteAt_of_lt hlt, byteAt_of_lt hlt']
    refine congrArg Except.ok ?_
    simp only [overwrite]
    rcases hn with hn | hn
    · rw [ByteArray.getElem_append_left (by omega), ByteArray.getElem_append_left (by omega),
        ByteArray.getElem_extract]
      exact getElem_congr_idx (Nat.zero_add n)
    · rw [ByteArray.getElem_append_right (by omega), ByteArray.getElem_extract]
      exact getElem_congr_idx (by omega)
  · rw [byteAt, byteAt, dif_neg hlt, dif_neg (by rwa [size_overwrite h])]

theorem overwrite_append (h : part.size = middle.size) :
    overwrite (front ++ (middle ++ back)) front.size part = front ++ part ++ back := by
  have hback : (front ++ (middle ++ back)).extract (front.size + part.size)
      (front ++ (middle ++ back)).size = back := by
    rw [← ByteArray.append_assoc, h, ← ByteArray.size_append]
    exact ByteArray.extract_append_eq_right rfl ByteArray.size_append
  rw [overwrite, hback, ByteArray.extract_append_eq_left rfl]

private theorem size_zeros (n : Nat) : (zeros n).size = n := by
  rw [zeros, List.size_toByteArray, List.length_replicate]

private theorem zeros_add (m n : Nat) : zeros (m + n) = zeros m ++ zeros n := by
  rw [zeros, ← List.replicate_append_replicate, List.toByteArray_append]
  rfl

end Storage

/-- A level is written over whatever its stretch of the storage holds. -/
theorem LevelLayout.writeLevel_eq {parent child : LevelLayout} {b : Nat} {slices : Bool}
    {storage parentBytes reduced : ByteArray} (h : parent.IsParent child b slices) (hb : b ≤ 16)
    (hwords : parent.extent.s < 2 ^ 32 ∧ parent.extent.t < 2 ^ 32 ∧ parent.extent.r < 2 ^ 32)
    (hstorage : storage.size < 2 ^ 64) (hbefore : parent.offset + parent.size ≤ child.offset)
    (hend : child.offset + child.size ≤ storage.size)
    (hparent : storage.extract parent.offset (parent.offset + parent.size) = parentBytes)
    (hreduce : parent.reduce child b slices parentBytes = .ok reduced) :
    writeLevel b slices storage parent child
      = .ok (Storage.overwrite storage child.offset reduced) := by
  have hsplit : (storage.extract 0 child.offset).extract parent.offset (parent.offset + parent.size)
      = parentBytes := by
    rw [ByteArray.extract_extract, Nat.zero_add, Nat.zero_add, Nat.min_eq_left hbefore, hparent]
  have hsize : parentBytes.size = parent.size := by
    rw [← hparent, ByteArray.size_extract]
    omega
  rw [writeLevel, Storage.stretchAt_of_le (by omega), Nat.zero_add]
  simp only [bind, Except.bind]
  rw [Storage.stretchAt_of_le (by rw [ByteArray.size_extract]; omega), hsplit,
    Storage.stretchAt_of_le hend]
  simp only
  rw [writeTexels_eq h hb hwords.1 hwords.2.1 hwords.2.2 (by omega) (by omega) hsize hreduce
    (by rw [ByteArray.size_extract]; omega)]
  rfl

namespace Source

variable {source : Source}

/-! ## The table -/

theorem levelOffset_mono {j k : Nat} (h : j ≤ k) : source.levelOffset j ≤ source.levelOffset k := by
  induction h with
  | refl => exact Nat.le_refl _
  | step _ ih => exact Nat.le_trans ih (Nat.le_add_right _ _)

private theorem strides_le (hr : 0 < source.extent.r) (k offset : Nat) :
    (source.layoutAt k offset).rowStride ≤ (source.layoutAt k offset).sliceStride ∧
      (source.layoutAt k offset).sliceStride ≤ source.levelSize k := by
  have hdown : 0 < source.format.info.blocksDown (source.extentAt k).t := by
    have hpos : 0 < (source.extentAt k).t := levelExtent_pos _ _
    exact Nat.div_pos (by omega) source.format.blockHeight_pos
  have hdepth : 0 < (source.extentAt k).r := by
    simp only [extentAt]
    split
    · exact levelExtent_pos _ _
    · exact hr
  exact ⟨Nat.le_mul_of_pos_right _ hdown, Nat.le_mul_of_pos_right _ hdepth⟩

/-- All levels are entered in the table. -/
theorem levelTable_eq (hr : 0 < source.extent.r) (hcount : source.levelCount ≤ maxLevels)
    (hsize : source.totalSize ≤ Storage.maxSize) :
    source.levelTable = .ok (source.baseLayout :: source.furtherLayouts, source.totalSize) := by
  have hmax : Storage.maxSize < 2 ^ 64 := by decide
  rw [totalSize_eq] at hsize ⊢
  rw [baseLayout_cons_furtherLayouts]
  refine foldlM_range_eq_ok (fun i ↦ ((List.range' 0 i).map fun k ↦
    source.layoutAt k (source.levelOffset k), source.levelOffset i)) fun i hi ↦ ?_
  obtain ⟨hrow, hslice⟩ := strides_le hr i (source.levelOffset i)
  have hend : source.levelOffset (i + 1) ≤ _ := source.levelOffset_mono hi
  have hnext : source.levelOffset (i + 1) = source.levelOffset i + source.levelSize i := rfl
  have hlevel : (source.layoutAt i (source.levelOffset i)).size = source.levelSize i := rfl
  simp only [enterLevel, bind, Except.bind, fitted_of_lt
    (show (source.layoutAt i (source.levelOffset i)).rowStride < 2 ^ 64 by omega), fitted_of_lt
    (show (source.layoutAt i (source.levelOffset i)).sliceStride < 2 ^ 64 by omega), hlevel,
    fitted_of_lt (show source.levelSize i < 2 ^ 64 by omega), ← hnext,
    fitted_of_lt (show source.levelOffset (i + 1) < 2 ^ 64 by omega)]
  rw [if_pos (by rw [List.length_map, List.length_range']; omega), List.range'_concat,
    List.map_append, Nat.one_mul, Nat.zero_add]
  rfl

theorem snd_of_levelTable_eq_ok {entered : List LevelLayout × Nat}
    (h : source.levelTable = .ok entered) : entered.2 = source.totalSize := by
  rw [totalSize_eq]
  refine of_foldlM_range_eq_ok (P := fun i entered ↦ entered.2 = source.levelOffset i)
    (fun i _ entered next hoffset hnext ↦ ?_) rfl h
  obtain ⟨_, -, hnext⟩ := bind_eq_ok.1 hnext
  obtain ⟨_, -, hnext⟩ := bind_eq_ok.1 hnext
  obtain ⟨_, -, hnext⟩ := bind_eq_ok.1 hnext
  obtain ⟨sum, hsum, hnext⟩ := bind_eq_ok.1 hnext
  rw [hoffset, fitted] at hsum
  split at hsum
  · obtain rfl := Except.ok.inj hsum
    split at hnext
    · obtain rfl := Except.ok.inj hnext
      rfl
    · exact nomatch hnext
  · exact nomatch hsum

theorem entry_eq {k : Nat} (hk : k < source.levelCount) :
    entry (source.baseLayout :: source.furtherLayouts) k
      = .ok (source.layoutAt k (source.levelOffset k)) := by
  rw [entry, baseLayout_cons_furtherLayouts, List.getElem?_map, List.getElem?_range' hk,
    Nat.one_mul, Nat.zero_add]
  rfl

/-! ## The levels -/

theorem copyLevel_eq {front bytes : ByteArray} {k : Nat}
    (hfront : front.size = source.levelOffset k) (m : Nat) :
    copyLevel (front ++ Storage.zeros (source.levelSize k + m))
        (source.layoutAt k (source.levelOffset k)) bytes k
      = (do
          checkSize k (source.layoutAt k (source.levelOffset k)) bytes
          return front ++ bytes ++ Storage.zeros m) := by
  refine bind_congr_ok fun _ hsize ↦ ?_
  have hsize : bytes.size = source.levelSize k := size_of_checkSize_eq_ok hsize
  have hend : source.levelOffset k + source.levelSize k
      ≤ (front ++ Storage.zeros (source.levelSize k + m)).size := by
    rw [ByteArray.size_append, Storage.size_zeros, hfront]
    omega
  rw [layoutAt_offset, layoutAt_size, Storage.stretchAt_of_le hend, mapError_ok, ok_bind,
    Storage.zeros_add, ← hfront, Storage.overwrite_append (by rw [hsize, Storage.size_zeros])]

theorem copyLevels_eq {given : List ByteArray} {front : ByteArray} {k m : Nat}
    (hcount : k + given.length ≤ source.levelCount) (hfront : front.size = source.levelOffset k)
    (hm : source.levelOffset k + m = source.levelOffset (k + given.length)) :
    copyLevels (source.baseLayout :: source.furtherLayouts) k (front ++ Storage.zeros m) given
      = (checkedLevels k (source.layoutsFrom k (source.levelOffset k) given.length) given).map
          (·.foldl (· ++ ·) front) := by
  induction given generalizing front k m with
  | nil =>
    obtain rfl : m = 0 := by simpa using hm
    exact congrArg Except.ok ByteArray.append_empty
  | cons bytes rest ih =>
    have hmono := source.levelOffset_mono (show k + 1 ≤ k + (rest.length + 1) by omega)
    rw [List.length_cons] at hcount hm
    have hnext : source.levelOffset (k + 1) = source.levelOffset k + source.levelSize k := rfl
    obtain ⟨m, rfl⟩ : ∃ m', m = source.levelSize k + m' := ⟨m - source.levelSize k, by omega⟩
    rw [copyLevels, entry_eq (by omega), mapError_ok, ok_bind, copyLevel_eq hfront,
      List.length_cons, layoutsFrom, checkedLevels]
    cases hsize : checkSize k (source.layoutAt k (source.levelOffset k)) bytes with
    | error failure => rfl
    | ok u =>
      have hbytes : bytes.size = source.levelSize k := size_of_checkSize_eq_ok hsize
      simp only [ok_bind, pure_eq_ok]
      rw [ih (by omega) (by rw [ByteArray.size_append, hfront, hbytes, hnext])
        (by rw [Nat.add_right_comm, Nat.add_assoc]; omega)]
      exact (map_bind_ok _ (bytes :: ·) (·.foldl (· ++ ·) front)).symm

/-- Averaged levels are written as they are averaged. -/
theorem writeLevels_eq (hbytewise : source.format.info.isBytewise = true)
    (hpos : 0 < source.extent.s ∧ 0 < source.extent.t ∧ 0 < source.extent.r)
    (hwords : source.extent.s < 2 ^ 32 ∧ source.extent.t < 2 ^ 32 ∧ source.extent.r < 2 ^ 32)
    {front parentBytes : ByteArray} {k m count : Nat} (hcount : k + 1 + count ≤ source.levelCount)
    (hlevels : source.levelCount ≤ maxLevels)
    (hsize : source.levelOffset (k + 1 + count) ≤ Storage.maxSize)
    (hfront : front.size = source.levelOffset k) (hparent : parentBytes.size = source.levelSize k)
    (hm : source.levelOffset (k + 1) + m = source.levelOffset (k + 1 + count)) :
    source.writeLevels (source.baseLayout :: source.furtherLayouts) (k + 1)
        (front ++ parentBytes ++ Storage.zeros m) count
      = (LevelLayout.reduceChain source.format.info.bytesPerBlock (source.target = .texture3D)
          (source.layoutAt k (source.levelOffset k)) parentBytes
          (source.layoutsFrom (k + 1) (source.levelOffset (k + 1)) count)).map
          (·.foldl (· ++ ·) (front ++ parentBytes)) := by
  -- each level is written behind its parent, and becomes the parent of the next
  induction count generalizing front parentBytes k m with
  | zero =>
    obtain rfl : m = 0 := by simpa using hm
    exact congrArg Except.ok ByteArray.append_empty
  | succ count ih =>
    have hmax : Storage.maxSize < 2 ^ 64 ∧ maxLevels = 16 := by decide
    have hnext : source.levelOffset (k + 1) = source.levelOffset k + source.levelSize k := rfl
    have hnext' : source.levelOffset (k + 1 + 1)
        = source.levelOffset (k + 1) + source.levelSize (k + 1) := rfl
    have hmono := source.levelOffset_mono (show k + 1 + 1 ≤ k + 1 + (count + 1) by omega)
    have hend : k + 1 + 1 + count = k + 1 + (count + 1) := by omega
    obtain ⟨m, rfl⟩ : ∃ m', m = source.levelSize (k + 1) + m' :=
      ⟨m - source.levelSize (k + 1), by omega⟩
    have hbefore : (front ++ parentBytes).size = source.levelOffset (k + 1) := by
      rw [ByteArray.size_append, hfront, hparent, hnext]
    have hstorage : (front ++ parentBytes ++ Storage.zeros (source.levelSize (k + 1) + m)).size
        = source.levelOffset (k + 1 + (count + 1)) := by
      rw [ByteArray.size_append, hbefore, Storage.size_zeros, hm]
    have hextract : (front ++ parentBytes ++ Storage.zeros (source.levelSize (k + 1) + m)).extract
        (source.levelOffset k) (source.levelOffset k + source.levelSize k) = parentBytes := by
      have hmiddle := Storage.extract_middle front parentBytes
        (Storage.zeros (source.levelSize (k + 1) + m))
      rwa [hfront, hparent, ← ByteArray.append_assoc] at hmiddle
    have hchain := isParent_layoutAt hbytewise hpos.2.2 (show k < 31 by omega)
      (source.levelOffset k) (source.levelOffset (k + 1))
    obtain ⟨reduced, hreduce⟩ := hchain.exists_reduce_eq_ok hparent
    have hreduced : reduced.size = source.levelSize (k + 1) := size_of_reduce_eq_ok hreduce
    have hwrite := LevelLayout.writeLevel_eq hchain source.format.bytesPerBlock_le
      (extentAt_lt hpos hwords k) (by omega) (Nat.le_refl _) (by rw [hstorage]; exact hmono)
      hextract hreduce
    have hstep : Storage.overwrite
        (front ++ parentBytes ++ Storage.zeros (source.levelSize (k + 1) + m))
        (source.levelOffset (k + 1)) reduced
          = front ++ parentBytes ++ reduced ++ Storage.zeros m := by
      rw [← hbefore, Storage.zeros_add,
        Storage.overwrite_append (by rw [hreduced, Storage.size_zeros])]
    rw [writeLevels, Nat.add_sub_cancel, entry_eq (by omega), ok_bind, entry_eq (by omega), ok_bind,
      hwrite, ok_bind, layoutAt_offset, hstep, layoutsFrom, LevelLayout.reduceChain, hreduce,
      ok_bind, ih (by omega) (by rwa [hend]) hbefore hreduced (by rw [hend]; omega)]
    exact (map_bind_ok _ (reduced :: ·) (·.foldl (· ++ ·) (front ++ parentBytes))).symm

/-- The levels after the first are written as they are made. -/
theorem writeFurther_eq
    (hpos : 0 < source.extent.s ∧ 0 < source.extent.t ∧ 0 < source.extent.r)
    (hwords : source.extent.s < 2 ^ 32 ∧ source.extent.t < 2 ^ 32 ∧ source.extent.r < 2 ^ 32)
    (hlevels : source.levelCount ≤ maxLevels) (hsize : source.totalSize ≤ Storage.maxSize)
    (hbase : source.texels.size = source.levelSize 0) {m : Nat}
    (hm : source.levelSize 0 + m = source.totalSize) :
    source.writeFurther (source.baseLayout :: source.furtherLayouts)
        (source.texels ++ Storage.zeros m)
      = source.furtherLevels.map (·.foldl (· ++ ·) source.texels) := by
  have hcount := source.levelCount_pos
  have hone := source.levelOffset_one
  rw [totalSize_eq] at hsize hm
  rw [writeFurther, furtherLevels]
  cases hfurther : source.further with
  | absent =>
    have hsingle : source.levelCount = 1 := by rw [levelCount, hfurther]
    rw [hsingle, hone] at hm
    obtain rfl : m = 0 := by omega
    exact congrArg Except.ok ByteArray.append_empty
  | given levels =>
    have hgiven : source.levelCount = levels.length + 1 := by rw [levelCount, hfurther]
    simp only
    rw [copyLevels_eq (by omega) (by rw [hbase, hone])
      (by rw [Nat.add_comm 1, ← hgiven, hone, hm]), furtherLayouts_eq_layoutsFrom, hgiven,
      Nat.add_sub_cancel]
  | generated =>
    by_cases hbytewise : source.format.info.isBytewise = true
    · simp only [if_pos hbytewise]
      have hwrite := @writeLevels_eq source hbytewise hpos hwords .empty source.texels 0 m
        (source.levelCount - 1) (by omega) hlevels
        (by rwa [Nat.zero_add, Nat.add_sub_cancel' hcount]) rfl hbase
        (by rw [Nat.zero_add, Nat.add_sub_cancel' hcount, hone, hm])
      rw [ByteArray.empty_append, Nat.zero_add] at hwrite
      rw [hwrite, layoutAt_levelOffset_zero, ← furtherLayouts_eq_layoutsFrom]
      cases LevelLayout.reduceChain source.format.info.bytesPerBlock
        (source.target = .texture3D) source.baseLayout source.texels source.furtherLayouts with
      | error fault => rfl
      | ok levels => rfl
    · simp only [if_neg hbytewise]
      rfl

end Source

/-- **Assembly.** Where the levels fit a storage and the extents are words, every step of the
assembly of a texture succeeds, and what is assembled is what is built. -/
theorem Texture.assemble_eq_build {source : Source}
    (hwords : source.extent.s < 2 ^ 32 ∧ source.extent.t < 2 ^ 32 ∧ source.extent.r < 2 ^ 32)
    (hsize : source.totalSize ≤ Storage.maxSize) : assemble source = build source := by
  refine bind_congr_ok fun _ hextent ↦ bind_congr_ok fun _ hcount ↦ ?_
  obtain ⟨hpos, -⟩ := Source.of_checkExtent_eq_ok hextent
  have hlevels : source.levelCount ≤ maxLevels :=
    Nat.le_trans (Source.of_checkLevelCount_eq_ok hcount) (Nat.min_le_right _ _)
  have hfirst : source.levelSize 0 ≤ source.totalSize := by
    rw [source.totalSize_eq]
    exact Nat.le_trans (Nat.le_of_eq source.levelOffset_one.symm)
      (source.levelOffset_mono source.levelCount_pos)
  obtain ⟨m, hm⟩ := Nat.exists_eq_add_of_le hfirst
  have hcopy := @Source.copyLevel_eq source .empty source.texels 0 rfl m
  rw [ByteArray.empty_append, ByteArray.empty_append, ← hm, Source.layoutAt_levelOffset_zero]
    at hcopy
  have hallocate : Storage.allocate source.totalSize = .ok (Storage.zeros source.totalSize) :=
    if_pos hsize
  have hstorage : source.checkStorage = .ok () := if_pos hsize
  rw [Source.levelTable_eq hpos.2.2 hlevels hsize, hstorage, mapError_ok, ok_bind, ok_bind]
  simp only [hallocate, mapError_ok, ok_bind, reduceCtorEq, dite_false, List.head_cons]
  rw [hcopy]
  cases hbase : Source.checkSize 0 source.baseLayout source.texels with
  | error failure => rfl
  | ok u =>
    have hfurther := Source.writeFurther_eq hpos hwords hlevels hsize
      (Source.size_of_checkSize_eq_ok hbase) hm.symm
    simp only [ok_bind, pure_eq_ok]
    rw [hfurther]
    cases source.furtherLevels with
    | error failure => rfl
    | ok levels => rfl

/-- Where the levels fit no storage, no texture is assembled. -/
theorem Texture.assemble_eq_aborted {source : Source} {u v : Unit}
    (hextent : source.checkExtent = .ok u) (hcount : source.checkLevelCount = .ok v)
    (hsize : Storage.maxSize < source.totalSize) :
    ∃ fault, assemble source = .error (.aborted fault) := by
  rw [assemble, hextent, hcount]
  cases htable : source.levelTable with
  | error fault => exact ⟨fault, rfl⟩
  | ok entered =>
    refine ⟨.storageTooLarge, ?_⟩
    have hsize' : entered.2 = source.totalSize := Source.snd_of_levelTable_eq_ok htable
    simp only [ok_bind, mapError_ok, Storage.allocate, hsize', if_neg (Nat.not_le.2 hsize),
      mapError_error, error_bind]

/-! ## Averaged levels in a storage -/

namespace Texture

variable {source : Source} {texture : Texture} {k : Nat}

theorem end_le_of_build (hbuild : build source = .ok texture) (hk : k < texture.levelCount) :
    (texture.levelBytes k).size = (texture.layout k).size ∧
      (texture.layout k).offset + (texture.levelBytes k).size ≤ texture.bytes.size := by
  have hbuilt := builtFrom_of_build hbuild
  rw [hbuilt.levelCount_eq] at hk
  rw [hbuilt.layout_eq k hk, hbuilt.size_levelBytes k hk, size_bytes_of_build hbuild]
  exact ⟨rfl, source.levelOffset_mono (show k + 1 ≤ source.levelCount from hk)⟩

theorem writeLevel_eq_of_build
    (hwords : source.extent.s < 2 ^ 32 ∧ source.extent.t < 2 ^ 32 ∧ source.extent.r < 2 ^ 32)
    (hgenerated : source.further = .generated) (hbuild : build source = .ok texture)
    (hk : k + 1 < texture.levelCount) {storage : ByteArray}
    (hstorage : storage.size = texture.bytes.size)
    (hextract : storage.extract (texture.layout k).offset
      ((texture.layout k).offset + (texture.layout k).size) = texture.levelBytes k) :
    LevelLayout.writeLevel texture.format.info.bytesPerBlock (texture.target = .texture3D) storage
        (texture.layout k) (texture.layout (k + 1))
      = .ok (Storage.overwrite storage (texture.layout (k + 1)).offset
          (texture.levelBytes (k + 1))) := by
  have hbuilt := builtFrom_of_build hbuild
  have hcount := hbuilt.levelCount_eq
  have hmax : Storage.maxSize < 2 ^ 64 := by decide
  obtain ⟨hwhole, hfits⟩ := size_bytes_le hbuild
  obtain ⟨hparent, -, hreduce⟩ := reduce_of_build hbuild hgenerated hk
  obtain ⟨hsize, hend⟩ := end_le_of_build hbuild hk
  rw [hsize, ← hstorage] at hend
  have hlayout := hbuilt.layout_eq k (by omega)
  have hextents := Source.extentAt_lt ⟨hbuilt.pos_s, hbuilt.pos_t, hbuilt.pos_r⟩ hwords k
  have hbefore : (texture.layout k).offset + (texture.layout k).size
      = (texture.layout (k + 1)).offset := by
    rw [hlayout, hbuilt.layout_eq (k + 1) (by omega)]
    rfl
  exact LevelLayout.writeLevel_eq hparent texture.format.bytesPerBlock_le (by rwa [hlayout])
    (by omega) (Nat.le_of_eq hbefore) hend hextract hreduce

end Texture

/-- **Averaged levels.** Each byte of a texel of an averaged level is the mean, rounded to the
nearest with a half going up, of the same byte of the texels that it covers in the level above: a
square of two by two, in volumes a cube, with indices held inside the level. All of them are there.

In a storage of the size of the texture that has the level above in its place, writing the level
takes no step that fails: it leaves the averages in the place of the level, whatever was there, and
every other byte as it is. So is the whole texture assembled. -/
theorem generated_texels_are_means {source : Source} {texture : Texture}
    (hwords : source.extent.s < 2 ^ 32 ∧ source.extent.t < 2 ^ 32 ∧ source.extent.r < 2 ^ 32)
    (hgenerated : source.further = .generated) (hbuild : Texture.build source = .ok texture)
    {k : Nat} (hk : k + 1 < texture.levelCount) :
    let parent := texture.layout k
    let child := texture.layout (k + 1)
    let bytesPerTexel := source.format.info.bytesPerBlock
    let volume : Bool := source.target = .texture3D
    (∀ p c, texture.HasByte (k + 1) p c →
      let n := if volume then 8 else 4
      let sum := ∑ dz ∈ Finset.range (if volume then 2 else 1), ∑ dy ∈ Finset.range 2,
        ∑ dx ∈ Finset.range 2, texture.texelByte k (parent.coveredTexel volume p dx dy dz) c
      texture.texelByte (k + 1) p c = (sum + n / 2) / n ∧
      ∀ dx < 2, ∀ dy < 2, ∀ dz < 2,
        texture.HasByte k (parent.coveredTexel volume p dx dy dz) c) ∧
    (∀ j < texture.levelCount, ∀ p c, texture.HasByte j p c →
      Storage.byteAt (texture.levelBytes j) ((texture.layout j).byteOffset bytesPerTexel p c)
        = .ok (UInt8.ofNat (texture.texelByte j p c))) ∧
    (∀ storage : ByteArray, storage.size = texture.bytes.size →
      storage.extract parent.offset (parent.offset + parent.size) = texture.levelBytes k →
      ∃ written, LevelLayout.writeLevel bytesPerTexel volume storage parent child = .ok written ∧
        written.size = storage.size ∧
        written.extract child.offset (child.offset + child.size) = texture.levelBytes (k + 1) ∧
        ∀ n, n < child.offset ∨ child.offset + child.size ≤ n →
          Storage.byteAt written n = Storage.byteAt storage n) ∧
    Texture.assemble source = .ok texture := by
  intro parent child bytesPerTexel volume
  have hbuilt := Texture.builtFrom_of_build hbuild
  obtain ⟨hparent, -⟩ := Texture.reduce_of_build hbuild hgenerated hk
  have hformat : texture.format.info.bytesPerBlock = bytesPerTexel := by rw [hbuilt.format_eq]
  have hvolume : decide (texture.target = .texture3D) = volume := by rw [hbuilt.target_eq]
  rw [hformat, hvolume] at hparent
  refine ⟨fun p c hp ↦ ⟨?_, fun dx hx dy hy dz hz ↦ ?_⟩, fun j hj p c hp ↦ ?_,
    fun storage hstorage hextract ↦ ?_, ?_⟩
  · rw [Texture.texelByte_succ hbuild hgenerated hk hp, LevelLayout.roundedMean, List.length_map,
      hvolume, LevelLayout.length_coveredTexels, LevelLayout.sum_coveredTexels]
  · rw [Texture.HasByte, hformat] at hp ⊢
    exact hparent.isByte_of_mem hp (parent.coveredTexel_mem volume p hx hy hz)
  · rw [← hformat]
    exact Texture.byteAt_texelByte hbuild hgenerated hj hp
  · obtain ⟨hreduced, hend⟩ := Texture.end_le_of_build hbuild hk
    rw [← hstorage] at hend
    refine ⟨Storage.overwrite storage child.offset (texture.levelBytes (k + 1)), ?_,
      Storage.size_overwrite hend, ?_, fun n hn ↦ Storage.byteAt_overwrite hend (hreduced ▸ hn)⟩
    · rw [← hformat, ← hvolume]
      exact Texture.writeLevel_eq_of_build hwords hgenerated hbuild hk hstorage hextract
    · rw [← hreduced]
      exact Storage.extract_overwrite hend
  · rw [Texture.assemble_eq_build hwords (Texture.size_bytes_le hbuild).2, hbuild]

/-- The last level of the volume is the mean of its two texels, a half going up. -/
theorem generated_texels_are_means_volume :
    Texture.volume.texelByte 2 ⟨0, 0, 0⟩ 0 = (4 * (0 + 255) + 4) / 8 ∧
      Texture.volume.HasByte 1 ⟨1, 0, 0⟩ 0 ∧
      Texture.assemble .volume = .ok .volume := by
  obtain ⟨hmeans, -, -, hassemble⟩ :=
    generated_texels_are_means (by decide) rfl build_volume (show 1 + 1 < _ by decide)
  obtain ⟨hmean, hcovered⟩ := hmeans ⟨0, 0, 0⟩ 0 ⟨by decide, by decide, by decide, by decide⟩
  refine ⟨?_, hcovered 1 (by decide) 0 (by decide) 0 (by decide), hassemble⟩
  rw [hmean]
  rfl

end QuadSampler
