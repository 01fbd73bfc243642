import QuadSampler.Proofs.Outcome
import QuadSampler.Texture.Basic

/-!
# What a texture stores

`Texture.build` lays the levels of a source one behind the other into a single storage. Here the
storage is taken apart again: a level begins where the sizes of the levels before it end
(`Source.levelOffset`), and the bytes found there are the bytes that went in.

## How the levels are followed

The three kinds of source differ in where their further levels come from, and agree in one thing:
every level has the size of its layout. `Source.Fills` says that of a list of levels, each of the
three kinds is shown to have it once, and the storage argument is made from it alone.
`Texture.BuiltFrom` collects what later modules use, so that none of them opens `Texture.build`.
-/

namespace QuadSampler

namespace Source

variable {source : Source}

/-! ## Offsets of levels -/

def levelSize (source : Source) (level : Nat) : Nat := (source.layoutAt level 0).size

@[simp]
theorem layoutAt_size (source : Source) (level offset : Nat) :
    (source.layoutAt level offset).size = source.levelSize level := rfl

/-- Where a level begins: behind all levels before it. -/
def levelOffset (source : Source) : Nat → Nat
  | 0 => 0
  | level + 1 => source.levelOffset level + source.levelSize level

theorem layoutAt_levelOffset_zero (source : Source) :
    source.layoutAt 0 (source.levelOffset 0) = source.baseLayout := rfl

theorem levelOffset_one (source : Source) : source.levelOffset 1 = source.levelSize 0 :=
  Nat.zero_add _

theorem furtherLayouts_eq_layoutsFrom (source : Source) :
    source.furtherLayouts
      = source.layoutsFrom 1 (source.levelOffset 1) (source.levelCount - 1) := by
  rw [levelOffset_one]
  rfl

private theorem fullChain_pos (source : Source) : 0 < source.fullChain := by
  rw [fullChain, maxLevels]
  omega

theorem levelCount_pos (source : Source) : 0 < source.levelCount := by
  have := source.fullChain_pos
  rw [levelCount]
  split <;> omega

private theorem layoutsFrom_eq_map (source : Source) (level count : Nat) :
    source.layoutsFrom level (source.levelOffset level) count
      = (List.range' level count).map fun k ↦ source.layoutAt k (source.levelOffset k) := by
  induction count generalizing level with
  | zero => rfl
  | succ count ih =>
    rw [List.range'_succ, List.map_cons, ← ih (level + 1)]
    rfl

theorem baseLayout_cons_furtherLayouts (source : Source) :
    source.baseLayout :: source.furtherLayouts
      = (List.range' 0 source.levelCount).map
          fun k ↦ source.layoutAt k (source.levelOffset k) := by
  obtain ⟨count, hcount⟩ := Nat.exists_eq_add_one.2 source.levelCount_pos
  rw [← source.layoutsFrom_eq_map 0, furtherLayouts, hcount, layoutsFrom, levelOffset,
    Nat.zero_add, Nat.add_sub_cancel, baseLayout, Nat.zero_add]

/-! ## Levels of the right size -/

/-- The bytes of consecutive levels from `level` on, each of the size of its level. -/
inductive Fills (source : Source) : Nat → List ByteArray → Prop
  | nil (level : Nat) : Fills source level []
  | cons {level : Nat} {bytes : ByteArray} {rest : List ByteArray}
      (size_eq : bytes.size = source.levelSize level) (below : Fills source (level + 1) rest) :
      Fills source level (bytes :: rest)

theorem size_of_checkSize_eq_ok {level : Nat} {layout : LevelLayout} {bytes : ByteArray} {u : Unit}
    (h : checkSize level layout bytes = .ok u) : bytes.size = layout.size := by
  rw [checkSize] at h
  split at h
  · assumption
  · exact nomatch h

private theorem fills_of_checkedLevels {given levels : List ByteArray} {level offset : Nat}
    (h : checkedLevels level (source.layoutsFrom level offset given.length) given = .ok levels) :
    levels = given ∧ source.Fills level given := by
  -- the layouts go on from level to level as the list of levels does
  induction given generalizing level offset levels with
  | nil =>
    obtain rfl := Except.ok.inj h
    exact ⟨rfl, .nil level⟩
  | cons bytes given ih =>
    obtain ⟨_, hsize, h⟩ := bind_eq_ok.1 h
    obtain ⟨below, hbelow, h⟩ := bind_eq_ok.1 h
    obtain rfl := Except.ok.inj h
    obtain ⟨rfl, hfills⟩ := ih hbelow
    exact ⟨rfl, .cons (size_of_checkSize_eq_ok hsize) hfills⟩

theorem size_of_reduce_eq_ok {parent child : LevelLayout} {bytesPerTexel : Nat} {slices : Bool}
    {bytes reduced : ByteArray} (h : parent.reduce child bytesPerTexel slices bytes = .ok reduced) :
    reduced.size = child.size := by
  obtain ⟨list, hlist, h⟩ := bind_eq_ok.1 h
  obtain rfl := Except.ok.inj h
  rw [List.size_toByteArray, length_of_mapM_eq_ok hlist, List.length_range]

private theorem fills_of_reduceChain {bytesPerTexel count level offset : Nat} {slices : Bool}
    {parent : LevelLayout} {bytes : ByteArray} {levels : List ByteArray}
    (h : LevelLayout.reduceChain bytesPerTexel slices parent bytes
      (source.layoutsFrom level offset count) = .ok levels) :
    levels.length = count ∧ source.Fills level levels := by
  induction count generalizing level offset parent bytes levels with
  | zero =>
    obtain rfl := Except.ok.inj h
    exact ⟨rfl, .nil level⟩
  | succ count ih =>
    obtain ⟨reduced, hreduced, h⟩ := bind_eq_ok.1 h
    obtain ⟨below, hbelow, h⟩ := bind_eq_ok.1 h
    obtain rfl := Except.ok.inj h
    obtain ⟨hlength, hfills⟩ := ih hbelow
    exact ⟨by rw [List.length_cons, hlength], .cons (size_of_reduce_eq_ok hreduced) hfills⟩

/-- The bytes that the source itself carries for a level. Averaged levels have none. -/
def supplied? (source : Source) : Nat → Option ByteArray
  | 0 => some source.texels
  | level + 1 =>
    match source.further with
    | .given levels => levels[level]?
    | _ => none

/-- Unless levels are averaged, the source carries every level. -/
theorem exists_supplied (h : source.further ≠ .generated) {level : Nat}
    (hlevel : level < source.levelCount) : ∃ bytes, source.supplied? level = some bytes := by
  cases level with
  | zero => exact ⟨source.texels, rfl⟩
  | succ level =>
    cases hfurther : source.further with
    | absent =>
      rw [levelCount, hfurther] at hlevel
      exact absurd hlevel (by simp)
    | generated => exact absurd hfurther h
    | given levels =>
      rw [levelCount, hfurther] at hlevel
      have hlt : level < levels.length := Nat.lt_of_succ_lt_succ hlevel
      exact ⟨levels[level], by simp only [supplied?, hfurther, List.getElem?_eq_getElem hlt]⟩

theorem fills_of_furtherLevels {levels : List ByteArray} (h : source.furtherLevels = .ok levels) :
    levels.length + 1 = source.levelCount ∧ source.Fills 1 levels ∧
      ∀ k bytes, source.supplied? (k + 1) = some bytes → levels[k]? = some bytes := by
  cases hfurther : source.further with
  | absent =>
    simp only [furtherLevels, hfurther] at h
    obtain rfl := Except.ok.inj h
    simp only [levelCount, supplied?, hfurther]
    exact ⟨rfl, .nil 1, fun k bytes hk ↦ nomatch hk⟩
  | generated =>
    simp only [furtherLevels, hfurther] at h
    split at h
    · have hpos := source.levelCount_pos
      obtain ⟨hlength, hfills⟩ := fills_of_reduceChain (mapError_eq_ok.1 h)
      refine ⟨by omega, hfills, fun k bytes hk ↦ ?_⟩
      simp only [supplied?, hfurther] at hk
      exact nomatch hk
    · exact nomatch h
  | given given =>
    simp only [furtherLevels, hfurther] at h
    have hcount : source.levelCount = given.length + 1 := by rw [levelCount, hfurther]
    rw [furtherLayouts, hcount, Nat.add_sub_cancel] at h
    obtain ⟨rfl, hfills⟩ := fills_of_checkedLevels h
    refine ⟨hcount.symm, hfills, fun k bytes hk ↦ ?_⟩
    simpa only [supplied?, hfurther] using hk

/-! ## One storage -/

private theorem exists_foldl_append (parts : List ByteArray) (acc : ByteArray) :
    ∃ tail, parts.foldl (· ++ ·) acc = acc ++ tail := by
  induction parts generalizing acc with
  | nil => exact ⟨.empty, ByteArray.append_empty.symm⟩
  | cons part rest ih =>
    obtain ⟨tail, htail⟩ := ih (acc ++ part)
    exact ⟨part ++ tail, by rw [List.foldl_cons, htail, ByteArray.append_assoc]⟩

/-- Levels appended to a storage that ends where the first of them begins are found at their
offsets. -/
theorem Fills.extract_foldl {parts : List ByteArray} {level : Nat} (h : source.Fills level parts)
    (acc : ByteArray) (hacc : acc.size = source.levelOffset level) {k : Nat}
    (hk : k < parts.length) :
    (parts.foldl (· ++ ·) acc).extract (source.levelOffset (level + k))
      (source.levelOffset (level + k) + source.levelSize (level + k)) = parts[k] := by
  -- the first level moves from the list to the storage, which then ends where the next begins
  induction h generalizing acc k with
  | nil => exact absurd hk (Nat.not_lt_zero k)
  | @cons level bytes rest hsize _ ih =>
    cases k with
    | zero =>
      obtain ⟨tail, htail⟩ := exists_foldl_append rest (acc ++ bytes)
      have hskip := ByteArray.extract_append_size_add (a := acc) (b := bytes ++ tail) (i := 0)
        (j := bytes.size)
      rw [List.foldl_cons, htail, Nat.add_zero, ← hacc, ← hsize, ByteArray.append_assoc,
        ← Nat.add_zero acc.size, Nat.add_assoc, Nat.zero_add, hskip,
        ByteArray.extract_append_eq_left rfl]
      rfl
    | succ k =>
      have hnext : (acc ++ bytes).size = source.levelOffset (level + 1) := by
        rw [ByteArray.size_append, hacc, hsize, levelOffset]
      have := ih _ hnext (Nat.lt_of_succ_lt_succ hk)
      rwa [show level + (k + 1) = level + 1 + k by omega, List.foldl_cons, List.getElem_cons_succ]

private theorem Fills.size_foldl {parts : List ByteArray} {level : Nat}
    (h : source.Fills level parts) (acc : ByteArray) (hacc : acc.size = source.levelOffset level) :
    (parts.foldl (· ++ ·) acc).size = source.levelOffset (level + parts.length) := by
  induction h generalizing acc with
  | nil => exact hacc
  | @cons level bytes rest hsize _ ih =>
    rw [List.foldl_cons, ih _ (by rw [ByteArray.size_append, hacc, hsize, levelOffset]),
      List.length_cons, Nat.add_assoc, Nat.add_comm 1]

private theorem Fills.size_getElem {parts : List ByteArray} {level : Nat}
    (h : source.Fills level parts)
    {k : Nat} (hk : k < parts.length) : parts[k].size = source.levelSize (level + k) := by
  induction h generalizing k with
  | nil => exact absurd hk (Nat.not_lt_zero k)
  | @cons level bytes rest hsize _ ih =>
    cases k with
    | zero => exact hsize
    | succ k =>
      rw [List.getElem_cons_succ, ih (Nat.lt_of_succ_lt_succ hk)]
      congr 1
      omega

end Source

/-! ## Textures that were built -/

/-- What a texture has from its source. -/
structure Texture.BuiltFrom (texture : Texture) (source : Source) : Prop where
  pos_s : 0 < source.extent.s
  pos_t : 0 < source.extent.t
  pos_r : 0 < source.extent.r
  hasValidExtent : source.hasValidExtent = true
  levelCount_le : source.levelCount ≤ maxLevels
  format_eq : texture.format = source.format
  target_eq : texture.target = source.target
  levelCount_eq : texture.levelCount = source.levelCount
  layout_eq : ∀ k < source.levelCount, texture.layout k = source.layoutAt k (source.levelOffset k)
  size_levelBytes : ∀ k < source.levelCount, (texture.levelBytes k).size = source.levelSize k
  /-- Levels that the source carries are stored as they are. -/
  levelBytes_eq : ∀ k bytes, source.supplied? k = some bytes → texture.levelBytes k = bytes

namespace Source

variable {source : Source} {u : Unit}

theorem of_checkExtent_eq_ok (h : source.checkExtent = .ok u) :
    (0 < source.extent.s ∧ 0 < source.extent.t ∧ 0 < source.extent.r) ∧
      source.hasValidExtent = true := by
  simp only [checkExtent] at h
  split at h
  · exact nomatch h
  · split at h
    · exact ⟨by omega, by assumption⟩
    · exact nomatch h

theorem of_checkLevelCount_eq_ok (h : source.checkLevelCount = .ok u) :
    source.levelCount ≤ source.fullChain := by
  simp only [checkLevelCount] at h
  split at h
  · exact nomatch h
  · split at h
    · exact nomatch h
    · omega

private theorem of_checkStorage_eq_ok (h : source.checkStorage = .ok u) :
    source.totalSize ≤ Storage.maxSize := by
  rw [checkStorage] at h
  split at h
  · assumption
  · exact nomatch h

end Source

namespace Texture

variable {texture : Texture} {source : Source}

private theorem layout_of_lt {level : Nat} (h : level < texture.levelCount) :
    texture.layout level = texture.layouts[level] := by
  have hmin : min level texture.lastLevel = level := by
    rw [lastLevel]
    omega
  simp only [layout, List.get_eq_getElem, hmin]
  rfl

theorem exists_furtherLevels_of_build (h : build source = .ok texture) :
    ((∃ u, source.checkExtent = .ok u) ∧ (∃ u, source.checkLevelCount = .ok u) ∧
      source.totalSize ≤ Storage.maxSize ∧
      ∃ u, Source.checkSize 0 source.baseLayout source.texels = .ok u) ∧
    ∃ levels, source.furtherLevels = .ok levels ∧
      ({ bytes := levels.foldl (· ++ ·) source.texels
         layouts := source.baseLayout :: source.furtherLayouts
         format := source.format
         target := source.target
         layouts_ne_nil := List.cons_ne_nil _ _ } : Texture) = texture := by
  obtain ⟨u, hextent, h⟩ := bind_eq_ok.1 h
  obtain ⟨v, hcount, h⟩ := bind_eq_ok.1 h
  obtain ⟨_, hstorage, h⟩ := bind_eq_ok.1 h
  obtain ⟨w, hbase, h⟩ := bind_eq_ok.1 h
  obtain ⟨levels, hlevels, h⟩ := bind_eq_ok.1 h
  exact ⟨⟨⟨u, hextent⟩, ⟨v, hcount⟩, Source.of_checkStorage_eq_ok hstorage, ⟨w, hbase⟩⟩, levels,
    hlevels, Except.ok.inj h⟩

/-- A source that is not refused is stored level by level, its own first level and then the further
levels made for it. -/
theorem exists_levels_of_build (h : build source = .ok texture) :
    texture.BuiltFrom source ∧ ∃ levels, source.furtherLevels = .ok levels ∧
      ∀ k (hk : k < (source.texels :: levels).length),
        texture.levelBytes k = (source.texels :: levels)[k] := by
  obtain ⟨⟨⟨_, hextent⟩, ⟨_, hcount⟩, -, ⟨_, hbase⟩⟩, levels, hlevels, htexture⟩ :=
    exists_furtherLevels_of_build h
  obtain ⟨⟨hs, ht, hr⟩, hvalid⟩ := Source.of_checkExtent_eq_ok hextent
  obtain ⟨hlength, hfills, hsupplied⟩ := Source.fills_of_furtherLevels hlevels
  -- the first level and the further ones are one run of levels from zero on
  have hfills : source.Fills 0 (source.texels :: levels) :=
    .cons (Source.size_of_checkSize_eq_ok hbase) hfills
  have hlayouts : texture.layouts = (List.range' 0 source.levelCount).map
      fun k ↦ source.layoutAt k (source.levelOffset k) := by
    rw [← source.baseLayout_cons_furtherLayouts, ← htexture]
  have hlevelCount : texture.levelCount = source.levelCount := by
    rw [levelCount, hlayouts, List.length_map, List.length_range']
  have hlayout : ∀ k < source.levelCount,
      texture.layout k = source.layoutAt k (source.levelOffset k) := by
    intro k hk
    rw [layout_of_lt (hlevelCount ▸ hk)]
    simp only [hlayouts, List.getElem_map, List.getElem_range', Nat.one_mul, Nat.zero_add]
  have hbytes : ∀ k (hk : k < (source.texels :: levels).length),
      texture.levelBytes k = (source.texels :: levels)[k] := by
    intro k hk
    have hextract := hfills.extract_foldl .empty rfl hk
    rw [Nat.zero_add, List.foldl_cons, ByteArray.empty_append] at hextract
    rw [levelBytes, hlayout k (by rwa [List.length_cons, hlength] at hk), ← htexture]
    exact hextract
  rw [← List.length_cons (a := source.texels)] at hlength
  refine ⟨⟨hs, ht, hr, hvalid, ?_, by rw [← htexture], by rw [← htexture], hlevelCount, hlayout,
    fun k hk ↦ ?_, fun k bytes hk ↦ ?_⟩, levels, hlevels, hbytes⟩
  · exact Nat.le_trans (Source.of_checkLevelCount_eq_ok hcount) (Nat.min_le_right _ _)
  · rw [hbytes k (by omega), hfills.size_getElem, Nat.zero_add]
  · cases k with
    | zero =>
      obtain rfl := Option.some.inj hk
      exact hbytes 0 (Nat.zero_lt_succ _)
    | succ k =>
      obtain ⟨hlt, hget⟩ := List.getElem?_eq_some_iff.1 (hsupplied k bytes hk)
      rw [hbytes (k + 1) (Nat.succ_lt_succ hlt), List.getElem_cons_succ, hget]

/-- The levels fill the storage. -/
theorem size_bytes_of_build (h : build source = .ok texture) :
    texture.bytes.size = source.levelOffset source.levelCount := by
  obtain ⟨⟨-, -, -, ⟨_, hbase⟩⟩, levels, hlevels, htexture⟩ := exists_furtherLevels_of_build h
  obtain ⟨hlength, hfills, -⟩ := Source.fills_of_furtherLevels hlevels
  have hbase : source.texels.size = source.levelOffset 1 := by
    rw [Source.size_of_checkSize_eq_ok hbase, Source.levelOffset, Source.levelOffset, Nat.zero_add]
    rfl
  rw [← htexture, ← hlength, Nat.add_comm levels.length]
  exact hfills.size_foldl source.texels hbase

theorem builtFrom_of_build (h : build source = .ok texture) : texture.BuiltFrom source :=
  (exists_levels_of_build h).1

end Texture

/-! ## A small texture -/

/-- Two by two bytes in a checkered pattern, and their mean as a second level. -/
def Source.checker : Source :=
  (Source.flat ⟨#[0, 255, 255, 0]⟩ 2 2 .l8Unorm).withFurther (.given [⟨#[128]⟩])

/-- The texture of the checkered source, its two levels behind each other. -/
def Texture.checker : Texture where
  bytes := ⟨#[0, 255, 255, 0, 128]⟩
  layouts := [⟨⟨2, 2, 1⟩, 0, 2, 4⟩, ⟨⟨1, 1, 1⟩, 4, 1, 1⟩]
  format := .l8Unorm
  target := .texture2D
  layouts_ne_nil := List.cons_ne_nil _ _

theorem build_checker : Texture.build .checker = .ok .checker := rfl

end QuadSampler
