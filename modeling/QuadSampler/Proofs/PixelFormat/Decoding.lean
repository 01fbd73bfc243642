import Mathlib.Data.Nat.Digits.Lemmas
import QuadSampler.Proofs.Filtering.NearestPaths
import QuadSampler.Proofs.PixelFormat.PackedWord
import QuadSampler.Proofs.Single.Words

/-!
# Decoding inverts encoding

What is put into a block comes out of it, for every format of the table: codes of a packed word as
the numbers they stand for, and the ends and indices of a compressed block as colours of its
palette. The palette is told here in unbounded integers (`Bc1Block.levels`), so that nothing of the
arithmetic in bytes is taken over; no step of it leaves the bytes.

The two decoders are one: where a format has a colour in bytes at all, its colour in numbers is that
colour divided by 255, and the one fails exactly if the other does.
-/

namespace QuadSampler

/-! ## Compressed blocks -/

namespace Bc1Block

/-- The word with the given ends and indices. Texels follow each other along the rows, the first in
the lowest bits. -/
def wordOf (first second : UInt16) (indices : Fin 16 → Fin 4) : Nat :=
  first.toNat + 2 ^ 16 * second.toNat + 2 ^ 32 * Nat.ofDigits 4 (List.ofFn fun k ↦ (indices k).val)

/-- The bytes of the block with the given ends and indices. -/
def encode (first second : UInt16) (indices : Fin 16 → Fin 4) : ByteArray :=
  (Storage.bytesOfWord 8 (wordOf first second indices)).toByteArray

/-- The place of the texel in column `i` and row `j`. -/
def texelAt (i j : Fin 4) : Fin 16 := ⟨4 * j + i, by omega⟩

section Word

variable (first second : UInt16) (indices : Fin 16 → Fin 4)

private theorem lt_four_of_mem {d : Nat} (h : d ∈ List.ofFn fun k ↦ (indices k).val) : d < 4 := by
  obtain ⟨k, rfl⟩ := List.mem_ofFn.1 h
  exact (indices k).isLt

private theorem ofDigits_indices_lt :
    Nat.ofDigits 4 (List.ofFn fun k ↦ (indices k).val) < 2 ^ 32 := by
  have hlt := Nat.ofDigits_lt_base_pow_length (by decide) fun _ ↦ lt_four_of_mem indices
  rw [List.length_ofFn] at hlt
  exact hlt

private theorem wordOf_lt : wordOf first second indices < 256 ^ 8 := by
  have hfirst := first.toNat_lt
  have hsecond := second.toNat_lt
  have hindices := ofDigits_indices_lt indices
  rw [wordOf]
  omega

theorem ofWord_wordOf :
    ofWord (wordOf first second indices)
      = ⟨first.toNat, second.toNat, Nat.ofDigits 4 (List.ofFn fun k ↦ (indices k).val)⟩ := by
  have hfirst := first.toNat_lt
  have hsecond := second.toNat_lt
  have hindices := ofDigits_indices_lt indices
  rw [ofWord, wordOf, Bc1Block.mk.injEq]
  refine ⟨?_, ?_, ?_⟩ <;> omega

private theorem index_wordOf (i j : Fin 4) :
    (ofWord (wordOf first second indices)).index i j = indices (texelAt i j) := by
  let digits := List.ofFn fun k ↦ (indices k).val
  have hlength : digits.length = 16 := List.length_ofFn
  have hplace : 4 * j.val + i.val < digits.length := hlength ▸ (texelAt i j).isLt
  have hdigit : digits[4 * j.val + i.val] = (indices (texelAt i j)).val := List.getElem_ofFn _
  have hpow : (2 : Nat) ^ (2 * (4 * j.val + i.val)) = 4 ^ (4 * j.val + i.val) := Nat.pow_mul 2 2 _
  rw [ofWord_wordOf, index, hpow,
    Nat.ofDigits_div_pow_eq_ofDigits_drop _ (by decide) _ fun _ ↦ lt_four_of_mem indices,
    List.drop_eq_getElem_cons hplace, Nat.ofDigits_cons, Nat.add_mul_mod_self_left, hdigit]
  exact Nat.mod_eq_of_lt (indices (texelAt i j)).isLt

end Word

/-! ### The palette in unbounded integers -/

/-- An end colour widened to eight bits, the leading bits of each channel repeated below it. -/
def endLevels (packed : Nat) : Color Nat where
  red := 8 * (packed / 2 ^ 11) + packed / 2 ^ 11 / 4
  green := 4 * (packed / 2 ^ 5 % 2 ^ 6) + packed / 2 ^ 5 % 2 ^ 6 / 16
  blue := 8 * (packed % 2 ^ 5) + packed % 2 ^ 5 / 4
  alpha := 255

/-- The colour of each index: the two ends, and thirds between them or, when the first end is not
the greater, their middle and transparent black. -/
def levels (first second : Nat) (index : Fin 4) : Color Nat :=
  match index with
  | 0 => endLevels first
  | 1 => endLevels second
  | 2 =>
    if second < first then (endLevels first).zipWith (fun a b ↦ (2 * a + b) / 3) (endLevels second)
    else (endLevels first).zipWith (fun a b ↦ (a + b) / 2) (endLevels second)
  | 3 =>
    if second < first then (endLevels first).zipWith (fun a b ↦ (a + 2 * b) / 3) (endLevels second)
    else .splat 0

private theorem toNat_widenToByte_five :
    ∀ v < 2 ^ 5, (widenToByte v 5).toNat = 8 * v + v / 4 := by
  decide +kernel

private theorem toNat_widenToByte_six :
    ∀ v < 2 ^ 6, (widenToByte v 6).toNat = 4 * v + v / 16 := by
  decide +kernel

private theorem map_toNat_endColor {packed : Nat} (h : packed < 2 ^ 16) :
    (endColor packed).map UInt8.toNat = endLevels packed := by
  have hred : packed / 2 ^ 11 % 2 ^ 5 = packed / 2 ^ 11 := Nat.mod_eq_of_lt (by omega)
  rw [Color.map, endColor, endLevels, hred, toNat_widenToByte_five _ (by omega),
    toNat_widenToByte_six _ (Nat.mod_lt _ (by decide)),
    toNat_widenToByte_five _ (Nat.mod_lt _ (by decide))]
  rfl

private theorem toNat_mean {weight₀ weight₁ : Nat} (h : 0 < weight₀ + weight₁) (a b : UInt8) :
    (mean weight₀ weight₁ a b).toNat
      = (a.toNat * weight₀ + b.toNat * weight₁) / (weight₀ + weight₁) := by
  have hbyte : (a.toNat * weight₀ + b.toNat * weight₁) / (weight₀ + weight₁) < 256 := by
    rw [Nat.div_lt_iff_lt_mul h]
    have ha := Nat.mul_le_mul_right weight₀ (Nat.le_of_lt_succ a.toNat_lt)
    have hb := Nat.mul_le_mul_right weight₁ (Nat.le_of_lt_succ b.toNat_lt)
    omega
  rw [mean, UInt8.toNat_ofNat', Nat.mod_eq_of_lt hbyte]

section Palette

variable {first second : Nat} (hfirst : first < 2 ^ 16) (hsecond : second < 2 ^ 16) (rest : Nat)

include hfirst hsecond

private theorem map_toNat_between (weight₀ weight₁ : Nat) (h : 0 < weight₀ + weight₁) :
    ((⟨first, second, rest⟩ : Bc1Block).between weight₀ weight₁).map UInt8.toNat
      = (endLevels first).zipWith
          (fun a b ↦ (a * weight₀ + b * weight₁) / (weight₀ + weight₁)) (endLevels second) := by
  have halpha : (255 * weight₀ + 255 * weight₁) / (weight₀ + weight₁) = 255 := by
    rw [← Nat.mul_add, Nat.mul_div_cancel _ h]
  rw [← map_toNat_endColor hfirst, ← map_toNat_endColor hsecond]
  simp only [between, Color.map, Color.zipWith, toNat_mean h, Color.mk.injEq, true_and]
  exact halpha.symm

/-- The palette in bytes is the palette in unbounded integers. -/
theorem map_toNat_palette (index : Fin 4) :
    ((⟨first, second, rest⟩ : Bc1Block).palette index).map UInt8.toNat
      = levels first second index := by
  have hbetween := map_toNat_between hfirst hsecond rest
  match index with
  | 0 =>
    refine (hbetween 1 0 (by decide)).trans ?_
    simp [levels, Color.zipWith]
  | 1 =>
    refine (hbetween 0 1 (by decide)).trans ?_
    simp [levels, Color.zipWith]
  | 2 =>
    by_cases hmode : second < first
    · rw [palette, if_neg (by decide), if_neg (by decide), if_pos hmode, if_pos (by decide),
        hbetween 2 1 (by decide)]
      simp only [levels, if_pos hmode, Nat.mul_comm 2, Nat.mul_one, Nat.reduceAdd]
    · rw [palette, if_neg (by decide), if_neg (by decide), if_neg hmode, if_pos (by decide),
        hbetween 1 1 (by decide)]
      simp only [levels, if_neg hmode, Nat.mul_one, Nat.reduceAdd]
  | 3 =>
    by_cases hmode : second < first
    · rw [palette, if_neg (by decide), if_neg (by decide), if_pos hmode, if_neg (by decide),
        hbetween 1 2 (by decide)]
      simp only [levels, if_pos hmode, Nat.mul_comm 2, Nat.mul_one, Nat.reduceAdd]
    · rw [palette, if_neg (by decide), if_neg (by decide), if_neg hmode, if_neg (by decide)]
      simp only [levels, if_neg hmode]
      rfl

end Palette

theorem map_toNat_texel (first second : UInt16) (indices : Fin 16 → Fin 4) (i j : Fin 4) :
    ((ofWord (wordOf first second indices)).texel i j).map UInt8.toNat
      = levels first.toNat second.toNat (indices (texelAt i j)) := by
  rw [texel, index_wordOf, ofWord_wordOf]
  exact map_toNat_palette first.toNat_lt second.toNat_lt _ _

end Bc1Block

theorem FormatInfo.decodeBytes_dxt1Rgba {bytes : ByteArray} {offset word : Nat}
    (h : Storage.wordAt bytes offset 8 = .ok word) (i j : Nat) :
    PixelFormat.dxt1Rgba.info.decodeBytes bytes offset i j
      = .ok ((Bc1Block.ofWord word).texel i j) :=
  bind_eq_ok.2 ⟨word, h, rfl⟩

/-- A block decodes to the colours of its palette, wherever it lies. -/
theorem Bc1Block.decodeBytes_encode (first second : UInt16) (indices : Fin 16 → Fin 4)
    (before after : ByteArray) (i j : Fin 4) :
    (PixelFormat.dxt1Rgba.info.decodeBytes (before ++ encode first second indices ++ after)
        before.size i j).map (Color.map UInt8.toNat)
      = .ok (levels first.toNat second.toNat (indices (texelAt i j))) := by
  have hword := Storage.wordAt_append (wordOf_lt first second indices) before after
  rw [encode, FormatInfo.decodeBytes_dxt1Rgba hword, ← map_toNat_texel]
  rfl

/-- Without alpha a compressed texel is the one with alpha, but opaque. -/
theorem FormatInfo.decodeBytes_dxt1Rgb (bytes : ByteArray) (offset i j : Nat) :
    PixelFormat.dxt1Rgb.info.decodeBytes bytes offset i j
      = (PixelFormat.dxt1Rgba.info.decodeBytes bytes offset i j).map
          ({ · with alpha := 255 }) := by
  have hsize : PixelFormat.dxt1Rgb.info.bytesPerBlock = 8 := rfl
  have hsize' : PixelFormat.dxt1Rgba.info.bytesPerBlock = 8 := rfl
  rw [decodeBytes, decodeBytes, hsize, hsize']
  cases Storage.wordAt bytes offset 8 with
  | error fault => rfl
  | ok word => rfl

/-! ## One decoder and the other -/

/-- Where a format has colours in bytes, its colours in numbers are those divided by 255. -/
theorem FormatInfo.decodeNumbers_eq_map_decodeBytes {f : FormatInfo}
    (h : f.packing = .s3tc ∨ f.fitsBytes = true) (bytes : ByteArray) (offset i j : Nat) :
    f.decodeNumbers bytes offset i j = (f.decodeBytes bytes offset i j).map Color.toUnit := by
  cases hword : Storage.wordAt bytes offset f.bytesPerBlock with
  | error fault =>
    rw [decodeNumbers, decodeBytes, hword]
    rfl
  | ok word =>
    have hbytes : f.decodeBytes bytes offset i j
        = .ok (f.swizzle.apply 0 255 (f.bytesOf word i j)) := bind_eq_ok.2 ⟨word, hword, rfl⟩
    rcases h with hs3tc | hfits
    · have hnumbers : f.numbersOf word i j = (f.bytesOf word i j).toUnit := by
        rw [numbersOf_of_s3tc hs3tc, bytesOf_of_s3tc hs3tc]
      rw [hbytes]
      refine bind_eq_ok.2 ⟨word, hword, ?_⟩
      rw [hnumbers, ← byteToUnit_zero, ← byteToUnit_255]
      exact congrArg Except.ok
        (Swizzle.apply_map byteToUnit f.swizzle 0 255 (f.bytesOf word i j))
    · rw [decodeNumbers_of_decodeBytes hfits hbytes, hbytes]
      rfl

theorem FormatInfo.decodeNumbers_dxt1Rgb (bytes : ByteArray) (offset i j : Nat) :
    PixelFormat.dxt1Rgb.info.decodeNumbers bytes offset i j
      = (PixelFormat.dxt1Rgba.info.decodeNumbers bytes offset i j).map
          ({ · with alpha := 1 }) := by
  rw [decodeNumbers_eq_map_decodeBytes (.inl rfl), decodeNumbers_eq_map_decodeBytes (.inl rfl),
    decodeBytes_dxt1Rgb, ← byteToUnit_255]
  cases PixelFormat.dxt1Rgba.info.decodeBytes bytes offset i j with
  | error fault => rfl
  | ok color => rfl

/-! ## The whole table -/

/-- Decoding inverts encoding, with anything before and after the block.

* In the word of a packed texel every channel finds the bits of its code, those of each pattern of
  not-a-number too. Decoding to numbers reads these bits, integers as fractions and patterns as
  numbers, and however they are read the colour is the one that the codes stand for in the format.
* A pattern of 32 bits is read as the number with exactly these bits, unless it is one of those for
  not-a-number, which as numbers are one.
* A compressed block decodes to the colours of the palette of its ends, each texel to the one its
  index names. Without alpha the colour is the same but opaque.
* Where a format has colours in bytes, the colours in numbers are those divided by 255. -/
theorem decoding_inverts_encoding :
    (∀ (f : PixelFormat) (codes : Color Nat) (before after : ByteArray),
      f.info.packing = .plain → f.info.Fits codes →
      (∃ word, Storage.wordAt (before ++ f.info.encode codes ++ after) before.size
          f.info.bytesPerBlock = .ok word ∧ f.info.channels.map (·.bitsOf word) = codes) ∧
      (∀ (α : Type) (zero one : α) (fraction : Nat → Nat → α) (pattern : Nat → α),
        f.info.decodeBy zero one fraction pattern (before ++ f.info.encode codes ++ after)
            before.size
          = .ok (f.colorBy zero one fraction pattern codes)) ∧
      ∀ i j, f.info.decodeNumbers (before ++ f.info.encode codes ++ after) before.size i j
        = .ok (f.colorOfCodes codes)) ∧
    (∀ (f : PixelFormat) (bytes : ByteArray) (offset i j : Nat), f.info.packing = .plain →
      f.info.decodeNumbers bytes offset i j
        = f.info.decodeBy 0 1 Channel.fraction Channel.pattern bytes offset) ∧
    (∀ word : UInt32,
      if Single.IsNanWord word then Single.ofBits word = .nan
      else (Single.ofBits word).toBits = word) ∧
    (∀ (first second : UInt16) (indices : Fin 16 → Fin 4) (before after : ByteArray) (i j : Fin 4),
      (PixelFormat.dxt1Rgba.info.decodeBytes
          (before ++ Bc1Block.encode first second indices ++ after) before.size i j).map
          (Color.map UInt8.toNat)
        = .ok (Bc1Block.levels first.toNat second.toNat (indices (Bc1Block.texelAt i j)))) ∧
    (∀ (bytes : ByteArray) (offset i j : Nat),
      PixelFormat.dxt1Rgb.info.decodeBytes bytes offset i j
        = (PixelFormat.dxt1Rgba.info.decodeBytes bytes offset i j).map
            ({ · with alpha := 255 }) ∧
      PixelFormat.dxt1Rgb.info.decodeNumbers bytes offset i j
        = (PixelFormat.dxt1Rgba.info.decodeNumbers bytes offset i j).map
            ({ · with alpha := 1 })) ∧
    (∀ (f : PixelFormat) (bytes : ByteArray) (offset i j : Nat),
      f.info.packing = .s3tc ∨ f.info.fitsBytes = true →
      f.info.decodeNumbers bytes offset i j
        = (f.info.decodeBytes bytes offset i j).map Color.toUnit) := by
  refine ⟨?plain, ?numbers, ?words, ?blocks, ?withoutAlpha, ?bytes⟩
  case plain =>
    intro f codes before after hplain hfits
    refine ⟨FormatInfo.exists_wordAt_encode (PixelFormat.wellLaid hplain) hfits before after,
      ?_, PixelFormat.decodeNumbers_encode hplain hfits before after⟩
    intro α zero one fraction pattern
    exact PixelFormat.decodeBy_encode zero one fraction pattern hplain hfits before after
  case numbers =>
    intro f bytes offset i j hplain
    exact FormatInfo.decodeNumbers_eq_decodeBy hplain bytes offset i j
  case words =>
    intro word
    split
    case isTrue hnan => exact (Single.ofBits_eq_nan_iff word).2 hnan
    case isFalse hnumber => exact Single.toBits_ofBits hnumber
  case blocks => exact Bc1Block.decodeBytes_encode
  case withoutAlpha =>
    intro bytes offset i j
    exact ⟨FormatInfo.decodeBytes_dxt1Rgb bytes offset i j,
      FormatInfo.decodeNumbers_dxt1Rgb bytes offset i j⟩
  case bytes =>
    intro f bytes offset i j h
    exact FormatInfo.decodeNumbers_eq_map_decodeBytes h bytes offset i j

/-- A texel of five, six and five bits behind another byte, a texel with a sign and a payload in a
pattern of not-a-number, a texel two thirds of the way from red to blue, and a byte colour in both
readings. -/
theorem decoding_inverts_encoding_samples :
    (PixelFormat.r5g6b5Unorm.info.decodeNumbers ⟨#[9, 0x47, 0xfd, 1, 2]⟩ 1 0 0
      = .ok ⟨1, 42 / 63, 7 / 31, 1⟩) ∧
    ((∃ word, Storage.wordAt ⟨#[9, 1, 0, 0xc0, 0xff]⟩ 1 4 = .ok word ∧
        PixelFormat.r32Float.info.channels.map (·.bitsOf word) = ⟨0xffc00001, 0, 0, 0⟩) ∧
      PixelFormat.r32Float.info.decodeBy 0 1 (fun _ code ↦ code) id ⟨#[9, 1, 0, 0xc0, 0xff]⟩ 1
        = .ok ⟨0xffc00001, 0, 0, 1⟩ ∧
      Single.ofBits 0xffc00001 = .nan ∧ (Single.ofBits 0x80000001).toBits = 0x80000001) ∧
    ((PixelFormat.dxt1Rgba.info.decodeBytes ⟨#[9, 0, 0xf8, 0x1f, 0, 0xe4, 0xe4, 0xe4, 0xe4]⟩ 1 2
        1).map (Color.map UInt8.toNat)
      = .ok ⟨170, 0, 85, 255⟩) ∧
    (PixelFormat.bgra8Unorm.info.decodeNumbers ⟨#[1, 2, 3, 4]⟩ 0 0 0
      = .ok ⟨3 / 255, 2 / 255, 1 / 255, 4 / 255⟩) := by
  obtain ⟨plain, -, words, blocks, -, bytes⟩ := decoding_inverts_encoding
  refine ⟨?_, ⟨?_, ?_, ?_, ?_⟩, ?_, ?_⟩
  · have hfits : PixelFormat.r5g6b5Unorm.info.Fits ⟨31, 42, 7, 0⟩ := by constructor <;> decide
    exact ((plain .r5g6b5Unorm ⟨31, 42, 7, 0⟩ ⟨#[9]⟩ ⟨#[1, 2]⟩ rfl hfits).2.2 0 0).trans
      (by decide +kernel)
  · have hfits : PixelFormat.r32Float.info.Fits ⟨0xffc00001, 0, 0, 0⟩ := by constructor <;> decide
    exact (plain .r32Float ⟨0xffc00001, 0, 0, 0⟩ ⟨#[9]⟩ ⟨#[]⟩ rfl hfits).1
  · have hfits : PixelFormat.r32Float.info.Fits ⟨0xffc00001, 0, 0, 0⟩ := by constructor <;> decide
    exact (plain .r32Float ⟨0xffc00001, 0, 0, 0⟩ ⟨#[9]⟩ ⟨#[]⟩ rfl hfits).2.1 Nat 0 1
      (fun _ code ↦ code) id
  · exact words 0xffc00001
  · exact words 0x80000001
  · exact (blocks 0xf800 0x001f (fun k ↦ Fin.ofNat 4 k) ⟨#[9]⟩ ⟨#[]⟩ 2 1).trans
      (by decide +kernel)
  · exact (bytes .bgra8Unorm ⟨#[1, 2, 3, 4]⟩ 0 0 0 (.inr rfl)).trans (by decide +kernel)

end QuadSampler
