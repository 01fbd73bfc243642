import QuadSampler.PixelFormat.Decode
import QuadSampler.Proofs.Outcome

/-!
# Words of codes

The inverse of reading a word: a code for each stored channel, shifted to the place of the channel,
and the bytes of the word in storage with anything before and after them. The channels of a word do
not overlap (`PixelFormat.wellLaid`), so each finds its own code again, whatever the others
hold. Bits are followed one by one: a bit of the word belongs to the one channel that covers it.

What the codes stand for is told format by format (`PixelFormat.colorBy`), so that the sizes and
swizzles of the table are held against it and not taken over. It is told for any reading of codes
(`FormatInfo.decodeBy`). Decoding to numbers is one reading, where all patterns of not-a-number
become one; under the reading that keeps patterns as they are no bit is lost.
-/

namespace QuadSampler

/-! ## Bytes of a word -/

namespace Storage

/-- The lowest `count` bytes of a number, the lowest first. -/
def bytesOfWord : Nat → Nat → List UInt8
  | 0, _ => []
  | count + 1, word => UInt8.ofNat word :: bytesOfWord count (word / 256)

private theorem length_bytesOfWord (count word : Nat) :
    (bytesOfWord count word).length = count := by
  induction count generalizing word with
  | zero => rfl
  | succ count ih => rw [bytesOfWord, List.length_cons, ih]

private theorem littleEndian_bytesOfWord {count word : Nat} (h : word < 256 ^ count) :
    littleEndian (bytesOfWord count word) = word := by
  induction count generalizing word with
  | zero =>
    rw [Nat.pow_zero] at h
    rw [bytesOfWord, littleEndian]
    omega
  | succ count ih =>
    have hdiv : word / 256 < 256 ^ count := by
      rw [Nat.div_lt_iff_lt_mul (by decide), ← Nat.pow_succ]
      exact h
    rw [bytesOfWord, littleEndian, ih hdiv, UInt8.toNat_ofNat']
    omega

theorem wordAt_append {count word : Nat} (h : word < 256 ^ count) (before after : ByteArray) :
    wordAt (before ++ (bytesOfWord count word).toByteArray ++ after) before.size count
      = .ok word := by
  have hsize : (bytesOfWord count word).toByteArray.size = count := by
    rw [List.size_toByteArray, length_bytesOfWord]
  have hextract : (before ++ (bytesOfWord count word).toByteArray ++ after).extract before.size
      (before.size + count) = (bytesOfWord count word).toByteArray := by
    have hskip := ByteArray.extract_append_size_add (a := before)
      (b := (bytesOfWord count word).toByteArray ++ after) (i := 0) (j := count)
    rw [ByteArray.append_assoc, ← Nat.add_zero before.size, Nat.add_assoc, Nat.zero_add, hskip]
    exact ByteArray.extract_append_eq_left hsize.symm
  rw [wordAt, bytesAt, if_pos (by simp only [ByteArray.size_append, hsize]; omega), hextract]
  have hlist : (bytesOfWord count word).toByteArray.data.toList = bytesOfWord count word := by
    simp
  rw [hlist]
  exact congrArg Except.ok (littleEndian_bytesOfWord h)

end Storage

/-! ## Codes of channels -/

namespace Channel

/-- Whether two channels have no bit in common. -/
def Disjoint (c d : Channel) : Prop := c.shift + c.size ≤ d.shift ∨ d.shift + d.size ≤ c.shift

instance (c d : Channel) : Decidable (c.Disjoint d) := inferInstanceAs (Decidable (_ ∨ _))

theorem Disjoint.symm {c d : Channel} (h : c.Disjoint d) : d.Disjoint c := Or.symm h

/-- The bits of a code at the place of the channel. -/
def place (c : Channel) (code : Nat) : Nat := code <<< c.shift

private theorem testBit_bitsOf (c : Channel) (word k : Nat) :
    (c.bitsOf word).testBit k = (decide (k < c.size) && word.testBit (c.shift + k)) := by
  rw [bitsOf, Nat.testBit_mod_two_pow, ← Nat.shiftRight_eq_div_pow, Nat.testBit_shiftRight]

private theorem bitsOf_place {c : Channel} {code : Nat} (h : code < 2 ^ c.size) :
    c.bitsOf (c.place code) = code := by
  rw [bitsOf, place, ← Nat.shiftRight_eq_div_pow, Nat.shiftLeft_shiftRight, Nat.mod_eq_of_lt h]

private theorem bitsOf_place_of_disjoint {c d : Channel} (hdisjoint : c.Disjoint d) {code : Nat}
    (h : code < 2 ^ d.size) : c.bitsOf (d.place code) = 0 := by
  refine Nat.eq_of_testBit_eq fun k ↦ ?_
  rw [testBit_bitsOf, place, Nat.testBit_shiftLeft, Nat.zero_testBit]
  by_cases hk : k < c.size
  · by_cases hd : d.shift ≤ c.shift + k
    · have hhigh : code.testBit (c.shift + k - d.shift) = false := by
        refine Nat.testBit_lt_two_pow (Nat.lt_of_lt_of_le h (Nat.pow_le_pow_right (by decide) ?_))
        rcases hdisjoint with hbelow | habove <;> omega
      rw [hhigh, Bool.and_false, Bool.and_false]
    · rw [decide_eq_false hd, Bool.false_and, Bool.and_false]
  · rw [decide_eq_false hk, Bool.false_and]

private theorem bitsOf_or (c : Channel) (v w : Nat) :
    c.bitsOf (v ||| w) = c.bitsOf v ||| c.bitsOf w := by
  refine Nat.eq_of_testBit_eq fun k ↦ ?_
  rw [Nat.testBit_or, testBit_bitsOf, testBit_bitsOf, testBit_bitsOf, Nat.testBit_or,
    Bool.and_or_distrib_left]

/-- An integer code divided by the greatest one of its size. -/
def fraction (size code : Nat) : Single := Single.ofNat code / Single.ofNat (2 ^ size - 1)

/-- The number with the bits of a code. -/
def pattern (code : Nat) : Single := .ofBits (.ofNat code)

/-- What a code of the channel stands for. Integers of a size are read by `fraction` and patterns of
bits by `pattern`. -/
def readBy {α : Type} (zero : α) (fraction : Nat → Nat → α) (pattern : Nat → α) (c : Channel)
    (code : Nat) : α :=
  match c.kind with
  | .void => zero
  | .unorm => fraction c.size code
  | .float => pattern code

end Channel

namespace FormatInfo

/-- A code for each stored channel that fits the channel. A channel that is not stored has code
zero. -/
structure Fits (f : FormatInfo) (codes : Color Nat) : Prop where
  red : codes.red < 2 ^ f.channels.red.size
  green : codes.green < 2 ^ f.channels.green.size
  blue : codes.blue < 2 ^ f.channels.blue.size
  alpha : codes.alpha < 2 ^ f.channels.alpha.size

/-- The word with the codes at the places of their channels. -/
def pack (f : FormatInfo) (codes : Color Nat) : Nat :=
  f.channels.red.place codes.red ||| f.channels.green.place codes.green |||
    f.channels.blue.place codes.blue ||| f.channels.alpha.place codes.alpha

def encode (f : FormatInfo) (codes : Color Nat) : ByteArray :=
  (Storage.bytesOfWord f.bytesPerBlock (f.pack codes)).toByteArray

/-- The colour of the texel at an offset with the codes of its channels read in the given way. -/
def decodeBy {α : Type} (zero one : α) (fraction : Nat → Nat → α) (pattern : Nat → α)
    (f : FormatInfo) (bytes : ByteArray) (offset : Nat) : Except Fault (Color α) := do
  let word ← Storage.wordAt bytes offset f.bytesPerBlock
  let codes := f.channels.map (·.bitsOf word)
  return f.swizzle.apply zero one (f.channels.zipWith (Channel.readBy zero fraction pattern) codes)

/-- Whether the channels of a word have no bit in common and end within its bytes. -/
structure WellLaid (f : FormatInfo) : Prop where
  red_green : f.channels.red.Disjoint f.channels.green
  red_blue : f.channels.red.Disjoint f.channels.blue
  red_alpha : f.channels.red.Disjoint f.channels.alpha
  green_blue : f.channels.green.Disjoint f.channels.blue
  green_alpha : f.channels.green.Disjoint f.channels.alpha
  blue_alpha : f.channels.blue.Disjoint f.channels.alpha
  le_bits : ∀ c ∈ f.channels.toList, c.shift + c.size ≤ 8 * f.bytesPerBlock

section Codes

variable {f : FormatInfo} {codes : Color Nat}

/-- Every channel finds its code in the word. -/
theorem bitsOf_pack (hlaid : f.WellLaid) (h : f.Fits codes) :
    f.channels.map (·.bitsOf (f.pack codes)) = codes := by
  have hred : f.channels.red.bitsOf (f.pack codes) = codes.red := by
    rw [pack, Channel.bitsOf_or, Channel.bitsOf_or, Channel.bitsOf_or, Channel.bitsOf_place h.red,
      Channel.bitsOf_place_of_disjoint hlaid.red_green h.green,
      Channel.bitsOf_place_of_disjoint hlaid.red_blue h.blue,
      Channel.bitsOf_place_of_disjoint hlaid.red_alpha h.alpha, Nat.or_zero, Nat.or_zero,
      Nat.or_zero]
  have hgreen : f.channels.green.bitsOf (f.pack codes) = codes.green := by
    rw [pack, Channel.bitsOf_or, Channel.bitsOf_or, Channel.bitsOf_or,
      Channel.bitsOf_place h.green,
      Channel.bitsOf_place_of_disjoint hlaid.red_green.symm h.red,
      Channel.bitsOf_place_of_disjoint hlaid.green_blue h.blue,
      Channel.bitsOf_place_of_disjoint hlaid.green_alpha h.alpha, Nat.zero_or, Nat.or_zero,
      Nat.or_zero]
  have hblue : f.channels.blue.bitsOf (f.pack codes) = codes.blue := by
    rw [pack, Channel.bitsOf_or, Channel.bitsOf_or, Channel.bitsOf_or,
      Channel.bitsOf_place h.blue,
      Channel.bitsOf_place_of_disjoint hlaid.red_blue.symm h.red,
      Channel.bitsOf_place_of_disjoint hlaid.green_blue.symm h.green,
      Channel.bitsOf_place_of_disjoint hlaid.blue_alpha h.alpha, Nat.zero_or, Nat.zero_or,
      Nat.or_zero]
  have halpha : f.channels.alpha.bitsOf (f.pack codes) = codes.alpha := by
    rw [pack, Channel.bitsOf_or, Channel.bitsOf_or, Channel.bitsOf_or,
      Channel.bitsOf_place h.alpha,
      Channel.bitsOf_place_of_disjoint hlaid.red_alpha.symm h.red,
      Channel.bitsOf_place_of_disjoint hlaid.green_alpha.symm h.green,
      Channel.bitsOf_place_of_disjoint hlaid.blue_alpha.symm h.blue, Nat.zero_or, Nat.zero_or,
      Nat.zero_or]
  rw [Color.map, hred, hgreen, hblue, halpha]

private theorem pack_lt (hlaid : f.WellLaid) (h : f.Fits codes) :
    f.pack codes < 256 ^ f.bytesPerBlock := by
  have hplace : ∀ c ∈ f.channels.toList, ∀ {code : Nat}, code < 2 ^ c.size →
      c.place code < 2 ^ (8 * f.bytesPerBlock) := by
    intro c hc code hcode
    refine Nat.lt_of_lt_of_le ?_ (Nat.pow_le_pow_right (by decide) (hlaid.le_bits c hc))
    rw [Channel.place, Nat.shiftLeft_eq, Nat.pow_add, Nat.mul_comm]
    exact Nat.mul_lt_mul_of_pos_left hcode (Nat.two_pow_pos _)
  rw [show 256 = 2 ^ 8 from rfl, ← Nat.pow_mul]
  exact Nat.or_lt_two_pow (Nat.or_lt_two_pow (Nat.or_lt_two_pow
    (hplace _ (by simp [Color.toList]) h.red) (hplace _ (by simp [Color.toList]) h.green))
    (hplace _ (by simp [Color.toList]) h.blue)) (hplace _ (by simp [Color.toList]) h.alpha)

/-- The word of a texel of codes is read wherever it lies, and every channel finds its code. -/
theorem exists_wordAt_encode (hlaid : f.WellLaid) (h : f.Fits codes) (before after : ByteArray) :
    ∃ word, Storage.wordAt (before ++ f.encode codes ++ after) before.size f.bytesPerBlock
        = .ok word ∧ f.channels.map (·.bitsOf word) = codes :=
  ⟨f.pack codes, Storage.wordAt_append (pack_lt hlaid h) before after, bitsOf_pack hlaid h⟩

/-- A texel of codes decodes to the readings of the codes. -/
theorem decodeBy_encode {α : Type} (zero one : α) (fraction : Nat → Nat → α) (pattern : Nat → α)
    (hlaid : f.WellLaid) (h : f.Fits codes) (before after : ByteArray) :
    f.decodeBy zero one fraction pattern (before ++ f.encode codes ++ after) before.size
      = .ok (f.swizzle.apply zero one
          (f.channels.zipWith (Channel.readBy zero fraction pattern) codes)) := by
  obtain ⟨word, hword, hcodes⟩ := exists_wordAt_encode hlaid h before after
  rw [decodeBy, hword, ← hcodes]
  rfl

theorem decodeNumbers_eq_decodeBy (hplain : f.packing = .plain) (bytes : ByteArray)
    (offset i j : Nat) :
    f.decodeNumbers bytes offset i j
      = f.decodeBy 0 1 Channel.fraction Channel.pattern bytes offset := by
  have hnumbers : ∀ word, f.numbersOf word i j
      = f.channels.zipWith (Channel.readBy 0 Channel.fraction Channel.pattern)
          (f.channels.map (·.bitsOf word)) := by
    intro word
    rw [numbersOf_of_plain hplain]
    rfl
  rw [decodeNumbers, decodeBy]
  exact bind_congr_ok fun word _ ↦ by rw [hnumbers]

end Codes

end FormatInfo

namespace PixelFormat

theorem wellLaid {f : PixelFormat} (h : f.info.packing = .plain) : f.info.WellLaid := by
  cases f with
  | dxt1Rgb | dxt1Rgba => exact nomatch h
  | _ => constructor <;> decide

section Meaning

variable {α : Type} (zero one : α) (fraction : Nat → Nat → α) (pattern : Nat → α)

/-- The colour that the codes of a word stand for, told format by format and without the table.
Codes are in the order of the stored channels; integers of a size are read by `fraction` and
patterns of bits by `pattern`. A compressed block has no codes. -/
def colorBy (c : Color Nat) : PixelFormat → Color α
  | rgba8Unorm => ⟨fraction 8 c.red, fraction 8 c.green, fraction 8 c.blue, fraction 8 c.alpha⟩
  | bgra8Unorm => ⟨fraction 8 c.blue, fraction 8 c.green, fraction 8 c.red, fraction 8 c.alpha⟩
  | rgb8Unorm => ⟨fraction 8 c.red, fraction 8 c.green, fraction 8 c.blue, one⟩
  | l8Unorm => ⟨fraction 8 c.red, fraction 8 c.red, fraction 8 c.red, one⟩
  | a8Unorm => ⟨zero, zero, zero, fraction 8 c.red⟩
  | l8a8Unorm => ⟨fraction 8 c.red, fraction 8 c.red, fraction 8 c.red, fraction 8 c.green⟩
  | r5g6b5Unorm => ⟨fraction 5 c.red, fraction 6 c.green, fraction 5 c.blue, one⟩
  | z16Unorm => ⟨fraction 16 c.red, zero, zero, one⟩
  | r32Float | z32Float => ⟨pattern c.red, zero, zero, one⟩
  | rgba32Float => ⟨pattern c.red, pattern c.green, pattern c.blue, pattern c.alpha⟩
  | dxt1Rgb | dxt1Rgba => .splat zero

/-- The table and its swizzles say what the codes stand for, however they are read. -/
theorem apply_zipWith_channels {f : PixelFormat} (h : f.info.packing = .plain)
    (codes : Color Nat) :
    f.info.swizzle.apply zero one
        (f.info.channels.zipWith (Channel.readBy zero fraction pattern) codes)
      = f.colorBy zero one fraction pattern codes := by
  cases f with
  | dxt1Rgb | dxt1Rgba => exact nomatch h
  | _ => rfl

/-- A texel of codes decodes to the colour that the codes stand for, however they are read. -/
theorem decodeBy_encode {f : PixelFormat} (hplain : f.info.packing = .plain) {codes : Color Nat}
    (h : f.info.Fits codes) (before after : ByteArray) :
    f.info.decodeBy zero one fraction pattern (before ++ f.info.encode codes ++ after) before.size
      = .ok (f.colorBy zero one fraction pattern codes) := by
  rw [FormatInfo.decodeBy_encode zero one fraction pattern (wellLaid hplain) h,
    apply_zipWith_channels zero one fraction pattern hplain]

end Meaning

/-- The colour in numbers that the codes of a word stand for. -/
def colorOfCodes (f : PixelFormat) (codes : Color Nat) : Color Single :=
  f.colorBy 0 1 Channel.fraction Channel.pattern codes

theorem decodeNumbers_encode {f : PixelFormat} (hplain : f.info.packing = .plain)
    {codes : Color Nat} (h : f.info.Fits codes) (before after : ByteArray) (i j : Nat) :
    f.info.decodeNumbers (before ++ f.info.encode codes ++ after) before.size i j
      = .ok (f.colorOfCodes codes) := by
  rw [FormatInfo.decodeNumbers_eq_decodeBy hplain, decodeBy_encode 0 1 _ _ hplain h, colorOfCodes]

end PixelFormat

end QuadSampler
