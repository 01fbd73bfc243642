import QuadSampler.Surface

/-!
# Decoding texels

Both decoders read the block at an offset as one little-endian word and take the texel in column
`i` and row `j` of it. `decodeNumbers` gives numbers, `decodeBytes` gives bytes; the second is for
formats that fit bytes, and for those and the compressed ones the first is the second divided by
255.
-/

namespace QuadSampler

/-! ## Compressed blocks

A compressed block is a word of 64 bits: two end colours of 16 bits and sixteen indices of two
bits, one for each texel of four by four. The indices point into a palette of four colours spanned
by the two ends. When the first end is the greater the palette has two colours between the ends;
otherwise it has their middle, and transparent black.
-/

/-- An integer of `size` bits widened to eight by repeating its leading bits, so that the greatest
goes to 255. Fewer than four bits are scaled instead. -/
def widenToByte (value size : Nat) : UInt8 :=
  if size = 8 then .ofNat value
  else if size = 0 then 0
  else if 4 ≤ size then .ofNat (value <<< (8 - size) ||| value >>> (2 * size - 8))
  else .ofNat (value * 255 / (2 ^ size - 1))

/-- The two ends and the sixteen indices of a compressed block. -/
structure Bc1Block where
  first : Nat
  second : Nat
  indices : Nat
deriving DecidableEq, Repr

namespace Bc1Block

/-- The block packed into a word. -/
def ofWord (word : Nat) : Bc1Block :=
  ⟨word % 2 ^ 16, word / 2 ^ 16 % 2 ^ 16, word / 2 ^ 32 % 2 ^ 32⟩

/-- Red, green and blue of an end colour, with five, six and five bits. -/
def endColor (packed : Nat) : Color UInt8 where
  red := widenToByte (packed / 2 ^ 11 % 2 ^ 5) 5
  green := widenToByte (packed / 2 ^ 5 % 2 ^ 6) 6
  blue := widenToByte (packed % 2 ^ 5) 5
  alpha := 255

/-- The mean of two bytes with the given weights, rounded down. -/
def mean (weight₀ weight₁ : Nat) (a b : UInt8) : UInt8 :=
  .ofNat ((a.toNat * weight₀ + b.toNat * weight₁) / (weight₀ + weight₁))

/-- The opaque colour at the given weights between the two ends. -/
def between (b : Bc1Block) (weight₀ weight₁ : Nat) : Color UInt8 :=
  { (endColor b.first).zipWith (mean weight₀ weight₁) (endColor b.second) with alpha := 255 }

def palette (b : Bc1Block) (index : Nat) : Color UInt8 :=
  if index = 0 then b.between 1 0
  else if index = 1 then b.between 0 1
  else if b.second < b.first then if index = 2 then b.between 2 1 else b.between 1 2
  else if index = 2 then b.between 1 1
  else .splat 0

def index (b : Bc1Block) (i j : Nat) : Nat := b.indices / 2 ^ (2 * (4 * j + i)) % 4

def texel (b : Bc1Block) (i j : Nat) : Color UInt8 := b.palette (b.index i j)

end Bc1Block

/-! ## Channels and texels -/

namespace Channel

def bitsOf (c : Channel) (word : Nat) : Nat := word / 2 ^ c.shift % 2 ^ c.size

/-- The number in a channel of a word. -/
def number (c : Channel) (word : Nat) : Single :=
  match c.kind with
  | .void => 0
  | .unorm => Single.ofNat (c.bitsOf word) / Single.ofNat (2 ^ c.size - 1)
  | .float => Single.ofBits (UInt32.ofNat (c.bitsOf word))

/-- The integer in a channel of a word, widened to a byte. Channels that hold no integer give
zero. -/
def byte (c : Channel) (word : Nat) : UInt8 :=
  match c.kind with
  | .unorm => widenToByte (c.bitsOf word) c.size
  | _ => 0

end Channel

namespace FormatInfo

/-- The stored channels of a texel of a block, in numbers. -/
def numbersOf (f : FormatInfo) (word i j : Nat) : Color Single :=
  match f.packing with
  | .plain => f.channels.map (·.number word)
  | .s3tc => ((Bc1Block.ofWord word).texel i j).toUnit

/-- The stored channels of a texel of a block, in bytes. -/
def bytesOf (f : FormatInfo) (word i j : Nat) : Color UInt8 :=
  match f.packing with
  | .plain => f.channels.map (·.byte word)
  | .s3tc => (Bc1Block.ofWord word).texel i j

theorem numbersOf_of_plain {f : FormatInfo} (h : f.packing = .plain) (word i j : Nat) :
    f.numbersOf word i j = f.channels.map (·.number word) := by
  rw [numbersOf, h]

theorem numbersOf_of_s3tc {f : FormatInfo} (h : f.packing = .s3tc) (word i j : Nat) :
    f.numbersOf word i j = ((Bc1Block.ofWord word).texel i j).toUnit := by
  rw [numbersOf, h]

theorem bytesOf_of_plain {f : FormatInfo} (h : f.packing = .plain) (word i j : Nat) :
    f.bytesOf word i j = f.channels.map (·.byte word) := by
  rw [bytesOf, h]

theorem bytesOf_of_s3tc {f : FormatInfo} (h : f.packing = .s3tc) (word i j : Nat) :
    f.bytesOf word i j = (Bc1Block.ofWord word).texel i j := by
  rw [bytesOf, h]

/-- The colour in numbers of texel `(i, j)` of the block at `offset`. -/
def decodeNumbers (f : FormatInfo) (bytes : ByteArray) (offset i j : Nat) :
    Except Fault (Color Single) := do
  let word ← Storage.wordAt bytes offset f.bytesPerBlock
  return f.swizzle.apply 0 1 (f.numbersOf word i j)

/-- The colour in bytes of texel `(i, j)` of the block at `offset`. -/
def decodeBytes (f : FormatInfo) (bytes : ByteArray) (offset i j : Nat) :
    Except Fault (Color UInt8) := do
  let word ← Storage.wordAt bytes offset f.bytesPerBlock
  return f.swizzle.apply 0 255 (f.bytesOf word i j)

end FormatInfo

end QuadSampler
