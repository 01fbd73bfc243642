import QuadSampler.Color

/-!
# Pixel formats

A pixel format says how a block of texels is packed into bytes: the size of the block, the channels
of a packed word, and the swizzle from those channels to red, green, blue and alpha. The table
`PixelFormat.info` describes every format; the decoders read nothing else.
-/

namespace QuadSampler

/-- The formats that texels can be stored in. -/
inductive PixelFormat where
  | rgba8Unorm
  | bgra8Unorm
  | rgb8Unorm
  | l8Unorm
  | a8Unorm
  | l8a8Unorm
  | r5g6b5Unorm
  | r32Float
  | rgba32Float
  | z16Unorm
  | z32Float
  | dxt1Rgb
  | dxt1Rgba
deriving DecidableEq, Repr

/-- How a block is laid out in bytes. -/
inductive Packing where
  /-- A block is one texel, a little-endian word with the channels at fixed shifts. -/
  | plain
  /-- A block is four by four texels in the first S3 compression scheme. -/
  | s3tc
deriving DecidableEq, Repr

/-- What the channels mean. -/
inductive Colorspace where
  | rgb
  /-- Depth and stencil. -/
  | zs
deriving DecidableEq, Repr

/-- How the bits of a channel are read. -/
inductive ChannelKind where
  /-- The channel is not stored. -/
  | void
  /-- An unsigned integer, divided by the greatest one that fits. -/
  | unorm
  /-- A single-precision number. -/
  | float
deriving DecidableEq, Repr

/-- A channel of a packed word. -/
structure Channel where
  kind : ChannelKind
  /-- Width in bits. -/
  size : Nat
  /-- Place of the lowest bit in the word. -/
  shift : Nat
deriving DecidableEq, Repr

namespace Channel

def void : Channel := ⟨.void, 0, 0⟩

/-- An integer channel of `size` bits at `shift`. -/
def unorm (size shift : Nat) : Channel := ⟨.unorm, size, shift⟩

/-- A single-precision channel at `shift`. -/
def float (shift : Nat) : Channel := ⟨.float, 32, shift⟩

/-- Whether the channel, if stored at all, is an integer of eight bits. -/
def isByte (c : Channel) : Bool :=
  match c.kind with
  | .void => true
  | .unorm => c.size == 8
  | .float => false

/-- Whether the channel, if stored at all, is an integer that fills one byte of the word. -/
def fillsByte (c : Channel) : Bool :=
  match c.kind with
  | .void => true
  | .unorm => c.size == 8 && c.shift % 8 == 0
  | .float => false

end Channel

/-- Extent of a block in texels and its size. -/
structure Block where
  width : Nat
  height : Nat
  bits : Nat
deriving DecidableEq, Repr

/-- The description of a pixel format. -/
structure FormatInfo where
  /-- The name a format has in descriptions. -/
  name : String
  packing : Packing
  block : Block
  /-- The channels as they are stored. -/
  channels : Color Channel
  /-- The stored channel or constant of each colour channel. -/
  swizzle : Swizzle
  colorspace : Colorspace
deriving DecidableEq, Repr

namespace FormatInfo

def bytesPerBlock (f : FormatInfo) : Nat := f.block.bits / 8

/-- Whether colours of the format are exactly colours of eight-bit integers. Narrower integers do
not count: widened to eight bits they round otherwise than divided by their own greatest value. -/
def fitsBytes (f : FormatInfo) : Bool :=
  f.packing == .plain && f.colorspace == .rgb && f.channels.toList.all Channel.isByte

/-- Whether every stored byte is a channel of its own, so that texels can be averaged byte by
byte. -/
def isBytewise (f : FormatInfo) : Bool :=
  f.packing == .plain && f.channels.toList.all Channel.fillsByte

private def plain (name : String) (bits : Nat) (channels : Color Channel) (swizzle : Swizzle)
    (colorspace : Colorspace) : FormatInfo :=
  ⟨name, .plain, ⟨1, 1, bits⟩, channels, swizzle, colorspace⟩

private def s3tc (name : String) (swizzle : Swizzle) : FormatInfo :=
  ⟨name, .s3tc, ⟨4, 4, 64⟩, ⟨.unorm 8 0, .unorm 8 8, .unorm 8 16, .unorm 8 24⟩, swizzle, .rgb⟩

end FormatInfo

namespace PixelFormat

/-- The table of formats. -/
def info : PixelFormat → FormatInfo
  | rgba8Unorm =>
    .plain "rgba8_unorm" 32 ⟨.unorm 8 0, .unorm 8 8, .unorm 8 16, .unorm 8 24⟩ ⟨.x, .y, .z, .w⟩ .rgb
  | bgra8Unorm =>
    .plain "bgra8_unorm" 32 ⟨.unorm 8 0, .unorm 8 8, .unorm 8 16, .unorm 8 24⟩ ⟨.z, .y, .x, .w⟩ .rgb
  | rgb8Unorm =>
    .plain "rgb8_unorm" 24 ⟨.unorm 8 0, .unorm 8 8, .unorm 8 16, .void⟩ ⟨.x, .y, .z, .one⟩ .rgb
  | l8Unorm =>
    .plain "l8_unorm" 8 ⟨.unorm 8 0, .void, .void, .void⟩ ⟨.x, .x, .x, .one⟩ .rgb
  | a8Unorm =>
    .plain "a8_unorm" 8 ⟨.unorm 8 0, .void, .void, .void⟩ ⟨.zero, .zero, .zero, .x⟩ .rgb
  | l8a8Unorm =>
    .plain "l8a8_unorm" 16 ⟨.unorm 8 0, .unorm 8 8, .void, .void⟩ ⟨.x, .x, .x, .y⟩ .rgb
  | r5g6b5Unorm =>
    .plain "r5g6b5_unorm" 16 ⟨.unorm 5 11, .unorm 6 5, .unorm 5 0, .void⟩ ⟨.x, .y, .z, .one⟩ .rgb
  | r32Float =>
    .plain "r32_float" 32 ⟨.float 0, .void, .void, .void⟩ ⟨.x, .zero, .zero, .one⟩ .rgb
  | rgba32Float =>
    .plain "rgba32_float" 128 ⟨.float 0, .float 32, .float 64, .float 96⟩ ⟨.x, .y, .z, .w⟩ .rgb
  | z16Unorm =>
    .plain "z16_unorm" 16 ⟨.unorm 16 0, .void, .void, .void⟩ ⟨.x, .zero, .zero, .one⟩ .zs
  | z32Float =>
    .plain "z32_float" 32 ⟨.float 0, .void, .void, .void⟩ ⟨.x, .zero, .zero, .one⟩ .zs
  | dxt1Rgb => .s3tc "dxt1_rgb" ⟨.x, .y, .z, .one⟩
  | dxt1Rgba => .s3tc "dxt1_rgba" ⟨.x, .y, .z, .w⟩

def name : PixelFormat → String
  | rgba8Unorm => "Rgba8Unorm"
  | bgra8Unorm => "Bgra8Unorm"
  | rgb8Unorm => "Rgb8Unorm"
  | l8Unorm => "L8Unorm"
  | a8Unorm => "A8Unorm"
  | l8a8Unorm => "L8A8Unorm"
  | r5g6b5Unorm => "R5G6B5Unorm"
  | r32Float => "R32Float"
  | rgba32Float => "Rgba32Float"
  | z16Unorm => "Z16Unorm"
  | z32Float => "Z32Float"
  | dxt1Rgb => "Dxt1Rgb"
  | dxt1Rgba => "Dxt1Rgba"

end PixelFormat

end QuadSampler
