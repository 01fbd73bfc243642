import QuadSampler.Surface

/-!
# Sources and the layout of their levels

A `Source` describes the texture to build: its shape, the bytes of its first level, and where the
further levels come from. `Source.baseLayout` and `Source.furtherLayouts` place the levels one after
the other in a single storage, each with its rows and slices tightly packed.

Why a texture is not built or not bound is a `Refusal`, with the message of each cause. A build may
also end in a `Fault`; `BuildFailure` keeps the two apart.
-/

namespace QuadSampler

/-! ## Errors -/

/-- Why a texture is refused. -/
inductive Refusal where
  | zeroExtent (extent : Axes Nat)
  | invalidExtent (target : Target) (extent : Axes Nat)
  | dataSize (level expected actual : Nat)
  | tooManyLevels (count limit : Nat)
  | generationUnsupported (format : PixelFormat)
  | rectWithLevels
  | unitOutOfRange (unit limit : Nat)
deriving DecidableEq, Repr

/-- Width, height and depth with crosses between them. -/
def Axes.crossed (extent : Axes Nat) : String := s!"{extent.s}x{extent.t}x{extent.r}"

def Refusal.message : Refusal → String
  | zeroExtent extent => s!"Texture extent {extent.crossed} has a zero dimension"
  | invalidExtent target extent =>
    s!"Extent {extent.crossed} is not valid for a {target.name} texture"
  | dataSize level expected actual =>
    s!"Level {level} needs {expected} bytes of texel data, got {actual}"
  | tooManyLevels count limit =>
    s!"{count} mip levels requested, at most {limit} fit this texture"
  | generationUnsupported format =>
    s!"Mipmap generation is not supported for {format.name}"
  | rectWithLevels => "Rect textures cannot have mip levels"
  | unitOutOfRange unit limit =>
    s!"Texture unit {unit} is out of range, only {limit} units exist"

/-- How a build can fail. -/
inductive BuildFailure where
  /-- The source is refused. -/
  | refused (error : Refusal)
  /-- The build ends without an answer. -/
  | aborted (fault : Fault)
deriving DecidableEq, Repr

/-! ## Sources -/

/-- Where the levels after the first come from. -/
inductive FurtherLevels where
  /-- There are none. -/
  | absent
  /-- Each is averaged from the one before, down to a single texel. -/
  | generated
  /-- They are given, laid out like the first. -/
  | given (levels : List ByteArray)

/-- What a texture is built from. -/
structure Source where
  /-- The bytes of the first level; faces and slices follow each other. -/
  texels : ByteArray
  format : PixelFormat
  target : Target
  /-- Width, height and depth; the depth of a cube is its six faces. -/
  extent : Axes Nat
  further : FurtherLevels

namespace Source

def flat (texels : ByteArray) (width height : Nat) (format : PixelFormat) : Source :=
  { texels, format, target := .texture2D, extent := ⟨width, height, 1⟩, further := .absent }

/-- A two-dimensional source of eight-bit colours whose further levels are generated. -/
def image (texels : ByteArray) (width height : Nat) : Source :=
  { flat texels width height .rgba8Unorm with further := .generated }

/-- The source for another kind of texture, with the given depth. -/
def withTarget (source : Source) (target : Target) (depth : Nat) : Source :=
  { source with target, extent := { source.extent with r := depth } }

/-- The source with other levels after the first. -/
def withFurther (source : Source) (further : FurtherLevels) : Source :=
  { source with further }

end Source

def maxLevels : Nat := 16

/-- Where a level lies in the storage of a texture. -/
structure LevelLayout where
  /-- Width, height and depth in texels. -/
  extent : Axes Nat
  /-- Where the level begins. -/
  offset : Nat
  /-- Bytes from one row of blocks to the next. -/
  rowStride : Nat
  /-- Bytes from one slice or face to the next. -/
  sliceStride : Nat
deriving DecidableEq, Repr

def LevelLayout.size (layout : LevelLayout) : Nat := layout.sliceStride * layout.extent.r

namespace Source

/-- Whether the extents suit the kind of texture. -/
def hasValidExtent (source : Source) : Bool :=
  match source.target with
  | .texture1D => source.extent.t == 1 && source.extent.r == 1
  | .texture2D | .rect => source.extent.r == 1
  | .texture3D => true
  | .cube => source.extent.s == source.extent.t && source.extent.r == 6

/-- The greatest extent that shrinks from level to level. -/
def greatestExtent (source : Source) : Nat :=
  let flat := max source.extent.s source.extent.t
  if source.target = .texture3D then max flat source.extent.r else flat

/-- The number of levels down to a single texel, as far as a texture can hold them. -/
def fullChain (source : Source) : Nat := min (source.greatestExtent.log2 + 1) maxLevels

/-- The number of levels asked for. -/
def levelCount (source : Source) : Nat :=
  match source.further with
  | .absent => 1
  | .generated => source.fullChain
  | .given levels => levels.length + 1

/-- Width, height and depth at a level. Depth shrinks in volumes only. -/
def extentAt (source : Source) (level : Nat) : Axes Nat where
  s := levelExtent source.extent.s level
  t := levelExtent source.extent.t level
  r := if source.target = .texture3D then levelExtent source.extent.r level else source.extent.r

theorem extentAt_s (source : Source) (level : Nat) :
    (source.extentAt level).s = levelExtent source.extent.s level := rfl

theorem extentAt_t (source : Source) (level : Nat) :
    (source.extentAt level).t = levelExtent source.extent.t level := rfl

/-- A level that begins at the given offset. -/
def layoutAt (source : Source) (level offset : Nat) : LevelLayout :=
  let f := source.format.info
  let extent := source.extentAt level
  let blocksAcross := (extent.s + f.block.width - 1) / f.block.width
  let blocksDown := (extent.t + f.block.height - 1) / f.block.height
  let rowStride := blocksAcross * f.bytesPerBlock
  { extent, offset, rowStride, sliceStride := rowStride * blocksDown }

@[simp]
theorem layoutAt_extent (source : Source) (level offset : Nat) :
    (source.layoutAt level offset).extent = source.extentAt level := rfl

@[simp]
theorem layoutAt_offset (source : Source) (level offset : Nat) :
    (source.layoutAt level offset).offset = offset := rfl

/-- The `count` levels from `level` on, the first of them at `offset`. -/
def layoutsFrom (source : Source) (level offset : Nat) : Nat → List LevelLayout
  | 0 => []
  | count + 1 =>
    let layout := source.layoutAt level offset
    layout :: source.layoutsFrom (level + 1) (offset + layout.size) count

def baseLayout (source : Source) : LevelLayout := source.layoutAt 0 0

def furtherLayouts (source : Source) : List LevelLayout :=
  source.layoutsFrom 1 source.baseLayout.size (source.levelCount - 1)

def totalSize (source : Source) : Nat :=
  ((source.baseLayout :: source.furtherLayouts).map LevelLayout.size).foldr (· + ·) 0

end Source

end QuadSampler
