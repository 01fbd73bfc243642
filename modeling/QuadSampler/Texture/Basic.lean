import QuadSampler.Texture.Layout

/-!
# Textures

A `Texture` holds all levels in one storage. `Texture.build` makes one from a source that passes
the checks on its extents, its number of levels and the size of every level, in that order. The
storage is made before sizes are checked, so the build aborts where it would be too large. Levels
that the source asks for without giving them are averaged, each from the one before it
(`LevelLayout.reduceChain`).
-/

namespace QuadSampler

/-! ## Averaged levels

A generated level is averaged from the one before it, byte by byte: each texel from a square of two
by two texels, in volumes from a cube of two by two by two. Where the extent of the parent is odd
its last row, column or slice is taken twice. Sums are words of 32 bits; a mean is rounded to the
nearest byte, a half going up.
-/

namespace LevelLayout

/-- The two parent indices that index `i` covers, held inside the parent. -/
def covered (i length : Nat) : List Nat := [min (2 * i) (length - 1), min (2 * i + 1) (length - 1)]

/-- The offsets in the parent of the bytes that byte `c` of texel `p` is averaged from. -/
def coveredOffsets (parent : LevelLayout) (bytesPerTexel : Nat) (reduceSlices : Bool) (p : Axes Nat)
    (c : Nat) : List Nat :=
  let slices := if reduceSlices then covered p.r parent.extent.r else [p.r]
  slices.flatMap fun z ↦ (covered p.t parent.extent.t).flatMap fun y ↦
    (covered p.s parent.extent.s).map fun x ↦
      z * parent.sliceStride + y * parent.rowStride + x * bytesPerTexel + c

/-- The mean of some bytes, rounded to the nearest. -/
def meanByte (samples : List UInt8) : UInt8 :=
  let sum := (samples.map UInt8.toUInt32).foldr (· + ·) 0
  let count := UInt32.ofNat samples.length
  ((sum + count / 2) / count).toUInt8

/-- Byte `n` of a level, averaged from the bytes of its parent. -/
def reducedByte (parent child : LevelLayout) (bytesPerTexel : Nat) (reduceSlices : Bool)
    (bytes : ByteArray) (n : Nat) : Except Fault UInt8 := do
  let inSlice := n % child.sliceStride
  let inRow := inSlice % child.rowStride
  let p : Axes Nat :=
    ⟨inRow / bytesPerTexel, inSlice / child.rowStride, n / child.sliceStride⟩
  let offsets := parent.coveredOffsets bytesPerTexel reduceSlices p (inRow % bytesPerTexel)
  let samples ← offsets.mapM (Storage.byteAt bytes)
  return meanByte samples

/-- The bytes of a level, averaged from those of its parent. -/
def reduce (parent child : LevelLayout) (bytesPerTexel : Nat) (reduceSlices : Bool)
    (bytes : ByteArray) : Except Fault ByteArray := do
  let reduced ← (List.range child.size).mapM
    (reducedByte parent child bytesPerTexel reduceSlices bytes)
  return reduced.toByteArray

/-- The bytes of the levels below `parent`, each averaged from the one before. -/
def reduceChain (bytesPerTexel : Nat) (reduceSlices : Bool) (parent : LevelLayout)
    (bytes : ByteArray) :
    List LevelLayout → Except Fault (List ByteArray)
  | [] => .ok []
  | child :: rest => do
    let reduced ← parent.reduce child bytesPerTexel reduceSlices bytes
    let below ← reduceChain bytesPerTexel reduceSlices child reduced rest
    return reduced :: below

end LevelLayout

/-- A texture with all its levels. -/
structure Texture where
  bytes : ByteArray
  layouts : List LevelLayout
  format : PixelFormat
  target : Target
  layouts_ne_nil : layouts ≠ []

namespace Texture

/-! ## Reading -/

def levelCount (texture : Texture) : Nat := texture.layouts.length

theorem levelCount_pos (texture : Texture) : 0 < texture.levelCount :=
  List.length_pos_iff.2 texture.layouts_ne_nil

def lastLevel (texture : Texture) : Nat := texture.levelCount - 1

/-- The level with the given number; past the last it is the last. -/
def layout (texture : Texture) (level : Nat) : LevelLayout :=
  texture.layouts.get ⟨min level texture.lastLevel, by
    have := texture.levelCount_pos
    simp only [lastLevel, levelCount] at *
    omega⟩

def levelBytes (texture : Texture) (level : Nat) : ByteArray :=
  let layout := texture.layout level
  texture.bytes.extract layout.offset (layout.offset + layout.size)

/-- The storage of a level as a sampling call reads it. -/
def levelStorage (texture : Texture) (level : Nat) : LevelStorage where
  rowStride := (texture.layout level).rowStride
  sliceStride := (texture.layout level).sliceStride
  bytes := texture.levelBytes level

/-- The whole texture with its channels as they are. -/
def view (texture : Texture) : View where
  format := texture.format
  target := texture.target
  extent := (texture.layout 0).extent
  swizzle := .identity

end Texture

/-! ## Building -/

namespace Source

/-- Refuses extents that are zero or do not suit the kind of texture. -/
def checkExtent (source : Source) : Except BuildFailure Unit :=
  let extent := source.extent
  if extent.s = 0 ∨ extent.t = 0 ∨ extent.r = 0 then .error (.refused (.zeroExtent extent))
  else if source.hasValidExtent then .ok ()
  else .error (.refused (.invalidExtent source.target extent))

/-- Refuses more levels than the texture can have. -/
def checkLevelCount (source : Source) : Except BuildFailure Unit :=
  let count := source.levelCount
  if 1 < count ∧ source.target = .rect then .error (.refused .rectWithLevels)
  else if source.fullChain < count then .error (.refused (.tooManyLevels count source.fullChain))
  else .ok ()

/-- Aborts where all levels together are larger than a storage can be. Sizes are computed without a
bound here. A size past the words of the machine is past `Storage.maxSize` too, so an overflow on
the way to it is read as the abort of checked arithmetic; the wrapped sizes that unchecked
arithmetic would go on with are not modelled. -/
def checkStorage (source : Source) : Except BuildFailure Unit :=
  if source.totalSize ≤ Storage.maxSize then .ok () else .error (.aborted .storageTooLarge)

/-- Refuses bytes that are not exactly a level. -/
def checkSize (level : Nat) (layout : LevelLayout) (bytes : ByteArray) :
    Except BuildFailure Unit :=
  if bytes.size = layout.size then .ok ()
  else .error (.refused (.dataSize level layout.size bytes.size))

/-- Given levels from number `level` on, each refused unless it has its size. -/
def checkedLevels (level : Nat) :
    List LevelLayout → List ByteArray → Except BuildFailure (List ByteArray)
  | layout :: layouts, bytes :: rest => do
    checkSize level layout bytes
    let below ← checkedLevels (level + 1) layouts rest
    return bytes :: below
  | _, _ => .ok []

def furtherLevels (source : Source) : Except BuildFailure (List ByteArray) :=
  match source.further with
  | .absent => .ok []
  | .given levels => checkedLevels 1 source.furtherLayouts levels
  | .generated =>
    let f := source.format.info
    if f.isBytewise then
      (LevelLayout.reduceChain f.bytesPerBlock (source.target = .texture3D) source.baseLayout
        source.texels source.furtherLayouts).mapError .aborted
    else .error (.refused (.generationUnsupported source.format))

end Source

namespace Texture

/-- The texture of a source. Where a size overflows its word the build aborts, as it does under
checked arithmetic (`Source.checkStorage`); it does not go on with the size wrapped around. -/
def build (source : Source) : Except BuildFailure Texture := do
  source.checkExtent
  source.checkLevelCount
  source.checkStorage
  Source.checkSize 0 source.baseLayout source.texels
  let levels ← source.furtherLevels
  return {
    bytes := levels.foldl (· ++ ·) source.texels
    layouts := source.baseLayout :: source.furtherLayouts
    format := source.format
    target := source.target
    layouts_ne_nil := List.cons_ne_nil _ _ }

end Texture

end QuadSampler
