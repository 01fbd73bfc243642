import QuadSampler.PixelFormat.Decode
import QuadSampler.Surface

/-!
# Level views

A `LevelView` is one level of a surface, with the extents the level has. A lane fetches one texel
of its level at a time: by indices it gets a colour in numbers, with the border colour beside the
texture, and by a byte offset it gets a colour in bytes.
-/

namespace QuadSampler

/-- One level of a surface as a lane reads it. -/
structure LevelView where
  storage : LevelStorage
  /-- Width, height and depth of the level. -/
  extent : Axes Int32

namespace LevelView

/-- The given level of a surface; a level below zero is the first. Axes that the target does not
address have one texel, and a cube has its six faces for depth. -/
def ofSurface (state : StaticState) (surface : Surface) (level : Int32) : LevelView :=
  let k := level.toNatClampNeg
  let along (axis base : Nat) : Int32 :=
    if axis < state.dims then Int32.ofNat (levelExtent base k) else 1
  { storage := surface.level k
    extent :=
      { s := along 0 surface.extent.s
        t := along 1 surface.extent.t
        r := if state.target = .cube then 6 else along 2 surface.extent.r } }

@[simp]
theorem storage_ofSurface (state : StaticState) (surface : Surface) (level : Int32) :
    (ofSurface state surface level).storage = surface.level level.toNatClampNeg := rfl

/-- The distance between rows as an index word. -/
def rowStride (view : LevelView) : Int32 := Int32.ofNat view.storage.rowStride

/-- The distance between slices as an index word. -/
def sliceStride (view : LevelView) : Int32 := Int32.ofNat view.storage.sliceStride

/-! ## Fetching texels -/

/-- Whether indices lie beside the texture along an addressed axis whose wrap mode uses the
border. -/
def isBeside (state : StaticState) (view : LevelView) (p : Axes Int32) : Bool :=
  let outside (mode : WrapMode) (i length : Int32) : Bool :=
    mode.usesBorder && (i < 0 || length ≤ i)
  let axes : Axes Bool :=
    { s := outside state.wrap.s p.s view.extent.s
      t := outside state.wrap.t p.t view.extent.t
      r := outside state.wrap.r p.r view.extent.r }
  (axes.active state.dims).any id

/-- The offset of the block that holds a texel. Indices below zero count as zero. -/
def blockOffset (view : LevelView) (f : FormatInfo) (p : Axes Int32) : Nat :=
  p.s.toNatClampNeg / f.block.width * f.bytesPerBlock
    + p.t.toNatClampNeg / f.block.height * view.storage.rowStride
    + p.r.toNatClampNeg * view.storage.sliceStride

/-- The colour of a texel in numbers. Beside the texture it is the border colour; a texel is read
all the same, the first one, which is where every level begins. -/
def fetchNumbers (state : StaticState) (view : LevelView) (border : Color Single)
    (p : Axes Int32) : Except Fault (Color Single) := do
  let f := state.format.info
  let beside := view.isBeside state p
  let q := if beside then .splat 0 else p
  let color ← f.decodeNumbers view.storage.bytes (view.blockOffset f q)
    (q.s.toNatClampNeg % f.block.width) (q.t.toNatClampNeg % f.block.height)
  return if beside then border else color

/-- The colour in bytes of the texel at an offset. An offset below zero counts as zero. -/
def fetchBytes (state : StaticState) (view : LevelView) (offset : Int32) :
    Except Fault (Color UInt8) :=
  state.format.info.decodeBytes view.storage.bytes offset.toNatClampNeg 0 0

end LevelView

end QuadSampler
