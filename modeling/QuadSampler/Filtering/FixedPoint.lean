import QuadSampler.Filtering.Levels

/-!
# Filtering in fixed point

The path for states whose texels fit bytes and whose addressed axes repeat or clamp to their edge.
Coordinates become integers with eight fractional bits, texels are found by byte offsets that are
summed over the axes, and colours are blended in bytes. Index and offset arithmetic is that of
32-bit words.
-/

namespace QuadSampler

/-- The wrap modes of this path. -/
inductive SimpleWrap where
  | repeating
  | clampToEdge
deriving DecidableEq, Repr

namespace SimpleWrap

/-- The wrap mode, if this path has it. -/
def ofMode? : WrapMode → Option SimpleWrap
  | .repeating => some repeating
  | .clampToEdge => some clampToEdge
  | _ => none

/-- The wraps of the addressed axes of a state, if this path serves the state. Other axes are not
looked at. -/
def ofState? (state : StaticState) : Option (Axes SimpleWrap) :=
  let along (axis : Nat) (mode : WrapMode) : Option SimpleWrap :=
    if axis < state.dims then ofMode? mode else some clampToEdge
  if state.format.info.fitsBytes then do
    let s ← along 0 state.wrap.s
    let t ← along 1 state.wrap.t
    let r ← along 2 state.wrap.r
    return ⟨s, t, r⟩
  else none

end SimpleWrap

namespace FixedPoint

/-! ## Coordinates -/

/-- The coordinate in 256ths of a texel. For a linear filter it is moved back by half a texel, so
that its whole part is the first of the two texels to blend. -/
def ofCoord (c : Single) (length : Int32) (normalized halfTexel : Bool) : Int32 :=
  let texels := if normalized then c * Single.ofInt32 length else c
  let fixed := texels * 256
  (if halfTexel then fixed - 128 else fixed).floorInt32

def whole (c : Int32) : Int32 := c >>> 8

/-- The 256ths beyond the whole texels. -/
def fraction (c : Int32) : Int32 := c &&& 255

/-- An axis of one level, as byte offsets are formed along it. -/
structure OffsetAxis where
  wrap : SimpleWrap
  length : Int32
  /-- Bytes from one texel to the next. -/
  stride : Int32
  powerOfTwo : Bool
deriving DecidableEq, Repr

namespace OffsetAxis

/-- The offset of the texel with the given index. -/
def nearest (axis : OffsetAxis) (i : Int32) : Except Fault Int32 := do
  let i ← match axis.wrap with
    | .repeating => repeatIndex i axis.length axis.powerOfTwo
    | .clampToEdge => pure (clampIndex i 0 (axis.length - 1))
  return i * axis.stride

/-- The offsets of the texel with the given index and of the one after it. On a repeated axis the
one after the last is the first, at offset zero; at an edge both are the texel at the edge. -/
def linear (axis : OffsetAxis) (i : Int32) : Except Fault (Int32 × Int32) :=
  let last := axis.length - 1
  match axis.wrap with
  | .repeating => do
    let i ← repeatIndex i axis.length axis.powerOfTwo
    let first := i * axis.stride
    return (first, if i = last then 0 else first + axis.stride)
  | .clampToEdge =>
    let inside := 0 ≤ i ∧ i < last
    let j := if 0 ≤ i then i else 0
    let j := if i < last then j else last
    let first := j * axis.stride
    .ok (first, first + (if inside then axis.stride else 0))

end OffsetAxis

/-! ## Blending -/

/-- The byte `w` 256ths of the way from `a` to `b`, to the nearest. -/
def mixByte (w : Int32) (a b : UInt8) : UInt8 :=
  let a := a.toUInt32.toInt32
  let b := b.toUInt32.toInt32
  (a + (((b - a) * w + 128) >>> 8)).toUInt32.toUInt8

def mix (w : Int32) (a b : Color UInt8) : Color UInt8 := a.zipWith (mixByte w) b

/-- The blend of the colours of two levels, the share of the second taken in 256ths. -/
def mixLevels (w : Single) (a b : Color UInt8) : Color UInt8 := mix (w * 256).floorInt32 a b

/-! ## One level -/

/-- The axes of a level as byte offsets are formed along them. -/
def offsetAxes (wraps : Axes SimpleWrap) (state : StaticState) (view : LevelView) :
    Axes OffsetAxis where
  s := ⟨wraps.s, view.extent.s, Int32.ofNat state.format.info.bytesPerBlock, state.powerOfTwo.s⟩
  t := ⟨wraps.t, view.extent.t, view.rowStride, state.powerOfTwo.t⟩
  r := ⟨wraps.r, view.extent.r, view.sliceStride, state.powerOfTwo.r⟩

/-- The offset of the slice that a place lies in, where no coordinate chooses it. -/
def sliceOffset (state : StaticState) (view : LevelView) (place : Place) : Int32 :=
  if state.target = .cube then place.face * view.sliceStride else 0

/-- The byte offset of the texel at a place. -/
def nearestOffset (wraps : Axes SimpleWrap) (state : StaticState) (view : LevelView)
    (place : Place) : Except Fault Int32 := do
  let axes := offsetAxes wraps state view
  let along (axis : OffsetAxis) (c : Single) : Except Fault Int32 :=
    axis.nearest (whole (ofCoord c axis.length state.normalized false))
  let x ← along axes.s place.coords.s
  let y ← if 2 ≤ state.dims then along axes.t place.coords.t else pure 0
  let z ← if 3 ≤ state.dims then along axes.r place.coords.r
    else pure (sliceOffset state view place)
  return x + y + z

def nearestBytes (wraps : Axes SimpleWrap) (state : StaticState) (view : LevelView)
    (place : Place) : Except Fault (Color UInt8) := do
  view.fetchBytes state (← nearestOffset wraps state view place)

/-- The offsets of the two texels around a coordinate, and the weight of the second in 256ths. -/
def OffsetAxis.straddle (axis : OffsetAxis) (normalized : Bool) (c : Single) :
    Except Fault (Straddle Int32) := do
  let fixed := ofCoord c axis.length normalized true
  let (first, second) ← axis.linear (whole fixed)
  return { first, second, weight := fraction fixed }

/-- The blend of the texels around a place: along the rows, then along the columns, then through the
slices, as far as the axes are addressed. -/
def linearBytes (wraps : Axes SimpleWrap) (state : StaticState) (view : LevelView)
    (place : Place) : Except Fault (Color UInt8) := do
  let axes := offsetAxes wraps state view
  let fetch := view.fetchBytes state
  let along ← axes.s.straddle state.normalized place.coords.s
  if state.dims = 1 then along.blend mix fun x ↦ fetch x
  else
    let down ← axes.t.straddle state.normalized place.coords.t
    let square (z : Int32) : Except Fault (Color UInt8) :=
      down.blend mix fun y ↦ along.blend mix fun x ↦ fetch (x + y + z)
    if state.dims = 2 then square (sliceOffset state view place)
    else
      let through ← axes.r.straddle state.normalized place.coords.r
      through.blend mix square

def imageBytes (wraps : Axes SimpleWrap) (state : StaticState) (filter : ImageFilter)
    (view : LevelView) (place : Place) : Except Fault (Color UInt8) :=
  match filter with
  | .nearest => nearestBytes wraps state view place
  | .linear => linearBytes wraps state view place

end FixedPoint

namespace Levels

def filterBytes (wraps : Axes SimpleWrap) (state : StaticState) (levels : Levels)
    (places : Quad Place) (lod : Option (Quad Single)) : Except Fault (Quad (Color UInt8)) :=
  filterByLod state lod fun filter ↦
    levels.filter (FixedPoint.imageBytes wraps state filter) FixedPoint.mixLevels places

end Levels

end QuadSampler
