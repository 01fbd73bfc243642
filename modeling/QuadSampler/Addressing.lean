import QuadSampler.Surface

/-!
# Wrapping coordinates and cube faces

A coordinate of a lane becomes the index of one texel along an axis (`WrapMode.nearest`), or of two
neighbours and the weight of the second (`WrapMode.linear`). Every wrap mode first brings the
coordinate to texels, folding it by its sign or by mirroring where the mode says so, then takes the
floor and moves the index into the range of the mode. Index arithmetic is that of 32-bit words and
wraps around, so a coordinate far outside gives some index and never more than that.

On a cube the coordinates are a direction, which first becomes a place on one of the faces
(`CubePoint.ofDirection`).
-/

namespace QuadSampler

/-! ## Axes of a level -/

/-- The index moved into the range from `lo` to `hi`; where the bounds cross, `hi` wins. -/
def clampIndex (i lo hi : Int32) : Int32 := min (max i lo) hi

/-- An axis of one level, as coordinates are wrapped along it. -/
structure WrapAxis where
  /-- Number of texels. -/
  length : Int32
  /-- Whether repetition may take the low bits of an index. -/
  powerOfTwo : Bool
  /-- Whether coordinates run from zero to one across the axis; else they count texels. -/
  normalized : Bool
deriving DecidableEq, Repr

namespace WrapAxis

def extent (axis : WrapAxis) : Single := Single.ofInt32 axis.length

def last (axis : WrapAxis) : Int32 := axis.length - 1

/-- The coordinate counted in texels. -/
def toTexels (axis : WrapAxis) (c : Single) : Single :=
  if axis.normalized then c * axis.extent else c

/-- The coordinate as a fraction of the axis. -/
def toFraction (axis : WrapAxis) (c : Single) : Single :=
  if axis.normalized then c else c / axis.extent

def clampInside (axis : WrapAxis) (i : Int32) : Int32 := clampIndex i 0 axis.last

end WrapAxis

/-! ## Repetition and mirroring -/

/-- How many lengths are added before the remainder is taken, so that indices that many lengths
below zero still repeat. -/
def repeatBias : Int32 := 1024

/-- The index on a repeated axis: the low bits of the index if the length is a power of two, else
the remainder of the biased index by the length, both read without sign. -/
def repeatIndex (index length : Int32) (powerOfTwo : Bool) : Except Fault Int32 :=
  if powerOfTwo then .ok (index &&& (length - 1))
  else if length = 0 then .error .zeroLength
  else .ok ((index + length * repeatBias).toUInt32 % length.toUInt32).toInt32

/-- The index repeated along an axis. -/
def WrapAxis.repeatInside (axis : WrapAxis) (i : Int32) : Except Fault Int32 :=
  repeatIndex i axis.length axis.powerOfTwo

/-- The fraction folded back and forth: from zero to one it stays, from one to two it runs back,
and so on. -/
def mirror (c : Single) : Single :=
  let odd := c.floorInt32 &&& 1
  (if odd = 0 then c.fract else -c.fract) + Single.ofInt32 odd

/-- The coordinate in texels, folded back and forth along the axis. -/
def WrapAxis.mirrorTexels (axis : WrapAxis) (c : Single) : Single :=
  mirror (axis.toFraction c) * axis.extent

/-- The coordinate in texels, folded at zero. -/
def WrapAxis.foldTexels (axis : WrapAxis) (c : Single) : Single := axis.toTexels c.abs

/-! ## One texel -/

/-- The texel that a coordinate falls on. Modes that use the border keep the two indices beside
the texture. -/
def WrapMode.nearest (mode : WrapMode) (axis : WrapAxis) (c : Single) : Except Fault Int32 :=
  match mode with
  | .repeating => axis.repeatInside (axis.toTexels c).floorInt32
  | .clamp | .clampToEdge => .ok (axis.clampInside (axis.toTexels c).floorInt32)
  | .clampToBorder => .ok (clampIndex (axis.toTexels c).floorInt32 (-1) axis.length)
  | .mirrorRepeat => .ok (axis.clampInside (axis.mirrorTexels c).floorInt32)
  | .mirrorClamp | .mirrorClampToEdge => .ok (axis.clampInside (axis.foldTexels c).floorInt32)
  | .mirrorClampToBorder => .ok (clampIndex (axis.foldTexels c).floorInt32 0 axis.length)

/-! ## Two texels -/

/-- Two neighbouring texels on either side of a coordinate, with a weight of type `W`. -/
structure Straddle (W : Type) where
  first : Int32
  second : Int32
  /-- The share of the second texel. -/
  weight : W
deriving DecidableEq

namespace Straddle

/-- The texels around a place counted from the middle of texel zero. -/
def around (c : Single) : Straddle Single where
  first := c.floorInt32
  second := c.floorInt32 + 1
  weight := c.fract

/-- The texels around a place counted from the edge of texel zero. -/
def atTexels (c : Single) : Straddle Single := around (c - Single.half)

theorem first_atTexels (c : Single) : (atTexels c).first = (c - Single.half).floorInt32 := rfl

theorem second_atTexels (c : Single) : (atTexels c).second = (atTexels c).first + 1 := rfl

theorem weight_atTexels (c : Single) : (atTexels c).weight = (c - Single.half).fract := rfl

def clampInside (axis : WrapAxis) (w : Straddle Single) : Straddle Single :=
  { w with first := axis.clampInside w.first, second := axis.clampInside w.second }

end Straddle

/-- The two texels around a coordinate and the weight of the second. Modes that use the border
leave indices beside the texture as they are. -/
def WrapMode.linear (mode : WrapMode) (axis : WrapAxis) (c : Single) :
    Except Fault (Straddle Single) :=
  match mode with
  | .repeating => do
    let w := Straddle.atTexels (axis.toTexels c)
    let first ← axis.repeatInside w.first
    let second ← axis.repeatInside w.second
    return { w with first, second }
  | .clamp => .ok (Straddle.atTexels ((axis.toTexels c).clamp 0 axis.extent))
  | .clampToEdge =>
    .ok ((Straddle.atTexels ((axis.toTexels c).clamp 0 axis.extent)).clampInside axis)
  | .clampToBorder =>
    .ok (Straddle.atTexels
      ((axis.toTexels c).clamp (-Single.half) (axis.extent + Single.half)))
  | .mirrorRepeat => .ok ((Straddle.atTexels (axis.mirrorTexels c)).clampInside axis)
  | .mirrorClamp => .ok (Straddle.atTexels ((axis.foldTexels c).minimum axis.extent))
  | .mirrorClampToEdge =>
    -- At the far edge the first texel is the last of the axis and the second would lie beside it.
    let w := Straddle.atTexels
      ((axis.foldTexels c).clamp Single.half (axis.extent - Single.half))
    .ok { w with second := min w.second axis.last }
  | .mirrorClampToBorder =>
    .ok (Straddle.atTexels
      ((axis.foldTexels c).clamp (-Single.half) (axis.extent + Single.half)))

/-! ## Cube faces

A direction meets one face of the cube around the origin. The axis of its greatest component names
the face, and the other two components, divided by that one, are the coordinates on it.
-/

/-- A place on a face of a cube; both coordinates run from zero to one. -/
structure CubePoint where
  s : Single
  t : Single
  /-- The slice of the face: +X, -X, +Y, -Y, +Z, -Z from zero on. -/
  face : Int32
deriving DecidableEq

namespace CubePoint

/-- The face a direction meets, before the division: the face, its two coordinates from minus to
plus the greatest component, and the greatest component. Ties go to x over y over z. -/
def major (d : Axes Single) : Int32 × Single × Single × Single :=
  let ax := d.s.abs
  let ay := d.t.abs
  let az := d.r.abs
  if ay.le ax && az.le ax then
    if Single.le 0 d.s then (0, -d.r, -d.t, ax) else (1, d.r, -d.t, ax)
  else if az.le ay then
    if Single.le 0 d.t then (2, d.s, d.r, ay) else (3, d.s, -d.r, ay)
  else if Single.le 0 d.r then (4, d.s, -d.t, az)
  else (5, -d.s, -d.t, az)

/-- The place a direction points at. The zero direction points at the middle of its face. -/
def ofDirection (d : Axes Single) : CubePoint :=
  let (face, sc, tc, greatest) := major d
  let greatest := if greatest.same 0 then 1 else greatest
  { s := (sc / greatest + 1) * Single.half, t := (tc / greatest + 1) * Single.half, face }

@[simp]
theorem face_ofDirection (d : Axes Single) : (ofDirection d).face = (major d).1 := rfl

end CubePoint

end QuadSampler
