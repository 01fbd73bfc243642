import QuadSampler.Addressing
import QuadSampler.LevelView
import QuadSampler.Quad

/-!
# Levels

The level of detail says how far a texture is minified: the binary logarithm of the number of
texels between neighbouring pixels. `Lod.select` finds it for a lane, and `Lod.nearestLevel` and
`Lod.blend` choose levels by it. The logarithm is an argument, since its last bit belongs to the
platform.

Then comes what filtering has in common for colours of any kind: the blend of two neighbouring
texels, one level or a blend of two, and the choice between the minifying and the magnifying filter.
How a texel is read and how two colours are blended is left to the caller.
-/

namespace QuadSampler

universe u

/-! ## Level of detail -/

/-- The screen-space derivatives of the coordinates of a lane. -/
structure Gradient where
  across : Axes Single
  down : Axes Single
deriving DecidableEq

namespace Lod

/-- Texels between neighbouring pixels: the greatest over the addressed axes and both screen
directions. -/
def footprint (state : StaticState) (extent : Axes Nat) (g : Gradient) : Single :=
  let along (across down : Single) (length : Nat) : Single :=
    across.abs.maximum down.abs * (if state.normalized then Single.ofNat length else 1)
  let rho := along g.across.s g.down.s extent.s
  let rho :=
    if 2 ≤ state.dims then rho.maximum (along g.across.t g.down.t extent.t) else rho
  if 3 ≤ state.dims then rho.maximum (along g.across.r g.down.r extent.r) else rho

/-- The level of detail of a lane. It is the explicit one, if given, else the logarithm of the
footprint; both biases are added, and the sum is moved between the limits of the surface. A
footprint of zero has logarithm minus infinity and ends at the lower limit. -/
def select (log2 : Single → Single) (state : StaticState) (surface : Surface) (g : Gradient)
    (bias explicit : Option Single) : Single :=
  if state.lodFixed then surface.minLod
  else
    let lod := match explicit with
      | some lod => lod
      | none => log2 (footprint state surface.extent g)
    let lod := match bias with
      | some bias => lod + bias
      | none => lod
    (lod + surface.lodBias).clamp surface.minLod surface.maxLod

/-- The level nearest to a level of detail. -/
def nearestLevel (lod : Single) (last : Nat) : Int32 :=
  clampIndex lod.roundAway.toInt32 0 (Int32.ofNat last)

/-- Two levels and the share of the second. -/
structure Blend where
  first : Int32
  second : Int32
  weight : Single
deriving DecidableEq

/-- The two levels around a level of detail. At the last level the first stays one below it and the
second has the whole weight. -/
def blend (lod : Single) (last : Nat) : Blend :=
  let last := Int32.ofNat last
  let first := clampIndex lod.floorInt32 0 (max (last - 1) 0)
  { first
    second := min (first + 1) last
    weight := (lod - Single.ofInt32 first).clamp 0 1 }

end Lod

/-! ## Filtering a quad -/

/-- A place on a texture that a lane samples. The face matters for cubes only. -/
structure Place where
  coords : Axes Single
  face : Int32
deriving DecidableEq

/-- The blend of the colours at two neighbours. Blends nest: what is read at a neighbour may itself
be a blend along another axis. -/
def Straddle.blend {W : Type} {C : Type u} (mix : W → C → C → C) (read : Int32 → Except Fault C)
    (w : Straddle W) : Except Fault C := do
  let first ← read w.first
  let second ← read w.second
  return mix w.weight first second

/-- A further level to blend in and its share. -/
structure NextLevel where
  view : LevelView
  weight : Single

/-- The levels that the lanes of a quad read: one each, or two each. -/
structure Levels where
  base : Quad LevelView
  next : Option (Quad NextLevel)

namespace Levels

variable {C : Type u}

/-- The colours of a quad across its levels. The further levels are left alone as long as no lane
gives them a share; as soon as one does, they are read and blended in all lanes. -/
def filter (levels : Levels) (image : LevelView → Place → Except Fault C)
    (mix : Single → C → C → C) (places : Quad Place) : Except Fault (Quad C) := do
  let near ← Quad.ofFnM fun i ↦ image (levels.base.get i) (places.get i)
  match levels.next with
  | none => return near
  | some next =>
    if next.any fun n ↦ Single.lt 0 n.weight then
      let far ← Quad.ofFnM fun i ↦ image (next.get i).view (places.get i)
      return Quad.ofFn fun i ↦ mix (next.get i).weight (near.get i) (far.get i)
    else return near

end Levels

/-- The colours of a quad under the filter that suits each lane: the minifying one from level of
detail zero on, the magnifying one below. Where the two are one filter, it runs once; else both run
for all lanes. -/
def filterByLod {C : Type u} (state : StaticState) (lod : Option (Quad Single))
    (run : ImageFilter → Except Fault (Quad C)) : Except Fault (Quad C) :=
  if state.minFilter = state.magFilter then run state.minFilter
  else do
    let minified ← run state.minFilter
    let magnified ← run state.magFilter
    let lod := lod.getD (.splat 0)
    return Quad.ofFn fun i ↦
      if Single.le 0 (lod.get i) then minified.get i else magnified.get i

end QuadSampler
