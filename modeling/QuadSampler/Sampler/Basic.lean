import QuadSampler.Filtering.FixedPoint
import QuadSampler.Filtering.Numbers

/-!
# Requests and samplers

A `Request` asks a texture unit for the colours of one quad. It carries up to four coordinates per
lane, of which the first three address the texture and the third is also the reference of a
comparison, and says how the level of detail is found.

A `Sampler` is a static state together with the path that serves it, chosen once by
`Sampler.specialize`. `Sampler.sample` answers a request from a surface: it finds the place of each
lane, the level of detail and the levels to read, lets the path filter them, and applies the
swizzle of the view and the comparison.
-/

namespace QuadSampler

/-! ## Requests -/

/-- How the level of detail of a request is found. -/
inductive LodSource where
  /-- From the differences of the coordinates between the lanes. -/
  | quad
  /-- Given for each lane. -/
  | explicit (lod : Quad Single)
  /-- From the given derivatives of the coordinates in both screen directions. -/
  | gradients (across down : Axes (Quad Single))
deriving DecidableEq

def maxCoords : Nat := 4

/-- A request for the colours of one quad. -/
structure Request where
  unit : Nat
  coords : List (Quad Single)
  lod : LodSource
  bias : Option (Quad Single)
  coords_length_le : coords.length ≤ maxCoords
deriving DecidableEq

namespace Request

/-- The request with the given coordinates, of which those beyond the fourth are dropped. -/
def ofCoords (unit : Nat) (coords : List (Quad Single)) (lod : LodSource := .quad)
    (bias : Option (Quad Single) := none) : Request :=
  { unit, coords := coords.take maxCoords, lod, bias
    coords_length_le := List.length_take_le maxCoords coords }

/-- The coordinate with the given number; coordinates that the request does not carry are zero. -/
def coord (request : Request) (i : Nat) : Quad Single := request.coords.getD i (.splat 0)

/-- The coordinates that address the texture, for one lane. -/
def direction (request : Request) (lane : Fin 4) : Axes Single where
  s := (request.coord 0).get lane
  t := (request.coord 1).get lane
  r := (request.coord 2).get lane

end Request

/-! ## Samplers -/

/-- What samplers are specialized for. -/
inductive Mode where
  | normal
  /-- Samplers answer opaque white and read no storage. -/
  | nop
deriving DecidableEq, Repr

def Mode.name : Mode → String
  | normal => "Normal"
  | nop => "Nop"

/-- How a sampler finds its colours. -/
inductive Path where
  /-- By fixed-point coordinates and blending in bytes. -/
  | fixedPoint (wraps : Axes SimpleWrap)
  /-- By blending in numbers. -/
  | numbers
  /-- Not at all; the answer is opaque white. -/
  | white
deriving DecidableEq, Repr

def Path.name : Path → String
  | fixedPoint _ => "FixedPoint"
  | numbers => "Float"
  | white => "Nop"

/-- A static state and the path that serves it. -/
structure Sampler where
  state : StaticState
  path : Path
deriving DecidableEq

namespace Sampler

/-- The sampler for a state. Fixed point serves whatever states it can. -/
def specialize (state : StaticState) : Mode → Sampler
  | .nop => ⟨state, .white⟩
  | .normal =>
    match SimpleWrap.ofState? state with
    | some wraps => ⟨state, .fixedPoint wraps⟩
    | none => ⟨state, .numbers⟩

end Sampler

namespace Request

def places (request : Request) (state : StaticState) : Quad Place :=
  Quad.ofFn fun i ↦
    if state.target = .cube then
      let point := CubePoint.ofDirection (request.direction i)
      { coords := ⟨point.s, point.t, 0⟩, face := point.face }
    else { coords := request.direction i, face := 0 }

/-- The derivatives that the differences between lanes stand for, the same for all lanes. -/
def quadGradient (places : Quad Place) : Gradient :=
  let coords := places.map (·.coords)
  { across := coords.across, down := coords.down }

/-- The derivatives of the lanes. Places on the faces of a cube have derivatives of their own, so
those given for its directions are left aside. -/
def gradients (request : Request) (state : StaticState) (places : Quad Place) : Quad Gradient :=
  match request.lod with
  | .explicit _ => .splat ⟨.splat 0, .splat 0⟩
  | .gradients across down =>
    if state.target = .cube then .splat (quadGradient places)
    else Quad.ofFn fun i ↦ ⟨across.map (·.get i), down.map (·.get i)⟩
  | .quad => .splat (quadGradient places)

def explicitLod (request : Request) : Option (Quad Single) :=
  match request.lod with
  | .explicit lod => some lod
  | _ => none

def lods (request : Request) (state : StaticState) (surface : Surface) (places : Quad Place) :
    Option (Quad Single) :=
  if state.needsLod then
    let gradients := request.gradients state places
    some (Quad.ofFn fun i ↦
      Lod.select Single.log2 state surface (gradients.get i) (request.bias.map (·.get i))
        (request.explicitLod.map (·.get i)))
  else none

end Request

namespace Levels

/-- The levels that the lanes read at their levels of detail. -/
def ofLods (state : StaticState) (surface : Surface) (lods : Option (Quad Single)) : Levels :=
  let view := LevelView.ofSurface state surface
  let lods := lods.getD (.splat 0)
  match state.mipFilter with
  | .base => { base := .splat (view 0), next := none }
  | .nearest =>
    { base := lods.map fun lod ↦ view (Lod.nearestLevel lod surface.lastLevel), next := none }
  | .linear =>
    let blends := lods.map fun lod ↦ Lod.blend lod surface.lastLevel
    { base := blends.map fun b ↦ view b.first
      next := some (blends.map fun b ↦ { view := view b.second, weight := b.weight }) }

end Levels

namespace Sampler

/-- The colour of a lane after filtering: swizzled as the view asks, then compared. -/
def finish (state : StaticState) (reference : Single) (color : Color Single) : Color Single :=
  state.compare reference (state.swizzle.apply 0 1 color)

/-- The colours that a request asks a surface for. -/
def sample (sampler : Sampler) (surface : Surface) (request : Request) :
    Except Fault (Quad (Color Single)) := do
  let state := sampler.state
  let places := request.places state
  let lods := request.lods state surface places
  let levels := Levels.ofLods state surface lods
  match sampler.path with
  | .fixedPoint wraps =>
    let colors ← levels.filterBytes wraps state places lods
    return Quad.zipWith (finish state) (request.coord 2) (colors.map Color.toUnit)
  | .numbers =>
    let colors ← levels.filterNumbers state surface.border places lods
    return Quad.zipWith (finish state) (request.coord 2) colors
  | .white => return .splat (.splat 1)

end Sampler

end QuadSampler
