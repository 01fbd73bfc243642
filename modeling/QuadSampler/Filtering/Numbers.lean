import QuadSampler.Filtering.Levels

/-!
# Filtering in numbers

The path that serves every state: texels are decoded to numbers and blended as such. A linear
filter blends two texels along each addressed axis, first along the rows, then along the columns,
then through the slices.
-/

namespace QuadSampler

/-- The number a share `w` of the way from `a` to `b`. -/
def lerp (w a b : Single) : Single := a + w * (b - a)

def lerpColor (w : Single) (a b : Color Single) : Color Single := a.zipWith (lerp w) b

section lerpColor

variable (w : Single) (a b : Color Single)

@[simp]
theorem red_lerpColor : (lerpColor w a b).red = lerp w a.red b.red := rfl

@[simp]
theorem green_lerpColor : (lerpColor w a b).green = lerp w a.green b.green := rfl

@[simp]
theorem blue_lerpColor : (lerpColor w a b).blue = lerp w a.blue b.blue := rfl

@[simp]
theorem alpha_lerpColor : (lerpColor w a b).alpha = lerp w a.alpha b.alpha := rfl

end lerpColor

/-- The blend of four colours, along the rows by `wx` and across them by `wy`. -/
def lerpSquare (wx wy : Single) (c₀₀ c₁₀ c₀₁ c₁₁ : Color Single) : Color Single :=
  lerpColor wy (lerpColor wx c₀₀ c₁₀) (lerpColor wx c₀₁ c₁₁)

/-- Nested blends along rows and columns are blends of the four corners. -/
theorem blend_blend_ok (along down : Straddle Single) (color : Int32 → Int32 → Color Single) :
    (down.blend lerpColor fun y ↦ along.blend lerpColor fun x ↦ .ok (color x y)) =
      .ok (lerpSquare along.weight down.weight
        (color along.first down.first) (color along.second down.first)
        (color along.first down.second) (color along.second down.second)) := rfl

namespace LevelView

/-- The axes of a level as coordinates are wrapped along them. -/
def wrapAxes (state : StaticState) (view : LevelView) : Axes WrapAxis :=
  view.extent.zipWith (fun length powerOfTwo ↦ ⟨length, powerOfTwo, state.normalized⟩)
    state.powerOfTwo

/-- The slice that a place lies in, where no coordinate chooses it. -/
def sliceOf (state : StaticState) (place : Place) : Int32 :=
  if state.target = .cube then place.face else 0

def nearestNumbers (state : StaticState) (view : LevelView) (border : Color Single)
    (place : Place) : Except Fault (Color Single) := do
  let axes := view.wrapAxes state
  let x ← state.wrap.s.nearest axes.s place.coords.s
  let y ← if 2 ≤ state.dims then state.wrap.t.nearest axes.t place.coords.t else pure 0
  let z ← if 3 ≤ state.dims then state.wrap.r.nearest axes.r place.coords.r
    else pure (sliceOf state place)
  view.fetchNumbers state border ⟨x, y, z⟩

/-- The blend of the texels around a place: along the rows, then along the columns, then through the
slices, as far as the axes are addressed. -/
def linearNumbers (state : StaticState) (view : LevelView) (border : Color Single)
    (place : Place) : Except Fault (Color Single) := do
  let axes := view.wrapAxes state
  let fetch := view.fetchNumbers state border
  let along ← state.wrap.s.linear axes.s place.coords.s
  if state.dims = 1 then along.blend lerpColor fun x ↦ fetch ⟨x, 0, 0⟩
  else
    let down ← state.wrap.t.linear axes.t place.coords.t
    let square (z : Int32) : Except Fault (Color Single) :=
      down.blend lerpColor fun y ↦ along.blend lerpColor fun x ↦ fetch ⟨x, y, z⟩
    if state.dims = 2 then square (sliceOf state place)
    else
      let through ← state.wrap.r.linear axes.r place.coords.r
      through.blend lerpColor square

def imageNumbers (state : StaticState) (border : Color Single) (filter : ImageFilter)
    (view : LevelView) (place : Place) : Except Fault (Color Single) :=
  match filter with
  | .nearest => view.nearestNumbers state border place
  | .linear => view.linearNumbers state border place

end LevelView

namespace Levels

/-- The colours of a quad across its levels under one image filter. -/
def filterNumbersBy (state : StaticState) (border : Color Single) (levels : Levels)
    (places : Quad Place) (filter : ImageFilter) : Except Fault (Quad (Color Single)) :=
  levels.filter (LevelView.imageNumbers state border filter) lerpColor places

def filterNumbers (state : StaticState) (border : Color Single) (levels : Levels)
    (places : Quad Place) (lod : Option (Quad Single)) : Except Fault (Quad (Color Single)) :=
  filterByLod state lod (levels.filterNumbersBy state border places)

end Levels

end QuadSampler
