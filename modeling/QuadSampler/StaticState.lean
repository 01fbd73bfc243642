import QuadSampler.PixelFormat.Basic
import QuadSampler.Quad

/-!
# Modes and the static state of a sampler

The modes are the choices that describe how a texture is addressed, wrapped, filtered and compared.
Each has the name under which it stands in descriptions and log lines.

A texture is seen through a `View` and sampled under `Settings`. `StaticState.derive` reduces the
two to the part that a sampler is specialized for; everything else is read anew at every call.
Static states are compared as keys, so equal states stand for one sampler.
-/

namespace QuadSampler

/-! ## Modes -/

/-- The kinds of texture. -/
inductive Target where
  | texture1D
  | texture2D
  | texture3D
  /-- Six square faces in consecutive slices: +X, -X, +Y, -Y, +Z, -Z. -/
  | cube
  /-- A two-dimensional texture addressed in texels. -/
  | rect
deriving DecidableEq, Repr

namespace Target

/-- The number of axes that coordinates address. A face of a cube is addressed in two. -/
def dims : Target → Nat
  | texture1D => 1
  | texture2D | cube | rect => 2
  | texture3D => 3

def name : Target → String
  | texture1D => "Texture1D"
  | texture2D => "Texture2D"
  | texture3D => "Texture3D"
  | cube => "Cube"
  | rect => "Rect"

end Target

/-- What happens to coordinates outside a texture. -/
inductive WrapMode where
  | repeating
  | clamp
  | clampToEdge
  | clampToBorder
  | mirrorRepeat
  | mirrorClamp
  | mirrorClampToEdge
  | mirrorClampToBorder
deriving DecidableEq, Repr

namespace WrapMode

/-- Whether texels beside the texture can be addressed; they have the border colour. -/
def usesBorder : WrapMode → Bool
  | repeating | clampToEdge | mirrorRepeat | mirrorClampToEdge => false
  | clamp | clampToBorder | mirrorClamp | mirrorClampToBorder => true

def name : WrapMode → String
  | repeating => "Repeat"
  | clamp => "Clamp"
  | clampToEdge => "ClampToEdge"
  | clampToBorder => "ClampToBorder"
  | mirrorRepeat => "MirrorRepeat"
  | mirrorClamp => "MirrorClamp"
  | mirrorClampToEdge => "MirrorClampToEdge"
  | mirrorClampToBorder => "MirrorClampToBorder"

end WrapMode

/-- How one level is read: the texel under the coordinates, or a blend of those around them. -/
inductive ImageFilter where
  | nearest
  | linear
deriving DecidableEq, Repr

def ImageFilter.name : ImageFilter → String
  | nearest => "Nearest"
  | linear => "Linear"

/-- How a level of the chain is chosen. -/
inductive MipFilter where
  /-- Always the first level. -/
  | base
  /-- The level nearest to the level of detail. -/
  | nearest
  /-- A blend of the two levels around the level of detail. -/
  | linear
deriving DecidableEq, Repr

def MipFilter.name : MipFilter → String
  | base => "None"
  | nearest => "Nearest"
  | linear => "Linear"

/-- Whether colours are replaced by the result of a depth comparison. -/
inductive CompareMode where
  | off
  /-- A reference coordinate is compared with the red channel. -/
  | refToTexture
deriving DecidableEq, Repr

def CompareMode.name : CompareMode → String
  | off => "None"
  | refToTexture => "RefToTexture"

/-- The relation that a comparison asks for, the reference standing on its left. -/
inductive CompareFunc where
  | never
  | less
  | equal
  | lessOrEqual
  | greater
  | notEqual
  | greaterOrEqual
  | always
deriving DecidableEq, Repr

def CompareFunc.name : CompareFunc → String
  | never => "Never"
  | less => "Less"
  | equal => "Equal"
  | lessOrEqual => "LEqual"
  | greater => "Greater"
  | notEqual => "NotEqual"
  | greaterOrEqual => "GEqual"
  | always => "Always"

/-! ## Views, settings and static states -/

/-- Whether `n` is a power of two. Zero is none. -/
def isPowerOfTwo (n : Nat) : Bool := n != 0 && 2 ^ n.log2 == n

/-- A texture as far as its sampler is concerned. -/
structure View where
  format : PixelFormat
  target : Target
  /-- Width, height and depth of the first level. -/
  extent : Axes Nat
  swizzle : Swizzle
deriving DecidableEq

/-- What a caller asks of a sampler. -/
structure Settings where
  wrap : Axes WrapMode
  minFilter : ImageFilter
  magFilter : ImageFilter
  mipFilter : MipFilter
  compareMode : CompareMode
  compareFunc : CompareFunc
  /-- Whether coordinates run from zero to one across the texture; else they count texels. -/
  normalized : Bool
  minLod : Single
  maxLod : Single
  lodBias : Single
  border : Color Single
deriving DecidableEq

/-- The state that a sampler is specialized for. -/
structure StaticState where
  format : PixelFormat
  swizzle : Swizzle
  target : Target
  /-- Whether the extent of the first level is a power of two, for each axis. -/
  powerOfTwo : Axes Bool
  wrap : Axes WrapMode
  minFilter : ImageFilter
  magFilter : ImageFilter
  mipFilter : MipFilter
  compareMode : CompareMode
  compareFunc : CompareFunc
  normalized : Bool
  /-- Whether the level of detail has only one value to take. -/
  lodFixed : Bool
deriving DecidableEq

namespace StaticState

/-- The static part of a view and settings. Rectangle textures are addressed in texels whatever the
settings say. -/
def derive (view : View) (settings : Settings) : StaticState where
  format := view.format
  swizzle := view.swizzle
  target := view.target
  powerOfTwo := view.extent.map isPowerOfTwo
  wrap := settings.wrap
  minFilter := settings.minFilter
  magFilter := settings.magFilter
  mipFilter := settings.mipFilter
  compareMode := settings.compareMode
  compareFunc := settings.compareFunc
  normalized := settings.normalized && view.target != .rect
  lodFixed := settings.minLod.same settings.maxLod

/-- The number of axes that coordinates address. -/
def dims (state : StaticState) : Nat := state.target.dims

/-- The wrap modes of the addressed axes. -/
def activeWraps (state : StaticState) : List WrapMode := state.wrap.active state.dims

/-- Whether the level of detail has an influence at all. -/
def needsLod (state : StaticState) : Bool :=
  state.minFilter != state.magFilter || state.mipFilter != .base

end StaticState

/-! ## Depth comparison

A comparison puts a reference against the red channel of a colour. Its result stands in for the
colour: one where it holds and zero where it does not, in all channels but alpha.
-/

/-- Whether the reference is in the relation to the value. Not-a-number is in none but `notEqual`
and `always`. -/
def CompareFunc.holds (f : CompareFunc) (reference value : Single) : Bool :=
  match f with
  | .never => false
  | .less => reference.lt value
  | .equal => reference.same value
  | .lessOrEqual => reference.le value
  | .greater => value.lt reference
  | .notEqual => !reference.same value
  | .greaterOrEqual => value.le reference
  | .always => true

/-- The colour, or the result of its comparison in a state that compares. -/
def StaticState.compare (state : StaticState) (reference : Single) (color : Color Single) :
    Color Single :=
  match state.compareMode with
  | .off => color
  | .refToTexture =>
    let passed : Single := if state.compareFunc.holds reference color.red then 1 else 0
    ⟨passed, passed, passed, 1⟩

end QuadSampler
