import QuadSampler.Texture.Basic

/-!
# Texture units

Textures are bound to numbered units, each together with the parts of the settings that are read
at every call. A unit answers sampling calls with the surface of its binding. Where nothing is
bound, and where there is no unit, the surface is a single texel of zeros that serves every format:
its strides are zero, so every face and slice is that texel.
-/

namespace QuadSampler

def maxUnits : Nat := 16

/-- A texture and the settings that are read at every call. -/
structure Binding where
  texture : Texture
  minLod : Single
  maxLod : Single
  lodBias : Single
  border : Color Single

namespace Binding

/-- The texture under the given settings. -/
def ofSettings (texture : Texture) (settings : Settings) : Binding where
  texture := texture
  minLod := settings.minLod
  maxLod := settings.maxLod
  lodBias := settings.lodBias
  border := settings.border

/-- The static state of the bound texture under settings. -/
def staticState (binding : Binding) (settings : Settings) : StaticState :=
  .derive binding.texture.view settings

/-- What sampling calls read of the binding. -/
def surface (binding : Binding) : Surface where
  extent := (binding.texture.layout 0).extent
  lastLevel := binding.texture.lastLevel
  minLod := binding.minLod
  maxLod := binding.maxLod
  lodBias := binding.lodBias
  border := binding.border
  level := binding.texture.levelStorage

@[simp]
theorem surface_extent (binding : Binding) :
    binding.surface.extent = (binding.texture.layout 0).extent := rfl

end Binding

/-- What sampling calls read where no texture is bound. -/
def Surface.unbound : Surface where
  extent := .splat 1
  lastLevel := 0
  minLod := 0
  maxLod := 0
  lodBias := 0
  border := .splat 0
  level _ := { rowStride := 0, sliceStride := 0, bytes := (List.replicate 16 0).toByteArray }

@[simp]
theorem Surface.bytes_level_unbound (level : Nat) :
    (unbound.level level).bytes = (List.replicate 16 0).toByteArray := rfl

/-- The units and what is bound to them. -/
structure TextureUnits where
  slots : Vector (Option Binding) maxUnits

namespace TextureUnits

def empty : TextureUnits := ⟨.replicate maxUnits none⟩

/-- The binding of a unit. -/
def get? (units : TextureUnits) (unit : Nat) : Option Binding := (units.slots[unit]?).join

/-- The units with a unit bound anew. -/
def bind (units : TextureUnits) (unit : Nat) (binding : Binding) :
    Except Refusal TextureUnits :=
  if h : unit < maxUnits then .ok ⟨units.slots.set unit (some binding)⟩
  else .error (.unitOutOfRange unit maxUnits)

def unbind (units : TextureUnits) (unit : Nat) : TextureUnits :=
  if h : unit < maxUnits then ⟨units.slots.set unit none⟩ else units

/-- What sampling calls read of a unit. -/
def surface (units : TextureUnits) (unit : Nat) : Surface :=
  match units.get? unit with
  | some binding => binding.surface
  | none => .unbound

end TextureUnits

end QuadSampler
