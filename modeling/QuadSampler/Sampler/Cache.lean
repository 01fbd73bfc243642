import QuadSampler.Sampler.Basic

/-!
# Events and the cache of samplers

The text that describes a sampler, and the events that the library reports while it works: a
sampler that falls back to blending in numbers, a sampler specialized, a sampler found in a cache,
and a level generated.

A `Cache` keeps one sampler for each static state it was asked for. Callers that ask for equal
states hold one and the same sampler until the cache is cleared, which `Shared.serial` makes
visible: every sampler that is ever specialized has a serial of its own. A look-up and an insertion
are separate steps, so that callers may come in between; the insertion keeps what it finds.
-/

namespace QuadSampler

/-! ## Descriptions -/

/-- Items between square brackets. -/
def bracketed (items : List String) : String := "[" ++ ", ".intercalate items ++ "]"

/-- Named fields between braces, after the name of the whole. -/
def braced (name : String) (fields : List (String × String)) : String :=
  let items := fields.map fun (field, value) ↦ s!"{field}: {value}"
  name ++ " \x7b " ++ ", ".intercalate items ++ " \x7d"

/-- The text between double quotes. Names hold nothing that would have to be escaped. -/
def quoted (text : String) : String := "\"" ++ text ++ "\""

/-- The fields of a state in their order. -/
def StaticState.describe (state : StaticState) : String :=
  braced "StaticSamplerState" [
    ("format", state.format.name),
    ("swizzle", bracketed (state.swizzle.toList.map Selector.name)),
    ("target", state.target.name),
    ("pot_width", toString state.powerOfTwo.s),
    ("pot_height", toString state.powerOfTwo.t),
    ("pot_depth", toString state.powerOfTwo.r),
    ("wrap_s", state.wrap.s.name),
    ("wrap_t", state.wrap.t.name),
    ("wrap_r", state.wrap.r.name),
    ("min_img_filter", state.minFilter.name),
    ("mag_img_filter", state.magFilter.name),
    ("min_mip_filter", state.mipFilter.name),
    ("compare_mode", state.compareMode.name),
    ("compare_func", state.compareFunc.name),
    ("normalized_coords", toString state.normalized),
    ("min_max_lod_equal", toString state.lodFixed)]

/-- The path, format and state of a sampler. -/
def Sampler.describe (sampler : Sampler) : String :=
  braced "Sampler" [
    ("path", sampler.path.name),
    ("format", quoted sampler.state.format.info.name),
    ("state", sampler.state.describe)]

/-! ## Events -/

/-- Something that happened in the library. -/
inductive Event where
  /-- Texels of the state fit bytes, but its wrap modes are not those of fixed point. -/
  | wrapsUnsupported (state : StaticState)
  | specialized (sampler : Sampler)
  | cacheHit (state : StaticState)
  | levelGenerated (level : Nat) (extent : Axes Nat) (format : PixelFormat)
deriving DecidableEq

namespace Event

def severity : Event → String
  | wrapsUnsupported _ => "warn"
  | specialized _ => "debug"
  | cacheHit _ | levelGenerated .. => "trace"

def text : Event → String
  | wrapsUnsupported state =>
    s!"{state.format.info.name}: wrap modes {bracketed (state.activeWraps.map WrapMode.name)} " ++
      "are not supported by the fixed-point path, using float filtering"
  | specialized sampler =>
    let state := sampler.state
    s!"specialized {sampler.path.name} sampler for {state.format.info.name} " ++
      s!"{state.target.name}: min {state.minFilter.name} mag {state.magFilter.name} " ++
      s!"mip {state.mipFilter.name} wrap {bracketed (state.wrap.toList.map WrapMode.name)}"
  | cacheHit state => s!"sampler cache hit for {state.format.info.name} {state.target.name}"
  | levelGenerated level extent format =>
    s!"generating mip {level} ({extent.s}x{extent.t}x{extent.r}) of {format.info.name}"

def line (event : Event) : String := s!"{event.severity}: {event.text}"

end Event

def Sampler.events (sampler : Sampler) : List Event :=
  let fallback := sampler.path == .numbers && sampler.state.format.info.fitsBytes
  (if fallback then [.wrapsUnsupported sampler.state] else []) ++ [.specialized sampler]

/-! ## The cache -/

/-- A sampler that callers hold in common. -/
structure Shared where
  serial : Nat
  sampler : Sampler
deriving DecidableEq

/-- The samplers specialized so far. -/
structure Cache where
  mode : Mode
  entries : List (StaticState × Shared)
deriving DecidableEq

namespace Cache

def empty (mode : Mode) : Cache := ⟨mode, []⟩

def size (cache : Cache) : Nat := cache.entries.length

/-- The sampler held for a state. -/
def find? (cache : Cache) (state : StaticState) : Option Shared := cache.entries.lookup state

/-- The sampler held for a state, which is the one given unless there already was one, and the
cache with it. -/
def insertOrGet (cache : Cache) (state : StaticState) (built : Shared) : Shared × Cache :=
  match cache.find? state with
  | some held => (held, cache)
  | none => (built, { cache with entries := (state, built) :: cache.entries })

/-- The sampler that a caller specializes when it finds none. -/
def specialized (cache : Cache) (state : StaticState) (serial : Nat) : Shared :=
  ⟨serial, .specialize state cache.mode⟩

/-- What a caller gets who asks for a state: the sampler, the cache afterwards, and the events. -/
structure Answer where
  shared : Shared
  cache : Cache
  events : List Event

/-- The sampler for a state. It is specialized, with the given serial, if the cache holds none. -/
def specialize (cache : Cache) (state : StaticState) (serial : Nat) : Answer :=
  match cache.find? state with
  | some held => ⟨held, cache, [.cacheHit state]⟩
  | none =>
    let built := cache.specialized state serial
    let (shared, cache) := cache.insertOrGet state built
    ⟨shared, cache, built.sampler.events⟩

/-- The cache without its samplers. Those that callers hold they keep. -/
def clear (cache : Cache) : Cache := { cache with entries := [] }

end Cache

end QuadSampler
