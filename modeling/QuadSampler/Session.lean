import QuadSampler.Sampler.Cache
import QuadSampler.Texture.Units

/-!
# Sessions

A `Session` is all that a user of the library builds up: named textures, texture units, a cache of
samplers, the samplers taken from it under names, and the events not yet read. `Session.step` runs
one command. A command that fails leaves everything as it was.
-/

namespace QuadSampler

/-- The events of building a texture: one for each generated level. -/
def Source.events (source : Source) (texture : Texture) : List Event :=
  match source.further with
  | .generated =>
    (texture.layouts.zipIdx.drop 1).map fun (layout, level) ↦
      .levelGenerated level layout.extent source.format
  | _ => []

/-- The colours that a sampler gives for a request to one of the units. -/
def TextureUnits.sample (units : TextureUnits) (sampler : Sampler) (request : Request) :
    Except Fault (Quad (Color Single)) :=
  sampler.sample (units.surface request.unit) request

/-- Where a command takes a static state from. -/
inductive StateSource where
  | given (state : StaticState)
  /-- What is bound to a unit, under settings, with a last change. -/
  | bound (unit : Nat) (settings : Settings) (change : StaticState → StaticState)

/-- The state, unless it is that of a unit with nothing bound. -/
def StateSource.state? (units : TextureUnits) : StateSource → Option StaticState
  | given state => some state
  | bound unit settings change =>
    (units.get? unit).map fun binding ↦ change (binding.staticState settings)

/-- What a session can be asked to do. -/
inductive Command where
  /-- Builds a texture and names it. -/
  | texture (name : String) (source : Source)
  | bind (unit : Nat) (texture : String) (settings : Settings)
  | unbind (unit : Nat)
  | binding (unit : Nat)
  | surface (unit : Nat)
  /-- Starts a new cache. -/
  | cache (mode : Mode)
  /-- Takes a sampler from the cache and names it. -/
  | specialize (name : String) (source : StateSource)
  | cacheSize
  | clearCache
  | sample (sampler : String) (request : Request)
  /-- Several requests at once, answered together or not at all. -/
  | batch (sampler : String) (requests : List Request)
  /-- A request answered by a sampler that the session does not keep. -/
  | sampleOnce (source : StateSource) (request : Request)
  /-- The events since they were last read. -/
  | events

/-- What a session answers. -/
inductive Reply where
  | texture (texture : Texture)
  | bound
  | binding (binding : Option Binding)
  | surface (surface : Surface)
  | cache (mode : Mode)
  /-- A path, the size of the cache, and the names under which the sampler was held before. -/
  | sampler (path : Path) (cacheSize : Nat) (names : List String)
  | cacheSize (size : Nat)
  | colors (quad : Quad (Color Single))
  | batch (quads : List (Quad (Color Single)))
  | events (events : List Event)
  | failed (failure : BuildFailure)
  /-- The command names something that the session does not have. -/
  | unknown

/-- All that has been built up. -/
structure Session where
  textures : List (String × Texture)
  units : TextureUnits
  cache : Cache
  /-- The samplers that have names. -/
  held : List (String × Shared)
  /-- The serial of the next sampler. -/
  nextSerial : Nat
  /-- The events not yet read. -/
  pending : List Event

namespace Session

def start : Session where
  textures := []
  units := .empty
  cache := .empty .normal
  held := []
  nextSerial := 0
  pending := []

/-- The pairs with the value under a name put in place of an earlier one. -/
def put {α : Type} (name : String) (value : α) (pairs : List (String × α)) : List (String × α) :=
  (name, value) :: pairs.filter (·.1 != name)

/-- The names of the samplers that are the very one given, in order. -/
def namesOf (session : Session) (shared : Shared) : List String :=
  ((session.held.filter (·.2.serial == shared.serial)).map (·.1)).mergeSort (· ≤ ·)

/-- The session with a sampler taken from its cache and named, and what is answered. -/
def specialize (session : Session) (name : String) (state : StaticState) : Session × Reply :=
  let answer := session.cache.specialize state session.nextSerial
  let reply :=
    Reply.sampler answer.shared.sampler.path answer.cache.size (session.namesOf answer.shared)
  ({ session with
      cache := answer.cache
      held := put name answer.shared session.held
      nextSerial := session.nextSerial + 1
      pending := session.pending ++ answer.events }, reply)

/-- The answer to a request, or the fault it ended in. -/
def replyOf {α : Type} (f : α → Reply) : Except Fault α → Reply
  | .ok a => f a
  | .error fault => .failed (.aborted fault)

def step (session : Session) : Command → Session × Reply
  | .texture name source =>
    match Texture.build source with
    | .ok texture =>
      ({ session with
          textures := put name texture session.textures
          pending := session.pending ++ source.events texture }, .texture texture)
    | .error failure => (session, .failed failure)
  | .bind unit name settings =>
    match session.textures.lookup name with
    | none => (session, .unknown)
    | some texture =>
      match session.units.bind unit (.ofSettings texture settings) with
      | .ok units => ({ session with units }, .bound)
      | .error error => (session, .failed (.refused error))
  | .unbind unit =>
    ({ session with units := session.units.unbind unit }, .binding (session.units.get? unit))
  | .binding unit => (session, .binding (session.units.get? unit))
  | .surface unit => (session, .surface (session.units.surface unit))
  | .cache mode => ({ session with cache := .empty mode }, .cache mode)
  | .specialize name source =>
    match source.state? session.units with
    | some state => session.specialize name state
    | none => (session, .unknown)
  | .cacheSize => (session, .cacheSize session.cache.size)
  | .clearCache =>
    let cache := session.cache.clear
    ({ session with cache }, .cacheSize cache.size)
  | .sample name request =>
    match session.held.lookup name with
    | some shared => (session, replyOf .colors (session.units.sample shared.sampler request))
    | none => (session, .unknown)
  | .batch name requests =>
    match session.held.lookup name with
    | some shared =>
      (session, replyOf .batch (requests.mapM (session.units.sample shared.sampler)))
    | none => (session, .unknown)
  | .sampleOnce source request =>
    match source.state? session.units with
    | some state =>
      (session, replyOf .colors (session.units.sample (.specialize state .normal) request))
    | none => (session, .unknown)
  | .events => ({ session with pending := [] }, .events session.pending)

def run (session : Session) : List Command → Session × List Reply
  | [] => (session, [])
  | command :: rest =>
    let (next, reply) := session.step command
    let (last, replies) := next.run rest
    (last, reply :: replies)

end Session

end QuadSampler
