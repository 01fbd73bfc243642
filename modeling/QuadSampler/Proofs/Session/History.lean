import QuadSampler.Proofs.Sampler.SharedCache
import QuadSampler.Session

/-!
# What a session answers depends on little of its history

A session goes through textures, bindings, caches and samplers in any order, and some of its
commands fail. What it answers to a request depends on three things only: the state that the sampler
was asked for, the mode of the cache it came from, and what was last bound to the unit of the
request. A sampler made at once for that state and mode, over units that hold nothing but that
binding, gives the same answer (`history_independent`).

## The history as the specification

A history is a list of commands, the latest first. What it leaves behind is read off the commands
alone, with no session: the texture of a name (`textureNamed`), what is bound to a unit
(`bindingAt`), the mode of the cache (`modeAfter`), and the state and mode a sampler was specialized
for (`samplerNamed`). A command that fails leaves no trace in any of them.

## What a session keeps

`Session.Follows` says that the parts of a session are those of its history, with samplers in place
of states and modes. Every command keeps it (`Session.Follows.step`). That a sampler may be found in
the cache or be built anew matters in one place, `Cache.Sound.specialize`: what a sound cache gives
for a state is the sampler for that state, either way.
-/

namespace QuadSampler

/-! ## What a history leaves behind -/

namespace History

/-- The texture last built under a name. -/
def textureNamed (name : String) : List Command → Option Texture
  | [] => none
  | .texture built source :: earlier =>
    if built = name then (Texture.build source).toOption.or (textureNamed name earlier)
    else textureNamed name earlier
  | _ :: earlier => textureNamed name earlier

/-- What was last bound to a unit and not removed since. A binding takes place if there is such a
unit and such a texture. -/
def bindingAt (unit : Nat) : List Command → Option Binding
  | [] => none
  | .bind bound name settings :: earlier =>
    if bound = unit ∧ bound < maxUnits then
      ((textureNamed name earlier).map (.ofSettings · settings)).or (bindingAt unit earlier)
    else bindingAt unit earlier
  | .unbind removed :: earlier => if removed = unit then none else bindingAt unit earlier
  | _ :: earlier => bindingAt unit earlier

/-- The mode of the cache last started. -/
def modeAfter : List Command → Mode
  | [] => .normal
  | .cache mode :: _ => mode
  | _ :: earlier => modeAfter earlier

/-- The state that a source stands for. -/
def stateOf (source : StateSource) (history : List Command) : Option StaticState :=
  match source with
  | .given state => some state
  | .bound unit settings change =>
    (bindingAt unit history).map fun binding ↦ change (binding.staticState settings)

/-- The state and the mode of the sampler last taken under a name. -/
def samplerNamed (name : String) : List Command → Option (StaticState × Mode)
  | [] => none
  | .specialize taken source :: earlier =>
    if taken = name then
      ((stateOf source earlier).map (·, modeAfter earlier)).or (samplerNamed name earlier)
    else samplerNamed name earlier
  | _ :: earlier => samplerNamed name earlier

end History

/-! ## Units with one binding -/

namespace TextureUnits

/-- Units that hold nothing but what is bound to one of them. -/
def holding (unit : Nat) : Option Binding → TextureUnits
  | none => .empty
  | some binding => (empty.bind unit binding).toOption.getD .empty

variable {units units' : TextureUnits} {unit : Nat} {binding : Binding}

private theorem get?_empty (unit : Nat) : empty.get? unit = none := by
  by_cases h : unit < maxUnits
  · rw [get?, empty, Vector.getElem?_replicate, if_pos h]
    rfl
  · rw [get?, empty, Vector.getElem?_replicate, if_neg h]
    rfl

private theorem lt_of_get?_eq_some (h : units.get? unit = some binding) : unit < maxUnits := by
  by_contra hunit
  rw [get?, Vector.getElem?_eq_none (Nat.le_of_not_lt hunit)] at h
  exact nomatch h

theorem bind_eq_ok_iff : units.bind unit binding = .ok units' ↔
    ∃ h : unit < maxUnits, units' = ⟨units.slots.set unit (some binding)⟩ := by
  rw [bind]
  split
  case isTrue hunit =>
    rw [Except.ok.injEq]
    exact ⟨fun h ↦ ⟨hunit, h.symm⟩, fun ⟨_, h⟩ ↦ h.symm⟩
  case isFalse hunit => exact iff_of_false (fun h ↦ nomatch h) fun ⟨h, _⟩ ↦ hunit h

private theorem not_lt_of_bind_eq_error {refusal : Refusal}
    (h : units.bind unit binding = .error refusal) :
    ¬ unit < maxUnits :=
  fun hunit ↦ nomatch h.symm.trans (bind_eq_ok_iff.2 ⟨hunit, rfl⟩)

theorem get?_bind (h : units.bind unit binding = .ok units') (other : Nat) :
    units'.get? other = if unit = other then some binding else units.get? other := by
  obtain ⟨hunit, rfl⟩ := bind_eq_ok_iff.1 h
  rw [get?, Vector.getElem?_set]
  split <;> rfl

private theorem get?_unbind (units : TextureUnits) (unit other : Nat) :
    (units.unbind unit).get? other = if unit = other then none else units.get? other := by
  rw [unbind]
  split
  case isTrue =>
    rw [get?, Vector.getElem?_set]
    split <;> rfl
  case isFalse hunit =>
    by_cases heq : unit = other
    · rw [if_pos heq, ← heq, get?, Vector.getElem?_eq_none (Nat.le_of_not_lt hunit)]
      rfl
    · rw [if_neg heq]

theorem get?_holding (units : TextureUnits) (unit : Nat) :
    (holding unit (units.get? unit)).get? unit = units.get? unit := by
  cases h : units.get? unit with
  | none => exact get?_empty unit
  | some binding =>
    have hbind : empty.bind unit binding = .ok _ :=
      bind_eq_ok_iff.2 ⟨lt_of_get?_eq_some h, rfl⟩
    rw [holding, hbind]
    exact (get?_bind hbind unit).trans (if_pos rfl)

/-- A request reads of the units only what is bound to its own. -/
theorem sample_holding (units : TextureUnits) (sampler : Sampler) (request : Request) :
    (holding request.unit (units.get? request.unit)).sample sampler request
      = units.sample sampler request := by
  rw [sample, surface, get?_holding]
  rfl

end TextureUnits

/-! ## Samplers out of a cache -/

namespace Cache

variable {cache : Cache} {mode : Mode} {bound : Nat}

private theorem specialize_eq_insertOrGet (cache : Cache) (state : StaticState) (serial : Nat) :
    ((cache.specialize state serial).shared, (cache.specialize state serial).cache)
      = cache.insertOrGet state (cache.specialized state serial) := by
  cases h : cache.find? state with
  | none => simp only [specialize, h]
  | some held => simp only [specialize, h, insertOrGet_of_find?_eq_some h]

/-- What a sound cache gives for a state is the sampler for that state, and it stays sound. -/
theorem Sound.specialize (h : cache.Sound mode bound) (state : StaticState) :
    (cache.specialize state bound).shared.sampler = .specialize state mode ∧
      (cache.specialize state bound).cache.Sound mode (bound + 1) := by
  obtain ⟨hshared, hcache⟩ := Prod.mk.inj (specialize_eq_insertOrGet cache state bound)
  have hsound := h.insertOrGet state
  rw [hshared, hcache]
  exact ⟨hsound.sampler_eq state _ (mem_of_find?_eq_some (find?_insertOrGet_self cache state _)),
    hsound⟩

end Cache

/-! ## Names -/

namespace Session

private theorem lookup_filter_ne {α : Type} {name other : String} (h : name ≠ other)
    (pairs : List (String × α)) :
    (pairs.filter (·.1 != name)).lookup other = pairs.lookup other := by
  induction pairs with
  | nil => rfl
  | cons pair pairs ih =>
    by_cases hname : pair.1 = name
    · have hother : (other == pair.1) = false := by
        rw [hname, beq_eq_false_iff_ne]
        exact h.symm
      rw [List.filter_cons_of_neg (by simp [hname]), ih, List.lookup_cons, hother]
    · rw [List.filter_cons_of_pos (by simp [hname]), List.lookup_cons, List.lookup_cons, ih]

theorem lookup_put {α : Type} (name other : String) (value : α) (pairs : List (String × α)) :
    (put name value pairs).lookup other
      = if name = other then some value else pairs.lookup other := by
  rw [put, List.lookup_cons]
  by_cases h : name = other
  · rw [if_pos h, beq_iff_eq.2 h.symm]
  · rw [if_neg h, beq_eq_false_iff_ne.2 (Ne.symm h), lookup_filter_ne h]

/-! ## What a session keeps -/

/-- The parts of a session are what its history leaves behind. -/
structure Follows (session : Session) (history : List Command) : Prop where
  textures : ∀ name, session.textures.lookup name = History.textureNamed name history
  units : ∀ unit, session.units.get? unit = History.bindingAt unit history
  cache : session.cache.Sound (History.modeAfter history) session.nextSerial
  /-- A sampler is the one for its state and mode, wherever it came from. -/
  held : ∀ name, (session.held.lookup name).map (·.sampler)
    = (History.samplerNamed name history).map fun taken ↦ .specialize taken.1 taken.2

private theorem follows_start : start.Follows [] where
  textures _ := rfl
  units := TextureUnits.get?_empty
  cache := Cache.sound_empty .normal 0
  held _ := rfl

section Step

variable {session : Session} {history : List Command} (h : session.Follows history)

include h

theorem Follows.state?_eq (source : StateSource) :
    source.state? session.units = History.stateOf source history := by
  cases source with
  | given state => rfl
  | bound unit settings change => rw [StateSource.state?, h.units]; rfl

theorem Follows.texture (name : String) (source : Source) :
    (session.step (.texture name source)).1.Follows (.texture name source :: history) := by
  cases hbuild : Texture.build source with
  | error failure =>
    have htextures : ∀ other, session.textures.lookup other
        = History.textureNamed other (.texture name source :: history) := by
      intro other
      simp only [History.textureNamed, hbuild, Except.toOption, Option.none_or, ite_self]
      exact h.textures other
    simp only [step, hbuild]
    exact ⟨htextures, h.units, h.cache, h.held⟩
  | ok texture =>
    have htextures : ∀ other, (put name texture session.textures).lookup other
        = History.textureNamed other (.texture name source :: history) := by
      intro other
      simp only [History.textureNamed, hbuild, Except.toOption, Option.some_or, lookup_put,
        h.textures]
    simp only [step, hbuild]
    exact ⟨htextures, h.units, h.cache, h.held⟩

theorem Follows.bind (unit : Nat) (name : String) (settings : Settings) :
    (session.step (.bind unit name settings)).1.Follows
      (.bind unit name settings :: history) := by
  cases hname : session.textures.lookup name with
  | none =>
    have hunits : ∀ other, session.units.get? other
        = History.bindingAt other (.bind unit name settings :: history) := by
      intro other
      simp only [History.bindingAt, ← h.textures, hname, Option.map_none, Option.none_or, ite_self]
      exact h.units other
    simp only [step, hname]
    exact ⟨h.textures, hunits, h.cache, h.held⟩
  | some texture =>
    cases hbind : session.units.bind unit (.ofSettings texture settings) with
    | error refusal =>
      have hunit := TextureUnits.not_lt_of_bind_eq_error hbind
      have hunits : ∀ other, session.units.get? other
          = History.bindingAt other (.bind unit name settings :: history) := by
        intro other
        simp only [History.bindingAt, hunit, and_false, if_false]
        exact h.units other
      simp only [step, hname, hbind]
      exact ⟨h.textures, hunits, h.cache, h.held⟩
    | ok units =>
      obtain ⟨hunit, -⟩ := TextureUnits.bind_eq_ok_iff.1 hbind
      have hunits : ∀ other, units.get? other
          = History.bindingAt other (.bind unit name settings :: history) := by
        intro other
        simp only [History.bindingAt, ← h.textures, hname, hunit, and_true, Option.map_some,
          Option.some_or]
        rw [TextureUnits.get?_bind hbind, h.units]
      simp only [step, hname, hbind]
      exact ⟨h.textures, hunits, h.cache, h.held⟩

theorem Follows.unbind (unit : Nat) :
    (session.step (.unbind unit)).1.Follows (.unbind unit :: history) where
  textures := h.textures
  units other := by
    simp only [step, History.bindingAt, TextureUnits.get?_unbind, h.units]
  cache := h.cache
  held := h.held

theorem Follows.specialize (name : String) (source : StateSource) :
    (session.step (.specialize name source)).1.Follows (.specialize name source :: history) := by
  cases hstate : source.state? session.units with
  | none =>
    have hheld : ∀ other, (session.held.lookup other).map (·.sampler)
        = (History.samplerNamed other (.specialize name source :: history)).map
            fun taken ↦ .specialize taken.1 taken.2 := by
      intro other
      simp only [History.samplerNamed, ← h.state?_eq, hstate, Option.map_none, Option.none_or,
        ite_self]
      exact h.held other
    simp only [step, hstate]
    exact ⟨h.textures, h.units, h.cache, hheld⟩
  | some state =>
    obtain ⟨hsampler, hcache⟩ := h.cache.specialize state
    have hheld : ∀ other,
        ((put name (session.cache.specialize state session.nextSerial).shared
            session.held).lookup other).map (·.sampler)
          = (History.samplerNamed other (.specialize name source :: history)).map
              fun taken ↦ .specialize taken.1 taken.2 := by
      intro other
      simp only [History.samplerNamed, ← h.state?_eq, hstate, Option.map_some, Option.some_or,
        lookup_put]
      split
      · rw [Option.map_some, Option.map_some, hsampler]
      · exact h.held other
    simp only [step, hstate]
    exact ⟨h.textures, h.units, hcache, hheld⟩

/-- Every command keeps what a session has in common with its history. -/
theorem Follows.step (command : Command) :
    (session.step command).1.Follows (command :: history) := by
  cases command with
  | texture name source => exact h.texture name source
  | bind unit name settings => exact h.bind unit name settings
  | unbind unit => exact h.unbind unit
  | cache mode => exact ⟨h.textures, h.units, Cache.sound_empty mode _, h.held⟩
  | specialize name source => exact h.specialize name source
  | clearCache => exact ⟨h.textures, h.units, h.cache.clear, h.held⟩
  | sample name request =>
    simp only [Session.step]
    split <;> exact ⟨h.textures, h.units, h.cache, h.held⟩
  | batch name requests =>
    simp only [Session.step]
    split <;> exact ⟨h.textures, h.units, h.cache, h.held⟩
  | sampleOnce source request =>
    simp only [Session.step]
    split <;> exact ⟨h.textures, h.units, h.cache, h.held⟩
  | binding | surface | cacheSize | events => exact ⟨h.textures, h.units, h.cache, h.held⟩

end Step

/-- What a run of commands leaves of a session is what their history leaves behind. -/
theorem follows_run {session : Session} {history : List Command} (h : session.Follows history)
    (commands : List Command) :
    (session.run commands).1.Follows (commands.reverse ++ history) := by
  induction commands generalizing session history with
  | nil => exact h
  | cons command rest ih =>
    rw [List.reverse_cons, List.append_assoc]
    exact ih (h.step command)

private theorem getElem?_replies (session : Session) (before : List Command) (command : Command)
    (after : List Command) :
    (session.run (before ++ command :: after)).2[before.length]?
      = some ((session.run before).1.step command).2 := by
  induction before generalizing session with
  | nil => rfl
  | cons first rest ih => exact ih _

end Session

namespace History

/-- What a sampler specialized just now gives for a request, over units that hold nothing but what
is bound to the unit of the request. -/
def freshSample (history : List Command) (taken : StaticState × Mode) (request : Request) :
    Except Fault (Quad (Color Single)) :=
  (TextureUnits.holding request.unit (bindingAt request.unit history)).sample
    (.specialize taken.1 taken.2) request

end History

/-! ## What a session answers -/

private theorem Session.Follows.sample_eq {session : Session} {history : List Command}
    (h : session.Follows history) (taken : StaticState × Mode) :
    session.units.sample (.specialize taken.1 taken.2) = History.freshSample history taken := by
  funext request
  rw [History.freshSample, ← h.units, TextureUnits.sample_holding]

/-- Whether a reply says that the command failed. -/
def Reply.fails : Reply → Bool
  | .failed _ | .unknown => true
  | _ => false

namespace Session

/-- A command that fails leaves everything as it was. -/
theorem step_of_fails {session : Session} {command : Command}
    (h : (session.step command).2.fails = true) : (session.step command).1 = session := by
  cases command with
  | texture name source =>
    cases hbuild : Texture.build source with
    | error failure => simp only [step, hbuild]
    | ok texture => simp [step, hbuild, Reply.fails] at h
  | bind unit name settings =>
    cases hname : session.textures.lookup name with
    | none => simp only [step, hname]
    | some texture =>
      cases hbind : session.units.bind unit (.ofSettings texture settings) with
      | error refusal => simp only [step, hname, hbind]
      | ok units => simp [step, hname, hbind, Reply.fails] at h
  | specialize name source =>
    cases hstate : source.state? session.units with
    | none => simp only [step, hstate]
    | some state => simp [step, hstate, specialize, Reply.fails] at h
  | unbind | cache | clearCache | events => exact nomatch h
  | sample | batch | sampleOnce =>
    simp only [step]
    split <;> rfl
  | binding | surface | cacheSize => rfl

section Replies

variable {session : Session} {history : List Command} (h : session.Follows history)

include h

/-- What is answered with the sampler of a name is answered with the sampler for its state and
mode. -/
theorem Follows.answer_held (name : String) (answer : Sampler → Reply) :
    ((session.held.lookup name).map fun shared ↦ answer shared.sampler).getD .unknown
      = ((History.samplerNamed name history).map fun taken ↦
          answer (.specialize taken.1 taken.2)).getD .unknown := by
  have hheld := congrArg (Option.map answer) (h.held name)
  rw [Option.map_map, Option.map_map] at hheld
  exact congrArg (Option.getD · .unknown) hheld

theorem Follows.sample_reply (name : String) (request : Request) :
    (session.step (.sample name request)).2
      = ((History.samplerNamed name history).map fun taken ↦
          replyOf .colors (History.freshSample history taken request)).getD .unknown := by
  have hanswer := h.answer_held name fun sampler ↦
    replyOf .colors (session.units.sample sampler request)
  simp only [h.sample_eq] at hanswer
  rw [← hanswer]
  cases hname : session.held.lookup name with
  | none => simp only [Session.step, hname, Option.map_none, Option.getD_none]
  | some shared => simp only [Session.step, hname, Option.map_some, Option.getD_some]

theorem Follows.batch_reply (name : String) (requests : List Request) :
    (session.step (.batch name requests)).2
      = ((History.samplerNamed name history).map fun taken ↦
          replyOf .batch (requests.mapM (History.freshSample history taken))).getD .unknown := by
  have hanswer := h.answer_held name fun sampler ↦
    replyOf .batch (requests.mapM (session.units.sample sampler))
  simp only [h.sample_eq] at hanswer
  rw [← hanswer]
  cases hname : session.held.lookup name with
  | none => simp only [Session.step, hname, Option.map_none, Option.getD_none]
  | some shared => simp only [Session.step, hname, Option.map_some, Option.getD_some]

theorem Follows.sampleOnce_reply (source : StateSource) (request : Request) :
    (session.step (.sampleOnce source request)).2
      = ((History.stateOf source history).map fun state ↦
          replyOf .colors (History.freshSample history (state, .normal) request)).getD
            .unknown := by
  rw [← h.state?_eq]
  cases hstate : source.state? session.units with
  | none => simp only [Session.step, hstate, Option.map_none, Option.getD_none]
  | some state =>
    simp only [Session.step, hstate, Option.map_some, Option.getD_some, ← h.sample_eq]

theorem Follows.bind_reply_iff (unit : Nat) (name : String) (settings : Settings) :
    (session.step (.bind unit name settings)).2.fails = false ↔
      unit < maxUnits ∧ (History.textureNamed name history).isSome := by
  rw [← h.textures]
  cases hname : session.textures.lookup name with
  | none => simp [Session.step, hname, Reply.fails]
  | some texture =>
    cases hbind : session.units.bind unit (.ofSettings texture settings) with
    | error refusal =>
      have hunit := TextureUnits.not_lt_of_bind_eq_error hbind
      simp [Session.step, hname, hbind, Reply.fails, hunit]
    | ok units =>
      obtain ⟨hunit, -⟩ := TextureUnits.bind_eq_ok_iff.1 hbind
      simp [Session.step, hname, hbind, Reply.fails, hunit]

end Replies

end Session

/-- **What a session answers to a request does not depend on how it got there.** A request is
answered as by a sampler specialized just now, for the state and mode that the sampler of the name
was taken for, over units that hold nothing but what was last bound to the unit of the request; and
so is every request of a batch, and a request to a sampler that is not kept. What was last bound
counts only bindings that did not fail, which is if there was such a unit and such a texture. A
command that fails leaves the session as it was. -/
theorem history_independent :
    (∀ (before after : List Command) (name : String) (request : Request),
      (Session.start.run (before ++ .sample name request :: after)).2[before.length]?
        = some (((History.samplerNamed name before.reverse).map fun taken ↦
            Session.replyOf .colors
              (History.freshSample before.reverse taken request)).getD .unknown)) ∧
    (∀ (before after : List Command) (name : String) (requests : List Request),
      (Session.start.run (before ++ .batch name requests :: after)).2[before.length]?
        = some (((History.samplerNamed name before.reverse).map fun taken ↦
            Session.replyOf .batch
              (requests.mapM (History.freshSample before.reverse taken))).getD .unknown)) ∧
    (∀ (before after : List Command) (source : StateSource) (request : Request),
      (Session.start.run (before ++ .sampleOnce source request :: after)).2[before.length]?
        = some (((History.stateOf source before.reverse).map fun state ↦
            Session.replyOf .colors
              (History.freshSample before.reverse (state, .normal) request)).getD .unknown)) ∧
    (∀ (before : List Command) (unit : Nat) (name : String) (settings : Settings),
      ((Session.start.run before).1.step (.bind unit name settings)).2.fails = false ↔
        unit < maxUnits ∧ (History.textureNamed name before.reverse).isSome) ∧
    (∀ (session : Session) (command : Command), (session.step command).2.fails = true →
      (session.step command).1 = session) := by
  have hfollows : ∀ before, (Session.start.run before).1.Follows before.reverse := by
    intro before
    have hrun := Session.follows_run Session.follows_start before
    rwa [List.append_nil] at hrun
  refine ⟨?samples, ?batches, ?once, ?bindings, fun _ _ ↦ Session.step_of_fails⟩
  case samples =>
    intro before after name request
    rw [Session.getElem?_replies, (hfollows before).sample_reply]
  case batches =>
    intro before after name requests
    rw [Session.getElem?_replies, (hfollows before).batch_reply]
  case once =>
    intro before after source request
    rw [Session.getElem?_replies, (hfollows before).sampleOnce_reply]
  case bindings =>
    intro before unit name settings
    exact (hfollows before).bind_reply_iff unit name settings

/-- A sampler taken for one texture answers, after the cache was cleared and another texture took
the unit, with the other texture. A texture of no bytes and a binding to no unit change nothing. -/
theorem history_independent_rebound :
    let request := Request.ofCoords 0 [.splat 0, .splat 0] .quad
    let before : List Command :=
      [.texture "checker" .checker, .bind 0 "checker" .plain,
        .specialize "sampler" (.bound 0 .plain id), .clearCache,
        .texture "dot" (.flat ⟨#[255]⟩ 1 1 .l8Unorm), .texture "dot" (.flat ⟨#[]⟩ 1 1 .l8Unorm),
        .bind 0 "dot" .plain, .bind 16 "checker" .plain]
    (Session.start.run (before ++ [.sample "sampler" request])).2[before.length]?
      = some (.colors (.splat (.splat 1))) := by
  intro request before
  have htaken : History.samplerNamed "sampler" before.reverse
      = some (Binding.checker.staticState .plain, .normal) := rfl
  have hcolors : History.freshSample before.reverse (Binding.checker.staticState .plain, .normal)
      request = .ok (.splat (.splat 1)) := by
    decide +kernel
  have hreply := history_independent.1 before [] "sampler" request
  rw [htaken, Option.map_some, Option.getD_some, hcolors] at hreply
  exact hreply

end QuadSampler
