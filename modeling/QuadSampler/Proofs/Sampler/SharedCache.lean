import Mathlib.Data.List.Dedup
import QuadSampler.Proofs.LevelView.Packed
import QuadSampler.Sampler.Cache

/-!
# A cache that many callers share

A caller who asks a cache for a sampler looks the state up, and on a miss comes back to insert a
sampler of its own. Each of the two is a single step, but anything may happen in between: other
callers miss the same state and insert first, and the cache may be cleared. Here all interleavings
are followed at once, for any number of callers and any states.

## How callers are followed

A `World` is the cache together with the state that each caller has missed. `Step` says which turns
a world allows, one constructor for each kind of turn, and `Run` chains steps, its turns listed the
latest first. A caller on its own is `Cache.specialize` (`exists_run_specialize`).

Two things are carried along a run. What a step does to the cache is told once by `Cache.Sound`:
keys are distinct, and the sampler under a key is the one specialized for it. What a step does to
the callers is told by the turns themselves: the keys are the states inserted since the last clear,
and a caller has missed a state exactly if its own latest turn says so (`Kept`).

Two samplers are one object if they have one serial. Every sampler that is built takes a serial not
used before, so serials tell samplers apart (`Kept.serials_differ`).
-/

namespace QuadSampler

/-! ## Insertions -/

namespace Cache

variable {cache : Cache} {state state' : StaticState} {built held shared : Shared}

/-- The states that the cache holds samplers for, the latest first. -/
def keys (cache : Cache) : List StaticState := cache.entries.map Prod.fst

theorem mem_of_find?_eq_some (h : cache.find? state = some shared) :
    (state, shared) ∈ cache.entries := by
  obtain ⟨before, after, hentries, -⟩ := List.lookup_eq_some_iff.1 h
  rw [hentries]
  exact List.mem_append_right before List.mem_cons_self

theorem find?_eq_none_iff : cache.find? state = none ↔ state ∉ cache.keys := by
  rw [find?, List.lookup_eq_none_iff, keys, List.mem_map]
  constructor
  · rintro h ⟨entry, hentry, rfl⟩
    exact absurd (h entry hentry) (by simp)
  · intro h entry hentry
    rw [bne_iff_ne]
    rintro rfl
    exact h ⟨entry, hentry, rfl⟩

private theorem find?_eq_some_of_mem (hkeys : cache.keys.Nodup)
    (h : (state, shared) ∈ cache.entries) :
    cache.find? state = some shared := by
  obtain ⟨before, after, hentries⟩ := List.append_of_mem h
  refine List.lookup_eq_some_iff.2 ⟨before, after, hentries, fun entry hentry ↦ ?_⟩
  rw [keys, hentries, List.map_append, List.map_cons, List.nodup_append] at hkeys
  rw [bne_iff_ne]
  exact (hkeys.2.2 entry.1 (List.mem_map_of_mem hentry) state List.mem_cons_self).symm

theorem insertOrGet_of_find?_eq_some (h : cache.find? state = some held) :
    cache.insertOrGet state built = (held, cache) := by
  rw [insertOrGet, h]

private theorem insertOrGet_of_find?_eq_none (h : cache.find? state = none) :
    cache.insertOrGet state built
      = (built, { cache with entries := (state, built) :: cache.entries }) := by
  rw [insertOrGet, h]

private theorem keys_insertOrGet_of_find?_eq_some (h : cache.find? state = some held) :
    (cache.insertOrGet state built).2.keys = cache.keys := by
  rw [insertOrGet_of_find?_eq_some h]

private theorem keys_insertOrGet_of_find?_eq_none (h : cache.find? state = none) :
    (cache.insertOrGet state built).2.keys = state :: cache.keys := by
  rw [insertOrGet_of_find?_eq_none h]
  rfl

theorem find?_insertOrGet_self (cache : Cache) (state : StaticState) (built : Shared) :
    (cache.insertOrGet state built).2.find? state = some (cache.insertOrGet state built).1 := by
  cases h : cache.find? state with
  | none =>
    rw [insertOrGet_of_find?_eq_none h]
    exact List.lookup_cons_self
  | some held => rw [insertOrGet_of_find?_eq_some h, h]

theorem find?_insertOrGet_of_eq_some (h : cache.find? state' = some shared) :
    (cache.insertOrGet state built).2.find? state' = some shared := by
  cases hstate : cache.find? state with
  | none =>
    have hne : (state' == state) = false := by
      rw [beq_eq_false_iff_ne]
      rintro rfl
      exact nomatch h.symm.trans hstate
    rw [insertOrGet_of_find?_eq_none hstate, find?, List.lookup_cons, hne]
    exact h
  | some held => rw [insertOrGet_of_find?_eq_some hstate, h]

/-- A cache for a mode whose samplers have serials below a bound. -/
structure Sound (cache : Cache) (mode : Mode) (bound : Nat) : Prop where
  mode_eq : cache.mode = mode
  keys_nodup : cache.keys.Nodup
  /-- Every sampler is the one specialized for its key. -/
  sampler_eq : ∀ state shared, (state, shared) ∈ cache.entries →
    shared.sampler = .specialize state mode
  serial_lt : ∀ state shared, (state, shared) ∈ cache.entries → shared.serial < bound

variable {mode : Mode} {bound : Nat}

theorem sound_empty (mode : Mode) (bound : Nat) : (empty mode).Sound mode bound :=
  ⟨rfl, List.nodup_nil, fun _ _ h ↦ (List.not_mem_nil h).elim,
    fun _ _ h ↦ (List.not_mem_nil h).elim⟩

theorem Sound.clear (h : cache.Sound mode bound) : cache.clear.Sound mode bound :=
  ⟨h.mode_eq, List.nodup_nil, fun _ _ h ↦ (List.not_mem_nil h).elim,
    fun _ _ h ↦ (List.not_mem_nil h).elim⟩

/-- A caller who inserts the sampler it built, with the next serial, keeps the cache sound. -/
theorem Sound.insertOrGet (h : cache.Sound mode bound) (state : StaticState) :
    (cache.insertOrGet state (cache.specialized state bound)).2.Sound mode (bound + 1) := by
  cases hfind : cache.find? state with
  | some held =>
    rw [insertOrGet_of_find?_eq_some hfind]
    exact ⟨h.mode_eq, h.keys_nodup, h.sampler_eq,
      fun state shared hmem ↦ Nat.lt_succ_of_lt (h.serial_lt state shared hmem)⟩
  | none =>
    rw [insertOrGet_of_find?_eq_none hfind]
    refine ⟨h.mode_eq, List.nodup_cons.2 ⟨find?_eq_none_iff.1 hfind, h.keys_nodup⟩, ?_, ?_⟩
    · intro state' shared hmem
      rcases List.mem_cons.1 hmem with heq | hmem
      · obtain ⟨rfl, rfl⟩ := Prod.mk.inj heq
        rw [specialized, h.mode_eq]
      · exact h.sampler_eq state' shared hmem
    · intro state' shared hmem
      rcases List.mem_cons.1 hmem with heq | hmem
      · obtain ⟨rfl, rfl⟩ := Prod.mk.inj heq
        exact Nat.lt_succ_self bound
      · exact Nat.lt_succ_of_lt (h.serial_lt state' shared hmem)

theorem Sound.insertOrGet_eq_built_iff (h : cache.Sound mode bound) (state : StaticState) :
    cache.specialized state bound = (cache.insertOrGet state (cache.specialized state bound)).1 ↔
      cache.find? state = none := by
  cases hfind : cache.find? state with
  | none =>
    rw [insertOrGet_of_find?_eq_none hfind]
    exact ⟨fun _ ↦ rfl, fun _ ↦ rfl⟩
  | some held =>
    rw [insertOrGet_of_find?_eq_some hfind]
    constructor
    · -- a sampler that is held has an older serial
      intro heq
      have hlt := h.serial_lt state held (mem_of_find?_eq_some hfind)
      rw [show held = cache.specialized state bound from heq.symm] at hlt
      exact absurd hlt (Nat.lt_irrefl bound)
    · intro hnone
      exact nomatch hnone

end Cache

theorem Sampler.state_specialize (state : StaticState) (mode : Mode) :
    (specialize state mode).state = state := by
  cases mode with
  | nop => rfl
  | normal =>
    rw [specialize]
    split <;> rfl

namespace SharedCache

/-! ## Turns -/

/-- What a caller, or whoever clears the cache, does in one step. -/
inductive Turn (Caller : Type) where
  /-- A look-up that is answered. -/
  | found (caller : Caller) (state : StaticState) (shared : Shared)
  /-- A look-up that finds nothing. -/
  | missed (caller : Caller) (state : StaticState)
  /-- An insertion of the sampler that a caller built, and the sampler that the caller gets. -/
  | settled (caller : Caller) (state : StaticState) (built shared : Shared)
  | cleared
deriving DecidableEq

namespace Turn

variable {Caller : Type}

/-- The caller whose turn it is. -/
def caller? : Turn Caller → Option Caller
  | found caller .. | missed caller _ | settled caller .. => some caller
  | cleared => none

/-- The state of a call and the sampler it returns, if the turn is the last of the call. -/
def answer? : Turn Caller → Option (StaticState × Shared)
  | found _ state shared | settled _ state _ shared => some (state, shared)
  | missed .. | cleared => none

/-- The sampler built for the turn. -/
def built? : Turn Caller → Option Shared
  | settled _ _ built _ => some built
  | _ => none

/-- The state that the turn inserts: a caller who gets the sampler it built has inserted it. -/
def inserted? : Turn Caller → Option StaticState
  | settled _ state built shared => if built = shared then some state else none
  | _ => none

end Turn

/-- A cache and its callers. -/
structure World (Caller : Type) where
  cache : Cache
  /-- The state that a caller has missed and has yet to insert a sampler for. -/
  missed : Caller → Option StaticState
  /-- The serial of the next sampler that is built. -/
  nextSerial : Nat

variable {Caller : Type} [DecidableEq Caller]

namespace World

def start (mode : Mode) : World Caller := ⟨.empty mode, fun _ ↦ none, 0⟩

/-- The sampler that a caller builds for the state it has missed. -/
def built (w : World Caller) (state : StaticState) : Shared :=
  w.cache.specialized state w.nextSerial

/-- The world after a caller has missed a state. -/
def miss (w : World Caller) (caller : Caller) (state : StaticState) : World Caller :=
  { w with missed := Function.update w.missed caller (some state) }

/-- The world after a caller has inserted the sampler it built. -/
def settle (w : World Caller) (caller : Caller) (state : StaticState) : World Caller where
  cache := (w.cache.insertOrGet state (w.built state)).2
  missed := Function.update w.missed caller none
  nextSerial := w.nextSerial + 1

def clear (w : World Caller) : World Caller := { w with cache := w.cache.clear }

end World

/-- The turns that a world allows and what they lead to. -/
inductive Step : World Caller → Turn Caller → World Caller → Prop
  | found {w : World Caller} {caller : Caller} {state : StaticState} {shared : Shared}
      (idle : w.missed caller = none) (find : w.cache.find? state = some shared) :
      Step w (.found caller state shared) w
  | missed {w : World Caller} {caller : Caller} {state : StaticState}
      (idle : w.missed caller = none) (find : w.cache.find? state = none) :
      Step w (.missed caller state) (w.miss caller state)
  | settled {w : World Caller} {caller : Caller} {state : StaticState}
      (waiting : w.missed caller = some state) :
      Step w
        (.settled caller state (w.built state) (w.cache.insertOrGet state (w.built state)).1)
        (w.settle caller state)
  | cleared {w : World Caller} : Step w .cleared w.clear

/-- Turns one after the other, the latest first. -/
inductive Run (w : World Caller) : List (Turn Caller) → World Caller → Prop
  | start : Run w [] w
  | step {history : List (Turn Caller)} {turn : Turn Caller} {w' w'' : World Caller}
      (before : Run w history w') (last : Step w' turn w'') : Run w (turn :: history) w''

variable {mode : Mode} {history later earlier : List (Turn Caller)} {turn : Turn Caller}
  {w w' : World Caller} {caller : Caller} {state : StaticState} {shared : Shared}

private theorem Run.exists_of_append (h : Run w (later ++ earlier) w') :
    ∃ middle, Run w earlier middle ∧ Run middle later w' := by
  induction later generalizing w' with
  | nil => exact ⟨w', h, .start⟩
  | cons turn later ih =>
    cases h with
    | step before last =>
      obtain ⟨middle, hearlier, hlater⟩ := ih before
      exact ⟨middle, hearlier, .step hlater last⟩

private theorem Run.exists_step (h : Run w (later ++ turn :: earlier) w') :
    ∃ before after, Run w earlier before ∧ Step before turn after ∧ Run after later w' := by
  obtain ⟨after, hupto, hlater⟩ := h.exists_of_append
  cases hupto with
  | step before last => exact ⟨_, after, before, last, hlater⟩

theorem exists_step (w : World Caller) (caller : Caller) :
    (∀ state, w.missed caller = some state →
      ∃ built shared w', Step w (.settled caller state built shared) w') ∧
    (w.missed caller = none → ∀ state,
      (∃ shared w', Step w (.found caller state shared) w') ∨
        ∃ w', Step w (.missed caller state) w') := by
  refine ⟨fun state hwaiting ↦ ⟨_, _, _, .settled hwaiting⟩, fun hidle state ↦ ?_⟩
  cases hfind : w.cache.find? state with
  | some shared => exact .inl ⟨shared, w, .found hidle hfind⟩
  | none => exact .inr ⟨_, .missed hidle hfind⟩

/-- A caller whose turns nobody comes between does what `Cache.specialize` does. -/
theorem exists_run_specialize (hidle : w.missed caller = none) (state : StaticState) :
    ∃ turn history w', Run w (turn :: history) w' ∧
      turn.answer? = some (state, (w.cache.specialize state w.nextSerial).shared) ∧
        w'.cache = (w.cache.specialize state w.nextSerial).cache := by
  cases hfind : w.cache.find? state with
  | some shared =>
    refine ⟨_, [], w, .step .start (.found hidle hfind), ?_, ?_⟩ <;>
      simp only [Turn.answer?, Cache.specialize, hfind]
  | none =>
    have hwaiting : (w.miss caller state).missed caller = some state :=
      Function.update_self caller _ _
    refine ⟨_, _, _, .step (.step .start (.missed hidle hfind)) (.settled hwaiting), ?_, ?_⟩ <;>
      simp only [Turn.answer?, Cache.specialize, hfind] <;> rfl

/-! ## Samplers stay until a clear -/

private theorem Step.find?_of_answer? (h : Step w turn w')
    (hanswer : turn.answer? = some (state, shared)) :
    w'.cache.find? state = some shared := by
  cases h with
  | found idle find =>
    obtain ⟨rfl, rfl⟩ := Prod.mk.inj (Option.some.inj hanswer)
    exact find
  | settled waiting =>
    obtain ⟨rfl, rfl⟩ := Prod.mk.inj (Option.some.inj hanswer)
    exact Cache.find?_insertOrGet_self ..
  | missed | cleared => exact nomatch hanswer

private theorem Step.find?_eq_some (h : Step w turn w') (hturn : turn ≠ .cleared)
    (hfind : w.cache.find? state = some shared) : w'.cache.find? state = some shared := by
  cases h with
  | found | missed => exact hfind
  | settled => exact Cache.find?_insertOrGet_of_eq_some hfind
  | cleared => exact absurd rfl hturn

theorem Run.find?_eq_some (h : Run w later w') (hlater : .cleared ∉ later)
    (hfind : w.cache.find? state = some shared) : w'.cache.find? state = some shared := by
  induction h with
  | start => exact hfind
  | @step history turn _ _ _ last ih =>
    rw [List.mem_cons, not_or] at hlater
    exact last.find?_eq_some (fun heq ↦ hlater.1 heq.symm) (ih hlater.2)

theorem Run.shared_eq {between : List (Turn Caller)} {turn₁ turn₂ : Turn Caller}
    {shared₁ shared₂ : Shared} (h : Run w (later ++ turn₂ :: (between ++ turn₁ :: earlier)) w')
    (hbetween : .cleared ∉ between) (h₁ : turn₁.answer? = some (state, shared₁))
    (h₂ : turn₂.answer? = some (state, shared₂)) : shared₁ = shared₂ := by
  obtain ⟨before₂, after₂, hupto, hstep₂, -⟩ := h.exists_step
  obtain ⟨_, after₁, -, hstep₁, hrun⟩ := hupto.exists_step
  have hheld : before₂.cache.find? state = some shared₁ :=
    hrun.find?_eq_some hbetween (hstep₁.find?_of_answer? h₁)
  have hkept : after₂.cache.find? state = some shared₁ := by
    refine hstep₂.find?_eq_some ?_ hheld
    rintro rfl
    exact nomatch h₂
  exact Option.some.inj (hkept.symm.trans (hstep₂.find?_of_answer? h₂))

/-! ## What the turns tell -/

/-- The turns since the cache was last cleared. -/
def sinceClear (history : List (Turn Caller)) : List (Turn Caller) :=
  history.takeWhile (· ≠ .cleared)

/-- The latest turn of a caller. -/
def latest (caller : Caller) (history : List (Turn Caller)) : Option (Turn Caller) :=
  history.find? fun turn ↦ turn.caller? = some caller

private theorem sinceClear_cons (hturn : turn ≠ .cleared) (history : List (Turn Caller)) :
    sinceClear (turn :: history) = turn :: sinceClear history :=
  List.takeWhile_cons_of_pos (decide_eq_true hturn)

private theorem sinceClear_cleared (history : List (Turn Caller)) :
    sinceClear (.cleared :: history) = [] :=
  List.takeWhile_cons_of_neg (by simp)

private theorem latest_cons_self (h : turn.caller? = some caller) (history : List (Turn Caller)) :
    latest caller (turn :: history) = some turn :=
  List.find?_cons_of_pos (decide_eq_true h)

private theorem latest_cons_of_ne (h : turn.caller? ≠ some caller) (history : List (Turn Caller)) :
    latest caller (turn :: history) = latest caller history :=
  List.find?_cons_of_neg (by simpa using h)

/-- What holds of a world after its turns. -/
structure Kept (mode : Mode) (history : List (Turn Caller)) (w : World Caller) : Prop where
  sound : w.cache.Sound mode w.nextSerial
  keys_eq : w.cache.keys = (sinceClear history).filterMap Turn.inserted?
  missed_iff : ∀ caller state,
    w.missed caller = some state ↔ latest caller history = some (.missed caller state)
  serial_lt : ∀ built ∈ history.filterMap Turn.built?, built.serial < w.nextSerial
  serials_differ : (history.filterMap Turn.built?).Pairwise fun a b ↦ a.serial ≠ b.serial

theorem kept_start (mode : Mode) : Kept mode [] (.start mode : World Caller) where
  sound := Cache.sound_empty mode 0
  keys_eq := rfl
  missed_iff _ _ := ⟨nofun, nofun⟩
  serial_lt _ h := (List.not_mem_nil h).elim
  serials_differ := .nil

private theorem missed_iff_update (next : Option StaticState)
    (h : ∀ caller state,
      w.missed caller = some state ↔ latest caller history = some (.missed caller state))
    (hcaller : turn.caller? = some caller)
    (hnext : ∀ state, next = some state ↔ turn = .missed caller state) (other : Caller)
    (state : StaticState) :
    Function.update w.missed caller next other = some state ↔
      latest other (turn :: history) = some (.missed other state) := by
  by_cases hother : other = caller
  · rw [hother, Function.update_self, latest_cons_self hcaller, hnext, Option.some.injEq]
  · have hne : turn.caller? ≠ some other := by
      rw [hcaller]
      exact fun heq ↦ hother (Option.some.inj heq).symm
    rw [Function.update_of_ne hother, latest_cons_of_ne hne, h]

/-- Every step keeps what is to be kept. -/
theorem Kept.step (h : Kept mode history w) (hstep : Step w turn w') :
    Kept mode (turn :: history) w' := by
  cases hstep with
  | @found caller state shared idle find =>
    refine ⟨h.sound, ?_, fun other state' ↦ ?_, h.serial_lt, h.serials_differ⟩
    · rw [sinceClear_cons (by simp)]
      exact h.keys_eq
    · rw [← missed_iff_update none h.missed_iff rfl (by simp), ← idle,
        Function.update_eq_self]
  | missed idle find =>
    refine ⟨h.sound, ?_, missed_iff_update _ h.missed_iff rfl (by simp), h.serial_lt,
      h.serials_differ⟩
    rw [sinceClear_cons (by simp)]
    exact h.keys_eq
  | @settled caller state waiting =>
    refine ⟨h.sound.insertOrGet state, ?_, missed_iff_update _ h.missed_iff rfl (by simp), ?_, ?_⟩
    · rw [sinceClear_cons (by simp)]
      have hbuilt := h.sound.insertOrGet_eq_built_iff state
      -- the state is a new key exactly if the caller gets the sampler it built
      cases hfind : w.cache.find? state with
      | none =>
        have hinserted : Turn.inserted? (.settled caller state (w.built state)
            (w.cache.insertOrGet state (w.built state)).1) = some state :=
          if_pos (hbuilt.2 hfind)
        rw [List.filterMap_cons_some hinserted, ← h.keys_eq]
        exact Cache.keys_insertOrGet_of_find?_eq_none hfind
      | some held =>
        have hinserted : Turn.inserted? (.settled caller state (w.built state)
            (w.cache.insertOrGet state (w.built state)).1) = none :=
          if_neg fun heq ↦ nomatch hfind.symm.trans (hbuilt.1 heq)
        rw [List.filterMap_cons_none hinserted, ← h.keys_eq]
        exact Cache.keys_insertOrGet_of_find?_eq_some hfind
    · intro built hmem
      rcases List.mem_cons.1 hmem with rfl | hmem
      · exact Nat.lt_succ_self _
      · exact Nat.lt_succ_of_lt (h.serial_lt built hmem)
    · exact List.pairwise_cons.2
        ⟨fun built hmem ↦ Nat.ne_of_gt (h.serial_lt built hmem), h.serials_differ⟩
  | cleared =>
    refine ⟨h.sound.clear, ?_, fun caller state ↦ ?_, h.serial_lt, h.serials_differ⟩
    · rw [sinceClear_cleared]
      rfl
    · rw [latest_cons_of_ne (by simp [Turn.caller?])]
      exact h.missed_iff caller state

/-- What is to be kept is kept along every run. -/
theorem Run.kept (h : Run (.start mode) history w) : Kept mode history w := by
  induction h with
  | start => exact kept_start mode
  | step _ last ih => exact ih.step last

/-! ## Calls -/

/-- The sampler is the one for the state, with the path that the mode chooses. -/
def IsFor (shared : Shared) (state : StaticState) (mode : Mode) : Prop :=
  shared.sampler.state = state ∧ shared.sampler.path = (Sampler.specialize state mode).path

private theorem Kept.isFor_of_mem (h : Kept mode history w)
    (hmem : (state, shared) ∈ w.cache.entries) :
    IsFor shared state mode := by
  rw [IsFor, h.sound.sampler_eq state shared hmem]
  exact ⟨Sampler.state_specialize state mode, rfl⟩

theorem Run.isFor_of_answer? (h : Run (.start mode) (later ++ turn :: earlier) w)
    (hanswer : turn.answer? = some (state, shared)) : IsFor shared state mode := by
  obtain ⟨before, after, hearlier, hstep, -⟩ := h.exists_step
  have hkept := (hearlier.step hstep).kept
  exact hkept.isFor_of_mem (Cache.mem_of_find?_eq_some (hstep.find?_of_answer? hanswer))

private theorem Run.latest_of_settled {built : Shared}
    (h : Run (.start mode) (later ++ .settled caller state built shared :: earlier) w) :
    latest caller earlier = some (.missed caller state) := by
  obtain ⟨before, after, hearlier, hstep, -⟩ := h.exists_step
  cases hstep with
  | settled waiting => exact (hearlier.kept.missed_iff caller state).1 waiting

/-- The cache holds as many samplers as distinct states were inserted since the last clear. -/
theorem Kept.size_eq (h : Kept mode history w) :
    w.cache.size = ((sinceClear history).filterMap Turn.inserted?).dedup.length := by
  rw [← h.keys_eq, h.sound.keys_nodup.dedup, Cache.keys, List.length_map]
  rfl

/-- **Callers of a shared cache hold one sampler for each state.** Whatever callers do, in whichever
order their look-ups and insertions come and wherever the cache is cleared in between:
every entry is found under its key and is for its key; it stays the entry of its key until a clear;
callers always can go on, insert for the state they missed, and get a sampler for the state they
asked for; two calls for one state with no clear between their ends return one object, objects
differing in their serials; and the size of the cache is the number of distinct states inserted
since the last clear. -/
theorem calls_share_samplers (h : Run (.start mode) history w) :
    (∀ state shared, (state, shared) ∈ w.cache.entries →
      w.cache.find? state = some shared ∧ IsFor shared state mode) ∧
    (∀ later w', Run w later w' → .cleared ∉ later → ∀ state shared,
      w.cache.find? state = some shared → w'.cache.find? state = some shared) ∧
    (∀ caller, (∀ state, w.missed caller = some state →
        ∃ built shared w', Step w (.settled caller state built shared) w') ∧
      (w.missed caller = none → ∀ state,
        (∃ shared w', Step w (.found caller state shared) w') ∨
          ∃ w', Step w (.missed caller state) w')) ∧
    (∀ later earlier caller state built shared,
      history = later ++ .settled caller state built shared :: earlier →
        latest caller earlier = some (.missed caller state)) ∧
    (∀ later turn earlier state shared, history = later ++ turn :: earlier →
      turn.answer? = some (state, shared) → IsFor shared state mode) ∧
    (∀ later turn₂ between turn₁ earlier state shared₁ shared₂,
      history = later ++ turn₂ :: (between ++ turn₁ :: earlier) → .cleared ∉ between →
        turn₁.answer? = some (state, shared₁) → turn₂.answer? = some (state, shared₂) →
          shared₁ = shared₂) ∧
    (history.filterMap Turn.built?).Pairwise (fun a b ↦ a.serial ≠ b.serial) ∧
    w.cache.size = ((sinceClear history).filterMap Turn.inserted?).dedup.length := by
  have hkept := h.kept
  refine ⟨?_, ?_, exists_step w, ?_, ?_, ?_, hkept.serials_differ, hkept.size_eq⟩
  · intro state shared hmem
    exact ⟨Cache.find?_eq_some_of_mem hkept.sound.keys_nodup hmem, hkept.isFor_of_mem hmem⟩
  · intro later w' hlater hclear state shared hfind
    exact hlater.find?_eq_some hclear hfind
  · rintro later earlier caller state built shared rfl
    exact h.latest_of_settled
  · rintro later turn earlier state shared rfl hanswer
    exact h.isFor_of_answer? hanswer
  · rintro later turn₂ between turn₁ earlier state shared₁ shared₂ rfl hbetween h₁ h₂
    exact h.shared_eq hbetween h₁ h₂

/-- Two callers miss one state and both build a sampler. The second to insert gets what the first
one built. -/
theorem calls_share_samplers_race :
    let state := Binding.checker.staticState .plain
    let built (serial : Nat) : Shared := ⟨serial, .specialize state .normal⟩
    let history : List (Turn Bool) :=
      [.settled true state (built 1) (built 0), .settled false state (built 0) (built 0),
        .missed true state, .missed false state]
    ∃ w, Run (.start .normal) history w ∧ w.cache.size = 1 ∧
      IsFor (built 0) state .normal ∧ latest true (history.drop 1) = some (.missed true state) := by
  intro state built history
  have hrun : Run (.start .normal) history _ :=
    .step (.step (.step (.step .start (.missed rfl rfl)) (.missed rfl rfl)) (.settled rfl))
      (.settled rfl)
  obtain ⟨-, -, -, hlatest, hfor, -, -, hsize⟩ := calls_share_samplers hrun
  exact ⟨_, hrun, hsize, hfor [] _ _ state (built 0) rfl rfl,
    hlatest [] _ true state (built 1) (built 0) rfl⟩

end SharedCache

end QuadSampler
