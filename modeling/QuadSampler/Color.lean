import QuadSampler.Single.Basic

/-!
# Colours

A colour has four channels. The channels hold numbers while a colour is filtered, bytes where it
is stored or blended in fixed point. A swizzle says, for each channel of its result, which channel
or constant it takes.
-/

namespace QuadSampler

universe u v w

/-- One value for each colour channel. -/
structure Color (α : Type u) where
  red : α
  green : α
  blue : α
  alpha : α
deriving DecidableEq, Repr

namespace Color

variable {α : Type u} {β : Type v} {γ : Type w}

def splat (a : α) : Color α := ⟨a, a, a, a⟩

def map (f : α → β) (c : Color α) : Color β := ⟨f c.red, f c.green, f c.blue, f c.alpha⟩

def zipWith (f : α → β → γ) (c : Color α) (d : Color β) : Color γ :=
  ⟨f c.red d.red, f c.green d.green, f c.blue d.blue, f c.alpha d.alpha⟩

def toList (c : Color α) : List α := [c.red, c.green, c.blue, c.alpha]

instance [Inhabited α] : Inhabited (Color α) := ⟨splat default⟩

def get (c : Color α) : Fin 4 → α
  | 0 => c.red
  | 1 => c.green
  | 2 => c.blue
  | 3 => c.alpha

@[simp]
theorem get_map (f : α → β) (c : Color α) (channel : Fin 4) :
    (c.map f).get channel = f (c.get channel) := by
  match channel with
  | 0 | 1 | 2 | 3 => rfl

@[simp]
theorem get_zipWith (f : α → β → γ) (c : Color α) (d : Color β) (channel : Fin 4) :
    (c.zipWith f d).get channel = f (c.get channel) (d.get channel) := by
  match channel with
  | 0 | 1 | 2 | 3 => rfl

@[ext]
theorem ext_get {c d : Color α} (h : ∀ channel, c.get channel = d.get channel) : c = d := by
  cases c
  cases d
  simpa using ⟨h 0, h 1, h 2, h 3⟩

end Color

/-! ## Swizzles -/

/-- Where a channel takes its value from: one of the four channels, or a constant. -/
inductive Selector where
  | x | y | z | w | zero | one
deriving DecidableEq, Repr

namespace Selector

def name : Selector → String
  | x => "X"
  | y => "Y"
  | z => "Z"
  | w => "W"
  | zero => "Zero"
  | one => "One"

/-- The selected value, with the two constants given. -/
def select {α : Type u} (zeroValue oneValue : α) (c : Color α) : Selector → α
  | x => c.red
  | y => c.green
  | z => c.blue
  | w => c.alpha
  | zero => zeroValue
  | one => oneValue

theorem select_map {α : Type u} {β : Type v} (f : α → β) (zeroValue oneValue : α)
    (c : Color α) (selector : Selector) :
    select (f zeroValue) (f oneValue) (c.map f) selector
      = f (select zeroValue oneValue c selector) := by
  cases selector <;> rfl

end Selector

/-- A selector for each channel. -/
abbrev Swizzle := Color Selector

namespace Swizzle

def identity : Swizzle := ⟨.x, .y, .z, .w⟩

/-- The colour with each channel taken where the swizzle says. -/
def apply {α : Type u} (swizzle : Swizzle) (zeroValue oneValue : α) (c : Color α) : Color α :=
  swizzle.map (Selector.select zeroValue oneValue c)

@[simp]
theorem apply_identity {α : Type u} (zeroValue oneValue : α) (c : Color α) :
    identity.apply zeroValue oneValue c = c := rfl

theorem apply_map {α : Type u} {β : Type v} (f : α → β) (swizzle : Swizzle)
    (zeroValue oneValue : α) (c : Color α) :
    swizzle.apply (f zeroValue) (f oneValue) (c.map f)
      = (swizzle.apply zeroValue oneValue c).map f := by
  ext channel
  rw [apply, apply, Color.get_map, Color.get_map, Color.get_map, Selector.select_map]

theorem select_apply {α : Type} (zeroValue oneValue : α) (swizzle : Swizzle) (c : Color α)
    (channel : Selector) :
    Selector.select zeroValue oneValue (swizzle.apply zeroValue oneValue c) channel
      = Selector.select zeroValue oneValue c (Selector.select .zero .one swizzle channel) := by
  cases channel <;> rfl

end Swizzle

/-! ## Eight-bit colours -/

/-- The byte as a number between zero and one. -/
def byteToUnit (b : UInt8) : Single := Single.ofNat b.toNat / 255

/-- The byte nearest to 255 times a number, which is first moved between zero and one.
Not-a-number gives zero. -/
def unitToByte (x : Single) : UInt8 :=
  (((if x.lt 0 then 0 else if Single.lt 1 x then 1 else x) * 255) + Single.half).toUInt8

namespace Color

/-- The colour as one word, red in the lowest byte. -/
def pack (c : Color UInt8) : UInt32 :=
  c.red.toUInt32 ||| c.green.toUInt32 <<< 8 ||| c.blue.toUInt32 <<< 16 ||| c.alpha.toUInt32 <<< 24

/-- The colour whose word is given. -/
def unpack (word : UInt32) : Color UInt8 :=
  ⟨word.toUInt8, (word >>> 8).toUInt8, (word >>> 16).toUInt8, (word >>> 24).toUInt8⟩

def toUnit (c : Color UInt8) : Color Single := c.map byteToUnit

def toBytes (c : Color Single) : Color UInt8 := c.map unitToByte

end Color

end QuadSampler
