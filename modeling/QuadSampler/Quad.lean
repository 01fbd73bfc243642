/-!
# Quads and axes

A sampling call works on four lanes, the pixels of a two by two square. `Quad` holds one value per
lane. What the sampler does to a lane is written for one lane and lifted by `Quad.ofFn`, or by
`Quad.ofFnM` where it may fail; `Quad.any` is the one place where lanes see each other, apart from
the differences `Quad.across` and `Quad.down` that stand in for screen-space derivatives.

Coordinates, extents and wrap modes come in threes, one for each axis of a texture (`Axes`). A
texture with fewer dimensions uses the first axes only.
-/

namespace QuadSampler

universe u v w

/-- One value for each pixel of a two by two square. -/
structure Quad (α : Type u) where
  topLeft : α
  topRight : α
  bottomLeft : α
  bottomRight : α
deriving DecidableEq, Repr

namespace Quad

variable {α : Type u} {β : Type v} {γ : Type w}

/-- The value in a lane; lanes go row by row. -/
def get (q : Quad α) : Fin 4 → α
  | 0 => q.topLeft
  | 1 => q.topRight
  | 2 => q.bottomLeft
  | 3 => q.bottomRight

/-- The quad with the given value in each lane. -/
def ofFn (f : Fin 4 → α) : Quad α := ⟨f 0, f 1, f 2, f 3⟩

/-- The quad of what each lane's computation gives, if all of them succeed. -/
def ofFnM {m : Type u → Type v} [Monad m] (f : Fin 4 → m α) : m (Quad α) := do
  let topLeft ← f 0
  let topRight ← f 1
  let bottomLeft ← f 2
  let bottomRight ← f 3
  return ⟨topLeft, topRight, bottomLeft, bottomRight⟩

def splat (a : α) : Quad α := ⟨a, a, a, a⟩

def map (f : α → β) (q : Quad α) : Quad β := ofFn fun i ↦ f (q.get i)

def zipWith (f : α → β → γ) (p : Quad α) (q : Quad β) : Quad γ := ofFn fun i ↦ f (p.get i) (q.get i)

def toList (q : Quad α) : List α := [q.topLeft, q.topRight, q.bottomLeft, q.bottomRight]

def any (q : Quad α) (p : α → Bool) : Bool := q.toList.any p

def all (q : Quad α) (p : α → Bool) : Bool := q.toList.all p

/-- How much the value grows from the left to the right of the top row. -/
def across [Sub α] (q : Quad α) : α := q.topRight - q.topLeft

/-- How much the value grows from the top to the bottom of the left column. -/
def down [Sub α] (q : Quad α) : α := q.bottomLeft - q.topLeft

instance [Inhabited α] : Inhabited (Quad α) := ⟨splat default⟩

/-- The first quad in the lanes that the mask selects, the second in the others. -/
def select (mask : Quad Bool) (p q : Quad α) : Quad α :=
  ofFn fun i ↦ if mask.get i then p.get i else q.get i

/-! ## Arithmetic in all lanes -/

instance [Add α] : Add (Quad α) := ⟨zipWith (· + ·)⟩
instance [Sub α] : Sub (Quad α) := ⟨zipWith (· - ·)⟩
instance [Mul α] : Mul (Quad α) := ⟨zipWith (· * ·)⟩
instance [Div α] : Div (Quad α) := ⟨zipWith (· / ·)⟩
instance [Neg α] : Neg (Quad α) := ⟨map (- ·)⟩
instance [AndOp α] : AndOp (Quad α) := ⟨zipWith (· &&& ·)⟩
instance [OrOp α] : OrOp (Quad α) := ⟨zipWith (· ||| ·)⟩

/-! ## Lanes of the operations -/

@[ext]
theorem ext_get {p q : Quad α} (h : ∀ i, p.get i = q.get i) : p = q := by
  cases p
  cases q
  simpa using ⟨h 0, h 1, h 2, h 3⟩

@[simp]
theorem get_ofFn (f : Fin 4 → α) (i : Fin 4) : (ofFn f).get i = f i := by
  match i with
  | 0 | 1 | 2 | 3 => rfl

@[simp]
theorem get_map (f : α → β) (q : Quad α) (i : Fin 4) : (q.map f).get i = f (q.get i) := by
  simp [map]

@[simp]
theorem get_zipWith (f : α → β → γ) (p : Quad α) (q : Quad β) (i : Fin 4) :
    (zipWith f p q).get i = f (p.get i) (q.get i) := by
  simp [zipWith]

@[simp]
theorem get_splat (a : α) (i : Fin 4) : (splat a).get i = a := by
  match i with
  | 0 | 1 | 2 | 3 => rfl

theorem get_mem_toList (q : Quad α) (i : Fin 4) : q.get i ∈ q.toList := by
  match i with
  | 0 | 1 | 2 | 3 => simp [toList, get]

theorem any_of_get {p : α → Bool} {q : Quad α} (i : Fin 4) (h : p (q.get i) = true) :
    q.any p = true :=
  List.any_eq_true.2 ⟨_, q.get_mem_toList i, h⟩

theorem any_congr {p : Quad α} {q : Quad β} {f : α → Bool} {g : β → Bool}
    (h : ∀ i, f (p.get i) = g (q.get i)) : p.any f = q.any g := by
  have h₀ : f p.topLeft = g q.topLeft := h 0
  have h₁ : f p.topRight = g q.topRight := h 1
  have h₂ : f p.bottomLeft = g q.bottomLeft := h 2
  have h₃ : f p.bottomRight = g q.bottomRight := h 3
  simp only [any, toList, List.any_cons, List.any_nil, h₀, h₁, h₂, h₃]

end Quad

/-! ## Axes -/

/-- One value for each axis of a texture. -/
structure Axes (α : Type u) where
  /-- Along the rows. -/
  s : α
  /-- Along the columns. -/
  t : α
  /-- Through the slices. -/
  r : α
deriving DecidableEq, Repr

namespace Axes

variable {α : Type u} {β : Type v} {γ : Type w}

def splat (a : α) : Axes α := ⟨a, a, a⟩

def map (f : α → β) (a : Axes α) : Axes β := ⟨f a.s, f a.t, f a.r⟩

def zipWith (f : α → β → γ) (a : Axes α) (b : Axes β) : Axes γ := ⟨f a.s b.s, f a.t b.t, f a.r b.r⟩

def toList (a : Axes α) : List α := [a.s, a.t, a.r]

/-- The values of the first `dims` axes. -/
def active (dims : Nat) (a : Axes α) : List α := a.toList.take dims

instance [Inhabited α] : Inhabited (Axes α) := ⟨splat default⟩

instance [Sub α] : Sub (Axes α) := ⟨zipWith (· - ·)⟩

/-! ## Axes by number -/

/-- The value for the axis with the given number. -/
def get (a : Axes α) : Fin 3 → α
  | 0 => a.s
  | 1 => a.t
  | 2 => a.r

/-- The triple with the value for one axis replaced. -/
def set (a : Axes α) (axis : Fin 3) (v : α) : Axes α :=
  match axis with
  | 0 => { a with s := v }
  | 1 => { a with t := v }
  | 2 => { a with r := v }

@[simp]
theorem get_zero (a : Axes α) : a.get 0 = a.s := rfl

@[simp]
theorem get_one (a : Axes α) : a.get 1 = a.t := rfl

@[simp]
theorem get_two (a : Axes α) : a.get 2 = a.r := rfl

@[simp]
theorem get_set_self (a : Axes α) (axis : Fin 3) (v : α) : (a.set axis v).get axis = v := by
  match axis with
  | 0 | 1 | 2 => rfl

theorem get_set_of_ne (a : Axes α) {axis other : Fin 3} (h : axis ≠ other) (v : α) :
    (a.set other v).get axis = a.get axis := by
  match axis, other with
  | 0, 1 | 0, 2 | 1, 0 | 1, 2 | 2, 0 | 2, 1 => rfl
  | 0, 0 | 1, 1 | 2, 2 => exact absurd rfl h

@[simp]
theorem get_map (f : α → β) (a : Axes α) (axis : Fin 3) : (a.map f).get axis = f (a.get axis) := by
  match axis with
  | 0 | 1 | 2 => rfl

@[simp]
theorem get_splat (a : α) (axis : Fin 3) : (splat a).get axis = a := by
  match axis with
  | 0 | 1 | 2 => rfl

@[ext]
theorem ext_get {a b : Axes α} (h : ∀ axis, a.get axis = b.get axis) : a = b := by
  cases a
  cases b
  simpa using ⟨h 0, h 1, h 2⟩

end Axes

end QuadSampler
