/-!
# Single-precision numbers

The number type that every coordinate, level of detail, weight and colour of the sampler is held
in. A `Single` is one not-a-number, one of two infinities, or a sign and a magnitude. Magnitudes
are natural numbers that count steps of `2⁻¹⁴⁹`, the smallest positive number, so `gridPerOne`
steps make one, and a finite number is an exact integer on that grid. The constructor for finite
numbers carries the proof that its magnitude fits a significand of 24 bits.

Arithmetic has two parts. An operation first finds its exact result as a quotient of two natural
numbers of steps; then one function, `Single.round`, takes the quotient to the nearest number, an
exact tie going to the even significand. Whatever rounds in this library rounds there.

A number is exchanged with texel storage and with callers as a word of 32 bits: a sign, eight bits
of exponent and 23 bits of fraction. `Single.ofBits` reads a word and `Single.toBits` writes one;
every not-a-number is written as the one quiet pattern. The binary logarithm, the only operation
that is not rounded exactly, is the platform's and goes through the bit patterns.
-/

namespace QuadSampler

/-- Powers of numbers are those of `NatPow`, whatever other powers a module has in scope. -/
@[default_instance 20000]
instance instPowOfNatPow {α : Type} [NatPow α] : Pow α Nat := instPowNat

namespace Single

/-- Grid steps in one. -/
def gridPerOne : Nat := 2 ^ 149

/-- The least magnitude beyond every finite number, the steps in `2¹²⁸`. A result that rounds to it
or past it is infinite. -/
def overflow : Nat := 2 ^ 128 * gridPerOne

/-- Magnitudes of finite numbers: below `overflow`, and a significand of at most 24 bits times a
power of two. -/
def Representable (n : Nat) : Prop := n < overflow ∧ ∃ m e, m < 2 ^ 24 ∧ n = m * 2 ^ e

end Single

/-- A single-precision number. Zeros have a sign; all not-a-numbers are one. -/
inductive Single where
  /-- The result of an operation that has none. -/
  | nan
  /-- An infinity, `negative` or not. -/
  | infinite (negative : Bool)
  /-- The number of `magnitude` grid steps, `negative` or not. -/
  | finite (negative : Bool) (magnitude : Nat) (representable : Single.Representable magnitude)
deriving DecidableEq

namespace Single

/-! ## Rounding -/

/-- Distance in grid steps between the representable magnitudes around `n`. It is one step up to
`2 ^ 24`, and doubles at every power of two from there. -/
def spacing (n : Nat) : Nat := 2 ^ (n.log2 - 23)

/-- The integer nearest to `a / b`, an exact tie going to the even one. -/
def nearestEven (a b : Nat) : Nat :=
  let q := a / b
  let r := a % b
  if 2 * r < b ∨ (2 * r = b ∧ q % 2 = 0) then q else q + 1

/-- The multiple of the spacing around `a / b` that is nearest to `a / b`. No upper limit is
applied. -/
def roundMagnitude (a b : Nat) : Nat :=
  let step := spacing (a / b)
  nearestEven a (b * step) * step

theorem le_nearestEven (a b : Nat) : a / b ≤ nearestEven a b := by
  simp only [nearestEven]
  split <;> omega

theorem nearestEven_le (a b : Nat) : nearestEven a b ≤ a / b + 1 := by
  simp only [nearestEven]
  split <;> omega

theorem div_spacing_lt (n : Nat) : n / spacing n < 2 ^ 24 := by
  apply Nat.div_lt_of_lt_mul
  calc n < 2 ^ (n.log2 + 1) := Nat.lt_log2_self
    _ ≤ 2 ^ (n.log2 - 23 + 24) := Nat.pow_le_pow_right (by decide) (by omega)
    _ = spacing n * 2 ^ 24 := Nat.pow_add ..

/-- Rounding leaves a significand of at most 24 bits: the quotient by the spacing is below
`2 ^ 24`, and when it rounds up to `2 ^ 24` the spacing doubles. -/
theorem roundMagnitude_eq (a b : Nat) : ∃ m e, m < 2 ^ 24 ∧ roundMagnitude a b = m * 2 ^ e := by
  have hq : a / (b * spacing (a / b)) < 2 ^ 24 := by
    rw [← Nat.div_div_eq_div_mul]
    exact div_spacing_lt (a / b)
  have hle := nearestEven_le a (b * spacing (a / b))
  by_cases h : nearestEven a (b * spacing (a / b)) < 2 ^ 24
  · exact ⟨_, (a / b).log2 - 23, h, rfl⟩
  · have htop : nearestEven a (b * spacing (a / b)) = 2 ^ 24 := by omega
    refine ⟨2 ^ 23, (a / b).log2 - 23 + 1, by decide, ?_⟩
    rw [roundMagnitude, htop, spacing, Nat.pow_succ 2 ((a / b).log2 - 23)]
    omega

/-- The number nearest to `a / b` grid steps, with the given sign. -/
def round (negative : Bool) (a b : Nat) : Single :=
  if h : roundMagnitude a b < overflow then
    finite negative (roundMagnitude a b) ⟨h, roundMagnitude_eq a b⟩
  else infinite negative

theorem representable_roundMagnitude {a b : Nat} (h : roundMagnitude a b < overflow) :
    Representable (roundMagnitude a b) := ⟨h, roundMagnitude_eq a b⟩

theorem round_of_lt (s : Bool) {a b : Nat} (h : roundMagnitude a b < overflow) :
    round s a b = finite s (roundMagnitude a b) (representable_roundMagnitude h) := dif_pos h

theorem round_of_le (s : Bool) {a b : Nat} (h : overflow ≤ roundMagnitude a b) :
    round s a b = infinite s := dif_neg (Nat.not_lt.2 h)

/-! ## Numbers from integers -/

def ofNat (n : Nat) : Single := round false (n * gridPerOne) 1

instance (n : Nat) : OfNat Single n := ⟨ofNat n⟩

instance : Inhabited Single := ⟨0⟩

/-- The number nearest to a 32-bit integer. -/
def ofInt32 (i : Int32) : Single := round (i.toInt < 0) (i.toInt.natAbs * gridPerOne) 1

def half : Single := round false gridPerOne 2

/-! ## Signs -/

/-- Negation turns the sign, of zeros and infinities too. -/
def neg : Single → Single
  | nan => nan
  | infinite s => infinite !s
  | finite s m h => finite (!s) m h

def abs : Single → Single
  | nan => nan
  | infinite _ => infinite false
  | finite _ m h => finite false m h

instance : Neg Single := ⟨neg⟩

@[simp]
theorem abs_infinite (s : Bool) : (infinite s).abs = infinite false := rfl

@[simp]
theorem abs_finite (s : Bool) {m : Nat} (hm : Representable m) :
    (finite s m hm).abs = finite false m hm := rfl

/-- The integer of the given magnitude and sign. -/
def signed (negative : Bool) (m : Nat) : Int := if negative then -(m : Int) else m

/-! ## Order -/

/-- Place of a number on the line of grid steps, the infinities standing at the two ends. Both
zeros have one place, and only not-a-number has none. -/
def position : Single → Option Int
  | nan => none
  | infinite s => some (signed s overflow)
  | finite s m _ => some (signed s m)

@[simp]
theorem position_nan : nan.position = none := rfl

@[simp]
theorem position_infinite (s : Bool) : (infinite s).position = some (signed s overflow) := rfl

@[simp]
theorem position_finite (s : Bool) (m : Nat) (hm : Representable m) :
    (finite s m hm).position = some (signed s m) := rfl

/-- Whether the places of two numbers are in the given relation. It is false of not-a-number. -/
def related (r : Int → Int → Bool) (x y : Single) : Bool :=
  match x.position, y.position with
  | some a, some b => r a b
  | _, _ => false

theorem related_finite (r : Int → Int → Bool) (s t : Bool) {m n : Nat} (hm : Representable m)
    (hn : Representable n) :
    related r (finite s m hm) (finite t n hn) = r (signed s m) (signed t n) := rfl

def lt (x y : Single) : Bool := related (· < ·) x y

def le (x y : Single) : Bool := related (· ≤ ·) x y

/-- At the same place: the zeros are the same number, and not-a-number is not the same number as
itself. -/
def same (x y : Single) : Bool := related (· == ·) x y

/-- The greater of two numbers. A not-a-number is passed over, and of two numbers at the same place
the first is kept. -/
def maximum (x y : Single) : Single := if x = nan ∨ x.lt y then y else x

/-- The smaller of two numbers. A not-a-number is passed over, and of two numbers at the same place
the first is kept. -/
def minimum (x y : Single) : Single := if x = nan ∨ y.lt x then y else x

/-- The number moved into the range from `lo` to `hi`. Not-a-number goes to `lo`, and where the
bounds cross, `hi` wins. -/
def clamp (x lo hi : Single) : Single := (x.maximum lo).minimum hi

/-! ## Arithmetic -/

/-- The rounded sum. A sum that is exactly zero is positive unless both terms are negative. -/
def add : Single → Single → Single
  | nan, _ => nan
  | _, nan => nan
  | infinite s, infinite t => if s = t then infinite s else nan
  | infinite s, finite .. => infinite s
  | finite .., infinite t => infinite t
  | finite s m _, finite t n _ =>
    let sum := signed s m + signed t n
    round (if sum = 0 then s && t else sum < 0) sum.natAbs 1

/-- The rounded product. Zero times infinity has no result. -/
def mul : Single → Single → Single
  | nan, _ => nan
  | _, nan => nan
  | infinite s, infinite t => infinite (s ^^ t)
  | infinite s, finite t n _ => if n = 0 then nan else infinite (s ^^ t)
  | finite s m _, infinite t => if m = 0 then nan else infinite (s ^^ t)
  | finite s m _, finite t n _ => round (s ^^ t) (m * n) gridPerOne

/-- The rounded quotient. Zero by zero and infinity by infinity have no result; any other number
by zero is infinite. -/
def div : Single → Single → Single
  | nan, _ => nan
  | _, nan => nan
  | infinite _, infinite _ => nan
  | infinite s, finite t _ _ => infinite (s ^^ t)
  | finite s _ _, infinite t => round (s ^^ t) 0 1
  | finite s m _, finite t n _ =>
    if n = 0 then if m = 0 then nan else infinite (s ^^ t)
    else round (s ^^ t) (m * gridPerOne) n

instance : Add Single := ⟨add⟩
instance : Sub Single := ⟨fun x y ↦ x + -y⟩
instance : Mul Single := ⟨mul⟩
instance : Div Single := ⟨div⟩

theorem add_def (x y : Single) : x + y = add x y := rfl

theorem mul_def (x y : Single) : x * y = mul x y := rfl

theorem div_def (x y : Single) : x / y = div x y := rfl

theorem finite_add_finite (s t : Bool) {m n : Nat} (hm : Representable m) (hn : Representable n) :
    finite s m hm + finite t n hn
      = round (if signed s m + signed t n = 0 then s && t else signed s m + signed t n < 0)
          (signed s m + signed t n).natAbs 1 := by
  rw [add_def, add]

theorem finite_mul_finite (s t : Bool) {m n : Nat} (hm : Representable m) (hn : Representable n) :
    finite s m hm * finite t n hn = round (s ^^ t) (m * n) gridPerOne := by
  rw [mul_def, mul]

theorem infinite_mul_finite (s t : Bool) {n : Nat} (hn : Representable n) :
    infinite s * finite t n hn = if n = 0 then nan else infinite (s ^^ t) := by
  rw [mul_def, mul]

theorem finite_mul_infinite (s t : Bool) {m : Nat} (hm : Representable m) :
    finite s m hm * infinite t = if m = 0 then nan else infinite (s ^^ t) := by
  rw [mul_def, mul]

theorem finite_div_finite (s t : Bool) {m n : Nat} (hm : Representable m) (hn : Representable n) :
    finite s m hm / finite t n hn
      = if n = 0 then if m = 0 then nan else infinite (s ^^ t)
        else round (s ^^ t) (m * gridPerOne) n := by
  rw [div_def, div]

/-! ## Integers from numbers -/

/-- The greatest integer not above the number. A zero keeps its sign, and what is not finite stays
as it is. -/
def floor : Single → Single
  | finite s m _ =>
    let whole := if s then (m + gridPerOne - 1) / gridPerOne else m / gridPerOne
    round s (whole * gridPerOne) 1
  | x => x

/-- What is left of the number above its floor. -/
def fract (x : Single) : Single := x - x.floor

/-- The nearest integer, a half going away from zero. The sign is kept. -/
def roundAway : Single → Single
  | finite s m _ => round s ((2 * m + gridPerOne) / (2 * gridPerOne) * gridPerOne) 1
  | x => x

/-- The integer `i` moved into the 32-bit range. -/
def saturate (i : Int) : Int32 := Int32.ofInt (max (-2 ^ 31) (min (2 ^ 31 - 1) i))

/-- The number cut to an integer, moved into the 32-bit range. Not-a-number gives zero. -/
def toInt32 : Single → Int32
  | nan => 0
  | infinite s => saturate (signed s (2 ^ 31))
  | finite s m _ => saturate (signed s (m / gridPerOne))

theorem toInt32_finite (s : Bool) {m : Nat} (hm : Representable m) :
    (finite s m hm).toInt32 = saturate (signed s (m / gridPerOne)) := rfl

/-- The floor as a 32-bit integer, moved into range. -/
def floorInt32 (x : Single) : Int32 := x.floor.toInt32

/-- The number cut to an integer, moved into the range of a byte. Not-a-number gives zero. -/
def toUInt8 : Single → UInt8
  | nan => 0
  | infinite s => if s then 0 else 255
  | finite s m _ => if s then 0 else UInt8.ofNat (min 255 (m / gridPerOne))

/-! ## Bit patterns -/

theorem representable_of_lt {m : Nat} (h : m < 2 ^ 24) : Representable m :=
  ⟨Nat.lt_trans h (by decide), m, 0, h, by omega⟩

theorem representable_mul_pow {m e : Nat} (hm : m < 2 ^ 24) (he : e ≤ 253) :
    Representable (m * 2 ^ e) := by
  refine ⟨?_, m, e, hm, rfl⟩
  calc m * 2 ^ e < 2 ^ 24 * 2 ^ e := Nat.mul_lt_mul_of_pos_right hm (Nat.two_pow_pos e)
    _ ≤ 2 ^ 24 * 2 ^ 253 := Nat.mul_le_mul_left _ (Nat.pow_le_pow_right (by decide) he)
    _ = overflow := by decide

/-- The number that a word of 32 bits stands for. -/
def ofBits (word : UInt32) : Single :=
  let negative : Bool := 2 ^ 31 ≤ word.toNat
  let exponent := word.toNat / 2 ^ 23 % 256
  let fraction := word.toNat % 2 ^ 23
  have hf : fraction < 2 ^ 23 := Nat.mod_lt _ (by decide)
  if hinf : exponent = 255 then
    if fraction = 0 then infinite negative else nan
  else if exponent = 0 then
    finite negative fraction (representable_of_lt (by omega))
  else
    finite negative ((2 ^ 23 + fraction) * 2 ^ (exponent - 1))
      (representable_mul_pow (by omega) (by omega))

/-- The 31 bits below the sign. A magnitude with spacing `2 ^ e` is written as `e` followed by its
significand; the leading bit of the significand, where there is one, carries into the exponent. -/
def magnitudeBits (m : Nat) : Nat :=
  let e := m.log2 - 23
  e * 2 ^ 23 + m / 2 ^ e

/-- The word of 32 bits that stands for a number. -/
def toBits : Single → UInt32
  | nan => 0x7fc00000
  | infinite s => (if s then 0x80000000 else 0) + 0x7f800000
  | finite s m _ => (if s then 0x80000000 else 0) + UInt32.ofNat (magnitudeBits m)

/-- The platform's binary logarithm. -/
def log2 (x : Single) : Single := ofBits (Float32.ofBits x.toBits).log2.toBits

end Single

end QuadSampler
