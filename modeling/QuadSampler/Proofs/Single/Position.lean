import QuadSampler.Proofs.Single.Rounding
import QuadSampler.Single.Basic

/-!
# Arithmetic on the line of grid steps

`Single.position` places a number on the integers, and here every operation is described by what it
does to places. The exact result of an operation is an integer quotient `z / b`; `place z b` is
where the rounded result stands, the infinities being the two ends of the line. Being monotone and
fixing representable integers, `place` turns questions about rounded arithmetic into comparisons of
integers.

Floors are exact: the floor of a number is representable, so `floorInt32` of a number at `z` is the
floor quotient of `z` by the grid, moved into the range of a word.
-/

namespace QuadSampler

namespace Single

/-! ## Signed integers -/

@[simp] theorem signed_true (m : Nat) : signed true m = -(m : Int) := rfl

@[simp] theorem signed_false (m : Nat) : signed false m = m := rfl

@[simp] theorem natAbs_signed (s : Bool) (m : Nat) : (signed s m).natAbs = m := by
  cases s <;> simp

theorem signed_mul (s : Bool) (m n : Nat) : signed s (m * n) = signed s m * n := by
  cases s with
  | false => exact Int.natCast_mul m n
  | true => rw [signed_true, signed_true, Int.natCast_mul, Int.neg_mul]

private theorem signed_natAbs (z : Int) : signed (decide (z < 0)) z.natAbs = z := by
  by_cases h : z < 0
  · rw [decide_eq_true h, signed_true]
    omega
  · rw [decide_eq_false h, signed_false]
    omega

theorem gridPerOne_pos : 0 < gridPerOne := Nat.two_pow_pos 149

theorem natCast_gridPerOne_pos : (0 : Int) < gridPerOne := Int.natCast_pos.2 gridPerOne_pos

/-! ## Places of rounded quotients -/

/-- The signed rounding of `z / b`, without an upper limit. -/
def roundSigned (z : Int) (b : Nat) : Int := signed (decide (z < 0)) (roundMagnitude z.natAbs b)

/-- Where the number nearest to `z / b` grid steps stands. -/
def place (z : Int) (b : Nat) : Int := max (-overflow) (min overflow (roundSigned z b))

private theorem roundMagnitude_zero {b : Nat} (hb : 0 < b) : roundMagnitude 0 b = 0 := by
  have h := roundMagnitude_mul_self (m := 0) (e := 0) (by decide) hb
  simpa using h

private theorem roundSigned_of_neg {z : Int} (hz : z < 0) (b : Nat) :
    roundSigned z b = -(roundMagnitude z.natAbs b : Int) := by
  rw [roundSigned, decide_eq_true hz, signed_true]

private theorem roundSigned_of_nonneg {z : Int} (hz : 0 ≤ z) (b : Nat) :
    roundSigned z b = roundMagnitude z.natAbs b := by
  rw [roundSigned, decide_eq_false (by omega), signed_false]

private theorem roundSigned_mono {z z' : Int} {b b' : Nat} (hb : 0 < b) (hb' : 0 < b')
    (h : z * b' ≤ z' * b) : roundSigned z b ≤ roundSigned z' b' := by
  have hbz : (0 : Int) < b := by exact_mod_cast hb
  have hbz' : (0 : Int) < b' := by exact_mod_cast hb'
  rcases lt_or_ge z 0 with hz | hz
  · rw [roundSigned_of_neg hz]
    rcases lt_or_ge z' 0 with hz' | hz'
    · rw [roundSigned_of_neg hz']
      have hcross : z'.natAbs * b ≤ z.natAbs * b' := by
        zify
        rw [abs_of_neg hz, abs_of_neg hz']
        linarith
      have := roundMagnitude_mono hb' hb hcross
      omega
    · rw [roundSigned_of_nonneg hz']
      omega
  · have hz' : 0 ≤ z' := by
      by_contra hneg
      nlinarith
    rw [roundSigned_of_nonneg hz, roundSigned_of_nonneg hz']
    have hcross : z.natAbs * b' ≤ z'.natAbs * b := by
      zify
      rwa [abs_of_nonneg hz, abs_of_nonneg hz']
    exact_mod_cast roundMagnitude_mono hb hb' hcross

theorem place_mono {z z' : Int} {b b' : Nat} (hb : 0 < b) (hb' : 0 < b')
    (h : z * b' ≤ z' * b) : place z b ≤ place z' b' := by
  have := roundSigned_mono hb hb' h
  simp only [place]
  omega

theorem place_nonneg {z : Int} (hz : 0 ≤ z) (b : Nat) : 0 ≤ place z b := by
  rw [place, roundSigned_of_nonneg hz]
  omega

theorem place_mul_self {z : Int} {b : Nat} (hz : Representable z.natAbs) (hb : 0 < b) :
    place (z * b) b = z := by
  have hlt := hz.1
  have hround : roundSigned (z * b) b = z := by
    have habs : (z * b).natAbs = z.natAbs * b := by rw [Int.natAbs_mul, Int.natAbs_natCast]
    have hsign : decide (z * b < 0) = decide (z < 0) := by
      have hbz : (0 : Int) < b := by exact_mod_cast hb
      rw [decide_eq_decide]
      exact ⟨fun h ↦ by nlinarith, fun h ↦ by nlinarith⟩
    rw [roundSigned, habs, hsign, roundMagnitude_of_representable hz hb, signed_natAbs]
  rw [place, hround]
  omega

theorem place_one {z : Int} (hz : Representable z.natAbs) : place z 1 = z := by
  have h := place_mul_self hz Nat.one_pos
  rwa [Nat.cast_one, mul_one] at h

theorem place_mem {z lo hi : Int} {b : Nat} (hb : 0 < b) (hlo : Representable lo.natAbs)
    (hhi : Representable hi.natAbs) (h : lo * b ≤ z) (h' : z ≤ hi * b) :
    lo ≤ place z b ∧ place z b ≤ hi := by
  constructor
  · calc lo = place (lo * b) b := (place_mul_self hlo hb).symm
      _ ≤ place z b := place_mono hb hb (Int.mul_le_mul_of_nonneg_right h (Int.natCast_nonneg b))
  · calc place z b ≤ place (hi * b) b :=
          place_mono hb hb (Int.mul_le_mul_of_nonneg_right h' (Int.natCast_nonneg b))
      _ = hi := place_mul_self hhi hb

theorem place_natCast (a b : Nat) : place a b = min overflow (roundMagnitude a b) := by
  rw [place, roundSigned_of_nonneg (Int.natCast_nonneg a), Int.natAbs_natCast]
  omega

/-- From `2 ^ 23` steps on, a quotient that is not too great stands at most one part in `2 ^ 24`
away. -/
theorem place_error {a b : Nat} (hb : 0 < b) (h : 2 ^ 23 * b ≤ a) (hlt : place a b < overflow) :
    2 ^ 24 * (place a b * b) ≤ 2 ^ 24 * a + a ∧ 2 ^ 24 * a ≤ 2 ^ 24 * (place a b * b) + a := by
  have hplace := place_natCast a b
  have hround : place a b = roundMagnitude a b := by omega
  have herror := roundMagnitude_error hb ((Nat.le_div_iff_mul_le hb).2 h)
  rw [hround]
  exact_mod_cast herror

theorem place_error_le {z : Int} {b j : Nat} (hb : 0 < b) (hj : j ≤ 252)
    (h : z.natAbs ≤ 2 ^ (j + 24) * b) : (2 * (place z b * b - z)).natAbs ≤ 2 ^ j * b := by
  have hround : place z b = roundSigned z b := by
    have hle : roundMagnitude z.natAbs b ≤ 2 ^ (j + 24) := by
      have htop := roundMagnitude_mul_self (m := 1) (e := j + 24) (by decide) hb
      rw [Nat.one_mul] at htop
      rw [← htop]
      exact roundMagnitude_mono hb hb (Nat.mul_le_mul_right b h)
    have hlt : 2 ^ (j + 24) < overflow := by
      rw [Nat.pow_add]
      calc 2 ^ j * 2 ^ 24 ≤ 2 ^ 252 * 2 ^ 24 :=
            Nat.mul_le_mul_right _ (Nat.pow_le_pow_right (by decide) hj)
        _ < overflow := by decide
    have hsigned : (roundSigned z b).natAbs = roundMagnitude z.natAbs b := natAbs_signed _ _
    rw [place]
    omega
  obtain ⟨hup, hdown⟩ := roundMagnitude_error_le hb h
  rw [hround]
  generalize 2 ^ j * b = bound at hup hdown ⊢
  rcases lt_or_ge z 0 with hneg | hnonneg
  · rw [roundSigned_of_neg hneg, Int.neg_mul, ← Int.natCast_mul]
    omega
  · rw [roundSigned_of_nonneg hnonneg, ← Int.natCast_mul]
    omega

theorem round_one_of_representable (s : Bool) {n : Nat} (hn : Representable n) :
    round s n 1 = finite s n hn := by
  have hround := roundMagnitude_of_representable hn Nat.one_pos
  rw [Nat.mul_one] at hround
  simp only [round, hround, dif_pos hn.1]

/-- The place of a rounded number. Its sign only has to be right where it shows. -/
theorem position_round {s : Bool} {z : Int} {b : Nat} (hb : 0 < b)
    (hs : z ≠ 0 → s = decide (z < 0)) : (round s z.natAbs b).position = some (place z b) := by
  -- a zero may come with either sign, and both zeros stand at one place
  have hsigned : signed s (roundMagnitude z.natAbs b) = roundSigned z b := by
    by_cases hz : z = 0
    · rw [hz, roundSigned, Int.natAbs_zero, roundMagnitude_zero hb]
      cases s <;> rfl
    · rw [hs hz, roundSigned]
  rcases lt_or_ge (roundMagnitude z.natAbs b) overflow with hlt | hge
  · have habs : (roundSigned z b).natAbs < overflow := by rwa [← hsigned, natAbs_signed]
    rw [round_of_lt s hlt, position_finite, hsigned, place]
    congr 1
    omega
  · have hne : z ≠ 0 := by
      intro hz
      rw [hz, Int.natAbs_zero, roundMagnitude_zero hb] at hge
      exact absurd hge (by decide)
    rw [round_of_le s hge, position_infinite, place, ← hsigned, hs hne]
    congr 1
    by_cases hneg : z < 0
    · simp only [decide_eq_true hneg, signed_true]
      omega
    · simp only [decide_eq_false hneg, signed_false]
      omega

/-! ## Finite numbers -/

/-- The number is finite and stands at `z`. -/
def IsAt (x : Single) (z : Int) : Prop := ∃ s m h, x = finite s m h ∧ signed s m = z

theorem IsAt.position {x : Single} {z : Int} (h : x.IsAt z) : x.position = some z := by
  obtain ⟨s, m, hm, rfl, rfl⟩ := h
  rfl

theorem IsAt.representable {x : Single} {z : Int} (h : x.IsAt z) : Representable z.natAbs := by
  obtain ⟨s, m, hm, -, rfl⟩ := h
  rwa [natAbs_signed]

theorem isAt_of_position {x : Single} {z : Int} (h : x.position = some z)
    (hz : z.natAbs < overflow) : x.IsAt z := by
  cases x with
  | nan => exact absurd h (by simp)
  | infinite s =>
    have hend : signed s overflow = z := Option.some.inj h
    rw [← hend, natAbs_signed] at hz
    exact absurd hz (lt_irrefl _)
  | finite s m hm => exact ⟨s, m, hm, rfl, Option.some.inj h⟩

theorem IsAt.neg {x : Single} {z : Int} (h : x.IsAt z) : (-x).IsAt (-z) := by
  obtain ⟨s, m, hm, rfl, rfl⟩ := h
  refine ⟨!s, m, hm, rfl, ?_⟩
  cases s <;> simp

theorem IsAt.abs {x : Single} {z : Int} (h : x.IsAt z) : x.abs.IsAt z.natAbs := by
  obtain ⟨s, m, hm, rfl, rfl⟩ := h
  exact ⟨false, m, hm, rfl, by rw [natAbs_signed, signed_false]⟩

/-- Away from zero, one place has one finite number. -/
theorem IsAt.eq {x y : Single} {z : Int} (hx : x.IsAt z) (hy : y.IsAt z) (hz : z ≠ 0) : x = y := by
  obtain ⟨s, m, hm, rfl, rfl⟩ := hx
  obtain ⟨t, n, hn, rfl, hsigned⟩ := hy
  obtain rfl : n = m := by rw [← natAbs_signed t n, hsigned, natAbs_signed]
  obtain rfl : s = t := by
    cases s <;> cases t <;> first | rfl | (simp only [signed_true, signed_false] at *; omega)
  rfl

/-- A sum stands at the rounding of the exact sum. -/
theorem IsAt.position_add {x y : Single} {a b : Int} (hx : x.IsAt a) (hy : y.IsAt b) :
    (x + y).position = some (place (a + b) 1) := by
  obtain ⟨s, m, hm, rfl, rfl⟩ := hx
  obtain ⟨t, n, hn, rfl, rfl⟩ := hy
  rw [finite_add_finite]
  refine position_round Nat.one_pos fun hne ↦ ?_
  rw [if_neg hne]

theorem IsAt.position_sub {x y : Single} {a b : Int} (hx : x.IsAt a) (hy : y.IsAt b) :
    (x - y).position = some (place (a - b) 1) := hx.position_add hy.neg

theorem IsAt.position_mul {x y : Single} {a b : Int} (hx : x.IsAt a) (hy : y.IsAt b) :
    (x * y).position = some (place (a * b) gridPerOne) := by
  obtain ⟨s, m, hm, rfl, rfl⟩ := hx
  obtain ⟨t, n, hn, rfl, rfl⟩ := hy
  have habs : m * n = (signed s m * signed t n).natAbs := by
    rw [Int.natAbs_mul, natAbs_signed, natAbs_signed]
  rw [finite_mul_finite, habs]
  refine position_round gridPerOne_pos fun hne ↦ ?_
  have hmn : (0 : Int) < (m : Int) * n := by
    have : m * n ≠ 0 := by rwa [habs, Int.natAbs_ne_zero]
    exact_mod_cast Nat.pos_of_ne_zero this
  cases s <;> cases t
  · exact (decide_eq_false (by simp only [signed_false]; linarith)).symm
  · exact (decide_eq_true (by simp only [signed_false, signed_true]; linarith)).symm
  · exact (decide_eq_true (by simp only [signed_false, signed_true]; linarith)).symm
  · exact (decide_eq_false (by simp only [signed_true]; linarith)).symm

theorem IsAt.position_div {x y : Single} {a : Int} {n : Nat} (hx : x.IsAt a) (hy : y.IsAt n)
    (hn : 0 < n) : (x / y).position = some (place (a * gridPerOne) n) := by
  obtain ⟨s, m, hm, rfl, rfl⟩ := hx
  obtain ⟨t, k, hk, rfl, hkn⟩ := hy
  obtain ⟨rfl, rfl⟩ : t = false ∧ k = n := by
    cases t with
    | false => exact ⟨rfl, by rw [signed_false] at hkn; omega⟩
    | true => rw [signed_true] at hkn; omega
  have habs : m * gridPerOne = (signed s m * gridPerOne).natAbs := by
    rw [Int.natAbs_mul, natAbs_signed, Int.natAbs_natCast]
  rw [finite_div_finite, if_neg hn.ne', habs]
  refine position_round hn fun hne ↦ ?_
  have hmg : (0 : Int) < (m : Int) * gridPerOne := by
    have : m * gridPerOne ≠ 0 := by rwa [habs, Int.natAbs_ne_zero]
    exact_mod_cast Nat.pos_of_ne_zero this
  cases s
  · exact (decide_eq_false (by simp only [signed_false]; linarith)).symm
  · exact (decide_eq_true (by simp only [signed_true]; linarith)).symm

/-! ## Representable places -/

theorem representable_grid {n : Nat} (h : n ≤ 2 ^ 24) : Representable (n * gridPerOne) := by
  rcases Nat.lt_or_eq_of_le h with hlt | rfl
  · exact representable_mul_pow hlt (by decide)
  · have hsplit : 2 ^ 24 * gridPerOne = 2 ^ 23 * 2 ^ 150 := by
      rw [gridPerOne, ← Nat.pow_add, ← Nat.pow_add]
    rw [hsplit]
    exact representable_mul_pow (by decide) (by decide)

theorem representable_half_grid {n : Nat} (h : n < 2 ^ 24) : Representable (n * 2 ^ 148) :=
  representable_mul_pow h (by decide)

theorem Representable.mul_two_pow {n k : Nat} (hn : Representable n) (h : n * 2 ^ k < overflow) :
    Representable (n * 2 ^ k) := by
  obtain ⟨-, m, e, hm, rfl⟩ := hn
  exact ⟨h, m, e + k, hm, by rw [Nat.pow_add, Nat.mul_assoc]⟩

theorem two_pow_dvd_spacing {a j : Nat} (h : 2 ^ (j + 23) ≤ a) : 2 ^ j ∣ spacing a := by
  have hpos : 0 < 2 ^ (j + 23) := Nat.two_pow_pos _
  have hle : j + 23 ≤ a.log2 := (Nat.le_log2 (by omega)).2 h
  exact Nat.pow_dvd_pow 2 (by omega)

theorem Representable.exists_half {n : Nat} (hn : Representable n) (h : 2 ^ 24 ≤ n) :
    ∃ k, n = 2 * k ∧ Representable k := by
  obtain ⟨hlt, m, e, hm, rfl⟩ := hn
  cases e with
  | zero =>
    rw [Nat.pow_zero] at h
    omega
  | succ e =>
    have hdouble : m * 2 ^ (e + 1) = 2 * (m * 2 ^ e) := by
      rw [Nat.pow_succ]
      ring
    exact ⟨m * 2 ^ e, hdouble, by omega, m, e, hm, rfl⟩

theorem Representable.sub {n d : Nat} (hn : Representable n) (hd : spacing n ∣ d) :
    Representable (n - d) := by
  have hdvd : spacing n ∣ n - d := by
    obtain ⟨-, m, e, hm, heq⟩ := hn
    exact Nat.dvd_sub (heq ▸ spacing_dvd_mul_pow hm) hd
  refine ⟨(Nat.sub_le n d).trans_lt hn.1, (n - d) / spacing n, n.log2 - 23, ?_,
    (Nat.div_mul_cancel hdvd).symm⟩
  exact (Nat.div_le_div_right (Nat.sub_le n d)).trans_lt (div_spacing_lt n)

/-- Below `2 ^ (j + 24)` the steps between numbers divide `2 ^ j`, and differences with multiples of
it are exact. -/
theorem IsAt.sub_of_dvd {x y : Single} {a b : Int} {j : Nat} (hx : x.IsAt a) (hy : y.IsAt b)
    (hlt : a < 2 ^ (j + 24)) (hdvd : 2 ^ j ∣ b) (hb : 0 ≤ b) (hab : b ≤ a) :
    (x - y).IsAt (a - b) := by
  have hrep : Representable (a - b).natAbs := by
    have hspacing : spacing a.natAbs ∣ b.natAbs :=
      (spacing_dvd_two_pow (by zify; rwa [abs_of_nonneg (hb.trans hab)])).trans
        (by simpa [Int.natAbs_pow] using Int.natAbs_dvd_natAbs.2 hdvd)
    have hsub : (a - b).natAbs = a.natAbs - b.natAbs := by omega
    rw [hsub]
    exact hx.representable.sub hspacing
  refine isAt_of_position ?_ hrep.1
  rw [hx.position_sub hy, place_one hrep]

/-- From `2 ^ (j + 23)` steps on, numbers stand at multiples of `2 ^ j` steps. -/
theorem IsAt.two_pow_dvd {x : Single} {z : Int} {j : Nat} (h : x.IsAt z)
    (hle : 2 ^ (j + 23) ≤ z.natAbs) : 2 ^ j ∣ z := by
  obtain ⟨-, m, e, hm, heq⟩ := h.representable
  have hdvd : 2 ^ j ∣ z.natAbs :=
    (two_pow_dvd_spacing hle).trans (heq ▸ spacing_dvd_mul_pow hm)
  rw [← Int.natAbs_dvd_natAbs, Int.natAbs_pow]
  exact hdvd

theorem isAt_ofNat {n : Nat} (h : n ≤ 2 ^ 24) : (ofNat n).IsAt (n * gridPerOne) := by
  have hrep : Representable ((n : Int) * gridPerOne).natAbs := by
    rw [← Int.natCast_mul, Int.natAbs_natCast]
    exact representable_grid h
  refine isAt_of_position ?_ hrep.1
  have hnonneg : (0 : Int) ≤ (n : Int) * gridPerOne :=
    Int.mul_nonneg (Int.natCast_nonneg n) (Int.natCast_nonneg gridPerOne)
  have hround := position_round (s := false) (z := (n : Int) * gridPerOne) Nat.one_pos
    fun _ ↦ (decide_eq_false (by omega)).symm
  rw [place_one hrep, ← Int.natCast_mul, Int.natAbs_natCast] at hround
  rwa [← Int.natCast_mul]

theorem isAt_zero : (0 : Single).IsAt 0 := by
  have h := isAt_ofNat (n := 0) (by decide)
  rwa [Nat.cast_zero, Int.zero_mul] at h

theorem isAt_one : (1 : Single).IsAt gridPerOne := by
  have h := isAt_ofNat (n := 1) (by decide)
  rwa [Nat.cast_one, Int.one_mul] at h

theorem position_zero : (0 : Single).position = some 0 := isAt_zero.position

theorem position_ofInt32 (i : Int32) :
    (ofInt32 i).position = some (place (i.toInt * gridPerOne) 1) := by
  have habs : (i.toInt * gridPerOne).natAbs = i.toInt.natAbs * gridPerOne := by
    rw [Int.natAbs_mul, Int.natAbs_natCast]
  have hgrid := natCast_gridPerOne_pos
  rw [ofInt32, ← habs, position_round Nat.one_pos]
  intro _
  rw [decide_eq_decide]
  exact ⟨fun hneg ↦ by nlinarith, fun hneg ↦ by nlinarith⟩

theorem isAt_ofInt32 {i : Int32} (h : i.toInt.natAbs ≤ 2 ^ 24) :
    (ofInt32 i).IsAt (i.toInt * gridPerOne) := by
  have hrep : Representable (i.toInt * gridPerOne).natAbs := by
    rw [Int.natAbs_mul, Int.natAbs_natCast]
    exact representable_grid h
  refine isAt_of_position ?_ hrep.1
  rw [position_ofInt32, place_one hrep]

theorem isAt_half : half.IsAt (2 ^ 148) := by
  have hrep : Representable ((2 : Int) ^ 148).natAbs := by
    have h := representable_half_grid (n := 1) (by decide)
    rwa [Nat.one_mul] at h
  refine isAt_of_position ?_ hrep.1
  have hround := position_round (s := false) (z := (2 ^ 148 : Int) * (2 : Nat)) (b := 2)
    (by decide) (fun _ ↦ rfl)
  rwa [place_mul_self hrep (by decide)] at hround

/-! ## Floors -/

private theorem signed_div (s : Bool) (m : Nat) {g : Nat} (hg : 0 < g) :
    signed s (if s then (m + g - 1) / g else m / g) = signed s m / g := by
  cases s with
  | false => simp
  | true =>
    have hgz : (0 : Int) < g := by exact_mod_cast hg
    have hle := Nat.div_mul_le_self (m + g - 1) g
    have hlt := Nat.lt_div_mul_add (a := m + g - 1) hg
    rw [if_pos rfl, signed_true, signed_true, eq_comm, Int.ediv_eq_iff_of_pos hgz]
    generalize (m + g - 1) / g = k at hle hlt ⊢
    zify [show 1 ≤ m + g by omega] at hle hlt
    constructor <;> linarith

private theorem representable_whole {m : Nat} (hm : Representable m) (s : Bool) :
    Representable ((if s then (m + gridPerOne - 1) / gridPerOne else m / gridPerOne)
      * gridPerOne) := by
  obtain ⟨hlt, k, e, hk, heq⟩ := hm
  -- below a scale of one the magnitude is less than `2 ^ 23` ones, and so is what it rounds to
  rcases Nat.lt_or_ge e 149 with he | he
  · have hsmall : m < 2 ^ 23 * gridPerOne := by
      calc m = k * 2 ^ e := heq
        _ < 2 ^ 24 * 2 ^ e := Nat.mul_lt_mul_of_pos_right hk (Nat.two_pow_pos e)
        _ ≤ 2 ^ 24 * 2 ^ 148 := Nat.mul_le_mul_left _ (Nat.pow_le_pow_right (by decide) (by omega))
        _ = 2 ^ 23 * gridPerOne := by rw [gridPerOne, ← Nat.pow_add, ← Nat.pow_add]
    have hup : (m + gridPerOne - 1) / gridPerOne ≤ 2 ^ 23 := by
      have hpos := gridPerOne_pos
      rw [← Nat.lt_succ_iff, Nat.div_lt_iff_lt_mul hpos, Nat.succ_mul]
      omega
    have hdown : m / gridPerOne ≤ 2 ^ 23 :=
      (Nat.div_le_div_right (by have := gridPerOne_pos; omega)).trans hup
    refine representable_grid ?_
    split <;> omega
  · have hwhole : m = k * 2 ^ (e - 149) * gridPerOne := by
      rw [gridPerOne, Nat.mul_assoc, ← Nat.pow_add, Nat.sub_add_cancel he, heq]
    have hup : (m + gridPerOne - 1) / gridPerOne = k * 2 ^ (e - 149) := by
      have hpos := gridPerOne_pos
      rw [hwhole, Nat.div_eq_iff hpos]
      omega
    have hdown : m / gridPerOne = k * 2 ^ (e - 149) := by
      rw [hwhole, Nat.mul_div_cancel _ gridPerOne_pos]
    rw [hup, hdown, ite_self, ← hwhole]
    exact ⟨hlt, k, e, hk, heq⟩

/-- The floor of a number is its floor, without rounding. -/
theorem IsAt.floor {x : Single} {z : Int} (h : x.IsAt z) :
    x.floor.IsAt (z / gridPerOne * gridPerOne) := by
  obtain ⟨s, m, hm, rfl, rfl⟩ := h
  have hrep := representable_whole hm s
  rw [← signed_div s m gridPerOne_pos]
  simp only [Single.floor]
  -- from here on the whole number is any that is representable
  generalize (if s then (m + gridPerOne - 1) / gridPerOne else m / gridPerOne) = whole at hrep ⊢
  exact ⟨s, whole * gridPerOne, hrep, round_one_of_representable s hrep, signed_mul s whole _⟩

theorem toInt_saturate (i : Int) :
    (saturate i).toInt = max (-2 ^ 31) (min (2 ^ 31 - 1) i) := by
  rw [saturate, Int32.toInt_ofInt_of_le] <;> omega

theorem IsAt.toInt32 {x : Single} {i : Int} (h : x.IsAt (i * gridPerOne)) :
    x.toInt32 = saturate i := by
  obtain ⟨s, m, hm, rfl, heq⟩ := h
  have hm' : m = i.natAbs * gridPerOne := by
    rw [← natAbs_signed s m, heq, Int.natAbs_mul, Int.natAbs_natCast]
  have hpos := gridPerOne_pos
  have hcancel : signed s (m / gridPerOne) = i := by
    rw [hm', Nat.mul_div_cancel _ hpos]
    have hpos' := natCast_gridPerOne_pos
    cases s with
    | false =>
      rw [signed_false] at heq ⊢
      have : 0 ≤ i := by nlinarith
      omega
    | true =>
      rw [signed_true] at heq ⊢
      have : i ≤ 0 := by nlinarith
      omega
  rw [toInt32_finite, hcancel]

theorem IsAt.floorInt32 {x : Single} {z : Int} (h : x.IsAt z) :
    x.floorInt32 = saturate (z / gridPerOne) := h.floor.toInt32

theorem IsAt.toInt_floorInt32 {x : Single} {i : Int} (h : x.IsAt (i * gridPerOne))
    (hi : i.natAbs ≤ 2 ^ 30) : x.floorInt32.toInt = i := by
  rw [h.floorInt32, Int.mul_ediv_cancel _ natCast_gridPerOne_pos.ne', toInt_saturate]
  omega

/-! ## Order -/

theorem lt_iff_of_position {x y : Single} {a b : Int} (hx : x.position = some a)
    (hy : y.position = some b) : x.lt y = true ↔ a < b := by
  simp only [lt, related, hx, hy, decide_eq_true_eq]

theorem le_iff_of_position {x y : Single} {a b : Int} (hx : x.position = some a)
    (hy : y.position = some b) : x.le y = true ↔ a ≤ b := by
  simp only [le, related, hx, hy, decide_eq_true_eq]

theorem same_of_position {x y : Single} {a : Int} (hx : x.position = some a)
    (hy : y.position = some a) : x.same y = true := by
  simp only [same, related, hx, hy, beq_self_eq_true]

theorem position_maximum {x y : Single} {a b : Int} (hx : x.position = some a)
    (hy : y.position = some b) : (x.maximum y).position = some (max a b) := by
  have hnan : x ≠ nan := by
    rintro rfl
    exact absurd hx (by simp [position])
  simp only [maximum, hnan, false_or, lt_iff_of_position hx hy]
  split
  · rw [hy, max_eq_right (by omega)]
  · rw [hx, max_eq_left (by omega)]

theorem position_minimum {x y : Single} {a b : Int} (hx : x.position = some a)
    (hy : y.position = some b) : (x.minimum y).position = some (min a b) := by
  have hnan : x ≠ nan := by
    rintro rfl
    exact absurd hx (by simp [position])
  simp only [minimum, hnan, false_or, lt_iff_of_position hy hx]
  split
  · rw [hy, min_eq_right (by omega)]
  · rw [hx, min_eq_left (by omega)]

theorem maximum_nan_left (y : Single) : nan.maximum y = y := by simp [maximum]

/-- A number moved between two places stands between them, wherever it stood. -/
theorem position_clamp_mem (x : Single) {lo hi : Single} {a b : Int} (hlo : lo.position = some a)
    (hhi : hi.position = some b) (hab : a ≤ b) :
    ∃ p, (x.clamp lo hi).position = some p ∧ a ≤ p ∧ p ≤ b := by
  have hmax : ∃ p, (x.maximum lo).position = some p ∧ a ≤ p := by
    cases hx : x.position with
    | none =>
      have hnan : x = nan := by
        cases x with
        | nan => rfl
        | infinite s => exact absurd hx (by simp [position])
        | finite s m hm => exact absurd hx (by simp [position])
      exact ⟨a, by rw [hnan, maximum_nan_left, hlo], le_refl a⟩
    | some p => exact ⟨max p a, position_maximum hx hlo, le_max_right p a⟩
  obtain ⟨p, hp, hap⟩ := hmax
  exact ⟨min p b, position_minimum hp hhi, le_min hap hab, min_le_right p b⟩

end Single

end QuadSampler
