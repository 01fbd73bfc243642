import QuadSampler.Proofs.Single.Scaling
import QuadSampler.Proofs.Single.UnitInterval
import QuadSampler.Proofs.Filtering.BlendTree
import QuadSampler.Proofs.Filtering.Progress
import QuadSampler.Proofs.Filtering.UnsharedSides
import QuadSampler.Addressing

/-!
# The projection onto the faces of a cube

A direction with finite components stands at three integers, and the first of them with the
greatest magnitude is its major component (`Axes.IsMajor`). Its axis and its sign name the face
(`CubePoint.exists_isMajorOf_major`), and neither the order of the magnitudes nor the signs are
changed by scaling. What runs across and down a face is one of the two other components with a sign
of its own (`CubePoint.across`, `CubePoint.down`).

A coordinate on the face is such a component divided by the major magnitude, moved from minus one
and one to zero and one (`Single.ProjectsTo`). The exact quotient is between minus one and one. The
quotient and the sum with one are rounded and the half is exact, so the errors of the two add up;
and as both are rounded between representable ends the coordinate does not leave the face. Where the
components are scaled exactly the exact quotient is the same, and so is all that is made of it.
-/

namespace QuadSampler

/-! ## Directions -/

namespace Axes

/-- The components of a direction are finite and stand at the given integers. -/
def IsAt (d : Axes Single) (p : Axes Int) : Prop := ∀ axis, (d.get axis).IsAt (p.get axis)

/-- The first axis with a component of the greatest magnitude. -/
structure IsMajor (p : Axes Int) (axis : Fin 3) : Prop where
  greatest : ∀ other, (p.get other).natAbs ≤ (p.get axis).natAbs
  first : ∀ other < axis, (p.get other).natAbs < (p.get axis).natAbs

/-- The direction that points the other way. -/
instance : Neg (Axes Single) := ⟨map Neg.neg⟩

def scaleBy (d : Axes Single) (scale : Single) : Axes Single := d.map (· * scale)

variable {p : Axes Int} {axis other : Fin 3}

private theorem isMajor_zero (ht : p.t.natAbs ≤ p.s.natAbs) (hr : p.r.natAbs ≤ p.s.natAbs) :
    p.IsMajor 0 where
  greatest other := by
    match other with
    | 0 => exact le_refl _
    | 1 => exact ht
    | 2 => exact hr
  first other hlt := absurd hlt (Fin.not_lt_zero other)

private theorem isMajor_one (hs : p.s.natAbs < p.t.natAbs) (hr : p.r.natAbs ≤ p.t.natAbs) :
    p.IsMajor 1 where
  greatest other := by
    match other with
    | 0 => exact hs.le
    | 1 => exact le_refl _
    | 2 => exact hr
  first other hlt := by
    match other, hlt with
    | 0, _ => exact hs

private theorem isMajor_two (hs : p.s.natAbs < p.r.natAbs) (ht : p.t.natAbs < p.r.natAbs) :
    p.IsMajor 2 where
  greatest other := by
    match other with
    | 0 => exact hs.le
    | 1 => exact ht.le
    | 2 => exact le_refl _
  first other hlt := by
    match other, hlt with
    | 0, _ => exact hs
    | 1, _ => exact ht

theorem IsMajor.eq (h : p.IsMajor axis) (h' : p.IsMajor other) : axis = other := by
  rcases Nat.lt_trichotomy axis other with hlt | heq | hlt
  · exact absurd (h'.first axis hlt) (h.greatest other).not_gt
  · exact Fin.ext heq
  · exact absurd (h.first other hlt) (h'.greatest axis).not_gt

private theorem IsMajor.map_neg (h : p.IsMajor axis) : (p.map Neg.neg).IsMajor axis where
  greatest other := by
    rw [get_map, get_map, Int.natAbs_neg, Int.natAbs_neg]
    exact h.greatest other
  first other hlt := by
    rw [get_map, get_map, Int.natAbs_neg, Int.natAbs_neg]
    exact h.first other hlt

private theorem isMajor_splat (a : Int) : (splat a).IsMajor 0 where
  greatest other := by rw [get_splat, get_splat]
  first other hlt := absurd hlt (Fin.not_lt_zero other)

theorem IsMajor.eq_splat_zero (h : p.IsMajor axis) (hzero : p.get axis = 0) : p = splat 0 := by
  refine ext_get fun other ↦ ?_
  have := h.greatest other
  rw [get_splat]
  omega

end Axes

namespace Single

/-! ## Coordinates on a face -/

/-- The number is the coordinate on a face of a component at `a` where the major magnitude is `n`,
exactly `(a / n + 1) / 2`. -/
structure ProjectsTo (x : Single) (a : Int) (n : Nat) : Prop where
  /-- Twice the coordinate is the sum of one and the quotient, each rounded once. -/
  rounded : ∃ z : Int, x.IsAt z ∧ 2 * z = place (place (a * gridPerOne) n + gridPerOne) 1
  /-- The coordinate is at most three parts in `2 ^ 26` away from the exact one. -/
  near : ∃ z : Int, x.IsAt z ∧ (2 * n * z - (a + n) * gridPerOne).natAbs ≤ 3 * 2 ^ 124 * n
  center : a = 0 → x = half
  first_edge : a = -n → x = 0
  last_edge : a = n → x = 1

section Coordinate

variable {x y : Single} {a : Int} {n : Nat} (hx : x.IsAt a) (hy : y.IsAt n) (ha : a.natAbs ≤ n)
  (hn : 0 < n)
include hx hy ha hn

private theorem isAt_ratio :
    (x / y).IsAt (place (a * gridPerOne) n) ∧ -(gridPerOne : Int) ≤ place (a * gridPerOne) n ∧
      place (a * gridPerOne) n ≤ gridPerOne := by
  have hgrid := natCast_gridPerOne_pos
  have hone : Representable (gridPerOne : Int).natAbs := Single.isAt_one.representable
  obtain ⟨hlow, hhigh⟩ := place_mem (z := a * gridPerOne) hn (by rwa [Int.natAbs_neg]) hone
    (by rw [Int.neg_mul, Int.mul_comm, ← Int.neg_mul]
        exact Int.mul_le_mul_of_nonneg_right (by omega) hgrid.le)
    (by rw [Int.mul_comm (gridPerOne : Int)]
        exact Int.mul_le_mul_of_nonneg_right (by omega) hgrid.le)
  have hend : (gridPerOne : Int).natAbs < overflow := hone.1
  exact ⟨isAt_of_position (hx.position_div hy hn) (by omega), hlow, hhigh⟩

/-- Where the coordinate stands. Above minus one the quotient is so far above it that the sum has
room for the half. -/
theorem exists_isAt_coordinate :
    ∃ z : Int, ((x / y + 1) * half).IsAt z ∧ 0 ≤ z ∧ z ≤ gridPerOne ∧
      2 * z = place (place (a * gridPerOne) n + gridPerOne) 1 := by
  obtain ⟨hq, hlow, hhigh⟩ := isAt_ratio hx hy ha hn
  generalize place (a * gridPerOne) n = q at hq hlow hhigh ⊢
  have hgrid : (gridPerOne : Int) = 2 ^ 149 := rfl
  have htwo : Representable (2 * gridPerOne : Int).natAbs := representable_grid (n := 2) (by decide)
  obtain ⟨k, hk, hrep⟩ :
      ∃ k : Nat, place (q + gridPerOne) 1 = 2 * (k : Int) ∧ Representable k := by
    rcases Int.lt_or_eq_of_le hlow with hlt | heq
    · have hgap : 2 ^ 125 ≤ q + gridPerOne := by
        by_cases hhalf : 2 ^ (125 + 23) ≤ q.natAbs
        · have hdvd := hq.two_pow_dvd hhalf
          omega
        · omega
      have hleast : Representable (2 ^ 125 : Int).natAbs :=
        representable_mul_pow (m := 1) (by decide) (by decide : 125 ≤ 253)
      obtain ⟨hfar, hle⟩ := place_mem Nat.one_pos hleast htwo (by omega)
        (by omega : q + gridPerOne ≤ 2 * gridPerOne * (1 : Nat))
      have hend := htwo.1
      have hsum := isAt_of_position (hq.position_add isAt_one) (by omega)
      obtain ⟨k, hk, hrep⟩ := Single.Representable.exists_half hsum.representable (by omega)
      exact ⟨k, by omega, hrep⟩
    · refine ⟨0, ?_, isAt_zero.representable⟩
      rw [← heq, Int.add_left_neg]
      exact place_one isAt_zero.representable
  have hle := (place_mem Nat.one_pos isAt_zero.representable htwo (by omega)
    (by omega : q + gridPerOne ≤ 2 * gridPerOne * (1 : Nat))).2
  have hend : (2 * gridPerOne : Int).natAbs < overflow := htwo.1
  have hsum := isAt_of_position (hq.position_add isAt_one) (by omega)
  refine ⟨k, isAt_of_position ?_ hrep.1, Int.natCast_nonneg k, by omega, hk.symm⟩
  have hhalve : 2 * (k : Int) * 2 ^ 148 = k * gridPerOne := by
    rw [hgrid]
    ring
  rw [hsum.position_mul isAt_half, hk, hhalve,
    place_mul_self (z := (k : Int)) hrep gridPerOne_pos]

private theorem inUnit_coordinate : ((x / y + 1) * half).InUnit := by
  obtain ⟨z, hz, hlow, hhigh, -⟩ := exists_isAt_coordinate hx hy ha hn
  exact ⟨z, hz, hlow, hhigh⟩

/-- The quotient and the sum are off by at most half a step each, and the error of the quotient goes
through the sum as it is. -/
private theorem coordinate_error {z : Int}
    (hround : 2 * z = place (place (a * gridPerOne) n + gridPerOne) 1) :
    (2 * n * z - (a + n) * gridPerOne).natAbs ≤ 3 * 2 ^ 124 * n := by
  obtain ⟨-, hlow, hhigh⟩ := isAt_ratio hx hy ha hn
  have hgrid : gridPerOne = 2 ^ 149 := rfl
  have hquotient : (2 * (place (a * gridPerOne) n * n - a * gridPerOne)).natAbs
      ≤ 2 ^ 125 * n := by
    refine place_error_le hn (by decide) ?_
    rw [Int.natAbs_mul, Int.natAbs_natCast, Nat.mul_comm]
    exact Nat.mul_le_mul_left _ ha
  have hsum := place_error_le (z := place (a * gridPerOne) n + gridPerOne) (j := 126)
    Nat.one_pos (by decide) (by omega)
  rw [← hround] at hsum
  generalize place (a * gridPerOne) n = q at hquotient hsum
  have hsplit : 2 * n * z - (a + n) * gridPerOne
      = (2 * z * (1 : Nat) - (q + gridPerOne)) * n + (q * n - a * gridPerOne) := by
    rw [Nat.cast_one]
    ring
  have hscaled := Nat.mul_le_mul_right n hsum
  rw [hsplit]
  generalize (2 * z * ((1 : Nat) : Int) - (q + gridPerOne)) = e at hscaled ⊢
  have habs : (2 * e).natAbs * n = 2 * (e * n).natAbs := by
    rw [Int.natAbs_mul, Int.natAbs_mul, Int.natAbs_natCast, Nat.mul_assoc]
    rfl
  rw [habs] at hscaled
  omega

/-- A quotient that is representable is not rounded. -/
private theorem ratio_eq {q : Int} {v : Single} (hv : v.IsAt q) (hq : q ≠ 0)
    (heq : a * gridPerOne = q * n) : x / y = v := by
  have hratio := (isAt_ratio hx hy ha hn).1
  rw [heq, place_mul_self hv.representable hn] at hratio
  exact hratio.eq hv hq

private theorem projectsTo_coordinate : ((x / y + 1) * half).ProjectsTo a n := by
  obtain ⟨z, hz, -, -, hround⟩ := exists_isAt_coordinate hx hy ha hn
  have hone : (gridPerOne : Int) ≠ 0 := natCast_gridPerOne_pos.ne'
  refine ⟨⟨z, hz, hround⟩, ⟨z, hz, coordinate_error hx hy ha hn hround⟩, ?center, ?first, ?last⟩
  case center =>
    rintro rfl
    have hzero : place (0 * gridPerOne) n = 0 := by
      have hself := place_mul_self isAt_zero.representable hn
      rwa [Int.zero_mul] at hself ⊢
    rw [hzero, Int.zero_add, place_one isAt_one.representable] at hround
    have hmiddle : z = 2 ^ 148 := by
      rw [gridPerOne] at hround
      omega
    exact (hmiddle ▸ hz).eq isAt_half (by decide)
  case first =>
    rintro rfl
    rw [ratio_eq hx hy ha hn isAt_one.neg (neg_ne_zero.2 hone) (by ring)]
    decide
  case last =>
    rintro rfl
    rw [ratio_eq hx hy ha hn isAt_one hone (mul_comm _ _)]
    decide

end Coordinate

end Single

namespace CubePoint

open Single (gridPerOne)

/-- The slice of the face that the major axis and its sign name. -/
def faceOf (axis : Fin 3) (negative : Bool) : Int32 := Int32.ofNat (2 * axis + negative.toNat)

private theorem faceOf_not (axis : Fin 3) (negative : Bool) :
    faceOf axis (!negative) = faceOf axis negative ^^^ 1 := by
  match axis, negative with
  | 0, true | 0, false | 1, true | 1, false | 2, true | 2, false => decide

/-- What runs across the face of an axis and a sign, by the sign table of cube maps. -/
def across (p : Axes Int) : Fin 3 → Bool → Int
  | 0, false => -p.r
  | 0, true => p.r
  | 1, _ => p.s
  | 2, false => p.s
  | 2, true => -p.s

/-- What runs down the face of an axis and a sign, by the sign table of cube maps. -/
def down (p : Axes Int) : Fin 3 → Bool → Int
  | 0, _ => -p.t
  | 1, false => p.r
  | 1, true => -p.r
  | 2, _ => -p.t

/-- A face, what runs across and down it, and a magnitude are those of the direction at `p` for one
of its axes and a sign. -/
structure IsMajorOf (p : Axes Int) (axis : Fin 3) (negative : Bool)
    (m : Int32 × Single × Single × Single) : Prop where
  face : m.1 = faceOf axis negative
  across : m.2.1.IsAt (across p axis negative)
  down : m.2.2.1.IsAt (down p axis negative)
  greatest : m.2.2.2.IsAt (p.get axis).natAbs

private theorem natAbs_across_le {p : Axes Int} {axis : Fin 3} (h : p.IsMajor axis)
    (negative : Bool) :
    (across p axis negative).natAbs ≤ (p.get axis).natAbs ∧
      (down p axis negative).natAbs ≤ (p.get axis).natAbs := by
  have hs : p.s.natAbs ≤ (p.get axis).natAbs := h.greatest 0
  have ht : p.t.natAbs ≤ (p.get axis).natAbs := h.greatest 1
  have hr : p.r.natAbs ≤ (p.get axis).natAbs := h.greatest 2
  match axis, negative with
  | 0, true | 0, false | 1, true | 1, false | 2, true | 2, false =>
    simp only [across, down, Int.natAbs_neg]
    exact ⟨by assumption, by assumption⟩

section Finite

variable {d : Axes Single} {p : Axes Int}

/-- What a direction meets is that of its major axis. -/
theorem exists_isMajorOf_major (h : d.IsAt p) :
    ∃ axis, p.IsMajor axis ∧ IsMajorOf p axis (p.get axis < 0) (major d) := by
  have hs : d.s.IsAt p.s := h 0
  have ht : d.t.IsAt p.t := h 1
  have hr : d.r.IsAt p.r := h 2
  have hle : ∀ {x y : Single} {a b : Int}, x.IsAt a → y.IsAt b →
      x.abs.le y.abs = decide (a.natAbs ≤ b.natAbs) := by
    intro x y a b hx hy
    rw [Bool.eq_iff_iff, Single.le_iff_of_position hx.abs.position hy.abs.position,
      decide_eq_true_iff]
    omega
  have hsign : ∀ {x : Single} {a : Int}, x.IsAt a → Single.le 0 x = !decide (a < 0) := by
    intro x a hx
    rw [Bool.eq_iff_iff, Single.le_iff_of_position Single.position_zero hx.position,
      Bool.not_eq_true', decide_eq_false_iff_not]
    omega
  simp only [major, hle ht hs, hle hr hs, hle hr ht, hsign hs, hsign ht, hsign hr]
  by_cases hx : p.t.natAbs ≤ p.s.natAbs ∧ p.r.natAbs ≤ p.s.natAbs
  · refine ⟨0, Axes.isMajor_zero hx.1 hx.2, ?_⟩
    simp only [hx, decide_true, Bool.and_self, if_true]
    rw [Axes.get_zero]
    cases decide (p.s < 0) with
    | false => exact ⟨rfl, hr.neg, ht.neg, hs.abs⟩
    | true => exact ⟨rfl, hr, ht.neg, hs.abs⟩
  · rw [if_neg (by simpa only [Bool.and_eq_true, decide_eq_true_iff] using hx)]
    by_cases hy : p.r.natAbs ≤ p.t.natAbs
    · refine ⟨1, Axes.isMajor_one (by omega) hy, ?_⟩
      simp only [hy, decide_true, if_true]
      rw [Axes.get_one]
      cases decide (p.t < 0) with
      | false => exact ⟨rfl, hs, hr, ht.abs⟩
      | true => exact ⟨rfl, hs, hr.neg, ht.abs⟩
    · refine ⟨2, Axes.isMajor_two (by omega) (by omega), ?_⟩
      rw [if_neg (by simpa only [decide_eq_true_iff] using hy)]
      rw [Axes.get_two]
      cases decide (p.r < 0) with
      | false => exact ⟨rfl, hs, ht.neg, hr.abs⟩
      | true => exact ⟨rfl, hs.neg, ht.neg, hr.abs⟩

private theorem IsMajorOf.exists_isAt_divisor {axis : Fin 3} {negative : Bool}
    {m : Int32 × Single × Single × Single} (h : IsMajorOf p axis negative m) :
    ∃ n : Nat, (if m.2.2.2.same 0 then 1 else m.2.2.2).IsAt n ∧ 0 < n ∧
      (p.get axis).natAbs ≤ n ∧ (p.get axis ≠ 0 → n = (p.get axis).natAbs) := by
  have hzero := Single.same_iff_of_position h.greatest.position Single.position_zero
  split
  case isTrue hsame =>
    have := hzero.1 hsame
    exact ⟨gridPerOne, Single.isAt_one, Single.gridPerOne_pos, by omega, by omega⟩
  case isFalse hne =>
    refine ⟨_, h.greatest, Nat.pos_of_ne_zero fun heq ↦ hne (hzero.2 ?_), le_refl _, fun _ ↦ rfl⟩
    exact_mod_cast heq

/-- A direction with finite components meets the face of its major axis, between the corners. -/
theorem exists_ofDirection (h : d.IsAt p) :
    (∃ axis, p.IsMajor axis ∧ (ofDirection d).face = faceOf axis (p.get axis < 0)) ∧
      (ofDirection d).s.InUnit ∧ (ofDirection d).t.InUnit := by
  obtain ⟨axis, hmajor, hmeets⟩ := exists_isMajorOf_major h
  obtain ⟨n, hn, hpos, hle, -⟩ := hmeets.exists_isAt_divisor
  obtain ⟨hacross, hdown⟩ := natAbs_across_le hmajor (p.get axis < 0)
  exact ⟨⟨axis, hmajor, hmeets.face⟩,
    Single.inUnit_coordinate hmeets.across hn (hacross.trans hle) hpos,
    Single.inUnit_coordinate hmeets.down hn (hdown.trans hle) hpos⟩

/-- The two components on the face of the major axis are projected onto it. -/
theorem projectsTo_ofDirection (h : d.IsAt p) (hne : p ≠ .splat 0) {axis : Fin 3}
    (haxis : p.IsMajor axis) :
    (ofDirection d).s.ProjectsTo (across p axis (p.get axis < 0)) (p.get axis).natAbs ∧
      (ofDirection d).t.ProjectsTo (down p axis (p.get axis < 0)) (p.get axis).natAbs := by
  obtain ⟨axis', hmajor, hmeets⟩ := exists_isMajorOf_major h
  obtain rfl : axis' = axis := hmajor.eq haxis
  obtain ⟨n, hn, hpos, hle, hmagnitude⟩ := hmeets.exists_isAt_divisor
  obtain rfl : n = (p.get axis').natAbs :=
    hmagnitude fun hzero ↦ hne (hmajor.eq_splat_zero hzero)
  obtain ⟨hacross, hdown⟩ := natAbs_across_le hmajor (p.get axis' < 0)
  exact ⟨Single.projectsTo_coordinate hmeets.across hn hacross hpos,
    Single.projectsTo_coordinate hmeets.down hn hdown hpos⟩

theorem ofDirection_of_isAt_zero (h : d.IsAt (.splat 0)) :
    ofDirection d = ⟨Single.half, Single.half, 0⟩ := by
  obtain ⟨axis, hmajor, hmeets⟩ := exists_isMajorOf_major h
  obtain ⟨n, hn, hpos, hle, -⟩ := hmeets.exists_isAt_divisor
  obtain rfl : axis = 0 := hmajor.eq (Axes.isMajor_splat 0)
  have hs := (Single.projectsTo_coordinate hmeets.across hn (Nat.zero_le n) hpos).center rfl
  have ht := (Single.projectsTo_coordinate hmeets.down hn (Nat.zero_le n) hpos).center rfl
  have hface : (major d).1 = 0 := hmeets.face
  simp only [ofDirection, hs, ht, hface]

theorem face_ofDirection_neg (h : d.IsAt p) (hne : p ≠ .splat 0) :
    (ofDirection (-d)).face = (ofDirection d).face ^^^ 1 := by
  have hneg : (-d).IsAt (p.map Neg.neg) := fun axis ↦ by
    have hget : (-d).get axis = -d.get axis := Axes.get_map Neg.neg d axis
    rw [hget, Axes.get_map]
    exact (h axis).neg
  obtain ⟨⟨axis, hmajor, hface⟩, -⟩ := exists_ofDirection h
  obtain ⟨⟨axis', hmajor', hface'⟩, -⟩ := exists_ofDirection hneg
  obtain rfl : axis' = axis := hmajor'.eq hmajor.map_neg
  have hturned : decide ((p.map Neg.neg).get axis' < 0) = !decide (p.get axis' < 0) := by
    have hsome : p.get axis' ≠ 0 := fun hzero ↦ hne (hmajor.eq_splat_zero hzero)
    rw [Axes.get_map, ← decide_not, decide_eq_decide]
    omega
  rw [hface', hface, hturned, faceOf_not]

end Finite

section Scaled

variable {k k' : Nat} (hk : 0 < k) (hk' : 0 < k') {d d' : Axes Single}
  (h : ∀ axis, Single.Scales k k' (d.get axis) (d'.get axis))
include hk hk' h

theorem scales_major :
    (major d).1 = (major d').1 ∧ Single.Scales k k' (major d).2.1 (major d').2.1 ∧
      Single.Scales k k' (major d).2.2.1 (major d').2.2.1 ∧
      Single.Scales k k' (major d).2.2.2 (major d').2.2.2 := by
  have hs : Single.Scales k k' d.s d'.s := h 0
  have ht : Single.Scales k k' d.t d'.t := h 1
  have hr : Single.Scales k k' d.r d'.r := h 2
  have h0 := Single.scales_zero k k'
  simp only [major, ht.abs.le_eq hk hk' hs.abs, hr.abs.le_eq hk hk' hs.abs,
    hr.abs.le_eq hk hk' ht.abs, h0.le_eq hk hk' hs, h0.le_eq hk hk' ht, h0.le_eq hk hk' hr]
  split_ifs
  · exact ⟨rfl, hr.neg, ht.neg, hs.abs⟩
  · exact ⟨rfl, hr, ht.neg, hs.abs⟩
  · exact ⟨rfl, hs, hr, ht.abs⟩
  · exact ⟨rfl, hs, hr.neg, ht.abs⟩
  · exact ⟨rfl, hs, ht.neg, hr.abs⟩
  · exact ⟨rfl, hs.neg, ht.neg, hr.abs⟩

/-- Directions with components scaled alike point at the same place. -/
theorem ofDirection_eq_of_scales {p : Axes Int} (hp : d.IsAt p) :
    ofDirection d' = ofDirection d := by
  by_cases hzero : p = .splat 0
  · -- a direction zero is scaled to itself
    have hd : d = d' := Axes.ext_get fun axis ↦ by
      have hat := hp axis
      rw [hzero, Axes.get_splat] at hat
      exact (h axis).eq_of_isAt_zero hk' hat
    rw [hd]
  · obtain ⟨hface, hs, ht, hgreatest⟩ := scales_major hk hk' h
    obtain ⟨axis, hmajor, hmeets⟩ := exists_isMajorOf_major hp
    have hsame : (major d).2.2.2.same 0 = false := by
      rw [← Bool.not_eq_true,
        Single.same_iff_of_position hmeets.greatest.position Single.position_zero]
      exact fun heq ↦ hzero (hmajor.eq_splat_zero (by omega))
    have hsame' : (major d').2.2.2.same 0 = false := by
      rw [← hgreatest.same_eq hk hk' (Single.scales_zero k k'), hsame]
    simp only [ofDirection, hsame, hsame', hface, hs.div_eq hk hk' hgreatest,
      ht.div_eq hk hk' hgreatest, Bool.false_eq_true, if_false]

end Scaled

/-- **Directions are projected onto the faces of the cube.** Whatever the components are, the face
is one of six. If they are finite, it is the face of the first component of the greatest magnitude,
on the side of its sign. Both coordinates are between zero and one, and unless the direction is zero
they are what runs across and down that face over the major magnitude, moved from minus one and one
to zero and one. The direction zero points at the middle of the first face. Every other direction
and its opposite meet opposite faces. A direction multiplied by a power of two points at the same
place, to the last bit, if no product overflows or underflows. -/
theorem cube_face_projection :
    (∀ d, 0 ≤ (ofDirection d).face.toInt ∧ (ofDirection d).face.toInt ≤ 5) ∧
    ∀ (d : Axes Single) (p : Axes Int), d.IsAt p →
      (∃ axis, p.IsMajor axis ∧ (ofDirection d).face = faceOf axis (p.get axis < 0)) ∧
      (p ≠ .splat 0 → ∀ axis, p.IsMajor axis →
        (ofDirection d).s.ProjectsTo (across p axis (p.get axis < 0)) (p.get axis).natAbs ∧
        (ofDirection d).t.ProjectsTo (down p axis (p.get axis < 0)) (p.get axis).natAbs) ∧
      (Single.le 0 (ofDirection d).s = true ∧ (ofDirection d).s.le 1 = true) ∧
      (Single.le 0 (ofDirection d).t = true ∧ (ofDirection d).t.le 1 = true) ∧
      (p = .splat 0 → ofDirection d = ⟨Single.half, Single.half, 0⟩) ∧
      (p ≠ .splat 0 → (ofDirection (-d)).face = (ofDirection d).face ^^^ 1) ∧
      ∀ (scale : Single) (j : Nat), scale.IsAt (2 ^ j : Nat) →
        (∀ axis, (d.get axis * scale).IsFinite ∧ ¬ (d.get axis).Underflows scale) →
        ofDirection (d.scaleBy scale) = ofDirection d := by
  refine ⟨fun d ↦ ?_, fun d p h ↦ ?_⟩
  · obtain ⟨hlow, hhigh⟩ := face_major d
    exact ⟨hlow, Int.le_of_lt_add_one hhigh⟩
  · obtain ⟨hface, hs, ht⟩ := exists_ofDirection h
    refine ⟨hface, fun hne axis haxis ↦ projectsTo_ofDirection h hne haxis,
      ⟨hs.zero_le, hs.le_one⟩, ⟨ht.zero_le, ht.le_one⟩, fun hzero ↦ ?_,
      face_ofDirection_neg h, ?_⟩
    · rw [hzero] at h
      exact ofDirection_of_isAt_zero h
    · intro scale j hscale hsafe
      refine ofDirection_eq_of_scales (Nat.two_pow_pos j) Single.gridPerOne_pos (fun axis ↦ ?_) h
      have hget : (d.scaleBy scale).get axis = d.get axis * scale := Axes.get_map _ d axis
      rw [hget]
      exact Single.scales_mul_two_pow hscale (h axis).isFinite (hsafe axis).1 (hsafe axis).2

/-- A direction halfway between two faces, and the same at half of its length. It meets the lower
of the two at the edge. -/
theorem cube_face_projection_edge :
    let d : Axes Single := ⟨Single.half, -1, 1⟩
    let p : Axes Int := ⟨2 ^ 148, -2 ^ 149, 2 ^ 149⟩
    (∃ axis, p.IsMajor axis ∧ (ofDirection d).face = faceOf axis (p.get axis < 0)) ∧
      ((ofDirection d).s.ProjectsTo p.s p.t.natAbs ∧
        (ofDirection d).t.ProjectsTo (-p.r) p.t.natAbs ∧ (ofDirection d).t = 0) ∧
      (ofDirection (-d)).face = (ofDirection d).face ^^^ 1 ∧
      ofDirection (d.scaleBy Single.half) = ofDirection d := by
  intro d p
  have h : d.IsAt p := fun axis ↦ by
    match axis with
    | 0 => exact Single.isAt_half
    | 1 => exact Single.isAt_one.neg
    | 2 => exact Single.isAt_one
  obtain ⟨hface, hprojects, -, -, -, hneg, hscale⟩ := cube_face_projection.2 d p h
  have hsign : decide (p.get 1 < 0) = true := by decide
  obtain ⟨hs, ht⟩ := hprojects (by decide) 1 (Axes.isMajor_one (by decide) (by decide))
  rw [hsign] at hs ht
  refine ⟨hface, ⟨hs, ht, ht.first_edge (by decide)⟩, hneg (by decide),
    hscale Single.half 148 Single.isAt_half fun axis ↦ ⟨?_, ?_⟩⟩
  · refine ⟨(p.get axis) / 2, Single.isAt_of_position ?_ ?_⟩
    · match axis with
      | 0 | 1 | 2 => decide
    · match axis with
      | 0 | 1 | 2 => decide
  · refine Single.not_underflows_of_le (h axis) Single.isAt_half ?_
    match axis with
    | 0 | 1 | 2 => decide

end CubePoint

end QuadSampler
