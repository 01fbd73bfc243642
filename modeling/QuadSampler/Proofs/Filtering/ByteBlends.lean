import Mathlib.Algebra.BigOperators.Group.Finset.Powerset
import Mathlib.Algebra.BigOperators.Ring.Finset
import Mathlib.Algebra.Order.Field.Basic
import Mathlib.Algebra.Order.Ring.Rat
import Mathlib.Tactic.Linarith
import Mathlib.Tactic.NormNum
import Mathlib.Tactic.Positivity
import Mathlib.Tactic.Ring
import QuadSampler.Filtering.FixedPoint
import QuadSampler.Proofs.Addressing.Repetition

/-!
# Blends of bytes

A blend of two bytes is one of integers: nothing wraps around on the way, and the result fits a byte
(`FixedPoint.IsWeight.toNat_mixByte`). From the formula it lies between its ends, does not fall
where they do not, and is one of them at the two ends of the weight.

A linear filter nests blends, one for each axis. `FixedPoint.blendOver` is such a nest over a list
of axes, with a value for each corner of the cell that they span, and each law of a single blend
becomes one of nests by induction on the list. The exact counterpart is a sum over all corners
(`FixedPoint.exactBlend`). It obeys the same recursion, and a rounded blend is off by one half more
than what it blends, so the nest over `d` axes is off by at most `d / 2`.
-/

namespace QuadSampler

/-! ## Bytes in words -/

private theorem toInt_ofByte (b : UInt8) : b.toUInt32.toInt32.toInt = b.toNat := by
  have hlt := b.toNat_lt
  have hbits : b.toUInt32.toInt32.toBitVec.toNat = b.toNat := UInt8.toNat_toUInt32 b
  rw [toInt_of_toNat_toBitVec (by omega), hbits]

private theorem toNat_toByte {i : Int32} (h : 0 ≤ i.toInt) (h' : i.toInt < 256) :
    (i.toUInt32.toUInt8.toNat : Int) = i.toInt := by
  have hword := toNat_toUInt32 i
  rw [UInt32.toNat_toUInt8]
  omega

/-! ## One blend -/

namespace FixedPoint

/-- A weight in 256ths. -/
def IsWeight (w : Int32) : Prop := 0 ≤ w.toInt ∧ w.toInt ≤ 256

instance (w : Int32) : Decidable (IsWeight w) := inferInstanceAs (Decidable (_ ∧ _))

variable {w : Int32}

private theorem IsWeight.step_mem (h : IsWeight w) (d : Int) :
    min 0 d ≤ (d * w.toInt + 128) / 256 ∧ (d * w.toInt + 128) / 256 ≤ max 0 d := by
  obtain ⟨hlow, hhigh⟩ := h
  rcases le_total 0 d with hd | hd
  · have hle : d * w.toInt ≤ d * 256 := Int.mul_le_mul_of_nonneg_left hhigh hd
    have hge : 0 ≤ d * w.toInt := Int.mul_nonneg hd hlow
    omega
  · have hge : d * 256 ≤ d * w.toInt := Int.mul_le_mul_of_nonpos_left hd hhigh
    have hle : d * w.toInt ≤ 0 := Int.mul_nonpos_of_nonpos_of_nonneg hd hlow
    omega

theorem IsWeight.toNat_mixByte (h : IsWeight w) (a b : UInt8) :
    ((mixByte w a b).toNat : Int) = a.toNat + ((b.toNat - a.toNat) * w.toInt + 128) / 256 := by
  have hstep := h.step_mem (b.toNat - a.toNat)
  obtain ⟨hlow, hhigh⟩ := h
  have ha := a.toNat_lt
  have hb := b.toNat_lt
  let a' := a.toUInt32.toInt32
  let b' := b.toUInt32.toInt32
  have hsub : (b' - a').toInt = b.toNat - a.toNat := by
    rw [Int32.toInt_sub, toInt_ofByte, toInt_ofByte, Int.bmod_eq_of_le] <;> omega
  have hmul : ((b' - a') * w).toInt = (b.toNat - a.toNat) * w.toInt := by
    rw [toInt_mul_of_fits] <;> rw [hsub] <;> nlinarith
  have hround : ((b' - a') * w + 128).toInt = (b.toNat - a.toNat) * w.toInt + 128 := by
    have h128 : (128 : Int32).toInt = 128 := rfl
    rw [toInt_add_of_fits] <;> rw [hmul, h128] <;> nlinarith
  have hshift : (((b' - a') * w + 128) >>> 8).toInt
      = ((b.toNat - a.toNat) * w.toInt + 128) / 256 := by
    rw [← hround]
    exact toInt_whole _
  have hsum : (a' + (((b' - a') * w + 128) >>> 8)).toInt
      = a.toNat + ((b.toNat - a.toNat) * w.toInt + 128) / 256 := by
    rw [toInt_add_of_fits] <;> rw [toInt_ofByte, hshift] <;> omega
  rw [← hsum]
  refine toNat_toByte ?_ ?_ <;> rw [hsum] <;> omega

theorem IsWeight.mixByte_mem (h : IsWeight w) (a b : UInt8) :
    min a.toNat b.toNat ≤ (mixByte w a b).toNat ∧ (mixByte w a b).toNat ≤ max a.toNat b.toNat := by
  have hbyte := h.toNat_mixByte a b
  have hstep := h.step_mem (b.toNat - a.toNat)
  omega

private theorem IsWeight.mixByte_mono (h : IsWeight w) {a a' b b' : UInt8} (ha : a ≤ a')
    (hb : b ≤ b') :
    mixByte w a b ≤ mixByte w a' b' := by
  have hmean : ∀ x y : Int, x + ((y - x) * w.toInt + 128) / 256
      = (x * (256 - w.toInt) + y * w.toInt + 128) / 256 := by
    intro x y
    have hsplit : x * (256 - w.toInt) + y * w.toInt + 128
        = (y - x) * w.toInt + 128 + x * 256 := by ring
    rw [hsplit, Int.add_mul_ediv_right _ _ (by decide), Int.add_comm]
  have hbyte := h.toNat_mixByte a b
  have hbyte' := h.toNat_mixByte a' b'
  rw [hmean] at hbyte hbyte'
  obtain ⟨hlow, hhigh⟩ := h
  rw [UInt8.le_iff_toNat_le] at ha hb ⊢
  have hsum : (a.toNat : Int) * (256 - w.toInt) + b.toNat * w.toInt + 128
      ≤ a'.toNat * (256 - w.toInt) + b'.toNat * w.toInt + 128 := by
    have hfirst : (a.toNat : Int) * (256 - w.toInt) ≤ a'.toNat * (256 - w.toInt) :=
      Int.mul_le_mul_of_nonneg_right (by omega) (by omega)
    have hsecond : (b.toNat : Int) * w.toInt ≤ b'.toNat * w.toInt :=
      Int.mul_le_mul_of_nonneg_right (by omega) hlow
    omega
  have hdiv := Int.ediv_le_ediv (c := 256) (by decide) hsum
  omega

private theorem mixByte_of_zero (hw : w.toInt = 0) (a b : UInt8) : mixByte w a b = a := by
  have hbyte := IsWeight.toNat_mixByte (w := w) ⟨by omega, by omega⟩ a b
  rw [hw, Int.mul_zero] at hbyte
  exact UInt8.toNat_inj.1 (by omega)

private theorem mixByte_of_256 (hw : w.toInt = 256) (a b : UInt8) : mixByte w a b = b := by
  have hbyte := IsWeight.toNat_mixByte (w := w) ⟨by omega, by omega⟩ a b
  rw [hw] at hbyte
  exact UInt8.toNat_inj.1 (by omega)

/-- A blend of approximate bytes is off by one half more than the bytes. -/
theorem IsWeight.abs_mixByte_sub_le (h : IsWeight w) {a b : UInt8} {x y e : ℚ}
    (ha : |(a.toNat : ℚ) - x| ≤ e) (hb : |(b.toNat : ℚ) - y| ≤ e) :
    |((mixByte w a b).toNat : ℚ) - ((1 - (w.toInt / 256 : ℚ)) * x + w.toInt / 256 * y)|
      ≤ e + 1 / 2 := by
  have hbyte := h.toNat_mixByte a b
  have hlow : (0 : ℚ) ≤ w.toInt / 256 := by
    have : (0 : ℚ) ≤ w.toInt := by exact_mod_cast h.1
    positivity
  have hhigh : (w.toInt / 256 : ℚ) ≤ 1 := by
    rw [div_le_one (by norm_num)]
    exact_mod_cast h.2
  -- the rounded blend of the bytes is at most one half off the exact one
  have hround : |((mixByte w a b).toNat : ℚ)
      - ((1 - (w.toInt / 256 : ℚ)) * a.toNat + w.toInt / 256 * b.toNat)| ≤ 1 / 2 := by
    have hupper : (256 * (mixByte w a b).toNat : ℚ)
        ≤ 256 * a.toNat + (b.toNat - a.toNat) * w.toInt + 128 := by
      have : (256 * (mixByte w a b).toNat : Int)
          ≤ 256 * a.toNat + (b.toNat - a.toNat) * w.toInt + 128 := by omega
      exact_mod_cast this
    have hlower : (256 * a.toNat + (b.toNat - a.toNat) * w.toInt + 128 : ℚ)
        ≤ 256 * (mixByte w a b).toNat + 256 := by
      have : (256 * a.toNat + (b.toNat - a.toNat) * w.toInt + 128 : Int)
          ≤ 256 * (mixByte w a b).toNat + 256 := by omega
      exact_mod_cast this
    rw [abs_le]
    constructor <;> linarith
  -- and the exact blend of the bytes is no farther off than the bytes
  have hexact : |((1 - (w.toInt / 256 : ℚ)) * a.toNat + w.toInt / 256 * b.toNat)
      - ((1 - (w.toInt / 256 : ℚ)) * x + w.toInt / 256 * y)| ≤ e := by
    rw [abs_le] at ha hb ⊢
    constructor <;> nlinarith
  calc |((mixByte w a b).toNat : ℚ) - ((1 - (w.toInt / 256 : ℚ)) * x + w.toInt / 256 * y)|
      ≤ 1 / 2 + e := (abs_sub_le _ _ _).trans (add_le_add hround hexact)
    _ = e + 1 / 2 := add_comm _ _

/-! ## Blends over several axes -/

/-- The blend of the values at the corners of a cell, with one weight for each axis, along the first
axis last. A corner is the set of the axes along which it is on the second side. -/
def blendOver {C : Type} (blend : Int32 → C → C → C) (weight : Fin 3 → Int32) :
    List (Fin 3) → (Finset (Fin 3) → C) → C
  | [], value => value ∅
  | axis :: inner, value =>
    blend (weight axis) (blendOver blend weight inner value)
      (blendOver blend weight inner fun corner ↦ value (insert axis corner))

theorem blendOver_congr {C : Type} {blend : Int32 → C → C → C} {weight weight' : Fin 3 → Int32}
    {axes : List (Fin 3)} (h : ∀ axis ∈ axes, weight axis = weight' axis)
    (value : Finset (Fin 3) → C) :
    blendOver blend weight axes value = blendOver blend weight' axes value := by
  induction axes generalizing value with
  | nil => rfl
  | cons axis inner ih =>
    have ih := ih fun axis' h' ↦ h axis' (List.mem_cons_of_mem axis h')
    rw [blendOver, blendOver, h axis List.mem_cons_self, ih, ih]

/-- The exact blend of the values at the corners of a cell: each corner counts by the product of its
shares along the axes. -/
def exactBlend (axes : Finset (Fin 3)) (share : Fin 3 → ℚ) (value : Finset (Fin 3) → ℚ) : ℚ :=
  ∑ corner ∈ axes.powerset,
    (∏ axis ∈ corner, share axis) * (∏ axis ∈ axes \ corner, (1 - share axis)) * value corner

private theorem exactBlend_insert {axes : Finset (Fin 3)} {axis : Fin 3} (h : axis ∉ axes)
    (share : Fin 3 → ℚ) (value : Finset (Fin 3) → ℚ) :
    exactBlend (insert axis axes) share value
      = (1 - share axis) * exactBlend axes share value
        + share axis * exactBlend axes share fun corner ↦ value (insert axis corner) := by
  rw [exactBlend, Finset.sum_powerset_insert h, exactBlend, exactBlend, Finset.mul_sum,
    Finset.mul_sum]
  congr 1 <;> refine Finset.sum_congr rfl fun corner hcorner ↦ ?_
  all_goals
    have hnot : axis ∉ corner := fun hmem ↦ h (Finset.mem_powerset.1 hcorner hmem)
  · have hrest : insert axis axes \ corner = insert axis (axes \ corner) :=
      Finset.insert_sdiff_of_notMem _ hnot
    rw [hrest, Finset.prod_insert fun hmem ↦ h (Finset.mem_sdiff.1 hmem).1]
    ring
  · have hrest : insert axis axes \ insert axis corner = axes \ corner := by
      rw [Finset.insert_sdiff_insert, Finset.sdiff_insert, Finset.erase_eq_of_notMem]
      exact fun hmem ↦ h (Finset.mem_sdiff.1 hmem).1
    rw [hrest, Finset.prod_insert hnot]
    ring

section Cell

variable {weight : Fin 3 → Int32} {axes : List (Fin 3)}

/-- What relates an end of a blend to the blend relates a corner of a cell to the blend over it. -/
theorem exists_blendOver {R : UInt8 → UInt8 → Prop} (hrefl : ∀ v, R v v)
    (htrans : ∀ {u v w}, R u v → R v w → R u w)
    (hmix : ∀ axis ∈ axes, ∀ a b,
      R a (mixByte (weight axis) a b) ∨ R b (mixByte (weight axis) a b))
    (value : Finset (Fin 3) → UInt8) :
    ∃ corner ⊆ axes.toFinset, R (value corner) (blendOver mixByte weight axes value) := by
  induction axes generalizing value with
  | nil => exact ⟨∅, Finset.empty_subset _, hrefl _⟩
  | cons axis inner ih =>
    have ih := ih fun axis' h ↦ hmix axis' (List.mem_cons_of_mem axis h)
    rw [List.toFinset_cons]
    rcases hmix axis List.mem_cons_self (blendOver mixByte weight inner value)
      (blendOver mixByte weight inner fun corner ↦ value (insert axis corner)) with hfirst | hsecond
    · obtain ⟨corner, hsub, hR⟩ := ih value
      exact ⟨corner, hsub.trans (Finset.subset_insert _ _), htrans hR hfirst⟩
    · obtain ⟨corner, hsub, hR⟩ := ih fun corner ↦ value (insert axis corner)
      exact ⟨insert axis corner, Finset.insert_subset_insert _ hsub, htrans hR hsecond⟩

theorem blendOver_mono (hweight : ∀ axis ∈ axes, IsWeight (weight axis))
    {value value' : Finset (Fin 3) → UInt8}
    (h : ∀ corner ⊆ axes.toFinset, value corner ≤ value' corner) :
    blendOver mixByte weight axes value ≤ blendOver mixByte weight axes value' := by
  induction axes generalizing value value' with
  | nil => exact h ∅ (Finset.empty_subset _)
  | cons axis inner ih =>
    have hinner : ∀ axis' ∈ inner, IsWeight (weight axis') := fun axis' h' ↦
      hweight axis' (List.mem_cons_of_mem axis h')
    rw [List.toFinset_cons] at h
    refine (hweight axis List.mem_cons_self).mixByte_mono (ih hinner fun corner hsub ↦ ?_)
      (ih hinner fun corner hsub ↦ ?_)
    · exact h corner (hsub.trans (Finset.subset_insert _ _))
    · exact h _ (Finset.insert_subset_insert _ hsub)

theorem blendOver_of_zero (h : ∀ axis ∈ axes, (weight axis).toInt = 0)
    (value : Finset (Fin 3) → UInt8) : blendOver mixByte weight axes value = value ∅ := by
  induction axes generalizing value with
  | nil => rfl
  | cons axis inner ih =>
    rw [blendOver, mixByte_of_zero (h axis List.mem_cons_self)]
    exact ih (fun axis' h' ↦ h axis' (List.mem_cons_of_mem axis h')) value

/-- Each axis adds at most one half to the distance from the exact blend. -/
theorem abs_blendOver_sub_le (hnodup : axes.Nodup)
    (hweight : ∀ axis ∈ axes, IsWeight (weight axis)) (value : Finset (Fin 3) → UInt8) :
    |((blendOver mixByte weight axes value).toNat : ℚ)
        - exactBlend axes.toFinset (fun axis ↦ (weight axis).toInt / 256)
            fun corner ↦ (value corner).toNat| ≤ axes.length / 2 := by
  induction axes generalizing value with
  | nil => simp [blendOver, exactBlend]
  | cons axis inner ih =>
    obtain ⟨hnot, hnodup⟩ := List.nodup_cons.1 hnodup
    have ih := ih hnodup fun axis' h ↦ hweight axis' (List.mem_cons_of_mem axis h)
    rw [List.toFinset_cons, exactBlend_insert (by rwa [List.mem_toFinset]), List.length_cons]
    refine ((hweight axis List.mem_cons_self).abs_mixByte_sub_le (ih value)
      (ih fun corner ↦ value (insert axis corner))).trans (le_of_eq ?_)
    rw [Nat.cast_succ]
    ring

end Cell

/-! ## Colours -/

theorem mix_of_zero {w : Int32} (hw : w.toInt = 0) (a b : Color UInt8) : mix w a b = a :=
  Color.ext_get fun channel ↦ by rw [mix, Color.get_zipWith, mixByte_of_zero hw]

theorem mix_of_256 {w : Int32} (hw : w.toInt = 256) (a b : Color UInt8) : mix w a b = b :=
  Color.ext_get fun channel ↦ by rw [mix, Color.get_zipWith, mixByte_of_256 hw]

theorem mix_self {w : Int32} (hw : IsWeight w) (a : Color UInt8) : mix w a a = a := by
  refine Color.ext_get fun channel ↦ ?_
  obtain ⟨hlow, hhigh⟩ := hw.mixByte_mem (a.get channel) (a.get channel)
  rw [mix, Color.get_zipWith, ← UInt8.toNat_inj]
  omega

theorem get_blendOver (weight : Fin 3 → Int32) (axes : List (Fin 3))
    (value : Finset (Fin 3) → Color UInt8) (channel : Fin 4) :
    (blendOver mix weight axes value).get channel
      = blendOver mixByte weight axes fun corner ↦ (value corner).get channel := by
  induction axes generalizing value with
  | nil => rfl
  | cons axis inner ih =>
    rw [blendOver, mix, Color.get_zipWith, ih, ih]
    rfl

end FixedPoint

end QuadSampler
