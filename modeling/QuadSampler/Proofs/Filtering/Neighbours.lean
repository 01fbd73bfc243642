import QuadSampler.Proofs.Addressing.Repetition
import QuadSampler.Proofs.Filtering.Offsets

/-!
# The neighbour of a texel, in both paths

Under a linear filter the path in numbers wraps an index and the index after it, each on its own.
The fixed-point path wraps the first only and steps to its neighbour: by one stride, or to offset
zero behind the last texel of a repeated axis, or not at all at an edge. The two agree, in words
that may wrap around, for every stride (`linear_offsets_wrap_neighbours`).

The indices of both paths are those of `OffsetAxis.wrapIndex`. Where the index after the greatest
word is concerned (`OffsetAxis.NextFits`), a repeated axis does not mind, since a power of two
divides the number of words and the biased remainder is taken without sign. A clamp does mind: there
the word after the greatest one is the least, which lies at the other edge.
-/

namespace QuadSampler

/-! ## Stepping along an axis -/

private theorem add_one_emod (z : Int) {n : Int} (hn : 0 < n) :
    (z + 1) % n = if z % n = n - 1 then 0 else z % n + 1 := by
  have hlow := Int.emod_nonneg z hn.ne'
  have hhigh := Int.emod_lt_of_pos z hn
  rw [← Int.emod_add_emod]
  split
  case isTrue hlast => rw [hlast, Int.sub_add_cancel, Int.emod_self]
  case isFalse hnot => exact Int.emod_eq_of_lt (by omega) (by omega)

/-- On a repeated axis the texel after the last is the first. -/
theorem SoundLength.exists_repeatIndex_succ {length : Int32} {powerOfTwo : Bool}
    (h : SoundLength length powerOfTwo) {i : Int32}
    (hi : powerOfTwo = true ∨
      InRepeatWindow length i.toInt ∧ InRepeatWindow length (i.toInt + 1)) :
    ∃ j, repeatIndex i length powerOfTwo = .ok j ∧
      repeatIndex (i + 1) length powerOfTwo = .ok (if j = length - 1 then 0 else j + 1) := by
  obtain ⟨j, hj, hrem⟩ := h.exists_repeatIndex_eq_ok (hi.imp_right And.left)
  obtain ⟨j', hj', hrem'⟩ := h.exists_repeatIndex_eq_ok (hi.imp_right And.right)
  rw [Int32.ofInt_toInt] at hj
  rw [Int32.ofInt_add, Int32.ofInt_toInt] at hj'
  have hnext : j' = if j = length - 1 then 0 else j + 1 := by
    have hlast : (length - 1).toInt = length.toInt - 1 := toInt_sub_one h.pos.le
    have hlow := Int.emod_nonneg i.toInt h.pos.ne'
    have hhigh := Int.emod_lt_of_pos i.toInt h.pos
    have hlt := length.toInt_lt
    rw [← Int32.toInt_inj, hrem', add_one_emod _ h.pos, ← hrem, ← hlast]
    simp only [Int32.toInt_inj]
    split
    case isTrue => rfl
    case isFalse hnot =>
      have hne : j.toInt ≠ (length - 1).toInt := mt Int32.toInt_inj.1 hnot
      rw [toInt_add_one (by omega)]
  exact ⟨j, hj, hnext ▸ hj'⟩

private theorem clampIndex_succ {i last : Int32} (hlast : 0 ≤ last.toInt)
    (hi : i.toInt < 2 ^ 31 - 1) :
    clampIndex (i + 1) 0 last
      = clampIndex i 0 last + (if 0 ≤ i ∧ i < last then 1 else 0) := by
  have hlt := last.toInt_lt
  have hclamp := toInt_clampIndex_zero i last
  have hclamp' := toInt_clampIndex_zero (i + 1) last
  rw [toInt_add_one hi] at hclamp'
  rw [← Int32.toInt_inj]
  simp only [Int32.le_iff_toInt_le, Int32.lt_iff_toInt_lt, Int32.toInt_zero]
  split
  case isTrue hinside => rw [toInt_add_one (by omega)]; omega
  case isFalse hnot => rw [Int32.add_zero]; omega

namespace FixedPoint.OffsetAxis

variable {axis : OffsetAxis} {i : Int32}

/-! ## Indices that are wrapped alike -/

/-- The index of a texel for any index: repeated along the axis, or clamped to it. -/
def wrapIndex (axis : OffsetAxis) (i : Int32) : Except Fault Int32 :=
  match axis.wrap with
  | .repeating => repeatIndex i axis.length axis.powerOfTwo
  | .clampToEdge => .ok (clampIndex i 0 (axis.length - 1))

/-- Whether an index and the one after it can be wrapped. -/
def NextFits (axis : OffsetAxis) (i : Int32) : Prop :=
  match axis.wrap with
  | .repeating => axis.powerOfTwo = true ∨
      InRepeatWindow axis.length i.toInt ∧ InRepeatWindow axis.length (i.toInt + 1)
  | .clampToEdge => i.toInt < 2 ^ 31 - 1

/-- The axis as coordinates are wrapped along it in numbers. -/
def wrapAxis (axis : OffsetAxis) (normalized : Bool) : WrapAxis :=
  ⟨axis.length, axis.powerOfTwo, normalized⟩

private theorem nearest_wrapAxis {mode : WrapMode} (h : SimpleWrap.ofMode? mode = some axis.wrap)
    (normalized : Bool) (c : Single) :
    mode.nearest (axis.wrapAxis normalized) c
      = axis.wrapIndex ((axis.wrapAxis normalized).toTexels c).floorInt32 := by
  cases mode with
  | repeating | clampToEdge =>
    rw [wrapIndex, ← Option.some.inj h]
    rfl
  | clamp | clampToBorder | mirrorRepeat | mirrorClamp | mirrorClampToEdge | mirrorClampToBorder =>
    exact nomatch h

private theorem exists_linear_wrapAxis {mode : WrapMode}
    (h : SimpleWrap.ofMode? mode = some axis.wrap) (normalized : Bool) (c : Single) :
    ∃ i weight, mode.linear (axis.wrapAxis normalized) c = do
      return ⟨← axis.wrapIndex i, ← axis.wrapIndex (i + 1), weight⟩ := by
  cases mode with
  | repeating | clampToEdge =>
    simp only [wrapIndex, ← Option.some.inj h]
    exact ⟨_, _, rfl⟩
  | clamp | clampToBorder | mirrorRepeat | mirrorClamp | mirrorClampToEdge | mirrorClampToBorder =>
    exact nomatch h

/-! ## Offsets -/

private theorem nearest_eq (axis : OffsetAxis) (i : Int32) :
    axis.nearest i = do return (← axis.wrapIndex i) * axis.stride := by
  rw [nearest, wrapIndex]
  cases axis.wrap <;> rfl

private theorem exists_wrapIndex_eq_ok (hsound : SoundLength axis.length axis.powerOfTwo)
    (i : Int32) :
    ∃ j, axis.wrapIndex i = .ok j := by
  rw [wrapIndex]
  cases axis.wrap with
  | repeating =>
    obtain ⟨j, hj, -⟩ := hsound.repeatIndex_eq_ok i
    exact ⟨j, hj⟩
  | clampToEdge => exact ⟨_, rfl⟩

/-- The offset of the neighbour is that of the index after the first, wrapped on its own. -/
theorem NextFits.exists_linear_eq_ok (hi : axis.NextFits i)
    (hsound : SoundLength axis.length axis.powerOfTwo) :
    ∃ j j', axis.wrapIndex i = .ok j ∧ axis.wrapIndex (i + 1) = .ok j' ∧
      axis.linear i = .ok (j * axis.stride, j' * axis.stride) := by
  cases hwrap : axis.wrap with
  | repeating =>
    simp only [NextFits, hwrap] at hi
    simp only [wrapIndex, linear, hwrap]
    obtain ⟨j, hj, hnext⟩ := hsound.exists_repeatIndex_succ hi
    refine ⟨j, _, hj, hnext, bind_eq_ok.2 ⟨j, hj, ?_⟩⟩
    have hstep : (if j = axis.length - 1 then 0 else j + 1) * axis.stride
        = if j = axis.length - 1 then 0 else j * axis.stride + axis.stride := by
      split
      case isTrue => rw [Int32.zero_mul]
      case isFalse => rw [Int32.add_mul, Int32.one_mul]
    rw [hstep]
    rfl
  | clampToEdge =>
    simp only [NextFits, hwrap] at hi
    have hlast : 0 ≤ (axis.length - 1).toInt := by
      have := hsound.pos
      rw [toInt_sub_one this.le]
      omega
    simp only [wrapIndex, linear, hwrap, ite_eq_clampIndex hlast]
    refine ⟨_, _, rfl, rfl, ?_⟩
    rw [clampIndex_succ hlast hi, Int32.add_mul]
    split
    case isTrue => rw [Int32.one_mul]
    case isFalse => rw [Int32.zero_mul]

end FixedPoint.OffsetAxis

/-- **Neighbours by stepping are neighbours by wrapping.** On an axis of any length and any stride,
the fixed-point path takes the offset of a nearest texel from the index that it wraps, and the
offsets of two neighbours from an index and the one after it, each wrapped on its own. These are the
indices that the path in numbers wraps, in the same way, to find one texel or two. -/
theorem linear_offsets_wrap_neighbours {axis : FixedPoint.OffsetAxis}
    (hsound : SoundLength axis.length axis.powerOfTwo) :
    (∀ i, ∃ j, axis.wrapIndex i = .ok j ∧ axis.nearest i = .ok (j * axis.stride)) ∧
    (∀ i, axis.NextFits i → ∃ j j', axis.wrapIndex i = .ok j ∧ axis.wrapIndex (i + 1) = .ok j' ∧
      axis.linear i = .ok (j * axis.stride, j' * axis.stride)) ∧
    ∀ mode, SimpleWrap.ofMode? mode = some axis.wrap → ∀ normalized c,
      (mode.nearest (axis.wrapAxis normalized) c
        = axis.wrapIndex ((axis.wrapAxis normalized).toTexels c).floorInt32) ∧
      ∃ i weight, mode.linear (axis.wrapAxis normalized) c = do
        return ⟨← axis.wrapIndex i, ← axis.wrapIndex (i + 1), weight⟩ := by
  refine ⟨fun i ↦ ?_, fun i hi ↦ hi.exists_linear_eq_ok hsound, fun mode hmode normalized c ↦ ?_⟩
  · obtain ⟨j, hj⟩ := FixedPoint.OffsetAxis.exists_wrapIndex_eq_ok hsound i
    exact ⟨j, hj, by rw [axis.nearest_eq, hj]; rfl⟩
  · exact ⟨FixedPoint.OffsetAxis.nearest_wrapAxis hmode normalized c,
      FixedPoint.OffsetAxis.exists_linear_wrapAxis hmode normalized c⟩

/-- Before the first of three repeated texels is the last, and its neighbour is the first. -/
theorem linear_offsets_wrap_neighbours_three :
    let axis : FixedPoint.OffsetAxis := ⟨.repeating, 3, 4, false⟩
    axis.nearest (-1) = .ok 8 ∧ axis.linear (-1) = .ok (8, 0) := by
  intro axis
  obtain ⟨hnearest, hlinear, -⟩ := @linear_offsets_wrap_neighbours axis
    ⟨by decide, fun h ↦ absurd h (by decide)⟩
  obtain ⟨j, hj, hnearest⟩ := hnearest (-1)
  obtain ⟨k, k', hk, hk', hlinear⟩ := hlinear (-1) (.inr ⟨by decide, by decide⟩)
  have hlast : axis.wrapIndex (-1) = .ok 2 := by decide +kernel
  have hfirst : axis.wrapIndex (-1 + 1) = .ok 0 := by decide +kernel
  obtain rfl := Except.ok.inj (hlast.symm.trans hj)
  obtain rfl := Except.ok.inj (hlast.symm.trans hk)
  obtain rfl := Except.ok.inj (hfirst.symm.trans hk')
  exact ⟨hnearest, hlinear⟩

end QuadSampler
