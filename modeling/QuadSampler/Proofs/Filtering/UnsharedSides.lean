import QuadSampler.Proofs.Filtering.BlendTree
import QuadSampler.Proofs.Single.Order

/-!
# Sides of blends that have no share

A blend with weight zero multiplies the difference of its sides by zero. If that difference is
finite, nothing is left of the second side but the sign of a zero, and if not, not-a-number is left
of both (`BlendTree.DropsFinitely`).

A tree is *framed* if its second sides along some axes have no share and all texels apart from
those sides are of one kind. Then two ways to fetch texels that agree on that kind give it one
colour, up to the signs of zeros, as long as differences are finite in both
(`BlendTree.Framed.position_color_eq`). Zeros of either sign are blended alike from there on, since
no operation of a blend tells them apart in more than the sign of another zero.
-/

namespace QuadSampler

/-! ## Numbers at one place -/

namespace Single

private theorem eq_infinite_of_position {x : Single} {s : Bool}
    (h : x.position = some (signed s overflow)) : x = infinite s := by
  cases x with
  | nan => exact nomatch h
  | infinite t =>
    have hends : signed t overflow = signed s overflow := Option.some.inj h
    cases s <;> cases t <;> first | rfl | exact absurd hends (by decide)
  | finite t n hn =>
    have hends : signed t n = signed s overflow := Option.some.inj h
    have hn_eq : n = overflow := by rw [← natAbs_signed t n, hends, natAbs_signed]
    exact absurd hn.1 (by omega)

/-- Numbers at one place are one number, or zeros. -/
theorem eq_or_isAt_zero {x y : Single} (h : x.position = y.position) :
    x = y ∨ x.IsAt 0 ∧ y.IsAt 0 := by
  cases x with
  | nan => exact .inl (eq_nan_of_position h.symm).symm
  | infinite s => exact .inl (eq_infinite_of_position h.symm).symm
  | finite s m hm =>
    have hx : (finite s m hm).IsAt (signed s m) := ⟨s, m, hm, rfl, rfl⟩
    have hy : y.IsAt (signed s m) := isAt_of_position h.symm hx.representable.1
    by_cases hz : signed s m = 0
    · rw [hz] at hx hy
      exact .inr ⟨hx, hy⟩
    · exact .inl (hx.eq hy hz)

private theorem position_neg_congr {x x' : Single} (h : x.position = x'.position) :
    (-x).position = (-x').position := by
  obtain rfl | ⟨hx, hx'⟩ := eq_or_isAt_zero h
  · rfl
  · rw [hx.neg.position, hx'.neg.position]

private theorem position_add_isAt_zero (x : Single) {y : Single} (hy : y.IsAt 0) :
    (x + y).position = x.position := by
  cases x with
  | finite s m hm =>
    have hx : (finite s m hm).IsAt (signed s m) := ⟨s, m, hm, rfl, rfl⟩
    rw [(hx.add_of_isAt_zero hy).position, hx.position]
  | nan => rfl
  | infinite s =>
    obtain ⟨t, n, hn, rfl, -⟩ := hy
    rfl

private theorem position_isAt_zero_add {x : Single} (hx : x.IsAt 0) (y : Single) :
    (x + y).position = y.position := by
  cases y with
  | finite s m hm =>
    have hy : (finite s m hm).IsAt (signed s m) := ⟨s, m, hm, rfl, rfl⟩
    rw [hx.position_add hy, Int.zero_add, place_one hy.representable, hy.position]
  | nan =>
    obtain ⟨t, n, hn, rfl, -⟩ := hx
    rfl
  | infinite s =>
    obtain ⟨t, n, hn, rfl, -⟩ := hx
    rfl

theorem position_add_congr {x x' y y' : Single} (hx : x.position = x'.position)
    (hy : y.position = y'.position) : (x + y).position = (x' + y').position := by
  obtain rfl | ⟨hx, hx'⟩ := eq_or_isAt_zero hx
  · obtain rfl | ⟨hy, hy'⟩ := eq_or_isAt_zero hy
    · rfl
    · rw [position_add_isAt_zero x hy, position_add_isAt_zero x hy']
  · rw [position_isAt_zero_add hx, position_isAt_zero_add hx', hy]

private theorem mul_isAt_zero_eq_nan {w x : Single} (hw : ¬ w.IsFinite) (hx : x.IsAt 0) :
    w * x = nan := by
  obtain ⟨t, n, hn, rfl, hzero⟩ := hx
  obtain rfl : n = 0 := by rw [← natAbs_signed t n, hzero, Int.natAbs_zero]
  cases w with
  | nan | infinite s => rfl
  | finite s m hm => exact absurd ⟨_, s, m, hm, rfl, rfl⟩ hw

private theorem position_mul_congr (w : Single) {x x' : Single} (h : x.position = x'.position) :
    (w * x).position = (w * x').position := by
  obtain rfl | ⟨hx, hx'⟩ := eq_or_isAt_zero h
  · rfl
  · by_cases hw : w.IsFinite
    · rw [(hw.mul_isAt_zero hx).position, (hw.mul_isAt_zero hx').position]
    · rw [mul_isAt_zero_eq_nan hw hx, mul_isAt_zero_eq_nan hw hx']

private theorem position_lerp_congr (w : Single) {a a' b b' : Single}
    (ha : a.position = a'.position)
    (hb : b.position = b'.position) : (lerp w a b).position = (lerp w a' b').position :=
  position_add_congr ha (position_mul_congr w (position_add_congr hb (position_neg_congr ha)))

private theorem position_lerp_of_isAt_zero {w a b : Single} (hw : w.IsAt 0) (h : (b - a).IsFinite) :
    (lerp w a b).position = a.position :=
  position_add_isAt_zero a (hw.mul_of_isAt_zero h)

end Single

/-! ## Framed trees -/

namespace BlendTree

/-- Trees with indices of one kind at all leaves, but for the second sides along some axes, which
have no share. -/
inductive Framed (P : Axes Int32 → Prop) (far : Fin 3 → Prop) : BlendTree → Prop
  | texel {p : Axes Int32} (h : P p) : Framed P far (texel p)
  | blend {axis : Fin 3} {weight : Single} {first second : BlendTree} (hnear : ¬ far axis)
      (hfirst : Framed P far first) (hsecond : Framed P far second) :
      Framed P far (blend axis weight first second)
  | edge {axis : Fin 3} {weight : Single} {first second : BlendTree} (hfar : far axis)
      (hweight : weight.IsAt 0) (hfirst : Framed P far first) :
      Framed P far (blend axis weight first second)

/-- Whether the second sides along some axes differ by finite numbers from the first sides, but for
nodes on second sides themselves. -/
def DropsFinitely (far : Fin 3 → Prop) (fetch : Axes Int32 → Except Fault (Color Single))
    (channel : Selector) : BlendTree → Prop
  | texel _ => True
  | blend axis _ first second =>
    first.DropsFinitely far fetch channel ∧
      (far axis → ∀ near dropped, first.color fetch = .ok near → second.color fetch = .ok dropped →
        (Selector.select 0 1 dropped channel - Selector.select 0 1 near channel).IsFinite) ∧
      (¬ far axis → second.DropsFinitely far fetch channel)

section Color

variable {P : Axes Int32 → Prop} {far : Fin 3 → Prop} {tree : BlendTree}
  {fetch fetch' : Axes Int32 → Except Fault (Color Single)} {color color' : Color Single}
  {channel : Selector}

theorem exists_color_of_color
    (hfetch : ∀ p texel, fetch p = .ok texel → ∃ texel', fetch' p = .ok texel')
    (h : tree.color fetch = .ok color) : ∃ color', tree.color fetch' = .ok color' := by
  induction tree generalizing color with
  | texel p => exact hfetch p color h
  | blend axis weight first second ihfirst ihsecond =>
    obtain ⟨near, other, hnear, hother, -⟩ := exists_of_color_blend h
    obtain ⟨near', hnear'⟩ := ihfirst hnear
    obtain ⟨other', hother'⟩ := ihsecond hother
    exact ⟨_, bind_eq_ok.2 ⟨near', hnear', bind_eq_ok.2 ⟨other', hother', rfl⟩⟩⟩

theorem Framed.color_eq (h : Framed P far tree) (hnone : ∀ axis, ¬ far axis)
    (hfetch : ∀ p, P p → fetch p = fetch' p) : tree.color fetch = tree.color fetch' := by
  induction h with
  | texel hp => exact hfetch _ hp
  | blend _ _ _ ihfirst ihsecond => rw [color, color, ihfirst, ihsecond]
  | edge hfar _ _ _ => exact absurd hfar (hnone _)

theorem Framed.color_eq_nan (hchannel : channel ≠ .zero ∧ channel ≠ .one) (h : Framed P far tree)
    (hcolor : tree.color fetch = .ok color) (hdrops : ¬ tree.DropsFinitely far fetch channel) :
    Selector.select 0 1 color channel = .nan := by
  induction h generalizing color with
  | texel => exact absurd trivial hdrops
  | @blend axis weight first second hnear _ _ ihfirst ihsecond =>
    obtain ⟨near, other, hfirst, hsecond, rfl⟩ := exists_of_color_blend hcolor
    rw [select_lerpColor _ _ _ hchannel]
    by_cases hleft : first.DropsFinitely far fetch channel
    · rw [ihsecond hsecond fun hright ↦ hdrops ⟨hleft, (absurd · hnear), fun _ ↦ hright⟩,
        Single.lerp_nan_right]
    · rw [ihfirst hfirst hleft, Single.lerp_nan_left]
  | @edge axis weight first second hfar hweight _ ihfirst =>
    obtain ⟨near, other, hfirst, hsecond, rfl⟩ := exists_of_color_blend hcolor
    rw [select_lerpColor _ _ _ hchannel]
    by_cases hleft : first.DropsFinitely far fetch channel
    · refine Single.lerp_eq_nan_of_isAt_zero hweight fun hfinite ↦ hdrops ⟨hleft, ?_, ?_⟩
      · intro _ near' dropped hnear' hdropped
        obtain rfl := Except.ok.inj (hfirst.symm.trans hnear')
        obtain rfl := Except.ok.inj (hsecond.symm.trans hdropped)
        exact hfinite
      · exact (absurd hfar ·)
    · rw [ihfirst hfirst hleft, Single.lerp_nan_left]

/-- Texels that stand for one kind of indices alike give a framed tree one colour, up to the signs
of zeros, if differences are finite with both. -/
theorem Framed.position_color_eq (hchannel : channel ≠ .zero ∧ channel ≠ .one)
    (h : Framed P far tree) (hfetch : ∀ p, P p → fetch p = fetch' p)
    (hcolor : tree.color fetch = .ok color) (hcolor' : tree.color fetch' = .ok color')
    (hdrops : tree.DropsFinitely far fetch channel)
    (hdrops' : tree.DropsFinitely far fetch' channel) :
    (Selector.select 0 1 color channel).position
      = (Selector.select 0 1 color' channel).position := by
  induction h generalizing color color' with
  | texel hp =>
    have heq : Except.ok color = Except.ok color' := hcolor.symm.trans ((hfetch _ hp).trans hcolor')
    rw [Except.ok.inj heq]
  | blend hnear _ _ ihfirst ihsecond =>
    obtain ⟨near, other, hfirst, hsecond, rfl⟩ := exists_of_color_blend hcolor
    obtain ⟨near', other', hfirst', hsecond', rfl⟩ := exists_of_color_blend hcolor'
    rw [select_lerpColor _ _ _ hchannel, select_lerpColor _ _ _ hchannel]
    exact Single.position_lerp_congr _ (ihfirst hfirst hfirst' hdrops.1 hdrops'.1)
      (ihsecond hsecond hsecond' (hdrops.2.2 hnear) (hdrops'.2.2 hnear))
  | edge hfar hweight _ ihfirst =>
    obtain ⟨near, other, hfirst, hsecond, rfl⟩ := exists_of_color_blend hcolor
    obtain ⟨near', other', hfirst', hsecond', rfl⟩ := exists_of_color_blend hcolor'
    rw [select_lerpColor _ _ _ hchannel, select_lerpColor _ _ _ hchannel,
      Single.position_lerp_of_isAt_zero hweight (hdrops.2.1 hfar near other hfirst hsecond),
      Single.position_lerp_of_isAt_zero hweight (hdrops'.2.1 hfar near' other' hfirst' hsecond')]
    exact ihfirst hfirst hfirst' hdrops.1 hdrops'.1

end Color

/-- Blends along axes make a framed tree, if first sides are of the kind, and second sides are so
too or have no share. -/
theorem framed_ofStraddles {P : Axes Int32 → Prop} {far : Fin 3 → Prop} {Q : Fin 3 → Int32 → Prop}
    (hP : ∀ p : Axes Int32, (∀ axis, Q axis (p.get axis)) → P p)
    {straddles : List (Fin 3 × Straddle Single)} (hfirst : ∀ v ∈ straddles, Q v.1 v.2.first)
    (hsecond : ∀ v ∈ straddles, ¬ far v.1 → Q v.1 v.2.second)
    (hweight : ∀ v ∈ straddles, far v.1 → v.2.weight.IsAt 0) {p : Axes Int32}
    (hother : ∀ axis ∉ straddles.map Prod.fst, Q axis (p.get axis)) :
    Framed P far (ofStraddles straddles p) := by
  induction straddles generalizing p with
  | nil => exact .texel (hP p fun axis ↦ hother axis List.not_mem_nil)
  | cons v inner ih =>
    have hset : ∀ i, Q v.1 i → Framed P far (ofStraddles inner (p.set v.1 i)) := by
      intro i hi
      refine ih (fun u hu ↦ hfirst u (.tail v hu)) (fun u hu ↦ hsecond u (.tail v hu))
        (fun u hu ↦ hweight u (.tail v hu)) fun axis haxis ↦ ?_
      by_cases heq : axis = v.1
      · rwa [heq, p.get_set_self]
      · rw [p.get_set_of_ne heq]
        refine hother axis fun hmem ↦ ?_
        rw [List.map_cons, List.mem_cons] at hmem
        exact hmem.elim heq haxis
    by_cases hfar : far v.1
    · exact .edge hfar (hweight v (.head inner) hfar) (hset _ (hfirst v (.head inner)))
    · exact .blend hfar (hset _ (hfirst v (.head inner))) (hset _ (hsecond v (.head inner) hfar))

end BlendTree

end QuadSampler
